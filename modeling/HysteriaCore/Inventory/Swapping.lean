import HysteriaCore.Inventory.Splitting

/-!
# The swap

A swap takes its items out only after every check, and puts each where a plan of one position says. The
exchange of two bags moves the items of one into the slots of the other before.
-/

namespace HysteriaCore.Inventory
open Lib

namespace Player
variable {t : Templates} {p q r : Player} {g : Guid} (checks : Checks t)

/-! ### Plans of one position -/

variable {bag slot : ℕ}

theorem canGo_single {swap : Bool} (hexplicit : bag ≠ NULL_BAG ∧ slot ≠ NULL_SLOT)
    (hstore : (IsInventoryPos bag slot || IsBankPos bag slot) = true)
    (hcount : 1 ≤ (p.items g).count ∧ (p.items g).count ≤ (p.template t g).GetMaxStackSize)
    (hok : (canGo checks p bag slot g swap).1 = .ok) :
    (specific t p g bag slot swap).1 = .ok ∧
      ((swap = true ∨ ∀ g2, p.otherItem (t := t) g bag slot = some g2 →
          (p.items g).count + (p.items g2).count ≤ (p.template t g).GetMaxStackSize) →
        (canGo checks p bag slot g swap).2 = [⟨bag, slot, (p.items g).count⟩]) := by
  have hplan : (specific t p g bag slot swap).1 = .ok ∧ ((specific t p g bag slot swap).2.count = 0 →
      (canGo checks p bag slot g swap).2 = (specific t p g bag slot swap).2.dest) := by
    rcases canGo_cases checks hstore swap with heq | heq
    · rw [heq] at hok ⊢
      exact CanStoreItem_explicit hexplicit hcount hok
    · rw [heq] at hok ⊢
      exact CanBankItem_explicit hexplicit hok
  refine ⟨hplan.1, fun hroom => ?_⟩
  obtain ⟨hsingle, -⟩ := specific_single hcount.2 hroom hplan.1
  rw [hplan.2 (by rw [hsingle]), hsingle]

variable {place : Place}

theorem goes_free (dest : List ItemPosCount) (hloose : p.Loose g)
    (hkind : hasKind bag slot = true) (hresolve : p.resolve t bag slot = some place) (hfree : p.at? place = none)
    (hdest : (IsInventoryPos bag slot || IsBankPos bag slot) = true → dest = [⟨bag, slot, (p.items g).count⟩]) :
    goes (t := t) p bag slot g dest = p.setPlace place g := by
  obtain hstore | ⟨hstore, hequip⟩ := hasKind_cases hkind
  · have hsame : p.SetCount g (p.items g).count = p := by
      unfold SetCount modifyItem
      exact congrArg (fun items => { p with items := items }) (Function.update_eq_self g p.items)
    unfold goes
    rw [if_pos hstore, hdest hstore]
    unfold StoreItem _StoreItem
    rw [GetItemByPos_eq hresolve, hfree]
    simp only [Bool.false_eq_true, if_false]
    rw [hsame]
    exact place_eq hloose hresolve
  · obtain ⟨-, hown⟩ := resolve_equipment (p := p) (t := t) hequip
    rw [hown, Option.some.injEq] at hresolve
    subst hresolve
    exact goes_equipment hstore hequip hfree

/-! ### What the checks exclude -/

/-- The item that moves, the slot that it comes from and the one that it goes to, past the checks. -/
structure Passed (t : Templates) (p : Player) (srcbag srcslot dstbag dstslot : ℕ) (pSrcItem : Guid)
    (pDstItem : Option Guid) (a b : Place) : Prop where
  sound : p.Sound t
  src : (srcbag ≠ NULL_BAG ∧ srcslot ≠ NULL_SLOT) ∧ hasKind srcbag srcslot = true
  dst : (dstbag ≠ NULL_BAG ∧ dstslot ≠ NULL_SLOT) ∧ hasKind dstbag dstslot = true
  resolve_src : p.resolve t srcbag srcslot = some a
  resolve_dst : p.resolve t dstbag dstslot = some b
  at_src : p.at? a = some pSrcItem
  at_dst : p.at? b = pDstItem
  ne : a ≠ b
  src_not_bag : a ≠ .own dstbag
  dst_not_bag : b ≠ .own srcbag

theorem resolve_ne_own (h : p.resolve t bag slot = some place) : place ≠ .own bag := by
  rintro rfl
  obtain ⟨hbag, hslot⟩ := resolve_own h
  rw [← hslot, hbag] at h
  have hnone : p.resolve t INVENTORY_SLOT_BAG_0 INVENTORY_SLOT_BAG_0 = none := rfl
  rw [hnone] at h
  simp at h

theorem bagPos_of_own {bag slot bag2 slot2 : ℕ} (h1 : p.resolve t bag slot = some (.own bag2))
    (h2 : p.resolve t bag2 slot2 = some place) : slot = bag2 ∧ IsBagPos bag slot = true := by
  obtain ⟨rfl, rfl⟩ := resolve_own h1
  refine ⟨rfl, (resolve_bagPos h2).resolve_left fun heq => ?_⟩
  rw [heq] at h1
  exact resolve_ne_own h1 rfl

theorem Sound.passed (h : p.Sound t) {srcbag srcslot dstbag dstslot : ℕ} {pSrcItem : Guid}
    (hsrc : ExplicitPos t p srcbag srcslot) (hdst : ExplicitPos t p dstbag dstslot)
    (hne : (srcbag, srcslot) ≠ (dstbag, dstslot)) (hat : p.GetItemByPos t srcbag srcslot = some pSrcItem)
    (hchecks : swapRefused checks p srcbag srcslot dstbag dstslot pSrcItem (p.GetItemByPos t dstbag dstslot) = none) :
    ∃ a b, Passed t p srcbag srcslot dstbag dstslot pSrcItem (p.GetItemByPos t dstbag dstslot) a b := by
  obtain ⟨a, hresolve, hata⟩ := GetItemByPos_some hat
  obtain ⟨hsrcExplicit, -, hsrcKind⟩ := hsrc.spec
  obtain ⟨hdstExplicit, ⟨b, hresolve'⟩, hdstKind⟩ := hdst.spec
  unfold swapRefused at hchecks
  split at hchecks
  · simp at hchecks
  split at hchecks
  · simp at hchecks
  split at hchecks
  · simp at hchecks
  split at hchecks
  · simp at hchecks
  split at hchecks
  · simp at hchecks
  rename_i hself
  split at hchecks
  · simp at hchecks
  rename_i hinside
  refine ⟨a, b, h, ⟨hsrcExplicit, hsrcKind⟩, ⟨hdstExplicit, hdstKind⟩, hresolve, hresolve', hata, (GetItemByPos_eq hresolve').symm, ?_, ?_, ?_⟩
  · rintro rfl
    exact hne (h.resolve_inj hresolve hresolve')
  · rintro rfl
    obtain ⟨hslot, hpos⟩ := bagPos_of_own hresolve hresolve'
    exact hself (by rw [hpos, decide_eq_true hslot]; rfl)
  · rintro rfl
    obtain ⟨hslot, hpos⟩ := bagPos_of_own hresolve' hresolve
    exact hinside (by rw [hpos, decide_eq_true hslot.symm]; rfl)

/-! ### Move -/

theorem Sound.unequips (h : q.Sound t) (hcarries : Carries p q [] []) (htotal : ∀ e, q.total e = p.total e) :
    Answered t p (.done, AutoUnequipOffhandIfNeed checks q) := by
  obtain ⟨hsound, hconserves⟩ := h.autoUnequip checks
  exact ⟨hsound, hcarries.then_conserves htotal hconserves, fun hne => absurd rfl hne⟩

theorem answered_done (h : q.Sound t) (hcarries : Carries p q [] []) (htotal : ∀ e, q.total e = p.total e) :
    Answered t p (.done, q) :=
  ⟨h, hcarries.conserves htotal, fun hne => absurd rfl hne⟩

variable {srcbag srcslot dstbag dstslot : ℕ} {pSrcItem pDstItem : Guid} {a b : Place}

theorem otherItem_none (hresolve : p.resolve t bag slot = some place)
    (hfree : p.at? place = none) : p.otherItem (t := t) g bag slot = none := by
  unfold otherItem
  rw [GetItemByPos_eq hresolve, hfree]
  rfl

theorem Taken.put {place place' : Place} (htaken : Taken t p q place g) (h : p.Sound t) (hat : p.at? place = some g)
    (hresolve : q.resolve t bag slot = some place') (hfree : q.at? place' = none) :
    Put t q (q.setPlace place' g) place' g := by
  refine htaken.sound.put htaken.loose ?_ (htaken.sound.receives htaken.loose hresolve) hfree
  rw [htaken.count, template_congr (htaken.entry g)]
  exact h.counts hat

theorem Passed.moveItem (h : Passed t p srcbag srcslot dstbag dstslot pSrcItem none a b) :
    Answered t p (moveItem checks p srcbag srcslot dstbag dstslot pSrcItem) := by
  obtain ⟨hexplicit, hkind⟩ := h.dst
  have hcount := h.sound.counts h.at_src
  have htaken := h.sound.taken h.resolve_src h.at_src
  unfold Inventory.moveItem
  simp only [hkind, Bool.not_true, Bool.false_eq_true, if_false]
  split
  · exact h.sound.answered_same _
  rename_i hok
  rw [ne_eq, not_not] at hok
  have hdest : (IsInventoryPos dstbag dstslot || IsBankPos dstbag dstslot) = true →
      (canGo checks p dstbag dstslot pSrcItem false).2 =
        [⟨dstbag, dstslot, ((p.RemoveItem t srcbag srcslot).items pSrcItem).count⟩] := by
    intro hstore
    rw [htaken.count]
    refine (canGo_single checks hexplicit hstore hcount hok).2 (.inr fun g2 hother => ?_)
    rw [otherItem_none h.resolve_dst h.at_dst] at hother
    simp at hother
  have hresolve := htaken.resolve h.resolve_dst h.src_not_bag
  have hfree := htaken.at_none h.at_dst
  have hput := htaken.put h.sound h.at_src hresolve hfree
  have hcarries := (htaken.carries []).trans (hput.carries [])
  have htotal : ∀ e, ((p.RemoveItem t srcbag srcslot).setPlace b pSrcItem).total e = p.total e := by
    intro e
    rw [hput.total, worth_congr (htaken.entry pSrcItem) htaken.count]
    exact htaken.total e
  unfold goesAndUnequips
  rw [goes_free _ htaken.loose hkind hresolve hfree hdest]
  split
  · exact answered_done hput.sound hcarries htotal
  · exact hput.sound.unequips checks hcarries htotal

/-! ### Merge and fill -/

theorem Passed.items_ne (h : Passed t p srcbag srcslot dstbag dstslot pSrcItem (some pDstItem) a b) :
    pDstItem ≠ pSrcItem := by
  rintro rfl
  exact h.ne (h.sound.unique h.at_src h.at_dst)

theorem Passed.otherItem (h : Passed t p srcbag srcslot dstbag dstslot pSrcItem (some pDstItem) a b) :
    p.otherItem (t := t) pSrcItem dstbag dstslot = some pDstItem := by
  unfold Player.otherItem
  rw [GetItemByPos_eq h.resolve_dst, h.at_dst]
  exact Option.filter_eq_some_iff.mpr ⟨rfl, decide_eq_true h.items_ne⟩

theorem Passed.mergeItem (h : Passed t p srcbag srcslot dstbag dstslot pSrcItem (some pDstItem) a b)
    (hbag : p.IsBag t pSrcItem = false) (hok : (canGo checks p dstbag dstslot pSrcItem false).1 = .ok) :
    Answered t p (.done, mergeItem checks p srcbag srcslot dstbag dstslot pSrcItem pDstItem
      (canGo checks p dstbag dstslot pSrcItem false).2) := by
  obtain ⟨hexplicit, hkind⟩ := h.dst
  have hcount := h.sound.counts h.at_src
  have hcount' := h.sound.counts h.at_dst
  obtain hstore | ⟨hstore, hequip⟩ := hasKind_cases hkind
  · obtain ⟨hspecific, hsingle⟩ := canGo_single checks hexplicit hstore hcount hok
    have hentry := specific_entry h.otherItem hspecific
    have htemplate : p.template t pDstItem = p.template t pSrcItem := congrArg t hentry
    rw [htemplate] at hcount'
    unfold Inventory.mergeItem
    split
    · rename_i hsum
      have htaken := h.sound.taken h.resolve_src h.at_src
      rw [hsingle (.inr fun g2 hother => ?_)]
      · have hfits : Fits t (p.RemoveItem t srcbag srcslot) pSrcItem
            ⟨dstbag, dstslot, (p.items pSrcItem).count⟩ := by
          refine ⟨hcount.1, ?_, b, htaken.resolve h.resolve_dst h.src_not_bag, ?_⟩
          · rw [template_congr (htaken.entry pSrcItem)]
            exact hcount.2
          · intro g2 hat hne
            rw [htaken.at_eq, if_neg h.ne.symm, h.at_dst, Option.some.injEq] at hat
            rw [← hat, htaken.others pDstItem h.items_ne, htaken.entry, template_congr (htaken.entry pSrcItem)]
            exact ⟨hentry, by rw [Nat.add_comm]; exact hsum⟩
        have hempty : p.IsNotEmptyBag t pSrcItem = false := by
          unfold IsNotEmptyBag
          rw [hbag, Bool.false_and]
        obtain ⟨hsound, htotal, hstored⟩ := htaken.sound.StoreItem [⟨dstbag, dstslot, (p.items pSrcItem).count⟩]
          htaken.loose (by simp) (by simp) (fun d hd => List.mem_singleton.mp hd ▸ hfits)
          fun s => htaken.at_none (h.sound.empty_of hempty s)
        unfold goesAndUnequips goes
        rw [if_pos hstore, if_pos hstore]
        refine answered_done hsound ((htaken.carries []).trans (hstored [])) fun e => ?_
        rw [htotal, List.map_singleton, List.sum_singleton, htaken.entry]
        exact htaken.total e
      · rw [h.otherItem, Option.some.injEq] at hother
        rw [← hother]
        exact hsum
    · rename_i hsum
      have hsrc := h.sound.SetCount h.at_src
        (n := (p.items pSrcItem).count + (p.items pDstItem).count - (p.template t pSrcItem).GetMaxStackSize)
        (by omega) (by omega)
      generalize hn : (p.items pSrcItem).count + (p.items pDstItem).count -
        (p.template t pSrcItem).GetMaxStackSize = n at hsrc ⊢
      have hdstItem : (p.SetCount pSrcItem n).items pDstItem = p.items pDstItem :=
        items_modifyItem_of_ne _ h.items_ne
      have hdst := hsrc.SetCount (n := (p.template t pSrcItem).GetMaxStackSize) h.at_dst
        (ItemTemplate.GetMaxStackSize_pos _) (by unfold template; rw [hdstItem, hentry])
      refine answered_done hdst
        ((carries_SetCount (h.sound.not_mailed h.at_src) n []).trans
          (carries_SetCount (hsrc.not_mailed h.at_dst) _ [])) fun e => ?_
      have hfirst := h.sound.total_SetCount h.at_src n e
      have hsecond := hsrc.total_SetCount h.at_dst (p.template t pSrcItem).GetMaxStackSize e
      unfold worth at hfirst hsecond
      rw [hdstItem, hentry] at hsecond
      by_cases he : (p.items pSrcItem).entry = e
      · rw [if_pos he, if_pos he] at hfirst hsecond
        omega
      · rw [if_neg he, if_neg he] at hfirst hsecond
        omega
  · rw [canGo_equipment checks hstore hequip] at hok
    have hfree := checks.equip_empty _ _ _ hok
    have hown := (resolve_equipment (p := p) (t := t) hequip).2
    rw [h.resolve_dst, Option.some.injEq] at hown
    have hat := h.at_dst
    rw [hown, hfree] at hat
    simp at hat

/-! ### The exchange of two bags -/

/-- The items of one bag are now in the other: nothing else has changed. -/
structure Exchanged (t : Templates) (p q : Player) (emptyBag fullBag : Guid) : Prop where
  sound : q.Sound t
  total : ∀ e, q.total e = p.total e
  carries : Carries p q [] []
  at_eq : ∀ pl, pl.container ≠ some emptyBag → pl.container ≠ some fullBag → q.at? pl = p.at? pl
  entry : ∀ g, (q.items g).entry = (p.items g).entry
  count : ∀ g, (q.items g).count = (p.items g).count

theorem exchanged_refl (h : p.Sound t) (emptyBag fullBag : Guid) : Exchanged t p p emptyBag fullBag :=
  ⟨h, fun _ => rfl, .of_kept rfl rfl (fun _ => rfl) fun _ h => h, fun _ _ _ => rfl, fun _ => rfl, fun _ => rfl⟩

variable {emptyBag fullBag : Guid}

theorem Exchanged.trans (hpq : Exchanged t p q emptyBag fullBag)
    (hqr : Exchanged t q r emptyBag fullBag) : Exchanged t p r emptyBag fullBag :=
  ⟨hqr.sound, fun e => (hqr.total e).trans (hpq.total e), hpq.carries.trans hqr.carries,
    fun pl he hf => (hqr.at_eq pl he hf).trans (hpq.at_eq pl he hf),
    fun g => (hqr.entry g).trans (hpq.entry g), fun g => (hqr.count g).trans (hpq.count g)⟩

theorem Put.count (h : Put t p (p.setPlace place g) place g) (g' : Guid) :
    ((p.setPlace place g).items g').count = (p.items g').count := by
  by_cases hne : g' = g
  · rw [hne, items_setPlace_self]
  · rw [h.others g' hne]

theorem Sound.exchanged_one (h : p.Sound t) {i c : ℕ} {item : Guid}
    (hempty : p.at? place = some emptyBag) (houtside : ∀ s, place ≠ .bag fullBag s)
    (hbag : p.IsBag t emptyBag = true) (hlt : c < p.GetBagSize t emptyBag)
    (hat : p.at? (.bag fullBag i) = some item) (hfree : p.at? (.bag emptyBag c) = none) :
    ∃ q, (p.bagRemoveItem fullBag i).bagStoreItem emptyBag c item = q ∧ Exchanged t p q emptyBag fullBag ∧
      ∀ pl, q.at? pl = if Place.bag emptyBag c = pl then some item else if pl = .bag fullBag i then none
        else p.at? pl := by
  have hne : item ≠ emptyBag := by
    rintro rfl
    exact houtside i (h.unique hempty hat)
  have htaken := h.taken_of hat (f := fun i => { i with container := none }) (fun _ => rfl) fun _ => rfl
  have hremove : p.bagRemoveItem fullBag i =
      (p.clearPlace (.bag fullBag i)).modifyItem item fun i => { i with container := none } := by
    unfold bagRemoveItem
    rw [hat]
    rfl
  rw [← hremove] at htaken
  refine ⟨_, rfl, ?_⟩
  unfold bagStoreItem
  rw [if_pos hne]
  generalize p.bagRemoveItem fullBag i = q at htaken
  have hreceives : Receives t q item (.bag emptyBag c) := by
    show emptyBag ≠ item ∧ q.IsBag t emptyBag = true ∧ c < q.GetBagSize t emptyBag ∧ _
    unfold IsBag GetBagSize
    rw [template_congr (htaken.entry emptyBag), htaken.same.2.1, htaken.same.2.2]
    exact ⟨hne.symm, hbag, hlt, h.known hempty, fun hmem => (h.gone (.inl hmem)).2 _ hempty⟩
  have hput := htaken.sound.put htaken.loose (by
    rw [htaken.count, template_congr (htaken.entry item)]
    exact h.counts hat) hreceives (htaken.at_none hfree)
  refine ⟨⟨hput.sound, ?_, (htaken.carries []).trans (hput.carries []), ?_, ?_, ?_⟩, ?_⟩
  · intro e
    rw [hput.total, worth_congr (htaken.entry item) htaken.count]
    exact htaken.total e
  · intro pl he hf
    rw [hput.at_eq, if_neg (by rintro rfl; exact he rfl), htaken.at_eq, if_neg (by rintro rfl; exact hf rfl)]
  · exact fun g => (hput.entry g).trans (htaken.entry g)
  · intro g'
    rw [hput.count]
    by_cases hitem : g' = item
    · rw [hitem, htaken.count]
    · rw [htaken.others g' hitem]
  · intro pl
    rw [hput.at_eq, htaken.at_eq]

theorem Sound.exchanged_all (houtside : ∀ s, place ≠ .bag fullBag s)
    (hplace : place.container ≠ some emptyBag) (hbags : emptyBag ≠ fullBag) (rest : List (ℕ × Guid)) :
    ∀ {p : Player} {c : ℕ}, p.Sound t → p.at? place = some emptyBag → p.IsBag t emptyBag = true →
      c + rest.length ≤ p.GetBagSize t emptyBag → (∀ i ∈ rest, p.at? (.bag fullBag i.1) = some i.2) →
      (rest.map Prod.fst).Nodup → (∀ k, c ≤ k → p.at? (.bag emptyBag k) = none) →
      Exchanged t p ((rest.zipIdx c).foldl
        (fun q i => (q.bagRemoveItem fullBag i.1.1).bagStoreItem emptyBag i.2 i.1.2) p) emptyBag fullBag := by
  induction rest with
  | nil => exact fun h _ _ _ _ _ _ => exchanged_refl h emptyBag fullBag
  | cons x rest ih =>
    intro p c h hempty hbag hsize hitems hnodup hfree
    rw [List.length_cons] at hsize
    rw [List.map_cons, List.nodup_cons] at hnodup
    obtain ⟨q, hq, hexchanged, hat⟩ := h.exchanged_one hempty houtside hbag (by omega)
      (hitems x List.mem_cons_self) (hfree c (Nat.le_refl c))
    have htemplate : q.template t emptyBag = p.template t emptyBag := template_congr (hexchanged.entry emptyBag)
    rw [List.zipIdx_cons, List.foldl_cons, hq]
    refine hexchanged.trans (ih hexchanged.sound ?_ ?_ ?_ ?_ hnodup.2 ?_)
    · rw [hexchanged.at_eq place hplace]
      · exact hempty
      · cases place with
        | own s => simp [Place.container]
        | bag b s =>
          intro heq
          exact houtside s (by rw [Option.some.inj heq])
    · unfold IsBag at hbag ⊢
      rw [htemplate]
      exact hbag
    · unfold GetBagSize at hsize ⊢
      rw [htemplate]
      omega
    · intro i hi
      rw [hat, if_neg (by simp [hbags]), if_neg]
      · exact hitems i (List.mem_cons_of_mem _ hi)
      · intro heq
        simp only [Place.bag.injEq, true_and] at heq
        exact hnodup.1 (heq ▸ List.mem_map_of_mem hi)
    · intro k hk
      rw [hat, if_neg (by simp only [Place.bag.injEq, true_and]; omega), if_neg (by simp [hbags])]
      exact hfree k (by omega)

theorem mem_bagItems {bag : Guid} {i : ℕ × Guid} (h : i ∈ bagItems (t := t) p bag) :
    p.at? (.bag bag i.1) = some i.2 := by
  obtain ⟨k, -, hk⟩ := List.mem_filterMap.mp h
  obtain ⟨item, hitem, rfl⟩ := Option.map_eq_some_iff.mp hk
  exact hitem

theorem nodup_bagItems (p : Player) (bag : Guid) : ((bagItems (t := t) p bag).map Prod.fst).Nodup := by
  have hsub : ∀ slots : List ℕ, ((slots.filterMap fun i => (p.at? (.bag bag i)).map fun item => (i, item)).map
      Prod.fst).Sublist slots := by
    intro slots
    induction slots with
    | nil => simp
    | cons i rest ih =>
      cases hat : p.at? (.bag bag i) with
      | none =>
        rw [List.filterMap_cons_none (by rw [hat]; rfl)]
        exact ih.cons i
      | some item =>
        rw [List.filterMap_cons_some (b := (i, item)) (by rw [hat]; rfl), List.map_cons]
        exact ih.cons_cons i
  exact List.nodup_range.sublist (hsub _)

theorem Sound.exchanged (h : p.Sound t)
    (hempty : p.at? place = some emptyBag) (houtside : ∀ s, place ≠ .bag fullBag s) (hbags : emptyBag ≠ fullBag)
    (hbag : p.IsBag t emptyBag = true) (hnone : p.IsEmpty t emptyBag = true)
    (hok : Inventory.exchanged (t := t) p emptyBag fullBag = .ok q) : Exchanged t p q emptyBag fullBag := by
  have hslots : ∀ s, p.at? (.bag emptyBag s) = none := h.empty_of (by
    unfold IsNotEmptyBag
    rw [hnone, Bool.not_true, Bool.and_false])
  have hplace : place.container ≠ some emptyBag := by
    cases place with
    | own s => simp [Place.container]
    | bag b s =>
      intro heq
      rw [Option.some.inj heq, hslots s] at hempty
      simp at hempty
  unfold Inventory.exchanged at hok
  split at hok
  · simp at hok
  split at hok
  · simp at hok
  rename_i hsize
  rw [Except.ok.injEq] at hok
  rw [← hok]
  exact Sound.exchanged_all houtside hplace hbags _ h hempty hbag (by omega) (fun i hi => mem_bagItems hi)
    (nodup_bagItems p fullBag) fun k _ => hslots k

/-! ### The real swap -/

theorem Passed.outside (h : Passed t p srcbag srcslot dstbag dstslot pSrcItem (some pDstItem) a b) :
    (∀ s, a ≠ .bag pDstItem s) ∧ ∀ s, b ≠ .bag pSrcItem s := by
  constructor
  · rintro s rfl
    have hat := (GetBagByPos_spec (resolve_bag h.resolve_src).1).1
    exact h.dst_not_bag (h.sound.unique h.at_dst hat)
  · rintro s rfl
    have hat := (GetBagByPos_spec (resolve_bag h.resolve_dst).1).1
    exact h.src_not_bag (h.sound.unique h.at_src hat)

theorem canSwapTo_ok (hok : (canSwapTo checks p bag slot g).1 = .ok) :
    (canGo checks p bag slot g true).1 = .ok ∧ ((IsInventoryPos bag slot || IsBankPos bag slot) = true →
      (canSwapTo checks p bag slot g).2 = (canGo checks p bag slot g true).2) := by
  unfold canSwapTo at hok ⊢
  simp only at hok ⊢
  split at hok
  · rename_i hequip
    refine ⟨hequip.1, fun hstore => ?_⟩
    rw [hequip.2.1, hequip.2.2.1] at hstore
    simp at hstore
  · rename_i hequip
    rw [if_neg hequip]
    exact ⟨hok, fun _ => rfl⟩

theorem canSwapTo_single (h : p.Sound t) (hat : p.at? place = some g)
    (hexplicit : bag ≠ NULL_BAG ∧ slot ≠ NULL_SLOT) (hok : (canSwapTo checks p bag slot g).1 = .ok)
    (hstore : (IsInventoryPos bag slot || IsBankPos bag slot) = true) :
    (canSwapTo checks p bag slot g).2 = [⟨bag, slot, (p.items g).count⟩] := by
  obtain ⟨hgo, hsame⟩ := canSwapTo_ok checks hok
  rw [hsame hstore]
  exact (canGo_single checks hexplicit hstore (h.counts hat) hgo).2 (.inl rfl)

theorem Taken.loose_other {place place' : Place} {g' : Guid} (htaken : Taken t p q place g) (hloose : p.Loose g')
    (_ : p.at? place' = some g) : q.Loose g' := by
  refine ⟨htaken.same.2.1 ▸ hloose.known, fun pl hat => ?_, htaken.same.2.2 ▸ hloose.kept.1,
    (htaken.carries []).mailed ▸ hloose.kept.2⟩
  rw [htaken.at_eq] at hat
  split at hat
  · simp at hat
  · exact hloose.nowhere pl hat

theorem Put.loose_other {g' : Guid} (hput : Put t p q place g) (hloose : p.Loose g') (hne : g' ≠ g) : q.Loose g' := by
  refine ⟨hput.same.2.1 ▸ hloose.known, fun pl hat => ?_, hput.same.2.2.1 ▸ hloose.kept.1,
    hput.same.2.2.2 ▸ hloose.kept.2⟩
  rw [hput.at_eq] at hat
  split at hat
  · exact hne (Option.some.inj hat).symm
  · exact hloose.nowhere pl hat

theorem Passed.exchanged (h : Passed t p srcbag srcslot dstbag dstslot pSrcItem (some pDstItem) a b)
    (dest dest2 : List ItemPosCount)
    (hdest : (IsInventoryPos dstbag dstslot || IsBankPos dstbag dstslot) = true →
      dest = [⟨dstbag, dstslot, (p.items pSrcItem).count⟩])
    (hdest2 : (IsInventoryPos srcbag srcslot || IsBankPos srcbag srcslot) = true →
      dest2 = [⟨srcbag, srcslot, (p.items pDstItem).count⟩]) :
    Answered t p (.done, AutoUnequipOffhandIfNeed checks (goes (t := t)
      (goes (t := t) ((p.RemoveItem t dstbag dstslot).RemoveItem t srcbag srcslot) dstbag dstslot pSrcItem dest)
      srcbag srcslot pDstItem dest2)) := by
  have hkind := h.dst.2
  have hkind2 := h.src.2
  have hout := h.sound.taken h.resolve_dst h.at_dst
  generalize p.RemoveItem t dstbag dstslot = o at hout ⊢
  have hsrcAt : o.at? a = some pSrcItem := by
    rw [hout.at_eq, if_neg h.ne]
    exact h.at_src
  have hsrcResolve := hout.resolve h.resolve_src h.dst_not_bag
  have hout2 := hout.sound.taken hsrcResolve hsrcAt
  generalize o.RemoveItem t srcbag srcslot = o2 at hout2 ⊢
  have hdstResolve := hout2.resolve (hout.resolve h.resolve_dst (resolve_ne_own h.resolve_dst)) h.src_not_bag
  have hdstFree : o2.at? b = none := hout2.at_none (by rw [hout.at_eq, if_pos rfl])
  have hsrcItem : (o.items pSrcItem).count = (p.items pSrcItem).count := by rw [hout.others _ h.items_ne.symm]
  have hgoes := goes_free dest hout2.loose hkind hdstResolve hdstFree (by
    rw [hout2.count, hsrcItem]
    exact hdest)
  have hput := hout2.put hout.sound hsrcAt hdstResolve hdstFree
  rw [hgoes]
  generalize o2.setPlace b pSrcItem = f at hput ⊢
  have hloose2 : f.Loose pDstItem :=
    hput.loose_other (hout2.loose_other hout.loose hsrcAt) h.items_ne
  have hdstCount : (f.items pDstItem).count = (p.items pDstItem).count := by
    rw [hput.others _ h.items_ne, hout2.others _ h.items_ne, hout.count]
  have hresolve2 : f.resolve t srcbag srcslot = some a := by
    refine resolve_of_grows hout2.sound ?_ (fun g' _ => hput.entry g') (hout2.resolve hsrcResolve (resolve_ne_own hsrcResolve))
    intro pl g' hat
    rw [hput.at_eq, if_neg fun heq => by rw [← heq, hdstFree] at hat; simp at hat]
    exact hat
  have hfree2 : f.at? a = none := by
    rw [hput.at_eq, if_neg h.ne.symm, hout2.at_eq, if_pos rfl]
  rw [goes_free dest2 hloose2 hkind2 hresolve2 hfree2 (by
    rw [hdstCount]
    exact hdest2)]
  have hentry2 : (f.items pDstItem).entry = (p.items pDstItem).entry := by
    rw [hput.entry, hout2.entry, hout.entry]
  have hput2 := hput.sound.put hloose2 (by
    rw [hdstCount, template_congr hentry2]
    exact h.sound.counts h.at_dst) (hput.sound.receives hloose2 hresolve2) hfree2
  refine hput2.sound.unequips checks ((((hout.carries []).trans (hout2.carries _)).trans (hput.carries _)).trans
    (hput2.carries [])) fun e => ?_
  have hworth : o2.worth e pSrcItem = o.worth e pSrcItem := worth_congr (hout2.entry _) hout2.count e
  have hworth2 : f.worth e pDstItem = p.worth e pDstItem := worth_congr hentry2 hdstCount e
  have h1 := hout.total e
  have h2 := hout2.total e
  rw [hput2.total, hput.total]
  omega

theorem Passed.after_exchange (h : Passed t p srcbag srcslot dstbag dstslot pSrcItem (some pDstItem) a b)
    (hexchanged : Exchanged t p q pSrcItem pDstItem ∨ Exchanged t p q pDstItem pSrcItem) :
    Passed t q srcbag srcslot dstbag dstslot pSrcItem (some pDstItem) a b := by
  obtain ⟨hsound, hat, hentry⟩ : q.Sound t ∧
      (∀ pl, pl.container ≠ some pSrcItem → pl.container ≠ some pDstItem → q.at? pl = p.at? pl) ∧
      ∀ g, (q.items g).entry = (p.items g).entry := by
    rcases hexchanged with hone | hone
    · exact ⟨hone.sound, hone.at_eq, hone.entry⟩
    · exact ⟨hone.sound, fun pl h1 h2 => hone.at_eq pl h2 h1, hone.entry⟩
  have hown : ∀ s, q.at? (.own s) = p.at? (.own s) := fun s => hat _ (by simp [Place.container]) (by simp [Place.container])
  have hresolve : ∀ {bag slot place}, p.resolve t bag slot = some place → q.resolve t bag slot = some place := by
    intro bag slot place hpl
    refine resolve_mono hpl ?_ fun b _ _ => hentry b
    rintro b s rfl
    rw [hown]
    exact (GetBagByPos_spec (resolve_bag hpl).1).1
  have hself : ∀ {bag slot place g}, p.resolve t bag slot = some place → p.at? place = some g →
      place.container ≠ some g := by
    intro bag slot place g hpl hg
    cases place with
    | own s => simp [Place.container]
    | bag b s =>
      intro heq
      have hbag := (GetBagByPos_spec (resolve_bag hpl).1).1
      rw [Option.some.inj heq] at hbag
      have hsame := h.sound.unique hg hbag
      simp at hsame
  have hnot : ∀ {place : Place} {g}, (∀ s, place ≠ .bag g s) → place.container ≠ some g := by
    intro place g houtside
    cases place with
    | own s => simp [Place.container]
    | bag b s =>
      intro heq
      exact houtside s (by rw [Option.some.inj heq])
  refine ⟨hsound, h.src, h.dst, hresolve h.resolve_src, hresolve h.resolve_dst, ?_, ?_, h.ne, h.src_not_bag,
    h.dst_not_bag⟩
  · rw [hat a (hself h.resolve_src h.at_src) (hnot h.outside.1)]
    exact h.at_src
  · rw [hat b (hnot h.outside.2) (hself h.resolve_dst h.at_dst)]
    exact h.at_dst

theorem Passed.exchange (h : Passed t p srcbag srcslot dstbag dstslot pSrcItem (some pDstItem) a b)
    (hok : (bagExchange (t := t) p srcbag srcslot dstbag dstslot pSrcItem pDstItem).elim (.ok p)
      (fun bags => Inventory.exchanged (t := t) p bags.1 bags.2) = .ok q) :
    Exchanged t p q pSrcItem pDstItem ∨ Exchanged t p q pDstItem pSrcItem := by
  unfold bagExchange at hok
  split at hok
  · rename_i hbags
    rw [Bool.and_eq_true] at hbags
    split at hok
    · rename_i hempty
      rw [Bool.and_eq_true] at hempty
      exact .inl (h.sound.exchanged h.at_src h.outside.1 h.items_ne.symm hbags.1 hempty.1 hok)
    split at hok
    · rename_i hempty
      rw [Bool.and_eq_true] at hempty
      exact .inr (h.sound.exchanged h.at_dst h.outside.2 h.items_ne hbags.2 hempty.1 hok)
    · exact .inl (Except.ok.inj hok ▸ exchanged_refl h.sound _ _)
  · exact .inl (Except.ok.inj hok ▸ exchanged_refl h.sound _ _)

theorem Passed.realSwap (h : Passed t p srcbag srcslot dstbag dstslot pSrcItem (some pDstItem) a b) :
    Answered t p (realSwap checks p srcbag srcslot dstbag dstslot pSrcItem pDstItem) := by
  unfold Inventory.realSwap
  simp only
  split
  · exact h.sound.answered_same _
  rename_i hok
  split
  · exact h.sound.answered_same _
  rename_i hok2
  rw [ne_eq, not_not] at hok hok2
  cases hexchange : (bagExchange (t := t) p srcbag srcslot dstbag dstslot pSrcItem pDstItem).elim (.ok p)
      (fun bags => Inventory.exchanged (t := t) p bags.1 bags.2) with
  | error msg => exact h.sound.answered_same _
  | ok q =>
    have hexchanged := h.exchange hexchange
    obtain ⟨hcount, hcarries, htotal⟩ : (∀ g, (q.items g).count = (p.items g).count) ∧ Carries p q [] [] ∧
        ∀ e, q.total e = p.total e := by
      rcases hexchanged with hone | hone
      · exact ⟨hone.count, hone.carries, hone.total⟩
      · exact ⟨hone.count, hone.carries, hone.total⟩
    obtain ⟨hsound, hconserves, -⟩ := (h.after_exchange hexchanged).exchanged checks
      (canSwapTo checks p dstbag dstslot pSrcItem).2 (canSwapTo checks p srcbag srcslot pDstItem).2
      (fun hstore => by
        rw [hcount]
        exact canSwapTo_single checks h.sound h.at_src h.dst.1 hok hstore)
      (fun hstore => by
        rw [hcount]
        exact canSwapTo_single checks h.sound h.at_dst h.src.1 hok2 hstore)
    exact ⟨hsound, hcarries.then_conserves htotal hconserves, fun hne => absurd rfl hne⟩

theorem Sound.SwapItem (h : p.Sound t) (hsrc : ExplicitPos t p srcbag srcslot) (hdst : ExplicitPos t p dstbag dstslot)
    (hne : (srcbag, srcslot) ≠ (dstbag, dstslot)) : Answered t p (SwapItem checks p srcbag srcslot dstbag dstslot) := by
  unfold Inventory.SwapItem
  cases hat : p.GetItemByPos t srcbag srcslot with
  | none => exact h.answered_same _
  | some pSrcItem =>
    cases hchecks : swapRefused checks p srcbag srcslot dstbag dstslot pSrcItem (p.GetItemByPos t dstbag dstslot) with
    | some msg =>
      simp only [hchecks]
      exact h.answered_same _
    | none =>
      obtain ⟨a, b, hpassed⟩ := h.passed checks hsrc hdst hne hat hchecks
      simp only [hchecks]
      cases hdstItem : p.GetItemByPos t dstbag dstslot with
      | none =>
        rw [hdstItem] at hpassed
        exact hpassed.moveItem checks
      | some pDstItem =>
        rw [hdstItem] at hpassed
        simp only
        split
        · rename_i hbags
          rw [Bool.and_eq_true, Bool.not_eq_true'] at hbags
          rw [hpassed.dst.2]
          simp only [Bool.not_true, Bool.false_eq_true, if_false]
          split
          · rename_i hok
            exact hpassed.mergeItem checks hbags.1 hok
          · exact hpassed.realSwap checks
        · exact hpassed.realSwap checks

end Player

/-! ### Requests -/

inductive Request where
  | split (srcbag srcslot dstbag dstslot count : ℕ)
  | swap (srcbag srcslot dstbag dstslot : ℕ)

namespace Request
variable {t : Templates}

def Valid (t : Templates) (p : Player) : Request → Prop
  | split srcbag srcslot dstbag dstslot count =>
    p.ExplicitPos t srcbag srcslot ∧ p.ExplicitPos t dstbag dstslot ∧ (srcbag, srcslot) ≠ (dstbag, dstslot) ∧ 1 ≤ count
  | swap srcbag srcslot dstbag dstslot =>
    p.ExplicitPos t srcbag srcslot ∧ p.ExplicitPos t dstbag dstslot ∧ (srcbag, srcslot) ≠ (dstbag, dstslot)

def answer (checks : Checks t) (p : Player) : Request → Answer
  | split srcbag srcslot dstbag dstslot count => SplitItem checks p srcbag srcslot dstbag dstslot count
  | swap srcbag srcslot dstbag dstslot => SwapItem checks p srcbag srcslot dstbag dstslot

end Request

/-- A request moves items between slots, and it sends at most the off-hand by mail. -/
theorem items_conserved {t : Templates} (checks : Checks t) {p : Player} (h : p.Sound t) (request : Request)
    (hvalid : request.Valid t p) :
    (request.answer checks p).2.Sound t ∧
      (∀ a b g, (request.answer checks p).2.at? a = some g → (request.answer checks p).2.at? b = some g → a = b) ∧
      p.Conserves (request.answer checks p).2 ∧
      ((request.answer checks p).1 ≠ .done → p.Unchanged (request.answer checks p).2) := by
  have hanswered : Player.Answered t p (request.answer checks p) := by
    cases request with
    | split srcbag srcslot dstbag dstslot count => exact h.SplitItem checks hvalid.2.2.2 hvalid.2.1
    | swap srcbag srcslot dstbag dstslot => exact h.SwapItem checks hvalid.1 hvalid.2.1 hvalid.2.2
  exact ⟨hanswered.sound, fun a b g => hanswered.sound.unique, hanswered.conserves, hanswered.refused⟩

/-! ### A player with a full backpack -/

theorem Player.sound_of_rows {t : Templates} {p : Player}
    (hrows : ∀ s ∈ p.slots.rows, s.place = .own (p.items s.item).slot ∧ (p.items s.item).container = none ∧
      (p.items s.item).contained = p.guid ∧ 1 ≤ (p.items s.item).count ∧
      (p.items s.item).count ≤ (p.template t s.item).GetMaxStackSize ∧ s.item < p.nextGuid)
    (hshown : ∀ place, p.fields place = (p.at? place).getD 0) (hremoved : p.removed = []) (hmailed : p.mailed = []) :
    p.Sound t := by
  have hrow : ∀ {place g}, p.at? place = some g → (⟨place, g⟩ : Entry) ∈ p.slots.rows := fun hat =>
    Player.mem_slots_iff.mpr hat
  refine ⟨?_, ?_, hshown, fun hat => (hrows _ (hrow hat)).2.2.2.2.2, ?_, ?_⟩
  · intro place g hat
    obtain ⟨hplace, hcontainer, hcontained, -⟩ := hrows _ (hrow hat)
    simp only at hplace hcontainer hcontained
    rw [hplace, hcontainer, hcontained]
    exact ⟨rfl, rfl, rfl⟩
  · intro place g hat
    exact ⟨(hrows _ (hrow hat)).2.2.2.1, (hrows _ (hrow hat)).2.2.2.2.1⟩
  · rintro g (hmem | hmem)
    · rw [hremoved] at hmem
      simp at hmem
    · rw [hmailed] at hmem
      simp at hmem
  · intro b s g hat
    exact absurd (hrows _ (hrow hat)).1 (by simp)

def sampleTemplates : Templates := fun entry =>
  { itemClass := 0, subClass := 0, bagFamily := 0, stackable := 20, containerSlots := 0
    inventoryType := if entry = 1 then INVTYPE_WEAPONOFFHAND else if entry = 3 then INVTYPE_FINGER else 0 }

def samplePlayer (contents : List (ℕ × ℕ × ℕ)) : Player where
  guid := 7
  items g := (contents[g - 1]?).elim ⟨0, 0, 0, none, 0, false⟩ fun c => ⟨c.2.1, c.2.2, c.1, none, 7, false⟩
  slots := contents.zipIdx.foldl (fun slots c => slots.put ⟨.own c.1.1, c.2 + 1⟩) KeyedList.empty
  fields place := (((contents.zipIdx.foldl (fun slots c => slots.put ⟨.own c.1.1, c.2 + 1⟩)
    (KeyedList.empty : KeyedList Entry.place)).find? place).map Entry.item).getD 0
  nextGuid := contents.length + 1
  removed := []
  mailed := []

def sampleChecks (t : Templates) : Checks t where
  isAlive := true
  lootGuid := none
  isInTrade _ := false
  isBindedNotWith _ := false
  canTakeMoreSimilarItems _ _ _ := (.ok, 0)
  canUseItem _ _ := .ok
  canEquipItem p slot _ swap := if swap || (p.at? (.own slot)).isNone then .ok else .itemDoesntGoToSlot
  canUnequipItem _ _ _ _ := .ok
  bankBagSlotCount := 0
  canDualWield := false
  canTitanGrip := false
  similar_lt _ _ _ := by decide
  equip_empty p slot item h := by
    cases hat : p.at? (.own slot) with
    | none => rfl
    | some g => simp [hat] at h

theorem items_conserved_split :
    ((Request.split 255 23 255 24 2).answer (sampleChecks sampleTemplates)
      (samplePlayer [(23, 2, 5)])).2.Sound sampleTemplates :=
  (items_conserved (sampleChecks sampleTemplates)
    (Player.sound_of_rows (t := sampleTemplates) (p := samplePlayer [(23, 2, 5)]) (by decide) (fun _ => rfl) rfl rfl)
    (Request.split 255 23 255 24 2) (by
      refine ⟨⟨by decide, by decide⟩, ⟨by decide, by decide⟩, by decide, by decide⟩)).1

example : (((Request.split 255 23 255 24 2).answer (sampleChecks sampleTemplates)
    (samplePlayer [(23, 2, 5)])).2.slots.rows.map fun s => (s.place.slot, s.item)) = [(23, 1), (24, 2)] := by
  decide

def fullPlayer : Player := samplePlayer ((10, 3, 1) :: (16, 1, 1) :: (List.range 16).map fun i => (23 + i, 4, 1))

theorem swap_mails_offhand : ¬ ∀ (t : Templates) (checks : Checks t) (p : Player) (request : Request), p.Sound t →
    request.Valid t p → ∀ e, (request.answer checks p).2.total e = p.total e := by
  intro hall
  have hsound : fullPlayer.Sound sampleTemplates :=
    Player.sound_of_rows (by decide +kernel) (fun _ => rfl) rfl rfl
  have hvalid : (Request.swap 255 10 255 11).Valid sampleTemplates fullPlayer := by
    refine ⟨⟨by decide, by decide⟩, ⟨by decide, by decide⟩, by decide⟩
  have hsame := hall sampleTemplates (sampleChecks sampleTemplates) fullPlayer (.swap 255 10 255 11) hsound hvalid 1
  exact absurd hsame (by decide +kernel)

end HysteriaCore.Inventory
