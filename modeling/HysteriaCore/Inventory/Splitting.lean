import HysteriaCore.Inventory.Storing

/-!
# The off-hand and the split

What a request does to the objects and to the count of each entry, where what the code sends by mail counts
as well. A split puts into the slots what it took from the stack.
-/

namespace HysteriaCore.Inventory
open Lib

namespace Player
variable {t : Templates} {p q r : Player} {g : Guid}

/-- Each object stays somewhere, and slots and mail together keep the count of each entry. -/
structure Conserves (p q : Player) : Prop where
  kept : ∀ g, p.Placed g → q.Placed g
  created : ∀ g, p.nextGuid ≤ g → g < q.nextGuid → q.Placed g
  totals : ∀ e, q.total e + q.inMail e = p.total e + p.inMail e
  mail : q.mailed = p.mailed ∨ ∃ g, q.mailed = g :: p.mailed

def Unchanged (p q : Player) : Prop :=
  q.slots = p.slots ∧ q.fields = p.fields ∧ (∀ g < p.nextGuid, q.items g = p.items g) ∧ q.mailed = p.mailed

theorem Carries.conserves (h : Carries p q [] []) (htotal : ∀ e, q.total e = p.total e) : Conserves p q := by
  refine ⟨fun g hg => ?_, fun g hge hlt => ?_, fun e => ?_, .inl h.mailed⟩
  · simpa using h.kept g (.inl hg)
  · simpa using h.created g hge hlt
  · rw [htotal, h.inMail]

theorem conserves_refl (p : Player) : Conserves p p :=
  ⟨fun _ h => h, fun _ hge hlt => absurd hlt (Nat.not_lt.mpr hge), fun _ => rfl, .inl rfl⟩

theorem Carries.then_conserves (hpq : Carries p q [] []) (htotal : ∀ e, q.total e = p.total e)
    (hqr : Conserves q r) : Conserves p r := by
  have hfirst := hpq.conserves htotal
  refine ⟨fun g hg => hqr.kept g (hfirst.kept g hg), fun g hge hlt => ?_, fun e => ?_, ?_⟩
  · by_cases hnew : g < q.nextGuid
    · exact hqr.kept g (hfirst.created g hge hnew)
    · exact hqr.created g (Nat.le_of_not_lt hnew) hlt
  · exact (hqr.totals e).trans (hfirst.totals e)
  · rw [← hpq.mailed]
    exact hqr.mail

/-! ### The off-hand -/

variable {bag slot : ℕ} {place : Place}

theorem resolve_bagPos (h : p.resolve t bag slot = some place) :
    bag = INVENTORY_SLOT_BAG_0 ∨ IsBagPos INVENTORY_SLOT_BAG_0 bag = true := by
  cases place with
  | own s => exact .inl (resolve_own h).1
  | bag b s => exact .inr (GetBagByPos_spec (resolve_bag h).1).2.2.2

theorem Taken.fits (h : Taken t p q place g) {d : ItemPosCount}
    (hfits : Fits t p g d) (hbag : place ≠ .own d.bag) : Fits t q g d := by
  obtain ⟨hpos, hmax, pl, hresolve, hroom⟩ := hfits
  have htemplate : q.template t g = p.template t g := template_congr (h.entry g)
  refine ⟨hpos, htemplate ▸ hmax, pl, h.resolve hresolve hbag, ?_⟩
  intro g2 hat hne
  rw [h.at_eq] at hat
  split at hat
  · simp at hat
  · rw [h.others g2 hne, h.entry g, htemplate]
    exact hroom g2 hat hne

theorem Sound.empty_of (h : p.Sound t) (hnot : p.IsNotEmptyBag t g = false) (s : ℕ) : p.at? (.bag g s) = none := by
  cases hat : p.at? (.bag g s) with
  | none => rfl
  | some g' =>
    obtain ⟨hbag, hlt, -⟩ := h.inBags hat
    unfold IsNotEmptyBag IsEmpty at hnot
    rw [hbag, Bool.true_and, Bool.not_eq_false', List.all_eq_true] at hnot
    have hnone := hnot s (List.mem_range.mpr hlt)
    rw [hat] at hnone
    simp at hnone

theorem Taken.at_none (h : Taken t p q place g) {pl : Place} (hnone : p.at? pl = none) : q.at? pl = none := by
  rw [h.at_eq, hnone, ite_self]

theorem Taken.conserves_mail (h : Taken t p q place g) : Conserves p (q.mail g) := by
  have hcarries := h.carries []
  refine ⟨?_, ?_, ?_, .inr ⟨g, congrArg (List.cons g) hcarries.mailed⟩⟩
  · intro g' hg
    rcases hcarries.kept g' (.inl hg) with (hold | hold | hold) | hmem
    · exact .inl hold
    · exact .inr (.inl hold)
    · exact .inr (.inr (List.mem_cons_of_mem _ hold))
    · rw [List.mem_singleton.mp hmem]
      exact .inr (.inr List.mem_cons_self)
  · intro g' hge hlt
    have hnext : (q.mail g).nextGuid = p.nextGuid := h.same.2.1
    rw [hnext] at hlt
    exact absurd hlt (Nat.not_lt.mpr hge)
  · intro e
    have htotal := h.total e
    have hinMail := hcarries.inMail e
    have hworth : q.worth e g = p.worth e g := worth_congr (h.entry g) h.count e
    have hcons : (q.mail g).inMail e = q.worth e g + q.inMail e := List.sum_cons
    have hsame : (q.mail g).total e = q.total e := rfl
    omega

variable (checks : Checks t)

theorem Sound.autoUnequip (h : p.Sound t) :
    (AutoUnequipOffhandIfNeed checks p).Sound t ∧ Conserves p (AutoUnequipOffhandIfNeed checks p) := by
  unfold AutoUnequipOffhandIfNeed
  cases hoff : p.GetItemByPos t INVENTORY_SLOT_BAG_0 EQUIPMENT_SLOT_OFFHAND with
  | none => exact ⟨h, conserves_refl p⟩
  | some offItem =>
    simp only
    split
    · exact ⟨h, conserves_refl p⟩
    obtain ⟨place, hresolve, hat⟩ := GetItemByPos_some hoff
    have hplace : place = .own EQUIPMENT_SLOT_OFFHAND := by
      have hown : p.resolve t INVENTORY_SLOT_BAG_0 EQUIPMENT_SLOT_OFFHAND = some (.own EQUIPMENT_SLOT_OFFHAND) := rfl
      rw [hown] at hresolve
      exact (Option.some.inj hresolve).symm
    have htaken := h.taken hresolve hat
    have hcarries := htaken.carries []
    split
    · rename_i hok
      have hcomplete := CanStoreItem_complete (h.counts hat) hok
      have hbags : p.IsNotEmptyBag t offItem = false := by
        unfold CanStoreItem at hok
        simp only at hok
        split at hok
        · simp at hok
        · rename_i hnot
          simpa using hnot
      have hfits : ∀ d ∈ (p.CanStoreItem checks NULL_BAG NULL_SLOT offItem false).2,
          Fits t (p.RemoveItem t INVENTORY_SLOT_BAG_0 EQUIPMENT_SLOT_OFFHAND) offItem d := by
        intro d hd
        have hd' := hcomplete.fits d hd
        refine htaken.fits hd' ?_
        obtain ⟨pl, hpl, -⟩ := hd'.room
        rw [hplace]
        intro heq
        rw [← Place.own.inj heq] at hpl
        exact absurd (resolve_bagPos hpl) (by decide)
      have hempty := fun s => htaken.at_none (h.empty_of hbags s)
      obtain ⟨hsound, htotal, hstored⟩ := htaken.sound.StoreItem _ htaken.loose
        (hcomplete.ne_nil (h.counts hat).1) hcomplete.nodup hfits hempty
      refine ⟨hsound, (hcarries.trans (hstored [])).conserves fun e => ?_⟩
      rw [htotal, hcomplete.sum, htaken.entry]
      exact htaken.total e
    · exact ⟨htaken.sound.mail htaken.loose, htaken.conserves_mail⟩

/-! ### Positions of requests -/

def ExplicitPos (t : Templates) (p : Player) (bag slot : ℕ) : Prop :=
  p.IsValidPos t bag slot = true ∧ slot ≠ NULL_SLOT

theorem hasKind_iff (bag slot : ℕ) : hasKind bag slot = true ↔
    (bag = 255 ∧ (slot = 255 ∨ slot < 74 ∨ 86 ≤ slot ∧ slot < 150)) ∨ (19 ≤ bag ∧ bag < 23) ∨
      (67 ≤ bag ∧ bag < 74) := by
  unfold hasKind IsInventoryPos IsBankPos IsEquipmentPos
  rw [Bool.or_eq_true, Bool.or_eq_true, decide_eq_true_iff, decide_eq_true_iff, decide_eq_true_iff]
  unfold INVENTORY_SLOT_BAG_0 NULL_SLOT INVENTORY_SLOT_ITEM_START INVENTORY_SLOT_ITEM_END INVENTORY_SLOT_BAG_START
    INVENTORY_SLOT_BAG_END KEYRING_SLOT_START CURRENCYTOKEN_SLOT_END BANK_SLOT_ITEM_START BANK_SLOT_ITEM_END
    BANK_SLOT_BAG_START BANK_SLOT_BAG_END EQUIPMENT_SLOT_END
  omega

theorem ExplicitPos.spec (h : ExplicitPos t p bag slot) :
    (bag ≠ NULL_BAG ∧ slot ≠ NULL_SLOT) ∧ (∃ place, p.resolve t bag slot = some place) ∧
      hasKind bag slot = true := by
  obtain ⟨hvalid, hslot⟩ := h
  unfold IsValidPos at hvalid
  split at hvalid
  · rename_i hbag
    subst hbag
    rw [decide_eq_true_eq] at hvalid
    simp only [EQUIPMENT_SLOT_END, INVENTORY_SLOT_BAG_START, INVENTORY_SLOT_BAG_END, INVENTORY_SLOT_ITEM_START,
      INVENTORY_SLOT_ITEM_END, KEYRING_SLOT_START, KEYRING_SLOT_END, BANK_SLOT_ITEM_START, BANK_SLOT_ITEM_END,
      BANK_SLOT_BAG_START, BANK_SLOT_BAG_END] at hvalid
    have hslots : slot < BANK_SLOT_BAG_END ∨ KEYRING_SLOT_START ≤ slot ∧ slot < CURRENCYTOKEN_SLOT_END := by
      simp only [BANK_SLOT_BAG_END, KEYRING_SLOT_START, CURRENCYTOKEN_SLOT_END]
      omega
    refine ⟨⟨by decide, hslot⟩, ⟨.own slot, if_pos ⟨rfl, hslots⟩⟩, ?_⟩
    rw [hasKind_iff]
    unfold INVENTORY_SLOT_BAG_0
    omega
  · rename_i hne
    obtain ⟨b, hbag, hlt⟩ : ∃ b, p.GetBagByPos t bag = some b ∧ slot < p.GetBagSize t b := by
      cases hbag : p.GetBagByPos t bag with
      | none => simp [hbag] at hvalid
      | some b => exact ⟨b, rfl, by simpa [hbag] using hvalid⟩
    have hpos := (GetBagByPos_spec hbag).2.2.2
    simp only [IsBagPos, decide_eq_true_eq, INVENTORY_SLOT_BAG_START, INVENTORY_SLOT_BAG_END, BANK_SLOT_BAG_START,
      BANK_SLOT_BAG_END] at hpos
    refine ⟨⟨?_, hslot⟩, ⟨.bag b slot, ?_⟩, ?_⟩
    · unfold NULL_BAG
      omega
    · unfold resolve
      rw [if_neg fun hown => hne hown.1, hbag, Option.bind_some]
      exact if_pos hlt
    · rw [hasKind_iff]
      omega

/-! ### Going somewhere -/

theorem resolve_equipment (h : IsEquipmentPos bag slot = true) :
    bag = INVENTORY_SLOT_BAG_0 ∧ p.resolve t bag slot = some (.own slot) := by
  simp only [IsEquipmentPos, decide_eq_true_eq] at h
  simp only [EQUIPMENT_SLOT_END, INVENTORY_SLOT_BAG_START, INVENTORY_SLOT_BAG_END] at h
  have hbag : bag = INVENTORY_SLOT_BAG_0 := by omega
  have hslot : slot < BANK_SLOT_BAG_END := by
    unfold BANK_SLOT_BAG_END
    omega
  exact ⟨hbag, if_pos ⟨hbag, .inl hslot⟩⟩

theorem hasKind_cases (h : hasKind bag slot = true) :
    (IsInventoryPos bag slot || IsBankPos bag slot) = true ∨
      (IsInventoryPos bag slot || IsBankPos bag slot) = false ∧ IsEquipmentPos bag slot = true := by
  unfold hasKind at h
  cases hstore : (IsInventoryPos bag slot || IsBankPos bag slot) with
  | true => exact .inl rfl
  | false =>
    rw [hstore, Bool.false_or] at h
    exact .inr ⟨rfl, h⟩

theorem canGo_cases (hstore : (IsInventoryPos bag slot || IsBankPos bag slot) = true) (swap : Bool) :
    canGo checks p bag slot g swap = p.CanStoreItem checks bag slot g swap ∨
      canGo checks p bag slot g swap = p.CanBankItem checks bag slot g swap := by
  unfold canGo
  split
  · exact .inl rfl
  · rename_i hinventory
    exact .inr (if_pos (by simpa [hinventory] using hstore))

theorem canGo_complete (hstore : (IsInventoryPos bag slot || IsBankPos bag slot) = true)
    (hcount : 1 ≤ (p.items g).count ∧ (p.items g).count ≤ (p.template t g).GetMaxStackSize)
    (hok : (canGo checks p bag slot g false).1 = .ok) :
    Complete t p g (p.items g).count (canGo checks p bag slot g false).2 := by
  rcases canGo_cases checks hstore false with heq | heq
  · rw [heq] at hok ⊢
    exact CanStoreItem_complete hcount hok
  · rw [heq] at hok ⊢
    exact CanBankItem_complete hcount.1 hok

theorem canGo_equipment {swap : Bool}
    (hstore : (IsInventoryPos bag slot || IsBankPos bag slot) = false) (hequip : IsEquipmentPos bag slot = true) :
    canGo checks p bag slot g swap = (checks.canEquipItem p slot g swap, []) := by
  rw [Bool.or_eq_false_iff] at hstore
  unfold canGo
  rw [hstore.1, hstore.2, if_neg Bool.false_ne_true, if_neg Bool.false_ne_true, if_pos hequip]

theorem goes_equipment {dest : List ItemPosCount}
    (hstore : (IsInventoryPos bag slot || IsBankPos bag slot) = false) (hequip : IsEquipmentPos bag slot = true)
    (hfree : p.at? (.own slot) = none) : goes (t := t) p bag slot g dest = p.setPlace (.own slot) g := by
  obtain ⟨rfl, hresolve⟩ := resolve_equipment (p := p) (t := t) hequip
  unfold goes EquipItem
  rw [hstore, if_neg Bool.false_ne_true, if_pos hequip, GetItemByPos_eq hresolve, hfree]
  rfl

/-! ### The split -/

theorem Sound.not_new (h : p.Sound t) (hat : p.at? place = some g) : g ≠ p.nextGuid := (h.known hat).ne

/-- The stack after a part was taken from it, with the part in the hand. -/
structure Lowered (t : Templates) (p q : Player) (n : ℕ) : Prop where
  sound : q.Sound t
  loose : q.Loose p.nextGuid
  bounds : (q.items p.nextGuid).count = n ∧ n ≤ (q.template t p.nextGuid).GetMaxStackSize
  total : ∀ e, q.total e + (if (q.items p.nextGuid).entry = e then n else 0) = p.total e
  carries : Carries p q [] [p.nextGuid]
  empty : ∀ s, q.at? (.bag p.nextGuid s) = none

theorem Copied.lowered {c : Player} {n : ℕ} (h : p.Sound t) (hat : p.at? place = some g)
    (hcopied : Copied t p c g n) (hlt : n < (p.items g).count) (hn : 1 ≤ n) :
    Lowered t p (c.SetCount g ((c.items g).count - n)) n := by
  have hnew := h.not_new hat
  have hat' : c.at? place = some g := (hcopied.at_eq place).trans hat
  have hitem : c.items g = p.items g := hcopied.others g hnew
  have htemplate : c.template t g = p.template t g := congrArg (fun i => t (Item.entry i)) hitem
  have hcounts := h.counts hat
  have hnewItem : (c.SetCount g ((c.items g).count - n)).items p.nextGuid = c.items p.nextGuid :=
    items_modifyItem_of_ne _ hnew.symm
  refine ⟨?_, hcopied.loose.modifyItem _, ⟨?_, ?_⟩, ?_, ?_, ?_⟩
  · apply hcopied.sound.SetCount hat'
    · rw [hitem]
      omega
    · rw [hitem, htemplate]
      omega
  · rw [hnewItem, hcopied.count]
  · unfold template
    rw [hnewItem, hcopied.entry]
    exact hlt.le.trans hcounts.2
  · intro e
    have htotal := hcopied.sound.total_SetCount hat' ((c.items g).count - n) e
    have hbefore := hcopied.total e
    rw [hnewItem, hcopied.entry]
    unfold worth at htotal
    rw [hitem] at htotal ⊢
    split at htotal
    · rename_i he
      rw [if_pos he]
      omega
    · rename_i he
      rw [if_neg he]
      omega
  · exact (hcopied.carries []).trans (carries_SetCount (hcopied.sound.not_mailed hat') _ _)
  · intro s
    show c.at? _ = none
    cases hbag : c.at? (.bag p.nextGuid s) with
    | none => rfl
    | some g' =>
      rw [hcopied.at_eq] at hbag
      exact absurd (h.inBags hbag).2.2.1 (Nat.lt_irrefl _)

theorem Lowered.goes {n dstbag dstslot : ℕ} (h : Lowered t p q n) (hn : 1 ≤ n)
    (hkind : hasKind dstbag dstslot = true) (hok : (canGo checks q dstbag dstslot p.nextGuid false).1 = .ok) :
    (goesAndUnequips checks q dstbag dstslot p.nextGuid (canGo checks q dstbag dstslot p.nextGuid false).2).Sound t ∧
      Conserves p (goesAndUnequips checks q dstbag dstslot p.nextGuid
        (canGo checks q dstbag dstslot p.nextGuid false).2) := by
  have hcount : 1 ≤ (q.items p.nextGuid).count ∧
      (q.items p.nextGuid).count ≤ (q.template t p.nextGuid).GetMaxStackSize := by
    rw [h.bounds.1]
    exact ⟨hn, h.bounds.2⟩
  unfold goesAndUnequips
  obtain hstore | ⟨hstore, hequip⟩ := hasKind_cases hkind
  · rw [if_pos hstore]
    unfold Inventory.goes
    rw [if_pos hstore]
    have hcomplete := canGo_complete checks hstore hcount hok
    obtain ⟨hsound, htotal, hstored⟩ := h.sound.StoreItem _ h.loose (hcomplete.ne_nil hcount.1) hcomplete.nodup
      hcomplete.fits h.empty
    refine ⟨hsound, (h.carries.trans (hstored [])).conserves fun e => ?_⟩
    rw [htotal, hcomplete.sum, h.bounds.1]
    exact h.total e
  · rw [if_neg (by simp [hstore])]
    rw [canGo_equipment checks hstore hequip] at hok ⊢
    have hfree := checks.equip_empty _ _ _ hok
    rw [goes_equipment hstore hequip hfree]
    have hplace : Receives t q p.nextGuid (.own dstslot) := trivial
    have hput := h.sound.put h.loose hcount hplace hfree
    obtain ⟨hsound, hconserves⟩ := hput.sound.autoUnequip checks
    refine ⟨hsound, (h.carries.trans (hput.carries [])).then_conserves (fun e => ?_) hconserves⟩
    rw [hput.total, worth, h.bounds.1]
    exact h.total e

theorem carries_discard (g : Guid) (hand : List Guid) : Carries p (p.discard g) (g :: hand) hand := by
  refine .of_kept rfl rfl (fun _ => rfl) ?_
  rintro g' ((hold | hmem | hmem) | hhand)
  · exact .inl (.inl hold)
  · exact .inl (.inr (.inl (List.mem_cons_of_mem _ hmem)))
  · exact .inl (.inr (.inr hmem))
  · rcases List.mem_cons.mp hhand with rfl | hhand
    · exact .inl (.inr (.inl List.mem_cons_self))
    · exact .inr hhand

structure Answered (t : Templates) (p : Player) (answer : Answer) : Prop where
  sound : answer.2.Sound t
  conserves : Conserves p answer.2
  refused : answer.1 ≠ .done → Unchanged p answer.2

theorem Sound.answered_same (h : p.Sound t) (outcome : Outcome) : Answered t p (outcome, p) :=
  ⟨h, conserves_refl p, fun _ => ⟨rfl, rfl, fun _ _ => rfl, rfl⟩⟩

theorem Lowered.refused {c : Player} {n : ℕ} (h : p.Sound t) (hat : p.at? place = some g)
    (hcopied : Copied t p c g n) (hlt : n < (p.items g).count) (hn : 1 ≤ n) (msg : InventoryResult) :
    Answered t p (.refused msg, ((c.SetCount g ((c.items g).count - n)).discard p.nextGuid).SetCount g
      (((c.SetCount g ((c.items g).count - n)).items g).count + n)) := by
  have hlowered := hcopied.lowered h hat hlt hn
  generalize hq : c.SetCount g ((c.items g).count - n) = q at hlowered ⊢
  have hitem : q.items g = { p.items g with count := (p.items g).count - n } := by
    rw [← hq]
    unfold Player.SetCount
    rw [items_modifyItem_self, hcopied.others g (h.not_new hat)]
  have hback : (q.items g).count + n = (p.items g).count := by
    rw [hitem]
    exact Nat.sub_add_cancel hlt.le
  have hqat : q.at? place = some g := by
    rw [← hq]
    exact (hcopied.at_eq place).trans hat
  have hentry : (q.items g).entry = (p.items g).entry := by rw [hitem]
  have htemplate : (q.discard p.nextGuid).template t g = p.template t g := congrArg t hentry
  have hdiscard := hlowered.sound.discard hlowered.loose hlowered.empty
  have hcarries := hlowered.carries.trans (carries_discard p.nextGuid [])
  have hsound : ((q.discard p.nextGuid).SetCount g ((q.items g).count + n)).Sound t := by
    have hcounts := h.counts hat
    apply hdiscard.SetCount hqat
    · omega
    · rw [hback, htemplate]
      exact hcounts.2
  refine ⟨hsound, (hcarries.trans (carries_SetCount (hdiscard.not_mailed hqat) _ _)).conserves fun e => ?_,
    fun _ => ⟨?_, ?_, ?_, hcarries.mailed⟩⟩
  · have htotal := hdiscard.total_SetCount hqat ((q.items g).count + n) e
    have hlow := hlowered.total e
    have hsame : (q.discard p.nextGuid).total e = q.total e := rfl
    have hworth : (q.discard p.nextGuid).worth e g = if (q.items g).entry = e then (q.items g).count else 0 := rfl
    have hnew : (q.items p.nextGuid).entry = (q.items g).entry := by
      rw [← hq, entry_SetCount, hcopied.entry, hentry.symm, ← hq]
    have hpart : (if (q.items p.nextGuid).entry = e then n else 0) = if (q.items g).entry = e then n else 0 := by
      rw [hnew]
    have hentries : ((q.discard p.nextGuid).items g).entry = (q.items g).entry := rfl
    show (((q.discard p.nextGuid).SetCount g ((q.items g).count + n)).total e) = p.total e
    rw [hentries, hworth] at htotal
    rw [hpart] at hlow
    by_cases he : (q.items g).entry = e
    · rw [if_pos he, if_pos he] at htotal
      rw [if_pos he] at hlow
      omega
    · rw [if_neg he, if_neg he] at htotal
      rw [if_neg he] at hlow
      omega
  · show q.slots = p.slots
    rw [← hq]
    exact hcopied.same.2.2.2.2
  · show q.fields = p.fields
    rw [← hq]
    exact hcopied.same.2.2.2.1
  · intro g' hknown
    show ((q.discard p.nextGuid).SetCount g ((q.items g).count + n)).items g' = p.items g'
    by_cases hne : g' = g
    · subst hne
      unfold Player.SetCount
      rw [items_modifyItem_self, hback]
      show ({ q.items g' with count := (p.items g').count } : Item) = p.items g'
      rw [hitem]
    · have hrest : ((q.discard p.nextGuid).SetCount g ((q.items g).count + n)).items g' = q.items g' :=
        items_modifyItem_of_ne _ hne
      rw [hrest, ← hq]
      exact (items_modifyItem_of_ne _ hne).trans (hcopied.others g' hknown.ne)

theorem Sound.SplitItem (h : p.Sound t) {srcbag srcslot dstbag dstslot n : ℕ} (hn : 1 ≤ n)
    (hdst : ExplicitPos t p dstbag dstslot) : Answered t p (SplitItem checks p srcbag srcslot dstbag dstslot n) := by
  have hkind := hdst.spec.2.2
  unfold Inventory.SplitItem
  cases hsrc : p.GetItemByPos t srcbag srcslot with
  | none => exact h.answered_same _
  | some pSrcItem =>
    obtain ⟨place, -, hat⟩ := GetItemByPos_some hsrc
    simp only
    split
    · exact h.answered_same _
    split
    · exact h.answered_same _
    split
    · exact h.answered_same _
    split
    · exact h.answered_same _
    have hlt : n < (p.items pSrcItem).count := by omega
    obtain ⟨c, hclone, hcopied⟩ := h.copied hn (hlt.le.trans (h.counts hat).2)
    rw [hclone]
    simp only [hkind, Bool.not_true, Bool.false_eq_true, if_false]
    split
    · exact Lowered.refused h hat hcopied hlt hn _
    · rename_i hok
      obtain ⟨hsound, hconserves⟩ := (hcopied.lowered h hat hlt hn).goes checks hn hkind (not_not.mp hok)
      exact ⟨hsound, hconserves, fun hne => absurd rfl hne⟩

end Player

end HysteriaCore.Inventory
