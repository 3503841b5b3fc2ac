import HysteriaCore.Guilds.Bank

/-!
# Moving items conserves them

Whatever positions `CanStore` reserves have room once the item has left its own
place, so that a move and a swap put exactly the items there that they took.
-/

namespace HysteriaCore.Guilds.Bank
open Lib

/-- What a move needs of the room that an inventory offers: different positions
of that inventory with room, for all of the item. In a swap the slot that was
specified counts as empty. -/
structure Rules.Stores (rules : Rules) : Prop where
  fits : ∀ (items : Stacks Place ℕ Marks) (guid bag slot : ℕ) (item : Item) (swap : Bool)
    (vec : List (PosCount Place)), rules.canStoreItem items guid bag slot item swap = some vec →
    Stacks.Fits rules.maxStack
      (fun p => if swap = true ∧ p = .inventory guid bag slot then none else items.find? p) item.entry vec
  total : ∀ (items : Stacks Place ℕ Marks) (guid bag slot : ℕ) (item : Item) (swap : Bool)
    (vec : List (PosCount Place)), rules.canStoreItem items guid bag slot item swap = some vec →
    (vec.map PosCount.count).sum = item.count
  inside : ∀ (items : Stacks Place ℕ Marks) (guid bag slot : ℕ) (item : Item) (swap : Bool)
    (vec : List (PosCount Place)), rules.canStoreItem items guid bag slot item swap = some vec →
    ∀ q ∈ vec, ∃ b s, q.pos = .inventory guid b s

/-! ### Reserving in a tab -/

/-- What holds of a reservation for `total` things of one entry. -/
structure Reserved (max : ℕ → ℕ) (look : Place → Option Item) (tab entry total : ℕ) (r : Reservation) : Prop where
  fits : Stacks.Fits max look entry r.vec
  inTab : ∀ q ∈ r.vec, ∃ s < guildBankMaxSlots, q.pos = .bank tab s
  total : (r.vec.map PosCount.count).sum + r.count = total

variable {max : ℕ → ℕ} {look : Place → Option Item} {tab slot entry total : ℕ} {r r' : Reservation}

theorem Reserved.reserveSpace (h : Reserved max look tab entry total r) (hslot : slot < guildBankMaxSlots)
    (hr : reserveSpace (max entry) (.bank tab slot) entry (look (.bank tab slot)) r = some r') :
    Reserved max look tab entry total r' := by
  -- in every case the slot takes at most what it has room for
  have hreserve (required : ℕ)
      (hroom : ∀ n ≤ required, Stacks.HasRoom max look entry ⟨.bank tab slot, n⟩) :
      Reserved max look tab entry total
        (if r.vec.any fun q => decide (q.pos = .bank tab slot) then r
        else ⟨r.vec ++ [⟨.bank tab slot, min required r.count⟩], r.count - min required r.count⟩) := by
    split
    · exact h
    · rename_i hnew
      refine ⟨⟨?_, fun q hq => ?_⟩, fun q hq => ?_, ?_⟩
      · rw [List.map_append, List.nodup_append]
        refine ⟨h.fits.distinct, by simp, fun p hp p' hp' heq => hnew ?_⟩
        obtain ⟨q, hq, rfl⟩ := List.mem_map.mp hp
        rw [List.map_cons, List.map_nil, List.mem_singleton] at hp'
        exact List.any_eq_true.mpr ⟨q, hq, by simpa using heq.trans hp'⟩
      · rcases List.mem_append.mp hq with hq | hq
        · exact h.fits.room q hq
        · rw [List.mem_singleton.mp hq]
          exact hroom _ (Nat.min_le_left _ _)
      · rcases List.mem_append.mp hq with hq | hq
        · exact h.inTab q hq
        · rw [List.mem_singleton.mp hq]
          exact ⟨slot, hslot, rfl⟩
      · have htotal := h.total
        simp only [List.map_append, List.map_cons, List.map_nil, List.sum_append, List.sum_cons, List.sum_nil]
        omega
  unfold Bank.reserveSpace at hr
  cases hlook : look (.bank tab slot) with
  | none =>
    rw [hlook] at hr
    rw [← Option.some.inj hr]
    refine hreserve (max entry) fun n hn => ?_
    unfold Stacks.HasRoom
    rw [hlook]
    exact hn
  | some d =>
    rw [hlook] at hr
    dsimp only at hr
    split at hr
    · exact absurd hr (by simp)
    · rename_i hd
      rw [← Option.some.inj hr]
      refine hreserve (max entry - d.count) fun n hn => ?_
      unfold Stacks.HasRoom
      rw [hlook]
      exact ⟨by omega, by dsimp only; omega⟩

theorem Reserved.reserveSlot (h : Reserved max look tab entry total r) (hslot : slot < guildBankMaxSlots)
    (skipSlot : ℕ) (merge : Bool) :
    Reserved max look tab entry total (reserveSlot look (max entry) tab entry skipSlot merge r slot) := by
  unfold Bank.reserveSlot
  split
  · exact h
  · dsimp only
    split
    · exact h
    · cases hr : Bank.reserveSpace (max entry) (.bank tab slot) entry (look (.bank tab slot)) r with
      | none => exact h
      | some r' => exact h.reserveSpace hslot hr

theorem Reserved.canStoreItemInTab (h : Reserved max look tab entry total r) (skipSlot : ℕ) (merge : Bool) :
    Reserved max look tab entry total (canStoreItemInTab look (max entry) tab entry skipSlot merge r) := by
  unfold Bank.canStoreItemInTab
  have hslots : ∀ slot ∈ List.range guildBankMaxSlots, slot < guildBankMaxSlots := fun slot => List.mem_range.mp
  generalize List.range guildBankMaxSlots = slots at hslots
  induction slots generalizing r with
  | nil => exact h
  | cons slot slots ih =>
    have hslot := hslots slot (List.mem_cons_self ..)
    exact ih (h.reserveSlot hslot skipSlot merge) fun s hs => hslots s (List.mem_cons_of_mem slot hs)

namespace World
variable {rules : Rules} {w w' : World} {guid slot : ℕ} {item : Item} {self : Option Place} {swap : Bool}
  {vec : List (PosCount Place)}

theorem canStoreInBank_spec (hslot : slot < guildBankMaxSlots ∨ slot = nullSlot)
    (h : w.canStoreInBank rules tab slot item self swap = some vec) :
    Reserved rules.maxStack (w.look self (.bank tab slot) swap) tab item.entry item.count ⟨vec, 0⟩ ∧
      tab < w.purchasedTabs := by
  unfold canStoreInBank at h
  dsimp only at h
  split at h
  · exact absurd h (by simp)
  · rename_i hstorable
    simp only [Bool.or_eq_true, decide_eq_true_eq, not_or, not_le] at hstorable
    refine ⟨?_, hstorable.2⟩
    have hstart : Reserved rules.maxStack (w.look self (.bank tab slot) swap) tab item.entry item.count
        ⟨[], item.count⟩ := by
      refine ⟨⟨List.nodup_nil, fun q hq => absurd hq (by simp)⟩, fun q hq => absurd hq (by simp), by simp⟩
    obtain ⟨r, hr, h⟩ := Option.bind_eq_some_iff.mp h
    have hspecified : Reserved rules.maxStack (w.look self (.bank tab slot) swap) tab item.entry item.count r := by
      split at hr
      · rw [← Option.some.inj hr]
        exact hstart
      · rename_i hnull
        exact hstart.reserveSpace (hslot.resolve_right hnull) hr
    split at h
    · rename_i hdone
      rw [← Option.some.inj h, ← hdone.2]
      exact hspecified
    · have hmerged : Reserved rules.maxStack (w.look self (.bank tab slot) swap) tab item.entry item.count
          (if 1 < rules.maxStack item.entry then
            canStoreItemInTab (w.look self (.bank tab slot) swap) (rules.maxStack item.entry) tab item.entry slot
              true r
          else r) := by
        split
        · exact hspecified.canStoreItemInTab slot true
        · exact hspecified
      have hfree := hmerged.canStoreItemInTab slot false
      generalize canStoreItemInTab (w.look self (.bank tab slot) swap) (rules.maxStack item.entry) tab item.entry
        slot false _ = last at h hfree
      split at h
      · rename_i hdone
        rw [← Option.some.inj h, ← hdone]
        exact hfree
      · exact absurd h (by simp)

theorem canStoreInBank_swap (hslot : slot < guildBankMaxSlots) (hcount : item.count ≤ rules.maxStack item.entry)
    (h : w.canStoreInBank rules tab slot item self true = some vec) : vec = [⟨.bank tab slot, item.count⟩] := by
  have hlook : w.look self (.bank tab slot) true (.bank tab slot) = none := if_pos (.inr ⟨rfl, rfl⟩)
  have hnull : slot ≠ nullSlot := by
    have h98 : guildBankMaxSlots = 98 := rfl
    have h255 : nullSlot = 255 := rfl
    omega
  unfold canStoreInBank at h
  dsimp only at h
  split at h
  · exact absurd h (by simp)
  · rw [hlook] at h
    have hmin : min (rules.maxStack item.entry) item.count = item.count := Nat.min_eq_right hcount
    simp only [reserveSpace, List.any_nil, Bool.false_eq_true, if_false, Option.bind_some, hmin,
      Nat.sub_self, List.nil_append] at h
    rw [if_pos ⟨hnull, trivial⟩] at h
    exact (Option.some.inj h).symm

end World

/-! ### The two ends of a move -/

def Place.isBank : Place → Bool
  | bank .. => true
  | inventory .. => false

def Place.withinReach (guid : ℕ) : Place → Bool
  | bank .. => true
  | inventory g .. => decide (g = guid)

def Place.Slotted : Place → Prop
  | bank _ slot => slot < guildBankMaxSlots ∨ slot = nullSlot
  | inventory .. => True

structure Ends (guid : ℕ) (src dest : Place) : Prop where
  ne : src ≠ dest
  bank : src.isBank = true ∨ dest.isBank = true
  srcReach : src.withinReach guid = true
  destReach : dest.withinReach guid = true
  srcSlotted : src.Slotted
  destSlotted : dest.Slotted

theorem Ends.symm {guid : ℕ} {src dest : Place} (h : Ends guid src dest) : Ends guid dest src :=
  ⟨h.ne.symm, h.bank.symm, h.destReach, h.srcReach, h.destSlotted, h.srcSlotted⟩

namespace World
variable {rules : Rules} {w w' : World} {guid : ℕ} {item : Item} {self : Option Place} {swap : Bool}
  {vec : List (PosCount Place)} {p src dest : Place}

theorem find?_of_getItem (h : w.getItem p = some item) : w.items.find? p = some item := by
  cases p with
  | bank tab slot =>
    simp only [getItem] at h
    split at h
    · exact h
    · exact absurd h (by simp)
  | inventory g bag slot => exact h

theorem getItem_of_initItem (h : w.initItem p = some item) : w.getItem p = some item := by
  cases p with
  | bank tab slot => exact h
  | inventory g bag slot =>
    obtain ⟨s, hs, hitem⟩ := Option.bind_eq_some_iff.mp h
    split at hitem
    · exact absurd hitem (by simp)
    · rw [← Option.some.inj hitem]
      exact hs

theorem canStore_spec (hrules : rules.Stores) (hp : p.Slotted)
    (hself : p.isBank = true ∨ ∀ s ∈ self, s.isBank = true) (h : w.canStore rules p item self swap = some vec) :
    Stacks.Fits rules.maxStack
        (fun q => if self = some q ∨ (swap = true ∧ q = p) then none else w.items.find? q) item.entry vec ∧
      (vec.map PosCount.count).sum = item.count ∧
      ∀ q ∈ vec, q.pos.isBank = p.isBank ∧ ∀ g, p.withinReach g = true → q.pos.withinReach g = true := by
  cases p with
  | bank tab slot =>
    obtain ⟨hres, htab⟩ := canStoreInBank_spec hp h
    refine ⟨hres.fits.congr fun q hq => ?_, by simpa using hres.total, fun q hq => ?_⟩
    · obtain ⟨s, hs, hpos⟩ := hres.inTab q hq
      have hget : w.getItem q.pos = w.items.find? q.pos := by
        rw [hpos]
        exact if_pos ⟨htab, hs⟩
      unfold look
      rw [hget]
    · obtain ⟨s, -, hpos⟩ := hres.inTab q hq
      rw [hpos]
      exact ⟨rfl, fun _ _ => rfl⟩
  | inventory g bag slot =>
    have hinside := hrules.inside _ _ _ _ _ _ _ h
    refine ⟨(hrules.fits _ _ _ _ _ _ _ h).congr fun q hq => ?_, hrules.total _ _ _ _ _ _ _ h, fun q hq => ?_⟩
    · obtain ⟨b, s, hpos⟩ := hinside q hq
      have hother : self ≠ some q.pos := by
        intro heq
        have hbank := hself.resolve_left (by simp [Place.isBank]) q.pos heq
        rw [hpos] at hbank
        exact absurd hbank (by simp [Place.isBank])
      simp only [hother, false_or]
    · obtain ⟨b, s, hpos⟩ := hinside q hq
      rw [hpos]
      exact ⟨rfl, fun _ hg => hg⟩

@[simp] theorem logBankEvent_items (w : World) (guid : ℕ) (p q : Place) :
    (w.logBankEvent guid p q).items = w.items := by
  unfold logBankEvent
  cases p <;> cases q
  · dsimp only
    split <;> rfl
  all_goals rfl

@[simp] theorem removeItem_items (w : World) (guid : ℕ) (p other : Place) (n : ℕ) :
    (w.removeItem guid p other n).items = w.items.takeAt p n := by
  unfold removeItem
  cases p
  · dsimp only
    split <;> rfl
  · rfl

def itemCount (w : World) (guid entry : ℕ) : ℕ := w.items.total (Place.withinReach guid) entry

def WithinStacks (rules : Rules) (w : World) : Prop := w.items.WithinMax rules.maxStack

theorem total_storeItem (hin : ∀ q ∈ vec, q.pos.withinReach guid = true)
    (hfits : Stacks.Fits rules.maxStack w.items.find? item.entry vec) (entry : ℕ) :
    (w.storeItem rules p item vec).itemCount guid entry =
      w.itemCount guid entry + if item.entry = entry then (vec.map PosCount.count).sum else 0 :=
  Stacks.total_store hin hfits entry

theorem within_storeItem (hw : w.WithinStacks rules)
    (hfits : Stacks.Fits rules.maxStack w.items.find? item.entry vec) :
    (w.storeItem rules p item vec).WithinStacks rules :=
  Stacks.within_store hw hfits

theorem moveItem_spec (hrules : rules.Stores) (hends : Ends guid src dest) (hw : w.WithinStacks rules)
    (hitem : w.items.find? src = some item) {split : ℕ} (hsplit : split ≤ item.count)
    (h : w.moveItem rules guid src dest item split = some w') :
    (∀ entry, w'.itemCount guid entry = w.itemCount guid entry) ∧ w'.WithinStacks rules := by
  obtain ⟨hmem, hpos⟩ := (w.items.find?_eq_some_iff src item).mp hitem
  obtain ⟨vec, hvec, rfl⟩ := Option.map_eq_some_iff.mp h
  have hself : dest.isBank = true ∨ ∀ s ∈ if split = 0 then some src else none, s.isBank = true := by
    refine hends.bank.symm.imp_right fun hsrc s hs => ?_
    split at hs
    · rw [← Option.some.inj hs]
      exact hsrc
    · exact absurd hs (by simp)
  obtain ⟨hfits, htotal, hinside⟩ := canStore_spec hrules hends.destSlotted hself hvec
  have hmax : item.count ≤ rules.maxStack item.entry := hw item hmem
  have hentry : (movedItem rules item split).entry = item.entry := by
    unfold movedItem
    split <;> rfl
  have hcount : (movedItem rules item split).count = if split = 0 then item.count else split := by
    unfold movedItem
    split
    · rfl
    · exact Nat.min_eq_left (hsplit.trans hmax)
  -- what was reserved still has room when the item has been removed
  have hroom : Stacks.Fits rules.maxStack
      ((w.logBankEvent guid dest src).removeItem guid src dest split).items.find?
      (movedItem rules item split).entry vec := by
    rw [removeItem_items, logBankEvent_items]
    by_cases hzero : split = 0
    · subst hzero
      refine hfits.congr fun q hq => ?_
      by_cases hq : q.pos = src
      · rw [hq, Stacks.find?_takeAt_all]
        exact (if_pos (.inl rfl)).symm
      · rw [Stacks.find?_takeAt_ne hq]
        exact (if_neg (by simpa using fun heq => hq heq.symm)).symm
    · refine ⟨hfits.distinct, fun q hq => ?_⟩
      have hq := hfits.room q hq
      simp only [hzero, if_false, reduceCtorEq, Bool.false_eq_true, false_and, or_self] at hq
      exact Stacks.HasRoom.takeAt hzero hq
  have hin : ∀ q ∈ vec, q.pos.withinReach guid = true := fun q hq => (hinside q hq).2 guid hends.destReach
  constructor
  · intro entry
    rw [total_storeItem hin hroom, htotal, hentry, hcount]
    have hreach : item.pos.withinReach guid = true := hpos ▸ hends.srcReach
    have htake := Stacks.total_takeAt hmem hreach hsplit entry
    rw [hpos] at htake
    unfold itemCount
    rw [removeItem_items, logBankEvent_items]
    exact htake
  · refine within_storeItem ?_ hroom
    show Stacks.WithinMax _ _
    rw [removeItem_items, logBankEvent_items]
    exact Stacks.within_takeAt hw src split

/-! ### Swapping -/

variable {srcItem destItem : Item} {vec' : List (PosCount Place)}

theorem canStore_swap_bank {other : Item} (hbank : p.isBank = true) (hother : w.getItem p = some other)
    (hcount : item.count ≤ rules.maxStack item.entry) (h : w.canStore rules p item self true = some vec) :
    vec = [⟨p, item.count⟩] := by
  cases p with
  | inventory g bag slot => exact absurd hbank (by simp [Place.isBank])
  | bank tab slot =>
    refine canStoreInBank_swap ?_ hcount h
    by_contra hslot
    have hnone : w.getItem (.bank tab slot) = none := if_neg fun hvalid => hslot hvalid.2
    rw [hnone] at hother
    exact absurd hother (by simp)

theorem canStore_swap_apart (hrules : rules.Stores) (hends : Ends guid src dest) (hw : w.WithinStacks rules)
    (hsrc : w.getItem src = some srcItem) (hdest : w.getItem dest = some destItem)
    (hvec : w.canStore rules dest srcItem (some src) true = some vec)
    (hvec' : w.canStore rules src destItem (some dest) true = some vec') :
    ∀ q ∈ vec, ∀ q' ∈ vec', q.pos ≠ q'.pos := by
  have hmax {place : Place} {x : Item} (hx : w.getItem place = some x) : x.count ≤ rules.maxStack x.entry :=
    hw x ((w.items.find?_eq_some_iff place x).mp (find?_of_getItem hx)).1
  have hself : dest.isBank = true ∨ ∀ s ∈ some src, s.isBank = true :=
    hends.bank.symm.imp_right fun h s hs => Option.some.inj hs ▸ h
  have hself' : src.isBank = true ∨ ∀ s ∈ some dest, s.isBank = true :=
    hends.bank.imp_right fun h s hs => Option.some.inj hs ▸ h
  intro q hq q' hq' heq
  -- one of the ends is a tab, where the item has one position
  cases hbank : src.isBank with
  | true =>
    have hvec'' := canStore_swap_bank hbank hsrc (hmax hdest) hvec'
    rw [hvec'', List.mem_singleton] at hq'
    cases hdbank : dest.isBank with
    | true =>
      have hvec'' := canStore_swap_bank hdbank hdest (hmax hsrc) hvec
      rw [hvec'', List.mem_singleton] at hq
      rw [hq, hq'] at heq
      exact hends.ne heq.symm
    | false =>
      have hside := ((canStore_spec hrules hends.destSlotted hself hvec).2.2 q hq).1
      rw [heq, hq'] at hside
      exact absurd (hbank.symm.trans (hside.trans hdbank)) (by simp)
  | false =>
    have hdbank : dest.isBank = true := hends.bank.resolve_left (by simp [hbank])
    have hvec'' := canStore_swap_bank hdbank hdest (hmax hsrc) hvec
    rw [hvec'', List.mem_singleton] at hq
    have hside := ((canStore_spec hrules hends.srcSlotted hself' hvec').2.2 q' hq').1
    rw [← heq, hq] at hside
    exact absurd (hdbank.symm.trans (hside.trans hbank)) (by simp)

theorem exchangeItems_spec (hrules : rules.Stores) (hends : Ends guid src dest) (hw : w.WithinStacks rules)
    (hsrc : w.getItem src = some srcItem) (hdest : w.getItem dest = some destItem)
    (h : w.exchangeItems rules guid src dest srcItem destItem = some w') :
    (∀ entry, w'.itemCount guid entry = w.itemCount guid entry) ∧ w'.WithinStacks rules := by
  obtain ⟨vec, hvec, h⟩ := Option.bind_eq_some_iff.mp h
  obtain ⟨vec', hvec', rfl⟩ := Option.map_eq_some_iff.mp h
  have hself : dest.isBank = true ∨ ∀ s ∈ some src, s.isBank = true :=
    hends.bank.symm.imp_right fun h s hs => Option.some.inj hs ▸ h
  have hself' : src.isBank = true ∨ ∀ s ∈ some dest, s.isBank = true :=
    hends.bank.imp_right fun h s hs => Option.some.inj hs ▸ h
  obtain ⟨hfits, htotal, hinside⟩ := canStore_spec hrules hends.destSlotted hself hvec
  obtain ⟨hfits', htotal', hinside'⟩ := canStore_spec hrules hends.srcSlotted hself' hvec'
  have hapart := canStore_swap_apart hrules hends hw hsrc hdest hvec hvec'
  obtain ⟨hsrcMem, hsrcPos⟩ := (w.items.find?_eq_some_iff src srcItem).mp (find?_of_getItem hsrc)
  obtain ⟨hdestMem, hdestPos⟩ := (w.items.find?_eq_some_iff dest destItem).mp (find?_of_getItem hdest)
  -- the items when both have been removed
  dsimp only
  generalize hw₁ : (((w.logBankEvent guid dest src).logBankEvent guid src dest).removeItem guid src dest
    0).removeItem guid dest src 0 = w₁
  have hitems : w₁.items = (w.items.takeAt src 0).takeAt dest 0 := by simp [← hw₁]
  have hlook : ∀ q, w₁.items.find? q = if src = q ∨ q = dest then none else w.items.find? q := by
    intro q
    rw [hitems]
    by_cases hqd : q = dest
    · rw [hqd, Stacks.find?_takeAt_all, if_pos (.inr rfl)]
    · rw [Stacks.find?_takeAt_ne hqd]
      by_cases hqs : q = src
      · rw [hqs, Stacks.find?_takeAt_all, if_pos (.inl rfl)]
      · rw [Stacks.find?_takeAt_ne hqs, if_neg (by simp [hqd, Ne.symm hqs])]
  have hroom : Stacks.Fits rules.maxStack w₁.items.find? srcItem.entry vec :=
    hfits.congr fun q _ => by simp [hlook]
  have hroom' : Stacks.Fits rules.maxStack (w₁.storeItem rules dest srcItem vec).items.find? destItem.entry
      vec' := by
    refine hfits'.congr fun q' hq' => ?_
    refine (Stacks.find?_store_ne fun q hq => (hapart q hq q' hq').symm).trans ?_
    rw [hlook]
    simp [or_comm, eq_comm]
  have hin : ∀ q ∈ vec, q.pos.withinReach guid = true := fun q hq => (hinside q hq).2 guid hends.destReach
  have hin' : ∀ q ∈ vec', q.pos.withinReach guid = true := fun q hq => (hinside' q hq).2 guid hends.srcReach
  have hwithin : w₁.WithinStacks rules := by
    show Stacks.WithinMax _ _
    rw [hitems]
    exact Stacks.within_takeAt (Stacks.within_takeAt hw src 0) dest 0
  refine ⟨fun entry => ?_, within_storeItem (within_storeItem hwithin hroom) hroom'⟩
  rw [total_storeItem hin' hroom', total_storeItem hin hroom, htotal, htotal']
  have hsrcReach : srcItem.pos.withinReach guid = true := hsrcPos ▸ hends.srcReach
  have hdestReach : destItem.pos.withinReach guid = true := hdestPos ▸ hends.destReach
  have htake := Stacks.total_takeAt hsrcMem hsrcReach (Nat.zero_le _) entry
  have hdestMem' : destItem ∈ w.items.takeAt src 0 := by
    refine (w.items.mem_erase src destItem).mpr ⟨hdestMem, ?_⟩
    rw [hdestPos]
    exact hends.ne.symm
  have htake' := Stacks.total_takeAt hdestMem' hdestReach (Nat.zero_le _) entry
  rw [hsrcPos] at htake
  rw [hdestPos] at htake'
  unfold itemCount
  rw [hitems]
  simp only [if_true] at htake htake'
  omega

/-! ### Requests -/

theorem checkItem_spec {split split' : ℕ} (h : checkItem item split = some split') :
    split' ≤ item.count ∧ split' = if split = item.count then 0 else split := by
  unfold checkItem at h
  split at h
  · exact absurd h (by simp)
  · rw [← Option.some.inj h]
    refine ⟨?_, rfl⟩
    split <;> omega

theorem moveItems_cases (rules : Rules) (w : World) (guid : ℕ) (src dest : Place) (split : ℕ) :
    w.moveItems rules guid src dest split = w ∨
    ∃ item split', w.initItem src = some item ∧ checkItem item split = some split' ∧
      w.hasStoreRights guid dest src = true ∧ w.hasWithdrawRights guid src dest = true ∧
      (w.moveItem rules guid src dest item split' = some (w.moveItems rules guid src dest split) ∨
      w.moveItem rules guid src dest item split' = none ∧ split' = 0 ∧
      ∃ destItem, w.initItem dest = some destItem ∧ w.hasStoreRights guid src dest = true ∧
        w.hasWithdrawRights guid dest src = true ∧
        w.exchangeItems rules guid src dest item destItem = some (w.moveItems rules guid src dest split)) := by
  unfold moveItems
  cases hinit : w.initItem src with
  | none => exact .inl rfl
  | some item =>
    dsimp only
    cases hcheck : checkItem item split with
    | none => exact .inl rfl
    | some split' =>
      dsimp only
      split
      · rename_i hrights
        rw [Bool.and_eq_true] at hrights
        cases hmove : w.moveItem rules guid src dest item split' with
        | some w' => exact .inr ⟨item, split', rfl, hcheck, hrights.1, hrights.2, .inl hmove⟩
        | none =>
          dsimp only
          split
          · rename_i hzero
            unfold trySwap
            cases hinitd : w.initItem dest with
            | none => exact .inl rfl
            | some destItem =>
              dsimp only
              split
              · rename_i hback
                rw [Bool.and_eq_true] at hback
                cases hex : w.exchangeItems rules guid src dest item destItem with
                | none => exact .inl rfl
                | some w' =>
                  exact .inr ⟨item, split', rfl, hcheck, hrights.1, hrights.2,
                    .inr ⟨hmove, hzero, destItem, rfl, hback.1, hback.2, hex⟩⟩
              · exact .inl rfl
          · exact .inl rfl
      · exact .inl rfl

theorem moveItems_spec (hrules : rules.Stores) (hends : Ends guid src dest) (hw : w.WithinStacks rules) (split : ℕ) :
    (∀ entry, (w.moveItems rules guid src dest split).itemCount guid entry = w.itemCount guid entry) ∧
      (w.moveItems rules guid src dest split).WithinStacks rules := by
  rcases moveItems_cases rules w guid src dest split with
    heq | ⟨item, split', hinit, hcheck, -, -, hmove | ⟨-, -, destItem, hinitd, -, -, hex⟩⟩
  · rw [heq]
    exact ⟨fun _ => rfl, hw⟩
  · exact moveItem_spec hrules hends hw (find?_of_getItem (getItem_of_initItem hinit)) (checkItem_spec hcheck).1 hmove
  · exact exchangeItems_spec hrules hends hw (getItem_of_initItem hinit) (getItem_of_initItem hinitd) hex

inductive MoveRefused (rules : Rules) (w : World) (guid : ℕ) (src dest : Place) (split : ℕ) : Prop
  /-- no item, or one of the player's that he may not trade -/
  | noItem (h : w.initItem src = none)
  | splitTooLarge {item : Item} (hitem : w.initItem src = some item) (h : item.count < split)
  | noStoreRights (h : w.hasStoreRights guid dest src = false)
  | noWithdrawRights (h : w.hasWithdrawRights guid src dest = false)
  | soulBound {item : Item} (hitem : w.initItem src = some item) (h : item.marks.soulBound = true)
      (hdest : dest.isBank = true)
  /-- no room for a part of the item, or for all of it and no swap either -/
  | noRoom {item : Item} {split' : ℕ} (hitem : w.initItem src = some item) (hcheck : checkItem item split = some split')
      (hroom : w.canStore rules dest (movedItem rules item split') (if split' = 0 then some src else none) false = none)
      (hswap : split' = 0 → ∀ destItem, w.initItem dest = some destItem →
        w.hasStoreRights guid src dest = false ∨ w.hasWithdrawRights guid dest src = false ∨
        w.canStore rules dest item (some src) true = none ∨ w.canStore rules src destItem (some dest) true = none)

theorem canStore_soulBound (hdest : p.isBank = true) (hbound : item.marks.soulBound = true) :
    w.canStore rules p item self swap = none := by
  cases p with
  | bank tab slot =>
    simp only [canStore, canStoreInBank]
    rw [if_pos (by simp [hbound])]
  | inventory g bag slot => exact absurd hdest (by simp [Place.isBank])

theorem moveItems_refused {split : ℕ} (h : MoveRefused rules w guid src dest split) :
    w.moveItems rules guid src dest split = w := by
  rcases moveItems_cases rules w guid src dest split with
    heq | ⟨x, split', hinit, hcheck, hstore, hwithdraw, hdone⟩
  · exact heq
  · -- what was not refused contradicts the reason
    exfalso
    have hmarks (n : ℕ) : (movedItem rules x n).marks = x.marks := by
      unfold movedItem
      split <;> rfl
    cases h with
    | noItem h => exact absurd (hinit.symm.trans h) (by simp)
    | splitTooLarge hitem h =>
      rw [← Option.some.inj (hinit.symm.trans hitem)] at h
      unfold checkItem at hcheck
      rw [if_pos h] at hcheck
      exact absurd hcheck (by simp)
    | noStoreRights h => exact absurd (hstore.symm.trans h) (by simp)
    | noWithdrawRights h => exact absurd (hwithdraw.symm.trans h) (by simp)
    | soulBound hitem h hdest =>
      rw [← Option.some.inj (hinit.symm.trans hitem)] at h
      rcases hdone with hmove | ⟨-, -, destItem, -, -, -, hex⟩
      · obtain ⟨vec, hvec, -⟩ := Option.map_eq_some_iff.mp hmove
        rw [canStore_soulBound hdest ((congrArg Marks.soulBound (hmarks split')).trans h)] at hvec
        exact absurd hvec (by simp)
      · obtain ⟨vec, hvec, -⟩ := Option.bind_eq_some_iff.mp hex
        rw [canStore_soulBound hdest h] at hvec
        exact absurd hvec (by simp)
    | noRoom hitem hcheck' hroom hswap =>
      rw [← Option.some.inj (hinit.symm.trans hitem)] at hcheck' hroom hswap
      rw [← Option.some.inj (hcheck.symm.trans hcheck')] at hroom hswap
      rcases hdone with hmove | ⟨-, hzero, destItem, hinitd, hback, hout, hex⟩
      · obtain ⟨vec, hvec, -⟩ := Option.map_eq_some_iff.mp hmove
        exact absurd (hvec.symm.trans hroom) (by simp)
      · obtain ⟨vec, hvec, hex⟩ := Option.bind_eq_some_iff.mp hex
        obtain ⟨vec', hvec', -⟩ := Option.map_eq_some_iff.mp hex
        rcases hswap hzero destItem hinitd with h | h | h | h
        · exact absurd (hback.symm.trans h) (by simp)
        · exact absurd (hout.symm.trans h) (by simp)
        · exact absurd (hvec.symm.trans h) (by simp)
        · exact absurd (hvec'.symm.trans h) (by simp)

def Refused (rules : Rules) (w : World) : Event → Prop
  | .swapItems guid tab slot destTab destSlot split =>
    MoveRefused rules w guid (.bank tab slot) (.bank destTab destSlot) split
  | .swapItemsWithInventory guid true tab slot bag playerSlot split =>
    MoveRefused rules w guid (.bank tab slot) (.inventory guid bag playerSlot) split
  | .swapItemsWithInventory guid false tab slot bag playerSlot split =>
    MoveRefused rules w guid (.inventory guid bag playerSlot) (.bank tab slot) split
  | .withdrawMoney guid amount _ =>
    w.bankMoney < min amount Objects.maxMoneyAmount ∨
      ∀ m ∈ w.getMember guid, (w.getMemberRemainingMoney m % 2^32).toNat < min amount Objects.maxMoneyAmount

theorem handleMemberWithdrawMoney_cases (w : World) (guid amount : ℕ) (repair : Bool) :
    w.handleMemberWithdrawMoney guid amount repair = w ∨
    ∃ m n, w.getMember guid = some m ∧ n ≤ w.bankMoney ∧ n ≤ (w.getMemberRemainingMoney m % 2^32).toNat ∧
      n = min amount Objects.maxMoneyAmount ∧
      (repair = true ∧ w.handleMemberWithdrawMoney guid amount repair =
        w.withdrawMoney guid n (.repairMoney guid n) (w.money guid) ∨
      repair = false ∧ (Objects.modifyMoney (w.money guid) n).1 = true ∧
        w.handleMemberWithdrawMoney guid amount repair =
          w.withdrawMoney guid n (.withdrawMoney guid n) (w.money guid + n)) := by
  unfold handleMemberWithdrawMoney
  dsimp only
  cases hm : w.getMember guid with
  | none => exact .inl rfl
  | some m =>
    dsimp only
    by_cases hrefused : w.bankMoney < min amount Objects.maxMoneyAmount ∨
        (w.getMemberRemainingMoney m % 2^32).toNat < min amount Objects.maxMoneyAmount
    · exact .inl (if_pos hrefused)
    · rw [if_neg hrefused]
      rw [not_or, not_lt, not_lt] at hrefused
      cases repair with
      | true => exact .inr ⟨m, _, rfl, hrefused.1, hrefused.2, rfl, .inl ⟨rfl, rfl⟩⟩
      | false =>
        rcases Objects.modifyMoney_receive (w.money guid) (Nat.min_le_right amount _) with hpaid | hpaid
        · rw [hpaid]
          exact .inr ⟨m, _, rfl, hrefused.1, hrefused.2, rfl, .inr ⟨rfl, by rw [hpaid], rfl⟩⟩
        · rw [hpaid]
          exact .inl rfl

theorem handleMemberWithdrawMoney_items (w : World) (guid amount : ℕ) (repair : Bool) :
    (w.handleMemberWithdrawMoney guid amount repair).items = w.items := by
  rcases w.handleMemberWithdrawMoney_cases guid amount repair with
    heq | ⟨m, n, -, -, -, -, ⟨-, heq⟩ | ⟨-, -, heq⟩⟩
  · rw [heq]
  · rw [heq, withdrawMoney]
  · rw [heq, withdrawMoney]

theorem swapItems_spec (hrules : rules.Stores) (hw : w.WithinStacks rules)
    (guid tab slot destTab destSlot split : ℕ) :
    (∀ entry, (w.swapItems rules guid tab slot destTab destSlot split).itemCount guid entry =
      w.itemCount guid entry) ∧
      (w.swapItems rules guid tab slot destTab destSlot split).WithinStacks rules := by
  unfold swapItems
  split
  · exact ⟨fun _ => rfl, hw⟩
  · rename_i hvalid
    split
    · exact ⟨fun _ => rfl, hw⟩
    · rename_i hne
      refine moveItems_spec hrules ⟨fun heq => hne ?_, .inl rfl, rfl, rfl, ?_, ?_⟩ hw split
      · injection heq with htab hslot
        exact ⟨htab, hslot⟩
      · exact .inl (by omega)
      · exact .inl (by omega)

theorem swapItemsWithInventory_spec (hrules : rules.Stores) (hw : w.WithinStacks rules)
    (guid : ℕ) (toChar : Bool) (tab slot bag playerSlot split : ℕ) :
    (∀ entry, (w.swapItemsWithInventory rules guid toChar tab slot bag playerSlot split).itemCount guid entry =
      w.itemCount guid entry) ∧
      (w.swapItemsWithInventory rules guid toChar tab slot bag playerSlot split).WithinStacks rules := by
  unfold swapItemsWithInventory
  split
  · exact ⟨fun _ => rfl, hw⟩
  · rename_i hvalid
    have hslot : slot < guildBankMaxSlots ∨ slot = nullSlot := by
      by_contra hslot
      exact hvalid (.inl (by omega))
    have hends : Ends guid (.bank tab slot) (.inventory guid bag playerSlot) :=
      ⟨by simp, .inl rfl, rfl, decide_eq_true rfl, hslot, trivial⟩
    split
    · exact moveItems_spec hrules hends hw split
    · exact moveItems_spec hrules hends.symm hw split

/-- A request conserves every kind of item over the bank and the inventory of
the player, makes no stack too large, and changes nothing when it is refused. -/
theorem next_conserves (hrules : rules.Stores) (hw : w.WithinStacks rules) (e : Event) :
    (∀ entry, (w.next rules e).itemCount e.guid entry = w.itemCount e.guid entry) ∧
      (w.next rules e).WithinStacks rules ∧ (w.Refused rules e → w.next rules e = w) := by
  cases e with
  | swapItems guid tab slot destTab destSlot split =>
    obtain ⟨hcount, hwithin⟩ := swapItems_spec hrules hw guid tab slot destTab destSlot split
    refine ⟨hcount, hwithin, fun hrefused => ?_⟩
    simp only [next, swapItems, moveItems_refused hrefused, ite_self]
  | swapItemsWithInventory guid toChar tab slot bag playerSlot split =>
    obtain ⟨hcount, hwithin⟩ := swapItemsWithInventory_spec hrules hw guid toChar tab slot bag playerSlot split
    refine ⟨hcount, hwithin, fun hrefused => ?_⟩
    cases toChar with
    | true => simp only [next, swapItemsWithInventory, moveItems_refused hrefused, ite_true, ite_self]
    | false =>
      simp only [next, swapItemsWithInventory, moveItems_refused hrefused, Bool.false_eq_true, ite_false, ite_self]
  | withdrawMoney guid amount repair =>
    have hitems := w.handleMemberWithdrawMoney_items guid amount repair
    refine ⟨fun entry => ?_, ?_, fun hrefused => ?_⟩
    · show Stacks.total _ _ _ = Stacks.total _ _ _
      rw [show (w.next rules (.withdrawMoney guid amount repair)).items = w.items from hitems]
    · show Stacks.WithinMax _ _
      rw [show (w.next rules (.withdrawMoney guid amount repair)).items = w.items from hitems]
      exact hw
    · simp only [next, handleMemberWithdrawMoney]
      cases hm : w.getMember guid with
      | none => rfl
      | some m => exact if_pos (hrefused.imp_right fun h => h m hm)

end World

/-! ### A bank of one tab -/

def sampleRules : Rules where
  maxStack _ := 20
  binds _ := false
  canStoreItem items guid bag slot item swap :=
    match if swap then none else items.find? (.inventory guid bag slot) with
    | none => if item.count ≤ 20 then some [⟨.inventory guid bag slot, item.count⟩] else none
    | some s =>
      if s.entry = item.entry ∧ s.count + item.count ≤ 20 then some [⟨.inventory guid bag slot, item.count⟩]
      else none

theorem sampleRules_stores : sampleRules.Stores := by
  have hone (items : Stacks Place ℕ Marks) (guid bag slot : ℕ) (item : Item) (swap : Bool)
      (vec : List (PosCount Place)) (h : sampleRules.canStoreItem items guid bag slot item swap = some vec) :
      vec = [⟨.inventory guid bag slot, item.count⟩] ∧ Stacks.HasRoom sampleRules.maxStack
        (fun p => if swap = true ∧ p = .inventory guid bag slot then none else items.find? p) item.entry
        ⟨.inventory guid bag slot, item.count⟩ := by
    have hlook : (if swap then none else items.find? (.inventory guid bag slot)) =
        if swap = true ∧ Place.inventory guid bag slot = .inventory guid bag slot then none
        else items.find? (.inventory guid bag slot) := by
      simp
    unfold Stacks.HasRoom
    dsimp only [sampleRules] at h ⊢
    rw [← hlook]
    split at h
    · rename_i hnone
      rw [hnone]
      split at h
      · exact ⟨(Option.some.inj h).symm, by assumption⟩
      · exact absurd h (by simp)
    · rename_i s hsome
      rw [hsome]
      split at h
      · exact ⟨(Option.some.inj h).symm, by assumption⟩
      · exact absurd h (by simp)
  refine ⟨?_, ?_, ?_⟩
  · intro items guid bag slot item swap vec h
    obtain ⟨rfl, hroom⟩ := hone items guid bag slot item swap vec h
    exact ⟨List.nodup_singleton _, fun q hq => List.mem_singleton.mp hq ▸ hroom⟩
  · intro items guid bag slot item swap vec h
    obtain ⟨rfl, -⟩ := hone items guid bag slot item swap vec h
    simp
  · intro items guid bag slot item swap vec h q hq
    obtain ⟨rfl, -⟩ := hone items guid bag slot item swap vec h
    exact ⟨bag, slot, by rw [List.mem_singleton.mp hq]⟩

def sampleWorld : World where
  purchasedTabs := 1
  purchasedTabs_le := by decide
  leaderGuid := 9
  ranks := [⟨0x1DF1FF, 0xFFFFFFFF, fun _ => ⟨0xFF, 0xFFFFFFFF⟩⟩, ⟨rightWithdrawRepair, 100, fun _ => ⟨3, 2⟩⟩]
  members := KeyedList.empty.put ⟨1, 1, fun _ => 0⟩
  bankMoney := 500
  items := (KeyedList.empty.put ⟨.bank 0 0, 7, 15, ⟨false, false, false⟩⟩).put
    ⟨.bank 0 1, 7, 10, ⟨false, false, false⟩⟩
  money _ := 0
  log := []

namespace World

theorem sampleWorld_within : sampleWorld.WithinStacks sampleRules := by
  have hall : ∀ s ∈ sampleWorld.items.rows, s.count ≤ 20 := by decide +kernel
  exact hall

/-- The first stack is merged into the second, and the rest of it stays in the tab. -/
theorem next_conserves_merge :
    let w := sampleWorld.next sampleRules (.swapItems 1 0 0 0 1 0)
    ((w.items.find? (.bank 0 1)).map fun s => s.count) = some 20 ∧ w.itemCount 1 7 = 25 ∧
      w.WithinStacks sampleRules := by
  obtain ⟨hcount, hwithin, -⟩ :=
    next_conserves sampleRules_stores sampleWorld_within (.swapItems 1 0 0 0 1 0)
  exact ⟨by decide +kernel, (hcount 7).trans (by decide +kernel), hwithin⟩

end World

end HysteriaCore.Guilds.Bank
