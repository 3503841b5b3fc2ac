import HysteriaCore.Inventory.Requests

/-!
# What holds of the items between two requests

Each pointer, the field that shows it and the item's own record agree, and every stack is in its bounds. The
primitive writes keep this; what an item in the hand of the code weighs is part of the account.
-/

namespace HysteriaCore.Inventory
open Lib

namespace Player
variable (t : Templates) (p q : Player)

def worth (e : ℕ) (g : Guid) : ℕ := if (p.items g).entry = e then (p.items g).count else 0

def total (e : ℕ) : ℕ := (p.slots.rows.map fun s => p.worth e s.item).sum

def inMail (e : ℕ) : ℕ := (p.mailed.map (p.worth e)).sum

def Placed (g : Guid) : Prop := (∃ place, p.at? place = some g) ∨ g ∈ p.removed ∨ g ∈ p.mailed

structure Sound : Prop where
  records : ∀ {place g}, p.at? place = some g →
    (p.items g).slot = place.slot ∧ (p.items g).container = place.container ∧
      (p.items g).contained = place.holder p.guid
  counts : ∀ {place g}, p.at? place = some g →
    1 ≤ (p.items g).count ∧ (p.items g).count ≤ (p.template t g).GetMaxStackSize
  shown : ∀ place, p.fields place = (p.at? place).getD 0
  known : ∀ {place g}, p.at? place = some g → g < p.nextGuid
  gone : ∀ {g}, g ∈ p.removed ∨ g ∈ p.mailed → g < p.nextGuid ∧ ∀ place, p.at? place ≠ some g
  inBags : ∀ {b s g}, p.at? (.bag b s) = some g →
    p.IsBag t b = true ∧ s < p.GetBagSize t b ∧ b < p.nextGuid ∧ b ∉ p.removed

/-- An object in the hand of the code: in no slot, and not gone. -/
structure Loose (g : Guid) : Prop where
  known : g < p.nextGuid
  nowhere : ∀ place, p.at? place ≠ some g
  kept : g ∉ p.removed ∧ g ∉ p.mailed

variable {t p q}

/-! ### Pointers -/

variable {g : Guid} {place : Place}

theorem mem_slots_iff : (⟨place, g⟩ : Entry) ∈ p.slots ↔ p.at? place = some g := by
  constructor
  · intro hmem
    rw [at?, (p.slots.find?_eq_some_iff place ⟨place, g⟩).mpr ⟨hmem, rfl⟩]
    rfl
  · intro hat
    obtain ⟨e, hfind, hitem⟩ := Option.map_eq_some_iff.mp hat
    obtain ⟨hmem, hplace⟩ := (p.slots.find?_eq_some_iff place e).mp hfind
    obtain ⟨pl, i⟩ := e
    simp only at hplace hitem
    rw [← hplace, ← hitem]
    exact hmem

@[simp] theorem at?_modifyItem (g : Guid) (f : Item → Item) (place : Place) :
    (p.modifyItem g f).at? place = p.at? place := rfl

@[simp] theorem at?_SetCount (g : Guid) (n : ℕ) (place : Place) : (p.SetCount g n).at? place = p.at? place := rfl

@[simp] theorem at?_discard (g : Guid) (place : Place) : (p.discard g).at? place = p.at? place := rfl

theorem at?_setPlace (place pl : Place) (g : Guid) :
    (p.setPlace place g).at? pl = if place = pl then some g else p.at? pl := by
  show ((p.slots.put ⟨place, g⟩).find? pl).map Entry.item = _
  rw [KeyedList.find?_put]
  split <;> rfl

theorem at?_clearPlace (place pl : Place) :
    (p.clearPlace place).at? pl = if pl = place then none else p.at? pl := by
  show ((p.slots.erase place).find? pl).map Entry.item = _
  rw [KeyedList.find?_erase]
  split <;> rfl

variable {g g' : Guid}

theorem items_modifyItem_of_ne (f : Item → Item) (hne : g' ≠ g) :
    (p.modifyItem g f).items g' = p.items g' := Function.update_of_ne hne ..

theorem items_modifyItem_self (g : Guid) (f : Item → Item) :
    (p.modifyItem g f).items g = f (p.items g) := Function.update_self ..

theorem items_setPlace_of_ne (place : Place) (hne : g' ≠ g) :
    (p.setPlace place g).items g' = p.items g' := Function.update_of_ne hne ..

theorem items_setPlace_self (place : Place) (g : Guid) :
    (p.setPlace place g).items g =
      { p.items g with slot := place.slot, container := place.container, contained := place.holder p.guid } :=
  Function.update_self ..

theorem entry_modifyItem {f : Item → Item} (hf : ∀ i, (f i).entry = i.entry) (g' : Guid) :
    ((p.modifyItem g f).items g').entry = (p.items g').entry := by
  by_cases hne : g' = g
  · rw [hne, items_modifyItem_self, hf]
  · rw [items_modifyItem_of_ne f hne]

theorem entry_SetCount (g : Guid) (n : ℕ) (g' : Guid) :
    ((p.SetCount g n).items g').entry = (p.items g').entry := by
  unfold Player.SetCount
  rw [entry_modifyItem]
  exact fun _ => rfl

theorem Sound.unique (h : p.Sound t) {a b : Place} (ha : p.at? a = some g) (hb : p.at? b = some g) : a = b :=
  Place.ext_of ((h.records ha).1.symm.trans (h.records hb).1) ((h.records ha).2.1.symm.trans (h.records hb).2.1)

theorem Loose.ne_of_at (hloose : p.Loose g) (hat : p.at? place = some g') : g' ≠ g :=
  fun heq => hloose.nowhere place (heq ▸ hat)

/-! ### What positions name -/

theorem template_congr (hentry : (q.items g).entry = (p.items g).entry) :
    q.template t g = p.template t g := congrArg t hentry

variable {bag slot : ℕ}

theorem resolve_own {s : ℕ} (h : p.resolve t bag slot = some (.own s)) : bag = INVENTORY_SLOT_BAG_0 ∧ s = slot := by
  unfold resolve at h
  split at h
  · rename_i hown
    exact ⟨hown.1, by simpa using h.symm⟩
  · obtain ⟨b, -, hb⟩ := Option.bind_eq_some_iff.mp h
    split at hb <;> simp at hb

theorem resolve_bag {b : Guid} {s : ℕ} (h : p.resolve t bag slot = some (.bag b s)) :
    p.GetBagByPos t bag = some b ∧ s = slot ∧ slot < p.GetBagSize t b := by
  unfold resolve at h
  split at h
  · simp at h
  · obtain ⟨b', hbag, hb⟩ := Option.bind_eq_some_iff.mp h
    split at hb
    · rename_i hlt
      simp only [Option.some.injEq, Place.bag.injEq] at hb
      rw [← hb.1, ← hb.2]
      exact ⟨hbag, rfl, hlt⟩
    · simp at hb

theorem GetBagByPos_spec {bag : ℕ} {b : Guid} (h : p.GetBagByPos t bag = some b) :
    p.at? (.own bag) = some b ∧ p.IsBag t b = true ∧ bag ≠ INVENTORY_SLOT_BAG_0 ∧
      IsBagPos INVENTORY_SLOT_BAG_0 bag = true := by
  unfold GetBagByPos at h
  split at h
  · rename_i hrange
    obtain ⟨hat, hbag⟩ := Option.filter_eq_some_iff.mp h
    refine ⟨hat, hbag, ?_, by simpa [IsBagPos] using hrange⟩
    simp only [INVENTORY_SLOT_BAG_START, INVENTORY_SLOT_BAG_END, BANK_SLOT_BAG_START, BANK_SLOT_BAG_END] at hrange
    unfold INVENTORY_SLOT_BAG_0
    omega
  · simp at h

theorem resolve_mono (h : p.resolve t bag slot = some place)
    (hkeep : ∀ b s, place = .bag b s → q.at? (.own bag) = some b)
    (hentry : ∀ b s, place = .bag b s → (q.items b).entry = (p.items b).entry) :
    q.resolve t bag slot = some place := by
  cases place with
  | own s =>
    unfold resolve at h ⊢
    split at h
    · rename_i hown
      rw [if_pos hown]
      exact h
    · obtain ⟨b, -, hb⟩ := Option.bind_eq_some_iff.mp h
      split at hb <;> simp at hb
  | bag b s =>
    obtain ⟨hbag, rfl, hlt⟩ := resolve_bag h
    obtain ⟨-, hisBag, hne, -⟩ := GetBagByPos_spec hbag
    have htemplate : q.template t b = p.template t b := template_congr (hentry b s rfl)
    have hbag' : q.GetBagByPos t bag = some b := by
      unfold GetBagByPos at hbag ⊢
      split at hbag
      · rename_i hrange
        rw [if_pos hrange, hkeep b s rfl, Option.filter_eq_some_iff]
        refine ⟨rfl, ?_⟩
        unfold IsBag at hisBag ⊢
        rw [htemplate]
        exact hisBag
      · simp at hbag
    unfold resolve
    rw [if_neg (fun hown => hne hown.1), hbag', Option.bind_some, if_pos]
    unfold GetBagSize at hlt ⊢
    rw [htemplate]
    exact hlt

theorem Sound.resolve_inj (h : p.Sound t) {b1 s1 b2 s2 : ℕ}
    (h1 : p.resolve t b1 s1 = some place) (h2 : p.resolve t b2 s2 = some place) : (b1, s1) = (b2, s2) := by
  cases place with
  | own s =>
    obtain ⟨rfl, rfl⟩ := resolve_own h1
    obtain ⟨rfl, rfl⟩ := resolve_own h2
    rfl
  | bag b s =>
    obtain ⟨hb1, rfl, -⟩ := resolve_bag h1
    obtain ⟨hb2, rfl, -⟩ := resolve_bag h2
    have hsame := h.unique (GetBagByPos_spec hb1).1 (GetBagByPos_spec hb2).1
    rw [Place.own.injEq] at hsame
    rw [hsame]

/-! ### Totals -/

theorem worth_congr (hentry : (q.items g).entry = (p.items g).entry)
    (hcount : (q.items g).count = (p.items g).count) (e : ℕ) : q.worth e g = p.worth e g := by
  unfold worth
  rw [hentry, hcount]

theorem total_congr (hslots : q.slots = p.slots)
    (hworth : ∀ place g e, p.at? place = some g → q.worth e g = p.worth e g) (e : ℕ) : q.total e = p.total e := by
  unfold total
  rw [hslots]
  refine congrArg List.sum (List.map_congr_left fun s hs => ?_)
  exact hworth s.place s.item e (mem_slots_iff.mp hs)

theorem inMail_congr (hmailed : q.mailed = p.mailed) (hworth : ∀ g e, g ∈ p.mailed → q.worth e g = p.worth e g)
    (e : ℕ) : q.inMail e = p.inMail e := by
  unfold inMail
  rw [hmailed]
  exact congrArg List.sum (List.map_congr_left fun g hg => hworth g e hg)

theorem total_clearPlace (hat : p.at? place = some g) (e : ℕ) :
    (p.clearPlace place).total e + p.worth e g = p.total e :=
  p.slots.sum_erase (fun s => p.worth e s.item) (mem_slots_iff.mpr hat)

theorem worth_setPlace (place : Place) (g : Guid) (e : ℕ) (g' : Guid) :
    (p.setPlace place g).worth e g' = p.worth e g' := by
  by_cases hne : g' = g
  · rw [hne]
    unfold worth
    rw [items_setPlace_self]
  · exact worth_congr (congrArg Item.entry (items_setPlace_of_ne place hne))
      (congrArg Item.count (items_setPlace_of_ne place hne)) e

theorem total_setPlace (hfree : p.at? place = none) (e : ℕ) :
    (p.setPlace place g).total e = p.total e + p.worth e g := by
  have hnew : ∀ s ∈ p.slots, s.place ≠ place := by
    intro s hs heq
    have hat : p.at? place = some s.item := mem_slots_iff.mp (heq ▸ hs)
    rw [hfree] at hat
    simp at hat
  have hsum := p.slots.sum_put_of_new (fun s => p.worth e s.item) (a := ⟨place, g⟩) hnew
  unfold total
  simp only [worth_setPlace]
  exact hsum

theorem Sound.total_SetCount (h : p.Sound t) (hat : p.at? place = some g) (n e : ℕ) :
    (p.SetCount g n).total e + p.worth e g = p.total e + if (p.items g).entry = e then n else 0 := by
  have hrest : (((p.slots.erase place).rows).map fun s => (p.SetCount g n).worth e s.item).sum =
      (((p.slots.erase place).rows).map fun s => p.worth e s.item).sum := by
    refine congrArg List.sum (List.map_congr_left fun s hs => ?_)
    obtain ⟨hmem, hne⟩ := (p.slots.mem_erase place s).mp hs
    have hitem : s.item ≠ g := fun heq => hne (h.unique (mem_slots_iff.mp hmem) (heq ▸ hat))
    exact worth_congr (congrArg Item.entry (items_modifyItem_of_ne _ hitem))
      (congrArg Item.count (items_modifyItem_of_ne _ hitem)) e
  have hnew := p.slots.sum_erase (fun s => (p.SetCount g n).worth e s.item) (mem_slots_iff.mpr hat)
  have hold := p.slots.sum_erase (fun s => p.worth e s.item) (mem_slots_iff.mpr hat)
  have hworth : (p.SetCount g n).worth e g = if (p.items g).entry = e then n else 0 := by
    unfold worth SetCount
    rw [items_modifyItem_self]
  simp only at hnew hold
  unfold total
  rw [hrest] at hnew
  rw [hworth] at hnew
  show (p.slots.rows.map fun s => (p.SetCount g n).worth e s.item).sum + _ = _
  omega

/-! ### The writes -/

theorem Sound.modifyItem_loose (h : p.Sound t) (hloose : p.Loose g) {f : Item → Item}
    (hf : ∀ i, (f i).entry = i.entry) : (p.modifyItem g f).Sound t := by
  have hsame : ∀ {place g'}, p.at? place = some g' → (p.modifyItem g f).items g' = p.items g' :=
    fun hat => items_modifyItem_of_ne f (hloose.ne_of_at hat)
  have htemplate : ∀ g', (p.modifyItem g f).template t g' = p.template t g' :=
    fun g' => template_congr (entry_modifyItem hf g')
  refine ⟨?_, ?_, h.shown, h.known, h.gone, ?_⟩
  · intro place g' hat
    rw [hsame hat]
    exact h.records hat
  · intro place g' hat
    rw [hsame hat, htemplate]
    exact h.counts hat
  · intro b s g' hat
    unfold IsBag GetBagSize
    rw [htemplate]
    exact h.inBags hat

theorem Loose.modifyItem (hloose : p.Loose g) (f : Item → Item) : (p.modifyItem g' f).Loose g :=
  ⟨hloose.known, hloose.nowhere, hloose.kept⟩

theorem worth_modifyItem_of_ne (f : Item → Item) (hne : g' ≠ g) (e : ℕ) :
    (p.modifyItem g f).worth e g' = p.worth e g' :=
  worth_congr (congrArg Item.entry (items_modifyItem_of_ne f hne))
    (congrArg Item.count (items_modifyItem_of_ne f hne)) e

theorem Loose.total_modifyItem (hloose : p.Loose g) (f : Item → Item) (e : ℕ) :
    (p.modifyItem g f).total e = p.total e := by
  have hslots : (p.modifyItem g f).slots = p.slots := rfl
  exact total_congr hslots (fun _ _ e hat => worth_modifyItem_of_ne f (hloose.ne_of_at hat) e) e

theorem inMail_modifyItem (hg : g ∉ p.mailed) (f : Item → Item) (e : ℕ) :
    (p.modifyItem g f).inMail e = p.inMail e := by
  have hmailed : (p.modifyItem g f).mailed = p.mailed := rfl
  refine inMail_congr hmailed (fun g' e hmem => worth_modifyItem_of_ne f (fun heq => ?_) e) e
  rw [heq] at hmem
  exact hg hmem

theorem Sound.not_mailed (h : p.Sound t) (hat : p.at? place = some g) : g ∉ p.mailed :=
  fun hmem => (h.gone (.inr hmem)).2 place hat

theorem Sound.SetCount (h : p.Sound t) (hat : p.at? place = some g) {n : ℕ}
    (hpos : 1 ≤ n) (hmax : n ≤ (p.template t g).GetMaxStackSize) : (p.SetCount g n).Sound t := by
  have htemplate : ∀ g', (p.SetCount g n).template t g' = p.template t g' :=
    fun g' => template_congr (entry_SetCount g n g')
  refine ⟨?_, ?_, h.shown, h.known, h.gone, ?_⟩
  · intro pl g' hat'
    by_cases hne : g' = g
    · subst hne
      have hrecords := h.records hat'
      unfold Player.SetCount
      rw [items_modifyItem_self]
      exact hrecords
    · unfold Player.SetCount
      rw [items_modifyItem_of_ne _ hne]
      exact h.records hat'
  · intro pl g' hat'
    rw [htemplate]
    by_cases hne : g' = g
    · subst hne
      unfold Player.SetCount
      rw [items_modifyItem_self]
      exact ⟨hpos, hmax⟩
    · unfold Player.SetCount
      rw [items_modifyItem_of_ne _ hne]
      exact h.counts hat'
  · intro b s g' hat'
    unfold IsBag GetBagSize
    rw [htemplate]
    exact h.inBags hat'

theorem Sound.clearPlace (h : p.Sound t) (place : Place) : (p.clearPlace place).Sound t := by
  have hwas : ∀ {pl g}, (p.clearPlace place).at? pl = some g → pl ≠ place ∧ p.at? pl = some g := by
    intro pl g hat
    rw [at?_clearPlace] at hat
    split at hat
    · simp at hat
    · exact ⟨‹_›, hat⟩
  refine ⟨fun hat => h.records (hwas hat).2, fun hat => h.counts (hwas hat).2, ?_, fun hat => h.known (hwas hat).2,
    ?_, fun hat => h.inBags (hwas hat).2⟩
  · intro pl
    rw [at?_clearPlace]
    show Function.update p.fields place 0 pl = _
    by_cases heq : pl = place
    · rw [heq, Function.update_self, if_pos rfl]
      rfl
    · rw [Function.update_of_ne heq, if_neg heq]
      exact h.shown pl
  · intro g hgone
    exact ⟨(h.gone hgone).1, fun pl hat => (h.gone hgone).2 pl (hwas hat).2⟩

theorem Sound.loose_clearPlace (h : p.Sound t) (hat : p.at? place = some g) : (p.clearPlace place).Loose g := by
  refine ⟨h.known hat, ?_, fun hmem => (h.gone (.inl hmem)).2 place hat, h.not_mailed hat⟩
  intro pl hpl
  rw [at?_clearPlace] at hpl
  split at hpl
  · simp at hpl
  · exact ‹pl ≠ place› (h.unique hpl hat)

def Receives (t : Templates) (p : Player) (g : Guid) : Place → Prop
  | .own _ => True
  | .bag b s => b ≠ g ∧ p.IsBag t b = true ∧ s < p.GetBagSize t b ∧ b < p.nextGuid ∧ b ∉ p.removed

theorem Sound.setPlace (h : p.Sound t) (hloose : p.Loose g)
    (hcount : 1 ≤ (p.items g).count ∧ (p.items g).count ≤ (p.template t g).GetMaxStackSize)
    (hplace : Receives t p g place) : (p.setPlace place g).Sound t := by
  have hwas : ∀ {pl g'}, (p.setPlace place g).at? pl = some g' → pl = place ∧ g' = g ∨ g' ≠ g ∧ p.at? pl = some g' := by
    intro pl g' hat
    rw [at?_setPlace] at hat
    split at hat
    · rename_i heq
      exact .inl ⟨heq.symm, by simpa using hat.symm⟩
    · exact .inr ⟨hloose.ne_of_at hat, hat⟩
  have htemplate : ∀ g', (p.setPlace place g).template t g' = p.template t g' := by
    intro g'
    refine template_congr ?_
    by_cases hne : g' = g
    · rw [hne, items_setPlace_self]
    · rw [items_setPlace_of_ne place hne]
  refine ⟨?_, ?_, ?_, ?_, ?_, ?_⟩
  · intro pl g' hat
    obtain ⟨rfl, rfl⟩ | ⟨hne, hold⟩ := hwas hat
    · rw [items_setPlace_self]
      exact ⟨rfl, rfl, rfl⟩
    · rw [items_setPlace_of_ne place hne]
      exact h.records hold
  · intro pl g' hat
    rw [htemplate]
    obtain ⟨rfl, rfl⟩ | ⟨hne, hold⟩ := hwas hat
    · rw [items_setPlace_self]
      exact hcount
    · rw [items_setPlace_of_ne place hne]
      exact h.counts hold
  · intro pl
    rw [at?_setPlace]
    show Function.update p.fields place g pl = _
    by_cases heq : pl = place
    · rw [heq, Function.update_self, if_pos rfl]
      rfl
    · rw [Function.update_of_ne heq, if_neg (Ne.symm heq)]
      exact h.shown pl
  · intro pl g' hat
    obtain ⟨-, rfl⟩ | ⟨-, hold⟩ := hwas hat
    · exact hloose.known
    · exact h.known hold
  · intro g' hgone
    refine ⟨(h.gone hgone).1, fun pl hat => ?_⟩
    obtain ⟨-, rfl⟩ | ⟨-, hold⟩ := hwas hat
    · exact hgone.elim hloose.kept.1 hloose.kept.2
    · exact (h.gone hgone).2 pl hold
  · intro b s g' hat
    unfold IsBag GetBagSize
    rw [htemplate]
    obtain ⟨rfl, -⟩ | ⟨-, hold⟩ := hwas hat
    · exact hplace.2
    · exact h.inBags hold

theorem Sound.discard (h : p.Sound t) (hloose : p.Loose g) (hempty : ∀ s, p.at? (.bag g s) = none) :
    (p.discard g).Sound t := by
  refine ⟨h.records, h.counts, h.shown, h.known, ?_, ?_⟩
  · rintro g' (hmem | hmem)
    · rcases List.mem_cons.mp hmem with rfl | hmem
      · exact ⟨hloose.known, hloose.nowhere⟩
      · exact h.gone (.inl hmem)
    · exact h.gone (.inr hmem)
  · intro b s g' hat
    obtain ⟨hbag, hlt, hknown, hkept⟩ := h.inBags hat
    refine ⟨hbag, hlt, hknown, fun hmem => ?_⟩
    rcases List.mem_cons.mp hmem with rfl | hmem
    · rw [at?_discard, hempty s] at hat
      simp at hat
    · exact hkept hmem

theorem Sound.mail (h : p.Sound t) (hloose : p.Loose g) : (p.mail g).Sound t := by
  refine ⟨h.records, h.counts, h.shown, h.known, ?_, h.inBags⟩
  rintro g' (hmem | hmem)
  · exact h.gone (.inl hmem)
  · rcases List.mem_cons.mp hmem with rfl | hmem
    · exact ⟨hloose.known, hloose.nowhere⟩
    · exact h.gone (.inr hmem)

end Player

end HysteriaCore.Inventory
