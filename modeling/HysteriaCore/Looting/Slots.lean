import HysteriaCore.Looting.Lists

/-!
# What is in a slot

`Resolves` lists the six ways in which `LootItemInSlot` finds an entry; the records of a window
are the entries found with the player's own entry and the item both unlooted.
-/

namespace HysteriaCore.Looting
open Lib

namespace Loot

inductive Resolves (loot : Loot) (guid slot : ℕ) : Found → Prop where
  | quest {pos : ℕ} {q : QuestItem} {item : LootItem} (hslot : slot = loot.items.length + pos)
      (hown : (loot.playerQuestItems.listOf guid)[pos]? = some q) (hfree : q.isLooted = false)
      (hitem : loot.questItems[q.index]? = some item) :
      Resolves loot guid slot ⟨.quest q.index, item, some (.qitem pos)⟩
  | ffa {pos : ℕ} {q : QuestItem} {item : LootItem} (hitem : loot.items[slot]? = some item)
      (hffa : item.freeforall = true)
      (hown : ownEntry (loot.playerFFAItems.listOf guid) slot = some (pos, q))
      (hfree : q.isLooted = false) : Resolves loot guid slot ⟨.item slot, item, some (.ffaitem pos)⟩
  | ffaUnlisted {item : LootItem} (hitem : loot.items[slot]? = some item)
      (hffa : item.freeforall = true)
      (hown : ownEntry (loot.playerFFAItems.listOf guid) slot = none)
      (hfree : item.isLooted = false) : Resolves loot guid slot ⟨.item slot, item, none⟩
  | conditional {pos : ℕ} {q : QuestItem} {item : LootItem} (hitem : loot.items[slot]? = some item)
      (hffa : item.freeforall = false) (hcond : item.conditions.isEmpty = false)
      (hown : ownEntry (loot.playerConditionalItems.listOf guid) slot = some (pos, q))
      (hfree : q.isLooted = false) : Resolves loot guid slot ⟨.item slot, item, some (.conditem pos)⟩
  | conditionalUnlisted {item : LootItem} (hitem : loot.items[slot]? = some item)
      (hffa : item.freeforall = false) (hcond : item.conditions.isEmpty = false)
      (hown : ownEntry (loot.playerConditionalItems.listOf guid) slot = none)
      (hfree : item.isLooted = false) : Resolves loot guid slot ⟨.item slot, item, none⟩
  | plain {item : LootItem} (hitem : loot.items[slot]? = some item) (hffa : item.freeforall = false)
      (hcond : item.conditions.isEmpty = true) (hfree : item.isLooted = false) :
      Resolves loot guid slot ⟨.item slot, item, none⟩

variable {list : List QuestItem} {q : QuestItem}

theorem ownEntry_eq_some {i pos : ℕ} (h : ownEntry list i = some (pos, q)) : list[pos]? = some q ∧ q.index = i := by
  obtain ⟨x, hx, heq⟩ := Option.map_eq_some_iff.mp h
  obtain ⟨rfl, rfl⟩ := Prod.mk.inj heq
  exact ⟨List.mk_mem_zipIdx_iff_getElem?.mp (List.mem_of_find?_eq_some hx),
    by simpa using List.find?_some hx⟩

theorem ownEntry_eq_none {i : ℕ} : ownEntry list i = none ↔ ∀ q ∈ list, q.index ≠ i := by
  rw [ownEntry, Option.map_eq_none_iff, List.find?_eq_none]
  constructor
  · intro h q hq
    obtain ⟨pos, hpos⟩ := List.getElem?_of_mem hq
    simpa using h (q, pos) (List.mk_mem_zipIdx_iff_getElem?.mpr hpos)
  · intro h x hx
    have hmem := List.mem_of_getElem? (List.mk_mem_zipIdx_iff_getElem?.mp hx)
    simpa using h x.1 hmem

theorem ownEntry_of_mem (hnodup : (list.map QuestItem.index).Nodup)
    (hq : q ∈ list) : ∃ pos, ownEntry list q.index = some (pos, q) := by
  cases h : ownEntry list q.index with
  | none => exact absurd rfl (ownEntry_eq_none.mp h q hq)
  | some x =>
    obtain ⟨hpos, hidx⟩ := ownEntry_eq_some h
    have heq : x.2 = q := List.inj_on_of_nodup_map hnodup (List.mem_of_getElem? hpos) hq hidx
    exact ⟨x.1, by rw [← heq]⟩

variable {proto : ℕ → Option ItemTemplate} {loot : Loot}

variable {a : Answers} {f : Found}

theorem resolves_of_found {slot guid : ℕ}
    (h : loot.lootItemInSlot proto slot guid a = some f) : loot.Resolves guid slot f := by
  rw [lootItemInSlot] at h
  by_cases hslot : loot.items.length ≤ slot
  · rw [if_pos hslot] at h
    dsimp only at h
    cases hown : (loot.playerQuestItems.listOf guid)[slot - loot.items.length]? with
    | none => simp [hown] at h
    | some q =>
      simp only [hown] at h
      cases hitem : loot.questItems[q.index]? with
      | none => simp [hitem] at h
      | some item =>
        simp only [hitem] at h
        split at h
        · cases h
        · split at h
          · cases h
          · rename_i hfree
            cases h
            exact .quest (by omega) hown (by simpa using hfree) hitem
  · rw [if_neg hslot] at h
    cases hitem : loot.items[slot]? with
    | none => simp [hitem] at h
    | some item =>
      simp only [hitem] at h
      by_cases hffa : item.freeforall
      · simp only [hffa, if_true] at h
        cases hown : ownEntry (loot.playerFFAItems.listOf guid) slot with
        | none =>
          simp only [hown, Option.map_none, Option.getD_none, Option.ite_none_left_eq_some,
            Option.some.injEq] at h
          obtain ⟨hfree, rfl⟩ := h
          exact .ffaUnlisted hitem hffa hown (by simpa using hfree)
        | some x =>
          simp only [hown, Option.map_some, Option.getD_some, Option.ite_none_left_eq_some,
            Option.some.injEq] at h
          obtain ⟨hfree, rfl⟩ := h
          exact .ffa hitem hffa hown (by simpa using hfree)
      · have hno : item.freeforall = false := by simpa using hffa
        simp only [hno, Bool.false_eq_true, if_false] at h
        by_cases hcond : item.conditions.isEmpty
        · simp only [hcond, Bool.not_true, Bool.false_eq_true, if_false, Option.map_none,
            Option.getD_none, Option.ite_none_left_eq_some,
            Option.some.injEq] at h
          obtain ⟨hfree, rfl⟩ := h
          exact .plain hitem hno hcond (by simpa using hfree)
        · have hc : item.conditions.isEmpty = false := by simpa using hcond
          simp only [hc, Bool.not_false, if_true] at h
          cases hown : ownEntry (loot.playerConditionalItems.listOf guid) slot with
          | none =>
            simp only [hown, Option.map_none, Option.getD_none, Option.ite_none_left_eq_some,
            Option.some.injEq] at h
            obtain ⟨hfree, rfl⟩ := h
            exact .conditionalUnlisted hitem hno hc hown (by simpa using hfree)
          | some x =>
            simp only [hown, Option.map_some, Option.getD_some, Option.ite_none_left_eq_some,
            Option.some.injEq] at h
            obtain ⟨hfree, rfl⟩ := h
            exact .conditional hitem hno hc hown (by simpa using hfree)

theorem found_of_resolves {slot guid : ℕ}
    (h : loot.Resolves guid slot f) :
    loot.lootItemInSlot proto slot guid a =
      if (f.place matches .quest _) && f.item.followLootRules && !f.item.allowedForPlayer proto a
      then none else some f := by
  cases h with
  | quest hslot hown hfree hitem =>
    subst hslot
    simp [lootItemInSlot, hown, hitem, hfree]
  | ffa hitem hffa hown hfree =>
    have hlt : ¬ loot.items.length ≤ slot := Nat.not_le.mpr (List.getElem?_eq_some_iff.mp hitem).1
    simp [lootItemInSlot, hlt, hitem, hffa, hown, hfree]
  | ffaUnlisted hitem hffa hown hfree =>
    have hlt : ¬ loot.items.length ≤ slot := Nat.not_le.mpr (List.getElem?_eq_some_iff.mp hitem).1
    simp [lootItemInSlot, hlt, hitem, hffa, hown, hfree]
  | conditional hitem hffa hcond hown hfree =>
    have hlt : ¬ loot.items.length ≤ slot := Nat.not_le.mpr (List.getElem?_eq_some_iff.mp hitem).1
    simp only [List.isEmpty_eq_false_iff] at hcond
    simp [lootItemInSlot, hlt, hitem, hffa, hcond, hown, hfree]
  | conditionalUnlisted hitem hffa hcond hown hfree =>
    have hlt : ¬ loot.items.length ≤ slot := Nat.not_le.mpr (List.getElem?_eq_some_iff.mp hitem).1
    simp only [List.isEmpty_eq_false_iff] at hcond
    simp [lootItemInSlot, hlt, hitem, hffa, hcond, hown, hfree]
  | plain hitem hffa hcond hfree =>
    have hlt : ¬ loot.items.length ≤ slot := Nat.not_le.mpr (List.getElem?_eq_some_iff.mp hitem).1
    simp only [List.isEmpty_iff] at hcond
    simp [lootItemInSlot, hlt, hitem, hffa, hcond, hfree]

/-- An entry that may still be taken by whoever finds it: it is on his list or for everyone, and
nobody has taken it unless everybody may. -/
def Untaken (f : Found) : Prop :=
  (f.own.isSome = true ∨ (f.item.freeforall = false ∧ f.item.conditions.isEmpty = true)) ∧
    (f.item.freeforall = true ∨ f.item.isLooted = false)

instance (f : Found) : Decidable (Untaken f) := inferInstanceAs (Decidable (_ ∧ _))

variable {v : Viewer} {r : Record}

theorem mem_plainRecords (hwf : loot.WellFormed) :
    r ∈ loot.plainRecords proto v ↔ ∃ i item t, loot.items[i]? = some item ∧
      item.isLooted = false ∧ item.freeforall = false ∧ item.conditions.isEmpty = true ∧
      item.allowedForPlayer proto v.answers = true ∧ v.plainType loot item = some t ∧
      r = ⟨i, .item i, item, t⟩ := by
  have hsmall : ∀ i item, loot.items[i]? = some item → i % 256 = i := by
    intro i item hi
    have h1 := (List.getElem?_eq_some_iff.mp hi).1
    have h2 := hwf.itemsSize
    simp only [MAX_NR_LOOT_ITEMS] at h2
    omega
  rw [plainRecords, List.mem_filterMap]
  constructor
  · rintro ⟨⟨item, i⟩, hmem, h⟩
    have hi := List.mk_mem_zipIdx_iff_getElem?.mp hmem
    rw [Option.ite_none_right_eq_some, Option.map_eq_some_iff] at h
    obtain ⟨hcond, t, ht, hr⟩ := h
    simp only [Bool.and_eq_true, Bool.not_eq_true'] at hcond
    refine ⟨i, item, t, hi, hcond.1.1.1, hcond.1.1.2, hcond.1.2, hcond.2, ht, ?_⟩
    rw [← hr, hsmall i item hi]
  · rintro ⟨i, item, t, hi, hloot, hffa, hcond, hallow, ht, rfl⟩
    refine ⟨(item, i), List.mk_mem_zipIdx_iff_getElem?.mpr hi, ?_⟩
    simp [hloot, hffa, hcond, hallow, ht, hsmall i item hi]

theorem mem_questRecords (hwf : loot.WellFormed) :
    r ∈ loot.questRecords v ↔ ∃ pos q item, (loot.playerQuestItems.listOf v.guid)[pos]? = some q ∧
      loot.questItems[q.index]? = some item ∧ q.isLooted = false ∧ item.isLooted = false ∧
      r = ⟨loot.items.length + pos, .quest q.index, item, v.listType item⟩ := by
  have hsmall : ∀ pos q, (loot.playerQuestItems.listOf v.guid)[pos]? = some q →
      (loot.items.length + pos) % 256 = loot.items.length + pos := by
    intro pos q hq
    have h1 := (List.getElem?_eq_some_iff.mp hq).1
    have h2 := hwf.itemsSize
    have h3 : (loot.playerQuestItems.listOf v.guid).length ≤ MAX_NR_LOOT_ITEMS := by
      rw [QuestItemMap.listOf]
      cases hrow : loot.playerQuestItems.find? v.guid with
      | none => exact Nat.zero_le _
      | some row =>
        have hin := ((loot.playerQuestItems.find?_eq_some_iff _ _).mp hrow).1
        exact (hwf.quest row hin).2.1
    simp only [MAX_NR_LOOT_ITEMS] at h2 h3
    omega
  rw [questRecords, List.mem_filterMap]
  constructor
  · rintro ⟨⟨q, pos⟩, hmem, h⟩
    have hpos := List.mk_mem_zipIdx_iff_getElem?.mp hmem
    obtain ⟨item, hitem, h⟩ := Option.bind_eq_some_iff.mp h
    rw [Option.ite_none_right_eq_some, Option.some.injEq] at h
    obtain ⟨hfree, hr⟩ := h
    simp only [Bool.and_eq_true, Bool.not_eq_true'] at hfree
    refine ⟨pos, q, item, hpos, hitem, hfree.1, hfree.2, ?_⟩
    rw [← hr, hsmall pos q hpos]
  · rintro ⟨pos, q, item, hpos, hitem, hq, hloot, rfl⟩
    refine ⟨(q, pos), List.mk_mem_zipIdx_iff_getElem?.mpr hpos, ?_⟩
    simp [hitem, hq, hloot, hsmall pos q hpos]

theorem mem_listRecords (hwf : loot.WellFormed)
    {type : LootItem → LootSlotType} :
    r ∈ loot.listRecords list type ↔ ∃ q ∈ list, ∃ item, loot.items[q.index]? = some item ∧
      q.isLooted = false ∧ item.isLooted = false ∧
      r = ⟨q.index, .item q.index, item, type item⟩ := by
  have hsmall : ∀ i item, loot.items[i]? = some item → i % 256 = i := by
    intro i item hi
    have h1 := (List.getElem?_eq_some_iff.mp hi).1
    have h2 := hwf.itemsSize
    simp only [MAX_NR_LOOT_ITEMS] at h2
    omega
  rw [listRecords, List.mem_filterMap]
  constructor
  · rintro ⟨q, hq, h⟩
    obtain ⟨item, hitem, h⟩ := Option.bind_eq_some_iff.mp h
    rw [Option.ite_none_right_eq_some, Option.some.injEq] at h
    obtain ⟨hfree, hr⟩ := h
    simp only [Bool.and_eq_true, Bool.not_eq_true'] at hfree
    refine ⟨q, hq, item, hitem, hfree.1, hfree.2, ?_⟩
    rw [← hr, hsmall q.index item hitem]
  · rintro ⟨q, hq, item, hitem, hfree, hloot, rfl⟩
    refine ⟨q, hq, ?_⟩
    simp [hitem, hfree, hloot, hsmall q.index item hitem]

theorem listing_listOf {m : QuestItemMap} {entries : List LootItem} {kind : LootItem → Bool}
    (h : Listing m entries kind) (guid : ℕ) :
    ((m.listOf guid).map QuestItem.index).Nodup ∧ (m.listOf guid).length ≤ MAX_NR_LOOT_ITEMS ∧
      ∀ q ∈ m.listOf guid, entries[q.index]?.any kind = true := by
  rw [QuestItemMap.listOf]
  cases hrow : m.find? guid with
  | none => exact ⟨List.nodup_nil, Nat.zero_le _, fun q hq => absurd hq (by simp)⟩
  | some row => exact h row ((m.find?_eq_some_iff _ _).mp hrow).1

theorem entry_of_ffa_list (hwf : loot.WellFormed) {guid : ℕ}
    (hq : q ∈ loot.playerFFAItems.listOf guid) {item : LootItem}
    (hitem : loot.items[q.index]? = some item) :
    item.freeforall = true ∧
      ∃ pos, ownEntry (loot.playerFFAItems.listOf guid) q.index = some (pos, q) := by
  obtain ⟨hnodup, -, hkind⟩ := listing_listOf hwf.ffa guid
  have h := hkind q hq
  rw [hitem] at h
  exact ⟨h, ownEntry_of_mem hnodup hq⟩

theorem entry_of_conditional_list (hwf : loot.WellFormed) {guid : ℕ}
    (hq : q ∈ loot.playerConditionalItems.listOf guid) {item : LootItem}
    (hitem : loot.items[q.index]? = some item) :
    (item.freeforall = false ∧ item.conditions.isEmpty = false) ∧
      ∃ pos, ownEntry (loot.playerConditionalItems.listOf guid) q.index = some (pos, q) := by
  obtain ⟨hnodup, -, hkind⟩ := listing_listOf hwf.conditional guid
  have h := hkind q hq
  rw [hitem] at h
  have h' : (!item.freeforall && !item.conditions.isEmpty) = true := h
  simp only [Bool.and_eq_true, Bool.not_eq_true'] at h'
  exact ⟨h', ownEntry_of_mem hnodup hq⟩

theorem resolves_of_record (hwf : loot.WellFormed)
    (hr : r ∈ (loot.view proto v).records) :
    ∃ own, loot.Resolves v.guid r.slot ⟨r.place, r.item, own⟩ ∧ Untaken ⟨r.place, r.item, own⟩ := by
  rw [view] at hr
  split at hr
  · exact absurd hr (by simp)
  simp only [List.mem_append] at hr
  rcases hr with ((hr | hr) | hr) | hr
  · obtain ⟨i, item, t, hi, hloot, hffa, hcond, -, -, rfl⟩ := (mem_plainRecords hwf).mp hr
    exact ⟨none, .plain hi hffa hcond hloot, .inr ⟨hffa, hcond⟩, .inr hloot⟩
  · obtain ⟨pos, q, item, hpos, hitem, hq, hloot, rfl⟩ := (mem_questRecords hwf).mp hr
    exact ⟨_, .quest rfl hpos hq hitem, .inl rfl, .inr hloot⟩
  · obtain ⟨q, hq, item, hitem, hfree, hloot, rfl⟩ := (mem_listRecords hwf).mp hr
    obtain ⟨hffa, pos, hown⟩ := entry_of_ffa_list hwf hq hitem
    exact ⟨_, .ffa hitem hffa hown hfree, .inl rfl, .inl hffa⟩
  · obtain ⟨q, hq, item, hitem, hfree, hloot, rfl⟩ := (mem_listRecords hwf).mp hr
    obtain ⟨⟨hffa, hcond⟩, pos, hown⟩ := entry_of_conditional_list hwf hq hitem
    exact ⟨_, .conditional hitem hffa hcond hown hfree, .inl rfl, .inr hloot⟩

theorem resolves_of_grant {guid slot : ℕ}
    (h : loot.grant proto guid a slot = some f) :
    loot.Resolves guid slot f ∧ admits proto guid a f = true := by
  obtain ⟨hfound, hadm⟩ := Option.filter_eq_some_iff.mp h
  exact ⟨resolves_of_found hfound, hadm⟩

theorem Resolves.unique {guid slot : ℕ} {f g : Found} (hf : loot.Resolves guid slot f)
    (hg : loot.Resolves guid slot g) : f = g := by
  -- an item template under which everything is allowed
  have hall : ∀ h : Found, loot.Resolves guid slot h →
      loot.lootItemInSlot (fun _ => some ⟨0, 0, false, false, false, false, false, true, false, 0, 0, 0⟩)
        slot guid ⟨fun _ => true, fun _ => true, fun _ => false, .neutral, fun _ => false,
          fun _ => true, none, false, fun _ _ => 0⟩ = some h := by
    intro h hh
    rw [found_of_resolves hh]
    simp [LootItem.allowedForPlayer]
  exact Option.some.inj ((hall f hf).symm.trans (hall g hg))

theorem untaken_of_shows (hwf : loot.WellFormed) {slot : ℕ}
    (hshow : loot.shows proto v slot = true) (h : loot.grant proto v.guid a slot = some f) : Untaken f := by
  obtain ⟨r, hr, htest⟩ := List.any_eq_true.mp hshow
  simp only [Bool.and_eq_true, decide_eq_true_eq] at htest
  obtain ⟨own, hres, huntaken⟩ := resolves_of_record hwf hr
  rw [htest.1] at hres
  rw [(resolves_of_grant h).1.unique hres]
  exact huntaken

end Loot

end HysteriaCore.Looting
