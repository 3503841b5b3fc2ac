import HysteriaCore.Looting.Slots

/-!
# The window and the taker

The window offers an entry with a slot type, `StoreLootItem` hands it over after checks of its own.
The two agree under a condition on the entries of each kind; the count byte and the slots of a
window are always right.
-/

namespace HysteriaCore.Looting
open Lib

def LootItem.wonByOther (item : LootItem) (guid : ℕ) : Prop :=
  item.rollWinnerGUID ≠ 0 ∧ item.rollWinnerGUID ≠ guid

instance (item : LootItem) (guid : ℕ) : Decidable (item.wonByOther guid) :=
  inferInstanceAs (Decidable (_ ∧ _))

def Answers.hasRoomFor (a : Answers) (item : LootItem) : Prop :=
  a.canStoreNewItem item.itemid item.count = EQUIP_ERR_OK ∧ item.count ≠ 0

instance (a : Answers) (item : LootItem) : Decidable (a.hasRoomFor item) :=
  inferInstanceAs (Decidable (_ ∧ _))

def Record.part (r : Record) : ℕ :=
  match r.place with
  | .quest _ => 1
  | .item _ => if r.item.freeforall then 2 else if r.item.conditions.isEmpty then 0 else 3

namespace Viewer

def offersPlain (v : Viewer) (loot : Loot) (item : LootItem) : Prop :=
  match v.permission with
  | .all | .owner => True
  | .roundRobin => loot.roundRobinPlayer = 0 ∨ v.guid = loot.roundRobinPlayer
  | .group | .master | .restricted =>
    item.isBlocked = false ∧
      if item.rollWinnerGUID ≠ 0 then item.rollWinnerGUID = v.guid
      else loot.roundRobinPlayer = 0 ∨ v.guid = loot.roundRobinPlayer ∨ item.isUnderthreshold = false
  | .none => False

/-- When an entry of the viewer's quest list or conditional list is shown as one to take. -/
def offersListed (v : Viewer) (item : LootItem) : Prop :=
  match v.permission with
  | .all | .owner => True
  | .master => item.followLootRules = false ∧ item.freeforall = true
  | .group | .roundRobin | .restricted => item.followLootRules = true → item.isBlocked = false
  | .none => False

instance (v : Viewer) (loot : Loot) (item : LootItem) : Decidable (v.offersPlain loot item) := by
  unfold offersPlain
  split <;> infer_instance

instance (v : Viewer) (item : LootItem) : Decidable (v.offersListed item) := by
  unfold offersListed
  split <;> infer_instance

theorem plainType_takes (v : Viewer) (loot : Loot) (item : LootItem) :
    (∃ t, v.plainType loot item = some t ∧ t.takes = true) ↔ v.offersPlain loot item := by
  rw [plainType, offersPlain]
  cases hperm : v.permission with
  | all => simp [LootSlotType.takes]
  | owner => simp [LootSlotType.takes]
  | none => simp
  | roundRobin =>
    by_cases h : loot.roundRobinPlayer = 0 ∨ v.guid = loot.roundRobinPlayer
    · rcases h with h | h <;> simp [h, LootSlotType.takes]
    · rw [not_or] at h
      simp [h.1, h.2]
  | group | master | restricted =>
    cases hblocked : item.isBlocked with
    | true =>
      simp only [if_true, Bool.true_eq_false, false_and, iff_false]
      rintro ⟨t, ht, htakes⟩
      first
        | (cases ht; exact absurd htakes (by decide))
        | (split at ht <;> cases ht <;> exact absurd htakes (by decide))
    | false =>
      simp only [Bool.false_eq_true, if_false, true_and]
      by_cases hwinner : item.rollWinnerGUID ≠ 0
      · simp only [if_pos hwinner]
        by_cases hme : item.rollWinnerGUID = v.guid <;> simp [hme, LootSlotType.takes]
      · simp only [if_neg hwinner]
        by_cases h1 : loot.roundRobinPlayer = 0
        · simp [h1, LootSlotType.takes]
        · by_cases h2 : v.guid = loot.roundRobinPlayer
          · simp [h2, LootSlotType.takes]
          · cases h3 : item.isUnderthreshold <;> simp [h1, h2, LootSlotType.takes]

theorem listType_takes (v : Viewer) (hperm : v.permission ≠ .none) (item : LootItem) :
    (v.listType item).takes = true ↔ v.offersListed item := by
  rw [listType, offersListed, slotType, partySlotType, slotType]
  cases hp : v.permission <;> cases item.followLootRules <;> cases item.freeforall <;>
    cases item.isBlocked <;> simp [LootSlotType.takes, hp] at hperm ⊢

end Viewer

namespace Loot
variable (proto : ℕ → Option ItemTemplate)

def Offers (loot : Loot) (v : Viewer) (f : Found) : Prop :=
  f.item.isLooted = false ∧
  match f.own with
  | some (.qitem _) | some (.conditem _) => v.offersListed f.item
  | some (.ffaitem _) => v.permission ≠ .none
  | none => f.item.freeforall = false ∧ f.item.conditions.isEmpty = true ∧
      f.item.allowedForPlayer proto v.answers = true ∧ v.offersPlain loot f.item

structure Agrees (loot : Loot) (v : Viewer) : Prop where
  /-- what is shown as one to take is in its slot, and only the inventory may refuse it -/
  granted : ∀ r ∈ (loot.view proto v).records, r.slotType.takes = true →
    ∃ own, loot.grant proto v.guid v.answers r.slot = some ⟨r.place, r.item, own⟩
  shown : ∀ slot taken,
    (loot.storeLootItem proto v.guid v.answers slot).taken = loot.taken ++ [taken] →
    ∃ r ∈ (loot.view proto v).records, r.slot = slot ∧ r.place = taken.place ∧
      r.slotType.takes = true
  count : (loot.view proto v).itemsShown.toNat = (loot.view proto v).records.length
  slots : ((loot.view proto v).records.map Record.slot).Nodup

/-- The condition, kind by kind: what the window offers passes the taker's checks, and what it does
not offer fails one of them or cannot be stored. -/
structure Consistent (loot : Loot) (v : Viewer) : Prop where
  plain : ∀ (i : ℕ) item, loot.items[i]? = some item → item.freeforall = false →
    item.conditions.isEmpty = true → item.isLooted = false →
    item.allowedForPlayer proto v.answers = true →
    if v.offersPlain loot item then
      item.isBlocked = false ∧ ¬ item.wonByOther v.guid ∧ masterOnly v.guid v.answers = false
    else item.isBlocked = true ∨ item.wonByOther v.guid ∨ masterOnly v.guid v.answers = true ∨
      ¬ v.answers.hasRoomFor item
  conditional : ∀ q ∈ loot.playerConditionalItems.listOf v.guid, ∀ item,
    loot.items[q.index]? = some item → q.isLooted = false →
    if v.offersListed item ∧ item.isLooted = false then
      item.allowedForPlayer proto v.answers = true ∧ item.isBlocked = false ∧
        ¬ item.wonByOther v.guid
    else item.allowedForPlayer proto v.answers = false ∨ item.isBlocked = true ∨
      item.wonByOther v.guid ∨ ¬ v.answers.hasRoomFor item
  /-- the blocked flag of quest items is for other purposes -/
  quest : ∀ q ∈ loot.playerQuestItems.listOf v.guid, ∀ item,
    loot.questItems[q.index]? = some item → q.isLooted = false →
    if v.offersListed item ∧ item.isLooted = false then
      item.allowedForPlayer proto v.answers = true ∧ ¬ item.wonByOther v.guid
    else item.allowedForPlayer proto v.answers = false ∨ item.wonByOther v.guid ∨
      ¬ v.answers.hasRoomFor item
  ffa : ∀ q ∈ loot.playerFFAItems.listOf v.guid, ∀ item,
    loot.items[q.index]? = some item → q.isLooted = false →
    if v.permission ≠ .none ∧ item.isLooted = false then
      item.allowedForPlayer proto v.answers = true ∧ item.isBlocked = false ∧
        ¬ item.wonByOther v.guid
    else item.allowedForPlayer proto v.answers = false ∨ item.isBlocked = true ∨
      item.wonByOther v.guid ∨ ¬ v.answers.hasRoomFor item
  /-- an entry that is not on the list it belongs to -/
  unlisted : ∀ (i : ℕ) item, loot.items[i]? = some item →
    (if item.freeforall then ∀ q ∈ loot.playerFFAItems.listOf v.guid, q.index ≠ i
      else item.conditions.isEmpty = false ∧
        ∀ q ∈ loot.playerConditionalItems.listOf v.guid, q.index ≠ i) → item.isLooted = false →
    item.allowedForPlayer proto v.answers = false ∨ item.isBlocked = true ∨
      item.wonByOther v.guid ∨ masterOnly v.guid v.answers = true ∨ ¬ v.answers.hasRoomFor item

variable {proto} {loot : Loot} {v : Viewer}

theorem nodup_map_filterMap {α β γ : Type} {l : List α} {f : α → Option β} {g : β → γ} (k : α → γ)
    (hk : ∀ a ∈ l, ∀ b ∈ f a, g b = k a) (hn : (l.map k).Nodup) : ((l.filterMap f).map g).Nodup := by
  have hsub : ((l.filterMap f).map g).Sublist (l.map k) := by
    clear hn
    induction l with
    | nil => exact .slnil
    | cons a l ih =>
      have hrest := ih fun x hx => hk x (List.mem_cons_of_mem _ hx)
      cases hf : f a with
      | none =>
        rw [List.filterMap_cons_none hf, List.map_cons]
        exact .cons _ hrest
      | some b =>
        rw [List.filterMap_cons_some hf, List.map_cons, List.map_cons, hk a List.mem_cons_self b hf]
        exact .cons_cons _ hrest
  exact hn.sublist hsub

theorem mem_view_records (proto : ℕ → Option ItemTemplate) (loot : Loot) (v : Viewer) (r : Record) : r ∈ (loot.view proto v).records ↔ v.permission ≠ .none ∧
    (r ∈ loot.plainRecords proto v ∨ r ∈ loot.questRecords v ∨ r ∈ loot.ffaRecords v ∨
      r ∈ loot.conditionalRecords v) := by
  rw [view]
  by_cases hperm : v.permission = .none
  · simp [hperm]
  · rw [if_neg hperm]
    simp [hperm]

theorem listRecords_length_le {m : QuestItemMap} {kind : LootItem → Bool}
    {entries : List LootItem} (h : Listing m entries kind) (guid : ℕ) (type : LootItem → LootSlotType) :
    (loot.listRecords (m.listOf guid) type).length ≤ 16 := by
  have hlen := (listing_listOf h guid).2.1
  have hle := List.length_filterMap_le (fun q : QuestItem => loot.items[q.index]?.bind fun item =>
    if !q.isLooted && !item.isLooted then
      some (⟨q.index % 256, .item q.index, item, type item⟩ : Record) else none) (m.listOf guid)
  exact hle.trans hlen

theorem view_count (hwf : loot.WellFormed) :
    (loot.view proto v).itemsShown.toNat = (loot.view proto v).records.length := by
  rw [view]
  split
  · rfl
  · have h1 : (loot.plainRecords proto v).length ≤ 16 := by
      refine (List.length_filterMap_le ..).trans ?_
      rw [List.length_zipIdx]
      exact hwf.itemsSize
    have h2 : (loot.questRecords v).length ≤ 16 := by
      refine (List.length_filterMap_le ..).trans ?_
      rw [List.length_zipIdx]
      exact (listing_listOf hwf.quest v.guid).2.1
    have h3 : (loot.ffaRecords v).length ≤ 16 := listRecords_length_le hwf.ffa v.guid _
    have h4 : (loot.conditionalRecords v).length ≤ 16 :=
      listRecords_length_le hwf.conditional v.guid _
    simp only [UInt8.toNat_ofNat', List.length_append]
    omega

theorem part_of_mem (proto : ℕ → Option ItemTemplate) (v : Viewer) (hwf : loot.WellFormed) (r : Record) :
    (r ∈ loot.plainRecords proto v → r.part = 0) ∧ (r ∈ loot.questRecords v → r.part = 1) ∧
      (r ∈ loot.ffaRecords v → r.part = 2) ∧ (r ∈ loot.conditionalRecords v → r.part = 3) := by
  refine ⟨fun hr => ?_, fun hr => ?_, fun hr => ?_, fun hr => ?_⟩
  · obtain ⟨i, item, t, -, -, hffa, hcond, -, -, rfl⟩ := (mem_plainRecords hwf).mp hr
    simp [Record.part, hffa, hcond]
  · obtain ⟨pos, q, item, -, -, -, -, rfl⟩ := (mem_questRecords hwf).mp hr
    rfl
  · obtain ⟨q, hq, item, hitem, -, -, rfl⟩ := (mem_listRecords hwf).mp hr
    simp [Record.part, (entry_of_ffa_list hwf hq hitem).1]
  · obtain ⟨q, hq, item, hitem, -, -, rfl⟩ := (mem_listRecords hwf).mp hr
    obtain ⟨hffa, hcond⟩ := (entry_of_conditional_list hwf hq hitem).1
    rw [Record.part]
    simp only [hffa, hcond, Bool.false_eq_true, if_false]

theorem plainRecords_slots (hwf : loot.WellFormed) :
    ((loot.plainRecords proto v).map Record.slot).Nodup := by
  refine nodup_map_filterMap Prod.snd (fun x hx r hr => ?_) (nodup_zipIdx_snd loot.items 0)
  have hin : r ∈ loot.plainRecords proto v := List.mem_filterMap.mpr ⟨x, hx, hr⟩
  obtain ⟨i, item, t, hi, -, -, -, -, -, rfl⟩ := (mem_plainRecords hwf).mp hin
  obtain ⟨-, hr⟩ := Option.ite_none_right_eq_some.mp hr
  obtain ⟨t', -, hr⟩ := Option.map_eq_some_iff.mp hr
  exact (Place.item.inj (congrArg Record.place hr)).symm

theorem questRecords_slots (hwf : loot.WellFormed) :
    ((loot.questRecords v).map Record.slot).Nodup := by
  refine nodup_map_filterMap (fun x => loot.items.length + x.2) (fun x hx r hr => ?_) ?_
  · obtain ⟨item, -, hr⟩ := Option.bind_eq_some_iff.mp hr
    obtain ⟨-, hr⟩ := Option.ite_none_right_eq_some.mp hr
    have h1 := (List.getElem?_eq_some_iff.mp (List.mk_mem_zipIdx_iff_getElem?.mp hx)).1
    have h2 := hwf.itemsSize
    have h3 := (listing_listOf hwf.quest v.guid).2.1
    simp only [MAX_NR_LOOT_ITEMS] at h2 h3
    rw [← Option.some.inj hr]
    show (loot.items.length + x.2) % 256 = loot.items.length + x.2
    omega
  · have hmap : (loot.playerQuestItems.listOf v.guid).zipIdx.map
        (fun x => loot.items.length + x.2) =
          ((loot.playerQuestItems.listOf v.guid).zipIdx.map Prod.snd).map
            (loot.items.length + ·) := by rw [List.map_map]; rfl
    rw [hmap]
    exact List.Nodup.map (fun _ _ h => Nat.add_left_cancel h)
      (by rw [List.zipIdx_map_snd]; exact List.nodup_range')

theorem listRecords_slots (hwf : loot.WellFormed) {l : List QuestItem}
    (hn : (l.map QuestItem.index).Nodup) (type : LootItem → LootSlotType) :
    ((loot.listRecords l type).map Record.slot).Nodup := by
  refine nodup_map_filterMap QuestItem.index (fun q hq r hr => ?_) hn
  have hin : r ∈ loot.listRecords l type := List.mem_filterMap.mpr ⟨q, hq, hr⟩
  obtain ⟨q', -, item, -, -, -, rfl⟩ := (mem_listRecords hwf).mp hin
  obtain ⟨item', -, hr⟩ := Option.bind_eq_some_iff.mp hr
  obtain ⟨-, hr⟩ := Option.ite_none_right_eq_some.mp hr
  exact (Place.item.inj (congrArg Record.place (Option.some.inj hr))).symm

theorem view_slots_nodup (hwf : loot.WellFormed) :
    ((loot.view proto v).records.map Record.slot).Nodup := by
  by_cases hperm : v.permission = .none
  · rw [view, if_pos hperm]
    exact List.nodup_nil
  have hmem := fun r => mem_view_records proto loot v r
  have hsep : ∀ rs rs' : List Record, (∀ r ∈ rs, r ∈ (loot.view proto v).records) →
      (∀ r ∈ rs', r ∈ (loot.view proto v).records) → (∀ r ∈ rs, ∀ r' ∈ rs', r.part ≠ r'.part) →
      (rs.map Record.slot).Disjoint (rs'.map Record.slot) := by
    intro rs rs' hin hin' hpart s hs hs'
    obtain ⟨r, hr, hslot⟩ := List.mem_map.mp hs
    obtain ⟨r', hr', hslot'⟩ := List.mem_map.mp hs'
    obtain ⟨own, hres, -⟩ := resolves_of_record hwf (hin r hr)
    obtain ⟨own', hres', -⟩ := resolves_of_record hwf (hin' r' hr')
    rw [hslot] at hres
    rw [hslot'] at hres'
    have heq := hres.unique hres'
    refine hpart r hr r' hr' ?_
    rw [Record.part, Record.part, show r.place = r'.place from congrArg Found.place heq,
      show r.item = r'.item from congrArg Found.item heq]
  have hpart := fun r => part_of_mem proto v hwf r
  have h1 : ((loot.plainRecords proto v ++ loot.questRecords v).map Record.slot).Nodup := by
    rw [List.map_append]
    refine (plainRecords_slots hwf).append (questRecords_slots hwf) (hsep _ _ ?_ ?_ ?_)
    · exact fun r hr => (hmem r).mpr ⟨hperm, .inl hr⟩
    · exact fun r hr => (hmem r).mpr ⟨hperm, .inr (.inl hr)⟩
    · intro r hr r' hr'
      rw [(hpart r).1 hr, (hpart r').2.1 hr']
      decide
  have h2 : ((loot.plainRecords proto v ++ loot.questRecords v ++ loot.ffaRecords v).map
      Record.slot).Nodup := by
    rw [List.map_append]
    refine h1.append (listRecords_slots hwf (listing_listOf hwf.ffa v.guid).1 _) (hsep _ _ ?_ ?_ ?_)
    · intro r hr
      rcases List.mem_append.mp hr with hr | hr
      · exact (hmem r).mpr ⟨hperm, .inl hr⟩
      · exact (hmem r).mpr ⟨hperm, .inr (.inl hr)⟩
    · exact fun r hr => (hmem r).mpr ⟨hperm, .inr (.inr (.inl hr))⟩
    · intro r hr r' hr'
      rw [(hpart r').2.2.1 hr']
      rcases List.mem_append.mp hr with hr | hr
      · rw [(hpart r).1 hr]
        decide
      · rw [(hpart r).2.1 hr]
        decide
  rw [view, if_neg hperm, List.map_append]
  refine h2.append (listRecords_slots hwf (listing_listOf hwf.conditional v.guid).1 _)
    (hsep _ _ ?_ ?_ ?_)
  · intro r hr
    rcases List.mem_append.mp hr with hr | hr
    · rcases List.mem_append.mp hr with hr | hr
      · exact (hmem r).mpr ⟨hperm, .inl hr⟩
      · exact (hmem r).mpr ⟨hperm, .inr (.inl hr)⟩
    · exact (hmem r).mpr ⟨hperm, .inr (.inr (.inl hr))⟩
  · exact fun r hr => (hmem r).mpr ⟨hperm, .inr (.inr (.inr hr))⟩
  · intro r hr r' hr'
    rw [(hpart r').2.2.2 hr']
    rcases List.mem_append.mp hr with hr | hr
    · rcases List.mem_append.mp hr with hr | hr
      · rw [(hpart r).1 hr]
        decide
      · rw [(hpart r).2.1 hr]
        decide
    · rw [(hpart r).2.2.1 hr]
      decide

theorem offers_of_record (hwf : loot.WellFormed) {r : Record}
    (hr : r ∈ (loot.view proto v).records) : ∃ own,
    loot.Resolves v.guid r.slot ⟨r.place, r.item, own⟩ ∧
      (r.slotType.takes = true ↔ loot.Offers proto v ⟨r.place, r.item, own⟩) := by
  obtain ⟨hperm, hr⟩ := (mem_view_records proto loot v r).mp hr
  rcases hr with hr | hr | hr | hr
  · obtain ⟨i, item, t, hi, hloot, hffa, hcond, hallow, ht, rfl⟩ := (mem_plainRecords hwf).mp hr
    refine ⟨none, .plain hi hffa hcond hloot, ?_⟩
    have htype := v.plainType_takes loot item
    rw [ht] at htype
    simp [Offers, hloot, hffa, hcond, hallow, ← htype]
  · obtain ⟨pos, q, item, hpos, hitem, hq, hloot, rfl⟩ := (mem_questRecords hwf).mp hr
    refine ⟨_, .quest rfl hpos hq hitem, ?_⟩
    simp [Offers, hloot, ← v.listType_takes hperm]
  · obtain ⟨q, hq, item, hitem, hfree, hloot, rfl⟩ := (mem_listRecords hwf).mp hr
    obtain ⟨hffa, pos, hown⟩ := entry_of_ffa_list hwf hq hitem
    refine ⟨_, .ffa hitem hffa hown hfree, ?_⟩
    simp [Offers, hloot, hperm, LootSlotType.takes]
  · obtain ⟨q, hq, item, hitem, hfree, hloot, rfl⟩ := (mem_listRecords hwf).mp hr
    obtain ⟨⟨hffa, hcond⟩, pos, hown⟩ := entry_of_conditional_list hwf hq hitem
    refine ⟨_, .conditional hitem hffa hcond hown hfree, ?_⟩
    simp [Offers, hloot, ← v.listType_takes hperm]

variable {item : LootItem}

theorem Viewer.permission_of_offersListed {v : Viewer} (h : v.offersListed item) : v.permission ≠ .none := by
  intro hp
  rw [Viewer.offersListed, hp] at h
  exact h

theorem record_of_offers (hwf : loot.WellFormed) {slot : ℕ} {f : Found}
    (hres : loot.Resolves v.guid slot f) (h : loot.Offers proto v f) :
    ∃ r ∈ (loot.view proto v).records, r.slot = slot ∧ r.place = f.place ∧ r.slotType.takes = true := by
  obtain ⟨hloot, h⟩ := h
  cases hres with
  | @quest pos q item hslot hown hfree hitem =>
    have hperm := Viewer.permission_of_offersListed h
    exact ⟨_, (mem_view_records proto loot v _).mpr ⟨hperm, .inr (.inl ((mem_questRecords hwf).mpr
      ⟨pos, q, item, hown, hitem, hfree, hloot, rfl⟩))⟩, hslot.symm, rfl,
      (v.listType_takes hperm item).mpr h⟩
  | @ffa pos q item hitem hffa hown hfree =>
    obtain ⟨hpos, rfl⟩ := ownEntry_eq_some hown
    exact ⟨_, (mem_view_records proto loot v _).mpr ⟨h, .inr (.inr (.inl ((mem_listRecords hwf).mpr
      ⟨q, List.mem_of_getElem? hpos, item, hitem, hfree, hloot, rfl⟩)))⟩, rfl, rfl, rfl⟩
  | @ffaUnlisted item hitem hffa hown hfree => exact absurd (hffa.symm.trans h.1) (by simp)
  | @conditional pos q item hitem hffa hcond hown hfree =>
    have hperm := Viewer.permission_of_offersListed h
    obtain ⟨hpos, rfl⟩ := ownEntry_eq_some hown
    exact ⟨_, (mem_view_records proto loot v _).mpr ⟨hperm, .inr (.inr (.inr ((mem_listRecords hwf).mpr
      ⟨q, List.mem_of_getElem? hpos, item, hitem, hfree, hloot, rfl⟩)))⟩, rfl, rfl,
      (v.listType_takes hperm item).mpr h⟩
  | @conditionalUnlisted item hitem hffa hcond hown hfree =>
    exact absurd (hcond.symm.trans h.2.1) (by simp)
  | @plain item hitem hffa hcond hfree =>
    obtain ⟨-, -, hallow, hoffer⟩ := h
    obtain ⟨t, ht, htakes⟩ := (v.plainType_takes loot item).mpr hoffer
    have hperm : v.permission ≠ .none := by
      intro hp
      rw [Viewer.offersPlain, hp] at hoffer
      exact hoffer
    exact ⟨_, (mem_view_records proto loot v _).mpr ⟨hperm, .inl ((mem_plainRecords hwf).mpr
      ⟨slot, item, t, hitem, hloot, hffa, hcond, hallow, ht, rfl⟩)⟩, rfl, rfl, htakes⟩

theorem grant_of_resolves (proto : ℕ → Option ItemTemplate) {slot guid : ℕ} (a : Answers) {f : Found}
    (hres : loot.Resolves guid slot f) :
    loot.grant proto guid a slot = if admits proto guid a f then some f else none := by
  rw [grant, found_of_resolves hres]
  by_cases hallow : f.item.allowedForPlayer proto a = true
  · rw [if_neg (by simp [hallow]), Option.filter_some]
  · have hno : admits proto guid a f = false := by simp [admits, hallow]
    have hfilter : ∀ b : Bool, (if b = true then none else some f).filter (admits proto guid a) = none := by
      intro b
      cases b <;> simp [Option.filter, hno]
    rw [hfilter, hno]
    rfl

theorem agrees_iff_slots (hwf : loot.WellFormed) : loot.Agrees proto v ↔
    ∀ slot f, loot.Resolves v.guid slot f →
      (loot.Offers proto v f → admits proto v.guid v.answers f = true) ∧
      (admits proto v.guid v.answers f = true → v.answers.hasRoomFor f.item →
        loot.Offers proto v f) := by
  constructor
  · intro h slot f hres
    have hgrant := grant_of_resolves proto v.answers hres
    constructor
    · intro hoffer
      obtain ⟨r, hr, rfl, -, htakes⟩ := record_of_offers hwf hres hoffer
      obtain ⟨own, hsome⟩ := h.granted r hr htakes
      by_contra hno
      rw [hgrant, if_neg hno] at hsome
      cases hsome
    · intro hadm hroom
      rw [if_pos hadm] at hgrant
      have hstore : (loot.storeLootItem proto v.guid v.answers slot).taken =
          loot.taken ++ [⟨f.place, v.guid, f.item.freeforall⟩] := by
        simp only [storeLootItem, hgrant, if_pos hroom.1, handOver, if_neg hroom.2, taken_take]
      obtain ⟨r, hr, rfl, -, htakes⟩ := h.shown slot _ hstore
      obtain ⟨own, hres', hiff⟩ := offers_of_record hwf hr
      rw [hres.unique hres']
      exact hiff.mp htakes
  · intro h
    refine ⟨?_, ?_, view_count hwf, view_slots_nodup hwf⟩
    · intro r hr htakes
      obtain ⟨own, hres, hiff⟩ := offers_of_record hwf hr
      refine ⟨own, ?_⟩
      rw [grant_of_resolves proto v.answers hres, if_pos ((h _ _ hres).1 (hiff.mp htakes))]
    · intro slot taken hstore
      rw [storeLootItem] at hstore
      cases hgrant : loot.grant proto v.guid v.answers slot with
      | none => simp [hgrant] at hstore
      | some f =>
        obtain ⟨hres, hadm⟩ := resolves_of_grant hgrant
        simp only [hgrant] at hstore
        split at hstore
        · rename_i hroom
          simp only [handOver, taken_take] at hstore
          split at hstore
          · simp at hstore
          · rename_i hcount
            have heq := List.append_cancel_left hstore
            rw [← (List.cons.inj heq).1]
            exact record_of_offers hwf hres ((h slot f hres).2 hadm ⟨hroom, hcount⟩)
        · simp at hstore

variable {a : Answers}

theorem admits_unlisted {guid : ℕ} {p : Place} :
    admits proto guid a ⟨p, item, none⟩ = true ↔ masterOnly guid a = false ∧
      item.allowedForPlayer proto a = true ∧ item.isBlocked = false ∧ ¬ item.wonByOther guid := by
  simp [admits, LootItem.wonByOther, and_assoc, or_iff_not_imp_left]

theorem admits_listed {guid : ℕ} {p : Place} {own : Own}
    (hown : ∀ pos, own ≠ .qitem pos) : admits proto guid a ⟨p, item, some own⟩ = true ↔
      item.allowedForPlayer proto a = true ∧ item.isBlocked = false ∧ ¬ item.wonByOther guid := by
  cases own with
  | qitem pos => exact absurd rfl (hown pos)
  | ffaitem pos => simp [admits, LootItem.wonByOther, and_assoc, or_iff_not_imp_left]
  | conditem pos => simp [admits, LootItem.wonByOther, and_assoc, or_iff_not_imp_left]

theorem admits_quest {guid : ℕ} {p : Place} {pos : ℕ} :
    admits proto guid a ⟨p, item, some (.qitem pos)⟩ = true ↔
      item.allowedForPlayer proto a = true ∧ ¬ item.wonByOther guid := by
  simp [admits, LootItem.wonByOther, or_iff_not_imp_left]

theorem agrees_ite {p q granted room refused : Prop} [Decidable p] [Decidable q]
    (hrefused : refused ↔ ¬(granted ∧ room)) :
    (if p ∧ q then granted else refused) ↔ (q ∧ p → granted) ∧ (granted → room → q ∧ p) := by
  rw [and_comm (a := q)]
  split <;> tauto

theorem refused_unlisted : (item.allowedForPlayer proto v.answers = false ∨ item.isBlocked = true ∨
      item.wonByOther v.guid ∨ masterOnly v.guid v.answers = true ∨ ¬ v.answers.hasRoomFor item) ↔
    ¬((masterOnly v.guid v.answers = false ∧ item.allowedForPlayer proto v.answers = true ∧
      item.isBlocked = false ∧ ¬ item.wonByOther v.guid) ∧ v.answers.hasRoomFor item) := by
  simp only [← Bool.not_eq_true]
  tauto

theorem refused_listed : (item.allowedForPlayer proto v.answers = false ∨ item.isBlocked = true ∨
      item.wonByOther v.guid ∨ ¬ v.answers.hasRoomFor item) ↔
    ¬((item.allowedForPlayer proto v.answers = true ∧ item.isBlocked = false ∧ ¬ item.wonByOther v.guid) ∧
      v.answers.hasRoomFor item) := by
  simp only [← Bool.not_eq_true]
  tauto

theorem refused_quest : (item.allowedForPlayer proto v.answers = false ∨ item.wonByOther v.guid ∨
      ¬ v.answers.hasRoomFor item) ↔
    ¬((item.allowedForPlayer proto v.answers = true ∧ ¬ item.wonByOther v.guid) ∧ v.answers.hasRoomFor item) := by
  simp only [← Bool.not_eq_true]
  tauto

abbrev Lists := { loot : Loot // loot.WellFormed }

theorem consistent_of_agrees (hwf : loot.WellFormed) (h : loot.Agrees proto v) :
    loot.Consistent proto v := by
  have hslots := (agrees_iff_slots hwf).mp h
  refine ⟨?_, ?_, ?_, ?_, ?_⟩
  · intro i item hitem hffa hcond hfree hallow
    obtain ⟨hto, hfrom⟩ := hslots i _ (.plain hitem hffa hcond hfree)
    rw [admits_unlisted] at hto hfrom
    split
    · rename_i hoffer
      obtain ⟨hm, -, hb, hw⟩ := hto ⟨hfree, hffa, hcond, hallow, hoffer⟩
      exact ⟨hb, hw, hm⟩
    · rename_i hoffer
      by_contra hno
      simp only [not_or, not_not, Bool.not_eq_true] at hno
      exact hoffer (hfrom ⟨hno.2.2.1, hallow, hno.1, hno.2.1⟩ hno.2.2.2).2.2.2.2
  · intro q hq item hitem hfree
    obtain ⟨⟨hffa, hcond⟩, pos, hown⟩ := entry_of_conditional_list hwf hq hitem
    have hslot := hslots q.index _ (.conditional hitem hffa hcond hown hfree)
    rw [admits_listed (by simp)] at hslot
    exact (agrees_ite refused_listed).mpr hslot
  · intro q hq item hitem hfree
    obtain ⟨pos, hpos⟩ := List.getElem?_of_mem hq
    have hslot := hslots _ _ (.quest rfl hpos hfree hitem)
    rw [admits_quest] at hslot
    exact (agrees_ite refused_quest).mpr hslot
  · intro q hq item hitem hfree
    obtain ⟨hffa, pos, hown⟩ := entry_of_ffa_list hwf hq hitem
    have hslot := hslots q.index _ (.ffa hitem hffa hown hfree)
    rw [admits_listed (by simp)] at hslot
    exact (agrees_ite refused_listed).mpr hslot
  · intro i item hitem hlist hfree
    have hres : loot.Resolves v.guid i ⟨.item i, item, none⟩ ∧
        ¬ loot.Offers proto v ⟨.item i, item, none⟩ := by
      cases hffa : item.freeforall with
      | true =>
        rw [hffa, if_pos rfl] at hlist
        exact ⟨.ffaUnlisted hitem hffa (ownEntry_eq_none.mpr hlist) hfree,
          fun ho => absurd (hffa.symm.trans ho.2.1) (by simp)⟩
      | false =>
        rw [hffa, if_neg (by simp)] at hlist
        exact ⟨.conditionalUnlisted hitem hffa hlist.1 (ownEntry_eq_none.mpr hlist.2) hfree,
          fun ho => absurd (hlist.1.symm.trans ho.2.2.1) (by simp)⟩
    exact refused_unlisted.mpr fun hno => hres.2 ((hslots i _ hres.1).2 (admits_unlisted.mpr hno.1) hno.2)

theorem agrees_of_consistent (hwf : loot.WellFormed) (h : loot.Consistent proto v) :
    loot.Agrees proto v := by
  refine (agrees_iff_slots hwf).mpr fun slot f hres => ?_
  cases hres with
  | @quest pos q item hslot hown hfree hitem =>
    rw [admits_quest]
    exact (agrees_ite refused_quest).mp (h.quest q (List.mem_of_getElem? hown) item hitem hfree)
  | @ffa pos q item hitem hffa hown hfree =>
    obtain ⟨hpos, rfl⟩ := ownEntry_eq_some hown
    rw [admits_listed (by simp)]
    exact (agrees_ite refused_listed).mp (h.ffa q (List.mem_of_getElem? hpos) item hitem hfree)
  | @conditional pos q item hitem hffa hcond hown hfree =>
    obtain ⟨hpos, rfl⟩ := ownEntry_eq_some hown
    rw [admits_listed (by simp)]
    exact (agrees_ite refused_listed).mp (h.conditional q (List.mem_of_getElem? hpos) item hitem hfree)
  | @ffaUnlisted item hitem hffa hown hfree =>
    have hc := h.unlisted slot item hitem (by rw [if_pos hffa]; exact ownEntry_eq_none.mp hown) hfree
    rw [admits_unlisted]
    exact ⟨fun ho => absurd (hffa.symm.trans ho.2.1) (by simp),
      fun hadm hroom => absurd ⟨hadm, hroom⟩ (refused_unlisted.mp hc)⟩
  | @conditionalUnlisted item hitem hffa hcond hown hfree =>
    have hc := h.unlisted slot item hitem
      (by rw [if_neg (by simp [hffa])]; exact ⟨hcond, ownEntry_eq_none.mp hown⟩) hfree
    rw [admits_unlisted]
    exact ⟨fun ho => absurd (hcond.symm.trans ho.2.2.1) (by simp),
      fun hadm hroom => absurd ⟨hadm, hroom⟩ (refused_unlisted.mp hc)⟩
  | @plain item hitem hffa hcond hfree =>
    rw [admits_unlisted]
    constructor
    · intro ho
      have hc := h.plain slot item hitem hffa hcond hfree ho.2.2.2.1
      rw [if_pos ho.2.2.2.2] at hc
      exact ⟨hc.2.2, ho.2.2.2.1, hc.1, hc.2.1⟩
    · intro hadm hroom
      have hc := h.plain slot item hitem hffa hcond hfree hadm.2.1
      by_contra hno
      rw [if_neg fun ho => hno ⟨hfree, hffa, hcond, hadm.2.1, ho⟩] at hc
      exact absurd ⟨hadm, hroom⟩ (refused_unlisted.mp (.inr (by tauto)))

/-- The window of any viewer agrees with what he may take exactly under the condition. -/
theorem window_agrees_iff (proto : ℕ → Option ItemTemplate) (loot : Lists) (v : Viewer) :
    loot.1.Agrees proto v ↔ loot.1.Consistent proto v :=
  ⟨consistent_of_agrees loot.2, agrees_of_consistent loot.2⟩

/-- Player 2 of a group takes the item that is reserved for the round robin looter, player 1. -/
theorem takes_reserved : ¬ ∀ proto (loot : Lists) v, loot.1.Agrees proto v := by
  intro hall
  have h := (hall ordinary
    ⟨((Loot.new 0).fillLoot ordinary (sampleFilling .groupLoot)), (WellFormed.new 0).fillLoot _⟩
    ⟨2, member .groupLoot, .group, by simp⟩).shown 0 ⟨.item 0, 2, false⟩ (by decide +kernel)
  obtain ⟨r, hr, hslot, -, htakes⟩ := h
  have hnone : ∀ r ∈ (((Loot.new 0).fillLoot ordinary (sampleFilling .groupLoot)).view ordinary
      ⟨2, member .groupLoot, .group, by simp⟩).records, r.slot = 0 → r.slotType.takes = false := by
    decide +kernel
  exact absurd (htakes.symm.trans (hnone r hr hslot)) (by decide)

end Loot

end HysteriaCore.Looting
