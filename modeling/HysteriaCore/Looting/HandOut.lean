import HysteriaCore.Looting.Accounting
import HysteriaCore.Looting.Rolls

/-!
# What was handed out

An entry that was handed out is marked: one for one player in its own flag, one for all in the
list of the player who took it, or in its own flag and its count when the master looter gave it.
Marks stay. Each way out of a loot is right about the entries whose marks it reads and sets.
-/

namespace HysteriaCore.Looting
open Lib

namespace LootItem

structure Keeps (item item' : LootItem) : Prop where
  freeforall : item'.freeforall = item.freeforall
  isLooted : item.isLooted = true → item'.isLooted = true
  count : item.count = 0 → item'.count = 0

theorem Keeps.refl (item : LootItem) : item.Keeps item := ⟨rfl, id, id⟩

theorem Keeps.trans {x y z : LootItem} (h : x.Keeps y) (h' : y.Keeps z) : x.Keeps z :=
  ⟨h'.freeforall.trans h.freeforall, h'.isLooted ∘ h.isLooted, h'.count ∘ h.count⟩

end LootItem

def Place.index : Place → ℕ
  | .item i => i
  | .quest i => i

variable {loot loot' : Loot}

namespace Loot

def ownList (loot : Loot) (guid : ℕ) : Place → List QuestItem
  | .item _ => loot.playerFFAItems.listOf guid
  | .quest _ => loot.playerQuestItems.listOf guid

def ownTaken (loot : Loot) (guid : ℕ) (p : Place) : Bool :=
  (loot.ownList guid p).any fun q => q.index = p.index && q.isLooted

structure Keeps (loot loot' : Loot) : Prop where
  entry : ∀ p item, loot.entry p = some item → ∃ item', loot'.entry p = some item' ∧ item.Keeps item'
  own : ∀ guid p, loot.ownTaken guid p = true → loot'.ownTaken guid p = true
  taken : loot'.taken = loot.taken

theorem Keeps.refl (loot : Loot) : loot.Keeps loot :=
  ⟨fun _ item h => ⟨item, h, .refl item⟩, fun _ _ h => h, rfl⟩

theorem Keeps.trans {x y z : Loot} (h : x.Keeps y) (h' : y.Keeps z) : x.Keeps z := by
  refine ⟨fun p item hitem => ?_, fun guid p hp => h'.own guid p (h.own guid p hp),
    h'.taken.trans h.taken⟩
  obtain ⟨item', hitem', hk⟩ := h.entry p item hitem
  obtain ⟨item'', hitem'', hk'⟩ := h'.entry p item' hitem'
  exact ⟨item'', hitem'', hk.trans hk'⟩

def Gone (loot : Loot) (t : Taken) : Prop :=
  ∃ item, loot.entry t.place = some item ∧ item.freeforall = t.freeforall ∧
    if t.freeforall then (item.isLooted = true ∧ item.count = 0) ∨ loot.ownTaken t.guid t.place = true
    else item.isLooted = true

theorem Gone.keep {t : Taken} (h : loot.Gone t) (hk : loot.Keeps loot') : loot'.Gone t := by
  obtain ⟨item, hitem, hffa, hmark⟩ := h
  obtain ⟨item', hitem', hkeep⟩ := hk.entry _ _ hitem
  refine ⟨item', hitem', hkeep.freeforall.trans hffa, ?_⟩
  by_cases hf : t.freeforall
  · rw [if_pos hf] at hmark ⊢
    rcases hmark with ⟨hloot, hcount⟩ | hown
    · exact .inl ⟨hkeep.isLooted hloot, hkeep.count hcount⟩
    · exact .inr (hk.own _ _ hown)
  · rw [if_neg hf] at hmark ⊢
    exact hkeep.isLooted hmark

end Loot

/-- Two entries of the log are not of one entry, or it is for all and they are of two players. -/
def Taken.Apart (x y : Taken) : Prop :=
  x.place = y.place → x.freeforall = true ∧ y.freeforall = true ∧ x.guid ≠ y.guid

namespace Loot

structure GivenOnce (loot : Loot) : Prop where
  wf : loot.WellFormed
  gone : ∀ t ∈ loot.taken, loot.Gone t
  once : loot.taken.Pairwise Taken.Apart

def Free (loot : Loot) (guid : ℕ) (p : Place) (item : LootItem) : Prop :=
  if item.freeforall then loot.ownTaken guid p = false else item.isLooted = false

instance (loot : Loot) (guid : ℕ) (p : Place) (item : LootItem) : Decidable (loot.Free guid p item) :=
  inferInstanceAs (Decidable (if item.freeforall then loot.ownTaken guid p = false
    else item.isLooted = false))

theorem GivenOnce.new (gold : ℕ) : (Loot.new gold).GivenOnce :=
  ⟨.new gold, fun _ ht => absurd ht List.not_mem_nil, .nil⟩

theorem GivenOnce.keep (h : loot.GivenOnce) (hwf : loot'.WellFormed) (hk : loot.Keeps loot') : loot'.GivenOnce := by
  refine ⟨hwf, fun t ht => ?_, ?_⟩
  · rw [hk.taken] at ht
    exact (h.gone t ht).keep hk
  · rw [hk.taken]
    exact h.once

theorem GivenOnce.handOver (h : loot.GivenOnce) (hwf : loot'.WellFormed)
    (hk : loot.Keeps loot') {guid : ℕ} {p : Place} {item : LootItem}
    (hitem : loot.entry p = some item) (hfree : item.count ≠ 0 → loot.Free guid p item)
    (hgone : item.count ≠ 0 → loot'.Gone ⟨p, guid, item.freeforall⟩) :
    (loot'.handOver p guid item).GivenOnce := by
  have hkept := h.keep hwf hk
  by_cases hcount : item.count = 0
  · have hsame : loot'.handOver p guid item = loot' := by
      rw [Loot.handOver, if_pos hcount]
    rw [hsame]
    exact hkept
  · have htaken : (loot'.handOver p guid item).taken =
        loot'.taken ++ [⟨p, guid, item.freeforall⟩] := if_neg hcount
    refine ⟨⟨hwf.itemsSize, hwf.questSize, hwf.quest, hwf.ffa, hwf.conditional⟩, fun t ht => ?_, ?_⟩
    · rw [htaken, List.mem_append, List.mem_singleton] at ht
      rcases ht with ht | rfl
      · exact hkept.gone t ht
      · exact hgone hcount
    · rw [htaken, List.pairwise_append]
      refine ⟨hkept.once, List.pairwise_singleton _ _, fun t ht t' ht' hplace => ?_⟩
      rw [List.mem_singleton.mp ht'] at hplace ⊢
      rw [hk.taken] at ht
      obtain ⟨item', hitem', hffa, hmark⟩ := h.gone t ht
      rw [hplace, hitem, Option.some.injEq] at hitem'
      subst hitem'
      have hfree := hfree hcount
      cases hf : item.freeforall with
      | true =>
        rw [Free, if_pos hf] at hfree
        rw [← hffa, if_pos hf] at hmark
        refine ⟨hffa.symm.trans hf, rfl, fun hguid => ?_⟩
        rcases hmark with ⟨-, hzero⟩ | hown
        · exact hcount hzero
        · rw [hplace, hguid, hfree] at hown
          cases hown
      | false =>
        rw [Free, hf, if_neg (by simp)] at hfree
        rw [← hffa, hf, if_neg (by simp), hfree] at hmark
        cases hmark

section Frames
variable {proto : ℕ → Option ItemTemplate} {loot : Loot}

theorem Keeps.of_entries {loot' : Loot} (f : Place → LootItem → LootItem)
    (hf : ∀ p (item : LootItem), item.Keeps (f p item)) (hentry : ∀ p, loot'.entry p = (loot.entry p).map (f p))
    (hown : ∀ guid p, loot.ownTaken guid p = true → loot'.ownTaken guid p = true)
    (htaken : loot'.taken = loot.taken) : loot.Keeps loot' := by
  refine ⟨fun p item hitem => ⟨f p item, ?_, hf p item⟩, hown, htaken⟩
  rw [hentry, hitem, Option.map_some]

variable {f : LootItem → LootItem}

theorem Keeps.edit (loot : Loot) (hmark : ∀ item : LootItem, item.Keeps (f item))
    (p : Place) : loot.Keeps (loot.edit f p) := by
  refine .of_entries (fun p' item => if p = p' then f item else item) (fun p' item => ?_)
    (fun p' => ?_) (fun guid p' h => ?_) ?_
  · split
    · exact hmark item
    · exact .refl item
  · rw [entry_edit]
    split
    · rfl
    · exact Option.map_id'.symm
  · cases p <;> exact h
  · cases p <;> rfl

theorem any_listOf_put {m : QuestItemMap} {guid : ℕ} (hnew : m.find? guid = none)
    (list : List QuestItem) (guid' : ℕ) (test : QuestItem → Bool)
    (h : (m.listOf guid').any test = true) :
    (QuestItemMap.listOf (m.put ⟨guid, list⟩) guid').any test = true := by
  have hne : guid ≠ guid' := by
    rintro rfl
    rw [QuestItemMap.listOf, hnew] at h
    cases h
  rw [QuestItemMap.listOf, KeyedList.find?_put, if_neg hne]
  exact h

theorem any_listOf_take (m : QuestItemMap) (guid pos guid' i : ℕ)
    (h : (m.listOf guid').any (fun q => q.index = i && q.isLooted) = true) :
    ((m.take guid pos).listOf guid').any (fun q => q.index = i && q.isLooted) = true := by
  rw [QuestItemMap.listOf] at h ⊢
  rw [QuestItemMap.take, KeyedList.find?_adjust]
  cases hrow : m.find? guid' with
  | none => simp [hrow] at h
  | some row =>
    rw [hrow] at h
    simp only [Option.map_some, Option.getD_some] at h ⊢
    split
    · obtain ⟨q, hq, htest⟩ := List.any_eq_true.mp h
      obtain ⟨j, hj⟩ := List.getElem?_of_mem hq
      have hmod : (row.list.modify pos ({ · with isLooted := true }))[j]? =
          some (if pos = j then { q with isLooted := true } else q) := by
        rw [List.getElem?_modify, hj]
        rfl
      refine List.any_eq_true.mpr ⟨_, List.mem_of_getElem? hmod, ?_⟩
      split
      · simp only [Bool.and_eq_true, and_true] at htest ⊢
        exact htest.1
      · exact htest
    · exact h

theorem Keeps.takeOwn (loot : Loot) (guid : ℕ) (own : Option Own) : loot.Keeps (loot.takeOwn guid own) := by
  refine .of_entries (fun _ => id) (fun _ item => .refl item) (fun p => ?_) (fun guid' p h => ?_) ?_
  · rw [entry_takeOwn, Option.map_id]
    rfl
  · rcases own with _ | own
    · exact h
    · cases own with
      | qitem pos =>
        cases p with
        | item i => exact h
        | quest i => exact any_listOf_take loot.playerQuestItems guid pos guid' i h
      | ffaitem pos =>
        cases p with
        | item i => exact any_listOf_take loot.playerFFAItems guid pos guid' i h
        | quest i => exact h
      | conditem pos => cases p <;> exact h
  · rcases own with _ | own
    · rfl
    · cases own <;> rfl

theorem keeps_markLooted (item : LootItem) : item.Keeps item.markLooted := ⟨rfl, fun _ => rfl, id⟩

theorem keeps_markGiven (item : LootItem) : item.Keeps (markGiven item) :=
  ⟨rfl, fun _ => rfl, fun _ => rfl⟩

theorem Keeps.take (loot : Loot) (guid : ℕ) (f : Found) : loot.Keeps (loot.take guid f) := by
  have hown := Keeps.takeOwn loot guid f.own
  have hall : loot.Keeps (if f.item.freeforall then loot.takeOwn guid f.own
      else (loot.takeOwn guid f.own).edit LootItem.markLooted f.place) := by
    split
    · exact hown
    · exact hown.trans (.edit _ keeps_markLooted f.place)
  exact ⟨hall.entry, hall.own, hall.taken⟩

theorem Keeps.giveAway (loot : Loot)
    (hmark : ∀ item : LootItem, item.Keeps (f item)) (p : Place) : loot.Keeps (loot.giveAway f p) := by
  have hedit := Keeps.edit loot hmark p
  exact ⟨hedit.entry, hedit.own, hedit.taken⟩

theorem Keeps.addStacks (p : ItemTemplate) (item : LootStoreItem) (n count : ℕ) :
    loot.Keeps (loot.addStacks proto p item n count) := by
  have happend : ∀ (l : List LootItem) x (i : ℕ) y, l[i]? = some y → (l ++ [x])[i]? = some y := by
    intro l x i y hy
    rw [List.getElem?_append_left (List.getElem?_eq_some_iff.mp hy).1]
    exact hy
  induction n generalizing loot count with
  | zero => exact .refl loot
  | succ n ih =>
    rw [Loot.addStacks]
    split
    · split
      · refine Keeps.trans ?_ (ih _)
        refine ⟨fun place x hx => ⟨x, ?_, .refl x⟩, fun _ p h => ?_, rfl⟩
        · cases place with
          | item i => exact hx
          | quest i => exact happend _ _ i x hx
        · cases p <;> exact h
      · exact .refl loot
    · split
      · refine Keeps.trans ?_ (ih _)
        refine ⟨fun place x hx => ⟨x, ?_, .refl x⟩, fun _ p h => ?_, rfl⟩
        · cases place with
          | item i => exact happend _ _ i x hx
          | quest i => exact hx
        · cases p <;> exact h
      · exact .refl loot

theorem Keeps.addItem (item : LootStoreItem) (count : ℕ) :
    loot.Keeps (loot.addItem proto item count) := by
  rw [Loot.addItem]
  cases proto item.itemid with
  | none => exact .refl loot
  | some p => exact .addStacks p item _ count

theorem Keeps.process (drops : List (LootStoreItem × ℕ)) : loot.Keeps (loot.process proto drops) :=
  foldl_invariant (I := fun l => loot.Keeps l) (fun _ drop h => h.trans (.addItem drop.1 drop.2)) drops
    (.refl loot)

theorem Keeps.fillFFALootOnce (guid : ℕ) (a : Answers) :
    loot.Keeps (loot.fillFFALootOnce proto guid a) := by
  rw [Loot.fillFFALootOnce]
  split
  · exact .refl loot
  · rename_i hnew
    rw [Loot.fillFFALoot]
    split
    · exact .refl loot
    · refine ⟨fun p item hitem => ⟨item, ?_, .refl item⟩, fun guid' p h => ?_, rfl⟩
      · cases p <;> exact hitem
      · cases p with
        | item i => exact any_listOf_put (by simpa using hnew) _ guid' _ h
        | quest i => exact h

theorem keeps_markPicked {m : LootItem → LootItem} (hmark : ∀ item : LootItem, item.Keeps (m item))
    (l : List (LootItem × ℕ)) (items : List LootItem) (i : ℕ) (item : LootItem)
    (h : items[i]? = some item) : ∃ item', (markPicked l m items)[i]? = some item' ∧
      item.Keeps item' := by
  refine ⟨if (item, i) ∈ l then m item else item, ?_, ?_⟩
  · rw [markPicked_getElem?, h, Option.map_some]
  · split
    · exact hmark item
    · exact .refl item

theorem Keeps.fillConditionalLootOnce (guid : ℕ) (a : Answers) :
    loot.Keeps (loot.fillConditionalLootOnce proto guid a) := by
  rw [Loot.fillConditionalLootOnce]
  split
  · exact .refl loot
  · rw [Loot.fillConditionalLoot]
    split
    · exact .refl loot
    · refine ⟨fun p item hitem => ?_, fun guid' p h => ?_, rfl⟩
      · cases p with
        | item i =>
          exact keeps_markPicked (m := LootItem.markCounted) (fun _ => ⟨rfl, id, id⟩) _ _ i item hitem
        | quest i => exact ⟨item, hitem, .refl item⟩
      · cases p <;> exact h

theorem Keeps.fillQuestLootOnce (guid : ℕ) (a : Answers) :
    loot.Keeps (loot.fillQuestLootOnce proto guid a) := by
  rw [Loot.fillQuestLootOnce]
  split
  · exact .refl loot
  · rename_i hnew
    rw [Loot.fillQuestLoot]
    split
    · exact .refl loot
    · refine ⟨fun p item hitem => ?_, fun guid' p h => ?_, rfl⟩
      · cases p with
        | item i => exact ⟨item, hitem, .refl item⟩
        | quest i =>
          by_cases hb : blocksQuestItems a
          · simp only [Loot.entry, if_pos hb]
            exact keeps_markPicked (m := LootItem.markBlocked) (fun _ => ⟨rfl, id, id⟩) _ _ i item
              hitem
          · simp only [Loot.entry, if_neg hb]
            exact ⟨item, hitem, .refl item⟩
      · cases p with
        | item i => exact h
        | quest i => exact any_listOf_put (by simpa using hnew) _ guid' _ h

theorem Keeps.fillLists (guid : ℕ) (a : Answers) : loot.Keeps (loot.fillLists proto guid a) :=
  ((Keeps.fillQuestLootOnce guid a).trans (.fillFFALootOnce guid a)).trans
    (.fillConditionalLootOnce guid a)

theorem Keeps.of_map {loot' : Loot} {f g : LootItem → LootItem} (hf : ∀ item : LootItem, item.Keeps (f item))
    (hg : ∀ item : LootItem, item.Keeps (g item)) (hitems : loot'.items = loot.items.map f)
    (hquest : loot'.questItems = loot.questItems.map g)
    (hlists : loot'.playerQuestItems = loot.playerQuestItems ∧
      loot'.playerFFAItems = loot.playerFFAItems) (htaken : loot'.taken = loot.taken) :
    loot.Keeps loot' := by
  refine .of_entries (fun p => match p with | .item _ => f | .quest _ => g) (fun p item => ?_)
    (fun p => ?_) (fun guid p h => ?_) htaken
  · cases p with
    | item i => exact hf item
    | quest i => exact hg item
  · cases p with
    | item i => exact (congrArg (·[i]?) hitems).trans List.getElem?_map
    | quest i => exact (congrArg (·[i]?) hquest).trans List.getElem?_map
  · cases p with
    | item i => exact (congrArg (fun m => (QuestItemMap.listOf m guid).any _) hlists.2).trans h
    | quest i => exact (congrArg (fun m => (QuestItemMap.listOf m guid).any _) hlists.1).trans h

theorem Keeps.markUnderthreshold (lootThreshold : ℕ) :
    loot.Keeps (loot.markUnderthreshold proto lootThreshold) := by
  refine .of_map (g := id) (fun item => ?_) (fun item => .refl item) rfl (List.map_id _).symm
    ⟨rfl, rfl⟩ rfl
  split
  · exact ⟨rfl, id, id⟩
  · exact .refl item

theorem Keeps.masterLoot (loot : Loot) : loot.Keeps loot.masterLoot := by
  refine .of_map (fun item => ?_) (fun item => ?_) rfl rfl ⟨rfl, rfl⟩ rfl
  · split
    · exact .refl item
    · exact ⟨rfl, id, id⟩
  · split
    · exact ⟨rfl, id, id⟩
    · exact .refl item

theorem WellFormed.masterLoot (h : loot.WellFormed) : loot.masterLoot.WellFormed := by
  refine ⟨by simpa [Loot.masterLoot] using h.itemsSize, by simpa [Loot.masterLoot] using h.questSize,
    h.quest.of_map _ (fun i => List.getElem?_map ..) (fun _ _ => rfl),
    h.ffa.of_map _ (fun i => List.getElem?_map ..) (fun _ item => ?_),
    h.conditional.of_map _ (fun i => List.getElem?_map ..) (fun _ item => ?_)⟩
  · split <;> rfl
  · split <;> rfl

theorem WellFormed.giveAway (h : loot.WellFormed)
    (hffa : ∀ item, (f item).freeforall = item.freeforall)
    (hcond : ∀ item, (f item).conditions = item.conditions) (p : Place) :
    (loot.giveAway f p).WellFormed := by
  have hedit := h.edit hffa hcond p
  exact ⟨hedit.itemsSize, hedit.questSize, hedit.quest, hedit.ffa, hedit.conditional⟩

end Frames

section Ways
variable {proto : ℕ → Option ItemTemplate} {loot : Loot}

def StoresFresh (proto : ℕ → Option ItemTemplate) (loot : Loot) (guid : ℕ) (a : Answers)
    (slot : ℕ) : Prop :=
  ∀ f ∈ loot.grant proto guid a slot,
    a.canStoreNewItem f.item.itemid f.item.count = EQUIP_ERR_OK → f.item.count ≠ 0 →
      if f.item.freeforall then f.own.isSome = true else f.item.isLooted = false

def AwardOk (loot : Loot) (r : Roll) (guid : ℕ) (e : Evaluation) : Prop :=
  ∀ item ∈ loot.entry (loot.placeOf r.itemSlot),
    e.canStoreNewItem guid r.itemid item.count = EQUIP_ERR_OK → item.count ≠ 0 →
      item.freeforall = false ∧ item.isLooted = false

def GiveOk (proto : ℕ → Option ItemTemplate) (loot : Loot) (target : ℕ) (a : Answers)
    (slotid : ℕ) : Prop :=
  ∀ item ∈ loot.entry (loot.placeOf slotid),
    (item.followLootRules = false ∨ item.allowedForPlayer proto a = true) →
    a.canStoreNewItem item.itemid item.count = EQUIP_ERR_OK → item.count ≠ 0 →
      loot.Free target (loot.placeOf slotid) item

theorem any_taken_eq_false {list : List QuestItem} (hdistinct : (list.map QuestItem.index).Nodup)
    {q : QuestItem} (hq : q ∈ list) (hfree : q.isLooted = false) :
    list.any (fun q' => q'.index = q.index && q'.isLooted) = false := by
  rw [List.any_eq_false]
  intro q' hq' htest
  simp only [Bool.and_eq_true, decide_eq_true_eq] at htest
  rw [List.inj_on_of_nodup_map hdistinct hq' hq htest.1, hfree] at htest
  exact absurd htest.2 (by simp)

theorem any_taken_take {m : QuestItemMap} {guid pos : ℕ} {q : QuestItem}
    (hq : (m.listOf guid)[pos]? = some q) :
    ((m.take guid pos).listOf guid).any (fun q' => q'.index = q.index && q'.isLooted) = true := by
  rw [QuestItemMap.listOf] at hq ⊢
  rw [QuestItemMap.take, KeyedList.find?_adjust]
  cases hrow : m.find? guid with
  | none => simp [hrow] at hq
  | some row =>
    rw [hrow] at hq
    simp only [Option.map_some, Option.getD_some, if_true] at hq ⊢
    have hmod : (row.list.modify pos ({ · with isLooted := true }))[pos]? =
        some { q with isLooted := true } := by
      rw [List.getElem?_modify, hq]
      simp
    exact List.any_eq_true.mpr ⟨_, List.mem_of_getElem? hmod, by simp⟩

theorem ownTaken_takeOwn (loot : Loot) (guid : ℕ) (f : Found) (p : Place) :
    (loot.take guid f).ownTaken guid p = (loot.takeOwn guid f.own).ownTaken guid p := by
  rw [take]
  cases f.item.freeforall <;> cases f.place <;> cases p <;> rfl

variable {guid slot : ℕ}

theorem ownTaken_take_self {f : Found} (hres : loot.Resolves guid slot f)
    (hffa : f.item.freeforall = true) (hlisted : f.own.isSome = true) :
    (loot.take guid f).ownTaken guid f.place = true := by
  rw [ownTaken_takeOwn]
  cases hres with
  | @quest pos q item hslot hown hfree hitem => exact any_taken_take hown
  | @ffa pos q item hitem _ hown hfree =>
    obtain ⟨hpos, hidx⟩ := ownEntry_eq_some hown
    have htaken := any_taken_take hpos
    rw [hidx] at htaken
    exact htaken
  | ffaUnlisted => cases hlisted
  | conditional _ hno => exact absurd (hno.symm.trans hffa) (by simp)
  | conditionalUnlisted _ hno => exact absurd (hno.symm.trans hffa) (by simp)
  | plain _ hno => exact absurd (hno.symm.trans hffa) (by simp)

theorem free_of_resolves (hwf : loot.WellFormed) {f : Found}
    (hres : loot.Resolves guid slot f)
    (hfresh : if f.item.freeforall then f.own.isSome = true else f.item.isLooted = false) :
    loot.entry f.place = some f.item ∧ loot.Free guid f.place f.item ∧
      (loot.take guid f).Gone ⟨f.place, guid, f.item.freeforall⟩ := by
  have hplain : f.item.freeforall = false → loot.entry f.place = some f.item →
      loot.Free guid f.place f.item ∧ (loot.take guid f).Gone ⟨f.place, guid, f.item.freeforall⟩ := by
    intro hffa hitem
    rw [hffa, if_neg (by simp)] at hfresh
    refine ⟨by rw [Free, hffa, if_neg (by simp)]; exact hfresh, f.item.markLooted, ?_, rfl, ?_⟩
    · rw [entry_take, if_pos ⟨rfl, hffa⟩, hitem, Option.map_some]
    · rw [if_neg (by simp [hffa])]
      rfl
  have hlisted : ∀ own : List QuestItem, own = loot.ownList guid f.place →
      (own.map QuestItem.index).Nodup → ∀ q ∈ own, q.index = f.place.index → q.isLooted = false →
      f.item.freeforall = true → loot.entry f.place = some f.item →
      (loot.take guid f).ownTaken guid f.place = true →
      loot.Free guid f.place f.item ∧ (loot.take guid f).Gone ⟨f.place, guid, f.item.freeforall⟩ := by
    rintro own rfl hdistinct q hq hidx hfree hffa hitem htaken
    refine ⟨?_, f.item, ?_, rfl, ?_⟩
    · rw [Free, if_pos hffa, ownTaken, ← hidx]
      exact any_taken_eq_false hdistinct hq hfree
    · rw [entry_take, if_neg (by simp [hffa])]
      exact hitem
    · rw [if_pos hffa]
      exact .inr htaken
  cases hres with
  | @quest pos q item hslot hown hfree hitem =>
    refine ⟨hitem, ?_⟩
    cases hffa : item.freeforall with
    | false => exact hffa ▸ hplain hffa hitem
    | true =>
      have htake := ownTaken_take_self (.quest hslot hown hfree hitem) hffa rfl
      exact hffa ▸ hlisted _ rfl (listing_listOf hwf.quest guid).1 q (List.mem_of_getElem? hown) rfl hfree
        hffa hitem htake
  | @ffa pos q item hitem hffa hown hfree =>
    obtain ⟨hpos, hidx⟩ := ownEntry_eq_some hown
    have htake := ownTaken_take_self (.ffa hitem hffa hown hfree) hffa rfl
    exact ⟨hitem, hlisted _ rfl (listing_listOf hwf.ffa guid).1 q (List.mem_of_getElem? hpos) hidx hfree
      hffa hitem htake⟩
  | @ffaUnlisted item hitem hffa hown hfree =>
    rw [if_pos hffa] at hfresh
    cases hfresh
  | @conditional pos q item hitem hffa hcond hown hfree => exact ⟨hitem, hplain hffa hitem⟩
  | @conditionalUnlisted item hitem hffa hcond hown hfree => exact ⟨hitem, hplain hffa hitem⟩
  | @plain item hitem hffa hcond hfree => exact ⟨hitem, hplain hffa hitem⟩

theorem entry_of_resolves {f : Found} (hres : loot.Resolves guid slot f) : loot.entry f.place = some f.item := by
  cases hres with
  | quest _ _ _ hitem => exact hitem
  | ffa hitem | ffaUnlisted hitem | conditional hitem | conditionalUnlisted hitem | plain hitem =>
    exact hitem

theorem GivenOnce.storeLootItem (h : loot.GivenOnce) {a : Answers}
    (hok : loot.StoresFresh proto guid a slot) : (loot.storeLootItem proto guid a slot).GivenOnce := by
  rw [Loot.storeLootItem]
  cases hgrant : loot.grant proto guid a slot with
  | none => exact h
  | some f =>
    dsimp only
    split
    · rename_i hroom
      have hres := (resolves_of_grant hgrant).1
      have hfree := fun hcount => free_of_resolves h.wf hres (hok f hgrant hroom hcount)
      exact h.handOver (h.wf.take guid f) (.take loot guid f) (entry_of_resolves hres)
        (fun hcount => (hfree hcount).2.1) fun hcount => (hfree hcount).2.2
    · exact h

theorem GivenOnce.award (h : loot.GivenOnce) {r : Roll} {guid : ℕ} {e : Evaluation}
    (hok : loot.AwardOk r guid e) : (loot.award r guid e).GivenOnce := by
  rw [Loot.award]
  cases hitem : loot.entry (loot.placeOf r.itemSlot) with
  | none => exact h
  | some item =>
    dsimp only
    split
    · rename_i hroom
      have hfree := hok item hitem hroom
      refine h.handOver (h.wf.giveAway (f := LootItem.markLooted) (fun _ => rfl) (fun _ => rfl) _)
        (.giveAway loot keeps_markLooted _) hitem (fun hcount => ?_) fun hcount => ?_
      · rw [Free, (hfree hcount).1, if_neg (by simp)]
        exact (hfree hcount).2
      · refine ⟨item.markLooted, ?_, rfl, ?_⟩
        · show (loot.edit LootItem.markLooted (loot.placeOf r.itemSlot)).entry _ = _
          rw [entry_edit, if_pos rfl, hitem, Option.map_some]
        · rw [if_neg (by simp [(hfree hcount).1])]
          rfl
    · exact h.keep (h.wf.edit (f := markReserved guid) (fun _ => rfl) (fun _ => rfl) _)
        (.edit loot (f := markReserved guid) (fun _ => ⟨rfl, id, id⟩) _)

theorem GivenOnce.masterGive (h : loot.GivenOnce) {target slotid : ℕ} {a : Answers}
    (hok : loot.GiveOk proto target a slotid) : (loot.masterGive proto target a slotid).GivenOnce := by
  rw [Loot.masterGive]
  split
  · exact h
  · dsimp only
    cases hitem : loot.entry (loot.placeOf slotid) with
    | none => exact h
    | some item =>
      dsimp only
      by_cases hrules : (item.followLootRules && !item.allowedForPlayer proto a) = true
      · rw [if_pos hrules, if_neg (by decide)]
        exact h
      · rw [if_neg hrules]
        split
        · rename_i hroom
          have hallow : item.followLootRules = false ∨ item.allowedForPlayer proto a = true := by
            cases hf : item.followLootRules <;> simp [hf] at hrules ⊢
            exact hrules
          refine h.handOver (h.wf.giveAway (f := markGiven) (fun _ => rfl) (fun _ => rfl) _)
            (.giveAway loot keeps_markGiven _) hitem
            (hok item hitem hallow hroom) fun _ => ?_
          refine ⟨markGiven item, ?_, rfl, ?_⟩
          · show (loot.edit markGiven (loot.placeOf slotid)).entry _ = _
            rw [entry_edit, if_pos rfl, hitem, Option.map_some]
          · split
            · exact .inl ⟨rfl, rfl⟩
            · rfl
        · exact h

theorem GivenOnce.fillNotNormalLootFor (h : loot.GivenOnce) {v : Visitor}
    (hok : TokensOk proto (StoresFresh proto) loot v) :
    (loot.fillNotNormalLootFor proto v).GivenOnce := by
  have hlists : (loot.fillLists proto v.guid (v.answers 0)).GivenOnce :=
    h.keep (h.wf.fillLists v.guid _) (.fillLists v.guid _)
  rw [Loot.fillNotNormalLootFor]
  split
  · rename_i hpresent
    refine along.invariant (fun loot i (h : loot.GivenOnce) hok => ?_) hlists (hok hpresent)
    rw [Loot.storeCurrency]
    split
    · rename_i hc
      exact h.storeLootItem (hok hc)
    · exact h
  · exact hlists

theorem GivenOnce.fillLoot (h : loot.GivenOnce) {f : Filling}
    (hok : FillOk proto (TokensOk proto (StoresFresh proto)) loot f) :
    (loot.fillLoot proto f).GivenOnce := by
  have hdrops : (loot.process proto f.drops).GivenOnce :=
    h.keep (h.wf.process f.drops) (.process f.drops)
  refine fillLoot_invariant hdrops ?_ (fun h hok => h.fillNotNormalLootFor hok)
    (fun n h => h.keep (h.wf.markUnderthreshold n) (.markUnderthreshold n)) hok
  exact hdrops.keep ⟨hdrops.wf.itemsSize, hdrops.wf.questSize, hdrops.wf.quest, hdrops.wf.ffa,
    hdrops.wf.conditional⟩ ⟨(Keeps.refl _).entry, (Keeps.refl _).own, rfl⟩

end Ways

end Loot

end HysteriaCore.Looting
