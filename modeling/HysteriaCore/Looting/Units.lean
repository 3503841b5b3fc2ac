import HysteriaCore.Looting.Slots
import HysteriaCore.Lib.Counting

/-!
# The units still to be taken

A unit is an unlooted entry for one player, counted once when it is for everyone or on somebody's
list, or an entry for all, counted for each player in whose list it is unlooted.
-/

namespace HysteriaCore.Looting
open Lib

namespace QuestItemMap

def lists (m : QuestItemMap) (i : ℕ) : Bool := m.rows.any fun row => row.list.any fun q => q.index = i

def left (m : QuestItemMap) (p : ℕ → Bool) : ℕ :=
  (m.rows.map fun row => row.list.countP fun q => !q.isLooted && p q.index).sum

end QuestItemMap

def shared (entries : List LootItem) (opened : LootItem × ℕ → Bool) : ℕ :=
  entries.zipIdx.countP fun x => !x.1.isLooted && !x.1.freeforall && opened x

namespace Loot

def itemOpen (loot : Loot) (x : LootItem × ℕ) : Bool :=
  x.1.conditions.isEmpty || loot.playerConditionalItems.lists x.2

def questOpen (loot : Loot) (x : LootItem × ℕ) : Bool := loot.playerQuestItems.lists x.2

def questFFA (loot : Loot) (i : ℕ) : Bool := loot.questItems[i]?.any (·.freeforall)

def units (loot : Loot) : ℕ :=
  shared loot.items loot.itemOpen + shared loot.questItems loot.questOpen +
    loot.playerFFAItems.left (fun _ => true) + loot.playerQuestItems.left loot.questFFA

end Loot

theorem markPicked_id (l : List (LootItem × ℕ)) (items : List LootItem) :
    markPicked l id items = items := by
  rw [markPicked]
  simp only [id, ite_self]
  exact List.zipIdx_map_fst 0 items

section Shared

theorem shared_append (entries : List LootItem) (item : LootItem) (opened : LootItem × ℕ → Bool) :
    shared (entries ++ [item]) opened = shared entries opened +
      if !item.isLooted && !item.freeforall && opened (item, entries.length) then 1 else 0 := by
  rw [shared, List.zipIdx_append, List.countP_append]
  simp [shared]

theorem shared_markLooted {entries : List LootItem} {o : LootItem × ℕ → Bool} {i : ℕ}
    {item : LootItem} (hitem : entries[i]? = some item) (hloot : item.isLooted = false)
    (hffa : item.freeforall = false) (hopen : o (item, i) = true) :
    shared (entries.modify i LootItem.markLooted) o + 1 = shared entries o := by
  have h := countP_zipIdx_modify (fun x => !x.1.isLooted && !x.1.freeforall && o x)
    LootItem.markLooted hitem 0
  simpa [hloot, hffa, hopen, LootItem.markLooted, shared] using h

theorem shared_markPicked {l : List (LootItem × ℕ)} {entries : List LootItem}
    (hsub : l.Sublist entries.zipIdx) {m : LootItem → LootItem}
    (hloot : ∀ item, (m item).isLooted = item.isLooted)
    (hffa : ∀ item, (m item).freeforall = item.freeforall)
    (hpick : ∀ x ∈ l, x.1.isLooted = false) {o p : LootItem × ℕ → Bool}
    (hin : ∀ x ∈ l, p (m x.1, x.2) = true)
    (hout : ∀ x ∈ entries.zipIdx, x ∉ l → p x = o x) :
    shared (markPicked l m entries) p =
      shared entries o + l.countP fun x => !x.1.freeforall && !o x := by
  rw [shared, markPicked, zipIdx_map_zipIdx, List.countP_map, shared,
    ← countP_mem_sublist hsub (zipIdx_nodup entries) fun x => !x.1.freeforall && !o x]
  refine countP_split fun x hx => ?_
  by_cases hl : x ∈ l
  · have hopen := hin x hl
    simp only [Function.comp_apply, if_pos hl, hloot, hffa, hpick x hl, hopen, Bool.not_false,
      Bool.true_and, Bool.and_true]
    cases x.1.freeforall <;> cases o x <;> simp [hl]
  · simp [hl, hout x hx hl]

end Shared

namespace QuestItemMap

variable (m : QuestItemMap)

theorem lists_iff (i : ℕ) : m.lists i = true ↔ ∃ row ∈ m, ∃ q ∈ row.list, q.index = i := by
  simp [lists, KeyedList.mem_rows]

theorem lists_of_mem {guid : ℕ} {q : QuestItem} (h : q ∈ m.listOf guid) : m.lists q.index = true := by
  rw [listOf] at h
  cases hrow : m.find? guid with
  | none => simp [hrow] at h
  | some row =>
    rw [hrow] at h
    exact (m.lists_iff _).mpr ⟨row, ((m.find?_eq_some_iff _ _).mp hrow).1, q, h, rfl⟩

theorem lists_put {guid : ℕ} (hnew : m.find? guid = none) (l : List (LootItem × ℕ)) (i : ℕ) :
    lists (m.put ⟨guid, enlist l⟩) i = (m.lists i || l.any fun x => x.2 = i) := by
  have hkey : ∀ row ∈ m, row.guid ≠ guid := (m.find?_eq_none_iff guid).mp hnew
  rw [Bool.eq_iff_iff, lists_iff, Bool.or_eq_true, lists_iff, List.any_eq_true]
  constructor
  · rintro ⟨row, hrow, q, hq, hi⟩
    rcases (m.mem_put _ _).mp hrow with rfl | ⟨hrow, -⟩
    · obtain ⟨x, hx, rfl⟩ := List.mem_map.mp hq
      exact .inr ⟨x, hx, by simpa using hi⟩
    · exact .inl ⟨row, hrow, q, hq, hi⟩
  · rintro (⟨row, hrow, q, hq, hi⟩ | ⟨x, hx, hi⟩)
    · exact ⟨row, (m.mem_put _ _).mpr (.inr ⟨hrow, hkey row hrow⟩), q, hq, hi⟩
    · exact ⟨_, (m.mem_put _ _).mpr (.inl rfl), ⟨x.2, false⟩, List.mem_map_of_mem hx, by simpa using hi⟩

theorem left_put {guid : ℕ} (hnew : m.find? guid = none) (l : List (LootItem × ℕ)) (p : ℕ → Bool) :
    left (m.put ⟨guid, enlist l⟩) p = m.left p + l.countP fun x => p x.2 := by
  rw [left, m.sum_put_of_new _ ((m.find?_eq_none_iff guid).mp hnew), left, enlist, List.countP_map]
  simp [Function.comp_def]

theorem left_congr {p p' : ℕ → Bool} (h : ∀ row ∈ m, ∀ q ∈ row.list, p q.index = p' q.index) :
    m.left p = m.left p' := by
  rw [left, left]
  congr 1
  refine List.map_congr_left fun row hrow => List.countP_congr fun q hq => ?_
  rw [h row hrow q hq]

theorem lists_take (guid pos i : ℕ) : (m.take guid pos).lists i = m.lists i := by
  have hrow : ∀ row : PlayerItems, ((if row.guid = guid then
      { row with list := row.list.modify pos ({ · with isLooted := true }) } else row).list.any
        fun q => decide (q.index = i)) = row.list.any fun q => decide (q.index = i) := by
    intro row
    split
    · have hmap := congrArg (fun l => l.any fun j => decide (j = i)) (modify_index row.list pos)
      simpa [List.any_map, Function.comp_def] using hmap
    · rfl
  rw [lists, lists, take, KeyedList.adjust, List.any_map]
  simp only [Function.comp_def, hrow]

theorem left_take {guid pos : ℕ} {q : QuestItem} (h : (m.listOf guid)[pos]? = some q)
    (hfree : q.isLooted = false) (p : ℕ → Bool) :
    (m.take guid pos).left p + (if p q.index then 1 else 0) = m.left p := by
  rw [listOf] at h
  cases hrow : m.find? guid with
  | none => simp [hrow] at h
  | some row =>
    rw [hrow] at h
    obtain ⟨hmem, rfl⟩ := (m.find?_eq_some_iff _ _).mp hrow
    have hmod := countP_zipIdx_modify (fun x : QuestItem × ℕ => !x.1.isLooted && p x.1.index)
      ({ · with isLooted := true }) (l := row.list) (x := q) h 0
    have hfst : ∀ l : List QuestItem, (l.zipIdx.countP fun x => !x.1.isLooted && p x.1.index) =
        l.countP fun q => !q.isLooted && p q.index := by
      intro l
      conv_rhs => rw [← List.zipIdx_map_fst 0 l, List.countP_map]
      rfl
    rw [hfst, hfst] at hmod
    simp only [hfree, Bool.not_false, Bool.true_and, Bool.not_true, Bool.false_and,
      Bool.false_eq_true, if_false, Nat.add_zero] at hmod
    have hsum := m.sum_adjust (fun row => row.list.countP fun q => !q.isLooted && p q.index) hmem
      (fun row => { row with list := row.list.modify pos ({ · with isLooted := true }) }) fun _ => rfl
    simp only [left, take] at hsum ⊢
    omega

end QuestItemMap

namespace Loot

theorem lists_loot_take (loot : Loot) (guid : ℕ) (f : Found) (i : ℕ) :
    (loot.take guid f).playerQuestItems.lists i = loot.playerQuestItems.lists i ∧
      (loot.take guid f).playerFFAItems.lists i = loot.playerFFAItems.lists i ∧
      (loot.take guid f).playerConditionalItems.lists i = loot.playerConditionalItems.lists i := by
  rw [take]
  obtain ⟨place, item, own⟩ := f
  -- the mark of the entry touches no list
  have hmark : ∀ l : Loot, (if item.freeforall then l else l.edit LootItem.markLooted place).playerQuestItems =
      l.playerQuestItems ∧ (if item.freeforall then l else l.edit LootItem.markLooted place).playerFFAItems =
      l.playerFFAItems ∧ (if item.freeforall then l
        else l.edit LootItem.markLooted place).playerConditionalItems = l.playerConditionalItems := by
    intro l
    cases item.freeforall <;> cases place <;> exact ⟨rfl, rfl, rfl⟩
  obtain ⟨h1, h2, h3⟩ := hmark (loot.takeOwn guid own)
  dsimp only
  rw [h1, h2, h3]
  rcases own with _ | own
  · exact ⟨rfl, rfl, rfl⟩
  · cases own with
    | qitem pos => exact ⟨QuestItemMap.lists_take _ guid pos i, rfl, rfl⟩
    | ffaitem pos => exact ⟨rfl, QuestItemMap.lists_take _ guid pos i, rfl⟩
    | conditem pos => exact ⟨rfl, rfl, QuestItemMap.lists_take _ guid pos i⟩

end Loot

end HysteriaCore.Looting
