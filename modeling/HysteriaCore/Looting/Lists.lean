import HysteriaCore.Looting.Fill
import HysteriaCore.Lib.Runs

/-!
# The lists of the players

Whatever is done to a loot, a list names each entry once and only entries of its own kind.
-/

namespace HysteriaCore.Looting
open Lib

def Listing (m : QuestItemMap) (entries : List LootItem) (kind : LootItem → Bool) : Prop :=
  ∀ row ∈ m, (row.list.map QuestItem.index).Nodup ∧ row.list.length ≤ MAX_NR_LOOT_ITEMS ∧
    ∀ q ∈ row.list, entries[q.index]?.any kind = true

namespace LootItem

def anyKind (_ : LootItem) : Bool := true
def ffaKind (item : LootItem) : Bool := item.freeforall
def conditionalKind (item : LootItem) : Bool := !item.freeforall && !item.conditions.isEmpty

end LootItem

namespace Loot

structure WellFormed (loot : Loot) : Prop where
  itemsSize : loot.items.length ≤ MAX_NR_LOOT_ITEMS
  questSize : loot.questItems.length ≤ MAX_NR_QUEST_ITEMS
  quest : Listing loot.playerQuestItems loot.questItems LootItem.anyKind
  ffa : Listing loot.playerFFAItems loot.items LootItem.ffaKind
  conditional : Listing loot.playerConditionalItems loot.items LootItem.conditionalKind

end Loot

theorem Listing.empty (entries : List LootItem) (kind : LootItem → Bool) :
    Listing .empty entries kind := by
  intro row hrow
  exact absurd hrow (by simp [KeyedList.empty, KeyedList.mem_rows])

variable {kind : LootItem → Bool} {m : QuestItemMap}

variable {entries entries' : List LootItem}

theorem Listing.mono
    (h : Listing m entries kind)
    (hkind : ∀ i : ℕ, entries[i]?.any kind = true → entries'[i]?.any kind = true) :
    Listing m entries' kind := by
  intro row hrow
  obtain ⟨hnodup, hlen, hin⟩ := h row hrow
  exact ⟨hnodup, hlen, fun q hq => hkind _ (hin q hq)⟩

variable {entries : List LootItem}

theorem Listing.append (h : Listing m entries kind) (item : LootItem) : Listing m (entries ++ [item]) kind := by
  refine h.mono fun i hi => ?_
  cases he : entries[i]? with
  | none => simp [he] at hi
  | some x =>
    have hlt := (List.getElem?_eq_some_iff.mp he).1
    rw [List.getElem?_append_left hlt]
    exact hi

theorem Listing.of_map
    (h : Listing m entries kind) (f : ℕ → LootItem → LootItem)
    (hentries : ∀ i : ℕ, entries'[i]? = entries[i]?.map (f i))
    (hf : ∀ i item, kind (f i item) = kind item) : Listing m entries' kind := by
  refine h.mono fun i hi => ?_
  rw [hentries]
  cases he : entries[i]? with
  | none => simp [he] at hi
  | some x => simpa [he, hf] using hi

section Picks
variable {p : LootItem → Bool} {f : ℕ → Bool}

theorem picked_sublist (i n : ℕ) (items : List LootItem) :
    (picked p f i n items).Sublist (items.zipIdx i) := by
  induction items generalizing i n with
  | nil => exact .slnil
  | cons item rest ih =>
    rw [List.zipIdx_cons, picked]
    by_cases hp : p item
    · rw [if_pos hp]
      refine .cons_cons _ ?_
      by_cases hf : f (n + 1)
      · rw [if_pos hf]
        exact List.nil_sublist _
      · rw [if_neg hf]
        exact ih (i + 1) (n + 1)
    · rw [if_neg hp]
      exact .cons _ (ih (i + 1) n)

theorem picks_of_mem_picked {i n : ℕ} {items : List LootItem} {x : LootItem × ℕ}
    (h : x ∈ picked p f i n items) : p x.1 = true := by
  induction items generalizing i n with
  | nil => exact absurd h (by simp [picked])
  | cons item rest ih =>
    rw [picked] at h
    by_cases hp : p item
    · rw [if_pos hp, List.mem_cons] at h
      rcases h with rfl | h
      · exact hp
      · by_cases hf : f (n + 1)
        · rw [if_pos hf] at h
          exact absurd h (by simp)
        · rw [if_neg hf] at h
          exact ih h
    · rw [if_neg hp] at h
      exact ih h

theorem length_picked_le {cap : ℕ} (hfull : ∀ m, f m = decide (m = cap)) {i n : ℕ} (hn : n < cap)
    (items : List LootItem) : n + (picked p f i n items).length ≤ cap := by
  induction items generalizing i n with
  | nil =>
    simp only [picked, List.length_nil]
    omega
  | cons item rest ih =>
    rw [picked]
    by_cases hp : p item
    · rw [if_pos hp, List.length_cons]
      by_cases hc : n + 1 = cap
      · have hf : f (n + 1) = true := by simp [hfull, hc]
        rw [if_pos hf, List.length_nil]
        omega
      · have hf : ¬ f (n + 1) = true := by simp [hfull, hc]
        rw [if_neg hf]
        have h := ih (i := i + 1) (n := n + 1) (by omega)
        omega
    · rw [if_neg hp]
      exact ih hn

theorem picked_getElem? {n : ℕ} {items : List LootItem} {x : LootItem × ℕ}
    (h : x ∈ picked p f 0 n items) : items[x.2]? = some x.1 :=
  List.mk_mem_zipIdx_iff_getElem?.mp ((picked_sublist 0 n items).subset h)

theorem nodup_zipIdx_snd (items : List LootItem) (i : ℕ) : ((items.zipIdx i).map Prod.snd).Nodup := by
  rw [List.zipIdx_map_snd]
  exact List.nodup_range'

theorem nodup_picked (i n : ℕ) (items : List LootItem) :
    ((picked p f i n items).map Prod.snd).Nodup :=
  (nodup_zipIdx_snd items i).sublist ((picked_sublist i n items).map Prod.snd)

end Picks

theorem markPicked_getElem? (l : List (LootItem × ℕ)) (mark : LootItem → LootItem)
    (items : List LootItem) (i : ℕ) :
    (markPicked l mark items)[i]? =
      items[i]?.map fun item => if (item, i) ∈ l then mark item else item := by
  rw [markPicked, List.getElem?_map, List.getElem?_zipIdx, Option.map_map]
  simp [Function.comp_def]

theorem enlist_index (l : List (LootItem × ℕ)) : (enlist l).map QuestItem.index = l.map Prod.snd := by
  simp [enlist, Function.comp_def]

theorem Listing.put
    (h : Listing m entries kind) (guid : ℕ) {p : LootItem → Bool} {f : ℕ → Bool}
    (hpicks : ∀ item, p item = true → kind item = true)
    (hlen : (picked p f 0 0 entries).length ≤ MAX_NR_LOOT_ITEMS) :
    Listing (m.put ⟨guid, enlist (picked p f 0 0 entries)⟩) entries kind := by
  intro row hrow
  rcases (m.mem_put _ _).mp hrow with rfl | ⟨hrow, -⟩
  · refine ⟨?_, by simpa [enlist] using hlen, ?_⟩
    · rw [enlist_index]
      exact nodup_picked 0 0 entries
    · intro q hq
      obtain ⟨x, hx, rfl⟩ := List.mem_map.mp hq
      rw [picked_getElem? hx]
      exact hpicks _ (picks_of_mem_picked hx)
  · exact h row hrow

theorem modify_index (list : List QuestItem) (pos : ℕ) :
    (list.modify pos ({ · with isLooted := true })).map QuestItem.index =
      list.map QuestItem.index := by
  induction list generalizing pos with
  | nil => simp
  | cons q rest ih =>
    cases pos with
    | zero => rfl
    | succ pos =>
      rw [List.modify_succ_cons, List.map_cons, ih, List.map_cons]

theorem Listing.take (h : Listing m entries kind) (guid pos : ℕ) : Listing (m.take guid pos) entries kind := by
  intro row hrow
  obtain ⟨row, hmem, rfl⟩ := (m.mem_adjust ..).mp hrow
  obtain ⟨hnodup, hlen, hin⟩ := h row hmem
  by_cases hg : row.guid = guid
  · rw [if_pos hg]
    refine ⟨by rw [modify_index]; exact hnodup, by rw [List.length_modify]; exact hlen, ?_⟩
    intro q hq
    have hidx : q.index ∈ row.list.map QuestItem.index := by
      rw [← modify_index row.list pos]
      exact List.mem_map_of_mem hq
    obtain ⟨q', hq', hsame⟩ := List.mem_map.mp hidx
    rw [← hsame]
    exact hin q' hq'
  · rw [if_neg hg]
    exact ⟨hnodup, hlen, hin⟩

namespace Loot

theorem WellFormed.new (gold : ℕ) : (Loot.new gold).WellFormed :=
  ⟨Nat.zero_le _, Nat.zero_le _, .empty _ _, .empty _ _, .empty _ _⟩

theorem WellFormed.edit {loot : Loot} (h : loot.WellFormed) {f : LootItem → LootItem}
    (hffa : ∀ item, (f item).freeforall = item.freeforall)
    (hcond : ∀ item, (f item).conditions = item.conditions) (p : Place) :
    (loot.edit f p).WellFormed := by
  have hget : ∀ (l : List LootItem) (i j : ℕ),
      (l.modify i f)[j]? = l[j]?.map fun item => if i = j then f item else item :=
    fun l i j => List.getElem?_modify ..
  have hffaKind : ∀ (i j : ℕ) item, LootItem.ffaKind (if i = j then f item else item) =
      LootItem.ffaKind item := by
    intro i j item
    split <;> simp [LootItem.ffaKind, hffa]
  have hcondKind : ∀ (i j : ℕ) item, LootItem.conditionalKind (if i = j then f item else item) =
      LootItem.conditionalKind item := by
    intro i j item
    split <;> simp [LootItem.conditionalKind, hffa, hcond]
  cases p with
  | item i =>
    exact ⟨by simpa [Loot.edit] using h.itemsSize, h.questSize, h.quest,
      h.ffa.of_map _ (hget _ i) (hffaKind i), h.conditional.of_map _ (hget _ i) (hcondKind i)⟩
  | quest i =>
    exact ⟨h.itemsSize, by simpa [Loot.edit] using h.questSize,
      h.quest.of_map _ (hget _ i) (fun _ _ => rfl), h.ffa, h.conditional⟩

section Operations
variable {proto : ℕ → Option ItemTemplate} {loot : Loot}

theorem WellFormed.addStacks (p : ItemTemplate) (item : LootStoreItem) (n count : ℕ)
    (h : loot.WellFormed) : (loot.addStacks proto p item n count).WellFormed := by
  induction n generalizing loot count with
  | zero => exact h
  | succ n ih =>
    rw [Loot.addStacks]
    by_cases hq : item.needsQuest
    · rw [if_pos hq]
      by_cases hlim : loot.questItems.length < MAX_NR_QUEST_ITEMS
      · rw [if_pos hlim]
        refine ih _ ⟨h.itemsSize, ?_, h.quest.append _, h.ffa, h.conditional⟩
        simp only [List.length_append, List.length_singleton]
        omega
      · rw [if_neg hlim]
        exact h
    · rw [if_neg hq]
      by_cases hlim : loot.items.length < MAX_NR_LOOT_ITEMS
      · rw [if_pos hlim]
        refine ih _ ⟨?_, h.questSize, h.quest, h.ffa.append _, h.conditional.append _⟩
        simp only [List.length_append, List.length_singleton]
        omega
      · rw [if_neg hlim]
        exact h

theorem WellFormed.addItem (h : loot.WellFormed) (item : LootStoreItem) (count : ℕ) :
    (loot.addItem proto item count).WellFormed := by
  rw [Loot.addItem]
  cases proto item.itemid with
  | none => exact h
  | some p => exact h.addStacks p item _ count

theorem length_questPicks_le (h : loot.WellFormed) (guid : ℕ) (a : Answers) :
    (loot.questPicks proto guid a).length ≤ MAX_NR_LOOT_ITEMS := by
  have hsize := h.itemsSize
  rw [questPicks]
  by_cases hfull : loot.items.length = MAX_NR_LOOT_ITEMS
  · rw [if_pos hfull]
    exact Nat.zero_le _
  · rw [if_neg hfull]
    have hcap : ∀ m, decide (loot.items.length + m = MAX_NR_LOOT_ITEMS) =
        decide (m = MAX_NR_LOOT_ITEMS - loot.items.length) := by
      intro m
      rw [decide_eq_decide]
      omega
    have hlen := length_picked_le (p := fun item => !item.isLooted &&
      (item.allowedForPlayer proto a || item.followsRulesOf guid a)) hcap
      (i := 0) (n := 0) (by omega) loot.questItems
    omega

theorem length_picked_items_le (h : loot.WellFormed) (picks : LootItem → Bool) (full : ℕ → Bool) :
    (picked picks full 0 0 loot.items).length ≤ MAX_NR_LOOT_ITEMS := by
  have hlen := (picked_sublist (p := picks) (f := full) 0 0 loot.items).length_le
  rw [List.length_zipIdx] at hlen
  exact hlen.trans h.itemsSize

theorem WellFormed.fillQuestLoot (h : loot.WellFormed) (guid : ℕ) (a : Answers) :
    (loot.fillQuestLoot proto guid a).WellFormed := by
  have hlen : (loot.questPicks proto guid a).length ≤ MAX_NR_LOOT_ITEMS :=
    length_questPicks_le h guid a
  rw [Loot.fillQuestLoot]
  by_cases hnil : (loot.questPicks proto guid a).isEmpty
  · rw [if_pos hnil]
    exact h
  · rw [if_neg hnil]
    have hput : Listing (loot.playerQuestItems.put ⟨guid, enlist (loot.questPicks proto guid a)⟩)
        loot.questItems LootItem.anyKind := by
      rw [questPicks] at hlen hnil ⊢
      by_cases hfull : loot.items.length = MAX_NR_LOOT_ITEMS
      · simp [hfull] at hnil
      · rw [if_neg hfull] at hlen ⊢
        exact h.quest.put guid (fun _ _ => rfl) hlen
    refine ⟨h.itemsSize, ?_, ?_, h.ffa, h.conditional⟩
    · split
      · simpa [markPicked] using h.questSize
      · exact h.questSize
    · split
      · exact hput.of_map _ (markPicked_getElem? _ _ _) fun _ _ => rfl
      · exact hput

theorem WellFormed.fillFFALoot (h : loot.WellFormed) (guid : ℕ) (a : Answers) :
    (loot.fillFFALoot proto guid a).WellFormed := by
  rw [Loot.fillFFALoot]
  by_cases hnil : (loot.ffaPicks proto a).isEmpty
  · rw [if_pos hnil]
    exact h
  · rw [if_neg hnil]
    refine ⟨h.itemsSize, h.questSize, h.quest, ?_, h.conditional⟩
    refine h.ffa.put guid (fun item hp => ?_) (length_picked_items_le h _ _)
    simp only [Bool.and_eq_true] at hp
    exact hp.1.2

theorem WellFormed.fillConditionalLoot (h : loot.WellFormed) (guid : ℕ) (a : Answers) :
    (loot.fillConditionalLoot proto guid a).WellFormed := by
  rw [Loot.fillConditionalLoot]
  by_cases hnil : (loot.conditionalPicks proto guid a).isEmpty
  · rw [if_pos hnil]
    exact h
  · rw [if_neg hnil]
    have hput := h.conditional.put guid (fun item hp => ?_)
      (length_picked_items_le h _ _) (p := fun item => !item.isLooted && !item.freeforall &&
        (item.allowedForPlayer proto a || item.followsRulesOf guid a) && !item.conditions.isEmpty)
      (f := fun _ => false)
    · refine ⟨by simpa [markPicked] using h.itemsSize, h.questSize, h.quest,
        h.ffa.of_map _ (markPicked_getElem? _ _ _) (fun i item => ?_),
        hput.of_map _ (markPicked_getElem? _ _ _) (fun i item => ?_)⟩
      · split <;> rfl
      · split <;> rfl
    · simp only [Bool.and_eq_true] at hp
      simp [LootItem.conditionalKind, hp.1.1.2, hp.2]

theorem WellFormed.fillQuestLootOnce (h : loot.WellFormed) (guid : ℕ) (a : Answers) :
    (loot.fillQuestLootOnce proto guid a).WellFormed := by
  rw [Loot.fillQuestLootOnce]
  split
  · exact h
  · exact h.fillQuestLoot guid a

theorem WellFormed.fillFFALootOnce (h : loot.WellFormed) (guid : ℕ) (a : Answers) :
    (loot.fillFFALootOnce proto guid a).WellFormed := by
  rw [Loot.fillFFALootOnce]
  split
  · exact h
  · exact h.fillFFALoot guid a

theorem WellFormed.fillConditionalLootOnce (h : loot.WellFormed) (guid : ℕ) (a : Answers) :
    (loot.fillConditionalLootOnce proto guid a).WellFormed := by
  rw [Loot.fillConditionalLootOnce]
  split
  · exact h
  · exact h.fillConditionalLoot guid a

theorem WellFormed.fillLists (h : loot.WellFormed) (guid : ℕ) (a : Answers) :
    (loot.fillLists proto guid a).WellFormed :=
  ((h.fillQuestLootOnce guid a).fillFFALootOnce guid a).fillConditionalLootOnce guid a

theorem WellFormed.takeOwn (h : loot.WellFormed) (guid : ℕ) (own : Option Own) :
    (loot.takeOwn guid own).WellFormed := by
  cases own with
  | none => exact h
  | some own =>
    cases own with
    | qitem pos => exact ⟨h.itemsSize, h.questSize, h.quest.take guid pos, h.ffa, h.conditional⟩
    | ffaitem pos => exact ⟨h.itemsSize, h.questSize, h.quest, h.ffa.take guid pos, h.conditional⟩
    | conditem pos => exact ⟨h.itemsSize, h.questSize, h.quest, h.ffa, h.conditional.take guid pos⟩

theorem WellFormed.take (h : loot.WellFormed) (guid : ℕ) (f : Found) :
    (loot.take guid f).WellFormed := by
  have hown := h.takeOwn guid f.own
  have hall : (if f.item.freeforall then loot.takeOwn guid f.own
      else (loot.takeOwn guid f.own).edit LootItem.markLooted f.place).WellFormed := by
    split
    · exact hown
    · exact hown.edit (f := LootItem.markLooted) (fun _ => rfl) (fun _ => rfl) f.place
  exact ⟨hall.itemsSize, hall.questSize, hall.quest, hall.ffa, hall.conditional⟩

theorem WellFormed.storeLootItem (h : loot.WellFormed) (guid : ℕ) (a : Answers) (slot : ℕ) :
    (loot.storeLootItem proto guid a slot).WellFormed := by
  rw [Loot.storeLootItem]
  cases loot.grant proto guid a slot with
  | none => exact h
  | some f =>
    have htake := h.take guid f
    dsimp only
    split
    · exact ⟨htake.itemsSize, htake.questSize, htake.quest, htake.ffa, htake.conditional⟩
    · exact h

theorem WellFormed.storeCurrency (h : loot.WellFormed) (v : Visitor) (i : ℕ) :
    (loot.storeCurrency proto v i).WellFormed := by
  rw [Loot.storeCurrency]
  split
  · exact h.storeLootItem v.guid _ i
  · exact h

theorem WellFormed.fillNotNormalLootFor (h : loot.WellFormed) (v : Visitor) :
    (loot.fillNotNormalLootFor proto v).WellFormed := by
  rw [Loot.fillNotNormalLootFor]
  have hlists : (loot.fillLists proto v.guid (v.answers 0)).WellFormed := h.fillLists v.guid _
  split
  · exact foldl_invariant (fun loot i (h : loot.WellFormed) => h.storeCurrency v i) _ hlists
  · exact hlists

theorem WellFormed.markUnderthreshold (h : loot.WellFormed) (lootThreshold : ℕ) :
    (loot.markUnderthreshold proto lootThreshold).WellFormed := by
  refine ⟨by simpa [Loot.markUnderthreshold] using h.itemsSize, h.questSize, h.quest,
    h.ffa.of_map _ (fun i => List.getElem?_map ..) (fun _ item => ?_),
    h.conditional.of_map _ (fun i => List.getElem?_map ..) (fun _ item => ?_)⟩
  · split <;> rfl
  · split <;> rfl

theorem WellFormed.process (h : loot.WellFormed) (drops : List (LootStoreItem × ℕ)) :
    (loot.process proto drops).WellFormed := by
  induction drops generalizing loot with
  | nil => exact h
  | cons drop drops ih => exact ih (h.addItem drop.1 drop.2)

theorem WellFormed.fillLoot (h : loot.WellFormed) (f : Filling) :
    (loot.fillLoot proto f).WellFormed := by
  have hdrops : (loot.process proto f.drops).WellFormed := h.process f.drops
  rw [Loot.fillLoot]
  dsimp only
  split
  · refine WellFormed.markUnderthreshold ?_ _
    refine foldl_invariant (fun loot v (h : loot.WellFormed) => h.fillNotNormalLootFor v) _ ?_
    exact ⟨hdrops.itemsSize, hdrops.questSize, hdrops.quest, hdrops.ffa, hdrops.conditional⟩
  · exact hdrops.fillNotNormalLootFor _

end Operations

end Loot

end HysteriaCore.Looting
