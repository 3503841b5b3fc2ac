import HysteriaCore.Looting.Units

/-!
# `unlootedCount` is the number of units

The counter is raised in four fill routines and lowered where an entry is stored. It fails where
a quest item for one player comes into a second list without having been blocked, where the loop
for currency stores what is no unit, and past 255 units.
-/

namespace HysteriaCore.Looting
open Lib

namespace Loot

theorem getElem?_any_modify {l : List LootItem} {f : LootItem → LootItem} (p : LootItem → Bool)
    (hp : ∀ item, p (f item) = p item) (i j : ℕ) : (l.modify i f)[j]?.any p = l[j]?.any p := by
  rw [List.getElem?_modify]
  cases l[j]? with
  | none => rfl
  | some item =>
    show p (if i = j then f item else item) = p item
    split
    · exact hp item
    · rfl

variable {loot' : Loot}

section Take
variable {loot : Loot} {guid slot : ℕ} {f : Found}

theorem itemOpen_eq (loot : Loot)
    (h : ∀ i, loot'.playerConditionalItems.lists i = loot.playerConditionalItems.lists i) :
    loot'.itemOpen = loot.itemOpen := by
  funext x
  rw [itemOpen, itemOpen, h]

theorem questOpen_eq (loot : Loot)
    (h : ∀ i, loot'.playerQuestItems.lists i = loot.playerQuestItems.lists i) :
    loot'.questOpen = loot.questOpen := by
  funext x
  rw [questOpen, questOpen, h]

theorem units_take (hres : loot.Resolves guid slot f) (h : Untaken f) :
    (loot.take guid f).units + 1 = loot.units := by
  cases hres with
  | @quest pos q item hslot hown hfree hitem =>
    have hleft := QuestItemMap.left_take loot.playerQuestItems hown hfree
    have hlists := fun i => QuestItemMap.lists_take loot.playerQuestItems guid pos i
    have hin := QuestItemMap.lists_of_mem _ (List.mem_of_getElem? hown)
    by_cases hffa : item.freeforall = true
    · have hq : loot.questFFA q.index = true := by simp [questFFA, hitem, hffa]
      have hleft := hleft loot.questFFA
      rw [if_pos hq] at hleft
      have htake : (loot.take guid ⟨.quest q.index, item, some (.qitem pos)⟩).units =
          shared loot.items loot.itemOpen + shared loot.questItems (questOpen
            { loot with playerQuestItems := loot.playerQuestItems.take guid pos }) +
          loot.playerFFAItems.left (fun _ => true) +
          QuestItemMap.left (loot.playerQuestItems.take guid pos) loot.questFFA := by
        rw [take]
        simp only [hffa, if_true]
        rfl
      rw [htake, questOpen_eq loot hlists, units]
      omega
    · have hno : item.freeforall = false := by simpa using hffa
      have hloot : item.isLooted = false := h.2.resolve_left hffa
      have hq : loot.questFFA q.index = false := by simp [questFFA, hitem, hno]
      have hleft := hleft loot.questFFA
      rw [hq] at hleft
      have hshared := shared_markLooted hitem hloot hno (o := loot.questOpen) hin
      have hsame : (fun i => (loot.questItems.modify q.index LootItem.markLooted)[i]?.any
          fun item => item.freeforall) = loot.questFFA :=
        funext fun i => getElem?_any_modify (f := LootItem.markLooted) _ (fun _ => rfl) q.index i
      have htake : (loot.take guid ⟨.quest q.index, item, some (.qitem pos)⟩).units =
          shared loot.items loot.itemOpen +
          shared (loot.questItems.modify q.index LootItem.markLooted) (questOpen
            { loot with playerQuestItems := loot.playerQuestItems.take guid pos }) +
          loot.playerFFAItems.left (fun _ => true) +
          QuestItemMap.left (loot.playerQuestItems.take guid pos)
            (fun i => (loot.questItems.modify q.index LootItem.markLooted)[i]?.any
              fun item => item.freeforall) := by
        rw [take]
        simp only [hno, Bool.false_eq_true, if_false]
        rfl
      rw [htake, questOpen_eq loot hlists, hsame, units]
      simp only [Bool.false_eq_true, if_false, Nat.add_zero] at hleft
      omega
  | @ffa pos q item hitem hffa hown hfree =>
    obtain ⟨hpos, -⟩ := ownEntry_eq_some hown
    have hleft := QuestItemMap.left_take loot.playerFFAItems hpos hfree fun _ => true
    rw [take]
    simp only [hffa, if_true]
    show shared loot.items loot.itemOpen + shared loot.questItems loot.questOpen +
      QuestItemMap.left (loot.playerFFAItems.take guid pos) (fun _ => true) +
      loot.playerQuestItems.left loot.questFFA + 1 = loot.units
    simp only [if_true] at hleft
    rw [units]
    omega
  | @ffaUnlisted item hitem hffa hown hfree =>
    rcases h.1 with h1 | h1
    · exact absurd h1 (by simp)
    · exact absurd (h1.1.symm.trans hffa) (by simp)
  | @conditional pos q item hitem hffa hcond hown hfree =>
    obtain ⟨hpos, hidx⟩ := ownEntry_eq_some hown
    have hlists := fun i => QuestItemMap.lists_take loot.playerConditionalItems guid pos i
    have hin := QuestItemMap.lists_of_mem _ (List.mem_of_getElem? hpos)
    have hloot : item.isLooted = false := h.2.resolve_left fun h2 => by
      exact absurd (hffa.symm.trans h2) (by simp)
    have hopen : loot.itemOpen (item, slot) = true := by
      rw [hidx] at hin
      simp [itemOpen, hin]
    have hshared := shared_markLooted hitem hloot hffa (o := loot.itemOpen) hopen
    have htake : (loot.take guid ⟨.item slot, item, some (.conditem pos)⟩).units =
        shared (loot.items.modify slot LootItem.markLooted) (itemOpen
          { loot with playerConditionalItems := loot.playerConditionalItems.take guid pos }) +
        shared loot.questItems loot.questOpen + loot.playerFFAItems.left (fun _ => true) +
        loot.playerQuestItems.left loot.questFFA := by
      rw [take]
      simp only [hffa, Bool.false_eq_true, if_false]
      rfl
    rw [htake, itemOpen_eq loot hlists, units]
    omega
  | @conditionalUnlisted item hitem hffa hcond hown hfree =>
    rcases h.1 with h1 | h1
    · exact absurd h1 (by simp)
    · exact absurd (hcond.symm.trans h1.2) (by simp)
  | @plain item hitem hffa hcond hfree =>
    have hopen : loot.itemOpen (item, slot) = true := by simp [itemOpen, hcond]
    have hshared := shared_markLooted hitem hfree hffa (o := loot.itemOpen) hopen
    have htake : (loot.take guid ⟨.item slot, item, none⟩).units =
        shared (loot.items.modify slot LootItem.markLooted) loot.itemOpen +
        shared loot.questItems loot.questOpen + loot.playerFFAItems.left (fun _ => true) +
        loot.playerQuestItems.left loot.questFFA := by
      rw [take]
      simp only [hffa, Bool.false_eq_true, if_false]
      rfl
    rw [htake, units]
    omega

end Take

variable {a : Answers} {guid : ℕ}

section Fills
variable (proto : ℕ → Option ItemTemplate) {loot : Loot}

theorem units_fillFFALoot (hnew : loot.playerFFAItems.find? guid = none) :
    ∃ n, (loot.fillFFALoot proto guid a).units = loot.units + n ∧
      (loot.fillFFALoot proto guid a).unlootedCount = loot.unlootedCount + .ofNat n := by
  rw [fillFFALoot]
  by_cases hnil : (loot.ffaPicks proto a).isEmpty
  · rw [if_pos hnil]
    exact ⟨0, rfl, (UInt8.add_zero _).symm⟩
  · rw [if_neg hnil]
    refine ⟨(loot.ffaPicks proto a).length, ?_, rfl⟩
    have hleft := QuestItemMap.left_put loot.playerFFAItems hnew (loot.ffaPicks proto a) fun _ => true
    rw [List.countP_true] at hleft
    show shared loot.items loot.itemOpen + shared loot.questItems loot.questOpen +
      QuestItemMap.left (loot.playerFFAItems.put ⟨guid, enlist (loot.ffaPicks proto a)⟩)
        (fun _ => true) + loot.playerQuestItems.left loot.questFFA = _
    rw [hleft, units]
    omega

theorem conditionalPicks_sublist (loot : Loot) (guid : ℕ) (a : Answers) :
    (loot.conditionalPicks proto guid a).Sublist loot.items.zipIdx := picked_sublist 0 0 loot.items

variable {x : LootItem × ℕ}

theorem of_mem_conditionalPicks
    (h : x ∈ loot.conditionalPicks proto guid a) :
    x.1.isLooted = false ∧ x.1.freeforall = false ∧ x.1.conditions.isEmpty = false := by
  have hp := picks_of_mem_picked h
  simp only [Bool.and_eq_true, Bool.not_eq_true'] at hp
  exact ⟨hp.1.1.1, hp.1.1.2, hp.2⟩

theorem questPicks_sublist (loot : Loot) (guid : ℕ) (a : Answers) :
    (loot.questPicks proto guid a).Sublist loot.questItems.zipIdx := by
  rw [questPicks]
  split
  · exact List.nil_sublist _
  · exact picked_sublist 0 0 loot.questItems

theorem of_mem_questPicks (h : x ∈ loot.questPicks proto guid a) : x.1.isLooted = false := by
  rw [questPicks] at h
  split at h
  · exact absurd h (by simp)
  · have hp := picks_of_mem_picked h
    simp only [Bool.and_eq_true, Bool.not_eq_true'] at hp
    exact hp.1

theorem any_index_iff {items : List LootItem} {l : List (LootItem × ℕ)}
    (hsub : l.Sublist items.zipIdx) (hx : x ∈ items.zipIdx) : (l.any fun y => y.2 = x.2) = decide (x ∈ l) := by
  rw [Bool.eq_iff_iff, List.any_eq_true, decide_eq_true_iff]
  constructor
  · rintro ⟨y, hy, hidx⟩
    have hy' := List.mk_mem_zipIdx_iff_getElem?.mp (hsub.subset hy)
    have hx' := List.mk_mem_zipIdx_iff_getElem?.mp hx
    rw [of_decide_eq_true hidx, hx', Option.some.injEq] at hy'
    have heq : y = x := Prod.ext hy'.symm (of_decide_eq_true hidx)
    exact heq ▸ hy
  · exact fun h => ⟨x, h, by simp⟩

theorem units_fillConditionalLoot
    (hnew : loot.playerConditionalItems.find? guid = none)
    (hcounted : ∀ (i : ℕ) item, loot.items[i]? = some item → item.freeforall = false →
      item.conditions.isEmpty = false → item.isCounted = loot.playerConditionalItems.lists i) :
    ∃ n, (loot.fillConditionalLoot proto guid a).units = loot.units + n ∧
      (loot.fillConditionalLoot proto guid a).unlootedCount = loot.unlootedCount + .ofNat n := by
  rw [fillConditionalLoot]
  by_cases hnil : (loot.conditionalPicks proto guid a).isEmpty
  · rw [if_pos hnil]
    exact ⟨0, rfl, (UInt8.add_zero _).symm⟩
  · rw [if_neg hnil]
    refine ⟨_, ?_, rfl⟩
    have hsub := conditionalPicks_sublist proto loot guid a
    set ql := loot.conditionalPicks proto guid a with hql
    have hlists := QuestItemMap.lists_put loot.playerConditionalItems hnew ql
    have hopen : ∀ x : LootItem × ℕ, itemOpen
        { loot with playerConditionalItems := loot.playerConditionalItems.put ⟨guid, enlist ql⟩ } x =
          (loot.itemOpen x || ql.any fun y => y.2 = x.2) := by
      intro x
      show (x.1.conditions.isEmpty || QuestItemMap.lists (loot.playerConditionalItems.put
        ⟨guid, enlist ql⟩) x.2) = _
      rw [hlists, itemOpen, Bool.or_assoc]
    have hshared := shared_markPicked hsub (m := LootItem.markCounted) (fun _ => rfl) (fun _ => rfl)
      (fun x hx => (of_mem_conditionalPicks proto hx).1)
      (o := loot.itemOpen) (p := itemOpen
        { loot with playerConditionalItems := loot.playerConditionalItems.put ⟨guid, enlist ql⟩ })
      (fun x hx => by
        rw [hopen, Bool.or_eq_true]
        exact .inr (List.any_eq_true.mpr ⟨x, hx, by simp⟩))
      (fun x hx hout => by
        rw [hopen, any_index_iff hsub hx]
        simp [hout])
    have hcount : (ql.countP fun x => !x.1.freeforall && !loot.itemOpen x) =
        ql.countP fun x => !x.1.isCounted := by
      refine List.countP_congr fun x hx => ?_
      obtain ⟨-, hffa, hcond⟩ := of_mem_conditionalPicks proto hx
      have hx' := List.mk_mem_zipIdx_iff_getElem?.mp (hsub.subset hx)
      rw [itemOpen, hcounted _ _ hx' hffa hcond, hffa, hcond]
      simp
    show shared (markPicked ql LootItem.markCounted loot.items) (itemOpen
        { loot with playerConditionalItems := loot.playerConditionalItems.put ⟨guid, enlist ql⟩ }) +
      shared loot.questItems loot.questOpen + loot.playerFFAItems.left (fun _ => true) +
      loot.playerQuestItems.left loot.questFFA = _
    rw [hshared, hcount, units]
    omega

theorem units_fillQuestLoot
    (hnew : loot.playerQuestItems.find? guid = none)
    (honce : ∀ x ∈ loot.questPicks proto guid a, x.1.freeforall = false →
      x.1.isBlocked = loot.playerQuestItems.lists x.2) :
    ∃ n, (loot.fillQuestLoot proto guid a).units = loot.units + n ∧
      (loot.fillQuestLoot proto guid a).unlootedCount = loot.unlootedCount + .ofNat n := by
  rw [fillQuestLoot]
  by_cases hnil : (loot.questPicks proto guid a).isEmpty
  · rw [if_pos hnil]
    exact ⟨0, rfl, (UInt8.add_zero _).symm⟩
  · rw [if_neg hnil]
    refine ⟨_, ?_, rfl⟩
    have hsub := questPicks_sublist proto loot guid a
    have hpick : ∀ x ∈ loot.questPicks proto guid a, x.1.isLooted = false :=
      fun x hx => of_mem_questPicks proto hx
    set ql := loot.questPicks proto guid a with hql
    -- both branches of the blocking mark what was picked
    obtain ⟨mark, hmark, hloot, hffa⟩ : ∃ mark : LootItem → LootItem,
        (if blocksQuestItems a then markPicked ql LootItem.markBlocked loot.questItems
          else loot.questItems) = markPicked ql mark loot.questItems ∧
        (∀ item, (mark item).isLooted = item.isLooted) ∧
        ∀ item, (mark item).freeforall = item.freeforall := by
      by_cases hb : blocksQuestItems a
      · exact ⟨LootItem.markBlocked, if_pos hb, fun _ => rfl, fun _ => rfl⟩
      · exact ⟨id, (if_neg hb).trans (markPicked_id ql loot.questItems).symm, fun _ => rfl, fun _ => rfl⟩
    rw [hmark]
    have hlists := QuestItemMap.lists_put loot.playerQuestItems hnew ql
    have hopen : ∀ x : LootItem × ℕ, questOpen
        { loot with playerQuestItems := loot.playerQuestItems.put ⟨guid, enlist ql⟩ } x =
          (loot.questOpen x || ql.any fun y => y.2 = x.2) := fun x => hlists x.2
    have hshared := shared_markPicked hsub hloot hffa hpick (o := loot.questOpen)
      (p := questOpen
        { loot with playerQuestItems := loot.playerQuestItems.put ⟨guid, enlist ql⟩ })
      (fun x hx => by
        rw [hopen, Bool.or_eq_true]
        exact .inr (List.any_eq_true.mpr ⟨x, hx, by simp⟩))
      (fun x hx hout => by
        rw [hopen, any_index_iff hsub hx]
        simp [hout])
    have hffaSame : (fun i : ℕ => (markPicked ql mark loot.questItems)[i]?.any (·.freeforall)) =
        loot.questFFA := by
      funext i
      rw [markPicked_getElem?, questFFA]
      cases loot.questItems[i]? with
      | none => rfl
      | some item =>
        show (if (item, i) ∈ ql then mark item else item).freeforall = item.freeforall
        split
        · exact hffa item
        · rfl
    have hleft := QuestItemMap.left_put loot.playerQuestItems hnew ql loot.questFFA
    have hcount : (ql.countP fun x => x.1.freeforall || !x.1.isBlocked) =
        (ql.countP fun x => !x.1.freeforall && !loot.questOpen x) +
          ql.countP fun x => loot.questFFA x.2 := by
      refine countP_split fun x hx => ?_
      have hx' := List.mk_mem_zipIdx_iff_getElem?.mp (hsub.subset hx)
      have hq : loot.questFFA x.2 = x.1.freeforall := by simp [questFFA, hx']
      rw [hq, questOpen]
      cases hf : x.1.freeforall with
      | true => simp
      | false => simp [honce x hx hf]
    show shared loot.items loot.itemOpen + shared (markPicked ql mark loot.questItems) (questOpen
        { loot with playerQuestItems := loot.playerQuestItems.put ⟨guid, enlist ql⟩ }) +
      loot.playerFFAItems.left (fun _ => true) +
      QuestItemMap.left (loot.playerQuestItems.put ⟨guid, enlist ql⟩)
        (fun i => (markPicked ql mark loot.questItems)[i]?.any (·.freeforall)) = _
    rw [hshared, hffaSame, hleft, hcount, units]
    omega

end Fills

/-- The counter is the number of units modulo 256, and the two flags that the fill routines go by
say whether an entry is on a list. -/
structure Counted (loot : Loot) : Prop where
  wf : loot.WellFormed
  counted : ∀ (i : ℕ) item, loot.items[i]? = some item → item.freeforall = false →
    item.conditions.isEmpty = false → item.isCounted = loot.playerConditionalItems.lists i
  blocked : ∀ (i : ℕ) item, loot.questItems[i]? = some item → item.isBlocked = true →
    loot.playerQuestItems.lists i = true
  count : loot.unlootedCount = .ofNat loot.units

theorem Counted.new (gold : ℕ) : (Loot.new gold).Counted where
  wf := .new gold
  counted := by simp [Loot.new]
  blocked := by simp [Loot.new]
  count := rfl

section Preserved
variable {proto : ℕ → Option ItemTemplate} {loot : Loot}

theorem not_lists_length {m : QuestItemMap} {entries : List LootItem} {kind : LootItem → Bool}
    (h : Listing m entries kind) : m.lists entries.length = false := by
  rw [← Bool.not_eq_true, QuestItemMap.lists_iff]
  rintro ⟨row, hrow, q, hq, hidx⟩
  have hin := (h row hrow).2.2 q hq
  simp [hidx] at hin

theorem Counted.addStacks {p : ItemTemplate} {item : LootStoreItem}
    (hproto : proto item.itemid = some p) (n count : ℕ) (h : loot.Counted) :
    (loot.addStacks proto p item n count).Counted := by
  induction n generalizing loot count with
  | zero => exact h
  | succ n ih =>
    have hwf : (loot.addStacks proto p item 1 count).WellFormed := h.wf.addStacks p item 1 count
    rw [Loot.addStacks]
    rw [Loot.addStacks] at hwf
    set generated := LootItem.ofStore proto item (min count p.maxStackSize) with hgen
    by_cases hq : item.needsQuest
    · simp only [if_pos hq] at hwf ⊢
      by_cases hlim : loot.questItems.length < MAX_NR_QUEST_ITEMS
      · simp only [if_pos hlim] at hwf ⊢
        have hnot := not_lists_length h.wf.quest
        refine ih _ ⟨hwf, h.counted, ?_, ?_⟩
        · intro i x hx hblocked
          rcases Nat.lt_or_ge i loot.questItems.length with hlt | hge
          · rw [List.getElem?_append_left hlt] at hx
            exact h.blocked i x hx hblocked
          · rw [List.getElem?_append_right hge, List.getElem?_singleton] at hx
            split at hx
            · cases hx
              exact absurd hblocked (by simp [hgen, LootItem.ofStore])
            · cases hx
        · have hffa : QuestItemMap.left loot.playerQuestItems
              (fun i : ℕ => (loot.questItems ++ [generated])[i]?.any (·.freeforall)) =
                loot.playerQuestItems.left loot.questFFA := by
            refine QuestItemMap.left_congr _ fun row hrow q hqin => ?_
            have hin := (h.wf.quest row hrow).2.2 q hqin
            have hlt : q.index < loot.questItems.length := by
              by_contra hge
              simp [List.getElem?_eq_none (Nat.le_of_not_lt hge)] at hin
            rw [List.getElem?_append_left hlt, questFFA]
          have happend := shared_append loot.questItems generated loot.questOpen
          rw [questOpen, hnot] at happend
          simp only [Bool.and_false, Bool.false_eq_true, if_false, Nat.add_zero] at happend
          show loot.unlootedCount = .ofNat (shared loot.items loot.itemOpen +
            shared (loot.questItems ++ [generated]) loot.questOpen +
            loot.playerFFAItems.left (fun _ => true) + loot.playerQuestItems.left
              (fun i : ℕ => (loot.questItems ++ [generated])[i]?.any (·.freeforall)))
          rw [happend, hffa]
          exact h.count
      · rw [if_neg hlim]
        exact h
    · simp only [if_neg hq] at hwf ⊢
      by_cases hlim : loot.items.length < MAX_NR_LOOT_ITEMS
      · simp only [if_pos hlim] at hwf ⊢
        have hnot := not_lists_length h.wf.conditional
        refine ih _ ⟨hwf, ?_, h.blocked, ?_⟩
        · intro i x hx hffa hcond
          rcases Nat.lt_or_ge i loot.items.length with hlt | hge
          · rw [List.getElem?_append_left hlt] at hx
            exact h.counted i x hx hffa hcond
          · rw [List.getElem?_append_right hge, List.getElem?_singleton] at hx
            split at hx
            · cases hx
              have hi : i = loot.items.length := by omega
              rw [hi, hnot, hgen, LootItem.ofStore]
            · cases hx
        · have happend := shared_append loot.items generated loot.itemOpen
          have hopen : (!generated.isLooted && !generated.freeforall &&
              loot.itemOpen (generated, loot.items.length)) =
                (item.conditions.isEmpty && !p.partyLoot) := by
            rw [itemOpen, hnot, hgen, LootItem.ofStore]
            simp [hproto, Bool.and_comm]
          rw [hopen] at happend
          show (if item.conditions.isEmpty && !p.partyLoot then loot.unlootedCount + 1
              else loot.unlootedCount) = .ofNat (shared (loot.items ++ [generated]) loot.itemOpen +
            shared loot.questItems loot.questOpen + loot.playerFFAItems.left (fun _ => true) +
            loot.playerQuestItems.left loot.questFFA)
          have hcount := h.count
          rw [units] at hcount
          rw [happend]
          split
          · rw [hcount, show (1 : UInt8) = .ofNat 1 from rfl, ← UInt8.ofNat_add]
            congr 1
            omega
          · rw [hcount]
            congr 1
      · rw [if_neg hlim]
        exact h

theorem Counted.addItem (h : loot.Counted) (item : LootStoreItem) (count : ℕ) :
    (loot.addItem proto item count).Counted := by
  rw [Loot.addItem]
  cases hproto : proto item.itemid with
  | none => exact h
  | some p => exact h.addStacks hproto _ count

theorem count_add (h : loot.Counted) (hadd : ∃ n, loot'.units = loot.units + n ∧
    loot'.unlootedCount = loot.unlootedCount + .ofNat n) : loot'.unlootedCount = .ofNat loot'.units := by
  obtain ⟨n, hunits, hcount⟩ := hadd
  rw [hcount, hunits, h.count, UInt8.ofNat_add]

theorem Counted.fillFFALootOnce (h : loot.Counted) (guid : ℕ) (a : Answers) :
    (loot.fillFFALootOnce proto guid a).Counted := by
  have hwf : (loot.fillFFALootOnce proto guid a).WellFormed := h.wf.fillFFALootOnce guid a
  rw [Loot.fillFFALootOnce] at hwf ⊢
  split
  · exact h
  · rename_i hnew
    rw [if_neg hnew] at hwf
    refine ⟨hwf, ?_, ?_, count_add h (units_fillFFALoot proto (by simpa using hnew))⟩
    · rw [Loot.fillFFALoot]
      split <;> exact h.counted
    · rw [Loot.fillFFALoot]
      split <;> exact h.blocked

theorem Counted.fillConditionalLootOnce (h : loot.Counted) (guid : ℕ) (a : Answers) :
    (loot.fillConditionalLootOnce proto guid a).Counted := by
  have hwf : (loot.fillConditionalLootOnce proto guid a).WellFormed := h.wf.fillConditionalLootOnce guid a
  rw [Loot.fillConditionalLootOnce] at hwf ⊢
  split
  · exact h
  · rename_i hnew
    rw [if_neg hnew] at hwf
    have hnone : loot.playerConditionalItems.find? guid = none := by simpa using hnew
    refine ⟨hwf, ?_, ?_, count_add h (units_fillConditionalLoot proto hnone h.counted)⟩
    · rw [Loot.fillConditionalLoot]
      by_cases hnil : (loot.conditionalPicks proto guid a).isEmpty
      · rw [if_pos hnil]
        exact h.counted
      · rw [if_neg hnil]
        intro i x hx hffa hcond
        have hsub := conditionalPicks_sublist proto loot guid a
        set ql := loot.conditionalPicks proto guid a
        have hx' : (loot.items[i]?.map fun item =>
            if (item, i) ∈ ql then LootItem.markCounted item else item) = some x :=
          (markPicked_getElem? ql LootItem.markCounted loot.items i).symm.trans hx
        obtain ⟨item, hitem, rfl⟩ := Option.map_eq_some_iff.mp hx'
        show _ = QuestItemMap.lists (loot.playerConditionalItems.put ⟨guid, enlist ql⟩) i
        rw [QuestItemMap.lists_put _ hnone,
          any_index_iff hsub (x := (item, i)) (List.mk_mem_zipIdx_iff_getElem?.mpr hitem)]
        by_cases hin : (item, i) ∈ ql
        · simp [hin, LootItem.markCounted]
        · rw [if_neg hin] at hffa hcond ⊢
          simp [hin, h.counted i item hitem hffa hcond]
    · rw [Loot.fillConditionalLoot]
      split <;> exact h.blocked

def ListsOnce (proto : ℕ → Option ItemTemplate) (loot : Loot) (guid : ℕ) (a : Answers) : Prop :=
  (loot.playerQuestItems.find? guid).isSome = true ∨ ∀ x ∈ loot.questPicks proto guid a,
    x.1.freeforall = false → x.1.isBlocked = false → loot.playerQuestItems.lists x.2 = false

theorem Counted.fillQuestLootOnce (h : loot.Counted)
    (honce : loot.ListsOnce proto guid a) : (loot.fillQuestLootOnce proto guid a).Counted := by
  have hwf : (loot.fillQuestLootOnce proto guid a).WellFormed := h.wf.fillQuestLootOnce guid a
  rw [Loot.fillQuestLootOnce] at hwf ⊢
  split
  · exact h
  · rename_i hnew
    rw [if_neg hnew] at hwf
    have hnone : loot.playerQuestItems.find? guid = none := by simpa using hnew
    have hsub := questPicks_sublist proto loot guid a
    have hflag : ∀ x ∈ loot.questPicks proto guid a, x.1.freeforall = false →
        x.1.isBlocked = loot.playerQuestItems.lists x.2 := by
      intro x hx hffa
      have hx' := List.mk_mem_zipIdx_iff_getElem?.mp (hsub.subset hx)
      cases hb : x.1.isBlocked with
      | true => exact (h.blocked _ _ hx' hb).symm
      | false => exact (honce.resolve_left hnew x hx hffa hb).symm
    refine ⟨hwf, ?_, ?_, count_add h (units_fillQuestLoot proto hnone hflag)⟩
    · rw [Loot.fillQuestLoot]
      split <;> exact h.counted
    · rw [Loot.fillQuestLoot]
      by_cases hnil : (loot.questPicks proto guid a).isEmpty
      · rw [if_pos hnil]
        exact h.blocked
      · rw [if_neg hnil]
        intro i x hx hblocked
        set ql := loot.questPicks proto guid a
        show QuestItemMap.lists (loot.playerQuestItems.put ⟨guid, enlist ql⟩) i = true
        rw [QuestItemMap.lists_put _ hnone, Bool.or_eq_true]
        by_cases hb : blocksQuestItems a
        · simp only [if_pos hb] at hx
          rw [markPicked_getElem?] at hx
          obtain ⟨item, hitem, rfl⟩ := Option.map_eq_some_iff.mp hx
          by_cases hin : (item, i) ∈ ql
          · exact .inr (List.any_eq_true.mpr ⟨_, hin, by simp⟩)
          · rw [if_neg hin] at hblocked
            exact .inl (h.blocked i item hitem hblocked)
        · simp only [if_neg hb] at hx
          exact .inl (h.blocked i x hx hblocked)

theorem Counted.fillLists (h : loot.Counted)
    (honce : loot.ListsOnce proto guid a) : (loot.fillLists proto guid a).Counted :=
  ((h.fillQuestLootOnce honce).fillFFALootOnce guid a).fillConditionalLootOnce guid a

theorem entry_of_take {f : Found} {p : Place} {x : LootItem}
    (h : (loot.take guid f).entry p = some x) : ∃ item, loot.entry p = some item ∧
      x.freeforall = item.freeforall ∧ x.conditions = item.conditions ∧
      x.isCounted = item.isCounted ∧ x.isBlocked = item.isBlocked := by
  rw [entry_take] at h
  split at h
  · obtain ⟨item, hitem, rfl⟩ := Option.map_eq_some_iff.mp h
    exact ⟨item, hitem, rfl, rfl, rfl, rfl⟩
  · exact ⟨x, h, rfl, rfl, rfl, rfl⟩

theorem Counted.take (h : loot.Counted) {guid slot : ℕ} {f : Found}
    (hres : loot.Resolves guid slot f) (hf : Untaken f) : (loot.take guid f).Counted := by
  have hunits := units_take hres hf
  refine ⟨h.wf.take guid f, ?_, ?_, ?_⟩
  · intro i x hx hffa hcond
    obtain ⟨item, hitem, h1, h2, h3, -⟩ := entry_of_take (p := .item i) hx
    rw [(lists_loot_take loot guid f i).2.2, h3]
    exact h.counted i item hitem (h1 ▸ hffa) (h2 ▸ hcond)
  · intro i x hx hblocked
    obtain ⟨item, hitem, -, -, -, h4⟩ := entry_of_take (p := .quest i) hx
    rw [(lists_loot_take loot guid f i).1]
    exact h.blocked i item hitem (h4 ▸ hblocked)
  · rw [unlootedCount_take, h.count, ← hunits, UInt8.ofNat_add]
    exact UInt8.add_sub_cancel _ _

def StoresUntaken (proto : ℕ → Option ItemTemplate) (loot : Loot) (guid : ℕ) (a : Answers)
    (slot : ℕ) : Prop :=
  ∀ f ∈ loot.grant proto guid a slot,
    a.canStoreNewItem f.item.itemid f.item.count = EQUIP_ERR_OK → Untaken f

theorem Counted.handOver (h : loot.Counted) (p : Place) (guid : ℕ) (item : LootItem) :
    (loot.handOver p guid item).Counted :=
  ⟨⟨h.wf.itemsSize, h.wf.questSize, h.wf.quest, h.wf.ffa, h.wf.conditional⟩, h.counted, h.blocked,
    h.count⟩

theorem Counted.storeLootItem (h : loot.Counted) {guid slot : ℕ}
    (hok : loot.StoresUntaken proto guid a slot) : (loot.storeLootItem proto guid a slot).Counted := by
  rw [Loot.storeLootItem]
  cases hgrant : loot.grant proto guid a slot with
  | none => exact h
  | some f =>
    dsimp only
    split
    · rename_i hroom
      exact (h.take (resolves_of_grant hgrant).1 (hok f hgrant hroom)).handOver f.place guid f.item
    · exact h

/-- A round of the loop for currency whose call of `StoreLootItem`, if any, meets `ok`. -/
def TokenOk (proto : ℕ → Option ItemTemplate) (ok : Loot → ℕ → Answers → ℕ → Prop) (v : Visitor)
    (loot : Loot) (i : ℕ) : Prop :=
  loot.currencyAt proto i (v.answers (i + 1)) = true → ok loot v.guid (v.answers (i + 1)) i

theorem Counted.storeCurrency (h : loot.Counted) {v : Visitor} {i : ℕ}
    (hok : TokenOk proto (StoresUntaken proto) v loot i) : (loot.storeCurrency proto v i).Counted := by
  rw [Loot.storeCurrency]
  split
  · rename_i hc
    exact h.storeLootItem (hok hc)
  · exact h

def TokensOk (proto : ℕ → Option ItemTemplate) (ok : Loot → ℕ → Answers → ℕ → Prop) (loot : Loot)
    (v : Visitor) : Prop :=
  v.present = true → along (storeCurrency proto v) (TokenOk proto ok v)
    (List.range ((loot.fillLists proto v.guid (v.answers 0)).maxSlotInLootFor v.guid))
    (loot.fillLists proto v.guid (v.answers 0))

def VisitOk (proto : ℕ → Option ItemTemplate) (loot : Loot) (v : Visitor) : Prop :=
  loot.ListsOnce proto v.guid (v.answers 0) ∧ TokensOk proto (StoresUntaken proto) loot v

def FillOk (proto : ℕ → Option ItemTemplate) (ok : Loot → Visitor → Prop) (loot : Loot)
    (f : Filling) : Prop :=
  if (f.owner.answers 0).group.isSome ∧ f.personal = false then
    along (fillNotNormalLootFor proto) ok f.members
      { loot.process proto f.drops with roundRobinPlayer := f.owner.guid }
  else ok (loot.process proto f.drops) { f.owner with present := true }

theorem Counted.fillNotNormalLootFor (h : loot.Counted) {v : Visitor} (hok : loot.VisitOk proto v) :
    (loot.fillNotNormalLootFor proto v).Counted := by
  have hlists := h.fillLists hok.1
  rw [Loot.fillNotNormalLootFor]
  split
  · rename_i hpresent
    exact along.invariant (fun loot i (h : loot.Counted) hok => h.storeCurrency hok) hlists
      (hok.2 hpresent)
  · exact hlists

theorem Counted.process (h : loot.Counted) (drops : List (LootStoreItem × ℕ)) :
    (loot.process proto drops).Counted := by
  induction drops generalizing loot with
  | nil => exact h
  | cons drop drops ih => exact ih (h.addItem drop.1 drop.2)

theorem Counted.markUnderthreshold (h : loot.Counted) (lootThreshold : ℕ) :
    (loot.markUnderthreshold proto lootThreshold).Counted := by
  refine ⟨h.wf.markUnderthreshold _, ?_, h.blocked, ?_⟩
  · intro i x hx hffa hcond
    rw [Loot.markUnderthreshold, List.getElem?_map] at hx
    obtain ⟨item, hitem, rfl⟩ := Option.map_eq_some_iff.mp hx
    split at hffa
    · rw [if_pos ‹_›] at hcond ⊢
      exact h.counted i item hitem hffa hcond
    · rw [if_neg ‹_›] at hcond ⊢
      exact h.counted i item hitem hffa hcond
  · have hshared : shared (loot.markUnderthreshold proto lootThreshold).items loot.itemOpen =
        shared loot.items loot.itemOpen := by
      rw [shared, Loot.markUnderthreshold, List.zipIdx_map, List.countP_map]
      refine List.countP_congr fun x _ => ?_
      simp only [Function.comp_apply, Prod.map, itemOpen]
      split <;> rfl
    show loot.unlootedCount = .ofNat (shared (loot.markUnderthreshold proto lootThreshold).items
      loot.itemOpen + shared loot.questItems loot.questOpen + loot.playerFFAItems.left (fun _ => true) +
      loot.playerQuestItems.left loot.questFFA)
    rw [hshared]
    exact h.count

theorem fillLoot_invariant {P : Loot → Prop} {ok : Loot → Visitor → Prop} {f : Filling}
    (hdrops : P (loot.process proto f.drops))
    (hrobin : P { loot.process proto f.drops with roundRobinPlayer := f.owner.guid })
    (hvisit : ∀ {loot v}, P loot → ok loot v → P (loot.fillNotNormalLootFor proto v))
    (hmark : ∀ {loot} n, P loot → P (loot.markUnderthreshold proto n)) (hok : FillOk proto ok loot f) :
    P (loot.fillLoot proto f) := by
  rw [FillOk] at hok
  rw [Loot.fillLoot]
  dsimp only
  split
  · rename_i group hgroup hpersonal
    rw [if_pos ⟨by simp [hgroup], hpersonal⟩] at hok
    exact hmark _ (along.invariant (fun _ _ => hvisit) hrobin hok)
  · rename_i hnone
    rw [if_neg] at hok
    · exact hvisit hdrops hok
    · rintro ⟨hsome, hpersonal⟩
      obtain ⟨group, hgroup⟩ := Option.isSome_iff_exists.mp hsome
      exact hnone group hgroup hpersonal

theorem Counted.fillLoot (h : loot.Counted) {f : Filling}
    (hok : FillOk proto (VisitOk proto) loot f) : (loot.fillLoot proto f).Counted := by
  have hdrops : (loot.process proto f.drops).Counted := h.process f.drops
  refine fillLoot_invariant hdrops ?_ (fun h hok => h.fillNotNormalLootFor hok) (fun n h => h.markUnderthreshold n) hok
  exact ⟨⟨hdrops.wf.itemsSize, hdrops.wf.questSize, hdrops.wf.quest, hdrops.wf.ffa, hdrops.wf.conditional⟩,
    hdrops.counted, hdrops.blocked, hdrops.count⟩

end Preserved

/-- What happens to a loot. A client stores only what his window lets him take. -/
inductive Event where
  | fillLoot (f : Filling)
  | fillNotNormalLootFor (v : Visitor)
  | storeLootItem (v : Viewer) (slot : ℕ)
  | takeMoney

section Runs
variable (proto : ℕ → Option ItemTemplate)

def step (loot : Loot) : Event → Option Loot
  | .fillLoot f => some (loot.fillLoot proto f)
  | .fillNotNormalLootFor v => some (loot.fillNotNormalLootFor proto v)
  | .storeLootItem v slot =>
    guarded (loot.shows proto v slot = true) (loot.storeLootItem proto v.guid v.answers slot)
  | .takeMoney => some { loot with gold := 0 }

def Unfilled (loot : Loot) : Prop := ∃ gold, loot = .new gold

def Accounted (loot : Loot) : Prop :=
  loot.unlootedCount.toNat = loot.units ∧ (loot.isLooted = true ↔ loot.gold = 0 ∧ loot.units = 0)

def Fills (loot : Loot) : Event → Prop
  | .fillLoot f => FillOk proto (VisitOk proto) loot f
  | .fillNotNormalLootFor v => loot.VisitOk proto v
  | _ => True

variable {proto} {loot : Loot}

theorem Counted.step (h : loot.Counted) {e : Event} {t : Loot} (hok : loot.Fills proto e)
    (hs : loot.step proto e = some t) : t.Counted := by
  cases e with
  | fillLoot f =>
    cases hs
    exact h.fillLoot hok
  | fillNotNormalLootFor v =>
    cases hs
    exact h.fillNotNormalLootFor hok
  | storeLootItem v slot =>
    obtain ⟨hshow, rfl⟩ := guarded_eq_some.mp hs
    exact h.storeLootItem fun f hf _ => untaken_of_shows h.wf hshow hf
  | takeMoney =>
    cases hs
    exact ⟨⟨h.wf.itemsSize, h.wf.questSize, h.wf.quest, h.wf.ffa, h.wf.conditional⟩, h.counted,
      h.blocked, h.count⟩

theorem Counted.accounted_iff (h : loot.Counted) : loot.Accounted ↔ loot.units < 256 := by
  constructor
  · intro hacc
    rw [← hacc.1]
    exact loot.unlootedCount.toNat_lt
  · intro hsmall
    have hcount : loot.unlootedCount.toNat = loot.units := by
      rw [h.count, UInt8.toNat_ofNat']
      exact Nat.mod_eq_of_lt hsmall
    refine ⟨hcount, ?_⟩
    rw [isLooted, Bool.and_eq_true, decide_eq_true_iff, decide_eq_true_iff, ← hcount,
      ← UInt8.toNat_inj]
    rfl

/-- In every state of every run whose fills list no entry for one player twice and store only
units, `unlootedCount` is the number of units modulo 256, and so exact where there are at most 255. -/
theorem accounted_of_reaches (h : Reaches (step proto) (Fills proto) Unfilled loot) :
    loot.unlootedCount = .ofNat loot.units ∧ (loot.Accounted ↔ loot.units < 256) := by
  have hcounted : loot.Counted := by
    refine Reaches.invariant (I := Counted) ?_ (fun s e t hs hok hstep => hs.step hok hstep) h
    rintro _ ⟨gold, rfl⟩
    exact .new gold
  exact ⟨hcounted.count, hcounted.accounted_iff⟩

end Runs

section Samples

instance (proto : ℕ → Option ItemTemplate) (loot : Loot) (guid : ℕ) (a : Answers) :
    Decidable (loot.ListsOnce proto guid a) := inferInstanceAs (Decidable (_ ∨ _))

instance (proto : ℕ → Option ItemTemplate) (loot : Loot) (guid : ℕ) (a : Answers) (slot : ℕ) :
    Decidable (loot.StoresUntaken proto guid a slot) :=
  inferInstanceAs (Decidable (∀ f ∈ loot.grant proto guid a slot,
    a.canStoreNewItem f.item.itemid f.item.count = EQUIP_ERR_OK → Untaken f))

section
variable (proto : ℕ → Option ItemTemplate) (ok : Loot → ℕ → Answers → ℕ → Prop)
  [∀ loot guid a slot, Decidable (ok loot guid a slot)]

instance (v : Visitor) (loot : Loot) (i : ℕ) : Decidable (TokenOk proto ok v loot i) :=
  inferInstanceAs (Decidable (_ → _))

instance (loot : Loot) (v : Visitor) : Decidable (TokensOk proto ok loot v) :=
  inferInstanceAs (Decidable (_ → along ..))

end

instance (proto : ℕ → Option ItemTemplate) (loot : Loot) (v : Visitor) :
    Decidable (loot.VisitOk proto v) := inferInstanceAs (Decidable (_ ∧ _))

instance (proto : ℕ → Option ItemTemplate) (ok : Loot → Visitor → Prop) [∀ l v, Decidable (ok l v)]
    (loot : Loot) (f : Filling) : Decidable (FillOk proto ok loot f) :=
  inferInstanceAs (Decidable (if (f.owner.answers 0).group.isSome ∧ f.personal = false then
    along (fillNotNormalLootFor proto) ok f.members
      { loot.process proto f.drops with roundRobinPlayer := f.owner.guid }
    else ok (loot.process proto f.drops) { f.owner with present := true }))

instance (proto : ℕ → Option ItemTemplate) (loot : Loot) : ∀ e, Decidable (loot.Fills proto e)
  | .fillLoot f => inferInstanceAs (Decidable (FillOk proto _ loot f))
  | .fillNotNormalLootFor v => inferInstanceAs (Decidable (loot.VisitOk proto v))
  | .storeLootItem _ _ | .takeMoney => isTrue trivial

theorem accounted_of_reaches_taken : ∃ loot, Reaches (step ordinary) (Fills ordinary)
    Unfilled loot ∧ loot.units = 1 ∧ Accounted loot := by
  have hstart : Unfilled (Loot.new 0) := ⟨0, rfl⟩
  obtain ⟨loot, hloot, h⟩ := Reaches.exists_of_replay (step ordinary) (Fills ordinary) hstart
    [.fillLoot (sampleFilling .freeForAll),
      .storeLootItem ⟨1, member .freeForAll, .all, by simp⟩ 0]
    (by decide +kernel) (fun loot => decide (loot.units = 1)) (by decide +kernel)
  have hunits := of_decide_eq_true h
  exact ⟨loot, hloot, hunits, (accounted_of_reaches hloot).2.mpr (by rw [hunits]; decide)⟩

theorem counted_twice : ¬ ∀ proto loot, Reaches (step proto) anyStep Unfilled loot →
    Accounted loot := by
  intro hall
  have hstart : Unfilled (Loot.new 0) := ⟨0, rfl⟩
  obtain ⟨loot, hloot, h⟩ := Reaches.exists_of_replay (step ordinary) anyStep hstart
    [.fillLoot (sampleFilling .groupLoot)] (replayOk_anyStep ..)
    (fun loot => decide (loot.unlootedCount = 3 ∧ loot.units = 2)) (by decide +kernel)
  obtain ⟨hcount, hunits⟩ := of_decide_eq_true h
  have hacc := (hall ordinary loot hloot).1
  rw [hcount, hunits] at hacc
  exact absurd hacc (by decide)

end Samples

end Loot

end HysteriaCore.Looting
