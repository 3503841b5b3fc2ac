import HysteriaCore.Looting.HandOut
import HysteriaCore.Looting.Release
import Mathlib.Algebra.BigOperators.Group.List.Basic

/-!
# What remains in a loot of one player

The loot of a container is filled for its owner alone. An entry that he could still be handed by
its marks remains; taking an entry takes that one away and leaves the others, and where nothing
remains there is no unit left.
-/

namespace HysteriaCore.Looting
open Lib

namespace Loot

def freeAt (loot : Loot) (guid : ℕ) (p : Place) : Option LootItem :=
  (loot.entry p).filter fun item => decide (loot.Free guid p item)

def OwnLists (loot : Loot) (guid : ℕ) : Prop := ∀ row ∈ loot.playerFFAItems, row.guid = guid

/-- Nothing has been taken from a loot that was filled for the player. -/
structure Untouched (loot : Loot) (guid : ℕ) : Prop where
  entry : ∀ p item, loot.entry p = some item → item.isLooted = false
  listed : ∀ row ∈ loot.playerFFAItems, row.guid = guid ∧ ∀ q ∈ row.list, q.isLooted = false

def Made (P : ℕ → Prop) (loot : Loot) : Prop := ∀ p item, loot.entry p = some item → P item.itemid

variable {loot : Loot} {guid : ℕ} {P : ℕ → Prop}

theorem freeAt_eq_some {p : Place} {item : LootItem} :
    loot.freeAt guid p = some item ↔ loot.entry p = some item ∧ loot.Free guid p item := by
  simp [freeAt, Option.filter_eq_some_iff]

theorem freeAt_none_of_entry {p : Place} (h : loot.entry p = none) : loot.freeAt guid p = none := by
  rw [freeAt, h, Option.filter_none]

/-! ### Taking an entry -/

theorem any_modify {α : Type} {p : α → Bool} {f : α → α} {l : List α} {i : ℕ}
    (h : ∀ x, l[i]? = some x → p (f x) = p x) : (l.modify i f).any p = l.any p := by
  induction l generalizing i with
  | nil => simp
  | cons x l ih =>
    cases i with
    | zero => simp [h x rfl]
    | succ i =>
      rw [List.modify_succ_cons, List.any_cons, List.any_cons, ih fun y hy => h y (by simpa using hy)]

theorem any_take_other {m : QuestItemMap} {pos i : ℕ} {q : QuestItem}
    (hq : (m.listOf guid)[pos]? = some q) (hi : q.index ≠ i) :
    ((m.take guid pos).listOf guid).any (fun q' => q'.index = i && q'.isLooted) =
      (m.listOf guid).any fun q' => q'.index = i && q'.isLooted := by
  rw [QuestItemMap.listOf] at hq ⊢
  rw [QuestItemMap.take, KeyedList.find?_adjust, QuestItemMap.listOf]
  cases hrow : m.find? guid with
  | none => rfl
  | some row =>
    rw [hrow] at hq
    simp only [Option.map_some, Option.getD_some, if_true] at hq ⊢
    refine any_modify fun x hx => ?_
    rw [hq, Option.some.injEq] at hx
    subst hx
    simp [hi]

variable {f : Found}

theorem ownTaken_take {slot : ℕ} (hres : loot.Resolves guid slot f) {p : Place}
    (hp : p ≠ f.place) : (loot.take guid f).ownTaken guid p = loot.ownTaken guid p := by
  rw [ownTaken_takeOwn]
  cases hres with
  | @quest pos q item hslot hown hfree hitem =>
    cases p with
    | item i => rfl
    | quest i => exact any_take_other hown fun h => hp (h ▸ rfl)
  | @ffa pos q item hitem hffa hown hfree =>
    obtain ⟨hpos, hidx⟩ := ownEntry_eq_some hown
    cases p with
    | item i => exact any_take_other hpos fun h => hp (congrArg Place.item (h.symm.trans hidx))
    | quest i => rfl
  | conditional => cases p <;> rfl
  | ffaUnlisted => rfl
  | conditionalUnlisted => rfl
  | plain => rfl

theorem fresh_of_untaken (h : Untaken f) :
    if f.item.freeforall then f.own.isSome = true else f.item.isLooted = false := by
  split
  · rename_i hffa
    exact h.1.resolve_right fun h1 => by simp [hffa] at h1
  · rename_i hffa
    exact h.2.resolve_left hffa

theorem freeAt_of_resolves (hwf : loot.WellFormed) {slot : ℕ}
    (hres : loot.Resolves guid slot f) (hf : Untaken f) : loot.freeAt guid f.place = some f.item :=
  have hfree := free_of_resolves hwf hres (fresh_of_untaken hf)
  freeAt_eq_some.mpr ⟨hfree.1, hfree.2.1⟩

theorem freeAt_take {slot : ℕ}
    (hres : loot.Resolves guid slot f) (hf : Untaken f) (p : Place) :
    (loot.take guid f).freeAt guid p = if p = f.place then none else loot.freeAt guid p := by
  by_cases hp : p = f.place
  · subst hp
    rw [if_pos rfl, freeAt, Option.filter_eq_none_iff]
    intro item hitem
    have hentry := entry_take loot guid f f.place
    rw [hitem, entry_of_resolves hres] at hentry
    have hfresh := fresh_of_untaken hf
    cases hffa : f.item.freeforall with
    | true =>
      rw [if_neg (by simp [hffa]), Option.some.injEq] at hentry
      subst hentry
      rw [if_pos hffa] at hfresh
      have hmark := ownTaken_take_self hres hffa hfresh
      simp [Free, hffa, hmark]
    | false =>
      rw [if_pos ⟨rfl, hffa⟩, Option.map_some, Option.some.injEq] at hentry
      subst hentry
      simp [Free, LootItem.markLooted, hffa]
  · have hentry := entry_take loot guid f p
    rw [if_neg fun h => hp h.1.symm] at hentry
    rw [if_neg hp, freeAt, freeAt, hentry]
    congr 1
    funext item
    refine decide_eq_decide.mpr ?_
    simp only [Free, ownTaken_take hres hp]

theorem playerFFAItems_take (loot : Loot) (guid : ℕ) (f : Found) :
    (loot.take guid f).playerFFAItems = (loot.takeOwn guid f.own).playerFFAItems := by
  rw [Loot.take]
  cases f.item.freeforall <;> cases f.place <;> rfl

theorem OwnLists.take (hown : loot.OwnLists guid) (f : Found) : (loot.take guid f).OwnLists guid := by
  intro row hrow
  rw [playerFFAItems_take] at hrow
  cases ho : f.own with
  | none =>
    rw [ho] at hrow
    exact hown row hrow
  | some own =>
    rw [ho] at hrow
    cases own with
    | qitem pos => exact hown row hrow
    | conditem pos => exact hown row hrow
    | ffaitem pos =>
      have hrow : row ∈ loot.playerFFAItems.take guid pos := hrow
      rw [QuestItemMap.take] at hrow
      obtain ⟨old, hmem, rfl⟩ := (KeyedList.mem_adjust ..).mp hrow
      split <;> exact hown old hmem

/-! ### Nothing remains -/

theorem units_of_noQuest (hquest : loot.questItems = []) :
    loot.units = shared loot.items loot.itemOpen + loot.playerFFAItems.left (fun _ => true) := by
  have hshared : shared loot.questItems loot.questOpen = 0 := by
    rw [shared, hquest]
    rfl
  have hleft : loot.playerQuestItems.left loot.questFFA = 0 := by
    refine List.sum_eq_zero fun n hn => ?_
    obtain ⟨row, -, rfl⟩ := List.mem_map.mp hn
    refine List.countP_eq_zero.mpr fun q _ => ?_
    simp [questFFA, hquest]
  rw [units, hshared, hleft, Nat.add_zero, Nat.add_zero]

theorem OwnLists.row (h : loot.OwnLists guid) {row : PlayerItems} (hrow : row ∈ loot.playerFFAItems) :
    row.list = loot.playerFFAItems.listOf guid := by
  have hfind := (loot.playerFFAItems.find?_eq_some_iff guid row).mpr ⟨hrow, h row hrow⟩
  rw [QuestItemMap.listOf, hfind]
  rfl

theorem units_eq_zero (hwf : loot.WellFormed) (hown : loot.OwnLists guid)
    (hquest : loot.questItems = []) (hnone : ∀ p, loot.freeAt guid p = none) : loot.units = 0 := by
  have hgone : ∀ (i : ℕ) item, loot.items[i]? = some item → ¬ loot.Free guid (.item i) item := by
    intro i item hitem hfree
    have hsome : loot.freeAt guid (.item i) = some item := freeAt_eq_some.mpr ⟨hitem, hfree⟩
    rw [hnone] at hsome
    cases hsome
  have hshared : shared loot.items loot.itemOpen = 0 := by
    refine List.countP_eq_zero.mpr fun x hx => ?_
    have hgone := hgone x.2 x.1 (List.mk_mem_zipIdx_iff_getElem?.mp hx)
    cases hffa : x.1.freeforall with
    | true => simp
    | false =>
      have hlooted : x.1.isLooted = true := by simpa [Free, hffa] using hgone
      simp [hlooted]
  have hleft : loot.playerFFAItems.left (fun _ => true) = 0 := by
    refine List.sum_eq_zero fun n hn => ?_
    obtain ⟨row, hrow, rfl⟩ := List.mem_map.mp hn
    obtain ⟨hdistinct, -, hkind⟩ := hwf.ffa row hrow
    refine List.countP_eq_zero.mpr fun q hq => ?_
    cases hitem : loot.items[q.index]? with
    | none =>
      have hkind := hkind q hq
      simp [hitem] at hkind
    | some item =>
      have hkind := hkind q hq
      rw [hitem] at hkind
      have hffa : item.freeforall = true := hkind
      have htaken : loot.ownTaken guid (.item q.index) = true := by
        simpa [Free, hffa] using hgone q.index item hitem
      cases hlooted : q.isLooted with
      | true => simp
      | false =>
        have hnot := any_taken_eq_false hdistinct hq hlooted
        rw [hown.row hrow] at hnot
        exact absurd (htaken.symm.trans hnot) (by simp)
  rw [units_of_noQuest hquest, hshared, hleft]

theorem units_small (hwf : loot.WellFormed) (hown : loot.OwnLists guid)
    (hquest : loot.questItems = []) : loot.units < 256 := by
  have hshared : shared loot.items loot.itemOpen ≤ loot.items.length :=
    List.countP_le_length.trans (by rw [List.length_zipIdx])
  have hleft : loot.playerFFAItems.left (fun _ => true) ≤ MAX_NR_LOOT_ITEMS := by
    rw [QuestItemMap.left]
    cases hl : loot.playerFFAItems.rows with
    | nil => exact Nat.zero_le _
    | cons x l =>
      have hx : x ∈ loot.playerFFAItems := by simp [KeyedList.mem_rows, hl]
      cases l with
      | nil =>
        rw [List.map_singleton, List.sum_singleton]
        exact List.countP_le_length.trans (hwf.ffa x hx).2.1
      | cons y l =>
        -- a second list would be the owner's as well
        have hy : y ∈ loot.playerFFAItems := by simp [KeyedList.mem_rows, hl]
        have hsame := loot.playerFFAItems.eq_of_key_eq hx hy ((hown x hx).trans (hown y hy).symm)
        have hnodup := loot.playerFFAItems.nodup
        simp [hl, hsame] at hnodup
  have hitems := hwf.itemsSize
  rw [units_of_noQuest hquest]
  simp only [MAX_NR_LOOT_ITEMS] at hleft hitems
  omega

/-! ### Filling a loot -/

section Fills
variable {proto : ℕ → Option ItemTemplate}

theorem Untouched.ownLists (h : loot.Untouched guid) : loot.OwnLists guid :=
  fun row hrow => (h.listed row hrow).1

theorem Untouched.freeAt (h : loot.Untouched guid) (i : ℕ) :
    loot.freeAt guid (.item i) = loot.items[i]? := by
  cases hitem : loot.items[i]? with
  | none => exact freeAt_none_of_entry hitem
  | some item =>
    refine freeAt_eq_some.mpr ⟨hitem, ?_⟩
    cases hffa : item.freeforall with
    | false => simp [Free, hffa, h.entry (.item i) item hitem]
    | true =>
      have hown : loot.ownTaken guid (.item i) = false := by
        rw [ownTaken, List.any_eq_false]
        intro q hq
        have hmem : ∃ row ∈ loot.playerFFAItems, q ∈ row.list := by
          have hq : q ∈ loot.playerFFAItems.listOf guid := hq
          rw [QuestItemMap.listOf] at hq
          cases hrow : loot.playerFFAItems.find? guid with
          | none => simp [hrow] at hq
          | some row =>
            rw [hrow] at hq
            exact ⟨row, ((loot.playerFFAItems.find?_eq_some_iff guid row).mp hrow).1, hq⟩
        obtain ⟨row, hrow, hqrow⟩ := hmem
        simp [(h.listed row hrow).2 q hqrow]
      simp [Free, hffa, hown]

theorem Untouched.new (gold guid : ℕ) : (Loot.new gold).Untouched guid where
  entry := by
    intro p item h
    cases p <;> simp [Loot.new, Loot.entry] at h
  listed := fun row hrow => absurd hrow (by simp [Loot.new, KeyedList.empty, KeyedList.mem_rows])

theorem entry_addStacks (p : ItemTemplate) (item : LootStoreItem) (n count : ℕ) (pl : Place)
    {x : LootItem} (h : (loot.addStacks proto p item n count).entry pl = some x) :
    loot.entry pl = some x ∨ (x.isLooted = false ∧ x.itemid = item.itemid) := by
  induction n generalizing loot count with
  | zero => exact .inl h
  | succ n ih =>
    have happend : ∀ (l : List LootItem) (y : LootItem) (i : ℕ), (l ++ [y])[i]? = some x →
        l[i]? = some x ∨ x = y := by
      intro l y i hx
      rw [List.getElem?_append] at hx
      split at hx
      · exact .inl hx
      · rw [List.getElem?_singleton] at hx
        split at hx
        · exact .inr (Option.some.inj hx).symm
        · cases hx
    rw [addStacks] at h
    split at h
    · split at h
      · rcases ih _ h with h | h
        · cases pl with
          | item i => exact .inl h
          | quest i =>
            rcases happend _ _ _ h with h | rfl
            · exact .inl h
            · exact .inr ⟨rfl, rfl⟩
        · exact .inr h
      · exact .inl h
    · split at h
      · rcases ih _ h with h | h
        · cases pl with
          | quest i => exact .inl h
          | item i =>
            rcases happend _ _ _ h with h | rfl
            · exact .inl h
            · exact .inr ⟨rfl, rfl⟩
        · exact .inr h
      · exact .inl h

theorem lists_addStacks (p : ItemTemplate) (item : LootStoreItem) (n count : ℕ) :
    (loot.addStacks proto p item n count).playerFFAItems = loot.playerFFAItems ∧
      (loot.addStacks proto p item n count).playerQuestItems = loot.playerQuestItems := by
  induction n generalizing loot count with
  | zero => exact ⟨rfl, rfl⟩
  | succ n ih =>
    rw [addStacks]
    split
    · split
      · exact ih _
      · exact ⟨rfl, rfl⟩
    · split
      · exact ih _
      · exact ⟨rfl, rfl⟩

theorem lists_process (drops : List (LootStoreItem × ℕ)) :
    (loot.process proto drops).playerFFAItems = loot.playerFFAItems ∧
      (loot.process proto drops).playerQuestItems = loot.playerQuestItems := by
  refine foldl_invariant (I := fun l : Loot => l.playerFFAItems = loot.playerFFAItems ∧
    l.playerQuestItems = loot.playerQuestItems) (fun l drop hl => ?_) drops ⟨rfl, rfl⟩
  rw [addItem]
  split
  · exact hl
  · exact ⟨(lists_addStacks ..).1.trans hl.1, (lists_addStacks ..).2.trans hl.2⟩

theorem Untouched.process (h : loot.Untouched guid) (hmade : loot.Made P)
    (drops : List (LootStoreItem × ℕ)) (hdrops : ∀ drop ∈ drops, (proto drop.1.itemid).isSome = true →
      P drop.1.itemid) :
    (loot.process proto drops).Untouched guid ∧ (loot.process proto drops).Made P := by
  induction drops generalizing loot with
  | nil => exact ⟨h, hmade⟩
  | cons drop drops ih =>
    have hrest := fun drop' hin => hdrops drop' (List.mem_cons_of_mem drop hin)
    cases hproto : proto drop.1.itemid with
    | none =>
      have hsame : loot.addItem proto drop.1 drop.2 = loot := by rw [addItem, hproto]
      rw [Loot.process, List.foldl_cons, hsame]
      exact ih h hmade hrest
    | some p =>
      have hP := hdrops drop List.mem_cons_self (by simp [hproto])
      have hadd : ∀ pl x, (loot.addItem proto drop.1 drop.2).entry pl = some x →
          loot.entry pl = some x ∨ (x.isLooted = false ∧ x.itemid = drop.1.itemid) := by
        intro pl x hx
        rw [addItem, hproto] at hx
        exact entry_addStacks p drop.1 _ _ pl hx
      have hlists : (loot.addItem proto drop.1 drop.2).playerFFAItems = loot.playerFFAItems := by
        rw [addItem, hproto]
        exact (lists_addStacks p drop.1 _ _).1
      refine ih ⟨fun pl x hx => ?_, ?_⟩ (fun pl x hx => ?_) hrest
      · rcases hadd pl x hx with hold | hnew
        · exact h.entry pl x hold
        · exact hnew.1
      · rw [hlists]
        exact h.listed
      · rcases hadd pl x hx with hold | hnew
        · exact hmade pl x hold
        · exact hnew.2 ▸ hP

theorem Untouched.fillLists (h : loot.Untouched guid) (a : Answers) :
    (loot.fillLists proto guid a).Untouched guid := by
  refine ⟨fun p item hitem => ?_, ?_⟩
  · obtain ⟨old, hold, hsame⟩ := (Via.fillLists proto loot guid a).entry p item hitem
    exact hsame.1.trans (h.entry p old hold)
  · have hquest : (loot.fillQuestLootOnce proto guid a).playerFFAItems = loot.playerFFAItems := by
      rw [fillQuestLootOnce]
      split
      · rfl
      · rw [fillQuestLoot]
        split <;> rfl
    have hcond : ∀ l : Loot, (l.fillConditionalLootOnce proto guid a).playerFFAItems =
        l.playerFFAItems := by
      intro l
      rw [fillConditionalLootOnce]
      split
      · rfl
      · rw [fillConditionalLoot]
        split <;> rfl
    rw [Loot.fillLists, hcond, fillFFALootOnce]
    split
    · rw [hquest]
      exact h.listed
    · rw [fillFFALoot]
      split
      · rw [hquest]
        exact h.listed
      · intro row hrow
        rcases (KeyedList.mem_put _ _ _).mp hrow with rfl | ⟨hrow, -⟩
        · refine ⟨rfl, fun q hq => ?_⟩
          obtain ⟨x, -, rfl⟩ := List.mem_map.mp hq
          rfl
        · rw [hquest] at hrow
          exact h.listed row hrow

theorem Made.fillLists (h : loot.Made P) (guid : ℕ) (a : Answers) :
    (loot.fillLists proto guid a).Made P := by
  intro p item hitem
  obtain ⟨old, hold, hsame⟩ := (Via.fillLists proto loot guid a).entry p item hitem
  exact hsame.2 ▸ h p old hold

theorem fillNotNormalLootFor_of_made {v : Visitor}
    (hmade : (loot.fillLists proto v.guid (v.answers 0)).Made fun itemid =>
      (proto itemid).any (·.isCurrencyToken) = false) :
    loot.fillNotNormalLootFor proto v = loot.fillLists proto v.guid (v.answers 0) := by
  have hround : ∀ i, (loot.fillLists proto v.guid (v.answers 0)).storeCurrency proto v i =
      loot.fillLists proto v.guid (v.answers 0) := by
    intro i
    rw [storeCurrency, if_neg]
    have hno : ∀ p, ((loot.fillLists proto v.guid (v.answers 0)).entry p).any
        (fun item => !item.isLooted && item.freeforall && item.allowedForPlayer proto (v.answers (i + 1)) &&
          (proto item.itemid).any (·.isCurrencyToken)) = false := by
      intro p
      cases hitem : (loot.fillLists proto v.guid (v.answers 0)).entry p with
      | none => rfl
      | some item => simp [hmade p item hitem]
    rw [currencyAt]
    split
    · exact fun h => absurd (h.symm.trans (hno (.item i))) (by simp)
    · exact fun h => absurd (h.symm.trans (hno (.quest _))) (by simp)
  rw [fillNotNormalLootFor]
  split
  · have hfold : ∀ is : List ℕ, is.foldl (storeCurrency proto v)
        (loot.fillLists proto v.guid (v.answers 0)) = loot.fillLists proto v.guid (v.answers 0) := by
      intro is
      induction is with
      | nil => rfl
      | cons i is ih => rw [List.foldl_cons, hround i, ih]
    exact hfold _
  · rfl

theorem fillLoot_personal {gold : ℕ} {f : Filling} (hpersonal : f.personal = true)
    (hdrops : ∀ drop ∈ f.drops, (proto drop.1.itemid).isSome = true → P drop.1.itemid)
    (hP : ∀ itemid, P itemid → (proto itemid).any (·.isCurrencyToken) = false) :
    ((Loot.new gold).fillLoot proto f).Untouched f.owner.guid ∧
      ((Loot.new gold).fillLoot proto f).Made P ∧ ((Loot.new gold).fillLoot proto f).Counted := by
  have hnone : (Loot.new gold).Made P := by
    intro p item h
    cases p <;> simp [Loot.new, Loot.entry] at h
  obtain ⟨huntouched, hmade⟩ := (Untouched.new gold f.owner.guid).process hnone f.drops hdrops
  have hlists : (((Loot.new gold).process proto f.drops).fillLists proto f.owner.guid
      (f.owner.answers 0)).Made P := hmade.fillLists _ _
  have hfill : (Loot.new gold).fillLoot proto f =
      ((Loot.new gold).process proto f.drops).fillLists proto f.owner.guid (f.owner.answers 0) := by
    have hvisit : ((Loot.new gold).process proto f.drops).fillNotNormalLootFor proto
        { f.owner with present := true } = _ :=
      fillNotNormalLootFor_of_made fun p item hitem => hP _ (hlists p item hitem)
    rw [Loot.fillLoot, hpersonal]
    split
    · rename_i _ _ hshared
      cases hshared
    · exact hvisit
  have hcounted : ((Loot.new gold).process proto f.drops).Counted := (Counted.new gold).process f.drops
  have honce : ((Loot.new gold).process proto f.drops).ListsOnce proto f.owner.guid
      (f.owner.answers 0) := by
    refine .inr fun x _ _ _ => ?_
    rw [(lists_process f.drops).2]
    rfl
  rw [hfill]
  exact ⟨huntouched.fillLists _, hlists, hcounted.fillLists honce⟩

end Fills

end Loot

end HysteriaCore.Looting
