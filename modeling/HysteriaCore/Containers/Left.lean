import HysteriaCore.Containers.Storage

/-!
# What is left in a container

The entries that are left in a loot, and how they change: a generation leaves all that it made,
loading leaves what was stored, taking an entry leaves the others.
-/

namespace HysteriaCore.Containers
open Lib Looting

/-- A list of stored loot: one amount of money at most, and no more items than a loot holds. -/
structure Sane (l : List StoredLootItem) : Prop where
  money : (l.countP fun s => s.itemid = 0) ≤ 1
  amount : ∀ s ∈ l, s.itemid = 0 → s = ⟨0, s.count, 0, 0⟩ ∧ s.count ≠ 0
  size : (l.countP fun s => s.itemid ≠ 0) ≤ MAX_NR_LOOT_ITEMS

theorem Sane.subperm {l l' : List StoredLootItem} (h : Sane l') (hsub : l.Subperm l') : Sane l where
  money := (hsub.countP_le _).trans h.money
  amount := fun s hs => h.amount s (hsub.subset hs)
  size := (hsub.countP_le _).trans h.size

def goldOf (l : List StoredLootItem) : ℕ :=
  ((l.filter fun s => s.itemid = 0).getLast?.map StoredLootItem.count).getD 0

def itemsOf (l : List StoredLootItem) : List StoredLootItem := l.filter fun s => s.itemid ≠ 0

theorem Sane.perm_parts {l : List StoredLootItem} (h : Sane l) :
    (moneyEntry (goldOf l) ++ itemsOf l).Perm l := by
  have hmoney : moneyEntry (goldOf l) = l.filter fun s => s.itemid = 0 := by
    have hlen : (l.filter fun s => s.itemid = 0).length ≤ 1 := by
      rw [← List.countP_eq_length_filter]
      exact h.money
    rw [goldOf]
    cases hl : l.filter fun s => s.itemid = 0 with
    | nil => rfl
    | cons s rest =>
      have hrest : rest = [] := by simpa [hl] using hlen
      have hs : s ∈ l.filter fun s => s.itemid = 0 := by simp [hl]
      obtain ⟨hin, hid⟩ := List.mem_filter.mp hs
      obtain ⟨heq, hcount⟩ := h.amount s hin (by simpa using hid)
      subst hrest
      show moneyEntry s.count = [s]
      rw [moneyEntry, if_neg hcount, ← heq]
  have hsplit : itemsOf l = l.filter fun s => !decide (s.itemid = 0) := by
    simp [itemsOf]
  rw [hmoney, hsplit]
  exact List.filter_append_perm _ l

theorem goldOf_append (l : List StoredLootItem) (s : StoredLootItem) :
    goldOf (l ++ [s]) = if s.itemid = 0 then s.count else goldOf l := by
  rw [goldOf, goldOf, List.filter_append, List.filter_singleton]
  by_cases h : s.itemid = 0 <;> simp [h]

theorem itemsOf_append (l : List StoredLootItem) (s : StoredLootItem) :
    itemsOf (l ++ [s]) = if s.itemid = 0 then itemsOf l else itemsOf l ++ [s] := by
  rw [itemsOf, itemsOf, List.filter_append, List.filter_singleton]
  by_cases h : s.itemid = 0 <;> simp [h]

/-! ### Loading -/

def storedLoot (l : List StoredLootItem) : Loot :=
  { Loot.new (goldOf l) with
    items := (itemsOf l).map StoredLootItem.lootItem
    unlootedCount := .ofNat (itemsOf l).length }

structure Loaded (item : Item) (l : List StoredLootItem) : Prop where
  loot : item.loot = storedLoot l
  properties : ∀ (i : ℕ) s, (itemsOf l)[i]? = some s →
    item.properties (.item i) = (s.randomPropertyId, s.randomSuffix)

theorem Loaded.addStored {item : Item} {l : List StoredLootItem} (h : Loaded item l)
    (s : StoredLootItem) : Loaded (item.addStored s) (l ++ [s]) := by
  rw [Item.addStored]
  by_cases hs : s.itemid = 0
  · rw [if_pos hs]
    refine ⟨?_, ?_⟩
    · show { item.loot with gold := s.count } = _
      rw [h.loot, storedLoot, storedLoot, itemsOf_append, goldOf_append, if_pos hs, if_pos hs]
      rfl
    · rw [itemsOf_append, if_pos hs]
      exact h.properties
  · rw [if_neg hs]
    refine ⟨?_, ?_⟩
    · show { item.loot with
        items := item.loot.items ++ [s.lootItem]
        unlootedCount := item.loot.unlootedCount + 1 } = _
      rw [h.loot, storedLoot, storedLoot, itemsOf_append, goldOf_append, if_neg hs, if_neg hs,
        List.map_append, List.length_append, UInt8.ofNat_add]
      rfl
    · intro i x hx
      have hlen : item.loot.items.length = (itemsOf l).length := by
        rw [h.loot]
        exact List.length_map ..
      rw [itemsOf_append, if_neg hs, List.getElem?_append] at hx
      show Function.update item.properties (.item item.loot.items.length) _ (.item i) = _
      split at hx
      · rename_i hlt
        rw [Function.update_of_ne fun hi => by
          rw [Place.item.injEq] at hi
          omega]
        exact h.properties i x hx
      · rename_i hge
        rw [List.getElem?_singleton] at hx
        split at hx
        · have hi : i = item.loot.items.length := by omega
          rw [hi, Function.update_self, ← Option.some.inj hx]
        · cases hx

theorem loaded_foldl {item : Item} (h : item.loot = .new 0) (l : List StoredLootItem) :
    Loaded (l.foldl Item.addStored item) l := by
  induction l using List.reverseRecOn with
  | nil => exact ⟨h, by simp [itemsOf]⟩
  | append_singleton l s ih =>
    rw [List.foldl_append]
    exact ih.addStored s

theorem storedLoot_untouched (l : List StoredLootItem) (guid : ℕ) : (storedLoot l).Untouched guid where
  entry := by
    intro p li hli
    cases p with
    | item i =>
      obtain ⟨s, -, rfl⟩ := List.mem_map.mp (List.mem_of_getElem? hli)
      rfl
    | quest i => simp [storedLoot, Loot.new, Loot.entry] at hli
  listed := (Loot.Untouched.new (goldOf l) guid).listed

theorem storedLoot_counted {l : List StoredLootItem} (h : Sane l) : (storedLoot l).Counted where
  wf := by
    refine ⟨?_, Nat.zero_le _, .empty _ _, .empty _ _, .empty _ _⟩
    show ((itemsOf l).map StoredLootItem.lootItem).length ≤ _
    rw [List.length_map, itemsOf, ← List.countP_eq_length_filter]
    exact h.size
  counted := by
    intro i li hli _ hcond
    obtain ⟨s, -, rfl⟩ := List.mem_map.mp (List.mem_of_getElem? hli)
    cases hcond
  blocked := by simp [storedLoot, Loot.new]
  count := by
    have hshared : shared (storedLoot l).items (storedLoot l).itemOpen = (itemsOf l).length := by
      rw [shared, List.countP_eq_length.mpr]
      · rw [List.length_zipIdx]
        exact List.length_map ..
      · intro x hx
        have hli := List.mem_of_getElem? (List.mk_mem_zipIdx_iff_getElem?.mp hx)
        obtain ⟨s, -, hs⟩ := List.mem_map.mp hli
        simp [Loot.itemOpen, ← hs, StoredLootItem.lootItem]
    rw [Loot.units_of_noQuest rfl, hshared]
    rfl

/-! ### The entries that are left -/

namespace Item
variable {item : Item}

theorem left_of_noQuest (hquest : item.loot.questItems = []) : item.left =
    moneyEntry item.loot.gold ++
      (List.range item.loot.items.length).filterMap fun i => item.leftAt (.item i) := by
  rw [left, hquest]
  exact List.append_nil _

theorem left_of_untouched (h : item.loot.Untouched item.owner) (hquest : item.loot.questItems = []) :
    item.left = moneyEntry item.loot.gold ++
      item.loot.items.mapIdx fun i li => item.stored (.item i) li := by
  rw [left_of_noQuest hquest, ← filterMap_range_getElem?]
  congr 2
  funext i
  rw [leftAt, h.freeAt]

theorem left_of_loaded {l : List StoredLootItem} (h : Loaded item l) :
    item.left = moneyEntry (goldOf l) ++ itemsOf l := by
  have hitems : (item.loot.items.mapIdx fun i li => item.stored (.item i) li) = itemsOf l := by
    rw [h.loot]
    refine List.ext_getElem? fun i => ?_
    rw [List.getElem?_mapIdx]
    show Option.map _ (((itemsOf l).map StoredLootItem.lootItem)[i]?) = _
    rw [List.getElem?_map]
    cases hs : (itemsOf l)[i]? with
    | none => rfl
    | some s =>
      simp only [Option.map_some, Option.some.injEq, stored, h.properties i s hs]
      rfl
  have huntouched : item.loot.Untouched item.owner := by
    rw [h.loot]
    exact storedLoot_untouched l _
  rw [left_of_untouched huntouched (by rw [h.loot]; rfl), hitems, h.loot]
  rfl

theorem isLooted_of_left_eq_nil (hcounted : item.loot.Counted) (hmine : item.loot.OwnLists item.owner)
    (hquest : item.loot.questItems = []) (h : item.left = []) : item.loot.isLooted = true := by
  rw [left_of_noQuest hquest, List.append_eq_nil_iff] at h
  obtain ⟨hmoney, hentries⟩ := h
  have hgold : item.loot.gold = 0 := by
    by_contra hne
    simp [moneyEntry, hne] at hmoney
  have hnone : ∀ p, item.loot.freeAt item.owner p = none := by
    intro p
    cases p with
    | quest i => exact Loot.freeAt_none_of_entry (by simp [Loot.entry, hquest])
    | item i =>
      rcases Nat.lt_or_ge i item.loot.items.length with hlt | hge
      · have hat := List.filterMap_eq_nil_iff.mp hentries i (List.mem_range.mpr hlt)
        rw [leftAt, Option.map_eq_none_iff] at hat
        exact hat
      · exact Loot.freeAt_none_of_entry (List.getElem?_eq_none hge)
  have hunits := Loot.units_eq_zero hcounted.wf hmine hquest hnone
  have hcount := hcounted.count
  rw [hunits] at hcount
  simp [Loot.isLooted, hgold, hcount]

theorem left_sane (hwf : item.loot.WellFormed) (hmade : item.loot.Made (· ≠ 0))
    (huntouched : item.loot.Untouched item.owner) (hquest : item.loot.questItems = []) :
    Sane item.left := by
  rw [left_of_untouched huntouched hquest]
  have hids : ∀ s ∈ item.loot.items.mapIdx fun i li => item.stored (.item i) li, s.itemid ≠ 0 := by
    intro s hs
    obtain ⟨i, hi, rfl⟩ := List.mem_mapIdx.mp hs
    exact hmade (.item i) _ (List.getElem?_eq_getElem hi)
  have hmoney : (moneyEntry item.loot.gold).length ≤ 1 := by
    rw [moneyEntry]
    split <;> simp
  refine ⟨?_, fun s hs hid => ?_, ?_⟩
  · have hzero := List.countP_eq_zero (p := fun s : StoredLootItem => decide (s.itemid = 0)).mpr
      fun s hs => by simpa using hids s hs
    rw [List.countP_append, hzero]
    exact List.countP_le_length.trans hmoney
  · rcases List.mem_append.mp hs with hs | hs
    · rw [moneyEntry] at hs
      split at hs
      · cases hs
      · rename_i hne
        rw [List.mem_singleton.mp hs]
        exact ⟨rfl, hne⟩
    · exact absurd hid (hids s hs)
  · have hzero : (moneyEntry item.loot.gold).countP (fun s => s.itemid ≠ 0) = 0 := by
      rw [moneyEntry]
      split <;> rfl
    rw [List.countP_append, hzero, Nat.zero_add]
    refine List.countP_le_length.trans ?_
    rw [List.length_mapIdx]
    exact hwf.itemsSize

theorem newStored_eq {proto : ℕ → Option ItemTemplate} (huntouched : item.loot.Untouched item.owner)
    (hquest : item.loot.questItems = []) (hopen : item.loot.isLooted = false)
    (hmade : item.loot.Made fun itemid => (proto itemid).any (!·.isCurrencyToken) = true) :
    newStored proto item = item.left := by
  have hall : (item.loot.items.zipIdx.filter fun x =>
      (proto x.1.itemid).any (!·.isCurrencyToken)) = item.loot.items.zipIdx :=
    List.filter_eq_self.mpr fun x hx =>
      hmade (.item x.2) x.1 (List.mk_mem_zipIdx_iff_getElem?.mp hx)
  rw [newStored, left_of_untouched huntouched hquest, hopen, hall, List.mapIdx_eq_zipIdx_map]
  rfl

theorem gold_take (loot : Loot) (guid : ℕ) (f : Found) : (loot.take guid f).gold = loot.gold := by
  have hown : (loot.takeOwn guid f.own).gold = loot.gold := by
    rcases f.own with _ | own
    · rfl
    · cases own <;> rfl
  rw [Loot.take]
  cases f.item.freeforall <;> cases f.place <;> exact hown

theorem questItems_take {loot : Loot} (hquest : loot.questItems = []) (guid : ℕ) (f : Found) :
    (loot.take guid f).questItems = [] := by
  refine List.eq_nil_iff_forall_not_mem.mpr fun li hli => ?_
  obtain ⟨i, hi⟩ := List.getElem?_of_mem hli
  have hold : loot.entry (.quest i) = none := by simp [Loot.entry, hquest]
  have hnew : (loot.take guid f).entry (.quest i) = some li := hi
  rw [Loot.entry_take, hold] at hnew
  split at hnew <;> cases hnew

theorem left_take {slot : ℕ} {f : Found} (hwf : item.loot.WellFormed)
    (hquest : item.loot.questItems = []) (hres : item.loot.Resolves item.owner slot f)
    (hf : Loot.Untaken f) : item.left.Perm (item.stored f.place f.item :: { item with
      loot := (item.loot.take item.owner f).handOver f.place item.owner f.item }.left) := by
  have hentry := Loot.entry_of_resolves hres
  have hfree := Loot.freeAt_take hres hf
  have hquest' : ((item.loot.take item.owner f).handOver f.place item.owner f.item).questItems = [] :=
    questItems_take hquest item.owner f
  rw [left_of_noQuest hquest, left_of_noQuest hquest']
  show (moneyEntry item.loot.gold ++ _).Perm (_ :: (moneyEntry (item.loot.take item.owner f).gold ++
    (List.range (item.loot.take item.owner f).items.length).filterMap _))
  rw [gold_take, (Loot.Via.take item.loot item.owner f).length]
  refine List.Perm.trans (.append_left _ ?_) List.perm_middle
  cases hp : f.place with
  | quest i => simp [hp, Loot.entry, hquest] at hentry
  | item i =>
    rw [hp] at hentry hfree
    have hlt := (List.getElem?_eq_some_iff.mp hentry).1
    refine filterMap_perm_cons List.nodup_range (List.mem_range.mpr hlt) ?_ ?_ fun j hj => ?_
    · have hsome := Loot.freeAt_of_resolves hwf hres hf
      rw [hp] at hsome
      rw [leftAt, hsome]
      rfl
    · show ((item.loot.take item.owner f).freeAt item.owner (.item i)).map _ = none
      rw [hfree, if_pos rfl]
      rfl
    · show ((item.loot.take item.owner f).freeAt item.owner (.item j)).map _ = _
      rw [hfree, if_neg (by simpa using hj)]
      rfl

end Item

end HysteriaCore.Containers
