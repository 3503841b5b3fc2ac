import HysteriaCore.Containers.Once

/-!
# Runs of containers

Every function of the storage changes the slice of one container. Over any run whose steps keep the
copies in agreement, the loot of each container is that of one generation.
-/

namespace HysteriaCore.Containers
open Lib Looting

namespace World
variable (w : World)

theorem slice_setItem (id : ℕ) (item : Option Item) (id' : ℕ) : (w.setItem id item).slice id' =
    if id' = id then { w.slice id with item := item } else w.slice id' := by
  by_cases h : id' = id
  · subst h
    simp [slice, setItem]
  · simp [slice, setItem, h]

theorem slice_logGeneration (id : ℕ) (contents : List StoredLootItem) (id' : ℕ) :
    (w.logGeneration id contents).slice id' =
      if id' = id then { w.slice id with generations := w.generations id ++ [contents] }
      else w.slice id' := by
  by_cases h : id' = id
  · subst h
    simp [slice, logGeneration]
  · simp [slice, logGeneration, h]

theorem slice_logTaken (id : ℕ) (entries : List StoredLootItem) (id' : ℕ) :
    (w.logTaken id entries).slice id' =
      if id' = id then { w.slice id with taken := w.taken id ++ entries } else w.slice id' := by
  by_cases h : id' = id
  · subst h
    simp [slice, logTaken]
  · simp [slice, logTaken, h]

theorem store_setStore (node id : ℕ) (l : Option (List StoredLootItem)) (id' : ℕ) :
    (fun n => (w.setStore node id l).lootItemStore n id') =
      if id' = id then Function.update (fun n => w.lootItemStore n id) node l
      else fun n => w.lootItemStore n id' := by
  funext n
  by_cases hn : n = node
  · subst hn
    by_cases h : id' = id
    · subst h
      simp [setStore]
    · simp [setStore, h]
  · by_cases h : id' = id
    · subst h
      simp [setStore, hn]
    · simp [setStore, hn, h]

variable {item : Item}

theorem slice_addNewStoredLoot (proto : ℕ → Option ItemTemplate)
    (h : w.lootItemStore item.node item.containerId = none) (id' : ℕ) :
    (w.addNewStoredLoot proto item).slice id' =
      if id' = item.containerId then
        { w.slice item.containerId with
          store := Function.update (w.slice item.containerId).store item.node (some (newStored proto item))
          rows := rowsOf w.rows item.containerId ++ newStored proto item }
      else w.slice id' := by
  rw [addNewStoredLoot, h, if_neg (by simp)]
  have hstore := store_setStore w item.node item.containerId (some (newStored proto item)) id'
  have hrows : rowsOf (w.rows ++ (newStored proto item).map fun s => (item.containerId, s)) id' =
      rowsOf w.rows id' ++ if item.containerId = id' then newStored proto item else [] := by
    rw [rowsOf_append, rowsOf_map]
  by_cases hid : id' = item.containerId
  · subst hid
    rw [if_pos rfl] at hstore hrows ⊢
    dsimp only [slice] at hstore ⊢
    rw [hstore, hrows]
    rfl
  · rw [if_neg hid] at hstore ⊢
    rw [if_neg (Ne.symm hid), List.append_nil] at hrows
    dsimp only [slice] at hstore ⊢
    rw [hstore, hrows]
    rfl

theorem slice_removeStored {test : StoredLootItem → Bool} {l : List StoredLootItem}
    (hl : w.lootItemStore item.node item.containerId = some l) (id' : ℕ) :
    (w.removeStored item test).slice id' =
      if id' = item.containerId then
        { w.slice item.containerId with
          store := Function.update (w.slice item.containerId).store item.node
            (if item.loot.unlootedCount = 0 then none else some (l.eraseP test))
          rows := match l.find? test with
            | none => rowsOf w.rows item.containerId
            | some x => (rowsOf w.rows item.containerId).eraseP fun s =>
                s.itemid = x.itemid && s.count = x.count }
      else w.slice id' := by
  rw [removeStored, hl]
  dsimp only
  generalize (if item.loot.unlootedCount = 0 then none else some (l.eraseP test)) = list
  cases hx : l.find? test with
  | none =>
    dsimp only
    have hstore := store_setStore w item.node item.containerId list id'
    by_cases hid : id' = item.containerId
    · subst hid
      rw [if_pos rfl] at hstore ⊢
      dsimp only [slice]
      rw [hstore]
      rfl
    · rw [if_neg hid] at hstore ⊢
      dsimp only [slice]
      rw [hstore]
      rfl
  | some x =>
    dsimp only
    have hstore := store_setStore (w.removeEntryFromDB item.containerId x.itemid x.count) item.node
      item.containerId list id'
    have hrows := rowsOf_eraseP w.rows item.containerId x.itemid x.count id'
    by_cases hid : id' = item.containerId
    · subst hid
      rw [if_pos rfl] at hstore hrows ⊢
      dsimp only [slice]
      rw [hstore]
      exact congrArg (fun rows => Slice.mk _ rows _ _ _ _ _) hrows
    · rw [if_neg hid] at hstore ⊢
      rw [if_neg (Ne.symm hid)] at hrows
      dsimp only [slice]
      rw [hstore]
      exact congrArg (fun rows => Slice.mk _ rows _ _ _ _ _) hrows

theorem slice_destroyItem (id node id' : ℕ) : (w.destroyItem id node).slice id' =
    if id' = id then (w.slice id).destroy node else w.slice id' := by
  have hstore := store_setStore w node id none id'
  have hrows := rowsOf_filter w.rows id id'
  by_cases hid : id' = id
  · subst hid
    rw [if_pos rfl] at hstore hrows ⊢
    have hitem : Function.update (w.setStore node id' none).items id' none id' = none := Function.update_self ..
    have hdestroyed : Function.update w.destroyed id' true id' = true := Function.update_self ..
    dsimp only [slice, destroyItem, setItem, removeStoredLoot, Slice.destroy] at hstore ⊢
    rw [hstore, hrows, hitem, hdestroyed]
    rfl
  · rw [if_neg hid] at hstore ⊢
    rw [if_neg (Ne.symm hid)] at hrows
    have hitem : Function.update (w.setStore node id none).items id none id' = w.items id' :=
      Function.update_of_ne hid ..
    have hdestroyed : Function.update w.destroyed id true id' = w.destroyed id' :=
      Function.update_of_ne hid ..
    dsimp only [slice, destroyItem, setItem, removeStoredLoot] at hstore ⊢
    rw [hstore, hrows, hitem, hdestroyed]
    rfl

def Kept : Prop := ∀ id, (w.slice id).Kept id

variable {w}

variable {id : ℕ}

theorem Kept.update (h : w.Kept) {t : World} {s : Slice} (hs : s.Kept id)
    (ht : ∀ id', t.slice id' = if id' = id then s else w.slice id') : t.Kept := by
  intro id'
  rw [ht]
  split
  · rename_i heq
    rw [heq]
    exact hs
  · exact h id'

theorem Kept.load (h : w.Kept) {id node : ℕ} (hd : w.destroyed id = false) (hid : id ≠ 0)
    (hheld : (w.inMemory node id).Perm (rowsOf w.rows id)) (owner : ℕ) :
    (w.setItem id (some (.new node owner))).Kept :=
  h.update ((h id).load hd hid hheld) (w.slice_setItem id _)

/-! ### SendLoot -/

section Sending
variable {proto : ℕ → Option ItemTemplate}

variable {g : Generation}

theorem generate_spec (item : Item) (hmade : g.WellMade proto) :
    (item.generate proto g).loot.Counted ∧ (item.generate proto g).loot.Untouched item.owner ∧
      (item.generate proto g).loot.Made (fun itemid => itemid ≠ 0 ∧
        (proto itemid).any (!·.isCurrencyToken) = true) := by
  have hdrops : ∀ drop ∈ g.drops, (proto drop.1.itemid).isSome = true →
      drop.1.itemid ≠ 0 ∧ (proto drop.1.itemid).any (!·.isCurrencyToken) = true := by
    intro drop hdrop hsome
    obtain ⟨hid, hall⟩ := hmade drop hdrop
    obtain ⟨p, hp⟩ := Option.isSome_iff_exists.mp hsome
    rw [hp] at hall ⊢
    exact ⟨hid, hall⟩
  have hno : ∀ itemid, itemid ≠ 0 ∧ (proto itemid).any (!·.isCurrencyToken) = true →
      (proto itemid).any (·.isCurrencyToken) = false := by
    rintro itemid ⟨-, hany⟩
    cases hp : proto itemid with
    | none => rfl
    | some p =>
      rw [hp] at hany
      simpa using hany
  obtain ⟨huntouched, hmade, hcounted⟩ := Loot.fillLoot_personal
    (f := ⟨g.drops, ⟨item.owner, g.answers, true⟩, true, []⟩)
    (P := fun itemid => itemid ≠ 0 ∧ (proto itemid).any (!·.isCurrencyToken) = true) rfl hdrops hno
  exact ⟨hcounted, huntouched, hmade⟩

theorem Kept.generate (h : w.Kept) (hitem : w.items id = some item)
    (hnone : w.lootItemStore item.node id = none) (hmade : g.WellMade proto)
    {item' : Item} (hitem' : item' = ({ item with containerId := id, opened := true } : Item).generate proto g)
    (hstorable : Storable item'.loot) :
    (if 0 < item'.loot.gold || 0 < item'.loot.unlootedCount then
      ((w.setItem id (some item')).logGeneration id item'.left).addNewStoredLoot proto item'
    else (w.setItem id (some item')).logGeneration id item'.left).Kept := by
  obtain ⟨hcounted, huntouched, hmade⟩ :=
    generate_spec { item with containerId := id, opened := true } hmade
  rw [← hitem'] at hcounted huntouched hmade
  have hnode : item'.node = item.node := by rw [hitem', Item.generate]
  have howner : item'.owner = item.owner := by rw [hitem', Item.generate]
  have hcontainer : item'.containerId = id := by rw [hitem', Item.generate]
  have hgen : item'.lootGenerated = true := by rw [hitem', Item.generate]
  have huntouched : item'.loot.Untouched item'.owner := howner ▸ huntouched
  obtain ⟨hquest, hfull⟩ := hstorable
  have hids : item'.loot.Made (· ≠ 0) := fun p li hli => (hmade p li hli).1
  have hrows : rowsOf w.rows id = [] := by
    have hheld := ((h id).item item hitem).2.held
    have hstore : (w.slice id).store item.node = none := hnone
    rw [hstore] at hheld
    exact hheld.nil_eq.symm
  have hkept : ∀ store : ℕ → Option (List StoredLootItem),
      ((store item'.node).getD []).Perm item'.left → Slice.Kept { w.slice id with
        item := some item'
        generations := w.generations id ++ [item'.left]
        store := store
        rows := item'.left } id := fun store hstore =>
    (h id).generate hitem hnone hcounted huntouched hquest hids hcontainer hgen hstore
  have hlog : ∀ id', ((w.setItem id (some item')).logGeneration id item'.left).slice id' =
      if id' = id then { w.slice id with
        item := some item'
        generations := w.generations id ++ [item'.left] } else w.slice id' := by
    intro id'
    rw [slice_logGeneration]
    split
    · rw [slice_setItem, if_pos rfl]
      rfl
    · rename_i hne
      rw [slice_setItem, if_neg hne]
  by_cases hopen : item'.loot.isLooted = true
  · -- nothing was generated, and nothing is stored
    have hgold : item'.loot.gold = 0 ∧ item'.loot.unlootedCount = 0 := by
      simpa [Loot.isLooted] using hopen
    have hitems := hfull.resolve_right (by simp [hopen])
    have hleft : item'.left = [] := by
      rw [Item.left_of_noQuest hquest, hgold.1, hitems]
      rfl
    rw [if_neg (by simp [hgold])]
    refine h.update (hkept (w.slice id).store ?_) fun id' => ?_
    · have hstore : (w.slice id).store item'.node = none := by
        rw [hnode]
        exact hnone
      rw [hstore, hleft]
      exact .refl _
    · rw [hlog, hleft, ← hrows]
      rfl
  · have hopen : item'.loot.isLooted = false := by simpa using hopen
    have hnew : newStored proto item' = item'.left :=
      Item.newStored_eq huntouched hquest hopen fun p li hli => (hmade p li hli).2
    have hcond : (decide (0 < item'.loot.gold) || decide (0 < item'.loot.unlootedCount)) = true := by
      by_contra hno
      simp only [Bool.or_eq_true, decide_eq_true_eq, not_or] at hno
      have hgold : item'.loot.gold = 0 := Nat.eq_zero_of_not_pos hno.1
      have hcount : item'.loot.unlootedCount = 0 := by
        by_contra hne
        exact hno.2 (UInt8.pos_iff_ne_zero.mpr hne)
      simp [Loot.isLooted, hgold, hcount] at hopen
    rw [if_pos hcond]
    have hstore : ((w.setItem id (some item')).logGeneration id item'.left).lootItemStore item'.node
        item'.containerId = none := by
      rw [hcontainer, hnode]
      exact hnone
    refine h.update (hkept (Function.update (w.slice id).store item'.node (some item'.left)) ?_)
      fun id' => ?_
    · rw [Function.update_self]
      exact .refl _
    · rw [slice_addNewStoredLoot _ proto hstore, hcontainer, hnew, hlog, hlog, if_pos rfl]
      split
      · show Slice.mk _ (rowsOf w.rows id ++ item'.left) _ _ _ _ _ = _
        rw [hrows]
        rfl
      · rfl

theorem Kept.sendLoot (h : w.Kept) (hitem : w.items id = some item)
    (hmade : g.WellMade proto) (hok : w.Keeps proto (.sendLoot id g)) : (w.sendLoot proto id item g).Kept := by
  rw [World.sendLoot]
  dsimp only
  cases hgen : item.lootGenerated with
  | true =>
    rw [if_pos rfl]
    refine h.update ?_ (w.slice_setItem id _)
    have hkept := (h id).reopen hitem hgen
    rw [hgen] at hkept
    exact hkept
  | false =>
    rw [if_neg (by simp), loadStoredLoot]
    cases hl : w.lootItemStore item.node id with
    | some l =>
      rw [Option.map_some]
      dsimp only
      refine h.update ?_ (w.slice_setItem id _)
      have hkept := (h id).loadStored hitem hgen hl rfl
      rw [hgen] at hkept
      exact hkept
    | none =>
      rw [Option.map_none]
      dsimp only
      have hstorable : Storable (({ item with containerId := id, opened := true } : Item).generate
          proto g).loot := hok item hitem hgen hl
      rw [hgen] at hstorable
      exact h.generate hitem hl hmade (by rw [hgen]) hstorable

end Sending

/-! ### Taking something out -/

def ReleasingAt (w : World) (id : ℕ) (item : Item) : Prop :=
  (∀ id', id' ≠ id → (w.slice id').Kept id') ∧ (w.slice id).Releasing id item

theorem Kept.releasingAt (h : w.Kept) (hitem : w.items id = some item)
    (hopened : item.opened = true) : w.ReleasingAt id item :=
  ⟨fun id' _ => h id', (h id).releasing hitem hopened⟩

theorem Kept.remove (h : w.Kept) {t : World} {s : Slice}
    (hs : s.Releasing id item) (ht : ∀ id', t.slice id' = if id' = id then s else w.slice id') :
    t.ReleasingAt id item := by
  refine ⟨fun id' hne => ?_, ?_⟩
  · rw [ht, if_neg hne]
    exact h id'
  · rw [ht, if_pos rfl]
    exact hs

theorem find?_of_firstOfKind {l : List StoredLootItem} {s : StoredLootItem} (h : FirstOfKind l s)
    (hs : s ∈ l) : (l.find? fun x => x.itemid = s.itemid && x.count = s.count) = some s := by
  cases hx : l.find? fun x => x.itemid = s.itemid && x.count = s.count with
  | none =>
    have hno := List.find?_eq_none.mp hx s hs
    simp at hno
  | some x => rw [h x hx]

theorem store_of_mem (hi : (w.slice id).Holds id item) {x : StoredLootItem}
    (hx : x ∈ rowsOf w.rows id) :
    ∃ l, w.lootItemStore item.node id = some l ∧ l.Perm (rowsOf w.rows id) := by
  have hheld : ((w.lootItemStore item.node id).getD []).Perm (rowsOf w.rows id) := hi.held
  cases hl : w.lootItemStore item.node id with
  | none =>
    rw [hl] at hheld
    exact absurd (hheld.mem_iff.mpr hx) (by simp)
  | some l =>
    rw [hl] at hheld
    exact ⟨l, rfl, hheld⟩

section Taking
variable {proto : ℕ → Option ItemTemplate}

theorem Kept.storeLootItem (h : w.Kept) (hitem : w.items id = some item)
    (hopened : item.opened = true) {a : Answers} {lootSlot : ℕ}
    (hok : w.Keeps proto (.autostoreLootItem id a lootSlot)) :
    ∃ item', (w.storeLootItem proto id item a lootSlot).ReleasingAt id item' := by
  rw [World.storeLootItem]
  cases hgrant : item.loot.grant proto item.owner a lootSlot with
  | none => exact ⟨item, h.releasingAt hitem hopened⟩
  | some f =>
    dsimp only
    by_cases hroom : a.canStoreNewItem f.item.itemid f.item.count = EQUIP_ERR_OK
    · rw [if_pos hroom]
      obtain ⟨hf, hlast, hmemory, htable⟩ := hok item hitem f hgrant hroom
      have hres := (Loot.resolves_of_grant hgrant).1
      obtain ⟨hid, hi⟩ := (h id).item item hitem
      have hgen := hi.opened hopened
      obtain ⟨hcontainer, hperm⟩ := hi.left hgen
      have hloot : item.loot.storeLootItem proto item.owner a lootSlot =
          (item.loot.take item.owner f).handOver f.place item.owner f.item := by
        rw [Loot.storeLootItem, hgrant]
        exact if_pos hroom
      rw [hloot, if_pos (by omega)]
      let item' : Item := { item with loot := (item.loot.take item.owner f).handOver f.place item.owner f.item }
      have hleft : item.left.Perm ([item.stored f.place f.item] ++ item'.left) :=
        Item.left_take hi.counted.wf hi.noQuest hres hf
      have hrow : item.stored f.place f.item ∈ rowsOf w.rows id :=
        hperm.subset (hleft.mem_iff.mpr (List.mem_append_left _ List.mem_cons_self))
      obtain ⟨l, hl, hlrows⟩ := store_of_mem hi hrow
      have hmemory : FirstOfKind l (item.stored f.place f.item) := by
        rw [inMemory, hl] at hmemory
        exact hmemory
      have hfindl := find?_of_firstOfKind hmemory (hlrows.mem_iff.mpr hrow)
      have hpermr := perm_eraseP_of_find? (find?_of_firstOfKind htable hrow)
      have hperml := perm_eraseP_of_find? hfindl
      -- the list is dropped only where the item is looted
      have hlooted : item'.loot.unlootedCount = 0 → item'.loot.isLooted = true := by
        intro hzero
        have hone : item.loot.unlootedCount = 1 := by
          have hcount : item'.loot.unlootedCount = item.loot.unlootedCount - 1 := Loot.unlootedCount_take ..
          have hadd := congrArg (· + 1) (hcount.symm.trans hzero)
          simpa using hadd
        have hgold : item'.loot.gold = 0 := (Item.gold_take ..).trans (hlast hone)
        simp [Loot.isLooted, hgold, hzero]
      have hmade : item'.loot.Made (· ≠ 0) := by
        intro p li hli
        have hentry := Loot.entry_take item.loot item.owner f p
        have hli' : (item.loot.take item.owner f).entry p = some li := hli
        rw [hli'] at hentry
        split at hentry
        · obtain ⟨old, hold, rfl⟩ := Option.map_eq_some_iff.mp hentry.symm
          exact hi.made p old hold
        · exact hi.made p li hentry.symm
      have hcounted : item'.loot.Counted := (hi.counted.take hres hf).handOver f.place item.owner f.item
      have hmine : item'.loot.OwnLists item'.owner := hi.mine.take f
      have hquest : item'.loot.questItems = [] := Item.questItems_take hi.noQuest item.owner f
      have hnode : item'.node = item.node := rfl
      have hcontainer' : item'.containerId = id := hcontainer
      have hgen' : item'.lootGenerated = true := hgen
      refine ⟨item', h.remove ((h id).remove hitem hgen hcontainer' hgen' hcounted hmine hquest hmade
        [item.stored f.place f.item] _ (Function.update (w.slice id).store item'.node
          (if item'.loot.unlootedCount = 0 then none else some (l.eraseP fun x =>
            x.itemid = f.item.itemid && x.count = f.item.count))) hleft hpermr fun hopen => ?_)
        fun id' => ?_⟩
      · rw [if_neg fun hzero => absurd ((hlooted hzero).symm.trans hopen) (by simp),
          Function.update_self, Option.getD_some]
        exact (List.perm_cons _).mp (hperml.symm.trans (hlrows.trans hpermr))
      · have hstore : ((w.setItem id (some item')).logTaken id
            [item.stored f.place f.item]).lootItemStore item'.node item'.containerId = some l := by
          rw [hcontainer', hnode]
          exact hl
        rw [removeStoredLootItem, slice_removeStored _ hstore, hcontainer']
        split
        · rw [slice_logTaken, if_pos rfl, slice_setItem, if_pos rfl]
          have hfind : (l.find? fun x => x.itemid = f.item.itemid && x.count = f.item.count) =
            some (item.stored f.place f.item) := hfindl
          rw [hfind]
          rfl
        · rename_i hne
          rw [slice_logTaken, if_neg hne, slice_setItem, if_neg hne]
    · rw [if_neg hroom]
      exact ⟨item, h.releasingAt hitem hopened⟩

end Taking

theorem find?_money {l es : List StoredLootItem} {gold : ℕ}
    (hl : l.Perm (⟨0, gold, 0, 0⟩ :: es)) (hes : ∀ s ∈ es, s.itemid ≠ 0) (p : StoredLootItem → Bool)
    (hp : p ⟨0, gold, 0, 0⟩ = true) (hid : ∀ s, p s = true → s.itemid = 0) :
    l.find? p = some ⟨0, gold, 0, 0⟩ := by
  cases hx : l.find? p with
  | none => exact absurd hp (List.find?_eq_none.mp hx _ (hl.mem_iff.mpr List.mem_cons_self))
  | some x =>
    have hin := hl.subset (List.mem_of_find?_eq_some hx)
    rcases List.mem_cons.mp hin with rfl | hin
    · rfl
    · exact absurd (hid x (List.find?_some hx)) (hes x hin)

theorem ids_of_made (hmade : item.loot.Made (· ≠ 0)) :
    ∀ s ∈ (List.range item.loot.items.length).filterMap fun i => item.leftAt (.item i), s.itemid ≠ 0 := by
  intro s hs
  obtain ⟨i, -, hi⟩ := List.mem_filterMap.mp hs
  obtain ⟨li, hli, rfl⟩ := Option.map_eq_some_iff.mp hi
  exact hmade (.item i) li (Loot.freeAt_eq_some.mp hli).1

theorem Kept.lootMoney (h : w.Kept) (hitem : w.items id = some item)
    (hopened : item.opened = true) {money : ℕ}
    (hok : item.loot.gold = 0 ∨ money + item.loot.gold < Objects.maxMoneyAmount) :
    ∃ (t : World) (item' : Item), t.ReleasingAt id item' ∧ w.lootMoney id item money = t.releaseLooted id := by
  obtain ⟨hid, hi⟩ := (h id).item item hitem
  have hgen := hi.opened hopened
  obtain ⟨hcontainer, hperm⟩ := hi.left hgen
  have hreceived : (Objects.modifyMoney money (toInt32 item.loot.gold)).2 - money = item.loot.gold := by
    rcases hok with hzero | hroom
    · rw [hzero]
      exact Nat.sub_self money
    · rw [Objects.modifyMoney_room hroom]
      exact Nat.add_sub_cancel_left ..
  rw [World.lootMoney, hreceived]
  dsimp only
  rw [if_pos (by omega)]
  let item' : Item := { item with loot := { item.loot with gold := 0 } }
  refine ⟨_, item', ?_, rfl⟩
  have hquest : item'.loot.questItems = [] := hi.noQuest
  have hleft' : item'.left = (List.range item.loot.items.length).filterMap fun i =>
      item.leftAt (.item i) := by
    rw [Item.left_of_noQuest hquest]
    rfl
  have hleft : item.left.Perm (moneyEntry item.loot.gold ++ item'.left) := by
    rw [Item.left_of_noQuest hi.noQuest, hleft']
  have hids : ∀ s ∈ item'.left, s.itemid ≠ 0 := by
    rw [hleft']
    exact ids_of_made hi.made
  have hcounted : item'.loot.Counted :=
    ⟨⟨hi.counted.wf.itemsSize, hi.counted.wf.questSize, hi.counted.wf.quest, hi.counted.wf.ffa,
      hi.counted.wf.conditional⟩, hi.counted.counted, hi.counted.blocked, hi.counted.count⟩
  have hmine : item'.loot.OwnLists item'.owner := hi.mine
  have hmade : item'.loot.Made (· ≠ 0) := fun p li hli => hi.made p li (by cases p <;> exact hli)
  have hnode : item'.node = item.node := rfl
  have hcontainer' : item'.containerId = id := hcontainer
  have hgen' : item'.lootGenerated = true := hgen
  have hlooted : item'.loot.unlootedCount = 0 → item'.loot.isLooted = true := by
    intro hzero
    have hgold : item'.loot.gold = 0 := rfl
    simp [Loot.isLooted, hgold, hzero]
  have hslices : ∀ id', ((w.setItem id (some item')).logTaken id (moneyEntry item.loot.gold)).slice id' =
      if id' = id then { w.slice id with
        item := some item'
        taken := w.taken id ++ moneyEntry item.loot.gold } else w.slice id' := by
    intro id'
    rw [slice_logTaken]
    split
    · rw [slice_setItem, if_pos rfl]
      rfl
    · rename_i hne
      rw [slice_setItem, if_neg hne]
  have hat : ((w.setItem id (some item')).logTaken id (moneyEntry item.loot.gold)).lootItemStore
      item'.node item'.containerId = w.lootItemStore item.node id := by
    rw [hcontainer', hnode]
    rfl
  have hrows : (rowsOf w.rows id).Perm (moneyEntry item.loot.gold ++ item'.left) :=
    hperm.symm.trans hleft
  cases hl : w.lootItemStore item.node id with
  | none =>
    -- nothing is stored, and there is no money
    have hheld : ([] : List StoredLootItem).Perm (rowsOf w.rows id) := by
      have hheld := hi.held
      have hnone : (w.slice id).store item.node = none := hl
      rw [hnone] at hheld
      exact hheld
    have hnil := hheld.nil_eq.symm
    rw [hnil] at hrows
    have hparts := List.append_eq_nil_iff.mp hrows.nil_eq.symm
    rw [removeStoredLootMoney, removeStored, hat, hl]
    refine h.remove ((h id).remove hitem hgen hcontainer' hgen' hcounted hmine hquest hmade
      (moneyEntry item.loot.gold) [] (w.slice id).store hleft ?_ fun _ => ?_) fun id' => ?_
    · have hslice : (w.slice id).rows = [] := hnil
      rw [hslice, hparts.1]
      exact .refl _
    · have hnone : (w.slice id).store item'.node = none := by
        rw [hnode]
        exact hl
      rw [hnone]
      exact .refl _
    · rw [hslices, ← hnil]
      rfl
  | some l =>
    have hheld : l.Perm (rowsOf w.rows id) := by
      have hheld := hi.held
      have hsome : (w.slice id).store item.node = some l := hl
      rw [hsome] at hheld
      exact hheld
    -- the money is erased from both, if there is any
    have herase : ∃ rows, (rowsOf w.rows id).Perm (moneyEntry item.loot.gold ++ rows) ∧
        (l.eraseP fun s => s.itemid = 0).Perm rows ∧
        (match l.find? fun s => s.itemid = 0 with
          | none => rowsOf w.rows id
          | some x => (rowsOf w.rows id).eraseP fun s => s.itemid = x.itemid && s.count = x.count) =
            rows := by
      by_cases hgold : item.loot.gold = 0
      · have hno : ∀ s ∈ l, ¬ decide (s.itemid = 0) = true := by
          intro s hs
          have hin := hrows.subset (hheld.subset hs)
          rw [moneyEntry, if_pos hgold, List.nil_append] at hin
          simpa using hids s hin
        have hfind : (l.find? fun s => s.itemid = 0) = none := List.find?_eq_none.mpr hno
        refine ⟨rowsOf w.rows id, ?_, ?_, by rw [hfind]⟩
        · rw [moneyEntry, if_pos hgold]
          exact .refl _
        · rw [List.eraseP_of_forall_not hno]
          exact hheld
      · have hentry : moneyEntry item.loot.gold = [⟨0, item.loot.gold, 0, 0⟩] := if_neg hgold
        rw [hentry] at hrows
        have hfindl := find?_money (hheld.trans hrows) hids (fun s => s.itemid = 0) rfl
          fun s hs => of_decide_eq_true hs
        have hfindr := find?_money hrows hids
          (fun s => s.itemid = 0 && s.count = item.loot.gold) (by simp)
          fun s hs => of_decide_eq_true (Bool.and_eq_true_iff.mp hs).1
        have hpermr := perm_eraseP_of_find? hfindr
        have hperml := perm_eraseP_of_find? hfindl
        refine ⟨_, ?_, ?_, by rw [hfindl]⟩
        · rw [hentry]
          exact hpermr
        · exact (List.perm_cons _).mp (hperml.symm.trans (hheld.trans hpermr))
    obtain ⟨rows, hpermr, hperml, heq⟩ := herase
    refine h.remove ((h id).remove hitem hgen hcontainer' hgen' hcounted hmine hquest hmade
      (moneyEntry item.loot.gold) rows (Function.update (w.slice id).store item'.node
        (if item'.loot.unlootedCount = 0 then none else some (l.eraseP fun s => s.itemid = 0)))
      hleft hpermr fun hopen => ?_) fun id' => ?_
    · rw [if_neg fun hzero => absurd ((hlooted hzero).symm.trans hopen) (by simp),
        Function.update_self, Option.getD_some]
      exact hperml
    · rw [removeStoredLootMoney, slice_removeStored _ (hat.trans hl), hcontainer', hslices, hslices,
        if_pos rfl]
      split
      · rw [← heq]
        rfl
      · rfl


/-! ### Releasing -/

theorem slice_doLootRelease (hlooted : item.loot.isLooted = true) (id id' : ℕ) :
    (w.doLootRelease id item).slice id' =
      if id' = id then { (w.slice id).destroy item.node with forfeited := item.loot.units }
      else w.slice id' := by
  have hslice := slice_destroyItem w id item.node id'
  rw [doLootRelease, if_pos hlooted]
  by_cases hid : id' = id
  · subst hid
    rw [if_pos rfl] at hslice ⊢
    rw [← hslice]
    exact congrArg (Slice.mk _ _ _ _ _ _) (Function.update_self ..)
  · rw [if_neg hid] at hslice ⊢
    rw [← hslice]
    exact congrArg (Slice.mk _ _ _ _ _ _) (Function.update_of_ne hid ..)

theorem ReleasingAt.looted (h : w.ReleasingAt id item)
    (hlooted : item.loot.isLooted = true) : (w.doLootRelease id item).Kept := by
  intro id'
  rw [slice_doLootRelease hlooted]
  split
  · rename_i heq
    subst heq
    exact h.2.destroy hlooted item.node
  · rename_i hne
    exact h.1 id' hne

theorem ReleasingAt.kept (h : w.ReleasingAt id item) (hopen : item.loot.isLooted = false) : w.Kept := by
  intro id'
  by_cases hid : id' = id
  · subst hid
    exact h.2.kept hopen
  · exact h.1 id' hid

theorem ReleasingAt.releaseLooted (h : w.ReleasingAt id item) : (w.releaseLooted id).Kept := by
  have hitem : w.items id = some item := h.2.has
  rw [World.releaseLooted, hitem]
  dsimp only
  cases hlooted : item.loot.isLooted with
  | true => exact h.looted hlooted
  | false => exact h.kept hlooted

theorem Kept.doLootRelease (h : w.Kept) (hitem : w.items id = some item)
    (hopened : item.opened = true) : (w.doLootRelease id item).Kept := by
  cases hlooted : item.loot.isLooted with
  | true => exact (h.releasingAt hitem hopened).looted hlooted
  | false =>
    rw [World.doLootRelease, hlooted, if_neg (by simp)]
    have hi := ((h id).item item hitem).2
    have hholds : (w.slice id).Holds id { item with opened := false } :=
      ⟨hi.counted, hi.mine, hi.noQuest, hi.made, hi.held, hi.fresh, hi.left, fun h => absurd h (by simp)⟩
    exact h.update ((h id).withItem hitem hholds) (w.slice_setItem id _)

theorem Kept.restart (h : w.Kept) (node : ℕ) : Kept { w with
    lootItemStore := Function.update w.lootItemStore node (loadStorageFromDB w.rows)
    items := fun id => (w.items id).filter (·.node ≠ node) } := by
  intro id
  have hk := h id
  refine ⟨hk.once, hk.taken, hk.forfeited, hk.alive, fun hd => ?_, fun item hitem => ?_⟩
  · obtain ⟨hrows, hitem⟩ := hk.gone hd
    have hnone : w.items id = none := hitem
    refine ⟨hrows, ?_⟩
    show (w.items id).filter _ = none
    rw [hnone, Option.filter_none]
  · obtain ⟨hitem, hnode⟩ := Option.filter_eq_some_iff.mp hitem
    have hne : item.node ≠ node := of_decide_eq_true hnode
    obtain ⟨hid, hi⟩ := hk.item item hitem
    refine ⟨hid, hi.counted, hi.mine, hi.noQuest, hi.made, ?_, hi.fresh, hi.left, hi.opened⟩
    show ((Function.update w.lootItemStore node (loadStorageFromDB w.rows) item.node id).getD []).Perm _
    rw [Function.update_of_ne hne]
    exact hi.held

theorem Kept.step {proto : ℕ → Option ItemTemplate} (h : w.Kept) {e : Event} {t : World}
    (hok : w.Keeps proto e) (hs : step proto w e = some t) : t.Kept := by
  cases e with
  | load id node owner =>
    obtain ⟨⟨hd, hid⟩, rfl⟩ := guarded_eq_some.mp hs
    exact h.load hd hid hok owner
  | sendLoot id g =>
    obtain ⟨item, hitem, hs⟩ := Option.bind_eq_some_iff.mp hs
    obtain ⟨⟨-, hmade⟩, rfl⟩ := guarded_eq_some.mp hs
    exact h.sendLoot hitem hmade hok
  | autostoreLootItem id a lootSlot =>
    obtain ⟨item, hitem, hs⟩ := Option.bind_eq_some_iff.mp hs
    obtain ⟨hopened, rfl⟩ := guarded_eq_some.mp hs
    obtain ⟨item', hat⟩ := h.storeLootItem hitem hopened hok
    exact hat.releaseLooted
  | lootMoney id money =>
    obtain ⟨item, hitem, hs⟩ := Option.bind_eq_some_iff.mp hs
    obtain ⟨hopened, rfl⟩ := guarded_eq_some.mp hs
    obtain ⟨t, item', hat, heq⟩ := h.lootMoney hitem hopened (hok item hitem)
    rw [heq]
    exact hat.releaseLooted
  | lootRelease id =>
    obtain ⟨item, hitem, hs⟩ := Option.bind_eq_some_iff.mp hs
    obtain ⟨hopened, rfl⟩ := guarded_eq_some.mp hs
    exact h.doLootRelease hitem hopened
  | destroyItem id =>
    obtain ⟨item, hitem, rfl⟩ := Option.map_eq_some_iff.mp hs
    exact h.update ((h id).destroy item.node) (w.slice_destroyItem id item.node)
  | restart node =>
    cases hs
    exact h.restart node

theorem Kept.started (h : Started w) : w.Kept := by
  subst h
  intro id
  exact ⟨Nat.zero_le _, List.nil_subperm, rfl, fun _ => ⟨⟨Nat.zero_le _, fun s hs => absurd hs (by simp [slice]),
    Nat.zero_le _⟩, .refl _, fun _ => rfl⟩, fun hd => absurd hd (by simp [slice]),
    fun item hitem => absurd hitem (by simp [slice])⟩

theorem Kept.once (h : w.Kept) (id : ℕ) : w.Once id where
  generated := (h id).once
  taken := (h id).taken
  kept := fun hd => ((h id).alive hd).2.1
  agree := fun item hitem => by
    have hi := ((h id).item item hitem).2
    exact ⟨hi.held, fun hgen => (hi.left hgen).2⟩
  gone := fun hd => ⟨((h id).gone hd).1, (h id).forfeited⟩

/-- Over every run whose steps keep the copies in agreement, what comes out of a container is what one
generation put into it, and the copies agree. -/
theorem generatedOnce_of_reaches {proto : ℕ → Option ItemTemplate}
    (h : Reaches (step proto) (Keeps proto) Started w) (id : ℕ) : w.Once id := by
  have hkept : w.Kept := h.invariant (I := Kept) (fun s hs => .started hs)
    fun s e t hs hok hstep => hs.step hok hstep
  exact hkept.once id

end World

section Samples

def alone : Answers :=
  ⟨fun _ => true, fun _ => true, fun _ => false, .alliance, fun _ => false, fun _ => true, none, true,
    fun _ _ => EQUIP_ERR_OK⟩

def sampleGeneration : Generation := ⟨5, [(⟨7, false, []⟩, 1)], fun _ => (0, 0), fun _ => alone⟩

def sampleOpen : List Event := [.load 1 0 1, .sendLoot 1 sampleGeneration]

end Samples

namespace World

theorem generatedOnce_of_reaches_emptied : ∃ w : World,
    Reaches (step Looting.ordinary) (Keeps Looting.ordinary) Started w ∧ w.destroyed 1 = true ∧ w.Once 1 := by
  have hstart : Started _ := rfl
  obtain ⟨w, hw, hd⟩ := Reaches.exists_of_replay (step Looting.ordinary) (Keeps Looting.ordinary)
    hstart (sampleOpen ++ [.lootMoney 1 0, .autostoreLootItem 1 alone 0]) (by decide +kernel)
    (fun w => w.destroyed 1) (by decide +kernel)
  exact ⟨w, hw, hd, generatedOnce_of_reaches hw 1⟩

/-- The item is taken while there is money: the storage forgets the money, and after a relog the
container is filled again. -/
theorem generates_again : ¬ ∀ (proto : ℕ → Option ItemTemplate) (w : World),
    Reaches (step proto) anyStep Started w → ∀ id, w.Once id := by
  intro h
  have hstart : Started _ := rfl
  obtain ⟨w, hw, htwice⟩ := Reaches.exists_of_replay (step Looting.ordinary) anyStep
    hstart (sampleOpen ++ [.autostoreLootItem 1 alone 0, .lootRelease 1, .load 1 0 1,
      .sendLoot 1 sampleGeneration]) (replayOk_anyStep ..)
    (fun w => decide (¬ ((w.generations 1).filter (· ≠ [])).length ≤ 1)) (by decide +kernel)
  exact of_decide_eq_true htwice (h _ w hw 1).generated

end World

end HysteriaCore.Containers
