import HysteriaCore.Containers.Left

/-!
# The loot of a container is generated once

The three copies of what is left in a container agree as long as the item object meets a storage
that is up to date, no quest item is generated, entries are told apart by id and count, the money
is not the last thing left, and the player can hold it. One slice of the world, what it has of one
container, carries the invariant.
-/

namespace HysteriaCore.Containers
open Lib Looting

namespace World

def inMemory (w : World) (node id : ℕ) : List StoredLootItem := (w.lootItemStore node id).getD []

/-- What has come out of a container and what is left in it are the result of one generation, and
the three copies of what is left agree; a destroyed container leaves nothing behind. -/
structure Once (w : World) (id : ℕ) : Prop where
  generated : ((w.generations id).filter (· ≠ [])).length ≤ 1
  taken : (w.taken id).Subperm (w.generations id).flatten
  kept : w.destroyed id = false → (w.taken id ++ rowsOf w.rows id).Perm (w.generations id).flatten
  agree : ∀ item, w.items id = some item → (w.inMemory item.node id).Perm (rowsOf w.rows id) ∧
    (item.lootGenerated = true → item.left.Perm (rowsOf w.rows id))
  gone : w.destroyed id = true → rowsOf w.rows id = [] ∧ w.forfeited id = 0

/-- What a generation makes can be stored: no quest item, and not only entries that the owner cannot
have, without money. -/
def Storable (loot : Loot) : Prop :=
  loot.questItems = [] ∧ (loot.items = [] ∨ loot.isLooted = false)

instance (loot : Loot) : Decidable (Storable loot) := inferInstanceAs (Decidable (_ ∧ _))

def FirstOfKind (l : List StoredLootItem) (s : StoredLootItem) : Prop :=
  ∀ x ∈ l.find? fun x => x.itemid = s.itemid && x.count = s.count, x = s

instance (l : List StoredLootItem) (s : StoredLootItem) : Decidable (FirstOfKind l s) :=
  inferInstanceAs (Decidable (∀ _ ∈ _, _))

/-- The entry is counted, it is not the last one while there is money, and it is the first of its
kind in the storage and in the table. -/
def Removable (w : World) (id : ℕ) (item : Item) (f : Found) : Prop :=
  Loot.Untaken f ∧ (item.loot.unlootedCount = 1 → item.loot.gold = 0) ∧
    FirstOfKind (w.inMemory item.node id) (item.stored f.place f.item) ∧
    FirstOfKind (rowsOf w.rows id) (item.stored f.place f.item)

instance (w : World) (id : ℕ) (item : Item) (f : Found) : Decidable (w.Removable id item f) :=
  inferInstanceAs (Decidable (_ ∧ _ ∧ _ ∧ _))

def Keeps (proto : ℕ → Option ItemTemplate) (w : World) : Event → Prop
  | .load id node _ => (w.inMemory node id).Perm (rowsOf w.rows id)
  | .sendLoot id g => ∀ item ∈ w.items id, item.lootGenerated = false →
      w.lootItemStore item.node id = none → Storable (item.generate proto g).loot
  | .autostoreLootItem id a lootSlot => ∀ item ∈ w.items id,
      ∀ f ∈ item.loot.grant proto item.owner a lootSlot,
        a.canStoreNewItem f.item.itemid f.item.count = EQUIP_ERR_OK → w.Removable id item f
  | .lootMoney id money => ∀ item ∈ w.items id,
      item.loot.gold = 0 ∨ money + item.loot.gold < Objects.maxMoneyAmount
  | _ => True

instance (proto : ℕ → Option ItemTemplate) (w : World) : ∀ e, Decidable (w.Keeps proto e)
  | .load .. => inferInstanceAs (Decidable (List.Perm _ _))
  | .sendLoot .. => inferInstanceAs (Decidable (∀ _ ∈ _, _))
  | .autostoreLootItem .. => inferInstanceAs (Decidable (∀ _ ∈ _, _))
  | .lootMoney .. => inferInstanceAs (Decidable (∀ _ ∈ _, _))
  | .lootRelease .. => isTrue trivial
  | .destroyItem .. => isTrue trivial
  | .restart .. => isTrue trivial

end World

structure Slice where
  store : ℕ → Option (List StoredLootItem)
  rows : List StoredLootItem
  item : Option Item
  destroyed : Bool
  generations : List (List StoredLootItem)
  taken : List StoredLootItem
  forfeited : ℕ

def World.slice (w : World) (id : ℕ) : Slice where
  store := fun node => w.lootItemStore node id
  rows := rowsOf w.rows id
  item := w.items id
  destroyed := w.destroyed id
  generations := w.generations id
  taken := w.taken id
  forfeited := w.forfeited id

namespace Slice
variable {s : Slice} {id : ℕ} {item : Item}

/-- An item object that agrees with the storage of its node and with the table. -/
structure Holds (s : Slice) (id : ℕ) (item : Item) : Prop where
  counted : item.loot.Counted
  mine : item.loot.OwnLists item.owner
  noQuest : item.loot.questItems = []
  made : item.loot.Made (· ≠ 0)
  held : ((s.store item.node).getD []).Perm s.rows
  fresh : item.lootGenerated = false → item.loot = .new 0
  left : item.lootGenerated = true → item.containerId = id ∧ item.left.Perm s.rows
  opened : item.opened = true → item.lootGenerated = true

structure Alive (s : Slice) : Prop where
  alive : s.destroyed = false
  sane : Sane s.rows
  kept : (s.taken ++ s.rows).Perm s.generations.flatten
  once : (s.generations.filter (· ≠ [])).length ≤ 1
  forfeited : s.forfeited = 0

/-- The invariant. A container without rows has never been filled. -/
structure Kept (s : Slice) (id : ℕ) : Prop where
  once : (s.generations.filter (· ≠ [])).length ≤ 1
  taken : s.taken.Subperm s.generations.flatten
  forfeited : s.forfeited = 0
  alive : s.destroyed = false → Sane s.rows ∧ (s.taken ++ s.rows).Perm s.generations.flatten ∧
    (s.rows = [] → s.generations.flatten = [])
  gone : s.destroyed = true → s.rows = [] ∧ s.item = none
  item : ∀ item, s.item = some item → id ≠ 0 ∧ s.Holds id item

theorem Kept.isAlive (h : s.Kept id) (hitem : s.item = some item) : s.Alive := by
  cases hd : s.destroyed with
  | true => exact absurd ((h.gone hd).2.symm.trans hitem) (by simp)
  | false => exact ⟨hd, (h.alive hd).1, (h.alive hd).2.1, h.once, h.forfeited⟩

theorem subperm_of_kept (h : (s.taken ++ s.rows).Perm s.generations.flatten) :
    s.taken.Subperm s.generations.flatten :=
  (List.sublist_append_left s.taken s.rows).subperm.trans h.subperm

theorem Kept.withItem (h : s.Kept id) {old item : Item} (hold : s.item = some old)
    (hholds : s.Holds id item) : Kept { s with item := some item } id where
  once := h.once
  taken := h.taken
  forfeited := h.forfeited
  alive := h.alive
  gone := fun hd => absurd ((h.isAlive hold).alive.symm.trans hd) (by simp)
  item := fun x hx => by
    rw [← Option.some.inj hx]
    exact ⟨(h.item old hold).1, ⟨hholds.counted, hholds.mine, hholds.noQuest, hholds.made,
      hholds.held, hholds.fresh, hholds.left, hholds.opened⟩⟩

/-! ### Loading an object and opening it -/

theorem holds_new {node owner : ℕ} (h : ((s.store node).getD []).Perm s.rows) :
    s.Holds id (.new node owner) where
  counted := .new 0
  mine := fun row hrow => absurd hrow (by simp [Item.new, Loot.new, KeyedList.empty, KeyedList.mem_rows])
  noQuest := rfl
  made := by
    intro p li hli
    cases p <;> simp [Item.new, Loot.new, Loot.entry] at hli
  held := h
  fresh := fun _ => rfl
  left := fun h => absurd h (by simp [Item.new])
  opened := fun h => absurd h (by simp [Item.new])

theorem Kept.load (h : s.Kept id) (hd : s.destroyed = false) (hid : id ≠ 0) {node owner : ℕ}
    (hheld : ((s.store node).getD []).Perm s.rows) :
    Kept { s with item := some (.new node owner) } id where
  once := h.once
  taken := h.taken
  forfeited := h.forfeited
  alive := h.alive
  gone := fun hd' => absurd (hd.symm.trans hd') (by simp)
  item := fun x hx => by
    rw [← Option.some.inj hx]
    exact ⟨hid, holds_new hheld⟩

theorem Kept.reopen (h : s.Kept id) (hitem : s.item = some item) (hgen : item.lootGenerated = true) :
    Kept { s with item := some { item with containerId := id, opened := true } } id := by
  have hi := (h.item item hitem).2
  exact h.withItem hitem ⟨hi.counted, hi.mine, hi.noQuest, hi.made, hi.held, hi.fresh,
    fun _ => ⟨rfl, (hi.left hgen).2⟩, fun _ => hgen⟩

theorem foldl_addStored_frame (l : List StoredLootItem) (item : Item) :
    (l.foldl Item.addStored item).node = item.node ∧ (l.foldl Item.addStored item).owner = item.owner ∧
      (l.foldl Item.addStored item).containerId = item.containerId :=
  foldl_invariant (I := fun x : Item => x.node = item.node ∧ x.owner = item.owner ∧
    x.containerId = item.containerId) (fun x s hx => by
      rw [Item.addStored]
      split <;> exact hx) l ⟨rfl, rfl, rfl⟩

variable {item' : Item}

theorem Kept.loadStored (h : s.Kept id) (hitem : s.item = some item)
    (hgen : item.lootGenerated = false) {l : List StoredLootItem} (hl : s.store item.node = some l)
    (hitem' : item' = l.foldl Item.addStored { item with containerId := id, opened := true }) :
    Kept { s with item := some { item' with lootGenerated := true } } id := by
  have hi := (h.item item hitem).2
  have hheld := hi.held
  rw [hl, Option.getD_some] at hheld
  have hsane : Sane l := (h.isAlive hitem).sane.subperm hheld.subperm
  obtain ⟨hnode, -, hcontainer⟩ := foldl_addStored_frame l { item with containerId := id, opened := true }
  rw [← hitem'] at hnode hcontainer
  have hfresh : ({ item with containerId := id, opened := true } : Item).loot = .new 0 := hi.fresh hgen
  have hloaded : Loaded item' l := hitem' ▸ loaded_foldl hfresh l
  have hleft : ({ item' with lootGenerated := true } : Item).left = moneyEntry (goldOf l) ++ itemsOf l :=
    Item.left_of_loaded ⟨hloaded.loot, hloaded.properties⟩
  refine h.withItem hitem ⟨?_, ?_, ?_, ?_, ?_, fun h => absurd h (by simp), fun _ => ⟨hcontainer, ?_⟩,
    fun _ => rfl⟩
  · show item'.loot.Counted
    rw [hloaded.loot]
    exact storedLoot_counted hsane
  · show item'.loot.OwnLists item'.owner
    rw [hloaded.loot]
    exact (storedLoot_untouched l item'.owner).ownLists
  · show item'.loot.questItems = []
    rw [hloaded.loot]
    rfl
  · show item'.loot.Made _
    rw [hloaded.loot]
    intro p li hli
    cases p with
    | quest i => simp [storedLoot, Loot.new, Loot.entry] at hli
    | item i =>
      obtain ⟨x, hx, rfl⟩ := List.mem_map.mp (List.mem_of_getElem? hli)
      exact of_decide_eq_true (List.mem_filter.mp hx).2
  · show ((s.store item'.node).getD []).Perm s.rows
    rw [hnode]
    exact hi.held
  · rw [hleft]
    exact hsane.perm_parts.trans hheld

theorem Kept.generate (h : s.Kept id) (hitem : s.item = some item)
    (hnone : s.store item.node = none) (hcounted : item'.loot.Counted)
    (huntouched : item'.loot.Untouched item'.owner) (hquest : item'.loot.questItems = [])
    (hmade : item'.loot.Made (· ≠ 0)) (hcontainer : item'.containerId = id)
    (hgen : item'.lootGenerated = true) {store : ℕ → Option (List StoredLootItem)}
    (hstore : ((store item'.node).getD []).Perm item'.left) :
    Kept { s with
      item := some item'
      generations := s.generations ++ [item'.left]
      store := store
      rows := item'.left } id := by
  obtain ⟨hid, hi⟩ := h.item item hitem
  have halive := h.isAlive hitem
  have hrows : s.rows = [] := by
    have hheld := hi.held
    rw [hnone] at hheld
    exact hheld.nil_eq.symm
  have hnever := (h.alive halive.alive).2.2 hrows
  have htaken : s.taken = [] := by
    have hkept := halive.kept
    rw [hnever, List.perm_nil, List.append_eq_nil_iff] at hkept
    exact hkept.1
  have hflat : (s.generations ++ [item'.left]).flatten = item'.left := by
    rw [List.flatten_append, hnever, List.nil_append, List.flatten_singleton]
  have honce : ((s.generations ++ [item'.left]).filter (· ≠ [])).length ≤ 1 := by
    have hold : s.generations.filter (· ≠ []) = [] :=
      List.filter_eq_nil_iff.mpr fun l hl => by simp [List.flatten_eq_nil_iff.mp hnever l hl]
    rw [List.filter_append, hold, List.nil_append]
    exact List.length_filter_le _ _
  refine ⟨honce, ?_, h.forfeited, fun _ => ⟨?_, ?_, fun hnil => hflat.trans hnil⟩, fun hd => ?_,
    fun x hx => ?_⟩
  · show s.taken.Subperm (s.generations ++ [item'.left]).flatten
    rw [htaken]
    exact List.nil_subperm
  · exact Item.left_sane hcounted.wf hmade huntouched hquest
  · show (s.taken ++ item'.left).Perm (s.generations ++ [item'.left]).flatten
    rw [htaken, hflat]
    exact .refl _
  · exact absurd (halive.alive.symm.trans hd) (by simp)
  · rw [← Option.some.inj hx]
    exact ⟨hid, hcounted, huntouched.ownLists, hquest, hmade, hstore,
      fun hno => absurd (hgen.symm.trans hno) (by simp), fun _ => ⟨hcontainer, .refl _⟩, fun _ => hgen⟩

/-! ### Taking and releasing -/

/-- Something has been taken out of an item, which is released next if it is looted. -/
structure Releasing (s : Slice) (id : ℕ) (item : Item) : Prop where
  has : s.item = some item
  positive : id ≠ 0
  alive : s.Alive
  counted : item.loot.Counted
  small : item.loot.units < 256
  generated : item.lootGenerated = true
  holds : item.loot.isLooted = false → s.Holds id item

theorem Kept.remove (h : s.Kept id) (hitem : s.item = some item) (hgen : item.lootGenerated = true)
    (hcontainer : item'.containerId = id) (hgen' : item'.lootGenerated = true)
    (hcounted : item'.loot.Counted) (hmine : item'.loot.OwnLists item'.owner)
    (hquest : item'.loot.questItems = []) (hmade : item'.loot.Made (· ≠ 0))
    (xs rows : List StoredLootItem) (store : ℕ → Option (List StoredLootItem))
    (hleft : item.left.Perm (xs ++ item'.left)) (hrows : s.rows.Perm (xs ++ rows))
    (hstore : item'.loot.isLooted = false → ((store item'.node).getD []).Perm rows) :
    Releasing { s with item := some item', taken := s.taken ++ xs, store := store, rows := rows }
      id item' := by
  obtain ⟨hid, hi⟩ := h.item item hitem
  have halive := h.isAlive hitem
  have hleft' : item'.left.Perm rows :=
    (List.perm_append_left_iff xs).mp (hleft.symm.trans ((hi.left hgen).2.trans hrows))
  have hsane : Sane rows := halive.sane.subperm
    ((List.sublist_append_right xs rows).subperm.trans hrows.symm.subperm)
  have hkept : (s.taken ++ xs ++ rows).Perm s.generations.flatten := by
    rw [List.append_assoc]
    exact (hrows.symm.append_left s.taken).trans halive.kept
  exact ⟨rfl, hid, ⟨halive.alive, hsane, hkept, halive.once, halive.forfeited⟩, hcounted,
    Loot.units_small hcounted.wf hmine hquest, hgen', fun hopen => ⟨hcounted, hmine, hquest, hmade,
      hstore hopen, fun hno => absurd (hgen'.symm.trans hno) (by simp), fun _ => ⟨hcontainer, hleft'⟩,
      fun _ => hgen'⟩⟩

theorem Releasing.kept (h : s.Releasing id item) (hopen : item.loot.isLooted = false) : s.Kept id where
  once := h.alive.once
  taken := subperm_of_kept h.alive.kept
  forfeited := h.alive.forfeited
  alive := fun _ => by
    have hi := h.holds hopen
    refine ⟨h.alive.sane, h.alive.kept, fun hnil => ?_⟩
    have hleft := (hi.left h.generated).2
    rw [hnil, List.perm_nil] at hleft
    have hlooted := Item.isLooted_of_left_eq_nil hi.counted hi.mine hi.noQuest hleft
    exact absurd (hlooted.symm.trans hopen) (by simp)
  gone := fun hd => absurd (h.alive.alive.symm.trans hd) (by simp)
  item := fun x hx => by
    rw [← Option.some.inj (h.has.symm.trans hx)]
    exact ⟨h.positive, h.holds hopen⟩

def destroy (s : Slice) (node : ℕ) : Slice :=
  { s with
    store := Function.update s.store node none
    rows := []
    item := none
    destroyed := true }

theorem Kept.destroy (h : s.Kept id) (node : ℕ) : (s.destroy node).Kept id where
  once := h.once
  taken := h.taken
  forfeited := h.forfeited
  alive := fun hd => absurd hd (by simp [Slice.destroy])
  gone := fun _ => ⟨rfl, rfl⟩
  item := fun x hx => absurd hx (by simp [Slice.destroy])

theorem Releasing.destroy (h : s.Releasing id item) (hlooted : item.loot.isLooted = true) (node : ℕ) :
    Kept { s.destroy node with forfeited := item.loot.units } id where
  once := h.alive.once
  taken := by
    have hsub := subperm_of_kept h.alive.kept
    exact hsub
  forfeited := by
    simp only [Loot.isLooted, Bool.and_eq_true, decide_eq_true_eq] at hlooted
    have hcount := congrArg UInt8.toNat (h.counted.count.symm.trans hlooted.2)
    rw [UInt8.toNat_ofNat_of_lt' h.small] at hcount
    exact hcount
  alive := fun hd => absurd hd (by simp [Slice.destroy])
  gone := fun _ => ⟨rfl, rfl⟩
  item := fun x hx => absurd hx (by simp [Slice.destroy])

theorem Kept.releasing (h : s.Kept id) (hitem : s.item = some item) (hopened : item.opened = true) :
    s.Releasing id item := by
  obtain ⟨hid, hi⟩ := h.item item hitem
  exact ⟨hitem, hid, h.isAlive hitem, hi.counted, Loot.units_small hi.counted.wf hi.mine hi.noQuest,
    hi.opened hopened, fun _ => hi⟩

end Slice

end HysteriaCore.Containers
