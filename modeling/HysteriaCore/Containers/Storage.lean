import HysteriaCore.Looting.Remains
import HysteriaCore.Objects.Money

/-!
# The stored loot of item containers (game/Loot/LootItemStorage.cpp; Player::SendLoot,
Player::StoreLootItem, WorldSession::HandleLootMoneyOpcode, DoLootRelease)

What is left in an openable item is kept three times: in the `Loot` of the item object, in the
storage of the node and in the table `item_loot_storage`. The containers of the model hold no
currency tokens, and they are openable items that are neither prospected nor milled.
-/

namespace HysteriaCore.Containers
open Lib Looting

structure StoredLootItem where
  itemid : ℕ
  count : ℕ
  randomPropertyId : ℤ
  randomSuffix : ℕ
  deriving DecidableEq

/-- A `LootItemContainer`: the entries of each container that has a list. -/
abbrev LootItemContainer := ℕ → Option (List StoredLootItem)

abbrev StorageRow := ℕ × StoredLootItem

def moneyEntry (gold : ℕ) : List StoredLootItem := if gold = 0 then [] else [⟨0, gold, 0, 0⟩]

def rowsOf (rows : List StorageRow) (containerId : ℕ) : List StoredLootItem :=
  rows.filterMap fun r => if r.1 = containerId then some r.2 else none

/-- An `Item` object: the node that has it, its owner, its loot and whether the owner looks into it
(`GetLootGUID`). `properties` are the `randomPropertyId` and the `randomSuffix` of each entry. -/
structure Item where
  node : ℕ
  owner : ℕ
  loot : Loot
  properties : Place → ℤ × ℕ
  containerId : ℕ
  lootGenerated : Bool
  opened : Bool

/-- What is drawn for a container: the result of `generateMoneyLoot`, the drops of its template with
their counts and random properties, and what the owner answers meanwhile. -/
structure Generation where
  gold : ℕ
  drops : List (LootStoreItem × ℕ)
  properties : Place → ℤ × ℕ
  answers : ℕ → Answers

/-- `generations`, `taken` and `forfeited` are logs for the proofs: what each generation put into a
container, what came out of it, and the units left in it when the looting destroyed it. -/
structure World where
  lootItemStore : ℕ → LootItemContainer
  rows : List StorageRow
  items : ℕ → Option Item
  destroyed : ℕ → Bool
  generations : ℕ → List (List StoredLootItem)
  taken : ℕ → List StoredLootItem
  forfeited : ℕ → ℕ

namespace Item

def new (node owner : ℕ) : Item where
  node := node
  owner := owner
  loot := .new 0
  properties := fun _ => (0, 0)
  containerId := 0
  lootGenerated := false
  opened := false

def stored (item : Item) (p : Place) (li : LootItem) : StoredLootItem :=
  ⟨li.itemid, li.count, (item.properties p).1, (item.properties p).2⟩

def leftAt (item : Item) (p : Place) : Option StoredLootItem :=
  (item.loot.freeAt item.owner p).map (item.stored p)

def left (item : Item) : List StoredLootItem :=
  moneyEntry item.loot.gold ++
    ((List.range item.loot.items.length).filterMap fun i => item.leftAt (.item i)) ++
    (List.range item.loot.questItems.length).filterMap fun i => item.leftAt (.quest i)

end Item

/-! ### LootItemStorage -/

def addRow (store : LootItemContainer) (r : StorageRow) : LootItemContainer :=
  Function.update store r.1 (some ((store r.1).getD [] ++ [r.2]))

def loadStorageFromDB (rows : List StorageRow) : LootItemContainer := rows.foldl addRow fun _ => none

def StoredLootItem.lootItem (s : StoredLootItem) : LootItem where
  itemid := s.itemid
  conditions := []
  rollWinnerGUID := 0
  count := s.count
  isLooted := false
  isBlocked := false
  freeforall := false
  isUnderthreshold := false
  isCounted := false
  needsQuest := false
  followLootRules := false

def Item.addStored (item : Item) (s : StoredLootItem) : Item :=
  if s.itemid = 0 then { item with loot := { item.loot with gold := s.count } }
  else
    { item with
      loot := { item.loot with
        items := item.loot.items ++ [s.lootItem]
        unlootedCount := item.loot.unlootedCount + 1 }
      properties := Function.update item.properties (.item item.loot.items.length)
        (s.randomPropertyId, s.randomSuffix) }

def loadStoredLoot (store : LootItemContainer) (item : Item) : Option Item :=
  (store item.containerId).map fun itemList =>
    { itemList.foldl Item.addStored item with lootGenerated := true }

def newStored (proto : ℕ → Option ItemTemplate) (item : Item) : List StoredLootItem :=
  moneyEntry item.loot.gold ++
    if item.loot.isLooted then [] else
      (item.loot.items.zipIdx.filter fun x => (proto x.1.itemid).any (!·.isCurrencyToken)).map fun x =>
        item.stored (.item x.2) x.1

namespace World
variable (w : World)

def setItem (id : ℕ) (item : Option Item) : World :=
  { w with items := Function.update w.items id item }

def setStore (node containerId : ℕ) (itemList : Option (List StoredLootItem)) : World :=
  { w with
    lootItemStore := Function.update w.lootItemStore node
      (Function.update (w.lootItemStore node) containerId itemList) }

def addNewStoredLoot (proto : ℕ → Option ItemTemplate) (item : Item) : World :=
  if (w.lootItemStore item.node item.containerId).isSome then w else
  let itemList := newStored proto item
  { w.setStore item.node item.containerId (some itemList) with
    rows := w.rows ++ itemList.map fun s => (item.containerId, s) }

def removeEntryFromDB (containerId itemid count : ℕ) : World :=
  { w with rows := w.rows.eraseP fun r => r.1 = containerId && r.2.itemid = itemid && r.2.count = count }

/-- The common body of the two functions below: the first entry that passes the test is erased here
and in the table, and the list is dropped when no item is left. -/
def removeStored (item : Item) (test : StoredLootItem → Bool) : World :=
  match w.lootItemStore item.node item.containerId with
  | none => w
  | some itemList =>
    let w' := match itemList.find? test with
      | none => w
      | some s => w.removeEntryFromDB item.containerId s.itemid s.count
    w'.setStore item.node item.containerId
      (if item.loot.unlootedCount = 0 then none else some (itemList.eraseP test))

def removeStoredLootItem (item : Item) (itemid count : ℕ) : World :=
  w.removeStored item fun s => s.itemid = itemid && s.count = count

def removeStoredLootMoney (item : Item) : World := w.removeStored item fun s => s.itemid = 0

def removeStoredLoot (node containerId : ℕ) : World :=
  { w.setStore node containerId none with rows := w.rows.filter fun r => r.1 ≠ containerId }

/-! ### Player and WorldSession -/

def destroyItem (id node : ℕ) : World :=
  { (w.removeStoredLoot node id).setItem id none with destroyed := Function.update w.destroyed id true }

def doLootRelease (id : ℕ) (item : Item) : World :=
  if item.loot.isLooted then
    { w.destroyItem id item.node with
      forfeited := Function.update w.forfeited id item.loot.units }
  else w.setItem id (some { item with opened := false })

def logGeneration (id : ℕ) (contents : List StoredLootItem) : World :=
  { w with generations := Function.update w.generations id (w.generations id ++ [contents]) }

def logTaken (id : ℕ) (entries : List StoredLootItem) : World :=
  { w with taken := Function.update w.taken id (w.taken id ++ entries) }

end World

section Opening
variable (proto : ℕ → Option ItemTemplate)

def Item.generate (item : Item) (g : Generation) : Item :=
  { item with
    lootGenerated := true
    loot := (Loot.new g.gold).fillLoot proto ⟨g.drops, ⟨item.owner, g.answers, true⟩, true, []⟩
    properties := g.properties }

namespace World
variable (w : World)

/-- The part of `SendLoot` that is about an openable item. A loot window that is open is released
first, which is an event of its own. -/
def sendLoot (id : ℕ) (item : Item) (g : Generation) : World :=
  let item := { item with containerId := id, opened := true }
  if item.lootGenerated then w.setItem id (some item) else
  match loadStoredLoot (w.lootItemStore item.node) item with
  | some item => w.setItem id (some item)
  | none =>
    let item := item.generate proto g
    let w' := (w.setItem id (some item)).logGeneration id item.left
    if 0 < item.loot.gold || 0 < item.loot.unlootedCount then w'.addNewStoredLoot proto item else w'

def storeLootItem (id : ℕ) (item : Item) (a : Answers) (lootSlot : ℕ) : World :=
  match item.loot.grant proto item.owner a lootSlot with
  | none => w
  | some f =>
    if a.canStoreNewItem f.item.itemid f.item.count = EQUIP_ERR_OK then
      let item' := { item with loot := item.loot.storeLootItem proto item.owner a lootSlot }
      let w' := (w.setItem id (some item')).logTaken id [item.stored f.place f.item]
      if 0 < item.containerId then w'.removeStoredLootItem item' f.item.itemid f.item.count else w'
    else w

def releaseLooted (id : ℕ) : World :=
  match w.items id with
  | none => w
  | some item => if item.loot.isLooted then w.doLootRelease id item else w

def autostoreLootItem (id : ℕ) (item : Item) (a : Answers) (lootSlot : ℕ) : World :=
  (w.storeLootItem proto id item a lootSlot).releaseLooted id

def lootMoney (id : ℕ) (item : Item) (money : ℕ) : World :=
  let received := (Objects.modifyMoney money (toInt32 item.loot.gold)).2 - money
  let item' := { item with loot := { item.loot with gold := 0 } }
  let w' := (w.setItem id (some item')).logTaken id (moneyEntry received)
  (if 0 < item.containerId then w'.removeStoredLootMoney item' else w').releaseLooted id

end World

def Generation.WellMade (g : Generation) : Prop :=
  ∀ drop ∈ g.drops, drop.1.itemid ≠ 0 ∧ (proto drop.1.itemid).all (!·.isCurrencyToken) = true

instance (g : Generation) : Decidable (g.WellMade proto) := inferInstanceAs (Decidable (∀ _ ∈ _, _))

inductive Event where
  /-- a new object of the item, after it was made, a relog or a move to another node -/
  | load (id node owner : ℕ)
  | sendLoot (id : ℕ) (g : Generation)
  | autostoreLootItem (id : ℕ) (a : Answers) (lootSlot : ℕ)
  | lootMoney (id money : ℕ)
  | lootRelease (id : ℕ)
  | destroyItem (id : ℕ)
  | restart (node : ℕ)

def step (w : World) : Event → Option World
  | .load id node owner =>
    guarded (w.destroyed id = false ∧ id ≠ 0) (w.setItem id (some (.new node owner)))
  | .sendLoot id g => (w.items id).bind fun item =>
    guarded (item.opened = false ∧ g.WellMade proto) (w.sendLoot proto id item g)
  | .autostoreLootItem id a lootSlot => (w.items id).bind fun item =>
    guarded (item.opened = true) (w.autostoreLootItem proto id item a lootSlot)
  | .lootMoney id money => (w.items id).bind fun item =>
    guarded (item.opened = true) (w.lootMoney id item money)
  | .lootRelease id => (w.items id).bind fun item =>
    guarded (item.opened = true) (w.doLootRelease id item)
  | .destroyItem id => (w.items id).map fun item => w.destroyItem id item.node
  | .restart node =>
    some { w with
      lootItemStore := Function.update w.lootItemStore node (loadStorageFromDB w.rows)
      items := fun id => (w.items id).filter (·.node ≠ node) }

end Opening

def Started (w : World) : Prop :=
  w = ⟨fun _ _ => none, [], fun _ => none, fun _ => false, fun _ => [], fun _ => [], fun _ => 0⟩

/-! ### The table -/

@[simp] theorem rowsOf_nil (containerId : ℕ) : rowsOf [] containerId = [] := rfl

theorem rowsOf_cons (r : StorageRow) (rows : List StorageRow) (containerId : ℕ) :
    rowsOf (r :: rows) containerId =
      if r.1 = containerId then r.2 :: rowsOf rows containerId else rowsOf rows containerId := by
  rw [rowsOf, rowsOf, List.filterMap_cons]
  by_cases h : r.1 = containerId <;> simp [h]

theorem rowsOf_append (rows rows' : List StorageRow) (containerId : ℕ) :
    rowsOf (rows ++ rows') containerId = rowsOf rows containerId ++ rowsOf rows' containerId :=
  List.filterMap_append

theorem rowsOf_map (l : List StoredLootItem) (id containerId : ℕ) :
    rowsOf (l.map fun s => (id, s)) containerId = if id = containerId then l else [] := by
  induction l with
  | nil => simp
  | cons s l ih =>
    rw [List.map_cons, rowsOf_cons, ih]
    split <;> rfl

theorem rowsOf_filter (rows : List StorageRow) (id containerId : ℕ) :
    rowsOf (rows.filter fun r => r.1 ≠ id) containerId =
      if id = containerId then [] else rowsOf rows containerId := by
  induction rows with
  | nil => simp
  | cons r rows ih =>
    rw [rowsOf_cons, List.filter_cons]
    by_cases hr : r.1 = id
    · rw [if_neg (by simp [hr]), ih, hr]
      split <;> rfl
    · rw [if_pos (by simp [hr]), rowsOf_cons, ih]
      by_cases hid : id = containerId
      · rw [if_pos hid, if_pos hid, if_neg fun h => hr (h.trans hid.symm)]
      · rw [if_neg hid, if_neg hid]

theorem rowsOf_eraseP (rows : List StorageRow) (id itemid count containerId : ℕ) :
    rowsOf (rows.eraseP fun r => r.1 = id && r.2.itemid = itemid && r.2.count = count) containerId =
      if id = containerId then
        (rowsOf rows containerId).eraseP fun s => s.itemid = itemid && s.count = count
      else rowsOf rows containerId := by
  induction rows with
  | nil => simp
  | cons r rows ih =>
    rw [rowsOf_cons, List.eraseP_cons]
    by_cases hr : r.1 = id
    · by_cases hs : (r.2.itemid = itemid && r.2.count = count) = true
      · have htest : (decide (r.1 = id) && decide (r.2.itemid = itemid) && decide (r.2.count = count)) =
            true := by simpa [hr] using hs
        rw [htest, hr]
        by_cases hid : id = containerId
        · simp [hid, hs]
        · simp [hid]
      · have htest : (decide (r.1 = id) && decide (r.2.itemid = itemid) && decide (r.2.count = count)) =
            false := by simpa [hr] using hs
        rw [htest, cond_false, rowsOf_cons, ih, hr]
        by_cases hid : id = containerId
        · simp only [if_pos hid, List.eraseP_cons, Bool.eq_false_iff.mpr hs, cond_false]
        · simp only [if_neg hid]
    · have htest : (decide (r.1 = id) && decide (r.2.itemid = itemid) && decide (r.2.count = count)) =
          false := by simp [hr]
      rw [htest, cond_false, rowsOf_cons, ih]
      by_cases hid : id = containerId
      · have hno : r.1 ≠ containerId := fun h => hr (h.trans hid.symm)
        rw [if_neg hno, if_neg hno, if_pos hid]
      · rw [if_neg hid, if_neg hid]

end HysteriaCore.Containers
