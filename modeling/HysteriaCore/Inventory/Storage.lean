import HysteriaCore.Lib.KeyedList
import HysteriaCore.Lib.Words

/-!
# The items of a player (game/Entities/Player/Player.cpp, game/Entities/Item)

Items are objects with a guid, and the slots of the player and of the bags point to them. Beside the
pointers the update fields show the guid of the item in each slot, and each item records its slot and
its container. The slots for items that were sold are no part of this: `GetItemByPos` does not look there.
-/

namespace HysteriaCore.Inventory
open Lib

abbrev Guid := ℕ

def INVENTORY_SLOT_BAG_0 : ℕ := 255
def NULL_BAG : ℕ := 0
def NULL_SLOT : ℕ := 255
def EQUIPMENT_SLOT_MAINHAND : ℕ := 15
def EQUIPMENT_SLOT_OFFHAND : ℕ := 16
def EQUIPMENT_SLOT_END : ℕ := 19
def INVENTORY_SLOT_BAG_START : ℕ := 19
def INVENTORY_SLOT_BAG_END : ℕ := 23
def INVENTORY_SLOT_ITEM_START : ℕ := 23
def INVENTORY_SLOT_ITEM_END : ℕ := 39
def BANK_SLOT_ITEM_START : ℕ := 39
def BANK_SLOT_ITEM_END : ℕ := 67
def BANK_SLOT_BAG_START : ℕ := 67
def BANK_SLOT_BAG_END : ℕ := 74
def BUYBACK_SLOT_START : ℕ := 74
def BUYBACK_SLOT_END : ℕ := 86
def KEYRING_SLOT_START : ℕ := 86
def KEYRING_SLOT_END : ℕ := 118
def CURRENCYTOKEN_SLOT_START : ℕ := 118
def CURRENCYTOKEN_SLOT_END : ℕ := 150
def PLAYER_SLOT_END : ℕ := 150

/-- The `EQUIP_ERR_` values that the code here names; the checks outside of it may answer others. -/
inductive InventoryResult where
  | ok
  | itemDoesntGoToSlot
  | nonemptyBagOverOtherBag
  | itemDoesntGoIntoBag
  | cantCarryMoreOfThis
  | itemCantStack
  | itemsCantBeSwapped
  | itemNotFound
  | triedToSplitMoreThanCount
  | couldntSplitItems
  | canOnlyDoWithEmptyBags
  | dontOwnThatItem
  | mustPurchaseThatBagSlot
  | youAreDead
  | cantDoRightNow
  | alreadyLooted
  | inventoryFull
  | bankFull
  | other (code : ℕ)
deriving DecidableEq

/-! ### Items -/

structure ItemTemplate where
  itemClass : ℕ
  subClass : ℕ
  inventoryType : ℕ
  bagFamily : ℕ
  stackable : ℤ
  containerSlots : ℕ
  stackable_le : stackable ≤ 2147483647 := by decide

namespace ItemTemplate
variable (proto : ItemTemplate)

def GetMaxStackSize : ℕ :=
  if proto.stackable = 2147483647 ∨ proto.stackable ≤ 0 then 0x7FFFFFFF - 1 else proto.stackable.toNat

def hasFamily (bit : ℕ) : Bool := proto.bagFamily.testBit bit

def IsCurrencyToken : Bool := proto.hasFamily 13

theorem GetMaxStackSize_lt : proto.GetMaxStackSize < 2 ^ 31 := by
  have hle := proto.stackable_le
  unfold GetMaxStackSize
  split
  · decide
  · omega

theorem GetMaxStackSize_pos : 1 ≤ proto.GetMaxStackSize := by
  unfold GetMaxStackSize
  split
  · decide
  · omega

end ItemTemplate

def ItemCanGoIntoBag (pProto pBagProto : ItemTemplate) : Bool :=
  match pBagProto.itemClass, pBagProto.subClass with
  | 1, 0 => true
  | 1, 1 => pProto.hasFamily 2
  | 1, 2 => pProto.hasFamily 5
  | 1, 3 => pProto.hasFamily 6
  | 1, 6 => pProto.hasFamily 10
  | 1, 4 => pProto.hasFamily 7
  | 1, 5 => pProto.hasFamily 9
  | 1, 7 => pProto.hasFamily 3
  | 1, 8 => pProto.hasFamily 4
  | 11, 2 => pProto.hasFamily 0
  | 11, 3 => pProto.hasFamily 1
  | _, _ => false

structure Item where
  entry : ℕ
  count : ℕ
  slot : ℕ
  container : Option Guid
  contained : Guid
  lootGenerated : Bool
deriving DecidableEq

/-- Where a pointer to an item is: `m_items` of the player, or `m_bagslot` of a bag. -/
inductive Place where
  | own (slot : ℕ)
  | bag (bag : Guid) (slot : ℕ)
deriving DecidableEq

namespace Place

def slot : Place → ℕ
  | own slot => slot
  | bag _ slot => slot

def container : Place → Option Guid
  | own _ => none
  | bag b _ => some b

def holder (player : Guid) : Place → Guid
  | own _ => player
  | bag b _ => b

theorem ext_of {a b : Place} (hslot : a.slot = b.slot) (hcontainer : a.container = b.container) : a = b := by
  cases a <;> cases b <;> simp_all [slot, container]

end Place

structure Entry where
  place : Place
  item : Guid
deriving DecidableEq

/-- `removed` are the objects that were merged into another stack or deleted, `mailed` those that were sent
to the player by mail. -/
structure Player where
  guid : Guid
  items : Guid → Item
  slots : KeyedList Entry.place
  /-- `PLAYER_FIELD_INV_SLOT_HEAD` and `CONTAINER_FIELD_SLOT_1` -/
  fields : Place → Guid
  nextGuid : Guid
  removed : List Guid
  mailed : List Guid

abbrev Templates := ℕ → ItemTemplate

namespace Player
variable (t : Templates) (p : Player)

def at? (place : Place) : Option Guid := (p.slots.find? place).map Entry.item

def template (item : Guid) : ItemTemplate := t (p.items item).entry

def IsBag (item : Guid) : Bool := decide ((p.template t item).inventoryType = 18)

def GetBagSize (bag : Guid) : ℕ := (p.template t bag).containerSlots

def bagItem (bag : Guid) (slot : ℕ) : Option Guid :=
  if slot < p.GetBagSize t bag then p.at? (.bag bag slot) else none

def IsEmpty (bag : Guid) : Bool := (List.range (p.GetBagSize t bag)).all fun i => (p.at? (.bag bag i)).isNone

def IsNotEmptyBag (item : Guid) : Bool := p.IsBag t item && !p.IsEmpty t item

def GetBagByPos (bag : ℕ) : Option Guid :=
  if INVENTORY_SLOT_BAG_START ≤ bag ∧ bag < INVENTORY_SLOT_BAG_END ∨
      BANK_SLOT_BAG_START ≤ bag ∧ bag < BANK_SLOT_BAG_END then
    (p.at? (.own bag)).filter (p.IsBag t)
  else none

def resolve (bag slot : ℕ) : Option Place :=
  if bag = INVENTORY_SLOT_BAG_0 ∧
      (slot < BANK_SLOT_BAG_END ∨ KEYRING_SLOT_START ≤ slot ∧ slot < CURRENCYTOKEN_SLOT_END) then
    some (.own slot)
  else
    (p.GetBagByPos t bag).bind fun b => if slot < p.GetBagSize t b then some (.bag b slot) else none

def GetItemByPos (bag slot : ℕ) : Option Guid := (p.resolve t bag slot).bind p.at?

/-! ### Writing -/

def modifyItem (item : Guid) (f : Item → Item) : Player :=
  { p with items := Function.update p.items item (f (p.items item)) }

def SetCount (item : Guid) (count : ℕ) : Player := p.modifyItem item fun i => { i with count := count }

def setPlace (place : Place) (item : Guid) : Player :=
  { p.modifyItem item fun i =>
      { i with slot := place.slot, container := place.container, contained := place.holder p.guid } with
    slots := p.slots.put ⟨place, item⟩
    fields := Function.update p.fields place item }

def clearPlace (place : Place) : Player :=
  { p with slots := p.slots.erase place, fields := Function.update p.fields place 0 }

def bagStoreItem (bag : Guid) (slot : ℕ) (item : Guid) : Player :=
  if item ≠ bag then p.setPlace (.bag bag slot) item else p

def bagRemoveItem (bag : Guid) (slot : ℕ) : Player :=
  ((p.at? (.bag bag slot)).elim p fun item => p.modifyItem item fun i => { i with container := none }).clearPlace
    (.bag bag slot)

def discard (item : Guid) : Player := { p with removed := item :: p.removed }

def withCopy (item : Guid) (count : ℕ) : Player :=
  { p with
    nextGuid := p.nextGuid + 1
    items := Function.update p.items p.nextGuid
      { entry := (p.items item).entry, count := min count (p.template t item).GetMaxStackSize, slot := 0,
        container := none, contained := p.guid, lootGenerated := false } }

def CloneItem (item : Guid) (count : ℕ) : Option (Guid × Player) :=
  if count < 1 then none else some (p.nextGuid, p.withCopy t item count)

end Player

/-! ### Kinds of positions -/

def IsInventoryPos (bag slot : ℕ) : Bool :=
  decide (bag = INVENTORY_SLOT_BAG_0 ∧ slot = NULL_SLOT ∨
    bag = INVENTORY_SLOT_BAG_0 ∧ INVENTORY_SLOT_ITEM_START ≤ slot ∧ slot < INVENTORY_SLOT_ITEM_END ∨
    INVENTORY_SLOT_BAG_START ≤ bag ∧ bag < INVENTORY_SLOT_BAG_END ∨
    bag = INVENTORY_SLOT_BAG_0 ∧ KEYRING_SLOT_START ≤ slot ∧ slot < CURRENCYTOKEN_SLOT_END)

def IsEquipmentPos (bag slot : ℕ) : Bool :=
  decide (bag = INVENTORY_SLOT_BAG_0 ∧ slot < EQUIPMENT_SLOT_END ∨
    bag = INVENTORY_SLOT_BAG_0 ∧ INVENTORY_SLOT_BAG_START ≤ slot ∧ slot < INVENTORY_SLOT_BAG_END)

def IsBankPos (bag slot : ℕ) : Bool :=
  decide (bag = INVENTORY_SLOT_BAG_0 ∧ BANK_SLOT_ITEM_START ≤ slot ∧ slot < BANK_SLOT_ITEM_END ∨
    bag = INVENTORY_SLOT_BAG_0 ∧ BANK_SLOT_BAG_START ≤ slot ∧ slot < BANK_SLOT_BAG_END ∨
    BANK_SLOT_BAG_START ≤ bag ∧ bag < BANK_SLOT_BAG_END)

def IsBagPos (bag slot : ℕ) : Bool :=
  decide (bag = INVENTORY_SLOT_BAG_0 ∧ INVENTORY_SLOT_BAG_START ≤ slot ∧ slot < INVENTORY_SLOT_BAG_END ∨
    bag = INVENTORY_SLOT_BAG_0 ∧ BANK_SLOT_BAG_START ≤ slot ∧ slot < BANK_SLOT_BAG_END)

def Player.IsValidPos (t : Templates) (p : Player) (bag slot : ℕ) : Bool :=
  if bag = INVENTORY_SLOT_BAG_0 then
    decide (slot < EQUIPMENT_SLOT_END ∨ INVENTORY_SLOT_BAG_START ≤ slot ∧ slot < INVENTORY_SLOT_BAG_END ∨
      INVENTORY_SLOT_ITEM_START ≤ slot ∧ slot < INVENTORY_SLOT_ITEM_END ∨
      KEYRING_SLOT_START ≤ slot ∧ slot < KEYRING_SLOT_END ∨
      BANK_SLOT_ITEM_START ≤ slot ∧ slot < BANK_SLOT_ITEM_END ∨
      BANK_SLOT_BAG_START ≤ slot ∧ slot < BANK_SLOT_BAG_END)
  else (p.GetBagByPos t bag).any fun b => decide (slot < p.GetBagSize t b)

end HysteriaCore.Inventory
