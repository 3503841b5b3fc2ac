import HysteriaCore.Inventory.Planning

/-!
# Splitting and swapping (`Player::SplitItem`, `Player::SwapItem`)

Auras, quest counters, achievements and the packets to the client are left out, as is the release of a
loot that lies in a bag that moved.
-/

namespace HysteriaCore.Inventory
open Lib

def INVTYPE_FINGER : ℕ := 11
def INVTYPE_WEAPON : ℕ := 13
def INVTYPE_2HWEAPON : ℕ := 17
def INVTYPE_WEAPONOFFHAND : ℕ := 22

inductive Outcome where
  | done
  | refused (msg : InventoryResult)
  | ignored
deriving DecidableEq

abbrev Answer := Outcome × Player

namespace Player
variable (t : Templates) (p : Player)

/-! ### Taking out and putting in -/

def RemoveItem (bag slot : ℕ) : Player :=
  match p.GetItemByPos t bag slot with
  | none => p
  | some pItem =>
    let out :=
      if bag = INVENTORY_SLOT_BAG_0 then p.clearPlace (.own slot)
      else (p.GetBagByPos t bag).elim p fun pBag => p.bagRemoveItem pBag slot
    out.modifyItem pItem fun i => { i with contained := 0, slot := NULL_SLOT }

def place (bag slot : ℕ) (pItem : Guid) : Player :=
  match (if bag = INVENTORY_SLOT_BAG_0 then none else p.GetBagByPos t bag) with
  | none => p.setPlace (.own slot) pItem
  | some pBag => p.bagStoreItem pBag slot pItem

def _StoreItem (bag slot : ℕ) (pItem : Guid) (count : ℕ) (clone : Bool) : Player :=
  match p.GetItemByPos t bag slot with
  | none =>
    if clone then (p.CloneItem t pItem count).elim p fun c => c.2.place t bag slot c.1
    else (p.SetCount pItem count).place t bag slot pItem
  | some pItem2 =>
    let merged := p.SetCount pItem2 ((p.items pItem2).count + count)
    if clone then merged else merged.discard pItem

def StoreItem (pItem : Guid) : List ItemPosCount → Player → Player
  | [], p => p
  | [d], p => p._StoreItem t d.bag d.slot pItem d.count false
  | d :: rest, p => StoreItem pItem rest (p._StoreItem t d.bag d.slot pItem d.count true)

def VisualizeItem (slot : ℕ) (pItem : Guid) : Player := p.setPlace (.own slot) pItem

def EquipItem (slot : ℕ) (pItem : Guid) : Player :=
  match p.GetItemByPos t INVENTORY_SLOT_BAG_0 slot with
  | none => p.VisualizeItem slot pItem
  | some pItem2 => (p.SetCount pItem2 ((p.items pItem2).count + (p.items pItem).count)).discard pItem

def mail (item : Guid) : Player := { p with mailed := item :: p.mailed }

end Player

section Requests
variable {t : Templates} (checks : Checks t) (p : Player)

def IsTwoHandUsed : Bool :=
  (p.GetItemByPos t INVENTORY_SLOT_BAG_0 EQUIPMENT_SLOT_MAINHAND).any fun mainItem =>
    decide ((p.template t mainItem).inventoryType = INVTYPE_2HWEAPON) && !checks.canTitanGrip

def offhandForced (offItem : Guid) : Bool :=
  (!checks.canDualWield && decide ((p.template t offItem).inventoryType = INVTYPE_WEAPONOFFHAND ∨
    (p.template t offItem).inventoryType = INVTYPE_WEAPON)) ||
  !(checks.canTitanGrip || (decide ((p.template t offItem).inventoryType ≠ INVTYPE_2HWEAPON) &&
    !IsTwoHandUsed checks p))

def AutoUnequipOffhandIfNeed : Player :=
  match p.GetItemByPos t INVENTORY_SLOT_BAG_0 EQUIPMENT_SLOT_OFFHAND with
  | none => p
  | some offItem =>
    if !offhandForced checks p offItem then p
    else
      let off := p.CanStoreItem checks NULL_BAG NULL_SLOT offItem false
      let out := p.RemoveItem t INVENTORY_SLOT_BAG_0 EQUIPMENT_SLOT_OFFHAND
      if off.1 = .ok then out.StoreItem t offItem off.2 else out.mail offItem

def canGo (bag slot : ℕ) (pItem : Guid) (swap : Bool) : InventoryResult × List ItemPosCount :=
  if IsInventoryPos bag slot then p.CanStoreItem checks bag slot pItem swap
  else if IsBankPos bag slot then p.CanBankItem checks bag slot pItem swap
  else if IsEquipmentPos bag slot then (checks.canEquipItem p slot pItem swap, [])
  else (.ok, [])

def goes (bag slot : ℕ) (pItem : Guid) (dest : List ItemPosCount) : Player :=
  if IsInventoryPos bag slot || IsBankPos bag slot then p.StoreItem t pItem dest
  else if IsEquipmentPos bag slot then p.EquipItem t slot pItem
  else p

def goesAndUnequips (bag slot : ℕ) (pItem : Guid) (dest : List ItemPosCount) : Player :=
  if IsInventoryPos bag slot || IsBankPos bag slot then goes (t := t) p bag slot pItem dest
  else AutoUnequipOffhandIfNeed checks (goes (t := t) p bag slot pItem dest)

def hasKind (bag slot : ℕ) : Bool := IsInventoryPos bag slot || IsBankPos bag slot || IsEquipmentPos bag slot

/-! ### `SplitItem` -/

def SplitItem (srcbag srcslot dstbag dstslot count : ℕ) : Answer :=
  match p.GetItemByPos t srcbag srcslot with
  | none => (.refused .itemNotFound, p)
  | some pSrcItem =>
    if (p.items pSrcItem).lootGenerated then (.refused .couldntSplitItems, p)
    else if (p.items pSrcItem).count = count then (.refused .couldntSplitItems, p)
    else if (p.items pSrcItem).count < count then (.refused .triedToSplitMoreThanCount, p)
    else if checks.isInTrade pSrcItem then (.ignored, p)
    else
      match p.CloneItem t pSrcItem count with
      | none => (.refused .itemNotFound, p)
      | some (pNewItem, p) =>
        if !hasKind dstbag dstslot then (.ignored, p)
        else
          let lowered := p.SetCount pSrcItem ((p.items pSrcItem).count - count)
          let msg := canGo checks lowered dstbag dstslot pNewItem false
          if msg.1 ≠ .ok then
            (.refused msg.1,
              (lowered.discard pNewItem).SetCount pSrcItem ((lowered.items pSrcItem).count + count))
          else (.done, goesAndUnequips checks lowered dstbag dstslot pNewItem msg.2)

/-! ### `SwapItem` -/

def unequipChecked (bag slot otherBag otherSlot : ℕ) (other : Option Guid) : InventoryResult :=
  if IsEquipmentPos bag slot || IsBagPos bag slot then
    checks.canUnequipItem p bag slot
      (!IsBagPos bag slot || IsBagPos otherBag otherSlot ||
        other.any fun i => p.IsBag t i && p.IsEmpty t i)
  else .ok

def swapRefused (srcbag srcslot dstbag dstslot : ℕ) (pSrcItem : Guid) (pDstItem : Option Guid) :
    Option InventoryResult :=
  if !checks.isAlive then some .youAreDead
  else if checks.lootGuid = some pSrcItem then some .cantDoRightNow
  else if unequipChecked checks p srcbag srcslot dstbag dstslot pDstItem ≠ .ok then
    some (unequipChecked checks p srcbag srcslot dstbag dstslot pDstItem)
  else if p.IsNotEmptyBag t pSrcItem && !IsBagPos dstbag dstslot then some .canOnlyDoWithEmptyBags
  else if IsBagPos srcbag srcslot && decide (srcslot = dstbag) then some .nonemptyBagOverOtherBag
  else if IsBagPos dstbag dstslot && decide (srcbag = dstslot) then some .itemsCantBeSwapped
  else
    match pDstItem with
    | none => none
    | some pDstItem =>
      if checks.lootGuid = some pDstItem then some .cantDoRightNow
      else if unequipChecked checks p dstbag dstslot srcbag srcslot (some pSrcItem) ≠ .ok then
        some (unequipChecked checks p dstbag dstslot srcbag srcslot (some pSrcItem))
      else none

def moveItem (srcbag srcslot dstbag dstslot : ℕ) (pSrcItem : Guid) : Answer :=
  let msg := canGo checks p dstbag dstslot pSrcItem false
  if !hasKind dstbag dstslot then (.ignored, p)
  else if msg.1 ≠ .ok then (.refused msg.1, p)
  else (.done, goesAndUnequips checks (p.RemoveItem t srcbag srcslot) dstbag dstslot pSrcItem msg.2)

def mergeItem (srcbag srcslot dstbag dstslot : ℕ) (pSrcItem pDstItem : Guid) (sDest : List ItemPosCount) : Player :=
  if (p.items pSrcItem).count + (p.items pDstItem).count ≤ (p.template t pSrcItem).GetMaxStackSize then
    goesAndUnequips checks (p.RemoveItem t srcbag srcslot) dstbag dstslot pSrcItem sDest
  else
    (p.SetCount pSrcItem
      ((p.items pSrcItem).count + (p.items pDstItem).count - (p.template t pSrcItem).GetMaxStackSize)).SetCount
      pDstItem (p.template t pSrcItem).GetMaxStackSize

def canSwapTo (bag slot : ℕ) (pItem : Guid) : InventoryResult × List ItemPosCount :=
  let msg := canGo checks p bag slot pItem true
  if msg.1 = .ok ∧ IsInventoryPos bag slot = false ∧ IsBankPos bag slot = false ∧ IsEquipmentPos bag slot = true then
    (checks.canUnequipItem p bag slot true, [])
  else msg

def bagItems (bag : Guid) : List (ℕ × Guid) :=
  (List.range (p.GetBagSize t bag)).filterMap fun i => (p.at? (.bag bag i)).map fun item => (i, item)

def bagExchange (srcbag srcslot dstbag dstslot : ℕ) (pSrcItem pDstItem : Guid) : Option (Guid × Guid) :=
  if p.IsBag t pSrcItem && p.IsBag t pDstItem then
    if p.IsEmpty t pSrcItem && !IsBagPos srcbag srcslot then some (pSrcItem, pDstItem)
    else if p.IsEmpty t pDstItem && !IsBagPos dstbag dstslot then some (pDstItem, pSrcItem)
    else none
  else none

def exchanged (emptyBag fullBag : Guid) : Except InventoryResult Player :=
  if (bagItems (t := t) p fullBag).any fun i => !ItemCanGoIntoBag (p.template t i.2) (p.template t emptyBag) then
    .error .nonemptyBagOverOtherBag
  else if p.GetBagSize t emptyBag < (bagItems (t := t) p fullBag).length then .error .itemsCantBeSwapped
  else
    .ok ((bagItems (t := t) p fullBag).zipIdx.foldl
      (fun q i => (q.bagRemoveItem fullBag i.1.1).bagStoreItem emptyBag i.2 i.1.2) p)

def realSwap (srcbag srcslot dstbag dstslot : ℕ) (pSrcItem pDstItem : Guid) : Answer :=
  let sDest := canSwapTo checks p dstbag dstslot pSrcItem
  let sDest2 := canSwapTo checks p srcbag srcslot pDstItem
  if sDest.1 ≠ .ok then (.refused sDest.1, p)
  else if sDest2.1 ≠ .ok then (.refused sDest2.1, p)
  else
    match (bagExchange (t := t) p srcbag srcslot dstbag dstslot pSrcItem pDstItem).elim (.ok p) fun bags =>
        exchanged (t := t) p bags.1 bags.2 with
    | .error msg => (.refused msg, p)
    | .ok p =>
      let out := (p.RemoveItem t dstbag dstslot).RemoveItem t srcbag srcslot
      let forth := goes (t := t) out dstbag dstslot pSrcItem sDest.2
      (.done, AutoUnequipOffhandIfNeed checks (goes (t := t) forth srcbag srcslot pDstItem sDest2.2))

def SwapItem (srcbag srcslot dstbag dstslot : ℕ) : Answer :=
  match p.GetItemByPos t srcbag srcslot with
  | none => (.ignored, p)
  | some pSrcItem =>
    match swapRefused checks p srcbag srcslot dstbag dstslot pSrcItem (p.GetItemByPos t dstbag dstslot) with
    | some msg => (.refused msg, p)
    | none =>
      match p.GetItemByPos t dstbag dstslot with
      | none => moveItem checks p srcbag srcslot dstbag dstslot pSrcItem
      | some pDstItem =>
        if !p.IsBag t pSrcItem && !p.IsBag t pDstItem then
          let msg := canGo checks p dstbag dstslot pSrcItem false
          if !hasKind dstbag dstslot then (.ignored, p)
          else if msg.1 = .ok then
            (.done, mergeItem checks p srcbag srcslot dstbag dstslot pSrcItem pDstItem msg.2)
          else realSwap checks p srcbag srcslot dstbag dstslot pSrcItem pDstItem
        else realSwap checks p srcbag srcslot dstbag dstslot pSrcItem pDstItem

end Requests

end HysteriaCore.Inventory
