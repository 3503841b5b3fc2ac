import HysteriaCore.Inventory.Storage

/-!
# Where an item could go (`CanStoreItem`, `CanBankItem`)

A plan is the list of positions with the counts that they take, and what has no place yet. The
blocks of the two functions are a search each, followed by the same tests of its result.
-/

namespace HysteriaCore.Inventory
open Lib

structure ItemPosCount where
  bag : ℕ
  slot : ℕ
  count : ℕ
deriving DecidableEq

def ItemPosCount.pos (d : ItemPosCount) : ℕ × ℕ := (d.bag, d.slot)

structure Plan where
  dest : List ItemPosCount
  count : ℕ

def Plan.push (plan : Plan) (bag slot space : ℕ) : Plan :=
  if (bag, slot) ∈ plan.dest.map ItemPosCount.pos then plan
  else ⟨plan.dest ++ [⟨bag, slot, min space plan.count⟩], plan.count - min space plan.count⟩

abbrev Found := InventoryResult × Plan

/-- What the rest of the server says of a player's items. Equipment accepts an item without a swap
only where the slot is empty. -/
structure Checks (t : Templates) where
  isAlive : Bool
  lootGuid : Option Guid
  isInTrade : Guid → Bool
  isBindedNotWith : Guid → Bool
  /-- with the number of items for which there is no space -/
  canTakeMoreSimilarItems : Player → Guid → ℕ → InventoryResult × ℕ
  canUseItem : Player → Guid → InventoryResult
  canEquipItem : Player → ℕ → Guid → Bool → InventoryResult
  canUnequipItem : Player → ℕ → ℕ → Bool → InventoryResult
  bankBagSlotCount : ℕ
  canDualWield : Bool
  canTitanGrip : Bool
  similar_lt : ∀ p item count, (canTakeMoreSimilarItems p item count).2 < 2 ^ 32
  equip_empty : ∀ p slot item, canEquipItem p slot item false = .ok → p.at? (.own slot) = none

namespace Player
variable {t : Templates} (checks : Checks t) (p : Player)

def CanBeMergedPartlyWith (item : Guid) (entry : ℕ) : InventoryResult :=
  if (p.items item).lootGenerated then .alreadyLooted
  else if (p.items item).entry ≠ entry then .itemCantStack
  else if (t entry).GetMaxStackSize ≤ (p.items item).count then .itemCantStack
  else .ok

def otherItem (pItem : Guid) (bag slot : ℕ) : Option Guid :=
  (p.GetItemByPos t bag slot).filter fun pItem2 => decide (pItem2 ≠ pItem)

def emptySlotRefused (bag slot entry : ℕ) : Bool :=
  if bag = INVENTORY_SLOT_BAG_0 then
    decide (KEYRING_SLOT_START ≤ slot ∧ slot < KEYRING_SLOT_END ∧ (t entry).hasFamily 8 = false ∨
      CURRENCYTOKEN_SLOT_START ≤ slot ∧ slot < CURRENCYTOKEN_SLOT_END ∧ (t entry).IsCurrencyToken = false ∨
      BUYBACK_SLOT_START ≤ slot ∧ slot < BUYBACK_SLOT_END ∨ PLAYER_SLOT_END ≤ slot)
  else
    match p.GetBagByPos t bag with
    | none => true
    | some pBag => decide ((p.template t pBag).containerSlots ≤ slot) ||
        !ItemCanGoIntoBag (t entry) (p.template t pBag)

def CanStoreItem_InSpecificSlot (bag slot entry : ℕ) (swap : Bool) (pItem : Guid) (plan : Plan) : Found :=
  let pItem2 := p.otherItem (t := t) pItem bag slot
  if p.IsNotEmptyBag t pItem && !IsBagPos bag slot then (.canOnlyDoWithEmptyBags, plan)
  else if pItem2.isNone || swap then
    if p.emptySlotRefused (t := t) bag slot entry then (.itemDoesntGoIntoBag, plan)
    else (.ok, plan.push bag slot (t entry).GetMaxStackSize)
  else
    match pItem2 with
    | none => (.ok, plan)
    | some pItem2 =>
      if p.CanBeMergedPartlyWith (t := t) pItem2 entry ≠ .ok then
        (p.CanBeMergedPartlyWith (t := t) pItem2 entry, plan)
      else (.ok, plan.push bag slot ((t entry).GetMaxStackSize - (p.items pItem2).count))

/-- One slot of the two loops: with `merge` stacks that have room, without it empty slots. -/
def trySlot (bag slot entry : ℕ) (merge : Bool) (pItem : Guid) (plan : Plan) : Plan :=
  match p.otherItem (t := t) pItem bag slot with
  | none => if merge then plan else plan.push bag slot (t entry).GetMaxStackSize
  | some pItem2 =>
    if !merge then plan
    else if p.CanBeMergedPartlyWith (t := t) pItem2 entry ≠ .ok then plan
    else plan.push bag slot ((t entry).GetMaxStackSize - (p.items pItem2).count)

def trySlots (bag entry : ℕ) (merge : Bool) (pItem : Guid) (skip : ℕ → Bool) : List ℕ → Plan → Plan
  | [], plan => plan
  | j :: rest, plan =>
    if skip j then trySlots bag entry merge pItem skip rest plan
    else if (p.trySlot (t := t) bag j entry merge pItem plan).count = 0 then
      p.trySlot (t := t) bag j entry merge pItem plan
    else trySlots bag entry merge pItem skip rest (p.trySlot (t := t) bag j entry merge pItem plan)

def CanStoreItem_InBag (entry : ℕ) (merge non_specialized : Bool) (pItem : Guid) (skip_bag skip_slot bag : ℕ)
    (plan : Plan) : Found :=
  if bag = skip_bag then (.itemDoesntGoIntoBag, plan)
  else
    match p.GetBagByPos t bag with
    | none => (.itemDoesntGoIntoBag, plan)
    | some pBag =>
      if pBag = pItem then (.itemDoesntGoIntoBag, plan)
      else if p.IsNotEmptyBag t pItem then (.canOnlyDoWithEmptyBags, plan)
      else if non_specialized ≠ decide ((p.template t pBag).itemClass = 1 ∧ (p.template t pBag).subClass = 0) then
        (.itemDoesntGoIntoBag, plan)
      else if !ItemCanGoIntoBag (t entry) (p.template t pBag) then (.itemDoesntGoIntoBag, plan)
      else
        (.ok, p.trySlots (t := t) bag entry merge pItem (fun j => decide (j = skip_slot))
          (List.range (p.GetBagSize t pBag)) plan)

def CanStoreItem_InInventorySlots (slot_begin slot_end entry : ℕ) (merge : Bool) (pItem : Guid)
    (skip_bag skip_slot : ℕ) (plan : Plan) : Found :=
  if p.IsNotEmptyBag t pItem then (.canOnlyDoWithEmptyBags, plan)
  else
    (.ok, p.trySlots (t := t) INVENTORY_SLOT_BAG_0 entry merge pItem
      (fun j => decide (INVENTORY_SLOT_BAG_0 = skip_bag ∧ j = skip_slot))
      (List.range' slot_begin (slot_end - slot_begin)) plan)

/-! ### The blocks -/

def required (noSimilar : ℕ) (found : Found) (next : Plan → Found) : Found :=
  if found.1 ≠ .ok then found
  else if found.2.count = 0 then (if noSimilar = 0 then .ok else .cantCarryMoreOfThis, found.2)
  else next found.2

def tryBags (noSimilar : ℕ) (search : ℕ → Plan → Found) (next : Plan → Found) : List ℕ → Plan → Found
  | [], plan => next plan
  | i :: rest, plan =>
    if (search i plan).1 = .ok ∧ (search i plan).2.count = 0 then
      (if noSimilar = 0 then .ok else .cantCarryMoreOfThis, (search i plan).2)
    else tryBags noSimilar search next rest (search i plan).2

def guardedBy (c : Bool) (block : (Plan → Found) → Plan → Found) (next : Plan → Found) (plan : Plan) : Found :=
  if c then block next plan else next plan

def inventoryBags : List ℕ := List.range' INVENTORY_SLOT_BAG_START (INVENTORY_SLOT_BAG_END - INVENTORY_SLOT_BAG_START)

def bankBags : List ℕ := List.range' BANK_SLOT_BAG_START (BANK_SLOT_BAG_END - BANK_SLOT_BAG_START)

def searchBag (entry : ℕ) (merge : Bool) (pItem : Guid) (slot bag : ℕ) (plan : Plan) : Found :=
  if (p.CanStoreItem_InBag (t := t) entry merge false pItem NULL_BAG slot bag plan).1 ≠ .ok then
    p.CanStoreItem_InBag (t := t) entry merge true pItem NULL_BAG slot bag
      (p.CanStoreItem_InBag (t := t) entry merge false pItem NULL_BAG slot bag plan).2
  else p.CanStoreItem_InBag (t := t) entry merge false pItem NULL_BAG slot bag plan

variable (t) in
def familySlots (entry noSimilar : ℕ) (pItem : Guid) (bag slot : ℕ) (withTokens : Bool) (next : Plan → Found)
    (plan : Plan) : Found :=
  if (t entry).hasFamily 8 then
    required noSimilar (p.CanStoreItem_InInventorySlots (t := t) KEYRING_SLOT_START KEYRING_SLOT_END entry false
      pItem bag slot plan)
      (guardedBy withTokens (fun next plan => required noSimilar (p.CanStoreItem_InInventorySlots (t := t)
        CURRENCYTOKEN_SLOT_START CURRENCYTOKEN_SLOT_END entry false pItem bag slot plan) next) next)
  else if (t entry).IsCurrencyToken then
    required noSimilar (p.CanStoreItem_InInventorySlots (t := t) CURRENCYTOKEN_SLOT_START CURRENCYTOKEN_SLOT_END
      entry false pItem bag slot plan) next
  else next plan

variable (t) in
def mergeSlots (entry noSimilar : ℕ) (pItem : Guid) (bag slot : ℕ) (next : Plan → Found) (plan : Plan) : Found :=
  required noSimilar (p.CanStoreItem_InInventorySlots (t := t) KEYRING_SLOT_START CURRENCYTOKEN_SLOT_END entry true
    pItem bag slot plan) fun plan =>
  required noSimilar (p.CanStoreItem_InInventorySlots (t := t) INVENTORY_SLOT_ITEM_START INVENTORY_SLOT_ITEM_END
    entry true pItem bag slot plan) next

def storeInGivenBag (entry noSimilar : ℕ) (pItem : Guid) (bag slot : ℕ) (next : Plan → Found) : Plan → Found :=
  guardedBy (decide ((t entry).stackable ≠ 1))
    (fun next plan =>
      if bag = INVENTORY_SLOT_BAG_0 then p.mergeSlots t entry noSimilar pItem bag slot next plan
      else required noSimilar (p.searchBag (t := t) entry true pItem slot bag plan) next)
    fun plan =>
      if bag = INVENTORY_SLOT_BAG_0 then
        p.familySlots t entry noSimilar pItem bag slot true
          (fun plan => required noSimilar (p.CanStoreItem_InInventorySlots (t := t) INVENTORY_SLOT_ITEM_START
            INVENTORY_SLOT_ITEM_END entry false pItem bag slot plan) next) plan
      else required noSimilar (p.searchBag (t := t) entry false pItem slot bag plan) next

def storeAnywhere (entry noSimilar : ℕ) (pItem : Guid) (bag slot : ℕ) : Plan → Found :=
  guardedBy (decide ((t entry).stackable ≠ 1))
    (fun next => p.mergeSlots t entry noSimilar pItem bag slot
      (guardedBy (decide ((t entry).bagFamily ≠ 0))
        (fun next => tryBags noSimilar
          (p.CanStoreItem_InBag (t := t) entry true false pItem bag slot) next inventoryBags)
        (tryBags noSimilar (p.CanStoreItem_InBag (t := t) entry true true pItem bag slot) next inventoryBags)))
    (guardedBy (decide ((t entry).bagFamily ≠ 0))
      (fun next => p.familySlots t entry noSimilar pItem bag slot false
        (tryBags noSimilar (p.CanStoreItem_InBag (t := t) entry false false pItem bag slot) next inventoryBags))
      fun plan =>
        if p.IsNotEmptyBag t pItem then (.nonemptyBagOverOtherBag, plan)
        else
          required noSimilar (p.CanStoreItem_InInventorySlots (t := t) INVENTORY_SLOT_ITEM_START
            INVENTORY_SLOT_ITEM_END entry false pItem bag slot plan)
            (tryBags noSimilar (p.CanStoreItem_InBag (t := t) entry false true pItem bag slot)
              (fun plan => (.inventoryFull, plan)) inventoryBags))

def storeBlocks (entry noSimilar : ℕ) (pItem : Guid) (bag slot : ℕ) (swap : Bool) : Plan → Found :=
  guardedBy (decide (bag ≠ NULL_BAG ∧ slot ≠ NULL_SLOT))
    (fun next plan =>
      required noSimilar (p.CanStoreItem_InSpecificSlot (t := t) bag slot entry swap pItem plan) next)
    (guardedBy (decide (bag ≠ NULL_BAG)) (p.storeInGivenBag (t := t) entry noSimilar pItem bag slot)
      (p.storeAnywhere (t := t) entry noSimilar pItem bag slot))

def CanStoreItem (bag slot : ℕ) (pItem : Guid) (swap : Bool) : InventoryResult × List ItemPosCount :=
  let entry := (p.items pItem).entry
  let count := (p.items pItem).count
  let similar := checks.canTakeMoreSimilarItems p pItem count
  if bag = NULL_BAG ∧ slot = NULL_SLOT ∧ p.IsNotEmptyBag t pItem = true then (.canOnlyDoWithEmptyBags, [])
  else if checks.lootGuid = some pItem then (.alreadyLooted, [])
  else if checks.isBindedNotWith pItem then (.dontOwnThatItem, [])
  else if similar.1 ≠ .ok ∧ count = similar.2 then (similar.1, [])
  else
    let plan : Plan := ⟨[], if similar.1 ≠ .ok then subU32 count similar.2 else count⟩
    let found := p.storeBlocks (t := t) entry similar.2 pItem bag slot swap plan
    (found.1, found.2.dest)

/-! ### The bank -/

def bankInGivenBag (entry : ℕ) (pItem : Guid) (bag slot : ℕ) (next : Plan → Found) : Plan → Found := fun plan =>
  if p.IsNotEmptyBag t pItem then (.nonemptyBagOverOtherBag, plan)
  else
    guardedBy (decide ((t entry).stackable ≠ 1))
      (fun next plan =>
        required 0 (if bag = INVENTORY_SLOT_BAG_0 then
          p.CanStoreItem_InInventorySlots (t := t) BANK_SLOT_ITEM_START BANK_SLOT_ITEM_END entry true pItem bag
            slot plan
          else p.searchBag (t := t) entry true pItem slot bag plan) next)
      (fun plan =>
        required 0 (if bag = INVENTORY_SLOT_BAG_0 then
          p.CanStoreItem_InInventorySlots (t := t) BANK_SLOT_ITEM_START BANK_SLOT_ITEM_END entry false pItem bag
            slot plan
          else p.searchBag (t := t) entry false pItem slot bag plan) next) plan

def bankAnywhere (entry : ℕ) (pItem : Guid) (bag slot : ℕ) : Plan → Found :=
  guardedBy (decide ((t entry).stackable ≠ 1))
    (fun next plan =>
      required 0 (p.CanStoreItem_InInventorySlots (t := t) BANK_SLOT_ITEM_START BANK_SLOT_ITEM_END entry true pItem
        bag slot plan)
        (guardedBy (decide ((t entry).bagFamily ≠ 0))
          (fun next => tryBags 0 (p.CanStoreItem_InBag (t := t) entry true false pItem bag slot) next bankBags)
          (tryBags 0 (p.CanStoreItem_InBag (t := t) entry true true pItem bag slot) next bankBags)))
    (guardedBy (decide ((t entry).bagFamily ≠ 0))
      (fun next => tryBags 0 (p.CanStoreItem_InBag (t := t) entry false false pItem bag slot) next bankBags)
      fun plan =>
        required 0 (p.CanStoreItem_InInventorySlots (t := t) BANK_SLOT_ITEM_START BANK_SLOT_ITEM_END entry false
          pItem bag slot plan)
          (tryBags 0 (p.CanStoreItem_InBag (t := t) entry false true pItem bag slot)
            (fun plan => (.bankFull, plan)) bankBags))

def bankBagRefused (slot : ℕ) (pItem : Guid) : InventoryResult :=
  if BANK_SLOT_BAG_START ≤ slot ∧ slot < BANK_SLOT_BAG_END then
    if !p.IsBag t pItem then .itemDoesntGoToSlot
    else if checks.bankBagSlotCount ≤ slot - BANK_SLOT_BAG_START then .mustPurchaseThatBagSlot
    else checks.canUseItem p pItem
  else .ok

def CanBankItem (bag slot : ℕ) (pItem : Guid) (swap : Bool) : InventoryResult × List ItemPosCount :=
  let entry := (p.items pItem).entry
  let count := (p.items pItem).count
  let pItemslot := (p.items pItem).slot
  let similar := checks.canTakeMoreSimilarItems p pItem count
  if checks.lootGuid = some pItem then (.alreadyLooted, [])
  else if checks.isBindedNotWith pItem then (.dontOwnThatItem, [])
  else if CURRENCYTOKEN_SLOT_START ≤ pItemslot ∧ pItemslot < CURRENCYTOKEN_SLOT_END then (.itemsCantBeSwapped, [])
  else if similar.1 ≠ .ok then (similar.1, [])
  else
    let found := guardedBy (decide (bag ≠ NULL_BAG ∧ slot ≠ NULL_SLOT))
      (fun next plan =>
        if p.bankBagRefused checks slot pItem ≠ .ok then (p.bankBagRefused checks slot pItem, plan)
        else required 0 (p.CanStoreItem_InSpecificSlot (t := t) bag slot entry swap pItem plan) next)
      (guardedBy (decide (bag ≠ NULL_BAG)) (p.bankInGivenBag (t := t) entry pItem bag slot)
        (p.bankAnywhere (t := t) entry pItem bag slot)) ⟨[], count⟩
    (found.1, found.2.dest)

end Player

end HysteriaCore.Inventory
