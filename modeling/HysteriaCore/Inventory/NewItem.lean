import HysteriaCore.Inventory.Offers
import HysteriaCore.Inventory.Payment

/-!
# Room for a new item (`CanStoreItem` without an item object)

How many of an entry a player may have, and the plan for so many new ones. All counts are in 32 bits.
-/

namespace HysteriaCore.Inventory
open Lib

def ITEM_LIMIT_CATEGORY_MODE_HAVE : ℕ := 0

structure ItemLimitCategoryEntry where
  maxCount : ℕ
  mode : ℕ

/-- `MaxCount` and `ItemLimitCategory` of the templates, and `ItemLimitCategory.dbc`. -/
structure CarryLimits where
  MaxCount : ℕ → ℤ
  ItemLimitCategory : ℕ → ℕ
  sItemLimitCategoryStore : ℕ → Option ItemLimitCategoryEntry

namespace Player
variable (t : Templates) (limits : CarryLimits) (p : Player)

def heldPositions : List (ℕ × ℕ) :=
  ownPositions 0 INVENTORY_SLOT_ITEM_END ++ ownPositions KEYRING_SLOT_START CURRENCYTOKEN_SLOT_END ++
    inventoryBags.flatMap (p.bagPositions t) ++ ownPositions BANK_SLOT_ITEM_START BANK_SLOT_BAG_END ++
    bankBags.flatMap (p.bagPositions t)

def countHeld (test : Guid → Bool) : ℕ :=
  (p.heldPositions t).foldl (fun count pos =>
    match (p.GetItemByPos t pos.1 pos.2).filter test with
    | none => count
    | some pItem => u32 (count + (p.items pItem).count)) 0

def GetItemCount (item : ℕ) : ℕ := p.countHeld t fun pItem => decide ((p.items pItem).entry = item)

def GetItemCountWithLimitCategory (limitCategory : ℕ) : ℕ :=
  p.countHeld t fun pItem => decide (limits.ItemLimitCategory (p.items pItem).entry = limitCategory)

/-- `CanTakeMoreSimilarItems`, with the number of items that are too many. -/
def CanTakeMoreSimilarItems (entry count : ℕ) : InventoryResult × ℕ :=
  if limits.MaxCount entry ≤ 0 ∧ limits.ItemLimitCategory entry = 0 ∨ limits.MaxCount entry = 2147483647 then (.ok, 0)
  else if 0 < limits.MaxCount entry ∧ (limits.MaxCount entry).toNat < u32 (p.GetItemCount t entry + count) then
    (.cantCarryMoreOfThis, subU32 (u32 (count + p.GetItemCount t entry)) (limits.MaxCount entry).toNat)
  else if limits.ItemLimitCategory entry ≠ 0 then
    match limits.sItemLimitCategoryStore (limits.ItemLimitCategory entry) with
    | none => (.other 20, count)
    | some limitEntry =>
      let curcount := p.GetItemCountWithLimitCategory t limits (limits.ItemLimitCategory entry)
      if limitEntry.mode = ITEM_LIMIT_CATEGORY_MODE_HAVE ∧ limitEntry.maxCount < u32 (curcount + count) then
        (.other 84, subU32 (u32 (count + curcount)) limitEntry.maxCount)
      else (.ok, 0)
  else (.ok, 0)

/-- `CanStoreItem` where `pItem` is `NULL`, which no slot holds either: the answer, `dest` and `no_space_count`. -/
def CanStoreNewItem (bag slot entry count : ℕ) : InventoryResult × List ItemPosCount × ℕ :=
  let similar := p.CanTakeMoreSimilarItems t limits entry count
  if similar.1 ≠ .ok ∧ count = similar.2 then (similar.1, [], similar.2)
  else
    let plan : Plan := ⟨[], if similar.1 ≠ .ok then subU32 count similar.2 else count⟩
    let found := p.storeBlocks (t := t) entry similar.2 p.nextGuid bag slot false plan
    (found.1, found.2.dest, if found.1 = .ok then 0 else u32 (found.2.count + similar.2))

/-! ### What a plan is -/

/-- A position that exists and takes the entry: an empty slot that does not refuse it, or a stack with room. -/
def Accepts (entry : ℕ) (x : ℕ × ℕ) : Prop :=
  ∃ place, p.resolve t x.1 x.2 = some place ∧
    match p.at? place with
    | none => p.emptySlotRefused (t := t) x.1 x.2 entry = false
    | some pItem2 => p.CanBeMergedPartlyWith (t := t) pItem2 entry = .ok

def freeStackSpace (entry : ℕ) (x : ℕ × ℕ) : ℕ :=
  (t entry).GetMaxStackSize - ((p.GetItemByPos t x.1 x.2).map fun pItem2 => (p.items pItem2).count).getD 0

structure PlansExactly (bag slot entry count : ℕ) : Prop where
  distinct : ((p.CanStoreNewItem t limits bag slot entry count).2.1.map ItemPosCount.pos).Nodup
  accepted : ∀ d ∈ (p.CanStoreNewItem t limits bag slot entry count).2.1, p.Accepts t entry d.pos
  counts : ∀ d ∈ (p.CanStoreNewItem t limits bag slot entry count).2.1,
    1 ≤ d.count ∧ d.count ≤ p.freeStackSpace t entry d.pos
  exact_sum : ((p.CanStoreNewItem t limits bag slot entry count).2.1.map ItemPosCount.count).sum +
    (p.CanStoreNewItem t limits bag slot entry count).2.2 = count
  all_stored : (p.CanStoreNewItem t limits bag slot entry count).1 = .ok →
    (p.CanStoreNewItem t limits bag slot entry count).2.2 = 0

def newItemPositions (bag slot entry : ℕ) : List (ℕ × ℕ) := p.storeOffers t entry p.nextGuid bag slot

def WrongTokenSlot (entry : ℕ) (x : ℕ × ℕ) : Prop :=
  (t entry).IsCurrencyToken = false ∧ x.1 = INVENTORY_SLOT_BAG_0 ∧ CURRENCYTOKEN_SLOT_START ≤ x.2 ∧
    x.2 < CURRENCYTOKEN_SLOT_END ∧ p.at? (.own x.2) = none

variable {t : Templates} {limits : CarryLimits} {p : Player} {entry count : ℕ} {x : ℕ × ℕ}

/-! ### No object -/

theorem Sound.GetItemByPos_lt (h : p.Sound t) {bag slot : ℕ} {g : Guid} (hget : p.GetItemByPos t bag slot = some g) :
    g < p.nextGuid := by
  obtain ⟨place, -, hat⟩ := GetItemByPos_some hget
  exact h.known hat

theorem Sound.otherItem_new (h : p.Sound t) (bag slot : ℕ) :
    p.otherItem (t := t) p.nextGuid bag slot = p.GetItemByPos t bag slot := by
  unfold otherItem
  cases hget : p.GetItemByPos t bag slot with
  | none => rfl
  | some g => exact Option.filter_eq_some_iff.mpr ⟨rfl, decide_eq_true (Nat.ne_of_lt (h.GetItemByPos_lt hget))⟩

theorem Sound.freeSpace_new (h : p.Sound t) (entry : ℕ) :
    p.freeSpace t entry p.nextGuid = p.freeStackSpace t entry := by
  funext x
  unfold freeSpace freeStackSpace
  rw [h.otherItem_new]

theorem Sound.isNotEmptyBag_new (h : p.Sound t) : p.IsNotEmptyBag t p.nextGuid = false := by
  have hempty : p.IsEmpty t p.nextGuid = true := by
    unfold IsEmpty
    rw [List.all_eq_true]
    intro i _
    cases hat : p.at? (.bag p.nextGuid i) with
    | none => rfl
    | some g => exact absurd (h.inBags hat).2.2.1 (Nat.lt_irrefl _)
  unfold IsNotEmptyBag
  rw [hempty, Bool.not_true, Bool.and_false]

/-! ### What is looked at takes the entry -/

theorem accepts_of_merge (h : p.Sound t) (hoffered : p.offered t entry p.nextGuid true x = true) :
    p.Accepts t entry x := by
  unfold offered at hoffered
  rw [h.otherItem_new] at hoffered
  cases hget : p.GetItemByPos t x.1 x.2 with
  | none => simp [hget] at hoffered
  | some g =>
    obtain ⟨place, hresolve, hat⟩ := GetItemByPos_some hget
    refine ⟨place, hresolve, ?_⟩
    rw [hat]
    simpa [hget] using hoffered

theorem empty_of_free (h : p.Sound t) (hoffered : p.offered t entry p.nextGuid false x = true) {place : Place}
    (hresolve : p.resolve t x.1 x.2 = some place) : p.at? place = none := by
  unfold offered at hoffered
  rw [h.otherItem_new, GetItemByPos_eq hresolve] at hoffered
  cases hat : p.at? place with
  | none => rfl
  | some g => simp [hat] at hoffered

theorem mem_slotOffers {bag : ℕ} {merge : Bool} {skip : ℕ → Bool} {slots : List ℕ} {g : Guid}
    (h : x ∈ p.slotOffers t entry g bag merge skip slots) :
    x.1 = bag ∧ x.2 ∈ slots ∧ p.offered t entry g merge x = true := by
  obtain ⟨hmem, hoffered⟩ := List.mem_filter.mp h
  obtain ⟨j, hj, rfl⟩ := List.mem_map.mp hmem
  exact ⟨rfl, (List.mem_filter.mp hj).1, hoffered⟩

theorem Accepts.not_wrong (h : p.Accepts t entry x) : ¬ p.WrongTokenSlot t entry x := by
  intro hwrong
  obtain ⟨htoken, hbag, hge, hlt, hempty⟩ := hwrong
  obtain ⟨place, hresolve, haccepts⟩ := h
  have hkey : KEYRING_SLOT_START ≤ x.2 := Nat.le_trans (by decide) hge
  have hplace : p.resolve t x.1 x.2 = some (.own x.2) := if_pos ⟨hbag, .inr ⟨hkey, hlt⟩⟩
  rw [hplace, Option.some.injEq] at hresolve
  rw [← hresolve, hempty] at haccepts
  have hrefused : p.emptySlotRefused (t := t) x.1 x.2 entry = true := by
    unfold emptySlotRefused
    rw [if_pos hbag]
    exact decide_eq_true (.inr (.inl ⟨hge, hlt, htoken⟩))
  simp only at haccepts
  rw [hrefused] at haccepts
  exact absurd haccepts (by decide)

def AllTaken (t : Templates) (p : Player) (entry : ℕ) (xs : List (ℕ × ℕ)) : Prop :=
  ∀ x ∈ xs, p.Accepts t entry x ∨ p.WrongTokenSlot t entry x

variable {xs ys : List (ℕ × ℕ)}

theorem AllTaken.append (hxs : AllTaken t p entry xs) (hys : AllTaken t p entry ys) : AllTaken t p entry (xs ++ ys) :=
  fun x hx => (List.mem_append.mp hx).elim (hxs x) (hys x)

theorem AllTaken.ite {c : Bool} (hxs : AllTaken t p entry xs) (hys : AllTaken t p entry ys) :
    AllTaken t p entry (if c then xs else ys) := by
  cases c
  · exact hys
  · exact hxs

theorem allTaken_nil : AllTaken t p entry [] := fun _ hx => absurd hx List.not_mem_nil

section Lists
variable (h : p.Sound t) (bag slot : ℕ)
include h

theorem allTaken_merge (slot_begin slot_end : ℕ) :
    AllTaken t p entry (p.inventoryOffers t entry p.nextGuid slot_begin slot_end true bag slot) :=
  fun _ hx => .inl (accepts_of_merge h (mem_slotOffers hx).2.2)

theorem allTaken_free {slot_begin slot_end : ℕ}
    (hrange : slot_end ≤ BANK_SLOT_BAG_END ∧ slot_begin ≤ slot_end ∨ slot_begin = KEYRING_SLOT_START ∧
      slot_end = KEYRING_SLOT_END ∧ (t entry).hasFamily 8 = true ∨
      slot_begin = CURRENCYTOKEN_SLOT_START ∧ slot_end = CURRENCYTOKEN_SLOT_END) :
    AllTaken t p entry (p.inventoryOffers t entry p.nextGuid slot_begin slot_end false bag slot) := by
  intro x hx
  obtain ⟨hbag, hslot, hoffered⟩ := mem_slotOffers hx
  rw [List.mem_range'_1] at hslot
  simp only [KEYRING_SLOT_START, KEYRING_SLOT_END, CURRENCYTOKEN_SLOT_START, CURRENCYTOKEN_SLOT_END,
    BANK_SLOT_BAG_END] at hrange
  have hown : x.2 < BANK_SLOT_BAG_END ∨ KEYRING_SLOT_START ≤ x.2 ∧ x.2 < CURRENCYTOKEN_SLOT_END := by
    simp only [KEYRING_SLOT_START, CURRENCYTOKEN_SLOT_END, BANK_SLOT_BAG_END]
    omega
  have hresolve : p.resolve t x.1 x.2 = some (.own x.2) := if_pos ⟨hbag, hown⟩
  have hempty := empty_of_free h hoffered hresolve
  by_cases hwrong : p.WrongTokenSlot t entry x
  · exact .inr hwrong
  · left
    refine ⟨.own x.2, hresolve, ?_⟩
    rw [hempty]
    unfold emptySlotRefused
    rw [if_pos hbag, decide_eq_false_iff_not]
    intro hrefused
    simp only [KEYRING_SLOT_START, KEYRING_SLOT_END, CURRENCYTOKEN_SLOT_START, CURRENCYTOKEN_SLOT_END,
      BUYBACK_SLOT_START, BUYBACK_SLOT_END, PLAYER_SLOT_END] at hrefused
    obtain ⟨hge, hlt, hkey⟩ | ⟨hge, hlt, htoken⟩ | hbuyback | hend := hrefused
    · obtain hlow | ⟨-, -, hfamily⟩ | htokens := hrange
      · omega
      · rw [hkey] at hfamily
        exact absurd hfamily (by decide)
      · omega
    · exact hwrong ⟨htoken, hbag, hge, hlt, hempty⟩
    · omega
    · omega

variable (entry) in
theorem allTaken_backpack : AllTaken t p entry
    (p.inventoryOffers t entry p.nextGuid INVENTORY_SLOT_ITEM_START INVENTORY_SLOT_ITEM_END false bag slot) :=
  allTaken_free h bag slot (.inl (by decide))

variable (entry) in
theorem allTaken_tokens : AllTaken t p entry
    (p.inventoryOffers t entry p.nextGuid CURRENCYTOKEN_SLOT_START CURRENCYTOKEN_SLOT_END false bag slot) :=
  allTaken_free h bag slot (.inr (.inr ⟨rfl, rfl⟩))

theorem allTaken_bag {merge non_specialized : Bool} {skip_bag skip_slot i : ℕ} {xs : List (ℕ × ℕ)}
    (hoffers : p.bagOffers t entry p.nextGuid merge non_specialized skip_bag skip_slot i = some xs) :
    AllTaken t p entry xs := by
  intro x hx
  left
  unfold bagOffers at hoffers
  cases hbag : p.GetBagByPos t i with
  | none => simp [hbag] at hoffers
  | some pBag =>
    simp only [hbag] at hoffers
    split at hoffers
    · rename_i hall
      obtain rfl := Option.some.inj hoffers
      obtain ⟨hfirst, hslot, hoffered⟩ := mem_slotOffers hx
      cases merge with
      | true => exact accepts_of_merge h hoffered
      | false =>
        have hown : i ≠ INVENTORY_SLOT_BAG_0 := (GetBagByPos_spec hbag).2.2.1
        have hlt := List.mem_range.mp hslot
        have hresolve : p.resolve t x.1 x.2 = some (.bag pBag x.2) := by
          unfold resolve
          rw [hfirst, if_neg fun hboth => hown hboth.1, hbag, Option.bind_some, if_pos hlt]
        refine ⟨_, hresolve, ?_⟩
        rw [empty_of_free h hoffered hresolve]
        unfold emptySlotRefused
        rw [hfirst, if_neg hown, hbag]
        simp only [hall.2.2.2, Bool.not_true, Bool.or_false]
        exact decide_eq_false (Nat.not_le.mpr hlt)
    · simp at hoffers

theorem allTaken_bags (merge non_specialized : Bool) :
    AllTaken t p entry (p.bagsOffers t entry p.nextGuid merge non_specialized bag slot) := by
  intro x hx
  obtain ⟨i, -, hi⟩ := List.mem_flatMap.mp hx
  cases hoffers : p.bagOffers t entry p.nextGuid merge non_specialized bag slot i with
  | none => simp [hoffers] at hi
  | some xs =>
    rw [hoffers] at hi
    exact allTaken_bag h hoffers x hi

theorem allTaken_specific {xs : List (ℕ × ℕ)}
    (hoffer : p.specificOffer t entry p.nextGuid bag slot = some xs) : AllTaken t p entry xs := by
  intro x hx
  left
  unfold specificOffer at hoffer
  rw [h.otherItem_new] at hoffer
  cases hget : p.GetItemByPos t bag slot with
  | none =>
    simp only [hget] at hoffer
    split at hoffer
    · simp at hoffer
    · rename_i haccepted
      rw [Bool.not_eq_true] at haccepted
      obtain rfl := Option.some.inj hoffer
      rw [List.mem_singleton.mp hx]
      obtain ⟨place, hresolve⟩ := resolve_of_accepted haccepted
      rw [GetItemByPos_eq hresolve] at hget
      refine ⟨place, hresolve, ?_⟩
      rw [hget]
      exact haccepted
  | some g =>
    simp only [hget] at hoffer
    split at hoffer
    · rename_i hmerge
      obtain rfl := Option.some.inj hoffer
      rw [List.mem_singleton.mp hx]
      obtain ⟨place, hresolve, hat⟩ := GetItemByPos_some hget
      refine ⟨place, hresolve, ?_⟩
      rw [hat]
      exact hmerge
    · simp at hoffer

variable {rest : List (ℕ × ℕ)} (hrest : AllTaken t p entry rest)
include hrest

theorem allTaken_family (withTokens : Bool) :
    AllTaken t p entry (p.familyOffers t entry p.nextGuid bag slot withTokens rest) := by
  have htokens := (allTaken_tokens entry h bag slot).append hrest
  unfold familyOffers
  split
  · rename_i hkey
    exact (allTaken_free h bag slot (.inr (.inl ⟨rfl, rfl, hkey⟩))).append (htokens.ite hrest)
  · split
    · exact htokens
    · exact hrest

theorem allTaken_mergeOffers : AllTaken t p entry (p.mergeOffers t entry p.nextGuid bag slot rest) :=
  (allTaken_merge h bag slot _ _).append ((allTaken_merge h bag slot _ _).append hrest)

theorem allTaken_searchBag (merge : Bool) :
    AllTaken t p entry ((p.searchBagOffers t entry p.nextGuid merge slot bag).elim [] (· ++ rest)) := by
  unfold searchBagOffers
  cases hspecial : p.bagOffers t entry p.nextGuid merge false NULL_BAG slot bag with
  | some xs => exact (allTaken_bag h hspecial).append hrest
  | none =>
    cases hplain : p.bagOffers t entry p.nextGuid merge true NULL_BAG slot bag with
    | some xs => exact (allTaken_bag h hplain).append hrest
    | none => exact allTaken_nil

theorem allTaken_givenBag : AllTaken t p entry (p.givenBagOffers t entry p.nextGuid bag slot rest) := by
  have hfamily := allTaken_family h bag slot ((allTaken_backpack entry h bag slot).append hrest) true
  have hsearch := allTaken_searchBag h bag slot hrest false
  unfold givenBagOffers
  by_cases hown : bag = INVENTORY_SLOT_BAG_0
  · simp only [if_pos hown]
    exact (allTaken_mergeOffers h bag slot hfamily).ite hfamily
  · simp only [if_neg hown]
    exact (allTaken_searchBag h bag slot hsearch true).ite hsearch

omit hrest

variable (entry) in
theorem allTaken_anywhere : AllTaken t p entry (p.anywhereOffers t entry p.nextGuid bag slot) := by
  have hlast := (allTaken_backpack entry h bag slot).append
    ((allTaken_bags h bag slot false true).append allTaken_nil)
  have hfamily := allTaken_family h bag slot ((allTaken_bags h bag slot false false).append hlast) false
  have hfree := hfamily.ite hlast (c := decide ((t entry).bagFamily ≠ 0))
  have hmerged := (allTaken_bags h bag slot true true).append hfree
  exact (allTaken_mergeOffers h bag slot (((allTaken_bags h bag slot true false).append hmerged).ite hmerged)).ite hfree

theorem allTaken_newItem : AllTaken t p entry (p.newItemPositions t bag slot entry) := by
  have hanywhere := allTaken_anywhere entry h bag slot
  have hrest := (allTaken_givenBag h bag slot hanywhere).ite hanywhere (c := decide (bag ≠ NULL_BAG))
  apply AllTaken.ite _ hrest
  cases hoffer : p.specificOffer t entry p.nextGuid bag slot with
  | none => exact allTaken_nil
  | some xs => exact (allTaken_specific h bag slot hoffer).append hrest

end Lists

/-! ### The counts -/

variable (t limits p entry) in
theorem similar_cases (hcount : count < 2 ^ 32) :
    p.CanTakeMoreSimilarItems t limits entry count = (.ok, 0) ∨
      (p.CanTakeMoreSimilarItems t limits entry count).1 ≠ .ok ∧
        (p.CanTakeMoreSimilarItems t limits entry count).2 < 2 ^ 32 := by
  unfold CanTakeMoreSimilarItems
  split
  · exact .inl rfl
  · split
    · exact .inr ⟨by simp, u32_lt _⟩
    · split
      · split
        · exact .inr ⟨by simp, hcount⟩
        · simp only
          split
          · exact .inr ⟨by simp, u32_lt _⟩
          · exact .inl rfl
      · exact .inl rfl

theorem one_le_freeStackSpace (h : p.Accepts t entry x ∨ p.WrongTokenSlot t entry x) :
    1 ≤ p.freeStackSpace t entry x := by
  have hmax := (t entry).GetMaxStackSize_pos
  unfold freeStackSpace
  obtain ⟨place, hresolve, haccepts⟩ | ⟨-, hbag, hge, hlt, hempty⟩ := h
  · rw [GetItemByPos_eq hresolve]
    cases hat : p.at? place with
    | none => simpa using hmax
    | some g =>
      rw [hat] at haccepts
      have hroom := (mergedPartly haccepts).2
      simp only [Option.map_some, Option.getD_some]
      omega
  · have hresolve : p.resolve t x.1 x.2 = some (.own x.2) := if_pos ⟨hbag, .inr ⟨Nat.le_trans (by decide) hge, hlt⟩⟩
    rw [GetItemByPos_eq hresolve, hempty]
    simpa using hmax

theorem CanStoreNewItem_eq (h : p.Sound t) (bag slot : ℕ) (hpos : 1 ≤ count) (hcount : count < 2 ^ 32)
    (hsome : ¬ ((p.CanTakeMoreSimilarItems t limits entry count).1 ≠ .ok ∧
      count = (p.CanTakeMoreSimilarItems t limits entry count).2)) :
    let noSimilar := (p.CanTakeMoreSimilarItems t limits entry count).2
    let plan := Plan.fill (p.freeStackSpace t entry) (p.newItemPositions t bag slot entry)
      ⟨[], subU32 count noSimilar⟩
    0 < subU32 count noSimilar ∧
      (p.CanStoreNewItem t limits bag slot entry count).2 = (plan.dest, u32 (plan.count + noSimilar)) ∧
      ((p.CanStoreNewItem t limits bag slot entry count).1 = .ok ↔ plan.count = 0 ∧ noSimilar = 0) := by
  have hcases := similar_cases t limits p entry hcount
  unfold CanStoreNewItem
  generalize p.CanTakeMoreSimilarItems t limits entry count = similar at hcases hsome ⊢
  have hstart : 0 < subU32 count similar.2 := by
    obtain rfl | ⟨hmsg, hlt⟩ := hcases
    · rw [subU32_of_le (Nat.zero_le _) hcount]
      exact hpos
    · have hne : count ≠ similar.2 := fun heq => hsome ⟨hmsg, heq⟩
      unfold subU32 u32
      omega
  have hsame : (if similar.1 ≠ .ok then subU32 count similar.2 else count) = subU32 count similar.2 := by
    obtain rfl | ⟨hmsg, -⟩ := hcases
    · rw [if_neg (not_not.mpr rfl), subU32_of_le (Nat.zero_le _) hcount, Nat.sub_zero]
    · rw [if_pos hmsg]
  have hfill := realizes_storeBlocks entry h.isNotEmptyBag_new similar.2 bag slot ⟨[], subU32 count similar.2⟩ hstart
  rw [h.freeSpace_new] at hfill
  simp only [if_neg hsome, hsame]
  refine ⟨hstart, ?_, hfill.2⟩
  rw [hfill.1]
  refine Prod.ext rfl ?_
  simp only
  split
  · rename_i hdone
    obtain ⟨hzero, hnone⟩ := hfill.2.mp hdone
    unfold newItemPositions
    rw [hzero, hnone]
    rfl
  · rfl

/-- A plan is exact unless there is more room than was asked for and the player has more than the limit, or a token
slot is reached by an entry that is no token. -/
theorem plansExactly_iff (h : p.Sound t) (bag slot : ℕ) (hpos : 1 ≤ count) (hcount : count < 2 ^ 32) :
    p.PlansExactly t limits bag slot entry count ↔
      ((p.CanTakeMoreSimilarItems t limits entry count).2 ≤ count ∨
        room (p.freeStackSpace t entry) (p.newItemPositions t bag slot entry) ≤ count) ∧
      ∀ before x after, p.newItemPositions t bag slot entry = before ++ x :: after → p.WrongTokenSlot t entry x →
        subU32 count (p.CanTakeMoreSimilarItems t limits entry count).2 ≤ room (p.freeStackSpace t entry) before := by
  by_cases hall : (p.CanTakeMoreSimilarItems t limits entry count).1 ≠ .ok ∧
      count = (p.CanTakeMoreSimilarItems t limits entry count).2
  · have heq : p.CanStoreNewItem t limits bag slot entry count =
        ((p.CanTakeMoreSimilarItems t limits entry count).1, [], (p.CanTakeMoreSimilarItems t limits entry count).2) :=
      if_pos hall
    have hzero : subU32 count (p.CanTakeMoreSimilarItems t limits entry count).2 = 0 := by
      rw [← hall.2, subU32_of_le (Nat.le_refl _) hcount, Nat.sub_self]
    constructor
    · intro _
      refine ⟨.inl hall.2.ge, fun _ _ _ _ _ => ?_⟩
      rw [hzero]
      exact Nat.zero_le _
    · intro _
      constructor <;> rw [heq]
      · exact List.nodup_nil
      · exact fun _ hd => absurd hd List.not_mem_nil
      · exact fun _ hd => absurd hd List.not_mem_nil
      · simpa using hall.2.symm
      · exact fun hok => absurd hok hall.1
  · have hsimilar : (p.CanTakeMoreSimilarItems t limits entry count).2 < 2 ^ 32 := by
      obtain hnone | hsome := similar_cases t limits p entry hcount
      · rw [hnone]
        decide
      · exact hsome.2
    obtain ⟨hstart, hplan, hok⟩ := CanStoreNewItem_eq h bag slot hpos hcount hall
    have hleft := Plan.fill_nil_count (p.freeStackSpace t entry) (p.newItemPositions t bag slot entry) hstart
    have hgood : (Plan.fill (p.freeStackSpace t entry) (p.newItemPositions t bag slot entry)
        ⟨[], subU32 count (p.CanTakeMoreSimilarItems t limits entry count).2⟩).Good
        (fun d => 1 ≤ d.count ∧ d.count ≤ p.freeStackSpace t entry d.pos) _ :=
      (good_nil _ _).fill hstart fun x hx =>
        ⟨one_le_freeStackSpace (allTaken_newItem h bag slot x hx), fun _ hk hle => ⟨hk, hle⟩⟩
    have hmem := Plan.mem_fill_nil (p.freeStackSpace t entry) (p.newItemPositions t bag slot entry) hstart
    have haccepts : (∀ d ∈ (p.CanStoreNewItem t limits bag slot entry count).2.1, p.Accepts t entry d.pos) ↔
        ∀ before x after, p.newItemPositions t bag slot entry = before ++ x :: after → p.WrongTokenSlot t entry x →
          subU32 count (p.CanTakeMoreSimilarItems t limits entry count).2 ≤ room (p.freeStackSpace t entry) before := by
      rw [hplan]
      constructor
      · intro hd before x after hlist hwrong
        by_contra hless
        obtain ⟨d, hd', rfl⟩ := List.mem_map.mp ((hmem x).mpr ⟨before, after, hlist, Nat.lt_of_not_le hless⟩)
        exact (hd d hd').not_wrong hwrong
      · intro hwrong d hd
        obtain ⟨before, after, hlist, hless⟩ := (hmem d.pos).mp (List.mem_map_of_mem hd)
        have hin : d.pos ∈ p.newItemPositions t bag slot entry := by
          rw [hlist]
          simp
        obtain haccepts | hbad := allTaken_newItem h bag slot _ hin
        · exact haccepts
        · exact absurd (hwrong before d.pos after hlist hbad) (Nat.not_le.mpr hless)
    have hsum := hgood.sum
    have hexact : ((p.CanStoreNewItem t limits bag slot entry count).2.1.map ItemPosCount.count).sum +
        (p.CanStoreNewItem t limits bag slot entry count).2.2 = count ↔
        ((p.CanTakeMoreSimilarItems t limits entry count).2 ≤ count ∨
          room (p.freeStackSpace t entry) (p.newItemPositions t bag slot entry) ≤ count) := by
      rw [hplan]
      generalize (p.CanTakeMoreSimilarItems t limits entry count).2 = k at *
      simp only
      unfold subU32 u32 at *
      omega
    constructor
    · intro hexactly
      exact ⟨hexact.mp hexactly.exact_sum, haccepts.mp hexactly.accepted⟩
    · intro hcond
      constructor
      · rw [hplan]
        exact hgood.nodup
      · exact haccepts.mpr hcond.2
      · rw [hplan]
        exact hgood.fits
      · exact hexact.mpr hcond.1
      · intro hdone
        obtain ⟨hzero, hnone⟩ := hok.mp hdone
        rw [hplan]
        simp only
        rw [hzero, hnone]
        rfl

/-! ### More than the limit -/

def oneOnly : CarryLimits where
  MaxCount _ := 1
  ItemLimitCategory _ := 0
  sItemLimitCategoryStore _ := none

theorem plansExactly_thirty : (samplePlayer [(23, 2, 15)]).PlansExactly sampleTemplates
    { oneOnly with MaxCount := fun _ => 0 } NULL_BAG NULL_SLOT 2 30 :=
  (plansExactly_iff (sound_of_rows (by decide) (fun _ => rfl) rfl rfl) NULL_BAG NULL_SLOT
    (by decide) (by decide)).mpr (by
      have hslots : ∀ x ∈ (samplePlayer [(23, 2, 15)]).newItemPositions sampleTemplates NULL_BAG NULL_SLOT 2,
          x.2 < CURRENCYTOKEN_SLOT_START := by decide +kernel
      refine ⟨.inl (by decide +kernel), fun before x after hlist hwrong => ?_⟩
      have hx := hslots x (by rw [hlist]; simp)
      exact absurd hwrong.2.2.1 (Nat.not_le.mpr hx))

/-- Three of an entry of which one is allowed, and one more: the backpack is filled with it. -/
theorem plan_overfull : ¬ ∀ (t : Templates) (limits : CarryLimits) (p : Player) (bag slot entry count : ℕ), p.Sound t →
    1 ≤ count → count < 2 ^ 32 → p.PlansExactly t limits bag slot entry count := by
  intro hall
  have hsound : (samplePlayer [(23, 2, 3)]).Sound sampleTemplates := sound_of_rows (by decide) (fun _ => rfl) rfl rfl
  have hplan := hall sampleTemplates oneOnly (samplePlayer [(23, 2, 3)]) NULL_BAG NULL_SLOT 2 1 hsound (by decide)
    (by decide)
  exact absurd hplan.exact_sum (by decide +kernel)

end Player

end HysteriaCore.Inventory
