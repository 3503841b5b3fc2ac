import HysteriaCore.Trades.TradeData

/-!
# Offers

What the items of an offer are, what becomes of them when they are moved, and what a request on an offer
changes.
-/

namespace HysteriaCore.Trades
open Lib Objects

def units (items : List Item) (entry : ℕ) : ℕ := (items.map fun i => if i.entry = entry then i.count else 0).sum

/-! ### Moving items -/

section Storage
variable {inventory : Inventory}

def Storage.StoresAll (storage : Storage) : Inventory → List Item → Prop
  | _, [] => True
  | inventory, item :: items =>
    storage.canStoreItem inventory item = true ∧ StoresAll storage (storage.moveItemToInventory inventory item) items

def Storage.storeAll (storage : Storage) (inventory : Inventory) (items : List Item) : Inventory :=
  items.foldl storage.moveItemToInventory inventory

def Storage.AddsUnits (storage : Storage) : Prop :=
  ∀ inventory item entry, storage.canStoreItem inventory item = true →
    units (storage.moveItemToInventory inventory item).rows entry = units inventory.rows entry + units [item] entry

/-- A list of items that is accepted can be stored, and storing an item adds just its units. -/
structure Rules.Lawful (rules : Rules) : Prop where
  fits : ∀ s inventory own items, rules.canStoreItems s inventory own items = true →
    (rules.storage s).StoresAll (Trade.removeItems inventory own) items
  adds : ∀ s, (rules.storage s).AddsUnits

theorem units_cons (item : Item) (items : List Item) (entry : ℕ) :
    units (item :: items) entry = units [item] entry + units items entry := by
  simp only [units, List.map_cons, List.sum_cons, List.map_nil, List.sum_nil, Nat.add_zero]

theorem units_storeAll {storage : Storage} (h : storage.AddsUnits) {items : List Item}
    (hall : storage.StoresAll inventory items) (entry : ℕ) :
    units (storage.storeAll inventory items).rows entry = units inventory.rows entry + units items entry := by
  induction items generalizing inventory with
  | nil => rfl
  | cons item items ih =>
    have hadds := h inventory item entry hall.1
    have hrest := ih hall.2
    rw [units_cons item items]
    rw [Storage.storeAll] at hrest ⊢
    rw [List.foldl_cons, hrest, hadds]
    omega

theorem moveItems_eq (mine his : Storage) (inventory traderInventory : Inventory)
    (items : List (Option Item × Option Item))
    (hmine : mine.StoresAll inventory ((items.map Prod.snd).filterMap id))
    (hhis : his.StoresAll traderInventory ((items.map Prod.fst).filterMap id)) :
    Trade.moveItems mine his items (inventory, traderInventory) =
      (mine.storeAll inventory ((items.map Prod.snd).filterMap id),
        his.storeAll traderInventory ((items.map Prod.fst).filterMap id)) := by
  induction items generalizing inventory traderInventory with
  | nil => rfl
  | cons pair items ih =>
    obtain ⟨myItem, hisItem⟩ := pair
    cases myItem with
    | none =>
      cases hisItem with
      | none => exact ih _ _ hmine hhis
      | some item =>
        have hcan : mine.canStoreItem inventory item = true := hmine.1
        rw [Trade.moveItems]
        simp only [Option.all_none, Option.all_some, hcan, Bool.and_true, if_true]
        exact ih _ _ hmine.2 hhis
    | some item =>
      have hcan : his.canStoreItem traderInventory item = true := hhis.1
      cases hisItem with
      | none =>
        rw [Trade.moveItems]
        simp only [Option.all_none, Option.all_some, hcan, Bool.and_true, if_true]
        exact ih _ _ hmine hhis.2
      | some item' =>
        have hcan' : mine.canStoreItem inventory item' = true := hmine.1
        rw [Trade.moveItems]
        simp only [Option.all_some, hcan, hcan', Bool.and_true, if_true]
        exact ih _ _ hmine.2 hhis.2

theorem units_removeItems {items : List Item} (hdistinct : (items.map Item.guid).Nodup)
    (hin : ∀ item ∈ items, item ∈ inventory) (entry : ℕ) :
    units (Trade.removeItems inventory items).rows entry + units items entry = units inventory.rows entry := by
  induction items generalizing inventory with
  | nil => rfl
  | cons item items ih =>
    rw [List.map_cons, List.nodup_cons] at hdistinct
    have herase : units (inventory.erase item.guid).rows entry + units [item] entry = units inventory.rows entry := by
      have hsum := inventory.sum_erase (fun i => if i.entry = entry then i.count else 0) (hin item List.mem_cons_self)
      simpa only [units, List.map_cons, List.sum_cons, List.map_nil, List.sum_nil, Nat.add_zero] using hsum
    have hrest : units (Trade.removeItems (inventory.erase item.guid) items).rows entry + units items entry =
        units (inventory.erase item.guid).rows entry := ih hdistinct.2 fun i hi =>
      (inventory.mem_erase _ i).mpr ⟨hin i (List.mem_cons_of_mem _ hi), fun heq =>
        hdistinct.1 (List.mem_map.mpr ⟨i, hi, heq⟩)⟩
    rw [units_cons item items, show Trade.removeItems inventory (item :: items) =
      Trade.removeItems (inventory.erase item.guid) items from rfl]
    omega

end Storage

namespace Trade
variable {rules : Rules} {m m' : Trade} {s : Side}

@[simp] theorem other_other : s.other.other = s := by cases s <;> rfl

theorem other_ne : s.other ≠ s := by cases s <;> decide

theorem eq_or_eq_other (s t : Side) : t = s ∨ t = s.other := by cases s <;> cases t <;> decide

theorem sameOffers_iff : SameOffers m m' ↔ ∀ s, (m'.data s).offer = (m.data s).offer :=
  ⟨fun h s => by cases s; exacts [h.1, h.2], fun h => ⟨h _, h _⟩⟩

/-! ### Offers -/

/-- What a player has offered: money that is there, and no item twice. -/
structure Valid (m : Trade) : Prop where
  affordable : ∀ s, (m.data s).money ≤ m.money s
  distinct : ∀ s i j, (m.data s).items i ≠ 0 → (m.data s).items i = (m.data s).items j → i = j

theorem getItem_mem {i : Fin 7} {item : Item} (h : m.getItem s i = some item) :
    item ∈ m.inventory s ∧ item.guid = (m.data s).items i ∧ (m.data s).items i ≠ 0 := by
  rw [getItem] at h
  split at h
  · cases h
  next hne =>
    obtain ⟨hin, hguid⟩ := ((m.inventory s).find?_eq_some_iff _ item).mp h
    exact ⟨hin, hguid, hne⟩

def offeredFrom (inventory : Inventory) (d : TradeData) : List Item :=
  tradedSlots.filterMap fun i => if d.items i = 0 then none else inventory.find? (d.items i)

def offeredItems (m : Trade) (s : Side) : List Item := offeredFrom (m.inventory s) (m.data s)

theorem offered_filterMap (m : Trade) (s : Side) : (m.offered s).filterMap id = m.offeredItems s := by
  rw [offered, List.filterMap_map]
  rfl

theorem mem_offeredItems {item : Item} : item ∈ m.offeredItems s ↔ ∃ i ∈ tradedSlots, m.getItem s i = some item :=
  List.mem_filterMap

theorem offeredItems_distinct (h : m.Valid) (s : Side) : ((m.offeredItems s).map Item.guid).Nodup := by
  have hitems : (m.offeredItems s).Nodup := by
    refine List.Nodup.filterMap (fun i j item hi hj => ?_) (by decide)
    obtain ⟨-, hguid, hne⟩ := getItem_mem (Option.mem_def.mp hi)
    obtain ⟨-, hguid', -⟩ := getItem_mem (Option.mem_def.mp hj)
    exact h.distinct s i j hne (hguid.symm.trans hguid')
  refine List.Nodup.map_on (fun item hitem item' hitem' hguid => ?_) hitems
  obtain ⟨i, -, hi⟩ := mem_offeredItems.mp hitem
  obtain ⟨j, -, hj⟩ := mem_offeredItems.mp hitem'
  exact (m.inventory s).eq_of_key_eq (getItem_mem hi).1 (getItem_mem hj).1 hguid

theorem refusal_eq_none_iff : m.refusal rules s = none ↔ ∀ i ∈ tradedSlots,
    (∀ item ∈ m.getItem s i, rules.canBeTraded s item = true ∧ rules.isBindedNotWith s item = false) ∧
      ∀ item ∈ m.getItem s.other i, rules.canBeTraded s.other item = true := by
  rw [refusal, List.findSome?_eq_none_iff]
  refine forall₂_congr fun i _ => ?_
  cases m.getItem s i <;> cases m.getItem s.other i <;> simp <;> grind

theorem refusal_other (h : m.refusal rules s = none)
    (hbound : ∀ i ∈ tradedSlots, ∀ item ∈ m.getItem s.other i, rules.isBindedNotWith s.other item = false) :
    m.refusal rules s.other = none := by
  have hpasses := refusal_eq_none_iff.mp h
  refine refusal_eq_none_iff.mpr fun i hi => ⟨fun item hitem => ?_, fun item hitem => ?_⟩
  · exact ⟨(hpasses i hi).2 item hitem, hbound i hi item hitem⟩
  · rw [other_other] at hitem ⊢
    exact ((hpasses i hi).1 item hitem).1

def Refusable (rules : Rules) (m : Trade) (s : Side) : Prop :=
  (∃ t, maxMoneyAmount ≤ m.money t + (m.data t.other).money) ∨ m.refusal rules s ≠ none

theorem SameOffers.data (h : SameOffers m m') (t : Side) : (m'.data t).money = (m.data t).money ∧
    (m'.data t).spell = (m.data t).spell ∧ (m'.data t).items = (m.data t).items :=
  have hoffer := sameOffers_iff.mp h t
  ⟨congrArg (·.1) hoffer, congrArg (·.2.1) hoffer, congrArg (·.2.2.2) hoffer⟩

theorem getItem_congr (hinventory : m'.inventory = m.inventory) (hoffers : SameOffers m m') (t : Side) (i : Fin 7) :
    m'.getItem t i = m.getItem t i := by rw [getItem, (hoffers.data t).2.2, hinventory, getItem]

theorem refusal_congr (hinventory : m'.inventory = m.inventory) (hoffers : SameOffers m m') :
    m'.refusal rules s = m.refusal rules s := by
  simp only [refusal, getItem_congr hinventory hoffers]

theorem refusable_congr (hmoney : m'.money = m.money) (hinventory : m'.inventory = m.inventory)
    (hoffers : SameOffers m m') : m'.Refusable rules s ↔ m.Refusable rules s := by
  simp only [Refusable, hmoney, refusal_congr hinventory hoffers, (hoffers.data _).1]

theorem valid_congr (hmoney : m'.money = m.money) (hoffers : SameOffers m m') (h : m.Valid) : m'.Valid where
  affordable := fun t => by
    rw [(hoffers.data t).1, hmoney]
    exact h.affordable t
  distinct := fun t => by
    rw [(hoffers.data t).2.2]
    exact h.distinct t

/-! ### Requests on the offers -/

structure Reoffers (m m' : Trade) : Prop where
  money : m'.money = m.money
  inventory : m'.inventory = m.inventory
  status : m'.status = m.status
  flags : ∀ s, (m'.data s).accepted = false
  valid : m.Valid → m'.Valid

theorem Reoffers.trans {m'' : Trade} (h : Reoffers m m') (h' : m'' = m' ∨ Reoffers m' m'') : Reoffers m m'' := by
  rcases h' with rfl | h'
  · exact h
  · exact ⟨h'.money.trans h.money, h'.inventory.trans h.inventory, h'.status.trans h.status, h'.flags,
      fun hvalid => h'.valid (h.valid hvalid)⟩

theorem data_setData_self (m : Trade) (s : Side) (d : TradeData) : (m.setData s d).data s = d := by
  simp only [setData, Function.update_self]

theorem data_setData_of_ne {t : Side} (h : t ≠ s) (d : TradeData) : (m.setData s d).data t = m.data t := by
  simp only [setData, Function.update_of_ne h]

theorem reoffers_setData {d : TradeData} (hmoney : m.Valid → d.money ≤ m.money s)
    (hdistinct : m.Valid → ∀ i j, d.items i ≠ 0 → d.items i = d.items j → i = j) :
    Reoffers m (m.setData s d).backToTrade := by
  refine ⟨rfl, rfl, rfl, fun _ => rfl, fun hvalid => ⟨fun t => ?_, fun t => ?_⟩⟩
  · show ((m.setData s d).data t).money ≤ m.money t
    by_cases ht : t = s
    · rw [ht, data_setData_self]
      exact hmoney hvalid
    · rw [data_setData_of_ne ht]
      exact hvalid.affordable t
  · show ∀ i j, ((m.setData s d).data t).items i ≠ 0 →
      ((m.setData s d).data t).items i = ((m.setData s d).data t).items j → i = j
    by_cases ht : t = s
    · rw [ht, data_setData_self]
      exact hdistinct hvalid
    · rw [data_setData_of_ne ht]
      exact hvalid.distinct t

theorem reoffers_backToTrade (m : Trade) : Reoffers m m.backToTrade :=
  ⟨rfl, rfl, rfl, fun _ => rfl, fun hvalid => ⟨hvalid.affordable, hvalid.distinct⟩⟩

theorem setSpell_reoffers (m : Trade) (s : Side) (spell castItem : ℕ) :
    m.setSpell s spell castItem = m ∨ Reoffers m (m.setSpell s spell castItem) := by
  rw [setSpell]
  split
  · exact .inl rfl
  · exact .inr (reoffers_setData (fun hvalid => hvalid.affordable s) fun hvalid => hvalid.distinct s)

theorem setMoney_reoffers (m : Trade) (s : Side) (money : ℕ) :
    m.setMoney s money = m ∨ Reoffers m (m.setMoney s money) := by
  rw [setMoney]
  split
  · exact .inl rfl
  · split
    · exact .inl rfl
    next henough =>
      have hle : money ≤ m.money s := of_decide_eq_true (Bool.eq_true_of_not_eq_false henough)
      exact .inr (reoffers_setData (fun _ => hle) fun hvalid => hvalid.distinct s)

theorem distinct_update {items : Fin 7 → ℕ} (h : ∀ i j, items i ≠ 0 → items i = items j → i = j) {slot : Fin 7}
    {guid : ℕ} (hnew : guid ≠ 0 → ∀ i, items i ≠ guid) (i j : Fin 7) (hi : Function.update items slot guid i ≠ 0)
    (hij : Function.update items slot guid i = Function.update items slot guid j) : i = j := by
  by_cases hslot : i = slot
  · by_cases hslot' : j = slot
    · exact hslot.trans hslot'.symm
    · rw [hslot, Function.update_self] at hi hij
      rw [Function.update_of_ne hslot'] at hij
      exact absurd hij.symm (hnew hi j)
  · rw [Function.update_of_ne hslot] at hi hij
    by_cases hslot' : j = slot
    · rw [hslot', Function.update_self] at hij
      exact absurd hij (hnew (hij ▸ hi) i)
    · rw [Function.update_of_ne hslot'] at hij
      exact h i j hi hij

theorem setItem_reoffers {slot : Fin 7} {itemGuid : ℕ} (hnew : itemGuid ≠ 0 → ∀ i, (m.data s).items i ≠ itemGuid) :
    m.setItem s slot itemGuid = m ∨ Reoffers m (m.setItem s slot itemGuid) := by
  unfold setItem
  split
  · exact .inl rfl
  · extract_lets d m₁ m₂
    have h₁ : Reoffers m m₁ := reoffers_setData (fun hvalid => hvalid.affordable s) fun hvalid =>
      distinct_update (hvalid.distinct s) hnew
    have h₂ : Reoffers m m₂ := by
      rw [show m₂ = if _ then _ else _ from rfl]
      split
      · exact h₁.trans (m₁.setSpell_reoffers s.other 0 0)
      · exact h₁
    exact .inr (h₂.trans (m₂.setSpell_reoffers s 0 0))

theorem handleSetTradeItem_reoffers (m : Trade) (s : Side) (tradeSlot bag slot : ℕ) :
    m.handleSetTradeItem rules s tradeSlot bag slot = m ∨
      Reoffers m (m.handleSetTradeItem rules s tradeSlot bag slot) := by
  rw [handleSetTradeItem]
  split
  · split
    · exact .inl rfl
    · split
      · exact .inl rfl
      · split
        · exact .inl rfl
        next hnot =>
          refine setItem_reoffers fun _ i hi => hnot ?_
          exact decide_eq_true ⟨i, hi⟩
  · exact .inl rfl

theorem handleClearTradeItem_reoffers (m : Trade) (s : Side) (tradeSlot : ℕ) :
    m.handleClearTradeItem s tradeSlot = m ∨ Reoffers m (m.handleClearTradeItem s tradeSlot) := by
  rw [handleClearTradeItem]
  split
  · exact setItem_reoffers fun hzero => absurd rfl hzero
  · exact .inl rfl

end Trade

end HysteriaCore.Trades
