import HysteriaCore.Lib.KeyedList
import HysteriaCore.Objects.Money

/-!
# The trade of two players

Each player has the data of an own offer. A trade that has been completed or cancelled is gone: every
request on it returns at once.
-/

namespace HysteriaCore.Trades
open Lib Objects

inductive Side where
  | first
  | second
deriving DecidableEq

def Side.other : Side → Side
  | .first => .second
  | .second => .first

structure Item where
  guid : ℕ
  entry : ℕ
  count : ℕ
  bag : ℕ
  slot : ℕ
deriving DecidableEq

abbrev Inventory := KeyedList Item.guid

structure TradeData where
  accepted : Bool
  money : ℕ
  spell : ℕ
  spellCastItem : ℕ
  items : Fin 7 → ℕ
deriving DecidableEq

def TRADE_SLOT_NONTRADED : Fin 7 := 6

def tradedSlots : List (Fin 7) := [0, 1, 2, 3, 4, 5]

structure Storage where
  canStoreItem : Inventory → Item → Bool
  /-- the rest of `CanStoreItems`: of the inventory, own items that are in trade and the items that come -/
  hasSpace : Inventory → List Item → List Item → Bool
  moveItemToInventory : Inventory → Item → Inventory
  /-- with the destinations of another item in the list already -/
  moveBack : Inventory → Option Item → Item → Inventory

structure Rules where
  canBeTraded : Side → Item → Bool
  isBindedNotWith : Side → Item → Bool
  spellInfo : ℕ → Bool
  storage : Side → Storage

/-- `Player::CanStoreItems` of the partner's items. -/
def Rules.canStoreItems (rules : Rules) (s : Side) (inventory : Inventory) (own items : List Item) : Bool :=
  items.all (fun item => !rules.isBindedNotWith s.other item) && (rules.storage s).hasSpace inventory own items

inductive Status where
  | isOpen
  | completed
  | cancelled
deriving DecidableEq

structure Trade where
  money : Side → ℕ
  inventory : Side → Inventory
  data : Side → TradeData
  status : Status
  /-- accepted the offers as they are, without a refusal; not data of the server -/
  agreed : Side → Bool

inductive Answer where
  | none
  | notEnoughGold
  | tooMuchGold
  | tradeCanceled
  | notEligible
  | spellFailed
  | notFreeTradeSlots
  | tradeAccept
  | tradeComplete
deriving DecidableEq

def Answer.isAcceptance (a : Answer) : Bool := decide (a = .tradeAccept ∨ a = .tradeComplete)

namespace TradeData

def hasItem (d : TradeData) (guid : ℕ) : Bool := decide (∃ i, d.items i = guid)

def offer (d : TradeData) : ℕ × ℕ × ℕ × (Fin 7 → ℕ) := (d.money, d.spell, d.spellCastItem, d.items)

end TradeData

namespace Trade
variable (rules : Rules) (m : Trade) (s : Side)

def setData (d : TradeData) : Trade := { m with data := Function.update m.data s d }

def setAccepted (state : Bool) : Trade := m.setData s { m.data s with accepted := state }

def backToTrade : Trade := { m with data := fun s => { m.data s with accepted := false } }

def setSpell (spell castItem : ℕ) : Trade :=
  if (m.data s).spell = spell ∧ (m.data s).spellCastItem = castItem then m
  else (m.setData s { m.data s with spell := spell, spellCastItem := castItem }).backToTrade

def setMoney (money : ℕ) : Trade :=
  if (m.data s).money = money then m
  else if hasEnoughMoney (m.money s) money = false then m
  else (m.setData s { m.data s with money := money }).backToTrade

def setItem (slot : Fin 7) (itemGuid : ℕ) : Trade :=
  if (m.data s).items slot = itemGuid then m
  else
    let m := (m.setData s
      { m.data s with items := Function.update (m.data s).items slot itemGuid }).backToTrade
    let m := if slot = TRADE_SLOT_NONTRADED then m.setSpell s.other 0 0 else m
    m.setSpell s 0 0

/-! ### Requests on the offers -/

def getItemByPos (bag slot : ℕ) : Option Item :=
  (m.inventory s).rows.find? fun i => decide (i.bag = bag ∧ i.slot = slot)

def handleSetTradeItem (tradeSlot bag slot : ℕ) : Trade :=
  if h : tradeSlot < 7 then
    match m.getItemByPos s bag slot with
    | none => m
    | some item =>
      if (⟨tradeSlot, h⟩ : Fin 7) ≠ TRADE_SLOT_NONTRADED ∧ rules.canBeTraded s item = false then m
      else if (m.data s).hasItem item.guid then m
      else m.setItem s ⟨tradeSlot, h⟩ item.guid
  else m

def handleClearTradeItem (tradeSlot : ℕ) : Trade :=
  if h : tradeSlot < 7 then m.setItem s ⟨tradeSlot, h⟩ 0 else m

/-! ### Accepting -/

def getItem (i : Fin 7) : Option Item :=
  if (m.data s).items i = 0 then none else (m.inventory s).find? ((m.data s).items i)

def refusal : Option Answer :=
  tradedSlots.findSome? fun i =>
    if (m.getItem s i).any (fun item => !rules.canBeTraded s item) then some .tradeCanceled
    else if (m.getItem s i).any (rules.isBindedNotWith s) then some .notEligible
    else if (m.getItem s.other i).any (fun item => !rules.canBeTraded s.other item) then some .tradeCanceled
    else none

def spellFails (checkCast : Side → Bool) : Bool :=
  decide ((m.data s).spell ≠ 0) &&
    (!rules.spellInfo (m.data s).spell || (m.getItem s.other TRADE_SLOT_NONTRADED).isNone ||
      (decide ((m.data s).spellCastItem ≠ 0) && ((m.inventory s).find? (m.data s).spellCastItem).isNone) ||
      !checkCast s)

def offered : List (Option Item) := tradedSlots.map (m.getItem s)

def removeItems (inventory : Inventory) (items : List Item) : Inventory :=
  items.foldl (fun inventory item => inventory.erase item.guid) inventory

def store (storage : Storage) (inventory : Inventory) : Option Item → Inventory
  | none => inventory
  | some item => storage.moveItemToInventory inventory item

def giveBack (storage : Storage) (inventory : Inventory) (left : Option Item) : Option Item → Inventory
  | none => inventory
  | some item => if storage.canStoreItem inventory item then storage.moveBack inventory left item else inventory

/-- `moveItems`, with the inventories of the player and of the trader -/
def moveItems (mine his : Storage) : List (Option Item × Option Item) → Inventory × Inventory → Inventory × Inventory
  | [], inventories => inventories
  | (myItem, hisItem) :: items, (inventory, traderInventory) =>
    let traderCanTrade := myItem.all (his.canStoreItem traderInventory)
    let playerCanTrade := hisItem.all (mine.canStoreItem inventory)
    if traderCanTrade && playerCanTrade then
      moveItems mine his items (store mine inventory hisItem, store his traderInventory myItem)
    else
      moveItems mine his items
        (giveBack mine inventory (if playerCanTrade then hisItem else none) myItem,
          giveBack his traderInventory (if traderCanTrade then myItem else none) hisItem)

def completeTrade : Trade :=
  let o := s.other
  let inventories := moveItems (rules.storage s) (rules.storage o) ((m.offered s).zip (m.offered o))
    (removeItems (m.inventory s) ((m.offered s).filterMap id), removeItems (m.inventory o) ((m.offered o).filterMap id))
  let pay (money give get : ℕ) := (modifyMoney (modifyMoney money (-toInt32 give)).2 (toInt32 get)).2
  { m with
    inventory := Function.update (Function.update m.inventory s inventories.1) o inventories.2
    money := Function.update (Function.update m.money s (pay (m.money s) (m.data s).money (m.data o).money)) o
      (pay (m.money o) (m.data o).money (m.data s).money)
    status := .completed }

def tryComplete (checkCast : Side → Bool) : Trade × Answer :=
  let o := s.other
  if m.spellFails rules s checkCast then (m.setSpell s 0 0, .spellFailed)
  else if m.spellFails rules o checkCast then (m.setSpell o 0 0, .spellFailed)
  else
    let mine := (m.offered s).filterMap id
    let his := (m.offered o).filterMap id
    if rules.canStoreItems o (m.inventory o) his mine = true ∧
        rules.canStoreItems s (m.inventory s) mine his = true then
      (m.completeTrade rules s, .tradeComplete)
    else (m.backToTrade, .notFreeTradeSlots)

def handleAcceptTrade (checkCast : Side → Bool) : Trade × Answer :=
  let o := s.other
  let m := m.setAccepted s true
  if hasEnoughMoney (m.money s) (m.data s).money = false then (m.setAccepted s false, .notEnoughGold)
  else if hasEnoughMoney (m.money o) (m.data o).money = false then (m.setAccepted o false, .notEnoughGold)
  else if subU32 maxMoneyAmount (m.data o).money ≤ m.money s then (m.setAccepted s false, .tooMuchGold)
  else if subU32 maxMoneyAmount (m.data s).money ≤ m.money o then (m.setAccepted o false, .tooMuchGold)
  else
    match m.refusal rules s with
    | some answer => (m, answer)
    | none => if (m.data o).accepted then m.tryComplete rules s checkCast else (m, .tradeAccept)

end Trade

inductive Request where
  | setTradeGold (s : Side) (gold : ℕ)
  | setTradeItem (s : Side) (tradeSlot bag slot : ℕ)
  | clearTradeItem (s : Side) (tradeSlot : ℕ)
  /-- a spell that a player casts on the item of the other -/
  | setSpell (s : Side) (spell castItem : ℕ)
  | acceptTrade (s : Side) (checkCast : Side → Bool)
  | unacceptTrade (s : Side)
  | cancelTrade (s : Side)

namespace Trade

def handle (rules : Rules) (m : Trade) : Request → Trade × Answer
  | .setTradeGold s gold => (m.setMoney s (u32 gold), .none)
  | .setTradeItem s tradeSlot bag slot => (m.handleSetTradeItem rules s tradeSlot bag slot, .none)
  | .clearTradeItem s tradeSlot => (m.handleClearTradeItem s tradeSlot, .none)
  | .setSpell s spell castItem => (m.setSpell s spell castItem, .none)
  | .acceptTrade s checkCast => m.handleAcceptTrade rules s checkCast
  | .unacceptTrade s => (m.setAccepted s false, .none)
  | .cancelTrade _ => ({ m with status := .cancelled }, .none)

def SameOffers (m m' : Trade) : Prop :=
  (m'.data .first).offer = (m.data .first).offer ∧ (m'.data .second).offer = (m.data .second).offer

instance (m m' : Trade) : Decidable (SameOffers m m') := inferInstanceAs (Decidable (_ ∧ _))

/-- Who agrees after a request: an accept counts unless it is refused, until an offer changes or it is
taken back. -/
def agreedAfter (m m' : Trade) (answer : Answer) (r : Request) (s : Side) : Bool :=
  let kept := m.agreed s && decide (SameOffers m m')
  match r with
  | .acceptTrade sender _ => if s = sender then answer.isAcceptance else kept
  | .unacceptTrade sender => if s = sender then false else kept
  | _ => kept

def next (rules : Rules) (m : Trade) (r : Request) : Trade :=
  if m.status = .isOpen then
    { (m.handle rules r).1 with agreed := m.agreedAfter (m.handle rules r).1 (m.handle rules r).2 r }
  else m

def step (rules : Rules) (m : Trade) (r : Request) : Option Trade := some (m.next rules r)

def begins (money : Side → ℕ) (inventory : Side → Inventory) : Trade :=
  ⟨money, inventory, fun _ => ⟨false, 0, 0, 0, fun _ => 0⟩, .isOpen, fun _ => false⟩

end Trade

end HysteriaCore.Trades
