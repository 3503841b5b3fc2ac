import HysteriaCore.Lib.Stacks
import HysteriaCore.Lib.Runs
import HysteriaCore.Objects.Money
import Mathlib.Data.UInt

/-!
# The guild bank

Tabs of items, a purse, and what each rank may take in a day. One routine moves
items between tabs and between a tab and the inventory of a player: it reserves
positions for the item, removes it and stores it there, or swaps two items.
-/

namespace HysteriaCore.Guilds.Bank
open Lib

def guildBankMaxTabs : ℕ := 6

def guildBankMaxSlots : ℕ := 98

def nullSlot : ℕ := 255

def guildMaster : ℕ := 0

def rightWithdrawRepair : UInt32 := 0x40000

def rightWithdrawGold : UInt32 := 0x80000

def bankRightViewTab : UInt8 := 1

def bankRightPutItem : UInt8 := 2

def bankRightDepositItem : UInt8 := bankRightViewTab ||| bankRightPutItem

/-- `GUILD_WITHDRAW_MONEY_UNLIMITED`, `GUILD_WITHDRAW_SLOT_UNLIMITED` as an `int32` -/
def withdrawUnlimited : ℤ := -1

/-! ### Items and where they are -/

inductive Place where
  | bank (tab slot : ℕ)
  | inventory (guid bag slot : ℕ)
deriving DecidableEq

structure Marks where
  soulBound : Bool
  /-- what else forbids to trade it: generated loot, a bag in use, an enchantment -/
  untradeable : Bool
  notEmptyBag : Bool
deriving DecidableEq

abbrev Item := Stack Place ℕ Marks

def Marks.canBeTraded (m : Marks) : Bool := !m.soulBound && !m.untradeable

def Marks.setBinding (binds : Bool) (m : Marks) : Marks := { m with soulBound := m.soulBound || binds }

/-! ### Members and what their ranks may do -/

structure TabRights where
  rights : UInt8
  slots : ℕ

structure RankInfo where
  rights : UInt32
  bankMoneyPerDay : ℕ
  tabs : ℕ → TabRights

structure Member where
  guid : ℕ
  rank : ℕ
  /-- `m_bankWithdraw`: items by tab, and money after the last tab -/
  bankWithdraw : ℕ → ℤ

inductive BankEvent where
  | depositItem (tab guid : ℕ)
  | withdrawItem (tab guid : ℕ)
  | moveItem (tab guid destTab : ℕ)
  | withdrawMoney (guid amount : ℕ)
  | repairMoney (guid amount : ℕ)
deriving DecidableEq

structure World where
  purchasedTabs : ℕ
  purchasedTabs_le : purchasedTabs ≤ guildBankMaxTabs
  leaderGuid : ℕ
  ranks : List RankInfo
  members : KeyedList Member.guid
  bankMoney : ℕ
  items : Stacks Place ℕ Marks
  money : ℕ → ℕ
  log : List BankEvent

/-- The item templates, and the room that an inventory has for an item. -/
structure Rules where
  maxStack : ℕ → ℕ
  binds : ℕ → Bool
  /-- `Player::CanStoreItem` of a player, for a bag and a slot -/
  canStoreItem : Stacks Place ℕ Marks → ℕ → ℕ → ℕ → Item → Bool → Option (List (PosCount Place))

def Member.getBankWithdrawValue (m : Member) (tab : ℕ) : ℤ :=
  if m.rank = guildMaster then withdrawUnlimited else m.bankWithdraw tab

def Member.updateBankWithdrawValue (m : Member) (tab amount : ℕ) : Member :=
  { m with bankWithdraw := fun t => if t = tab then toInt32 (m.bankWithdraw t + amount) else m.bankWithdraw t }

def Place.tab? : Place → Option ℕ
  | bank tab _ => some tab
  | inventory .. => none

namespace World
variable (w : World)

/-! ### Ranks -/

def getRankInfo (rank : ℕ) : Option RankInfo := w.ranks[rank]?

def getMember (guid : ℕ) : Option Member := w.members.find? guid

def getRankRights (rank : ℕ) : UInt32 := ((w.getRankInfo rank).map fun r => r.rights).getD 0

def bankMoneyPerDay (rank : ℕ) : ℕ := ((w.getRankInfo rank).map fun r => r.bankMoneyPerDay).getD 0

def bankTabSlotsPerDay (rank tab : ℕ) : ℕ :=
  if tab < w.purchasedTabs then ((w.getRankInfo rank).map fun r => (r.tabs tab).slots).getD 0 else 0

def getRankBankMoneyPerDay (rank : ℕ) : ℤ := toInt32 (w.bankMoneyPerDay rank)

def getRankBankTabSlotsPerDay (rank tab : ℕ) : ℤ := toInt32 (w.bankTabSlotsPerDay rank tab)

def getRankBankTabRights (rank tab : ℕ) : UInt8 :=
  ((w.getRankInfo rank).map fun r => if tab < guildBankMaxTabs then (r.tabs tab).rights else 0).getD 0

def getMemberRemainingSlots (m : Member) (tab : ℕ) : ℤ :=
  if m.rank = guildMaster then withdrawUnlimited
  else if w.getRankBankTabRights m.rank tab &&& bankRightViewTab = 0 then 0
  else
    let remaining := toInt32 (w.getRankBankTabSlotsPerDay m.rank tab - m.getBankWithdrawValue tab)
    if 0 < remaining then remaining else 0

def getMemberRemainingMoney (m : Member) : ℤ :=
  if m.rank = guildMaster then withdrawUnlimited
  else if w.getRankRights m.rank &&& (rightWithdrawRepair ||| rightWithdrawGold) = 0 then 0
  else
    let remaining := toInt32 (w.getRankBankMoneyPerDay m.rank - m.getBankWithdrawValue guildBankMaxTabs)
    if 0 < remaining then remaining else 0

def memberHasTabRights (guid tab : ℕ) (rights : UInt8) : Bool :=
  (w.getMember guid).any fun m =>
    decide (m.rank = guildMaster) || decide (w.leaderGuid = guid) ||
      decide (w.getRankBankTabRights m.rank tab &&& rights = rights)

def updateMemberWithdrawSlots (guid tab : ℕ) : World :=
  { w with
    members := w.members.adjust guid
      (fun m =>
        if m.rank ≠ guildMaster ∧ m.getBankWithdrawValue tab < w.getRankBankTabSlotsPerDay m.rank tab then
          m.updateBankWithdrawValue tab 1
        else m)
      fun m => by split <;> rfl }

/-! ### One end of a move -/

def getItem (p : Place) : Option Item :=
  match p with
  | .bank tab slot => if tab < w.purchasedTabs ∧ slot < guildBankMaxSlots then w.items.find? p else none
  | .inventory _ _ _ => w.items.find? p

def initItem (p : Place) : Option Item :=
  match p with
  | .bank _ _ => w.getItem p
  | .inventory _ _ _ =>
    (w.getItem p).bind fun s => if s.marks.notEmptyBag || !s.marks.canBeTraded then none else some s

def hasStoreRights (guid : ℕ) (p other : Place) : Bool :=
  match p with
  | .bank tab _ => decide (other.tab? = some tab) || w.memberHasTabRights guid tab bankRightDepositItem
  | .inventory _ _ _ => true

def hasWithdrawRights (guid : ℕ) (p other : Place) : Bool :=
  match p with
  | .bank tab _ =>
    decide (other.tab? = some tab) ||
      (w.getMember guid).any fun m => decide (w.getMemberRemainingSlots m tab ≠ 0)
  | .inventory _ _ _ => true

end World

/-! ### Reserving positions in a tab -/

structure Reservation where
  vec : List (PosCount Place)
  count : ℕ

/-- `_ReserveSpace`: none when the stack in the slot cannot take any of it. -/
def reserveSpace (maxStack : ℕ) (p : Place) (entry : ℕ) (dest : Option Item) (r : Reservation) :
    Option Reservation :=
  let reserve (requiredSpace : ℕ) : Reservation :=
    if r.vec.any fun q => decide (q.pos = p) then r
    else ⟨r.vec ++ [⟨p, min requiredSpace r.count⟩], r.count - min requiredSpace r.count⟩
  match dest with
  | none => some (reserve maxStack)
  | some d => if d.entry ≠ entry ∨ maxStack ≤ d.count then none else some (reserve (maxStack - d.count))

/-- One slot of `CanStoreItemInTab`. `look` shows a slot without the item that is moved. -/
def reserveSlot (look : Place → Option Item) (maxStack tab entry skipSlot : ℕ) (merge : Bool)
    (r : Reservation) (slot : ℕ) : Reservation :=
  if r.count = 0 ∨ slot = skipSlot then r
  else
    let dest := look (.bank tab slot)
    if dest.isSome ≠ merge then r else (reserveSpace maxStack (.bank tab slot) entry dest r).getD r

def canStoreItemInTab (look : Place → Option Item) (maxStack tab entry skipSlot : ℕ) (merge : Bool)
    (r : Reservation) : Reservation :=
  (List.range guildBankMaxSlots).foldl (reserveSlot look maxStack tab entry skipSlot merge) r

namespace World
variable (rules : Rules) (w : World)

/-- The slots as `CanStore` of a tab sees them: the item that is moved does not
count, nor does, in a swap, the one in the slot that was specified. -/
def look (self : Option Place) (dest : Place) (swap : Bool) (p : Place) : Option Item :=
  if self = some p ∨ (swap = true ∧ p = dest) then none else w.getItem p

def canStoreInBank (tab slot : ℕ) (item : Item) (self : Option Place) (swap : Bool) :
    Option (List (PosCount Place)) :=
  let look := w.look self (.bank tab slot) swap
  let maxStack := rules.maxStack item.entry
  if item.marks.soulBound || decide (w.purchasedTabs ≤ tab) then none
  else
    let specified :=
      if slot = nullSlot then some ⟨[], item.count⟩
      else reserveSpace maxStack (.bank tab slot) item.entry (look (.bank tab slot)) ⟨[], item.count⟩
    specified.bind fun r =>
      if slot ≠ nullSlot ∧ r.count = 0 then some r.vec
      else
        let r := if 1 < maxStack then canStoreItemInTab look maxStack tab item.entry slot true r else r
        let r := canStoreItemInTab look maxStack tab item.entry slot false r
        if r.count = 0 then some r.vec else none

/-- `CanStore`; `self` is where the item is, unless it is a clone. -/
def canStore (p : Place) (item : Item) (self : Option Place) (swap : Bool) : Option (List (PosCount Place)) :=
  match p with
  | .bank tab slot => w.canStoreInBank rules tab slot item self swap
  | .inventory guid bag slot => rules.canStoreItem w.items guid bag slot item swap

/-! ### The other operations of an end -/

/-- `LogBankEvent` of the end an item goes to; nothing is logged within a tab. -/
def logBankEvent (guid : ℕ) (p pFrom : Place) : World :=
  match p, pFrom with
  | .bank tab _, .bank fromTab _ =>
    if fromTab = tab then w else { w with log := .moveItem fromTab guid tab :: w.log }
  | .bank tab _, .inventory _ _ _ => { w with log := .depositItem tab guid :: w.log }
  | .inventory _ _ _, .bank tab _ => { w with log := .withdrawItem tab guid :: w.log }
  | .inventory _ _ _, .inventory _ _ _ => w

def removeItem (guid : ℕ) (p other : Place) (splitedAmount : ℕ) : World :=
  let w := { w with items := w.items.takeAt p splitedAmount }
  match p with
  | .bank tab _ => if other.tab? = some tab then w else w.updateMemberWithdrawSlots guid tab
  | .inventory _ _ _ => w

def storeItem (p : Place) (item : Item) (vec : List (PosCount Place)) : World :=
  let mark : Marks → Marks :=
    match p with
    | .bank _ _ => id
    | .inventory _ _ _ => Marks.setBinding (rules.binds item.entry)
  { w with items := w.items.store item.entry item.marks mark vec }

/-! ### Moving -/

def movedItem (item : Item) (splitedAmount : ℕ) : Item :=
  if splitedAmount = 0 then item else { item with count := min splitedAmount (rules.maxStack item.entry) }

/-- `_DoItemsMove` with no item at the destination: none when it returns false. -/
def moveItem (guid : ℕ) (src dest : Place) (item : Item) (splitedAmount : ℕ) : Option World :=
  let srcItem := movedItem rules item splitedAmount
  (w.canStore rules dest srcItem (if splitedAmount = 0 then some src else none) false).map fun vec =>
    (((w.logBankEvent guid dest src).removeItem guid src dest splitedAmount).storeItem rules dest srcItem vec)

def exchangeItems (guid : ℕ) (src dest : Place) (srcItem destItem : Item) : Option World :=
  (w.canStore rules dest srcItem (some src) true).bind fun vec =>
    (w.canStore rules src destItem (some dest) true).map fun vec' =>
      let w := (w.logBankEvent guid dest src).logBankEvent guid src dest
      let w := (w.removeItem guid src dest 0).removeItem guid dest src 0
      (w.storeItem rules dest srcItem vec).storeItem rules src destItem vec'

def checkItem (item : Item) (splitedAmount : ℕ) : Option ℕ :=
  if item.count < splitedAmount then none
  else some (if splitedAmount = item.count then 0 else splitedAmount)

def trySwap (guid : ℕ) (src dest : Place) (srcItem : Item) : World :=
  match w.initItem dest with
  | none => w
  | some destItem =>
    if w.hasStoreRights guid src dest && w.hasWithdrawRights guid dest src then
      (w.exchangeItems rules guid src dest srcItem destItem).getD w
    else w

def moveItems (guid : ℕ) (src dest : Place) (splitedAmount : ℕ) : World :=
  match w.initItem src with
  | none => w
  | some item =>
    match checkItem item splitedAmount with
    | none => w
    | some splitedAmount =>
      if w.hasStoreRights guid dest src && w.hasWithdrawRights guid src dest then
        match w.moveItem rules guid src dest item splitedAmount with
        | some w' => w'
        | none => if splitedAmount = 0 then w.trySwap rules guid src dest item else w
      else w

/-! ### Requests -/

def swapItems (guid tab slot destTab destSlot splitedAmount : ℕ) : World :=
  if w.purchasedTabs ≤ tab ∨ guildBankMaxSlots ≤ slot ∨ w.purchasedTabs ≤ destTab ∨
      guildBankMaxSlots ≤ destSlot then w
  else if tab = destTab ∧ slot = destSlot then w
  else w.moveItems rules guid (.bank tab slot) (.bank destTab destSlot) splitedAmount

def swapItemsWithInventory (guid : ℕ) (toChar : Bool) (tab slot playerBag playerSlot splitedAmount : ℕ) : World :=
  if (guildBankMaxSlots ≤ slot ∧ slot ≠ nullSlot) ∨ w.purchasedTabs ≤ tab then w
  else if toChar then
    w.moveItems rules guid (.bank tab slot) (.inventory guid playerBag playerSlot) splitedAmount
  else w.moveItems rules guid (.inventory guid playerBag playerSlot) (.bank tab slot) splitedAmount

/-- The end of `HandleMemberWithdrawMoney`: what the member has taken today, the
bank's money and the log. -/
def withdrawMoney (guid amount : ℕ) (event : BankEvent) (money : ℕ) : World :=
  { w with
    money := fun g => if g = guid then money else w.money g
    members := w.members.adjust guid (fun m => m.updateBankWithdrawValue guildBankMaxTabs amount) fun _ => rfl
    bankMoney := w.bankMoney - amount
    log := event :: w.log }

def handleMemberWithdrawMoney (guid amount : ℕ) (repair : Bool) : World :=
  let amount := min amount Objects.maxMoneyAmount
  match w.getMember guid with
  | none => w
  | some m =>
    if w.bankMoney < amount ∨ (w.getMemberRemainingMoney m % 2^32).toNat < amount then w
    else if repair then w.withdrawMoney guid amount (.repairMoney guid amount) (w.money guid)
    else
      let paid := Objects.modifyMoney (w.money guid) amount
      if paid.1 then w.withdrawMoney guid amount (.withdrawMoney guid amount) paid.2 else w

end World

inductive Event where
  | swapItems (guid tab slot destTab destSlot splitedAmount : ℕ)
  | swapItemsWithInventory (guid : ℕ) (toChar : Bool) (tab slot playerBag playerSlot splitedAmount : ℕ)
  | withdrawMoney (guid amount : ℕ) (repair : Bool)

def Event.guid : Event → ℕ
  | swapItems guid .. | swapItemsWithInventory guid .. | withdrawMoney guid .. => guid

def World.next (rules : Rules) (w : World) : Event → World
  | .swapItems guid tab slot destTab destSlot splitedAmount =>
    w.swapItems rules guid tab slot destTab destSlot splitedAmount
  | .swapItemsWithInventory guid toChar tab slot playerBag playerSlot splitedAmount =>
    w.swapItemsWithInventory rules guid toChar tab slot playerBag playerSlot splitedAmount
  | .withdrawMoney guid amount repair => w.handleMemberWithdrawMoney guid amount repair

end HysteriaCore.Guilds.Bank
