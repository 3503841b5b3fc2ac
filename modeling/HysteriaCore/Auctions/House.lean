import HysteriaCore.Lib.Runs
import HysteriaCore.Objects.Characters

/-!
# The auction houses

An auction holds an item and the money of the current bidder. Bids, buyouts,
cancellations and expiry move money between purses, bids and mails, and in the
end send the item to somebody.
-/

namespace HysteriaCore.Auctions
open Lib Objects

inductive House where
  | alliance | horde | neutral
deriving DecidableEq

structure AuctionEntry where
  house : House
  id : ℕ
  item : ℕ
  owner : ℕ
  startbid : ℕ
  bid : ℕ
  buyout : ℕ
  expireTime : ℕ
  bidder : ℕ
  deposit : ℕ
deriving DecidableEq

def AuctionEntry.key (a : AuctionEntry) : House × ℕ := (a.house, a.id)

inductive MailAuctionAnswers where
  | outbidded | won | successful | expired | cancelledToBidder | canceled | salePending
deriving DecidableEq

structure Mail where
  subject : MailAuctionAnswers
  receiver : ℕ
  money : ℕ
  items : List ℕ
deriving DecidableEq

inductive Outcome where
  | sold | expired | cancelled
deriving DecidableEq

structure World where
  characters : Characters
  auctions : KeyedList AuctionEntry.key
  aitems : Finset ℕ
  mails : List Mail
  /-- a record, not data of the server: the auctions that have left their map, as they were then -/
  closed : List (AuctionEntry × Outcome)

structure Rates where
  getAuctionCut : AuctionEntry → ℕ
  getAuctionOutBid : AuctionEntry → ℕ

namespace World
variable (rates : Rates) (w : World)

def pay (guid amount : ℕ) : World := { w with characters := w.characters.pay guid amount }

/-! ### The mails of an auction -/

def sendMailTo (mail : Mail) : World := { w with mails := w.mails ++ [mail] }

def sendMail (mail : Mail) : World := if w.characters.mailable mail.receiver then w.sendMailTo mail else w

def removeAItem (item : ℕ) : World := { w with aitems := w.aitems.erase item }

def sendAuctionItem (answer : MailAuctionAnswers) (receiver item : ℕ) : World :=
  if item ∈ w.aitems then
    if w.characters.mailable receiver then w.sendMail ⟨answer, receiver, 0, [item]⟩ else w.removeAItem item
  else w

def sendAuctionWonMail (a : AuctionEntry) : World := w.sendAuctionItem .won a.bidder a.item

def sendAuctionExpiredMail (a : AuctionEntry) : World := w.sendAuctionItem .expired a.owner a.item

def sendAuctionSalePendingMail (a : AuctionEntry) : World := w.sendMail ⟨.salePending, a.owner, 0, []⟩

def sendAuctionSuccessfulMail (a : AuctionEntry) : World :=
  w.sendMail ⟨.successful, a.owner, subU32 (u32 (a.bid + a.deposit)) (rates.getAuctionCut a), []⟩

def sendAuctionOutbiddedMail (a : AuctionEntry) : World := w.sendMail ⟨.outbidded, a.bidder, a.bid, []⟩

def sendAuctionCancelledToBidderMail (a : AuctionEntry) : World :=
  w.sendMail ⟨.cancelledToBidder, a.bidder, a.bid, []⟩

def removeAuction (a : AuctionEntry) (outcome : Outcome) : World :=
  { w with auctions := w.auctions.erase a.key, closed := w.closed ++ [(a, outcome)] }

/-! ### Requests -/

def getAuction (house : House) (id : ℕ) : Option AuctionEntry := w.auctions.find? (house, id)

def raise (a : AuctionEntry) (guid price : ℕ) : World :=
  { w with
    auctions := w.auctions.adjust a.key (fun a => { a with bidder := guid, bid := price }) fun _ => rfl }

def bid (a : AuctionEntry) (guid price : ℕ) : World :=
  let w :=
    if 0 < a.bidder then
      if a.bidder = guid then w.pay guid (subU32 price a.bid) else (w.sendAuctionOutbiddedMail a).pay guid price
    else w.pay guid price
  w.raise a guid price

def sell (a : AuctionEntry) : World :=
  let w := ((w.sendAuctionSalePendingMail a).sendAuctionSuccessfulMail rates a).sendAuctionWonMail a
  (w.removeAItem a.item).removeAuction a .sold

def buyout (a : AuctionEntry) (guid : ℕ) : World :=
  let w :=
    if guid = a.bidder then w.pay guid (subU32 a.buyout a.bid)
    else
      let w := w.pay guid a.buyout
      if a.bidder ≠ 0 then w.sendAuctionOutbiddedMail a else w
  w.sell rates { a with bidder := guid, bid := a.buyout }

def handleAuctionPlaceBid (guid : ℕ) (house : House) (id price : ℕ) : World :=
  if id = 0 ∨ price = 0 then w
  else
    match w.characters.find? guid, w.getAuction house id with
    | some player, some a =>
      if player.online = false ∨ a.owner = guid then w
      else if w.characters.isOnline a.owner = false ∧ w.characters.accountOf a.owner = player.account then w
      else if price ≤ a.bid ∨ price < a.startbid then w
      else if (price < a.buyout ∨ a.buyout = 0) ∧ price < u32 (a.bid + rates.getAuctionOutBid a) then w
      else if hasEnoughMoney player.money price = false then w
      else if price < a.buyout ∨ a.buyout = 0 then w.bid a guid price
      else w.buyout rates a guid
    | _, _ => w

def cancel (a : AuctionEntry) (guid : ℕ) : World :=
  let w :=
    if 0 < a.bidder then (w.sendAuctionCancelledToBidderMail a).pay guid (rates.getAuctionCut a) else w
  let w := w.sendMailTo ⟨.canceled, guid, 0, [a.item]⟩
  (w.removeAItem a.item).removeAuction a .cancelled

def handleAuctionRemoveItem (guid : ℕ) (house : House) (id : ℕ) : World :=
  match w.characters.find? guid, w.getAuction house id with
  | some player, some a =>
    if player.online = false ∨ a.owner ≠ guid ∨ a.item ∉ w.aitems then w
    else if 0 < a.bidder ∧ hasEnoughMoney player.money (rates.getAuctionCut a) = false then w
    else w.cancel rates a guid
  | _, _ => w

def settle (a : AuctionEntry) : World :=
  if a.bidder = 0 then ((w.sendAuctionExpiredMail a).removeAItem a.item).removeAuction a .expired
  else
    (((w.sendAuctionSuccessfulMail rates a).sendAuctionWonMail a).removeAItem a.item).removeAuction a .sold

def update (house : House) (checkTime : ℕ) : World :=
  (w.auctions.rows.filter fun a => decide (a.house = house) && decide (a.expireTime ≤ checkTime)).foldl
    (fun w a => w.settle rates a) w

end World

inductive Event where
  | placeBid (guid : ℕ) (house : House) (id price : ℕ)
  | removeItem (guid : ℕ) (house : House) (id : ℕ)
  | update (house : House) (checkTime : ℕ)

def World.next (rates : Rates) (w : World) : Event → World
  | .placeBid guid house id price => w.handleAuctionPlaceBid rates guid house id price
  | .removeItem guid house id => w.handleAuctionRemoveItem rates guid house id
  | .update house checkTime => w.update rates house checkTime

def step (rates : Rates) (w : World) (e : Event) : Option World := some (w.next rates e)

end HysteriaCore.Auctions
