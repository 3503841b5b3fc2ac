import HysteriaCore.Lib.Runs
import HysteriaCore.Objects.Characters

/-!
# Mails between players

A mail carries money and items, or asks for money before it gives its items out.
Players send mails, take what is in them, return and delete them.
-/

namespace HysteriaCore.Mails
open Lib Objects

def maxMailItems : ℕ := 12

inductive MailMessageType where
  | normal | auction | creature | gameobject | calendar
deriving DecidableEq

structure Item where
  guid : ℕ
  entry : ℕ
  count : ℕ
deriving DecidableEq

structure Holding where
  holder : ℕ
  guid : ℕ
deriving DecidableEq

structure Mail where
  messageID : ℕ
  messageType : MailMessageType
  sender : ℕ
  receiver : ℕ
  money : ℕ
  COD : ℕ
  items : List ℕ
  deliverTime : ℕ
  deleted : Bool
deriving DecidableEq

def Mail.isGone (guid : ℕ) (m : Mail) : Bool := decide (m.receiver = guid) && m.deleted

def mailItems (mails : List Mail) : List ℕ := mails.flatMap Mail.items

def Item.isIn (mails : List Mail) (item : Item) : Bool := decide (item.guid ∈ mailItems mails)

inductive Record where
  | sent (mail COD : ℕ)
  | paid (mail amount : ℕ)
  | handedOut (mail item : ℕ)
deriving DecidableEq

def Record.mail : Record → ℕ
  | sent mail _ | paid mail _ | handedOut mail _ => mail

structure World where
  characters : Characters
  items : KeyedList Item.guid
  inventory : KeyedList Holding.guid
  /-- `mMitems` of every player: who may take which item out of a mail -/
  mItems : Finset (ℕ × ℕ)
  mails : KeyedList Mail.messageID
  mailsLoaded : Finset ℕ
  nextMailID : ℕ
  -- The rest is a record of what has happened, not data of the server.
  postage : ℕ
  /-- the deleted mails that `_SaveMail` has removed -/
  purged : List Mail
  destroyed : List Item
  merged : List ℕ
  records : List Record

structure SendRequest where
  receiver : ℕ
  itemGUIDs : List ℕ
  money : ℕ
  COD : ℕ

structure Rules where
  canOpenMailBox : World → ℕ → Bool
  /-- battleground, level, the number of mails of the receiver, the teams -/
  sendChecks : World → ℕ → SendRequest → Bool
  /-- bound, conjured, wrapped or expiring items, and bags in use -/
  itemChecks : World → ℕ → SendRequest → Item → Bool
  deliverDelay : World → ℕ → SendRequest → ℕ
  /-- `CanStoreItem`: how much of the item joins which stacks; a new slot takes what is left -/
  canStoreItem : World → ℕ → Item → Option (List (ℕ × ℕ))

namespace World
variable (rules : Rules) (w : World)

def getMail (guid id : ℕ) : Option Mail :=
  if guid ∈ w.mailsLoaded then (w.mails.find? id).filter fun m => decide (m.receiver = guid) else none

def getMItem (guid item : ℕ) : Option Item := if (guid, item) ∈ w.mItems then w.items.find? item else none

def getItemByGuid (guid item : ℕ) : Option Item :=
  if (w.inventory.find? item).any fun h => decide (h.holder = guid) then w.items.find? item else none

def goneMails (guid : ℕ) : List Mail := w.mails.rows.filter (Mail.isGone guid)

/-- `_SaveMail`: the deleted mails of a player go, and their items. -/
def saveMail (guid : ℕ) : World :=
  if guid ∈ w.mailsLoaded then
    { w with
      mails := w.mails.filter fun m => !m.isGone guid
      items := w.items.filter fun item => !item.isIn (w.goneMails guid)
      purged := w.purged ++ w.goneMails guid
      destroyed := w.destroyed ++ w.items.rows.filter (Item.isIn (w.goneMails guid)) }
  else w

end World

/-! ### Drafts -/

def addItem (draft : List ℕ) (item : ℕ) : List ℕ := if item ∈ draft then draft else draft ++ [item]

namespace World
variable (rules : Rules) (w : World)

/-- `SendMailTo`, whether the receiver is online or will load the mail later -/
def sendMailTo (sender receiver money COD : ℕ) (draft : List ℕ) (deliverTime : ℕ) : World :=
  { w with
    mails := w.mails.put ⟨w.nextMailID, .normal, sender, receiver, money, COD, draft, deliverTime, false⟩
    nextMailID := w.nextMailID + 1
    mItems := w.mItems ∪ (draft.map fun item => (receiver, item)).toFinset
    records := w.records ++ [.sent w.nextMailID COD] }

def deleteIncludedItems (draft : List ℕ) : World :=
  { w with
    items := w.items.filter fun item => decide (item.guid ∉ draft)
    destroyed := w.destroyed ++ w.items.rows.filter fun item => decide (item.guid ∈ draft) }

def sendReturnToSender (sender receiver money : ℕ) (draft : List ℕ) (now : ℕ) : World :=
  if w.characters.mailable receiver then w.sendMailTo sender receiver money 0 draft now
  else w.deleteIncludedItems draft

/-! ### Requests -/

def cost (itemsCount : ℕ) : ℕ := if itemsCount ≠ 0 then 30 * itemsCount else 30

/-- One item of a mail that is sent: out of the inventory and into the draft. An item that
is listed again has no slot any more. -/
def attach (s : World × List ℕ) (item : ℕ) : World × List ℕ :=
  ({ s.1 with inventory := s.1.inventory.erase item }, addItem s.2 item)

def send (guid : ℕ) (r : SendRequest) (now : ℕ) : World :=
  let paid : World :=
    { w with
      characters := w.characters.pay guid (u32 (cost r.itemGUIDs.length + r.money))
      postage := w.postage + cost r.itemGUIDs.length }
  let s := r.itemGUIDs.foldl attach (paid, [])
  s.1.sendMailTo guid r.receiver r.money (if r.itemGUIDs.length = 0 then 0 else r.COD) s.2
    (now + rules.deliverDelay w guid r)

def handleSendMail (guid : ℕ) (r : SendRequest) (now : ℕ) : World :=
  match w.characters.find? guid with
  | none => w
  | some player =>
    let reqmoney := u32 (cost r.itemGUIDs.length + r.money)
    if maxMailItems < r.itemGUIDs.length ∨ rules.sendChecks w guid r = false then w
    else if w.characters.find? r.receiver = none ∨ r.receiver = guid then w
    else if reqmoney < r.money ∨ hasEnoughMoney player.money reqmoney = false then w
    else if r.itemGUIDs.all fun g => decide (g ≠ 0) && (w.getItemByGuid guid g).any (rules.itemChecks w guid r) then
      w.send rules guid r now
    else w

def handleMailDelete (guid id : ℕ) : World :=
  match w.getMail guid id with
  | none => w
  | some m =>
    if rules.canOpenMailBox w guid = false ∨ m.COD ≠ 0 then w
    else { w with mails := w.mails.adjust id (fun m => { m with deleted := true }) fun _ => rfl }

def handleMailReturnToSender (guid id now : ℕ) : World :=
  match w.getMail guid id with
  | none => w
  | some m =>
    if rules.canOpenMailBox w guid = false ∨ m.deleted = true ∨ now < m.deliverTime then w
    else if m.messageType = .normal ∧ m.sender ≠ 0 then
      let draft := (m.items.filter fun item => (w.getMItem guid item).isSome).foldl addItem []
      let w :=
        { w with
          mails := w.mails.erase id
          mItems := w.mItems \ (m.items.map fun item => (guid, item)).toFinset }
      w.sendReturnToSender m.receiver m.sender m.money draft now
    else { w with mails := w.mails.erase id }

def settleCOD (guid : ℕ) (m : Mail) (now : ℕ) : World :=
  if 0 < m.COD then
    let w := if w.characters.mailable m.sender then w.sendMailTo m.receiver m.sender m.COD 0 [] now else w
    { w with
      characters := w.characters.pay guid m.COD
      mails := w.mails.adjust m.messageID (fun m => { m with COD := 0 }) fun _ => rfl
      records := w.records ++ [.paid m.messageID m.COD] }
  else w

def topUp (items : KeyedList Item.guid) (dest : List (ℕ × ℕ)) : KeyedList Item.guid :=
  dest.foldl (fun items p => items.adjust p.1 (fun x => { x with count := x.count + p.2 }) fun _ => rfl) items

def storeItem (guid : ℕ) (it : Item) (dest : List (ℕ × ℕ)) : World :=
  let items := topUp w.items dest
  let left := it.count - (dest.map Prod.snd).sum
  if left = 0 then { w with items := items.erase it.guid, merged := w.merged ++ [it.guid] }
  else
    { w with
      items := items.adjust it.guid (fun x => { x with count := left }) fun _ => rfl
      inventory := w.inventory.put ⟨guid, it.guid⟩ }

def handOut (guid id : ℕ) (it : Item) (dest : List (ℕ × ℕ)) : World :=
  let w :=
    { w with
      mails := w.mails.adjust id (fun m => { m with items := m.items.erase it.guid }) fun _ => rfl
      mItems := w.mItems.erase (guid, it.guid)
      records := w.records ++ [Record.handedOut id it.guid] }
  w.storeItem guid it dest

def handleMailTakeItem (guid id item now : ℕ) : World :=
  match w.characters.find? guid, w.getMail guid id with
  | some player, some m =>
    if rules.canOpenMailBox w guid = false ∨ m.deleted = true ∨ now < m.deliverTime then w
    else if item ∉ m.items ∨ hasEnoughMoney player.money m.COD = false then w
    else
      match w.getMItem guid item with
      | none => w
      | some it =>
        match rules.canStoreItem w guid it with
        | none => w
        | some dest => ((w.settleCOD guid m now).handOut guid id it dest).saveMail guid
  | _, _ => w

def handleMailTakeMoney (guid id now : ℕ) : World :=
  match w.characters.find? guid, w.getMail guid id with
  | some player, some m =>
    if rules.canOpenMailBox w guid = false ∨ m.deleted = true ∨ now < m.deliverTime then w
    else if (modifyMoney player.money (toInt32 m.money)).1 = false then w
    else
      let w :=
        { w with
          characters := w.characters.modifyMoney guid (toInt32 m.money)
          mails := w.mails.adjust id (fun m => { m with money := 0 }) fun _ => rfl }
      w.saveMail guid
  | _, _ => w

end World

inductive Event where
  | sendMail (guid : ℕ) (r : SendRequest) (now : ℕ)
  | delete (guid id : ℕ)
  | returnToSender (guid id now : ℕ)
  | takeItem (guid id item now : ℕ)
  | takeMoney (guid id now : ℕ)
  | loadMail (guid : ℕ)
  | saveMail (guid : ℕ)

def World.next (rules : Rules) (w : World) : Event → World
  | .sendMail guid r now => w.handleSendMail rules guid r now
  | .delete guid id => w.handleMailDelete rules guid id
  | .returnToSender guid id now => w.handleMailReturnToSender rules guid id now
  | .takeItem guid id item now => w.handleMailTakeItem rules guid id item now
  | .takeMoney guid id now => w.handleMailTakeMoney rules guid id now
  | .loadMail guid => { w with mailsLoaded := insert guid w.mailsLoaded }
  | .saveMail guid => w.saveMail guid

def step (rules : Rules) (w : World) (e : Event) : Option World := some (w.next rules e)

end HysteriaCore.Mails
