import HysteriaCore.Net.ByteBuffer
import HysteriaCore.Objects.PlayerLife
import Mathlib.Data.List.Sort

/-!
# GM tickets (shade/Tickets/TicketMgr.{h,cpp})

The manager keeps the tickets of the realm in a map by id, with the id given out last and the
number of open tickets beside it, and writes them to the table `gm_tickets`. The statements of
the table list eighteen columns, with `response` between `comment` and `completed`; `SaveToDB`
and `LoadFromDB` bind and read the first sixteen by their position. What goes to the clients
and to the quality manager is left out.
-/

namespace HysteriaCore.Tickets
open Lib Net Objects

abbrev PlayerGuid := {low : UInt32 // low ≠ 0}

def PlayerGuid.guid (player : PlayerGuid) : ℕ := player.1.toNat

abbrev Text := {bytes : Bytes // 0 ∉ bytes}

theorem zero_notMem_cstr (bytes : Bytes) : 0 ∉ cstr bytes := fun h => by
  simpa using List.mem_takeWhile_imp h

def Text.ofCStr (bytes : Bytes) : Text := ⟨cstr bytes, zero_notMem_cstr bytes⟩

inductive GMTicketEscalationStatus where
  | unassigned
  | assigned
  | inEscalationQueue
  | escalatedAssigned
  /-- A byte of the database that is none of the enumerators. -/
  | stray (byte : {byte : UInt8 // 3 < byte})
deriving DecidableEq

namespace GMTicketEscalationStatus

def ofUInt8 (byte : UInt8) : GMTicketEscalationStatus :=
  if h : 3 < byte then stray ⟨byte, h⟩
  else if byte = 0 then unassigned
  else if byte = 1 then assigned
  else if byte = 2 then inEscalationQueue
  else escalatedAssigned

def toUInt8 : GMTicketEscalationStatus → UInt8
  | unassigned => 0
  | assigned => 1
  | inEscalationQueue => 2
  | escalatedAssigned => 3
  | stray byte => byte

@[simp] theorem ofUInt8_toUInt8 (status : GMTicketEscalationStatus) : ofUInt8 status.toUInt8 = status := by
  cases status with
  | stray byte => exact dif_pos byte.2
  | _ => rfl

def IsAssigned (status : GMTicketEscalationStatus) : Bool :=
  decide (status = assigned ∨ status = escalatedAssigned)

end GMTicketEscalationStatus

/-! ### A ticket and its row -/

structure GmTicket where
  id : UInt32
  playerGuid : ℕ
  playerName : Text
  pos : UInt32 × UInt32 × UInt32
  mapId : UInt16
  message : Text
  createTime : UInt32
  lastModifiedTime : UInt32
  /-- 0 = Open, -1 = Console, playerGuid = player abandoned ticket, other = GM who closed it. -/
  closedBy : ℤ
  assignedTo : ℕ
  comment : Text
  completed : Bool
  escalatedStatus : GMTicketEscalationStatus
  viewed : Bool
  response : Bytes
deriving DecidableEq

/-- A row of `gm_tickets`, by the names of its columns; `viewed` and `haveTicket` are never read. -/
structure Row where
  ticketId : UInt32
  guid : UInt32
  name : Text
  message : Text
  createTime : UInt32
  mapId : UInt16
  pos : UInt32 × UInt32 × UInt32
  lastModifiedTime : UInt32
  closedBy : Int32
  assignedTo : UInt32
  comment : Text
  response : Bytes
  completed : UInt8
  escalated : UInt8
deriving DecidableEq

abbrev Table := KeyedList Row.ticketId

/-- `Field::GetUInt8` of a text column: the first byte of the buffer, which ends with a NUL. -/
def textGetUInt8 (text : Bytes) : UInt8 := text.headD 0

namespace GmTicket
variable (ticket : GmTicket)

def IsClosed : Bool := decide (ticket.closedBy ≠ 0)
def IsFromPlayer (guid : ℕ) : Bool := decide (guid = ticket.playerGuid)
def IsAssigned : Bool := decide (ticket.assignedTo ≠ 0)
def IsAssignedTo (guid : ℕ) : Bool := decide (guid = ticket.assignedTo)
def IsAssignedNotTo (guid : ℕ) : Bool := ticket.IsAssigned && !ticket.IsAssignedTo guid

def SetAssignedTo (guid : ℕ) (isAdmin : Bool) : GmTicket :=
  { ticket with
    assignedTo := guid
    escalatedStatus :=
      if isAdmin ∧ ticket.escalatedStatus = .inEscalationQueue then .escalatedAssigned
      else if ticket.escalatedStatus = .unassigned then .assigned
      else ticket.escalatedStatus }

def SetUnassigned : GmTicket :=
  { ticket with
    assignedTo := 0
    escalatedStatus :=
      match ticket.escalatedStatus with
      | .assigned => .unassigned
      | .escalatedAssigned => .inEscalationQueue
      | status => status }

def SetClosedBy (value : ℤ) : GmTicket := { ticket with closedBy := value }

def SetMessage (message : Text) (now : UInt32) : GmTicket :=
  { ticket with message := message, lastModifiedTime := now }

def SetComment (comment : Text) : GmTicket := { ticket with comment := comment }

def SetViewed : GmTicket := { ticket with viewed := true }

def SetEscalatedStatus (status : GMTicketEscalationStatus) : GmTicket :=
  { ticket with escalatedStatus := status }

def AppendResponse (response : Bytes) : GmTicket := { ticket with response := ticket.response ++ response }

/-- The ticket of a row. The thirteenth field is the column `response`, the two after it are
`completed` and `escalated`. -/
def LoadFromDB (row : Row) : GmTicket where
  id := row.ticketId
  playerGuid := row.guid.toNat
  playerName := row.name
  message := row.message
  createTime := row.createTime
  mapId := row.mapId
  pos := row.pos
  lastModifiedTime := row.lastModifiedTime
  closedBy := row.closedBy.toInt
  assignedTo := row.assignedTo.toNat
  comment := row.comment
  completed := decide (textGetUInt8 row.response = 1)
  escalatedStatus := .ofUInt8 row.completed
  viewed := decide (row.escalated = 1)
  response := []

/-- The row that the statement writes: bound by position, so that `_completed` is written to the text
column `response`, the escalation status to `completed` and `_viewed` to `escalated`. -/
def SaveToDB : Row where
  ticketId := ticket.id
  guid := UInt32.ofNat (guidLoPart ticket.playerGuid)
  name := ticket.playerName
  message := ticket.message
  createTime := ticket.createTime
  mapId := ticket.mapId
  pos := ticket.pos
  lastModifiedTime := ticket.lastModifiedTime
  closedBy := Int32.ofInt (guidLoPart (ticket.closedBy % 2^64).toNat)
  assignedTo := UInt32.ofNat (guidLoPart ticket.assignedTo)
  comment := ticket.comment
  response := decimal ticket.completed.toNat
  completed := ticket.escalatedStatus.toUInt8
  escalated := UInt8.ofNat ticket.viewed.toNat

/-- The constructor; `none` where the packet is too short. It leaves `_viewed` as it is in memory. -/
def ofPacket (id : UInt32) (name : Text) (player : PlayerGuid) (now : UInt32) (viewed : Bool)
    (recv_data : ByteBuffer) : Option GmTicket := do
  let (mapId, recv_data) ← recv_data.readUInt32
  let (posX, recv_data) ← recv_data.readUInt32
  let (posY, recv_data) ← recv_data.readUInt32
  let (posZ, recv_data) ← recv_data.readUInt32
  let (message, recv_data) := recv_data.readString
  let (_needResponse, recv_data) ← recv_data.readUInt32
  let _ ← recv_data.readUInt8
  return {
    id := id
    playerGuid := player.guid
    playerName := name
    pos := (UInt32.ofNat posX, UInt32.ofNat posY, UInt32.ofNat posZ)
    mapId := UInt16.ofNat mapId
    message := .ofCStr message
    createTime := now
    lastModifiedTime := now
    closedBy := 0
    assignedTo := 0
    comment := .ofCStr []
    completed := false
    escalatedStatus := .unassigned
    viewed := viewed
    response := [] }

end GmTicket

/-! ### The manager -/

structure TicketMgr where
  ticketList : KeyedList GmTicket.id
  status : Bool
  lastTicketId : UInt32
  openTicketCount : UInt32
  gmTickets : Table

namespace TicketMgr
variable (m : TicketMgr)

def ticketsInOrder : List GmTicket := m.ticketList.rows.insertionSort fun a b => a.id ≤ b.id

def GetTicket (ticketId : UInt32) : Option GmTicket := m.ticketList.find? ticketId

def GetTicketByPlayer (playerGuid : ℕ) : Option GmTicket :=
  m.ticketsInOrder.find? fun ticket => ticket.IsFromPlayer playerGuid && !ticket.IsClosed

def GenerateTicketId : UInt32 := m.lastTicketId + 1

def change (ticket : GmTicket) : TicketMgr := { m with ticketList := m.ticketList.put ticket }

def SaveToDB (ticket : GmTicket) : TicketMgr := { m with gmTickets := m.gmTickets.put ticket.SaveToDB }

def AddTicket (ticket : GmTicket) : TicketMgr :=
  { m.change ticket with
    openTicketCount := if ticket.IsClosed then m.openTicketCount else m.openTicketCount + 1 }.SaveToDB ticket

def CloseTicket (ticketId : UInt32) (source : ℤ) : TicketMgr :=
  match m.GetTicket ticketId with
  | none => m
  | some ticket =>
    { m.change (ticket.SetClosedBy source) with
      openTicketCount := if source = 0 then m.openTicketCount else m.openTicketCount - 1 }.SaveToDB
        (ticket.SetClosedBy source)

def RemoveTicket (ticketId : UInt32) : TicketMgr :=
  match m.GetTicket ticketId with
  | none => m
  | some _ => { m with gmTickets := m.gmTickets.erase ticketId, ticketList := m.ticketList.erase ticketId }

def loadTicket (row : Row) : TicketMgr :=
  let ticket := GmTicket.LoadFromDB row
  { m with
    openTicketCount := if ticket.IsClosed then m.openTicketCount else m.openTicketCount + 1
    lastTicketId := if m.lastTicketId < ticket.id then ticket.id else m.lastTicketId
    ticketList := m.ticketList.put ticket }

def LoadTickets : TicketMgr :=
  m.gmTickets.rows.foldl loadTicket
    { m with ticketList := .empty, lastTicketId := 0, openTicketCount := 0 }

/-- The loop of `ResetTickets`. It removes a closed ticket with the node that its iterator stands on,
and then increments the iterator: `none`. -/
def resetLoop : List GmTicket → Option TicketMgr
  | [] => some m
  | ticket :: rest => if ticket.IsClosed then none else resetLoop rest

def ResetTickets : Option TicketMgr :=
  (m.resetLoop m.ticketsInOrder).map fun m => { m with lastTicketId := 0, gmTickets := .empty }

end TicketMgr

/-! ### Look-ups -/

theorem GmTicket.isClosed_eq_false {ticket : GmTicket} : ticket.IsClosed = false ↔ ticket.closedBy = 0 := by
  simp [GmTicket.IsClosed]

namespace TicketMgr
variable {m : TicketMgr} {ticket : GmTicket}

theorem mem_ticketsInOrder : ticket ∈ m.ticketsInOrder ↔ ticket ∈ m.ticketList :=
  List.mem_insertionSort _

theorem GetTicket_eq_some {ticketId : UInt32} :
    m.GetTicket ticketId = some ticket ↔ ticket ∈ m.ticketList ∧ ticket.id = ticketId :=
  m.ticketList.find?_eq_some_iff ticketId ticket

theorem of_GetTicketByPlayer {guid : ℕ} (h : m.GetTicketByPlayer guid = some ticket) :
    ticket ∈ m.ticketList ∧ ticket.playerGuid = guid ∧ ticket.IsClosed = false := by
  have hmem := mem_ticketsInOrder.mp (List.mem_of_find?_eq_some h)
  have htest := List.find?_some h
  simp only [GmTicket.IsFromPlayer, Bool.and_eq_true, decide_eq_true_eq, Bool.not_eq_true'] at htest
  exact ⟨hmem, htest.1.symm, htest.2⟩

theorem of_GetTicketByPlayer_none {guid : ℕ} (h : m.GetTicketByPlayer guid = none) (hmem : ticket ∈ m.ticketList)
    (hguid : ticket.playerGuid = guid) : ticket.IsClosed = true := by
  have htest := List.find?_eq_none.mp h ticket (mem_ticketsInOrder.mpr hmem)
  simpa [GmTicket.IsFromPlayer, hguid] using htest

/-! ### The loop of `LoadTickets` -/

theorem foldl_loadTicket {rows : List Row} (hnodup : (rows.map Row.ticketId).Nodup)
    (hnew : ∀ row ∈ rows, ∀ ticket ∈ m.ticketList, ticket.id ≠ row.ticketId) :
    (rows.foldl loadTicket m).ticketList.rows = m.ticketList.rows ++ rows.map GmTicket.LoadFromDB ∧
      (rows.foldl loadTicket m).openTicketCount =
        m.openTicketCount + UInt32.ofNat ((rows.map GmTicket.LoadFromDB).countP fun ticket => !ticket.IsClosed) ∧
      m.lastTicketId ≤ (rows.foldl loadTicket m).lastTicketId ∧
      (∀ row ∈ rows, row.ticketId ≤ (rows.foldl loadTicket m).lastTicketId) ∧
      (rows.foldl loadTicket m).gmTickets = m.gmTickets := by
  induction rows generalizing m with
  | nil => simp
  | cons row rows ih =>
    rw [List.map_cons, List.nodup_cons] at hnodup
    have hfresh : ∀ ticket ∈ m.ticketList, ticket.id ≠ (GmTicket.LoadFromDB row).id := hnew row List.mem_cons_self
    have hstep : (m.loadTicket row).ticketList.rows = m.ticketList.rows ++ [GmTicket.LoadFromDB row] :=
      m.ticketList.rows_put_of_new hfresh
    obtain ⟨hrows, hcount, hlast, hall, htable⟩ := ih (m := m.loadTicket row) hnodup.2 fun other hother ticket hticket => by
      rcases (m.ticketList.mem_put _ ticket).mp hticket with rfl | ⟨hold, -⟩
      · exact fun heq => hnodup.1 (List.mem_map.mpr ⟨other, hother, heq.symm⟩)
      · exact hnew other (List.mem_cons_of_mem _ hother) ticket hold
    have hone : (m.loadTicket row).openTicketCount =
        m.openTicketCount + UInt32.ofNat (if !(GmTicket.LoadFromDB row).IsClosed then 1 else 0) := by
      show (if _ then _ else _) = _
      cases (GmTicket.LoadFromDB row).IsClosed <;> simp
    have hmax : m.lastTicketId ≤ (m.loadTicket row).lastTicketId ∧ row.ticketId ≤ (m.loadTicket row).lastTicketId := by
      show m.lastTicketId ≤ (if m.lastTicketId < row.ticketId then _ else _) ∧
        row.ticketId ≤ if m.lastTicketId < row.ticketId then _ else _
      split
      next hlt => exact ⟨UInt32.le_of_lt hlt, UInt32.le_refl _⟩
      next hlt => exact ⟨UInt32.le_refl _, UInt32.not_lt.mp hlt⟩
    rw [List.foldl_cons]
    refine ⟨?_, ?_, UInt32.le_trans hmax.1 hlast, ?_, htable⟩
    · rw [hrows, hstep, List.append_assoc, List.map_cons]
      rfl
    · rw [hcount, hone, List.map_cons, List.countP_cons, UInt32.add_assoc, ← UInt32.ofNat_add, Nat.add_comm]
    · intro other hother
      rcases List.mem_cons.mp hother with rfl | hother
      · exact UInt32.le_trans hmax.2 hlast
      · exact hall other hother

theorem LoadTickets_spec (m : TicketMgr) :
    m.LoadTickets.ticketList.rows = m.gmTickets.rows.map GmTicket.LoadFromDB ∧
      m.LoadTickets.openTicketCount =
        UInt32.ofNat ((m.gmTickets.rows.map GmTicket.LoadFromDB).countP fun ticket => !ticket.IsClosed) ∧
      (∀ row ∈ m.gmTickets, row.ticketId ≤ m.LoadTickets.lastTicketId) ∧
      m.LoadTickets.gmTickets = m.gmTickets := by
  obtain ⟨hrows, hcount, -, hall, htable⟩ :=
    foldl_loadTicket (m := { m with ticketList := .empty, lastTicketId := 0, openTicketCount := 0 })
      m.gmTickets.distinct fun _ _ ticket hticket => absurd hticket (by simp [KeyedList.mem_rows, KeyedList.empty])
  refine ⟨hrows, ?_, hall, htable⟩
  rw [LoadTickets, hcount]
  exact UInt32.zero_add _

theorem mem_LoadTickets : ticket ∈ m.LoadTickets.ticketList ↔ ∃ row ∈ m.gmTickets, .LoadFromDB row = ticket := by
  rw [KeyedList.mem_rows, m.LoadTickets_spec.1, List.mem_map]
  rfl

theorem GetTicket_LoadTickets (ticketId : UInt32) :
    m.LoadTickets.GetTicket ticketId = (m.gmTickets.find? ticketId).map GmTicket.LoadFromDB := by
  rw [GetTicket, KeyedList.find?, m.LoadTickets_spec.1, List.find?_map]
  rfl

end TicketMgr

end HysteriaCore.Tickets
