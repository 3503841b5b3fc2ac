import HysteriaCore.Tickets.TicketMgr

/-!
# What players and game masters ask (shade/Handler/TicketHandler.cpp, shade/Chat/Commands/TicketCommands.cpp)

A command comes from a player or from the console (`none`); who is named in it and the security
levels that are looked up are in the request.
-/

namespace HysteriaCore.Tickets
open Lib Net

structure Player where
  guid : PlayerGuid
  name : Text
  level : ℕ

def IsPlayerAccount (gmlevel : ℕ) : Bool := decide (gmlevel = 0)

def IsAdminAccount (gmlevel : ℕ) : Bool := decide (3 ≤ gmlevel ∧ gmlevel ≤ 4)

/-! ### The checks of the commands -/

namespace GmTicket
variable (ticket : GmTicket)

def heldFrom (player : Option PlayerGuid) : Bool := player.any fun p => ticket.IsAssignedNotTo p.guid

def canAssign (player : Option PlayerGuid) (target : PlayerGuid) (targetGmLevel : ℕ) : Bool :=
  !ticket.IsClosed && !IsPlayerAccount targetGmLevel && !ticket.IsAssignedTo target.guid && !ticket.heldFrom player

def canClose (player : Option PlayerGuid) : Bool :=
  !(ticket.IsClosed || ticket.completed) && !ticket.heldFrom player

def canComment (player : Option PlayerGuid) : Bool := !ticket.IsClosed && !ticket.heldFrom player

def canEscalate : Bool :=
  !(ticket.IsClosed || ticket.completed || decide (ticket.escalatedStatus ≠ .unassigned))

def canUnassign (security mySecurity : ℕ) : Bool :=
  !ticket.IsClosed && ticket.IsAssigned && !decide (mySecurity < security)

def canView : Bool := !(ticket.IsClosed || ticket.completed)

end GmTicket

/-! ### The handlers -/

namespace TicketMgr
variable (m : TicketMgr)

def changeAndSave (ticket : GmTicket) : TicketMgr := (m.change ticket).SaveToDB ticket

def editTicket (ticketId : UInt32) (check : GmTicket → Bool) (edit : GmTicket → GmTicket) : TicketMgr :=
  match m.GetTicket ticketId with
  | none => m
  | some ticket => if check ticket then m.changeAndSave (edit ticket) else m

def editTicketOf (playerGuid : ℕ) (edit : GmTicket → GmTicket) : TicketMgr :=
  match m.GetTicketByPlayer playerGuid with
  | none => m
  | some ticket => m.changeAndSave (edit ticket)

def HandleGMTicketCreateOpcode (player : Player) (levelReq : ℕ) (recv_data : ByteBuffer) (now : UInt32)
    (viewed : Bool) : TicketMgr :=
  if !m.status then m
  else if player.level < levelReq then m
  else match m.GetTicketByPlayer player.guid.guid with
    | some _ => m
    | none =>
      let generated := { m with lastTicketId := m.GenerateTicketId }
      match GmTicket.ofPacket m.GenerateTicketId player.name player.guid now viewed recv_data with
      -- the exception leaves the constructor, the id is used up
      | none => generated
      | some ticket => generated.AddTicket ticket

def HandleGMTicketUpdateOpcode (player : PlayerGuid) (recv_data : ByteBuffer) (now : UInt32) : TicketMgr :=
  m.editTicketOf player.guid fun ticket => ticket.SetMessage (.ofCStr recv_data.readString.1) now

/-- `HandleGMTicketDeleteOpcode`: the player abandons the ticket. -/
def HandleGMTicketDeleteOpcode (player : PlayerGuid) : TicketMgr :=
  match m.GetTicketByPlayer player.guid with
  | none => m
  | some ticket => m.CloseTicket ticket.id player.guid

def HandleGMResponseResolve (player : PlayerGuid) : TicketMgr :=
  match m.GetTicketByPlayer player.guid with
  | none => m
  | some ticket => m.CloseTicket ticket.id player.guid

def HandleGMTicketAssignToCommand (player : Option PlayerGuid) (ticketId : UInt32) (target : Option PlayerGuid)
    (targetGmLevel : ℕ) : TicketMgr :=
  match target with
  | none => m
  | some targetGuid =>
    m.editTicket ticketId (fun ticket => ticket.canAssign player targetGuid targetGmLevel) fun ticket =>
      ticket.SetAssignedTo targetGuid.guid (IsAdminAccount targetGmLevel)

def HandleGMTicketCloseByIdCommand (player : Option PlayerGuid) (ticketId : UInt32) : TicketMgr :=
  match m.GetTicket ticketId with
  | none => m
  | some ticket =>
    if ticket.canClose player then m.CloseTicket ticket.id (player.elim (-1) fun p => (p.guid : ℤ)) else m

def HandleGMTicketCommentCommand (player : Option PlayerGuid) (ticketId : UInt32) (comment : Bytes) : TicketMgr :=
  m.editTicket ticketId (GmTicket.canComment · player) fun ticket => ticket.SetComment (.ofCStr comment)

/-- `HandleGMTicketCompleteCommand` sends the response to the player and leaves the ticket as it is. -/
def HandleGMTicketCompleteCommand (_ticketId : UInt32) : TicketMgr := m

/-- The command asks the deleted ticket for its player, to tell him; that read is left out. -/
def HandleGMTicketDeleteByIdCommand (ticketId : UInt32) : TicketMgr :=
  match m.GetTicket ticketId with
  | none => m
  | some ticket => if !ticket.IsClosed then m else m.RemoveTicket ticket.id

def HandleGMTicketEscalateCommand (ticketId : UInt32) : TicketMgr :=
  match m.GetTicket ticketId with
  | none => m
  | some ticket => if ticket.canEscalate then m.change (ticket.SetEscalatedStatus .inEscalationQueue) else m

def HandleGMTicketResetCommand : Option TicketMgr := if m.openTicketCount ≠ 0 then some m else m.ResetTickets

def HandleToggleGMTicketSystem : TicketMgr := { m with status := !m.status }

def HandleGMTicketUnAssignCommand (ticketId : UInt32) (security mySecurity : ℕ) : TicketMgr :=
  m.editTicket ticketId (GmTicket.canUnassign · security mySecurity) GmTicket.SetUnassigned

def HandleGMTicketGetByIdCommand (ticketId : UInt32) : TicketMgr :=
  m.editTicket ticketId GmTicket.canView GmTicket.SetViewed

def HandleGMTicketGetByNameCommand (player : Option PlayerGuid) : TicketMgr :=
  match player with
  | none => m
  | some p => m.editTicketOf p.guid GmTicket.SetViewed

def HandleGMTicketResponseAppendCommand (player : Option PlayerGuid) (ticketId : UInt32) (response : Bytes)
    (newLine : Bool) : TicketMgr :=
  m.editTicket ticketId (GmTicket.canComment · player) fun ticket =>
    if newLine then (ticket.AppendResponse response).AppendResponse (ascii "\n")
    else ticket.AppendResponse response

end TicketMgr

inductive Request where
  | create (player : Player) (levelReq : ℕ) (recv_data : ByteBuffer) (now : UInt32) (viewed : Bool)
  | update (player : PlayerGuid) (recv_data : ByteBuffer) (now : UInt32)
  | abandon (player : PlayerGuid)
  | resolve (player : PlayerGuid)
  | assign (player : Option PlayerGuid) (ticketId : UInt32) (target : Option PlayerGuid) (targetGmLevel : ℕ)
  | close (player : Option PlayerGuid) (ticketId : UInt32)
  | comment (player : Option PlayerGuid) (ticketId : UInt32) (comment : Bytes)
  | complete (ticketId : UInt32)
  | delete (ticketId : UInt32)
  | escalate (ticketId : UInt32)
  | reset
  | toggle
  | unassign (ticketId : UInt32) (security mySecurity : ℕ)
  | viewId (ticketId : UInt32)
  | viewName (player : Option PlayerGuid)
  | append (player : Option PlayerGuid) (ticketId : UInt32) (response : Bytes) (newLine : Bool)

def TicketMgr.step (m : TicketMgr) : Request → Option TicketMgr
  | .create player levelReq recv_data now viewed =>
    some (m.HandleGMTicketCreateOpcode player levelReq recv_data now viewed)
  | .update player recv_data now => some (m.HandleGMTicketUpdateOpcode player recv_data now)
  | .abandon player => some (m.HandleGMTicketDeleteOpcode player)
  | .resolve player => some (m.HandleGMResponseResolve player)
  | .assign player ticketId target targetGmLevel =>
    some (m.HandleGMTicketAssignToCommand player ticketId target targetGmLevel)
  | .close player ticketId => some (m.HandleGMTicketCloseByIdCommand player ticketId)
  | .comment player ticketId comment => some (m.HandleGMTicketCommentCommand player ticketId comment)
  | .complete ticketId => some (m.HandleGMTicketCompleteCommand ticketId)
  | .delete ticketId => some (m.HandleGMTicketDeleteByIdCommand ticketId)
  | .escalate ticketId => some (m.HandleGMTicketEscalateCommand ticketId)
  | .reset => m.HandleGMTicketResetCommand
  | .toggle => some m.HandleToggleGMTicketSystem
  | .unassign ticketId security mySecurity => some (m.HandleGMTicketUnAssignCommand ticketId security mySecurity)
  | .viewId ticketId => some (m.HandleGMTicketGetByIdCommand ticketId)
  | .viewName player => some (m.HandleGMTicketGetByNameCommand player)
  | .append player ticketId response newLine =>
    some (m.HandleGMTicketResponseAppendCommand player ticketId response newLine)

end HysteriaCore.Tickets
