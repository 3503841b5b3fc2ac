import HysteriaCore.Tickets.Requests

/-!
# The books of the ticket manager

The counter, the ids, the tickets of one player and the escalation status after any number of requests.
-/

namespace HysteriaCore.Tickets
open Lib Net

namespace GmTicket
variable {ticket : GmTicket}

/-- The status that goes with the assignment. A ticket of the escalation queue that is handed to somebody who
is not an administrator stays in the queue; `byAdmins` says that this does not happen. -/
def Fits (byAdmins : Bool) (assignedTo : ℕ) (status : GMTicketEscalationStatus) : Prop :=
  if assignedTo = 0 then status = .unassigned ∨ status = .inEscalationQueue
  else status = .assigned ∨ status = .escalatedAssigned ∨ (byAdmins = false ∧ status = .inEscalationQueue)

variable {byAdmins : Bool}

theorem Fits.isAssigned (h : Fits byAdmins ticket.assignedTo ticket.escalatedStatus) :
    (ticket.escalatedStatus.IsAssigned = true → ticket.IsAssigned = true) ∧
      (ticket.IsAssigned = true → ticket.escalatedStatus.IsAssigned = true ∨
        (byAdmins = false ∧ ticket.escalatedStatus = .inEscalationQueue)) := by
  unfold Fits at h
  by_cases hnone : ticket.assignedTo = 0
  · rw [if_pos hnone] at h
    have hfree : ticket.IsAssigned = false := by simp [IsAssigned, hnone]
    rcases h with h | h <;> simp [h, hfree, GMTicketEscalationStatus.IsAssigned]
  · rw [if_neg hnone] at h
    have hheld : ticket.IsAssigned = true := by simp [IsAssigned, hnone]
    rcases h with h | h | ⟨hadmins, h⟩
    · simp [h, hheld, GMTicketEscalationStatus.IsAssigned]
    · simp [h, hheld, GMTicketEscalationStatus.IsAssigned]
    · simp [h, hheld, hadmins, GMTicketEscalationStatus.IsAssigned]

theorem Fits.setAssignedTo {byAdmins isAdmin : Bool} (h : Fits byAdmins ticket.assignedTo ticket.escalatedStatus)
    {guid : ℕ} (hguid : guid ≠ 0)
    (hadmin : byAdmins = false ∨ (ticket.escalatedStatus = .inEscalationQueue → isAdmin = true)) :
    Fits byAdmins (ticket.SetAssignedTo guid isAdmin).assignedTo
      (ticket.SetAssignedTo guid isAdmin).escalatedStatus := by
  have hstatus : ticket.escalatedStatus = .unassigned ∨ ticket.escalatedStatus = .inEscalationQueue ∨
      ticket.escalatedStatus = .assigned ∨ ticket.escalatedStatus = .escalatedAssigned := by
    unfold Fits at h
    split at h
    · rcases h with h | h <;> simp [h]
    · rcases h with h | h | ⟨-, h⟩ <;> simp [h]
  show Fits byAdmins guid (if _ then _ else _)
  rw [Fits, if_neg hguid]
  rcases hstatus with hs | hs | hs | hs
  · simp [hs]
  · cases isAdmin with
    | true => simp [hs]
    | false =>
      have hno : byAdmins = false := hadmin.resolve_right fun hall => by simpa using hall hs
      simp [hs, hno]
  · simp [hs]
  · simp [hs]

theorem Fits.setUnassigned (h : Fits byAdmins ticket.assignedTo ticket.escalatedStatus) :
    Fits byAdmins ticket.SetUnassigned.assignedTo ticket.SetUnassigned.escalatedStatus := by
  show Fits byAdmins 0 _
  rw [Fits, if_pos rfl]
  unfold Fits at h
  simp only [SetUnassigned]
  split at h
  · rcases h with h | h <;> simp [h]
  · rcases h with h | h | ⟨-, h⟩ <;> simp [h]

theorem Fits.escalate (h : Fits byAdmins ticket.assignedTo ticket.escalatedStatus)
    (hstatus : ticket.escalatedStatus = .unassigned) : Fits byAdmins ticket.assignedTo .inEscalationQueue := by
  unfold Fits at h ⊢
  split
  next hnone => exact .inr rfl
  next hsome => simp [hsome, hstatus] at h

theorem of_ofPacket {id : UInt32} {name : Text} {player : PlayerGuid} {now : UInt32} {viewed : Bool}
    {recv_data : ByteBuffer} (h : ofPacket id name player now viewed recv_data = some ticket) :
    ticket.id = id ∧ ticket.playerGuid = player.guid ∧ ticket.closedBy = 0 ∧ ticket.assignedTo = 0 ∧
      ticket.escalatedStatus = .unassigned ∧ ticket.completed = false := by
  simp only [ofPacket, Option.bind_eq_bind, Option.bind_eq_some_iff, Option.pure_def, Option.some.injEq] at h
  obtain ⟨-, -, -, -, -, -, -, -, -, -, -, -, rfl⟩ := h
  exact ⟨rfl, rfl, rfl, rfl, rfl, rfl⟩

end GmTicket

namespace TicketMgr
variable {byAdmins : Bool} {m : TicketMgr} {ticket ticket' : GmTicket}

def openTickets (m : TicketMgr) : ℕ := m.ticketList.rows.countP fun ticket => !ticket.IsClosed

structure Books (byAdmins : Bool) (m : TicketMgr) : Prop where
  counted : m.openTicketCount = UInt32.ofNat m.openTickets
  few : m.openTickets < 2^32
  ids : ∀ ticket ∈ m.ticketList, ticket.id ≤ m.lastTicketId
  one : ∀ ticket ∈ m.ticketList, ∀ other ∈ m.ticketList, ticket.IsClosed = false → other.IsClosed = false →
    ticket.playerGuid = other.playerGuid → ticket = other
  fits : ∀ ticket ∈ m.ticketList, GmTicket.Fits byAdmins ticket.assignedTo ticket.escalatedStatus

theorem Books.toNat_openTicketCount (h : m.Books byAdmins) : m.openTicketCount.toNat = m.openTickets := by
  rw [h.counted, UInt32.toNat_ofNat_of_lt' h.few]

theorem Books.change (h : m.Books byAdmins) (hmem : ticket ∈ m.ticketList) (hid : ticket'.id = ticket.id)
    (hguid : ticket'.playerGuid = ticket.playerGuid) (hclosed : ticket'.closedBy = ticket.closedBy)
    (hfits : GmTicket.Fits byAdmins ticket'.assignedTo ticket'.escalatedStatus) : (m.change ticket').Books byAdmins := by
  have hclosed' : ticket'.IsClosed = ticket.IsClosed := by rw [GmTicket.IsClosed, hclosed, GmTicket.IsClosed]
  have hcount : (m.change ticket').openTickets = m.openTickets := by
    have hput := m.ticketList.countP_put_of_mem (fun ticket => !ticket.IsClosed) hmem hid.symm
    rw [hclosed'] at hput
    exact Nat.add_right_cancel hput
  have hcases : ∀ other ∈ (m.change ticket').ticketList, other = ticket' ∨ (other ∈ m.ticketList ∧ other ≠ ticket) := by
    intro other hother
    rcases (m.ticketList.mem_put ticket' other).mp hother with rfl | ⟨hold, hne⟩
    · exact .inl rfl
    · exact .inr ⟨hold, fun heq => hne (by rw [heq, hid])⟩
  refine ⟨?_, hcount ▸ h.few, ?_, ?_, ?_⟩
  · rw [hcount]
    exact h.counted
  · intro other hother
    rcases hcases other hother with rfl | ⟨hold, -⟩
    · exact hid ▸ h.ids ticket hmem
    · exact h.ids other hold
  · intro a ha b hb hopena hopenb hsame
    rcases hcases a ha with rfl | ⟨holda, hnea⟩ <;> rcases hcases b hb with rfl | ⟨holdb, hneb⟩
    · rfl
    · exact absurd (h.one _ hmem b holdb (hclosed' ▸ hopena) hopenb (hguid ▸ hsame)).symm hneb
    · exact absurd (h.one a holda _ hmem hopena (hclosed' ▸ hopenb) (hguid ▸ hsame)) hnea
    · exact h.one a holda b holdb hopena hopenb hsame
  · intro other hother
    rcases hcases other hother with rfl | ⟨hold, -⟩
    · exact hfits
    · exact h.fits other hold

theorem Books.saveToDB (h : m.Books byAdmins) (ticket : GmTicket) : (m.SaveToDB ticket).Books byAdmins :=
  ⟨h.counted, h.few, h.ids, h.one, h.fits⟩

variable {edit : GmTicket → GmTicket}

theorem Books.editTicket (h : m.Books byAdmins) {ticketId : UInt32} {check : GmTicket → Bool}
    (hid : ∀ ticket, (edit ticket).id = ticket.id)
    (hguid : ∀ ticket, (edit ticket).playerGuid = ticket.playerGuid)
    (hclosed : ∀ ticket, (edit ticket).closedBy = ticket.closedBy)
    (hfits : ∀ ticket, m.GetTicket ticketId = some ticket → check ticket = true →
      GmTicket.Fits byAdmins (edit ticket).assignedTo (edit ticket).escalatedStatus) :
    (m.editTicket ticketId check edit).Books byAdmins := by
  unfold TicketMgr.editTicket
  split
  · exact h
  next ticket hfind =>
    have hmem := (GetTicket_eq_some.mp hfind).1
    split
    next hcheck =>
      exact (h.change hmem (hid ticket) (hguid ticket) (hclosed ticket) (hfits ticket hfind hcheck)).saveToDB _
    · exact h

theorem Books.editTicketOf (h : m.Books byAdmins) {guid : ℕ}
    (hid : ∀ ticket, (edit ticket).id = ticket.id) (hguid : ∀ ticket, (edit ticket).playerGuid = ticket.playerGuid)
    (hclosed : ∀ ticket, (edit ticket).closedBy = ticket.closedBy)
    (hassigned : ∀ ticket, (edit ticket).assignedTo = ticket.assignedTo)
    (hstatus : ∀ ticket, (edit ticket).escalatedStatus = ticket.escalatedStatus) :
    (m.editTicketOf guid edit).Books byAdmins := by
  unfold TicketMgr.editTicketOf
  split
  · exact h
  next ticket hfind =>
    have hmem := (of_GetTicketByPlayer hfind).1
    have hfits : GmTicket.Fits byAdmins (edit ticket).assignedTo (edit ticket).escalatedStatus := by
      rw [hassigned, hstatus]
      exact h.fits ticket hmem
    exact (h.change hmem (hid ticket) (hguid ticket) (hclosed ticket) hfits).saveToDB _

theorem Books.closeTicket (h : m.Books byAdmins) (hmem : ticket ∈ m.ticketList) (hopen : ticket.IsClosed = false)
    {source : ℤ} (hsource : source ≠ 0) : (m.CloseTicket ticket.id source).Books byAdmins := by
  have hfind : m.GetTicket ticket.id = some ticket := GetTicket_eq_some.mpr ⟨hmem, rfl⟩
  have hnow : (ticket.SetClosedBy source).IsClosed = true := decide_eq_true hsource
  have hput := m.ticketList.countP_put_of_mem (fun ticket => !ticket.IsClosed) hmem
    (show ticket.id = (ticket.SetClosedBy source).id from rfl)
  have hcount : (m.change (ticket.SetClosedBy source)).openTickets + 1 = m.openTickets := by
    rw [hopen, hnow] at hput
    exact hput
  have hcases : ∀ other ∈ (m.change (ticket.SetClosedBy source)).ticketList,
      other = ticket.SetClosedBy source ∨ other ∈ m.ticketList := by
    intro other hother
    exact ((m.ticketList.mem_put _ other).mp hother).imp id And.left
  simp only [CloseTicket, hfind, if_neg hsource]
  refine Books.saveToDB ⟨?_, ?_, ?_, ?_, ?_⟩ _
  · show m.openTicketCount - 1 = UInt32.ofNat (m.change _).openTickets
    rw [h.counted, ← hcount, UInt32.ofNat_add]
    exact UInt32.add_sub_cancel _ _
  · have hfew := h.few
    show (m.change _).openTickets < 2^32
    omega
  · intro other hother
    rcases hcases other hother with rfl | hold
    · exact h.ids ticket hmem
    · exact h.ids other hold
  · intro a ha b hb hopena hopenb hsame
    rcases hcases a ha with rfl | ha
    · rw [hnow] at hopena
      cases hopena
    · rcases hcases b hb with rfl | hb
      · rw [hnow] at hopenb
        cases hopenb
      · exact h.one a ha b hb hopena hopenb hsame
  · intro other hother
    rcases hcases other hother with rfl | hold
    · exact h.fits ticket hmem
    · exact h.fits other hold

theorem GenerateTicketId_toNat (hlast : m.lastTicketId.toNat + 1 < 2^32) :
    m.GenerateTicketId.toNat = m.lastTicketId.toNat + 1 := by
  rw [GenerateTicketId, UInt32.toNat_add]
  exact Nat.mod_eq_of_lt hlast

theorem Books.fresh (h : m.Books byAdmins) (hlast : m.lastTicketId.toNat + 1 < 2^32) (hmem : ticket ∈ m.ticketList) :
    ticket.id ≠ m.GenerateTicketId := by
  intro heq
  have hle : ticket.id.toNat ≤ m.lastTicketId.toNat := h.ids ticket hmem
  rw [heq, GenerateTicketId_toNat hlast] at hle
  omega

theorem Books.generated (h : m.Books byAdmins) (hlast : m.lastTicketId.toNat + 1 < 2^32) :
    Books byAdmins { m with lastTicketId := m.GenerateTicketId } := by
  refine ⟨h.counted, h.few, fun ticket hmem => ?_, h.one, h.fits⟩
  have hle : ticket.id.toNat ≤ m.lastTicketId.toNat := h.ids ticket hmem
  show ticket.id.toNat ≤ m.GenerateTicketId.toNat
  rw [GenerateTicketId_toNat hlast]
  omega

theorem Books.addTicket (h : m.Books byAdmins) (hnew : ∀ other ∈ m.ticketList, other.id ≠ ticket.id)
    (hid : ticket.id ≤ m.lastTicketId) (hopen : ticket.IsClosed = false) (hfew : m.openTickets + 1 < 2^32)
    (hnone : ∀ other ∈ m.ticketList, other.playerGuid = ticket.playerGuid → other.IsClosed = true)
    (hfits : GmTicket.Fits byAdmins ticket.assignedTo ticket.escalatedStatus) : (m.AddTicket ticket).Books byAdmins := by
  have hcount : (m.change ticket).openTickets = m.openTickets + 1 := by
    have hput := m.ticketList.countP_put_of_new (fun ticket => !ticket.IsClosed) hnew
    rw [hopen] at hput
    exact hput
  have hcases : ∀ other ∈ (m.change ticket).ticketList, other = ticket ∨ other ∈ m.ticketList := by
    intro other hother
    exact ((m.ticketList.mem_put _ other).mp hother).imp id And.left
  rw [AddTicket, hopen, if_neg Bool.false_ne_true]
  refine Books.saveToDB ⟨?_, ?_, ?_, ?_, ?_⟩ ticket
  · show m.openTicketCount + 1 = UInt32.ofNat (m.change ticket).openTickets
    rw [hcount, h.counted, UInt32.ofNat_add]
    rfl
  · show (m.change ticket).openTickets < 2^32
    omega
  · intro other hother
    rcases hcases other hother with rfl | hold
    · exact hid
    · exact h.ids other hold
  · intro a ha b hb hopena hopenb hsame
    rcases hcases a ha with rfl | holda <;> rcases hcases b hb with rfl | holdb
    · rfl
    · rw [hnone b holdb hsame.symm] at hopenb
      cases hopenb
    · rw [hnone a holda hsame] at hopena
      cases hopena
    · exact h.one a holda b holdb hopena hopenb hsame
  · intro other hother
    rcases hcases other hother with rfl | hold
    · exact hfits
    · exact h.fits other hold

theorem Books.removeTicket (h : m.Books byAdmins) (hmem : ticket ∈ m.ticketList) (hclosed : ticket.IsClosed = true) :
    (m.RemoveTicket ticket.id).Books byAdmins := by
  have hfind : m.GetTicket ticket.id = some ticket := GetTicket_eq_some.mpr ⟨hmem, rfl⟩
  have herase := m.ticketList.countP_erase (fun ticket => !ticket.IsClosed) hmem
  have hcount : (m.RemoveTicket ticket.id).openTickets = m.openTickets := by
    rw [hclosed] at herase
    simp only [RemoveTicket, hfind]
    exact herase
  have hsub : ∀ other ∈ (m.RemoveTicket ticket.id).ticketList, other ∈ m.ticketList := by
    intro other hother
    simp only [RemoveTicket, hfind] at hother
    exact ((m.ticketList.mem_erase _ other).mp hother).1
  have hsame : (m.RemoveTicket ticket.id).openTicketCount = m.openTicketCount ∧
      (m.RemoveTicket ticket.id).lastTicketId = m.lastTicketId := by
    simp only [RemoveTicket, hfind, and_self]
  refine ⟨?_, hcount ▸ h.few, ?_, ?_, ?_⟩
  · rw [hsame.1, hcount]
    exact h.counted
  · intro other hother
    rw [hsame.2]
    exact h.ids other (hsub other hother)
  · exact fun a ha b hb => h.one a (hsub a ha) b (hsub b hb)
  · exact fun other hother => h.fits other (hsub other hother)

variable {m' : TicketMgr}

theorem of_resetLoop {tickets : List GmTicket} (h : m.resetLoop tickets = some m') :
    m' = m ∧ ∀ ticket ∈ tickets, ticket.IsClosed = false := by
  induction tickets with
  | nil => exact ⟨(Option.some.inj h).symm, by simp⟩
  | cons ticket rest ih =>
    unfold resetLoop at h
    split at h
    · cases h
    next hopen =>
      obtain ⟨rfl, hall⟩ := ih h
      refine ⟨rfl, fun other hother => ?_⟩
      rcases List.mem_cons.mp hother with rfl | hother
      · simpa using hopen
      · exact hall other hother

theorem Books.resetTickets (h : m.Books byAdmins) (hcount : m.openTicketCount = 0)
    (hreset : m.ResetTickets = some m') : m'.Books byAdmins := by
  obtain ⟨t, hloop, rfl⟩ := Option.map_eq_some_iff.mp hreset
  obtain ⟨rfl, hall⟩ := of_resetLoop hloop
  have hnone : t.openTickets = 0 := by
    rw [← h.toNat_openTicketCount, hcount]
    rfl
  have hempty : ∀ ticket, ticket ∉ t.ticketList := by
    intro ticket hmem
    have hclosed := List.countP_eq_zero.mp hnone ticket hmem
    simp [hall ticket (mem_ticketsInOrder.mpr hmem)] at hclosed
  exact ⟨h.counted, h.few, fun ticket hmem => absurd hmem (hempty ticket), h.one, h.fits⟩

/-! ### Requests -/

/-- The requests that the books are kept for: a ticket is created while there are ids left and the counter has
room, and `byAdmins` a ticket of the escalation queue goes to an administrator only. -/
def Permitted (byAdmins : Bool) (m : TicketMgr) : Request → Prop
  | .create .. => m.lastTicketId.toNat + 1 < 2^32 ∧ m.openTickets + 1 < 2^32
  | .assign _ ticketId _ targetGmLevel => byAdmins = false ∨
    ∀ ticket ∈ m.GetTicket ticketId, ticket.escalatedStatus = .inEscalationQueue → IsAdminAccount targetGmLevel = true
  | _ => True

theorem Books.create (h : m.Books byAdmins) (player : Player) (levelReq : ℕ) (recv_data : ByteBuffer) (now : UInt32)
    (viewed : Bool) (hlast : m.lastTicketId.toNat + 1 < 2^32) (hfew : m.openTickets + 1 < 2^32) :
    (m.HandleGMTicketCreateOpcode player levelReq recv_data now viewed).Books byAdmins := by
  unfold HandleGMTicketCreateOpcode
  split
  · exact h
  · split
    · exact h
    · split
      · exact h
      next hnone =>
        have hgenerated := h.generated hlast
        dsimp only
        split
        · exact hgenerated
        next ticket hpacket =>
          obtain ⟨hid, hguid, hclosed, hassigned, hstatus, -⟩ := GmTicket.of_ofPacket hpacket
          refine hgenerated.addTicket ?_ ?_ (GmTicket.isClosed_eq_false.mpr hclosed) hfew ?_ ?_
          · intro other hother
            rw [hid]
            exact h.fresh hlast hother
          · rw [hid]
            exact UInt32.le_refl _
          · intro other hother hsame
            exact of_GetTicketByPlayer_none hnone hother (hsame.trans hguid)
          · rw [hassigned, hstatus]
            exact .inl rfl

theorem Books.closeOwn (h : m.Books byAdmins) (player : PlayerGuid) :
    (m.HandleGMTicketDeleteOpcode player).Books byAdmins := by
  unfold HandleGMTicketDeleteOpcode
  split
  · exact h
  next ticket hfind =>
    obtain ⟨hmem, -, hopen⟩ := of_GetTicketByPlayer hfind
    have hguid : player.guid ≠ 0 := fun hzero => player.2 (UInt32.toNat_inj.mp hzero)
    exact h.closeTicket hmem hopen (by exact_mod_cast hguid)

theorem Books.assign (h : m.Books byAdmins) (player : Option PlayerGuid) (ticketId : UInt32)
    (target : Option PlayerGuid) (targetGmLevel : ℕ)
    (hok : Permitted byAdmins m (.assign player ticketId target targetGmLevel)) :
    (m.HandleGMTicketAssignToCommand player ticketId target targetGmLevel).Books byAdmins := by
  unfold HandleGMTicketAssignToCommand
  split
  · exact h
  next targetGuid =>
    refine h.editTicket (fun _ => rfl) (fun _ => rfl) (fun _ => rfl) fun ticket hfind _ => ?_
    have hfits := h.fits ticket (GetTicket_eq_some.mp hfind).1
    have hguid : targetGuid.guid ≠ 0 := fun hzero => targetGuid.2 (UInt32.toNat_inj.mp hzero)
    exact hfits.setAssignedTo hguid (hok.imp id fun hall => hall ticket hfind)

theorem Books.close (h : m.Books byAdmins) (player : Option PlayerGuid) (ticketId : UInt32) :
    (m.HandleGMTicketCloseByIdCommand player ticketId).Books byAdmins := by
  unfold HandleGMTicketCloseByIdCommand
  split
  · exact h
  next ticket hfind =>
    split
    next hcheck =>
      have hopen : ticket.IsClosed = false := by
        simp only [GmTicket.canClose, Bool.and_eq_true, Bool.not_eq_true', Bool.or_eq_false_iff] at hcheck
        exact hcheck.1.1
      refine h.closeTicket (GetTicket_eq_some.mp hfind).1 hopen ?_
      cases player with
      | none => decide
      | some p =>
        have hguid : p.guid ≠ 0 := fun hzero => p.2 (UInt32.toNat_inj.mp hzero)
        exact (by exact_mod_cast hguid : (p.guid : ℤ) ≠ 0)
    · exact h

theorem Books.delete (h : m.Books byAdmins) (ticketId : UInt32) :
    (m.HandleGMTicketDeleteByIdCommand ticketId).Books byAdmins := by
  unfold HandleGMTicketDeleteByIdCommand
  split
  · exact h
  next ticket hfind =>
    split
    · exact h
    next hclosed => exact h.removeTicket (GetTicket_eq_some.mp hfind).1 (by simpa using hclosed)

theorem Books.escalate (h : m.Books byAdmins) (ticketId : UInt32) :
    (m.HandleGMTicketEscalateCommand ticketId).Books byAdmins := by
  unfold HandleGMTicketEscalateCommand
  split
  · exact h
  next ticket hfind =>
    have hmem := (GetTicket_eq_some.mp hfind).1
    split
    next hcheck =>
      have hstatus : ticket.escalatedStatus = .unassigned := by
        simp only [GmTicket.canEscalate, Bool.not_eq_true', Bool.or_eq_false_iff, decide_eq_false_iff_not,
          not_not] at hcheck
        exact hcheck.2
      exact h.change hmem rfl rfl rfl ((h.fits ticket hmem).escalate hstatus)
    · exact h

theorem Books.step (h : m.Books byAdmins) {r : Request} (hok : Permitted byAdmins m r)
    (hs : m.step r = some m') : m'.Books byAdmins := by
  cases r with
  | create player levelReq recv_data now viewed =>
    cases hs
    exact h.create player levelReq recv_data now viewed hok.1 hok.2
  | update player recv_data now =>
    cases hs
    exact h.editTicketOf (fun _ => rfl) (fun _ => rfl) (fun _ => rfl) (fun _ => rfl) (fun _ => rfl)
  | abandon player =>
    cases hs
    exact h.closeOwn player
  | resolve player =>
    cases hs
    exact h.closeOwn player
  | assign player ticketId target targetGmLevel =>
    cases hs
    exact h.assign player ticketId target targetGmLevel hok
  | close player ticketId =>
    cases hs
    exact h.close player ticketId
  | comment player ticketId comment =>
    cases hs
    refine h.editTicket (fun _ => rfl) (fun _ => rfl) (fun _ => rfl) fun ticket hfind _ => ?_
    exact h.fits ticket (GetTicket_eq_some.mp hfind).1
  | complete ticketId =>
    cases hs
    exact h
  | delete ticketId =>
    cases hs
    exact h.delete ticketId
  | escalate ticketId =>
    cases hs
    exact h.escalate ticketId
  | reset =>
    rw [TicketMgr.step, HandleGMTicketResetCommand] at hs
    split at hs
    · cases hs
      exact h
    next hcount => exact h.resetTickets (not_not.mp hcount) hs
  | toggle =>
    cases hs
    exact ⟨h.counted, h.few, h.ids, h.one, h.fits⟩
  | unassign ticketId security mySecurity =>
    cases hs
    refine h.editTicket (fun _ => rfl) (fun _ => rfl) (fun _ => rfl) fun ticket hfind _ => ?_
    exact (h.fits ticket (GetTicket_eq_some.mp hfind).1).setUnassigned
  | viewId ticketId =>
    cases hs
    refine h.editTicket (fun _ => rfl) (fun _ => rfl) (fun _ => rfl) fun ticket hfind _ => ?_
    exact h.fits ticket (GetTicket_eq_some.mp hfind).1
  | viewName player =>
    cases hs
    cases player with
    | none => exact h
    | some p => exact h.editTicketOf (fun _ => rfl) (fun _ => rfl) (fun _ => rfl) (fun _ => rfl) (fun _ => rfl)
  | append player ticketId response newLine =>
    cases hs
    cases newLine with
    | false =>
      refine h.editTicket (fun _ => rfl) (fun _ => rfl) (fun _ => rfl) fun ticket hfind _ => ?_
      exact h.fits ticket (GetTicket_eq_some.mp hfind).1
    | true =>
      refine h.editTicket (fun _ => rfl) (fun _ => rfl) (fun _ => rfl) fun ticket hfind _ => ?_
      exact h.fits ticket (GetTicket_eq_some.mp hfind).1

/-! ### Runs -/

structure Consistent (byAdmins : Bool) (table : Table) : Prop where
  few : (table.rows.countP fun row => !(GmTicket.LoadFromDB row).IsClosed) < 2^32
  one : ∀ row ∈ table, ∀ other ∈ table, (GmTicket.LoadFromDB row).IsClosed = false →
    (GmTicket.LoadFromDB other).IsClosed = false → row.guid = other.guid → row = other
  fits : ∀ row ∈ table,
    GmTicket.Fits byAdmins (GmTicket.LoadFromDB row).assignedTo (GmTicket.LoadFromDB row).escalatedStatus

def Loaded (rows : Table → Prop) (m : TicketMgr) : Prop :=
  ∃ before : TicketMgr, rows before.gmTickets ∧ m = before.LoadTickets

theorem Loaded.books (h : m.Loaded (Consistent byAdmins)) : m.Books byAdmins := by
  obtain ⟨before, hrows, rfl⟩ := h
  obtain ⟨hlist, hcount, hids, -⟩ := before.LoadTickets_spec
  have hopen : before.LoadTickets.openTickets =
      before.gmTickets.rows.countP fun row => !(GmTicket.LoadFromDB row).IsClosed := by
    rw [openTickets, hlist, List.countP_map]
    rfl
  refine ⟨?_, hopen ▸ hrows.few, ?_, ?_, ?_⟩
  · rw [hcount, openTickets, hlist]
  · intro ticket hticket
    obtain ⟨row, hrow, rfl⟩ := mem_LoadTickets.mp hticket
    exact hids row hrow
  · intro a ha b hb hopena hopenb hsame
    obtain ⟨row, hrow, rfl⟩ := mem_LoadTickets.mp ha
    obtain ⟨other, hother, rfl⟩ := mem_LoadTickets.mp hb
    rw [hrows.one row hrow other hother hopena hopenb (UInt32.toNat_inj.mp hsame)]
  · intro ticket hticket
    obtain ⟨row, hrow, rfl⟩ := mem_LoadTickets.mp hticket
    exact hrows.fits row hrow

/-- After any permitted requests the counter is the number of open tickets, the next id is free, nobody has two
open tickets, and the status says whether the ticket is assigned, but for tickets of the escalation queue that
somebody has who is not an administrator. -/
theorem ticketBooks_of_reaches (h : Reaches step (Permitted byAdmins) (Loaded (Consistent byAdmins)) m) :
    m.openTicketCount.toNat = m.openTickets ∧
      (m.lastTicketId.toNat + 1 < 2^32 → ∀ ticket ∈ m.ticketList, ticket.id ≠ m.GenerateTicketId) ∧
      (∀ ticket ∈ m.ticketList, ∀ other ∈ m.ticketList, ticket.IsClosed = false → other.IsClosed = false →
        ticket.playerGuid = other.playerGuid → ticket = other) ∧
      ∀ ticket ∈ m.ticketList, (ticket.escalatedStatus.IsAssigned = true → ticket.IsAssigned = true) ∧
        (ticket.IsAssigned = true → ticket.escalatedStatus.IsAssigned = true ∨
          (byAdmins = false ∧ ticket.escalatedStatus = .inEscalationQueue)) := by
  have hbooks : m.Books byAdmins :=
    h.invariant (fun _ hstart => hstart.books) fun _ _ _ hI hok hs => hI.step hok hs
  refine ⟨hbooks.toNat_openTicketCount, fun hlast ticket hmem => hbooks.fresh hlast hmem, hbooks.one, ?_⟩
  intro ticket hmem
  exact (hbooks.fits ticket hmem).isAssigned

instance Permitted.decidable (byAdmins : Bool) (m : TicketMgr) : (r : Request) → Decidable (Permitted byAdmins m r)
  | .create .. => inferInstanceAs (Decidable (_ ∧ _))
  | .assign _ ticketId _ targetGmLevel =>
    inferInstanceAs (Decidable (byAdmins = false ∨ ∀ ticket ∈ m.GetTicket ticketId,
      ticket.escalatedStatus = .inEscalationQueue → IsAdminAccount targetGmLevel = true))
  | .update .. | .abandon _ | .resolve _ | .close .. | .comment .. | .complete _ | .delete _ | .escalate _ | .reset
  | .toggle | .unassign .. | .viewId _ | .viewName _ | .append .. => isTrue trivial

/-! ### Runs from an empty table -/

def fresh (table : Table) : TicketMgr := ⟨.empty, true, 0, 0, table⟩

def helpPacket : ByteBuffer :=
  ⟨[1, 0, 0, 0, 0, 0, 0, 0, 0, 0, 0, 0, 0, 0, 0, 0] ++ ascii "help" ++ [0, 1, 0, 0, 0, 0], 0, fun _ => 0⟩

def player (low : UInt32) (h : low ≠ 0) : Player := ⟨⟨low, h⟩, .ofCStr (ascii "Ann"), 80⟩

def newTicket : Request := .create (player 5 (by decide)) 1 helpPacket 100 false

def queueRun (gmLevel : ℕ) : List Request :=
  [newTicket, .escalate 1, .assign none 1 (some ⟨7, by decide⟩) gmLevel]

theorem loaded_fresh : (fresh .empty).LoadTickets.Loaded fun table => table.rows = [] := ⟨_, rfl, rfl⟩

theorem Consistent.empty : Consistent byAdmins .empty := ⟨by decide, by simp [KeyedList.mem_rows, KeyedList.empty],
  by simp [KeyedList.mem_rows, KeyedList.empty]⟩

theorem Consistent.loaded_fresh : (fresh .empty).LoadTickets.Loaded (Consistent byAdmins) := ⟨_, .empty, rfl⟩

theorem ticketBooks_of_reaches_sample : ∃ m : TicketMgr, m.ticketList.size = 1 ∧
    m.openTicketCount.toNat = m.openTickets ∧
    ∀ ticket ∈ m.ticketList, ticket.IsAssigned = true → ticket.escalatedStatus.IsAssigned = true := by
  obtain ⟨m, hm, hsize⟩ := Reaches.exists_of_replay step (Permitted true) Consistent.loaded_fresh (queueRun 3)
    (by decide +kernel) (fun m => decide (m.ticketList.size = 1)) (by decide +kernel)
  obtain ⟨hcount, -, -, hassigned⟩ := ticketBooks_of_reaches hm
  exact ⟨m, of_decide_eq_true hsize, hcount, fun ticket hmem h => ((hassigned ticket hmem).2 h).resolve_right (by simp)⟩

def openRow (id : UInt32) : Row where
  ticketId := id
  guid := 5
  name := .ofCStr (ascii "Ann")
  message := .ofCStr (ascii "help")
  createTime := 100
  mapId := 1
  pos := (0, 0, 0)
  lastModifiedTime := 100
  closedBy := 0
  assignedTo := 0
  comment := .ofCStr []
  response := ascii "0"
  completed := 0
  escalated := 0

/-- A ticket of the escalation queue in the hands of a game master of level 2; two open tickets of one player in
the table; the last id in the table, and a ticket with id 0. -/
theorem queue_ticket_assigned :
    (∃ m, Reaches step anyStep (Loaded fun table => table.rows = []) m ∧
      ∃ ticket ∈ m.ticketList, ticket.IsAssigned = true ∧ ticket.escalatedStatus.IsAssigned = false) ∧
    (∃ m, Loaded (fun _ => True) m ∧ ∃ ticket ∈ m.ticketList, ∃ other ∈ m.ticketList, ticket.IsClosed = false ∧
      other.IsClosed = false ∧ ticket.playerGuid = other.playerGuid ∧ ticket ≠ other) ∧
    ∃ m, Loaded (fun _ => True) m ∧ ∃ ticket ∈ m.ticketList, ticket.id = m.GenerateTicketId := by
  refine ⟨?_, ?_, ?_⟩
  · obtain ⟨m, hm, htest⟩ := Reaches.exists_of_replay step anyStep loaded_fresh (queueRun 2)
      (replayOk_anyStep step _ _) (fun m => m.ticketList.rows.any fun ticket =>
        ticket.IsAssigned && !ticket.escalatedStatus.IsAssigned) (by decide +kernel)
    obtain ⟨ticket, hmem, hticket⟩ := List.any_eq_true.mp htest
    exact ⟨m, hm, ticket, hmem, by simpa using hticket⟩
  · refine ⟨_, ⟨fresh ⟨[openRow 1, openRow 2], by decide⟩, trivial, rfl⟩, .LoadFromDB (openRow 1), ?_,
      .LoadFromDB (openRow 2), ?_, by decide, by decide, by decide, by decide⟩
    · exact mem_LoadTickets.mpr ⟨openRow 1, List.mem_cons_self, rfl⟩
    · exact mem_LoadTickets.mpr ⟨openRow 2, List.mem_cons_of_mem _ List.mem_cons_self, rfl⟩
  · refine ⟨_, ⟨fresh ⟨[openRow 0, openRow (2^32 - 1)], by decide⟩, trivial, rfl⟩, .LoadFromDB (openRow 0), ?_, ?_⟩
    · exact mem_LoadTickets.mpr ⟨openRow 0, List.mem_cons_self, rfl⟩
    · decide +kernel

end TicketMgr

end HysteriaCore.Tickets
