import HysteriaCore.Tickets.Bookkeeping

/-!
# Tickets after a restart

What `LoadTickets` would make of the table, against the tickets in memory.
-/

namespace HysteriaCore.Tickets
open Lib Net Objects

structure Shown where
  id : UInt32
  playerGuid : ℕ
  playerName : Text
  message : Text
  closedBy : ℤ
  assignedTo : ℕ
  comment : Text
  completed : Bool
  escalatedStatus : GMTicketEscalationStatus
  viewed : Bool
deriving DecidableEq

/-! ### One row -/

theorem guidLoPart_of_lt {guid : ℕ} (h : guid < 2^32) : guidLoPart guid = guid := by
  have hhi : guidHiPart guid = 0 := by
    unfold guidHiPart
    omega
  have hplayer : isGuidHaveEnPart guid = false := by simp [isGuidHaveEnPart, hhi]
  rw [guidLoPart, hplayer, if_neg Bool.false_ne_true, Nat.mod_eq_of_lt h]

namespace GmTicket
variable {ticket : GmTicket}

def shown (ticket : GmTicket) : Shown :=
  ⟨ticket.id, ticket.playerGuid, ticket.playerName, ticket.message, ticket.closedBy, ticket.assignedTo,
    ticket.comment, ticket.completed, ticket.escalatedStatus, ticket.viewed⟩

def OfPlayers (ticket : GmTicket) : Prop := ticket.playerGuid < 2^32 ∧ ticket.assignedTo < 2^32

theorem closedBy_saved {closedBy : ℤ} (hpos : 0 ≤ closedBy) (hlt : closedBy < 2^31) :
    (Int32.ofInt (guidLoPart (closedBy % 2^64).toNat)).toInt = closedBy := by
  have hmod : closedBy % 2^64 = closedBy := Int.emod_eq_of_lt hpos (by omega)
  have hlow : closedBy.toNat < 2^32 := by omega
  rw [hmod, guidLoPart_of_lt hlow, Int.toNat_of_nonneg hpos]
  exact Int32.toInt_ofInt_of_le (by omega) hlt

theorem completed_lost (ticket : GmTicket) : (LoadFromDB ticket.SaveToDB).completed = false := by
  show decide (textGetUInt8 (decimal ticket.completed.toNat) = 1) = false
  cases ticket.completed <;> decide

theorem load_save (hplayers : ticket.OfPlayers) (hpos : 0 ≤ ticket.closedBy) (hlt : ticket.closedBy < 2^31)
    (hcompleted : ticket.completed = false) : (LoadFromDB ticket.SaveToDB).shown = ticket.shown := by
  have hguid : (LoadFromDB ticket.SaveToDB).playerGuid = ticket.playerGuid := by
    show (UInt32.ofNat (guidLoPart ticket.playerGuid)).toNat = _
    rw [guidLoPart_of_lt hplayers.1, UInt32.toNat_ofNat_of_lt' hplayers.1]
  have hassigned : (LoadFromDB ticket.SaveToDB).assignedTo = ticket.assignedTo := by
    show (UInt32.ofNat (guidLoPart ticket.assignedTo)).toNat = _
    rw [guidLoPart_of_lt hplayers.2, UInt32.toNat_ofNat_of_lt' hplayers.2]
  have hclosed : (LoadFromDB ticket.SaveToDB).closedBy = ticket.closedBy := closedBy_saved hpos hlt
  have hdone : (LoadFromDB ticket.SaveToDB).completed = ticket.completed := by
    rw [completed_lost, hcompleted]
  have hstatus : (LoadFromDB ticket.SaveToDB).escalatedStatus = ticket.escalatedStatus :=
    GMTicketEscalationStatus.ofUInt8_toUInt8 _
  have hviewed : (LoadFromDB ticket.SaveToDB).viewed = ticket.viewed := by
    show decide (UInt8.ofNat ticket.viewed.toNat = 1) = _
    cases ticket.viewed <;> decide
  unfold shown
  rw [hguid, hassigned, hclosed, hdone, hstatus, hviewed]
  rfl

end GmTicket

namespace TicketMgr
variable {m m' : TicketMgr} {ticket : GmTicket}

/-! ### The table and the list -/

def Survives (m : TicketMgr) : Prop :=
  ∀ ticketId, (m.LoadTickets.GetTicket ticketId).map GmTicket.shown = (m.GetTicket ticketId).map GmTicket.shown

structure Stored (m : TicketMgr) : Prop where
  survives : m.Survives
  players : ∀ ticket ∈ m.ticketList, ticket.OfPlayers

theorem survives_iff : m.Survives ↔ ∀ ticketId, ((m.gmTickets.find? ticketId).map GmTicket.LoadFromDB).map GmTicket.shown =
    (m.ticketList.find? ticketId).map GmTicket.shown := by
  unfold Survives
  simp only [GetTicket_LoadTickets]
  rfl

theorem Stored.put (h : m.Stored) (hlist : m'.ticketList = m.ticketList.put ticket)
    (htable : m'.gmTickets = m.gmTickets.put ticket.SaveToDB) (hplayers : ticket.OfPlayers)
    (hsaved : (GmTicket.LoadFromDB ticket.SaveToDB).shown = ticket.shown) : m'.Stored := by
  constructor
  · rw [survives_iff]
    intro ticketId
    have hold := survives_iff.mp h.survives ticketId
    have hkey : ticket.SaveToDB.ticketId = ticket.id := rfl
    rw [hlist, htable, KeyedList.find?_put, KeyedList.find?_put, hkey]
    by_cases hid : ticket.id = ticketId
    · rw [if_pos hid, if_pos hid]
      exact congrArg some hsaved
    · rw [if_neg hid, if_neg hid]
      exact hold
  · intro other hother
    rw [hlist] at hother
    rcases (m.ticketList.mem_put ticket other).mp hother with rfl | ⟨hmem, -⟩
    · exact hplayers
    · exact h.players other hmem

theorem Stored.putOpen (h : m.Stored) (hlist : m'.ticketList = m.ticketList.put ticket)
    (htable : m'.gmTickets = m.gmTickets.put ticket.SaveToDB) (hplayers : ticket.OfPlayers)
    (hopen : ticket.closedBy = 0) (hcompleted : ticket.completed = false) : m'.Stored := by
  refine h.put hlist htable hplayers (GmTicket.load_save hplayers ?_ ?_ hcompleted)
  · rw [hopen]
  · rw [hopen]
    decide

theorem Stored.removeTicket (h : m.Stored) (ticketId : UInt32) : (m.RemoveTicket ticketId).Stored := by
  unfold RemoveTicket
  split
  · exact h
  · constructor
    · rw [survives_iff]
      intro other
      have hold := survives_iff.mp h.survives other
      show ((KeyedList.find? (m.gmTickets.erase ticketId) other).map _).map _ =
        (KeyedList.find? (m.ticketList.erase ticketId) other).map _
      rw [KeyedList.find?_erase, KeyedList.find?_erase]
      split
      · rfl
      · exact hold
    · exact fun other hother => h.players other ((m.ticketList.mem_erase ticketId other).mp hother).1

/-! ### Requests -/

def accepted (m : TicketMgr) (ticketId : UInt32) (check : GmTicket → Bool) : Option GmTicket :=
  (m.GetTicket ticketId).filter check

def saved (m : TicketMgr) : Request → Option GmTicket
  | .update player .. => m.GetTicketByPlayer player.guid
  | .abandon player => m.GetTicketByPlayer player.guid
  | .resolve player => m.GetTicketByPlayer player.guid
  | .assign player ticketId target targetGmLevel =>
    target.bind fun target => m.accepted ticketId fun ticket => ticket.canAssign player target targetGmLevel
  | .close player ticketId => m.accepted ticketId (GmTicket.canClose · player)
  | .comment player ticketId _ => m.accepted ticketId (GmTicket.canComment · player)
  | .unassign ticketId security mySecurity => m.accepted ticketId (GmTicket.canUnassign · security mySecurity)
  | .viewId ticketId => m.accepted ticketId GmTicket.canView
  | .viewName player => player.bind fun player => m.GetTicketByPlayer player.guid
  | .append player ticketId .. => m.accepted ticketId (GmTicket.canComment · player)
  | _ => none

/-- The guid of who closes a ticket fits an `int32`; for the console it is -1, and the row gets 24 bits of it. -/
def ClosedByPlayer (player : Option PlayerGuid) : Prop := ∃ p ∈ player, p.guid < 2^31

/-- The requests after which a restart is harmless: none saves a ticket that was read as completed, tickets are
closed by players whose guid fits an `int32`, none is escalated, and a reset finds nothing to remove. -/
def Restartable (m : TicketMgr) (r : Request) : Prop :=
  (∀ ticket ∈ m.saved r, ticket.completed = false) ∧
    match r with
    | .abandon player => (m.GetTicketByPlayer player.guid).isSome = true → ClosedByPlayer (some player)
    | .resolve player => (m.GetTicketByPlayer player.guid).isSome = true → ClosedByPlayer (some player)
    | .close player ticketId =>
      (m.accepted ticketId (GmTicket.canClose · player)).isSome = true → ClosedByPlayer player
    | .escalate ticketId => m.accepted ticketId GmTicket.canEscalate = none
    | .reset => m.openTicketCount ≠ 0 ∨ m.ticketList.rows = []
    | _ => True

variable {edit : GmTicket → GmTicket}

theorem Stored.editTicket (h : m.Stored) {ticketId : UInt32} {check : GmTicket → Bool}
    (hok : ∀ ticket ∈ m.accepted ticketId check, ticket.completed = false)
    (hopen : ∀ ticket, check ticket = true → ticket.IsClosed = false)
    (hclosed : ∀ ticket, (edit ticket).closedBy = ticket.closedBy)
    (hcompleted : ∀ ticket, (edit ticket).completed = ticket.completed)
    (hplayers : ∀ ticket, ticket.OfPlayers → (edit ticket).OfPlayers) :
    (m.editTicket ticketId check edit).Stored := by
  unfold TicketMgr.editTicket
  split
  · exact h
  next ticket hfind =>
    split
    next hcheck =>
      have hdone := hok ticket (by rw [accepted, hfind, Option.filter_some, if_pos hcheck]; rfl)
      refine h.putOpen rfl rfl (hplayers ticket (h.players ticket (GetTicket_eq_some.mp hfind).1)) ?_ ?_
      · rw [hclosed]
        exact GmTicket.isClosed_eq_false.mp (hopen ticket hcheck)
      · rw [hcompleted]
        exact hdone
    · exact h

theorem Stored.editTicketOf (h : m.Stored) {guid : ℕ}
    (hok : ∀ ticket ∈ m.GetTicketByPlayer guid, ticket.completed = false)
    (hclosed : ∀ ticket, (edit ticket).closedBy = ticket.closedBy)
    (hcompleted : ∀ ticket, (edit ticket).completed = ticket.completed)
    (hplayers : ∀ ticket, ticket.OfPlayers → (edit ticket).OfPlayers) : (m.editTicketOf guid edit).Stored := by
  unfold TicketMgr.editTicketOf
  split
  · exact h
  next ticket hfind =>
    obtain ⟨hmem, -, hopen⟩ := of_GetTicketByPlayer hfind
    refine h.putOpen rfl rfl (hplayers ticket (h.players ticket hmem)) ?_ ?_
    · rw [hclosed]
      exact GmTicket.isClosed_eq_false.mp hopen
    · rw [hcompleted]
      exact hok ticket hfind

theorem Stored.closeTicket (h : m.Stored) (hmem : ticket ∈ m.ticketList) {player : PlayerGuid}
    (hguid : player.guid < 2^31) (hcompleted : ticket.completed = false) :
    (m.CloseTicket ticket.id player.guid).Stored := by
  have hfind : m.GetTicket ticket.id = some ticket := GetTicket_eq_some.mpr ⟨hmem, rfl⟩
  have hplayers := h.players ticket hmem
  have hlt : (player.guid : ℤ) < 2^31 := by exact_mod_cast hguid
  have hsaved : (GmTicket.LoadFromDB (ticket.SetClosedBy player.guid).SaveToDB).shown =
      (ticket.SetClosedBy player.guid).shown :=
    GmTicket.load_save hplayers (Int.natCast_nonneg _) hlt hcompleted
  simp only [CloseTicket, hfind]
  exact h.put rfl rfl hplayers hsaved

theorem Stored.closeOwn (h : m.Stored) (player : PlayerGuid)
    (hdone : ∀ ticket ∈ m.GetTicketByPlayer player.guid, ticket.completed = false)
    (hguid : (m.GetTicketByPlayer player.guid).isSome = true → ClosedByPlayer (some player)) :
    (m.HandleGMTicketDeleteOpcode player).Stored := by
  unfold HandleGMTicketDeleteOpcode
  split
  · exact h
  next ticket hfind =>
    obtain ⟨p, hp, hlt⟩ := hguid (by rw [hfind]; rfl)
    obtain rfl : p = player := (Option.mem_some.mp hp).symm
    exact h.closeTicket (of_GetTicketByPlayer hfind).1 hlt (hdone ticket hfind)

theorem Stored.close (h : m.Stored) (player : Option PlayerGuid) (ticketId : UInt32)
    (hguid : (m.accepted ticketId (GmTicket.canClose · player)).isSome = true → ClosedByPlayer player) :
    (m.HandleGMTicketCloseByIdCommand player ticketId).Stored := by
  unfold HandleGMTicketCloseByIdCommand
  split
  · exact h
  next ticket hfind =>
    split
    next hcheck =>
      obtain ⟨p, hp, hlt⟩ := hguid (by rw [accepted, hfind, Option.filter_some, if_pos hcheck]; rfl)
      have hcompleted : ticket.completed = false := by
        simp only [GmTicket.canClose, Bool.and_eq_true, Bool.not_eq_true', Bool.or_eq_false_iff] at hcheck
        exact hcheck.1.2
      rw [Option.mem_def.mp hp]
      exact h.closeTicket (GetTicket_eq_some.mp hfind).1 hlt hcompleted
    · exact h

theorem Stored.create (h : m.Stored) (player : Player) (levelReq : ℕ) (recv_data : ByteBuffer) (now : UInt32)
    (viewed : Bool) : (m.HandleGMTicketCreateOpcode player levelReq recv_data now viewed).Stored := by
  unfold HandleGMTicketCreateOpcode
  split
  · exact h
  · split
    · exact h
    · split
      · exact h
      · have hgenerated : Stored { m with lastTicketId := m.GenerateTicketId } := ⟨h.survives, h.players⟩
        dsimp only
        split
        · exact hgenerated
        next ticket hpacket =>
          obtain ⟨-, hguid, hclosed, hassigned, -, hcompleted⟩ := GmTicket.of_ofPacket hpacket
          have hplayers : ticket.OfPlayers := by
            rw [GmTicket.OfPlayers, hguid, hassigned]
            exact ⟨player.guid.1.toNat_lt, by decide⟩
          exact hgenerated.putOpen rfl rfl hplayers hclosed hcompleted

theorem canComment_open {player : Option PlayerGuid} (h : ticket.canComment player = true) : ticket.IsClosed = false := by
  simp only [GmTicket.canComment, Bool.and_eq_true, Bool.not_eq_true'] at h
  exact h.1

theorem Stored.step (h : m.Stored) {r : Request} (hok : Restartable m r) (hs : m.step r = some m') : m'.Stored := by
  obtain ⟨hdone, hok⟩ := hok
  cases r with
  | create player levelReq recv_data now viewed =>
    cases hs
    exact h.create player levelReq recv_data now viewed
  | update player recv_data now =>
    cases hs
    exact h.editTicketOf hdone (fun _ => rfl) (fun _ => rfl) fun _ hplayers => hplayers
  | abandon player =>
    cases hs
    exact h.closeOwn player hdone hok
  | resolve player =>
    cases hs
    exact h.closeOwn player hdone hok
  | assign player ticketId target targetGmLevel =>
    cases hs
    cases target with
    | none => exact h
    | some target =>
      refine h.editTicket hdone ?_ (fun _ => rfl) (fun _ => rfl) ?_
      · intro ticket hcheck
        simp only [GmTicket.canAssign, Bool.and_eq_true, Bool.not_eq_true'] at hcheck
        exact hcheck.1.1.1
      · exact fun ticket hplayers => ⟨hplayers.1, target.1.toNat_lt⟩
  | close player ticketId =>
    cases hs
    exact h.close player ticketId hok
  | comment player ticketId comment =>
    cases hs
    exact h.editTicket hdone (fun _ => canComment_open) (fun _ => rfl) (fun _ => rfl) fun _ hplayers => hplayers
  | complete ticketId =>
    cases hs
    exact h
  | delete ticketId =>
    cases hs
    show (m.HandleGMTicketDeleteByIdCommand ticketId).Stored
    unfold HandleGMTicketDeleteByIdCommand
    split
    · exact h
    · split
      · exact h
      · exact h.removeTicket _
  | escalate ticketId =>
    cases hs
    show (m.HandleGMTicketEscalateCommand ticketId).Stored
    unfold HandleGMTicketEscalateCommand
    split
    · exact h
    next ticket hfind =>
      split
      next hcheck =>
        have haccepted : m.accepted ticketId GmTicket.canEscalate = some ticket := by
          rw [accepted, hfind, Option.filter_some, if_pos hcheck]
        exact absurd (haccepted.symm.trans hok) (by simp)
      · exact h
  | reset =>
    rw [TicketMgr.step, HandleGMTicketResetCommand] at hs
    split at hs
    · cases hs
      exact h
    next hcount =>
      obtain ⟨t, hloop, rfl⟩ := Option.map_eq_some_iff.mp hs
      obtain ⟨rfl, -⟩ := of_resetLoop hloop
      have hempty : t.ticketList.rows = [] := hok.resolve_left hcount
      refine ⟨survives_iff.mpr fun ticketId => ?_, h.players⟩
      have hnone : t.ticketList.find? ticketId = none := by
        rw [KeyedList.find?, hempty]
        rfl
      show none = (t.ticketList.find? ticketId).map GmTicket.shown
      rw [hnone]
      rfl
  | toggle =>
    cases hs
    have hsame := survives_iff.mp h.survives
    exact ⟨survives_iff.mpr hsame, h.players⟩
  | unassign ticketId security mySecurity =>
    cases hs
    refine h.editTicket hdone ?_ (fun _ => rfl) (fun _ => rfl) fun _ hplayers => ⟨hplayers.1, Nat.two_pow_pos 32⟩
    intro ticket hcheck
    simp only [GmTicket.canUnassign, Bool.and_eq_true, Bool.not_eq_true'] at hcheck
    exact hcheck.1.1
  | viewId ticketId =>
    cases hs
    refine h.editTicket hdone ?_ (fun _ => rfl) (fun _ => rfl) fun _ hplayers => hplayers
    intro ticket hcheck
    simp only [GmTicket.canView, Bool.not_eq_true', Bool.or_eq_false_iff] at hcheck
    exact hcheck.1
  | viewName player =>
    cases hs
    cases player with
    | none => exact h
    | some p => exact h.editTicketOf hdone (fun _ => rfl) (fun _ => rfl) fun _ hplayers => hplayers
  | append player ticketId response newLine =>
    cases hs
    cases newLine with
    | false => exact h.editTicket hdone (fun _ => canComment_open) (fun _ => rfl) (fun _ => rfl) fun _ hplayers => hplayers
    | true => exact h.editTicket hdone (fun _ => canComment_open) (fun _ => rfl) (fun _ => rfl) fun _ hplayers => hplayers

/-! ### Runs -/

theorem Loaded.stored {rows : Table → Prop} (h : m.Loaded rows) : m.Stored := by
  obtain ⟨before, -, rfl⟩ := h
  obtain ⟨hlist, -, -, htable⟩ := before.LoadTickets_spec
  constructor
  · intro ticketId
    rw [GetTicket_LoadTickets, GetTicket_LoadTickets, htable]
  · intro ticket hticket
    obtain ⟨row, -, rfl⟩ := mem_LoadTickets.mp hticket
    exact ⟨row.guid.toNat_lt, row.assignedTo.toNat_lt⟩

/-- Whatever table was loaded: after requests that each meet the condition a restart brings every ticket back. -/
theorem survives_of_reaches (h : Reaches step Restartable (Loaded fun _ => True) m) : m.Survives := by
  have hstored : m.Stored := h.invariant (fun _ hstart => hstart.stored) fun _ _ _ hI hok hs => hI.step hok hs
  exact hstored.survives

instance ClosedByPlayer.decidable : (player : Option PlayerGuid) → Decidable (ClosedByPlayer player)
  | none => isFalse fun ⟨_, hp, _⟩ => by simp at hp
  | some p => decidable_of_iff (p.guid < 2^31) (by simp [ClosedByPlayer])

instance Restartable.decidable (m : TicketMgr) : (r : Request) → Decidable (Restartable m r)
  | .abandon _ | .resolve _ | .close .. | .escalate _ | .reset => inferInstanceAs (Decidable (_ ∧ _))
  | .create .. | .update .. | .assign .. | .comment .. | .complete _ | .delete _ | .toggle | .unassign .. | .viewId _
  | .viewName _ | .append .. => inferInstanceAs (Decidable (_ ∧ True))

theorem loaded_any : (fresh .empty).LoadTickets.Loaded fun _ => True := ⟨_, trivial, rfl⟩

/-- A ticket is assigned, commented and viewed, and its player gives it up. -/
theorem survives_of_reaches_sample : ∃ m : TicketMgr, (m.GetTicket 1).map GmTicket.closedBy = some 5 ∧
    (m.GetTicket 1).map GmTicket.assignedTo = some 7 ∧ m.Survives := by
  obtain ⟨m, hm, htest⟩ := Reaches.exists_of_replay step Restartable loaded_any
    [newTicket, .assign none 1 (some ⟨7, by decide⟩) 2, .comment none 1 (ascii "soon"), .viewId 1,
      .abandon ⟨5, by decide⟩] (by decide +kernel)
    (fun m => decide ((m.GetTicket 1).map GmTicket.closedBy = some 5 ∧
      (m.GetTicket 1).map GmTicket.assignedTo = some 7)) (by decide +kernel)
  obtain ⟨hclosed, hassigned⟩ := of_decide_eq_true htest
  exact ⟨m, hclosed, hassigned, survives_of_reaches hm⟩

/-- A ticket that was escalated is back unassigned; one that the console closed, as -1, was closed by 16777215. -/
theorem escalated_lost :
    (∃ m, Reaches step anyStep (Loaded fun table => table.rows = []) m ∧
      (m.GetTicket 1).map GmTicket.escalatedStatus = some .inEscalationQueue ∧
      (m.LoadTickets.GetTicket 1).map GmTicket.escalatedStatus = some .unassigned) ∧
    ∃ m, Reaches step anyStep (Loaded fun table => table.rows = []) m ∧
      (m.GetTicket 1).map GmTicket.closedBy = some (-1) ∧
      (m.LoadTickets.GetTicket 1).map GmTicket.closedBy = some 16777215 := by
  constructor
  · obtain ⟨m, hm, htest⟩ := Reaches.exists_of_replay step anyStep loaded_fresh [newTicket, .escalate 1]
      (replayOk_anyStep step _ _) (fun m => decide (
        (m.GetTicket 1).map GmTicket.escalatedStatus = some .inEscalationQueue ∧
        (m.LoadTickets.GetTicket 1).map GmTicket.escalatedStatus = some .unassigned)) (by decide +kernel)
    exact ⟨m, hm, of_decide_eq_true htest⟩
  · obtain ⟨m, hm, htest⟩ := Reaches.exists_of_replay step anyStep loaded_fresh [newTicket, .close none 1]
      (replayOk_anyStep step _ _) (fun m => decide ((m.GetTicket 1).map GmTicket.closedBy = some (-1) ∧
        (m.LoadTickets.GetTicket 1).map GmTicket.closedBy = some 16777215)) (by decide +kernel)
    exact ⟨m, hm, of_decide_eq_true htest⟩

end TicketMgr

end HysteriaCore.Tickets
