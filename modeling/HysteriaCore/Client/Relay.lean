import HysteriaCore.Lib.Runs
import HysteriaCore.Net.Packet

/-!
# The relay of node packets to the client (shade/Server/Node/NodeSocket.cpp, ClientSession.cpp)

`_processIncoming` puts each packet of the node in one of two queues, by the `multipass`
flag of its opcode. The world thread drains one queue in `UpdateSingleNodeIO`, an updater
thread the other in `UpdateMultiNodeIO`.
-/

namespace HysteriaCore.Client
open Lib Net

/-! ### The opcode table (shade/Server/Protocol/Opcodes.cpp) -/

def NUM_MSG_TYPES : ℕ := 0x52D

inductive PacketState where
  | null
  | logon
  | node
  | both
  | pass
  deriving DecidableEq, Repr

structure OpcodeHandler where
  multipass : Bool
  fromNode : PacketState
  deriving DecidableEq, Repr

def singlepassOpcodes : List ℕ :=
  [0x3d, 0x4c, 0x4d, 0x64, 0x66, 0x69, 0x6a, 0x6b, 0x6c, 0x6d, 0x95, 0x97, 0x98, 0x9a, 0x9c, 0x9d,
    0x9e, 0x9f, 0xa0, 0xa1, 0xa2, 0xa3, 0xa4, 0xa5, 0xa6, 0xa7, 0x1d4, 0x236, 0x2e7, 0x3d2, 0x3d4,
    0x46b]

def fromNodeNull : List ℕ :=
  [0x0, 0x37, 0x4b, 0x4e, 0x56, 0x5c, 0x5e, 0x60, 0x64, 0x66, 0x67, 0x68, 0x69, 0x6a, 0x6b, 0x6c,
    0x6d, 0x82, 0x83, 0x84, 0x85, 0x86, 0x87, 0x88, 0x89, 0x8a, 0x8b, 0x8c, 0x8d, 0x8e, 0x8f, 0x90,
    0x91, 0x92, 0x93, 0x94, 0x95, 0x97, 0x98, 0x9a, 0x9c, 0x9d, 0x9e, 0x9f, 0xa0, 0xa1, 0xa2, 0xa3,
    0xa4, 0xa5, 0xa6, 0xa7, 0x20a, 0x20b, 0x2e6, 0x2e7, 0x2ef, 0x3a1, 0x3a2, 0x3d3, 0x3d4, 0x3d6,
    0x3d7, 0x3ef, 0x462, 0x467, 0x46b, 0x46c, 0x46e, 0x47d, 0x4f6, 0x4f7, 0x4ff, 0x51f, 0x520,
    0x521, 0x522]

def fromNodeLogon : List ℕ :=
  [0x4d, 0x54, 0x55, 0x1ec, 0x1ee, 0x231, 0x232, 0x233, 0x234, 0x235, 0x2fc, 0x3ff, 0x523, 0x524,
    0x525, 0x526, 0x527]

def fromNodeBoth : List ℕ := [0x4c, 0x58, 0x5f, 0x61, 0x1d4, 0x236]

/-- `opcodeTable`. It has `0x529` rows, all the others of which are `PACKET_STATE_PASS` from
the node; the rows up to `NUM_MSG_TYPES` are zero. -/
def opcodeTable (opcode : ℕ) : OpcodeHandler :=
  if opcode < 0x529 then
    { multipass := decide (opcode ∉ singlepassOpcodes)
      fromNode :=
        if opcode ∈ fromNodeNull then .null
        else if opcode ∈ fromNodeLogon then .logon
        else if opcode ∈ fromNodeBoth then .both
        else .pass }
  else { multipass := false, fromNode := .null }

/-! ### The queues and the threads -/

def sendsClient (p : WorldPacket) : Bool :=
  match (opcodeTable p.opcode).fromNode with
  | .pass | .both => true
  | _ => false

abbrev Sent := ℕ × WorldPacket

def Sent.multipass (p : Sent) : Bool := (opcodeTable p.2.opcode).multipass

/-- One node socket and the two threads that read it; `true` stands for the updater thread
and `_multiPacketQueue`, `false` for the world thread and `_singlePacketQueue`. `sent`
lists what the node sent, `relayed` what was handed to the client socket. -/
structure Relay where
  sent : List WorldPacket
  queue : Bool → List Sent
  hand : Bool → Option Sent
  relayed : List Sent
  closing : Bool

namespace Relay

def initial : Relay := ⟨[], fun _ => [], fun _ => none, [], false⟩

inductive Event where
  | processIncoming (p : WorldPacket)
  /-- `GetNextSinglePacket` or `GetNextMultiPacket` in the loop of a thread. -/
  | getNextPacket (multi : Bool)
  /-- The rest of one turn of the loop; `connected` says that the client socket is there. -/
  | handlePacket (multi : Bool) (connected : Bool)
  | close
  deriving DecidableEq

def processIncoming (s : Relay) (p : WorldPacket) : Relay :=
  let q : Sent := (s.sent.length, p)
  let s := { s with sent := s.sent ++ [p] }
  if (p.opcode : ℕ) < NUM_MSG_TYPES then
    { s with queue := Function.update s.queue q.multipass (s.queue q.multipass ++ [q]) }
  else s

def getNextPacket (s : Relay) (multi : Bool) : Option Relay :=
  match s.queue multi with
  | q :: rest =>
    guarded (s.closing = false ∧ s.hand multi = none)
      { s with
        queue := Function.update s.queue multi rest
        hand := Function.update s.hand multi (some q) }
  | [] => none

def handlePacket (s : Relay) (multi connected : Bool) : Option Relay :=
  match s.hand multi with
  | some q =>
    some { s with
      hand := Function.update s.hand multi none
      relayed := if sendsClient q.2 ∧ connected then s.relayed ++ [q] else s.relayed }
  | none => none

def step (s : Relay) : Event → Option Relay
  | .processIncoming p => guarded (s.closing = false) (s.processIncoming p)
  | .getNextPacket multi => s.getNextPacket multi
  | .handlePacket multi connected => s.handlePacket multi connected
  | .close => some { s with closing := true }

def Starts (s : Relay) : Prop := s = initial

theorem initial_starts : Starts initial := rfl

/-! ### One class of opcodes -/

def line (s : Relay) (multi : Bool) : List Sent :=
  s.relayed.filter (fun q => q.multipass == multi) ++ (s.hand multi).toList ++ s.queue multi

/-- Every packet on its way is one that the node sent, in the queue of its class. -/
structure RelayInv (s : Relay) : Prop where
  sent : ∀ multi, ∀ q ∈ s.line multi, s.sent[q.1]? = some q.2 ∧ q.multipass = multi
  ordered : ∀ multi, (s.line multi).Pairwise fun p q => p.1 < q.1
  relays : ∀ q ∈ s.relayed, sendsClient q.2 = true

theorem line_processIncoming (s : Relay) (p : WorldPacket) (multi : Bool) :
    (s.processIncoming p).line multi = s.line multi ∨
      ((s.processIncoming p).line multi = s.line multi ++ [(s.sent.length, p)] ∧
        Sent.multipass (s.sent.length, p) = multi) := by
  unfold processIncoming
  dsimp only
  split
  · by_cases hm : multi = Sent.multipass (s.sent.length, p)
    · right
      subst hm
      simp [line]
    · left
      simp [line, Function.update_of_ne hm]
  · exact .inl rfl

variable {s t : Relay}

theorem line_getNextPacket {m : Bool} (h : s.getNextPacket m = some t) (multi : Bool) :
    t.line multi = s.line multi := by
  unfold getNextPacket at h
  split at h
  · rename_i q rest hq
    obtain ⟨⟨-, hhand⟩, rfl⟩ := guarded_eq_some.mp h
    by_cases hm : multi = m
    · subst hm
      simp [line, hq, hhand]
    · simp [line, Function.update_of_ne hm]
  · exact absurd h (by simp)

theorem line_handlePacket {m connected : Bool} (hs : RelayInv s)
    (h : s.handlePacket m connected = some t) (multi : Bool) :
    List.Sublist (t.line multi) (s.line multi) := by
  unfold handlePacket at h
  split at h
  · rename_i q hq
    cases h
    have hclass : q.multipass = m := by
      refine (hs.sent m q ?_).2
      simp [line, hq]
    by_cases hm : multi = m
    · subst hm
      split
      · simp [line, hq, hclass]
      · simp [line, hq]
    · have hother : (q.multipass == multi) = false := by simpa [hclass] using Ne.symm hm
      split
      · simp [line, hother, Function.update_of_ne hm]
      · simp [line, Function.update_of_ne hm]
  · exact absurd h (by simp)

theorem relayed_handlePacket {m connected : Bool} (hs : ∀ q ∈ s.relayed, sendsClient q.2)
    (h : s.handlePacket m connected = some t) : t.sent = s.sent ∧ ∀ q ∈ t.relayed, sendsClient q.2 := by
  unfold handlePacket at h
  split at h
  · rename_i q hq
    cases h
    refine ⟨rfl, fun p hp => ?_⟩
    dsimp only at hp
    split at hp
    · rename_i hsend
      rcases List.mem_append.mp hp with hp | hp
      · exact hs p hp
      · rw [List.mem_singleton.mp hp]
        exact hsend.1
    · exact hs p hp
  · exact absurd h (by simp)

theorem RelayInv.processIncoming {s : Relay} (hs : RelayInv s) (p : WorldPacket) :
    RelayInv (s.processIncoming p) := by
  have hsent : (s.processIncoming p).sent = s.sent ++ [p] := by
    unfold Relay.processIncoming
    dsimp only
    split <;> rfl
  have hrelayed : (s.processIncoming p).relayed = s.relayed := by
    unfold Relay.processIncoming
    dsimp only
    split <;> rfl
  have hold : ∀ multi, ∀ q ∈ s.line multi, q.1 < s.sent.length := by
    intro multi q hq
    by_contra hge
    have hnone := List.getElem?_eq_none (Nat.le_of_not_lt hge)
    rw [(hs.sent multi q hq).1] at hnone
    exact absurd hnone (by simp)
  refine ⟨fun multi => ?_, fun multi => ?_, by rw [hrelayed]; exact hs.relays⟩
  · intro q hq
    rw [hsent]
    have hkeep : q ∈ s.line multi → (s.sent ++ [p])[q.1]? = some q.2 ∧ q.multipass = multi := by
      intro hq
      obtain ⟨hget, hclass⟩ := hs.sent multi q hq
      rw [List.getElem?_append_left (hold multi q hq)]
      exact ⟨hget, hclass⟩
    rcases line_processIncoming s p multi with hline | ⟨hline, hclass⟩
    · exact hkeep (hline ▸ hq)
    · rw [hline] at hq
      rcases List.mem_append.mp hq with hq | hq
      · exact hkeep hq
      · rw [List.mem_singleton.mp hq]
        exact ⟨by simp, hclass⟩
  · rcases line_processIncoming s p multi with hline | ⟨hline, -⟩
    · rw [hline]
      exact hs.ordered multi
    · rw [hline, List.pairwise_append]
      refine ⟨hs.ordered multi, List.pairwise_singleton .., fun q hq r hr => ?_⟩
      rw [List.mem_singleton.mp hr]
      exact hold multi q hq

theorem RelayInv.of_sublist (hs : RelayInv s) (hsent : t.sent = s.sent)
    (hline : ∀ multi, List.Sublist (t.line multi) (s.line multi))
    (hrelays : ∀ q ∈ t.relayed, sendsClient q.2 = true) : RelayInv t where
  sent := by
    intro multi q hq
    rw [hsent]
    exact hs.sent multi q ((hline multi).subset hq)
  ordered := fun multi => (hs.ordered multi).sublist (hline multi)
  relays := hrelays

theorem RelayInv.step {e : Event} (hs : RelayInv s) (h : s.step e = some t) : RelayInv t := by
  cases e with
  | processIncoming p =>
    obtain ⟨-, rfl⟩ := guarded_eq_some.mp h
    exact hs.processIncoming p
  | getNextPacket m =>
    have hframe : t.sent = s.sent ∧ t.relayed = s.relayed := by
      have h' : s.getNextPacket m = some t := h
      unfold Relay.getNextPacket at h'
      split at h'
      · obtain ⟨-, rfl⟩ := guarded_eq_some.mp h'
        exact ⟨rfl, rfl⟩
      · exact absurd h' (by simp)
    refine hs.of_sublist hframe.1 (fun multi => ?_) (by rw [hframe.2]; exact hs.relays)
    rw [line_getNextPacket h multi]
  | handlePacket m connected =>
    obtain ⟨hsent, hrelays⟩ := relayed_handlePacket hs.relays h
    exact hs.of_sublist hsent (line_handlePacket hs h) hrelays
  | close =>
    cases h
    exact hs.of_sublist rfl (fun _ => .refl _) hs.relays

theorem initial_relayInv : RelayInv initial where
  sent := fun _ q hq => absurd hq (by simp [line, initial])
  ordered := fun _ => by simp [line, initial]
  relays := fun q hq => absurd hq List.not_mem_nil

def InOrder (s : Relay) : Prop := s.relayed.Pairwise fun p q => p.1 < q.1

/-- What is relayed was sent by the node for the client, and no two packets with the same
`multipass` flag are exchanged. -/
def InOrderByClass (s : Relay) : Prop :=
  (∀ q ∈ s.relayed, s.sent[q.1]? = some q.2 ∧ sendsClient q.2 = true) ∧
    s.relayed.Pairwise fun p q => p.multipass = q.multipass → p.1 < q.1

theorem relayed_in_order_by_class {s : Relay} (h : Reaches step anyStep Starts s) :
    InOrderByClass s := by
  have hs : RelayInv s := by
    refine h.invariant ?_ fun _ _ _ hs _ ht => hs.step ht
    rintro s rfl
    exact initial_relayInv
  constructor
  · intro q hq
    have hmem : q ∈ s.line q.multipass := by simp [line, hq]
    exact ⟨(hs.sent _ q hmem).1, hs.relays q hq⟩
  · have hpair : ∀ multi, s.relayed.Pairwise fun p q =>
        (p.multipass == multi) = true → (q.multipass == multi) = true → p.1 < q.1 := by
      intro multi
      have hline := hs.ordered multi
      rw [line, List.append_assoc, List.pairwise_append] at hline
      exact List.pairwise_filter.mp hline.1
    refine ((hpair true).and (hpair false)).imp fun {p q} hpq hclass => ?_
    cases hp : p.multipass with
    | true => exact hpq.1 (by simp [hp]) (by simp [← hclass, hp])
    | false => exact hpq.2 (by simp [hp]) (by simp [← hclass, hp])

/-- `SMSG_LOGOUT_RESPONSE` and `SMSG_LOGOUT_CANCEL_ACK`: a player asks for the logout and
takes it back. -/
def logoutResponse : WorldPacket := ⟨⟨0x4c, by decide⟩, [0, 0, 0, 0, 0]⟩
def logoutCancelAck : WorldPacket := ⟨⟨0x4f, by decide⟩, []⟩

def logoutCancelled : List Event :=
  [.processIncoming logoutResponse, .processIncoming logoutCancelAck, .getNextPacket true,
    .handlePacket true true, .getNextPacket false, .handlePacket false true]

theorem relayed_in_order_by_class_logout :
    ∃ s, Reaches step anyStep Starts s ∧ s.relayed.length = 2 ∧ InOrderByClass s := by
  obtain ⟨s, hs, h⟩ := Reaches.exists_of_replay step anyStep initial_starts logoutCancelled
    (replayOk_anyStep ..) (fun s => decide (s.relayed.length = 2)) (by decide +kernel)
  exact ⟨s, hs, of_decide_eq_true h, relayed_in_order_by_class hs⟩

theorem relayed_out_of_order : ¬ ∀ s, Reaches step anyStep Starts s → InOrder s := by
  intro hall
  obtain ⟨s, hs, h⟩ := Reaches.exists_of_replay step anyStep initial_starts logoutCancelled
    (replayOk_anyStep ..)
    (fun s => decide (s.relayed = [(1, logoutCancelAck), (0, logoutResponse)])) (by decide +kernel)
  have horder : InOrder s := hall s hs
  rw [InOrder, of_decide_eq_true h] at horder
  exact absurd horder (by decide)

end Relay

end HysteriaCore.Client
