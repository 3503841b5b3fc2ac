import HysteriaCore.Lib.Runs
import HysteriaCore.Lib.Words

/-!
# A client session under its two threads (shade/Server/Client/ClientSession.cpp)

`UpdateSingle` runs in the world thread and `UpdateMulti` in an updater thread. They share
the atomic flag word, the node id, the reconnect timer and the pointer to the node socket,
and no lock. Every statement that reads or writes one of these is a step of its own.
-/

namespace HysteriaCore.Client
open Lib

/-! ### The flag word -/

/-- `SessionFlags`. `FLAG_LOGOUT` and `FLAG_INFORMED_SERVER_DOWN` are never used. -/
inductive SessionFlag where
  | accountReconnect
  | accountWaitForOk
  | logoutRequest
  | transferPending
  | forceTeleport
  | accountKicked
  deriving DecidableEq, Repr

namespace SessionFlag

def bit : SessionFlag → ℕ
  | accountReconnect => 0
  | accountWaitForOk => 1
  | logoutRequest => 2
  | transferPending => 4
  | forceTeleport => 6
  | accountKicked => 8

def mask (f : SessionFlag) : BitVec 32 := BitVec.twoPow 32 f.bit

theorem bit_lt (f : SessionFlag) : f.bit < 32 := by cases f <;> decide

theorem bit_inj {f g : SessionFlag} (h : f.bit = g.bit) : f = g := by
  cases f <;> cases g <;> first | rfl | simp [bit] at h

end SessionFlag

abbrev FlagWord := BitVec 32

namespace FlagWord

def hasFlag (w : FlagWord) (f : SessionFlag) : Bool := decide (w &&& f.mask ≠ 0)

def setFlag (w : FlagWord) (f : SessionFlag) : FlagWord := w ||| f.mask

def removeFlag (w : FlagWord) (f : SessionFlag) : FlagWord := w &&& ~~~f.mask

theorem hasFlag_eq (w : FlagWord) (f : SessionFlag) : hasFlag w f = w.getLsbD f.bit := by
  have hmask : BitVec.twoPow 32 f.bit ≠ 0#32 := by cases f <;> decide
  rw [hasFlag, SessionFlag.mask, BitVec.and_twoPow]
  cases h : w.getLsbD f.bit with
  | true => simpa using hmask
  | false => simp

@[simp] theorem hasFlag_zero (f : SessionFlag) : hasFlag 0#32 f = false := by
  rw [hasFlag_eq]
  exact BitVec.getLsbD_zero

@[simp] theorem hasFlag_setFlag (w : FlagWord) (f g : SessionFlag) :
    hasFlag (setFlag w f) g = (hasFlag w g || decide (f = g)) := by
  have hbit := g.bit_lt
  have heq : decide (f.bit = g.bit) = decide (f = g) :=
    decide_eq_decide.mpr ⟨SessionFlag.bit_inj, congrArg SessionFlag.bit⟩
  simp only [hasFlag_eq, setFlag, SessionFlag.mask, BitVec.getLsbD_or, BitVec.getLsbD_twoPow,
    f.bit_lt, decide_true, Bool.true_and, heq]

@[simp] theorem hasFlag_removeFlag (w : FlagWord) (f g : SessionFlag) :
    hasFlag (removeFlag w f) g = (hasFlag w g && !decide (f = g)) := by
  have hbit := g.bit_lt
  have heq : decide (f.bit = g.bit) = decide (f = g) :=
    decide_eq_decide.mpr ⟨SessionFlag.bit_inj, congrArg SessionFlag.bit⟩
  simp only [hasFlag_eq, removeFlag, SessionFlag.mask, BitVec.getLsbD_and, BitVec.getLsbD_not,
    BitVec.getLsbD_twoPow, f.bit_lt, hbit, decide_true, Bool.true_and, heq]

end FlagWord

/-! ### The session -/

/-- Where the world thread stands: outside `UpdateSingle`, in the loop over the node's
packets, before a statement of `Handle_SMSG_LOGOUT_COMPLETE`, or in the loop over the
client's packets. -/
inductive WorldPc where
  | idle
  | nodePackets
  | playerLogout
  | compareMaster
  | closeSubSocket
  | clearFlags
  | clearNode
  | toMaster
  | armTimer
  | requestReconnect
  | clientPackets
  deriving DecidableEq, Repr

/-- Where the updater thread stands in `UpdateMulti`; `transfer…` are the statements of
`Handle_NODE_MISC_DATA`, `store` holds the socket that was just connected. -/
inductive MultiPc where
  | idle
  | callbacks (diff : ℕ)
  | testTimer (diff : ℕ)
  | subTimer (diff : ℕ)
  | attempt
  | store (sock : ℕ)
  | clearReconnect
  | setWaitForOk
  | rearm
  | nodePackets
  | transferClose
  | transferArm
  | transferRequest
  | release
  | lost
  | clientPackets
  deriving DecidableEq, Repr

/-- What the two threads share. Node sockets are numbered in the order in which they are
connected; `taken` and `released` count the calls of `add_reference` and
`remove_reference` on each. `kickCalled` and `stale` watch the run: `KickPlayer` was called,
and the present node socket was already held when `Handle_SMSG_LOGOUT_COMPLETE` last asked
for a reconnect. -/
structure Link where
  flags : FlagWord
  nodeId : ℕ
  reconnectTimer : ℕ
  nodeSocket : Option ℕ
  opened : ℕ
  closing : ℕ → Bool
  taken : ℕ → ℕ
  released : ℕ → ℕ
  clientSocket : Bool
  clientClosing : Bool
  player : Bool
  world : WorldPc
  multi : MultiPc
  worldReturned : Option Bool
  multiReturned : Option Bool
  destroyed : Bool
  kickCalled : Bool
  stale : Bool

namespace Link

def masterTimer (nodeId : ℕ) : ℕ := if nodeId = 0 then 2000000 else 100000

/-- The session as its constructor leaves it; `master` is the answer of `ConnectToMaster`. -/
def initial (master : ℕ) : Link where
  flags := FlagWord.setFlag 0 .accountReconnect
  nodeId := master
  reconnectTimer := masterTimer master
  nodeSocket := none
  opened := 0
  closing := fun _ => false
  taken := fun _ => 0
  released := fun _ => 0
  clientSocket := true
  clientClosing := false
  player := false
  world := .idle
  multi := .idle
  worldReturned := none
  multiReturned := none
  destroyed := false
  kickCalled := false
  stale := false

def hasFlag (s : Link) (f : SessionFlag) : Bool := s.flags.hasFlag f
def setFlag (s : Link) (f : SessionFlag) : Link := { s with flags := s.flags.setFlag f }
def removeFlag (s : Link) (f : SessionFlag) : Link := { s with flags := s.flags.removeFlag f }

/-- `_NodeSocket` is there and not closing: `GetNextSinglePacket` and `GetNextMultiPacket`
may give a packet. -/
def readable (s : Link) : Bool :=
  match s.nodeSocket with
  | some k => !s.closing k
  | none => false

def closeSubSocket (s : Link) : Link :=
  { s with
    closing := match s.nodeSocket with
      | some k => Function.update s.closing k true
      | none => s.closing }

/-- `_NodeSocket->remove_reference()` where there is one, and the pointer is cleared. -/
def dropNodeSocket (s : Link) : Link :=
  { s with
    released := match s.nodeSocket with
      | some k => Function.update s.released k (s.released k + 1)
      | none => s.released
    nodeSocket := none
    stale := false }

end Link

/-! ### The steps -/

inductive LinkEvent where
  | updateSingle
  | logoutResponse (reason : ℕ)
  /-- `SMSG_LOGOUT_COMPLETE` from the node, and its test of `FLAG_LOGOUT_REQUEST`. -/
  | logoutComplete
  | playerLogout
  | compareMaster (master : ℕ)
  | closeSubSocket
  | clearFlags
  | clearNode
  | toMaster (master : ℕ)
  | armTimer
  | requestReconnect
  | endNodePackets
  /-- `CMSG_PLAYER_LOGIN` from the client: `SetPlayer(NULL)`. -/
  | playerLoginOpcode
  | endSingle
  | updateMulti (diff : ℕ)
  /-- `HandlePlayerLogin` in `ProcessQueryCallbacks`. -/
  | playerLogin (diff : ℕ)
  | testReconnect (diff : ℕ)
  | testTimer (diff : ℕ)
  | subTimer (diff : ℕ)
  /-- The reconnect attempt. `canEnter` and `connects` are the answers of `CanEnterNodeID`
  and `OpenNodeConnection`. -/
  | attempt (master : ℕ) (canEnter connects : Bool)
  | store (sock : ℕ)
  | clearReconnect
  | setWaitForOk
  | rearm
  | authResponse (ok : Bool)
  | authChallenge
  /-- `NODE_MISC_DATA` with `CL_DEF_TRANSFER_TO_NODE`; `online` answers `CheckNodeID`. -/
  | transfer (node : ℕ) (online : Bool)
  | transferClose
  | transferArm
  | transferRequest
  | endMultiNodePackets
  | release
  | lost
  | logoutRequest
  | logoutCancel
  | endMulti
  /-- The two statements of `KickPlayer`, in any thread. -/
  | kick
  | kickRemove
  /-- A node socket closes: the peer, an error, a packet that cannot be sent. -/
  | closeNode (sock : ℕ)
  | closeClient
  | destroy
  deriving DecidableEq, Repr

namespace Link

def atWorld (s : Link) (pc : WorldPc) : Prop := s.destroyed = false ∧ s.world = pc

def atMulti (s : Link) (pc : MultiPc) : Prop := s.destroyed = false ∧ s.multi = pc

instance (s : Link) (pc : WorldPc) : Decidable (s.atWorld pc) := inferInstanceAs (Decidable (_ ∧ _))
instance (s : Link) (pc : MultiPc) : Decidable (s.atMulti pc) := inferInstanceAs (Decidable (_ ∧ _))

def attempt (s : Link) (master : ℕ) (canEnter connects : Bool) : Link :=
  if s.nodeId = 0 then { s with nodeId := master, multi := .rearm }
  else if canEnter ∧ connects then
    { s with
      multi := .store s.opened
      opened := s.opened + 1
      taken := Function.update s.taken s.opened (s.taken s.opened + 1) }
  else { s with multi := .rearm }

def step (s : Link) : LinkEvent → Option Link
  | .updateSingle =>
    guarded (s.atWorld .idle)
      (if s.hasFlag .accountKicked then { s with worldReturned := some false }
      else { s with world := .nodePackets })
  | .logoutResponse reason =>
    guarded (s.atWorld .nodePackets ∧ s.readable) (if reason ≠ 0 then s.removeFlag .logoutRequest else s)
  | .logoutComplete =>
    guarded (s.atWorld .nodePackets ∧ s.readable)
      (if s.hasFlag .logoutRequest then { s with world := .playerLogout } else s)
  | .playerLogout =>
    guarded (s.atWorld .playerLogout) { s with player := false, world := .compareMaster }
  | .compareMaster master =>
    guarded (s.atWorld .compareMaster)
      { s with world := if s.nodeId ≠ master then .closeSubSocket else .nodePackets }
  | .closeSubSocket =>
    guarded (s.atWorld .closeSubSocket) { s.closeSubSocket with world := .clearFlags }
  | .clearFlags => guarded (s.atWorld .clearFlags) { s with flags := 0, world := .clearNode }
  | .clearNode => guarded (s.atWorld .clearNode) { s with nodeId := 0, world := .toMaster }
  | .toMaster master => guarded (s.atWorld .toMaster) { s with nodeId := master, world := .armTimer }
  | .armTimer =>
    guarded (s.atWorld .armTimer)
      { s with reconnectTimer := masterTimer s.nodeId, world := .requestReconnect }
  | .requestReconnect =>
    guarded (s.atWorld .requestReconnect)
      { s.setFlag .accountReconnect with world := .nodePackets, stale := s.nodeSocket.isSome }
  | .endNodePackets =>
    guarded (s.atWorld .nodePackets)
      (if !s.clientSocket || s.clientClosing then
        { s with world := .idle, worldReturned := some false }
      else { s with world := .clientPackets })
  | .playerLoginOpcode => guarded (s.atWorld .clientPackets) { s with player := false }
  | .endSingle =>
    guarded (s.atWorld .clientPackets) { s with world := .idle, worldReturned := some true }
  | .updateMulti diff =>
    guarded (s.atMulti .idle)
      (if s.hasFlag .accountKicked then { s with multiReturned := some false }
      else { s with multi := .callbacks diff })
  | .playerLogin diff => guarded (s.atMulti (.callbacks diff)) { s with player := true }
  | .testReconnect diff =>
    guarded (s.atMulti (.callbacks diff))
      { s with multi := if s.hasFlag .accountReconnect then .testTimer diff else .nodePackets }
  | .testTimer diff =>
    guarded (s.atMulti (.testTimer diff))
      { s with multi := if diff < s.reconnectTimer then .subTimer diff else .attempt }
  | .subTimer diff =>
    guarded (s.atMulti (.subTimer diff))
      { s with reconnectTimer := u32 (s.reconnectTimer + 2^32 - diff), multi := .nodePackets }
  | .attempt master canEnter connects =>
    guarded (s.atMulti .attempt) (s.attempt master canEnter connects)
  | .store k =>
    guarded (s.atMulti (.store k))
      { s with nodeSocket := some k, multi := .clearReconnect, stale := false }
  | .clearReconnect =>
    guarded (s.atMulti .clearReconnect)
      { s.removeFlag .accountReconnect with multi := .setWaitForOk }
  | .setWaitForOk =>
    guarded (s.atMulti .setWaitForOk) { s.setFlag .accountWaitForOk with multi := .rearm }
  | .rearm => guarded (s.atMulti .rearm) { s with reconnectTimer := 5000000, multi := .nodePackets }
  | .authResponse ok =>
    guarded (s.atMulti .nodePackets ∧ s.readable)
      (if ok then (s.removeFlag .accountWaitForOk).removeFlag .transferPending else s)
  | .authChallenge => guarded (s.atMulti .nodePackets ∧ s.readable) (s.removeFlag .forceTeleport)
  | .transfer node online =>
    guarded (s.atMulti .nodePackets ∧ s.readable)
      (if s.nodeId ≠ node ∧ online then { s with nodeId := node, multi := .transferClose } else s)
  | .transferClose =>
    guarded (s.atMulti .transferClose) { s.closeSubSocket with multi := .transferArm }
  | .transferArm =>
    guarded (s.atMulti .transferArm) { s with reconnectTimer := 500, multi := .transferRequest }
  | .transferRequest =>
    guarded (s.atMulti .transferRequest) { s.setFlag .accountReconnect with multi := .nodePackets }
  | .endMultiNodePackets => guarded (s.atMulti .nodePackets) { s with multi := .release }
  | .release =>
    guarded (s.atMulti .release)
      (if s.nodeSocket.any s.closing then { s.dropNodeSocket with multi := .lost }
      else { s with multi := .clientPackets })
  | .lost =>
    guarded (s.atMulti .lost)
      { (if s.player then s.setFlag .forceTeleport else s).setFlag .accountReconnect with
        multi := .clientPackets }
  | .logoutRequest => guarded (s.atMulti .clientPackets ∧ s.player) (s.setFlag .logoutRequest)
  | .logoutCancel => guarded (s.atMulti .clientPackets ∧ s.player) (s.removeFlag .logoutRequest)
  | .endMulti =>
    guarded (s.atMulti .clientPackets)
      (if s.clientSocket ∧ s.clientClosing then
        { s with clientSocket := false, multi := .idle, multiReturned := some false }
      else { s with multi := .idle, multiReturned := some s.clientSocket })
  | .kick => guarded (s.destroyed = false) { s.setFlag .accountKicked with kickCalled := true }
  | .kickRemove =>
    guarded (s.destroyed = false ∧ s.kickCalled) (s.removeFlag .accountReconnect)
  | .closeNode k =>
    guarded (s.destroyed = false) { s with closing := Function.update s.closing k true }
  | .closeClient => guarded (s.destroyed = false) { s with clientClosing := true }
  | .destroy =>
    guarded (s.atWorld .idle ∧ s.atMulti .idle)
      { s.closeSubSocket.dropNodeSocket.removeFlag .accountReconnect with destroyed := true }

def Starts (s : Link) : Prop := ∃ master, s = initial master

theorem initial_starts (master : ℕ) : Starts (initial master) := ⟨master, rfl⟩

def connectEvents (diff sock : ℕ) : List LinkEvent :=
  [.updateMulti diff, .testReconnect diff, .testTimer diff, .attempt 1 true true, .store sock,
    .clearReconnect, .setWaitForOk, .rearm, .authResponse true, .endMultiNodePackets, .release]

/-- The session connects to the master, a player logs in, is transferred to node 2 and asks
for a logout. -/
def logoutOnNode2 : List LinkEvent :=
  connectEvents 100000 0 ++
    [.endMulti, .updateMulti 5000, .playerLogin 5000, .testReconnect 5000, .transfer 2 true,
      .transferClose, .transferArm, .transferRequest, .endMultiNodePackets, .release, .lost, .endMulti] ++
    connectEvents 5000 1 ++ [.logoutRequest, .endMulti]

end Link

end HysteriaCore.Client
