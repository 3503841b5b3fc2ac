import HysteriaCore.Lib.KeyedList
import HysteriaCore.Lib.Runs
import HysteriaCore.Lib.Words

/-!
# Client sessions of the proxy (shade/Server/Client/ClientSessionMgr.cpp, SessionUpdater.cpp)

The tables of `ClientSessionMgr`, the updater threads, and the reference count of every
session. `_inQueue` and the population printed to the log are left out: nothing reads
them.
-/

namespace HysteriaCore.Client
open Lib

def SEC_PLAYER : ℕ := 0

structure ClientSession where
  ptr : ℕ
  accountId : Fin (2^32)
  security : ℕ
  deriving DecidableEq, Repr

structure SessionUpdater where
  counter : ℤ
  newSessions : List ClientSession
  sessions : List ClientSession
  sleep : Bool
  deriving DecidableEq, Repr

def SessionUpdater.holds (u : SessionUpdater) (s : ClientSession) : Bool :=
  decide (s ∈ u.newSessions ++ u.sessions)

/-- `ClientSessionMgr`. `told` collects the queue positions sent to clients, newest last. -/
structure SessionMgr where
  addSessQueue : List ClientSession
  sessions : KeyedList ClientSession.accountId
  queuedPlayer : List ClientSession
  told : List (ClientSession × ℕ)
  maxActiveSessionCount : ℕ
  maxQueuedSessionCount : ℕ
  updater : ℕ → SessionUpdater
  dynTimer : ℕ

structure Config where
  playerLimit : ℕ
  sessionThreads : ℕ
  dynEnabled : Bool
  dynMax : ℕ
  dynTimer : ℕ
  threads_pos : 1 ≤ sessionThreads

namespace SessionMgr

def getActiveAndQueuedSessionCount (m : SessionMgr) : ℕ := u32 m.sessions.size

/-- `_sessions.size() - _QueuedPlayer.size()` in `size_t`, cut down to `uint32`. -/
def getActiveSessionCount (m : SessionMgr) : ℕ :=
  u32 (m.sessions.size + 2^64 - m.queuedPlayer.length)

def getQueuedSessionCount (m : SessionMgr) : ℕ := u32 m.queuedPlayer.length

def updateMaxSessionCounters (m : SessionMgr) : SessionMgr :=
  { m with
    maxActiveSessionCount := max m.maxActiveSessionCount m.getActiveSessionCount
    maxQueuedSessionCount := max m.maxQueuedSessionCount m.getQueuedSessionCount }

def getQueuePos (m : SessionMgr) (s : ClientSession) : ℕ :=
  if s ∈ m.queuedPlayer then m.queuedPlayer.idxOf s + 1 else 0

def addQueuedPlayer (m : SessionMgr) (s : ClientSession) : SessionMgr :=
  let m := { m with queuedPlayer := m.queuedPlayer ++ [s] }
  { m with told := m.told ++ [(s, m.getQueuePos s)] }

/-- `SendAuthWaitQue(position)` to the given sessions, one place after the other. -/
def tellFrom (position : ℕ) : List ClientSession → List (ClientSession × ℕ)
  | [] => []
  | s :: rest => (s, position) :: tellFrom (position + 1) rest

/-- `RemoveQueuedPlayer`. The loop leaves `iter` behind the removed entry, or at the end. -/
def removeQueuedPlayer (limit : ℕ) (m : SessionMgr) (s : ClientSession) : Bool × SessionMgr :=
  let found := decide (s ∈ m.queuedPlayer)
  let position := m.queuedPlayer.idxOf s
  let queue := m.queuedPlayer.erase s
  let sessions := m.getActiveSessionCount
  let sessions := if found = false ∧ sessions ≠ 0 then sessions - 1 else sessions
  match queue with
  | head :: rest =>
    if limit = 0 ∨ sessions < limit then
      (found, { m with queuedPlayer := rest, told := m.told ++ (head, 0) :: tellFrom 1 rest })
    else
      let told := m.told ++ tellFrom (position + 1) (queue.drop position)
      (found, { m with queuedPlayer := queue, told })
  | [] => (found, { m with queuedPlayer := [] })

def updaterAdd (m : SessionMgr) (i : ℕ) (s : ClientSession) : SessionMgr :=
  let u := m.updater i
  let u := { u with counter := u.counter + 1, newSessions := u.newSessions ++ [s] }
  { m with updater := Function.update m.updater i u }

def leastUpdater (c : Config) (m : SessionMgr) : ℕ :=
  (List.range c.sessionThreads).foldl
    (fun least i => if (m.updater i).counter < (m.updater least).counter then i else least) 0

def chooseUpdater (c : Config) (m : SessionMgr) : ℕ :=
  if c.dynEnabled then
    if (c.dynMax : ℤ) ≤ (m.updater 0).counter then m.leastUpdater c else 0
  else m.leastUpdater c

/-- `RemoveQueuedPlayer(old->second)` for the session stored under the account, if any, and
whether the new session is to be left out of the count. -/
def removeOld (c : Config) (m : SessionMgr) (s : ClientSession) : Bool × SessionMgr :=
  match m.sessions.find? s.accountId with
  | some old =>
    let (removed, m) := m.removeQueuedPlayer c.playerLimit old
    (!removed, m)
  | none => (true, m)

/-- `_sessions[s->GetAccountId()] = s` and `_sessionupdater[min].AddSession(s)`. -/
def store (c : Config) (m : SessionMgr) (s : ClientSession) : SessionMgr :=
  let m := { m with sessions := m.sessions.put s }
  m.updaterAdd (m.chooseUpdater c) s

def addSession_ (c : Config) (m : SessionMgr) (s : ClientSession) : SessionMgr :=
  let (decreaseSession, m) := m.removeOld c s
  let m := m.store c s
  let sessions := m.getActiveAndQueuedSessionCount
  let sessions := if decreaseSession then u32 (sessions + (2^32 - 1)) else sessions
  if 0 < c.playerLimit ∧ c.playerLimit ≤ sessions ∧ s.security = SEC_PLAYER then
    (m.addQueuedPlayer s).updateMaxSessionCounters
  else m.updateMaxSessionCounters

end SessionMgr

/-! ### The threads -/

/-- Where the world thread stands in `ClientSessionMgr::Update`: in no call, in the loop over
`_addSessQueue`, in the loop over `_sessions`, or in the loop of `UpdateDynamics`, with the
sessions that the loop has still to visit. -/
inductive Phase where
  | idle
  | draining
  | updating (rest : List ClientSession)
  | spreading (rest : List ClientSession)
  deriving DecidableEq

/-- All threads. `created` lists every session ever constructed, `constructed` and `added`
those whose socket has not yet called `AddSession`, and not yet released its reference. -/
structure State where
  mgr : SessionMgr
  phase : Phase
  created : List ClientSession
  constructed : List ClientSession
  added : List ClientSession
  refs : ClientSession → ℤ
  deleted : ClientSession → Bool

def State.addReference (t : State) (s : ClientSession) : State :=
  { t with refs := Function.update t.refs s (t.refs s + 1) }

/-- `remove_reference`; the object deletes itself when its count becomes 0. -/
def State.removeReference (t : State) (s : ClientSession) : State :=
  { t with
    refs := Function.update t.refs s (t.refs s - 1)
    deleted := if t.refs s - 1 = 0 then Function.update t.deleted s true else t.deleted }

def State.setUpdater (t : State) (i : ℕ) (u : SessionUpdater) : State :=
  { t with mgr := { t.mgr with updater := Function.update t.mgr.updater i u } }

inductive Event where
  /-- `ClientSocket::_handleAuthSession` constructs a session. -/
  | login (accountId : Fin (2^32)) (security : ℕ)
  /-- `ClientSessionMgr::AddSession`, called by the socket. -/
  | addSession (s : ClientSession)
  | release (s : ClientSession)
  | update
  /-- `_addSessQueue.next(sess)` and `AddSession_(sess)`. -/
  | addNext
  | addDone
  /-- One turn of the loop over `_sessions`; `alive` is the result of `UpdateSingle`. -/
  | updateSingle (s : ClientSession) (alive : Bool)
  /-- The end of that loop, and `UpdateDynamics` up to its own loop. -/
  | updateDynamics (diff : ℕ)
  | spread (s : ClientSession)
  | spreadDone
  | setSleep (i : ℕ)
  /-- One turn of `SessionUpdater::AddNewSessions`. -/
  | addNewSession (i : ℕ)
  /-- One turn of the loop of `svc`; `alive` is the result of `UpdateMulti`. -/
  | updateMulti (i : ℕ) (s : ClientSession) (alive : Bool)
  deriving DecidableEq

/-- `AddSession_` is handed the oldest entry; its updater takes a reference, and the one of
the queue passes to the map. -/
def addNext (c : Config) (t : State) : Option State :=
  match t.phase, t.mgr.addSessQueue with
  | .draining, s :: queue =>
    let t := t.addReference s
    some { t with mgr := { t.mgr with addSessQueue := queue }.addSession_ c s }
  | _, _ => none

def updateSingle (t : State) (s : ClientSession) (alive : Bool) : Option State :=
  match t.phase with
  | .updating rest =>
    if s ∈ rest then
      let t := { t with phase := .updating (rest.erase s) }
      if alive then some t
      else some { t.removeReference s with
        mgr := { t.mgr with sessions := t.mgr.sessions.erase s.accountId } }
    else none
  | _ => none

def spreadNeeded (c : Config) (m : SessionMgr) (diff : ℕ) : Bool × SessionMgr :=
  if c.sessionThreads = 1 then (false, m)
  else if diff ≤ m.dynTimer then (false, { m with dynTimer := m.dynTimer - diff })
  else
    let m := { m with dynTimer := c.dynTimer }
    if c.dynMax ≤ m.sessions.size then (false, m)
    else if (List.range c.sessionThreads).any fun i => i ≠ 0 ∧ (m.updater i).counter = 0 then (false, m)
    else (true, m)

def updateDynamics (c : Config) (t : State) (diff : ℕ) : Option State :=
  match t.phase with
  | .updating [] =>
    if c.dynEnabled = false then some { t with phase := .idle }
    else
      let (needed, m) := spreadNeeded c t.mgr diff
      if needed then
        let updater := fun i => { m.updater i with sleep := true }
        some { t with mgr := { m with updater }, phase := .spreading m.sessions.rows }
      else some { t with mgr := m, phase := .idle }
  | _ => none

def spread (t : State) (s : ClientSession) : Option State :=
  match t.phase with
  | .spreading rest =>
    if s ∈ rest then
      let t := t.addReference s
      some { t with mgr := t.mgr.updaterAdd 0 s, phase := .spreading (rest.erase s) }
    else none
  | _ => none

/-- `SetSleep` runs when `_sleep` is set, and does nothing more while sessions wait in the
queue. -/
def setSleep (t : State) (i : ℕ) : Option State :=
  let u := t.mgr.updater i
  if u.sleep then
    if u.newSessions ≠ [] then some (t.setUpdater i { u with sleep := false })
    else some (t.setUpdater i ⟨0, [], [], false⟩)
  else none

/-- `m_Sessions` is a `std::set`: inserting a session it holds changes nothing. -/
def addNewSession (t : State) (i : ℕ) : Option State :=
  let u := t.mgr.updater i
  match u.newSessions with
  | s :: queue => some (t.setUpdater i { u with newSessions := queue, sessions := u.sessions.insert s })
  | [] => none

def updateMulti (t : State) (i : ℕ) (s : ClientSession) (alive : Bool) : Option State :=
  let u := t.mgr.updater i
  if s ∈ u.sessions then
    if alive then some t
    else some ((t.removeReference s).setUpdater i
      { u with counter := u.counter - 1, sessions := u.sessions.erase s })
  else none

def step (c : Config) (t : State) : Event → Option State
  | .login accountId security =>
    let s : ClientSession := ⟨t.created.length, accountId, security⟩
    some { t with
      created := s :: t.created, constructed := s :: t.constructed
      refs := Function.update t.refs s 1 }
  | .addSession s =>
    if s ∈ t.constructed then
      let t := t.addReference s
      some { t with
        constructed := t.constructed.erase s, added := s :: t.added
        mgr := { t.mgr with addSessQueue := t.mgr.addSessQueue ++ [s] } }
    else none
  | .release s =>
    if s ∈ t.added then some { t.removeReference s with added := t.added.erase s } else none
  | .update => if t.phase = .idle then some { t with phase := .draining } else none
  | .addNext => addNext c t
  | .addDone =>
    if t.phase = .draining ∧ t.mgr.addSessQueue = []
    then some { t with phase := .updating t.mgr.sessions.rows } else none
  | .updateSingle s alive => updateSingle t s alive
  | .updateDynamics diff => updateDynamics c t diff
  | .spread s => spread t s
  | .spreadDone =>
    if t.phase = .spreading [] then some { t with phase := .idle } else none
  | .setSleep i => if i < c.sessionThreads then setSleep t i else none
  | .addNewSession i => if i < c.sessionThreads then addNewSession t i else none
  | .updateMulti i s alive => if i < c.sessionThreads then updateMulti t i s alive else none

def initial (c : Config) : State where
  mgr := ⟨[], .empty, [], [], 0, 0, fun _ => ⟨0, [], [], false⟩, c.dynTimer⟩
  phase := .idle
  created := []
  constructed := []
  added := []
  refs := fun _ => 0
  deleted := fun _ => false

def Starts (c : Config) (t : State) : Prop := t = initial c

theorem initial_starts (c : Config) : Starts c (initial c) := rfl

end HysteriaCore.Client
