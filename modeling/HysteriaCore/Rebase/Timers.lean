import HysteriaCore.Cluster.NodeView

/-!
# When the proxy rebases (shade/Database/DatabaseRoutines.cpp, shade/Proxy/Proxy.cpp)

`UpdateTimers` orders the nodes to shut down when `m_NextRebaseTime` is over and calls
`Begin` when `m_NextRebaseTimePlus` is. One `recheck` is the block of `Logon::Update` that
runs it every 30 seconds, after `RefreshOnlineStat`, with the clock read once. `Begin` runs
in the proxy's world thread: until it has finished the proxy opens no link, handles no packet
and calls none of its timers, while the nodes go on.
-/

namespace HysteriaCore.Rebase
open Lib Cluster

/-! ### Halting (Logon) -/

structure Logon where
  haltTimer : ℕ
  haltEvent : Bool
  gameTime : ℤ
  deriving DecidableEq, Repr

def Logon.isHalting (l : Logon) : Bool := decide (0 < l.haltTimer)

def Logon.haltServ (l : Logon) (time : ℕ) : Logon :=
  if time = 0 then { l with haltEvent := true } else { l with haltTimer := time }

def Logon.updateGameTime (l : Logon) (now : ℤ) : Logon :=
  let elapsed := ((now - l.gameTime) % 2 ^ 32).toNat
  let l := { l with gameTime := now }
  if l.haltEvent = false ∧ 0 < l.haltTimer ∧ 0 < elapsed then
    if l.haltTimer ≤ elapsed then { l with haltTimer := 0, haltEvent := true }
    else { l with haltTimer := l.haltTimer - elapsed }
  else l

/-! ### The timers (RebaseClass) -/

def SEC_IN_DAY : ℤ := 86400

structure RebaseTimes where
  next : ℤ
  nextPlus : ℤ
  deriving DecidableEq, Repr

def initAutomaticRebase (wstime curtime : ℤ) : RebaseTimes :=
  if wstime < curtime then ⟨curtime, curtime + 180⟩ else ⟨wstime, wstime + 180⟩

/-- `CL_DEF_SHUTDOWN` sent by `UpdateTimers`, a call of `Begin`, and the `CL_DEF_SHUTDOWN`
with which `Begin` has the nodes restarted. -/
inductive Entry where
  | shutdown (now : ℤ)
  | begin (now : ℤ)
  deriving DecidableEq, Repr

structure Config where
  rebaseInterval : ℕ
  interval_pos : 1 ≤ rebaseInterval

/-- `log` lists the shutdown orders of `UpdateTimers` and the calls of `Begin`, newest first;
`restarts` counts the orders `Begin` itself gives at its end. `ended n` says that node `n` has
gone since the last order: its process has ended, or was not there. -/
structure State where
  cluster : Cluster.State
  column : ℕ → Bool
  logon : Logon
  times : RebaseTimes
  logonState : ℤ
  clock : ℤ
  rebasing : Bool
  log : List Entry
  restarts : ℕ
  ended : ℕ → Bool

/-- Node `n` is neither online nor open to players in the node list, has no link, and has
not been initialised. -/
def absent (s : Cluster.State) (n : ℕ) : Bool :=
  !s.proxy.nodelist.checkNodeID n && !s.proxy.nodelist.canEnterNodeID n && (s.link n).isNone &&
    !(s.node n).initialised

def State.returns (s : State) (now : ℤ) : Bool :=
  decide (s.times.next - 43200 < now) && s.logon.isHalting

def updateTimers (c : Config) (s : State) (now : ℤ) : State :=
  if s.returns now then s
  else
    let logon :=
      if s.times.next - 43200 < now then
        let temp := s.times.next - now
        if temp ≤ 1 then s.logon.haltServ 0 else s.logon.haltServ temp.toNat
      else s.logon
    let s := { s with logon := logon }
    let s :=
      if s.times.next < now then
        let next := s.times.next + SEC_IN_DAY * c.rebaseInterval
        { s with
          times := { s.times with next := next }
          logonState := next
          log := .shutdown now :: s.log
          ended := absent s.cluster }
      else s
    if s.times.nextPlus < now then
      { s with
        times := { s.times with nextPlus := s.times.next + 180 }
        rebasing := true
        log := .begin now :: s.log }
    else s

def State.refreshOnlineStat (s : State) : State :=
  { s with
    cluster := s.cluster.setNodelist (s.cluster.proxy.nodelist.refreshOnlineStat s.column) }

/-- The end of `Begin`. `none` is the return when there is no item; otherwise the numbers are
the maxima that `SetHighestGuids` reads. -/
def finishBegin (s : State) : Option (ℕ × ℕ × ℕ) → State
  | none => { s with rebasing := false }
  | some (item, mail, corpse) =>
    { s with
      cluster := { s.cluster with
        proxy := ⟨s.cluster.proxy.nodelist.resetLastGUID, item, mail, corpse⟩ }
      logon := { s.logon with haltEvent := false }
      rebasing := false
      restarts := s.restarts + 1 }

inductive Event where
  | cluster (e : Cluster.Event)
  | setColumn (n : ℕ) (online : Bool)
  | updateGameTime (now : ℤ)
  | recheck (now : ℤ)
  | finishBegin (highest : Option (ℕ × ℕ × ℕ))
  deriving DecidableEq

/-- The world thread opens links, to nodes that are online, and handles packets; it does
neither while `Begin` runs. -/
def State.enabled (s : State) : Cluster.Event → Bool
  | .connect n => !s.rebasing && s.cluster.proxy.nodelist.checkNodeID n
  | .proxyReceive _ => !s.rebasing
  | _ => true

def markEnded (ended : ℕ → Bool) : Cluster.Event → ℕ → Bool
  | .restart n _ => Function.update ended n true
  | _ => ended

def step (c : Config) (s : State) : Event → Option State
  | .cluster e =>
    if s.enabled e then
      (Cluster.step s.cluster e).map fun cluster =>
        { s with cluster := cluster, ended := markEnded s.ended e }
    else none
  | .setColumn n online => some { s with column := Function.update s.column n online }
  | .updateGameTime now =>
    if s.rebasing = true ∨ now < s.clock then none
    else some { s with logon := s.logon.updateGameTime now, clock := now }
  | .recheck now =>
    if s.rebasing = true ∨ now < s.clock then none
    else some { updateTimers c s.refreshOnlineStat now with clock := now }
  | .finishBegin highest => if s.rebasing then some (finishBegin s highest) else none

/-- The proxy has started: no link is up, and the timers are set from the stored state. The
nodes may be running from before. -/
structure Starts (s : State) : Prop where
  down : ∀ n, s.cluster.link n = none
  times : s.times = initAutomaticRebase s.logonState s.clock
  halt : s.logon = ⟨0, false, s.clock⟩
  rebasing : s.rebasing = false
  log : s.log = []

end HysteriaCore.Rebase
