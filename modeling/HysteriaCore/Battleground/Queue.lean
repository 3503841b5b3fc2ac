import HysteriaCore.Lib.Runs
import Mathlib.Data.Finset.Max
import Mathlib.Data.Fintype.BigOperators
import Mathlib.Data.List.ReduceOption

/-!
# The battleground queue

Groups wait in `m_QueuedGroups`, one list for each bracket and group type, and
`m_QueuedPlayers` points from a player to his group. A `GroupQueueInfo*` is an
address; `info` holds the objects that are alive.
-/

namespace HysteriaCore.Battleground
open Lib

inductive TeamId where
  | alliance
  | horde
  | neutral
  deriving DecidableEq, Repr

inductive GroupType where
  | premadeAlliance
  | premadeHorde
  | normalAlliance
  | normalHorde
  deriving DecidableEq, Repr

instance : Fintype GroupType :=
  ⟨{.premadeAlliance, .premadeHorde, .normalAlliance, .normalHorde}, fun t => by cases t <;> decide⟩

def GroupType.premade : TeamId → GroupType
  | .horde => .premadeHorde
  | _ => .premadeAlliance

def GroupType.normal : TeamId → GroupType
  | .horde => .normalHorde
  | _ => .normalAlliance

abbrev BracketId := Fin 16

structure GroupQueueInfo where
  players : Finset ℕ
  teamId : TeamId
  isRated : Bool
  joinTime : ℕ
  isInvitedToBGInstanceGUID : ℕ
  bracketId : BracketId
  groupType : GroupType
  deriving DecidableEq

structure SelectionPool where
  selectedGroups : List ℕ
  playerCount : ℕ

def SelectionPool.init : SelectionPool := ⟨[], 0⟩

def SelectionPool.addGroup (pool : SelectionPool) (g : ℕ) (ginfo : GroupQueueInfo)
    (desiredCount : ℕ) : SelectionPool × Bool :=
  if ginfo.isInvitedToBGInstanceGUID = 0 ∧ pool.playerCount + ginfo.players.card ≤ desiredCount then
    (⟨pool.selectedGroups ++ [g], pool.playerCount + ginfo.players.card⟩, true)
  else (pool, decide (pool.playerCount < desiredCount))

abbrev Pools := TeamId → SelectionPool

structure BattlegroundQueue where
  info : ℕ → Option GroupQueueInfo
  queuedPlayers : ℕ → Option ℕ
  queuedGroups : BracketId → GroupType → List ℕ
  selectionPools : Pools

namespace BattlegroundQueue

def empty : BattlegroundQueue :=
  ⟨fun _ => none, fun _ => none, fun _ _ => [], fun _ => .init⟩

def modify (q : BattlegroundQueue) (g : ℕ) (f : GroupQueueInfo → GroupQueueInfo) :
    BattlegroundQueue :=
  { q with info := Function.update q.info g ((q.info g).map f) }

def setGroups (q : BattlegroundQueue) (b : BracketId) (t : GroupType) (f : List ℕ → List ℕ) :
    BattlegroundQueue :=
  { q with queuedGroups := fun b' t' =>
      if b' = b ∧ t' = t then f (q.queuedGroups b' t') else q.queuedGroups b' t' }

/-! ### AddGroup -/

def addMember (g : ℕ) (q : BattlegroundQueue) (guid : ℕ) : Option BattlegroundQueue :=
  if (q.queuedPlayers guid).isSome then none
  else
    let q := q.modify g fun ginfo => { ginfo with players := insert guid ginfo.players }
    some { q with queuedPlayers := Function.update q.queuedPlayers guid (some g) }

/-- The players that `AddGroup` queues: the group's members who are online (`GetSource()` is not
null), or the leader alone. -/
def members (leader : ℕ) : Option (List (Option ℕ)) → List ℕ
  | some refs => refs.reduceOption
  | none => [leader]

def addGroup (q : BattlegroundQueue) (new leader : ℕ) (leaderTeam : TeamId)
    (grp : Option (List (Option ℕ))) (bracketId : BracketId) (isRated isPremade : Bool)
    (now : ℕ) : Option BattlegroundQueue :=
  let index := if !isRated && !isPremade then GroupType.normal leaderTeam else .premade leaderTeam
  let ginfo : GroupQueueInfo := ⟨∅, leaderTeam, isRated, now, 0, bracketId, index⟩
  ((members leader grp).foldlM (addMember new)
    { q with info := Function.update q.info new (some ginfo) }).map fun q =>
      q.setGroups bracketId index (· ++ [new])

/-! ### RemovePlayer -/

/-- `RemovePlayer` up to its call of itself, with the player of that call. The result is `none`
where an `ASSERT` fails. -/
def removeOne (q : BattlegroundQueue) (guid : ℕ) : Option (BattlegroundQueue × Option ℕ) :=
  match q.queuedPlayers guid with
  | none => none
  | some g =>
    match q.info g with
    | none => none
    | some groupInfo =>
      if g ∉ q.queuedGroups groupInfo.bracketId groupInfo.groupType then none
      else if guid ∉ groupInfo.players then none
      else
        let players := groupInfo.players.erase guid
        let q := q.modify g fun i => { i with players := players }
        let q := { q with queuedPlayers := Function.update q.queuedPlayers guid none }
        if h : players.Nonempty then
          -- `*Players.begin()`, the smallest guid of the set
          if groupInfo.isRated ∧ groupInfo.isInvitedToBGInstanceGUID = 0 then
            some (q, some (players.min' h))
          else some (q, none)
        else
          let q := q.setGroups groupInfo.bracketId groupInfo.groupType (·.erase g)
          some ({ q with info := Function.update q.info g none }, none)

def removeWithin : ℕ → BattlegroundQueue → ℕ → Option BattlegroundQueue
  | 0, _, _ => none
  | depth + 1, q, guid =>
    match q.removeOne guid with
    | none => none
    | some (q, none) => some q
    | some (q, some next) => removeWithin depth q next

def removePlayer (q : BattlegroundQueue) (guid : ℕ) : Option BattlegroundQueue :=
  removeWithin (((q.queuedPlayers guid).bind q.info).elim 0 (·.players.card)) q guid

/-! ### CheckPremadeMatch -/

def isPremadeFor (q : BattlegroundQueue) (minPlayers g : ℕ) : Bool :=
  (q.info g).any fun i => i.isInvitedToBGInstanceGUID = 0 ∧ minPlayers ≤ i.players.card

/-- One turn of the walk over a premade list. No list holds an address twice, so the node that
`erase` takes is the one of the walk. -/
def moveExpired (bracketId : BracketId) (team : TeamId) (timeBefore minPlayers : ℕ)
    (q : BattlegroundQueue) (g : ℕ) : BattlegroundQueue :=
  if (q.info g).any fun i => i.isInvitedToBGInstanceGUID = 0 ∧
      (i.joinTime < timeBefore ∨ i.players.card < minPlayers) then
    let q := q.modify g fun i => { i with groupType := .normal team }
    let q := q.setGroups bracketId (.normal team) (g :: ·)
    q.setGroups bracketId (.premade team) (·.erase g)
  else q

def moveAllExpired (bracketId : BracketId) (timeBefore minPlayers : ℕ)
    (q : BattlegroundQueue) (team : TeamId) : BattlegroundQueue :=
  (q.queuedGroups bracketId (.premade team)).foldl
    (moveExpired bracketId team timeBefore minPlayers) q

def select (q : BattlegroundQueue) (team : TeamId) (g desiredCount : ℕ) : BattlegroundQueue :=
  match q.info g with
  | none => q
  | some ginfo =>
    let added := (q.selectionPools team).addGroup g ginfo desiredCount
    { q with selectionPools := Function.update q.selectionPools team added.1 }

def checkPremadeMatch (q : BattlegroundQueue) (bracketId : BracketId)
    (minPlayersPerTeam maxPlayersPerTeam now premadeTime : ℕ) : BattlegroundQueue × Bool :=
  let q := { q with selectionPools := fun _ => .init }
  match (q.queuedGroups bracketId .premadeAlliance).find? (q.isPremadeFor minPlayersPerTeam),
      (q.queuedGroups bracketId .premadeHorde).find? (q.isPremadeFor minPlayersPerTeam) with
  | some aliGroup, some hordeGroup =>
    let q := q.select .alliance aliGroup maxPlayersPerTeam
    let q := q.select .horde hordeGroup maxPlayersPerTeam
    (q, decide (minPlayersPerTeam ≤ (q.selectionPools .alliance).playerCount) &&
      decide (minPlayersPerTeam ≤ (q.selectionPools .horde).playerCount))
  | _, _ =>
    let timeBefore := if premadeTime ≤ now then now - premadeTime else 0
    ([TeamId.alliance, .horde].foldl (moveAllExpired bracketId timeBefore minPlayersPerTeam) q,
      false)

/-! ### CheckSkirmishForSameFaction -/

/-- The loop over both pools for one group; true when it ends with its `break`. -/
def tryPools (minPlayers g : ℕ) (ginfo : GroupQueueInfo) : List TeamId → Pools → Pools × Bool
  | [], pools => (pools, false)
  | j :: js, pools =>
    if (pools j).playerCount < minPlayers then
      let added := (pools j).addGroup g ginfo minPlayers
      if added.2 then (Function.update pools j added.1, true)
      else tryPools minPlayers g ginfo js (Function.update pools j added.1)
    else tryPools minPlayers g ginfo js pools

def fillPools (info : ℕ → Option GroupQueueInfo) (minPlayers : ℕ) :
    List ℕ → Pools → Pools × Bool
  | [], pools => (pools, false)
  | g :: rest, pools =>
    match info g with
    | none => fillPools info minPlayers rest pools
    | some ginfo =>
      let tried := tryPools minPlayers g ginfo [.alliance, .horde] pools
      if tried.2 ∧ minPlayers ≤ (tried.1 .alliance).playerCount ∧
          minPlayers ≤ (tried.1 .horde).playerCount then (tried.1, true)
      else fillPools info minPlayers rest tried.1

def moveWrong (bracketId : BracketId) (team wrongTeam : TeamId) (q : BattlegroundQueue) (g : ℕ) :
    BattlegroundQueue :=
  let q := q.modify g fun i => { i with teamId := wrongTeam, groupType := .normal wrongTeam }
  let q := q.setGroups bracketId (.normal wrongTeam) (g :: ·)
  q.setGroups bracketId (.normal team) (·.erase g)

def checkSkirmishOf (bracketId : BracketId) (minPlayersPerTeam : ℕ) :
    List TeamId → BattlegroundQueue → BattlegroundQueue × Bool
  | [], q => (q, false)
  | i :: is, q =>
    if q.queuedGroups bracketId (.normal i) = [] then checkSkirmishOf bracketId minPlayersPerTeam is q
    else
      let filled := fillPools q.info minPlayersPerTeam (q.queuedGroups bracketId (.normal i))
        fun _ => .init
      let q := { q with selectionPools := filled.1 }
      if filled.2 then
        let wrongTeam : TeamId := if i = .alliance then .horde else .alliance
        ((filled.1 wrongTeam).selectedGroups.foldl (moveWrong bracketId i wrongTeam) q, true)
      else checkSkirmishOf bracketId minPlayersPerTeam is q

def checkSkirmishForSameFaction (q : BattlegroundQueue) (bracketId : BracketId)
    (minPlayersPerTeam : ℕ) : BattlegroundQueue × Bool :=
  checkSkirmishOf bracketId minPlayersPerTeam [.alliance, .horde] q

/-! ### Runs -/

def inviteGroup (q : BattlegroundQueue) (g instanceId : ℕ) (teamId : TeamId) : BattlegroundQueue :=
  q.modify g fun i => { i with teamId := teamId, isInvitedToBGInstanceGUID := instanceId }

inductive Call where
  | addGroup (new leader : ℕ) (leaderTeam : TeamId) (grp : Option (List (Option ℕ)))
      (bracketId : BracketId) (isRated isPremade : Bool) (now : ℕ)
  | removePlayer (guid : ℕ)
  | checkPremadeMatch (bracketId : BracketId) (minPlayers maxPlayers now premadeTime : ℕ)
  | checkSkirmishForSameFaction (bracketId : BracketId) (minPlayers : ℕ)
  | inviteGroup (g instanceId : ℕ) (teamId : TeamId)

/-- `AddGroup` is called with a fresh object for players none of whom is queued; the leader is one
of his group's members and no member stands in the group twice. -/
def step (q : BattlegroundQueue) : Call → Option BattlegroundQueue
  | .addGroup new leader leaderTeam grp bracketId isRated isPremade now =>
    if q.info new = none ∧ leader ∈ members leader grp ∧ (members leader grp).Nodup ∧
        ∀ p ∈ members leader grp, q.queuedPlayers p = none then
      q.addGroup new leader leaderTeam grp bracketId isRated isPremade now
    else none
  | .removePlayer guid => if (q.queuedPlayers guid).isSome then q.removePlayer guid else none
  | .checkPremadeMatch bracketId minPlayers maxPlayers now premadeTime =>
    some (q.checkPremadeMatch bracketId minPlayers maxPlayers now premadeTime).1
  | .checkSkirmishForSameFaction bracketId minPlayers =>
    some (q.checkSkirmishForSameFaction bracketId minPlayers).1
  | .inviteGroup g instanceId teamId => some (q.inviteGroup g instanceId teamId)

def Starts (q : BattlegroundQueue) : Prop := q = empty

def Reachable : BattlegroundQueue → Prop := Reaches step anyStep Starts

end BattlegroundQueue

end HysteriaCore.Battleground
