import HysteriaCore.Dungeon.Queue

/-!
# The dungeon finder's manager

`LFGMgr` keeps the state of every player and group that uses the finder, the queues of the teams,
the proposals that wait for answers and the votes to kick somebody. Its maps are read with
`operator[]`: a key that is not there yet has the default value.
-/

namespace HysteriaCore.Dungeon
open Lib

inductive LfgState where
  | none
  | rolecheck
  | queued
  | proposal
  | boot
  | dungeon
  | finishedDungeon
  | raidbrowser
  deriving DecidableEq, Repr

inductive LfgAnswer where
  | pending
  | deny
  | agree
  deriving DecidableEq, Repr

def LfgAnswer.ofBool (accept : Bool) : LfgAnswer := if accept then .agree else .deny

def LfgState.rests : LfgState → Bool
  | .none | .dungeon | .finishedDungeon => true
  | _ => false

/-! ### Players and groups -/

structure LfgPlayerData where
  state : LfgState
  oldState : LfgState
  rests : oldState.rests = true
  canOverrideRBState : Bool
  teamId : ℕ
  group : ℕ
  roles : Role
  comment : String
  selectedDungeons : Finset ℕ

namespace LfgPlayerData

instance : Inhabited LfgPlayerData :=
  ⟨{ state := .none, oldState := .none, rests := rfl, canOverrideRBState := false, teamId := 0,
     group := 0, roles := 0, comment := "", selectedDungeons := ∅ }⟩

def locked (d : LfgPlayerData) : Bool := d.state = .raidbrowser ∧ d.canOverrideRBState = false

def setState (d : LfgPlayerData) (state : LfgState) : LfgPlayerData :=
  if d.locked = true ∧ state ≠ .raidbrowser then d
  else
    match state with
    | .none =>
      { d with
        roles := 0, selectedDungeons := ∅, comment := "", oldState := .none, rests := rfl
        state := .none }
    | .finishedDungeon =>
      { d with
        roles := 0, selectedDungeons := ∅, comment := "", oldState := .finishedDungeon, rests := rfl
        state := .finishedDungeon }
    | .dungeon => { d with oldState := .dungeon, rests := rfl, state := .dungeon }
    | state => { d with state := state }

def restoreState (d : LfgPlayerData) : LfgPlayerData :=
  if d.locked = true ∧ d.oldState ≠ .raidbrowser then d
  else if d.oldState = .none then
    { d with selectedDungeons := ∅, roles := 0, state := d.oldState }
  else { d with state := d.oldState }

theorem setState_queued (d : LfgPlayerData) :
    d.setState .queued = if d.locked = true then d else { d with state := .queued } := by
  unfold setState
  by_cases h : d.locked = true
  · rw [if_pos ⟨h, nofun⟩, if_pos h]
  · rw [if_neg fun hboth => h hboth.1, if_neg h]

theorem restoreState_locked {d : LfgPlayerData} (h : d.locked = true) : d.restoreState = d := by
  have hrests := d.rests
  have hold : d.oldState ≠ .raidbrowser := by
    intro h
    rw [h] at hrests
    cases hrests
  rw [restoreState, if_pos ⟨h, hold⟩]

theorem restoreState_state {d : LfgPlayerData} (h : d.locked = false) :
    d.restoreState.state = d.oldState := by
  rw [restoreState, if_neg (by simp [h])]
  split <;> rfl

theorem setState_teamId (d : LfgPlayerData) (state : LfgState) :
    (d.setState state).teamId = d.teamId := by
  unfold setState
  split
  · rfl
  · cases state <;> rfl

theorem restoreState_teamId (d : LfgPlayerData) : d.restoreState.teamId = d.teamId := by
  rw [restoreState]
  split
  · rfl
  · split <;> rfl

end LfgPlayerData

def LFG_GROUP_MAX_KICKS : ℕ := 3

structure LfgGroupData where
  state : LfgState
  oldState : LfgState
  leader : ℕ
  players : List ℕ
  dungeon : ℕ
  kicksLeft : ℕ

namespace LfgGroupData

instance : Inhabited LfgGroupData :=
  ⟨{ state := .none, oldState := .none, leader := 0, players := [], dungeon := 0
     kicksLeft := LFG_GROUP_MAX_KICKS }⟩

def setState (d : LfgGroupData) (state : LfgState) : LfgGroupData :=
  match state with
  | .none =>
    { d with dungeon := 0, kicksLeft := LFG_GROUP_MAX_KICKS, oldState := .none, state := .none }
  | .finishedDungeon => { d with oldState := .finishedDungeon, state := .finishedDungeon }
  | .dungeon => { d with oldState := .dungeon, state := .dungeon }
  | state => { d with state := state }

def restoreState (d : LfgGroupData) : LfgGroupData := { d with state := d.oldState }

def addPlayer (d : LfgGroupData) (guid : ℕ) : LfgGroupData :=
  if guid ∈ d.players then d else { d with players := d.players.orderedInsert (· ≤ ·) guid }

def removePlayer (d : LfgGroupData) (guid : ℕ) : LfgGroupData :=
  { d with players := d.players.erase guid }

def decreaseKicksLeft (d : LfgGroupData) : LfgGroupData := { d with kicksLeft := d.kicksLeft - 1 }

theorem setState_players (d : LfgGroupData) (state : LfgState) :
    (d.setState state).players = d.players := by
  cases state <;> rfl

end LfgGroupData

/-! ### The manager -/

/-- An entry of `ProposalsStore`: what the queue found, and what the players answered so far. -/
structure StoredProposal extends LfgProposal where
  answer : ℕ → LfgAnswer

structure LfgPlayerBoot where
  inProgress : Bool
  votes : KeyedList (Prod.fst : ℕ × LfgAnswer → ℕ)
  victim : ℕ
  cancelTime : ℕ
  reason : String

structure LFGMgr where
  playersStore : ℕ → LfgPlayerData
  groupsStore : ℕ → LfgGroupData
  queuesStore : ℕ → LFGQueue
  proposalsStore : ℕ → Option StoredProposal
  bootsStore : ℕ → Option LfgPlayerBoot

namespace LFGMgr

variable (isGroupGuid : ℕ → Bool)

def setState (m : LFGMgr) (guid : ℕ) (state : LfgState) : LFGMgr :=
  if isGroupGuid guid then
    { m with groupsStore := Function.update m.groupsStore guid ((m.groupsStore guid).setState state) }
  else
    { m with
      playersStore := Function.update m.playersStore guid ((m.playersStore guid).setState state) }

def restoreState (m : LFGMgr) (guid : ℕ) : LFGMgr :=
  if isGroupGuid guid then
    { m with groupsStore := Function.update m.groupsStore guid (m.groupsStore guid).restoreState }
  else
    { m with playersStore := Function.update m.playersStore guid (m.playersStore guid).restoreState }

section Guids

variable {isGroupGuid} {guid : ℕ}

theorem setState_player (h : isGroupGuid guid = false) (m : LFGMgr) (state : LfgState) :
    m.setState isGroupGuid guid state =
      { m with
        playersStore :=
          Function.update m.playersStore guid ((m.playersStore guid).setState state) } := by
  rw [setState, h]
  rfl

theorem setState_group (h : isGroupGuid guid = true) (m : LFGMgr) (state : LfgState) :
    m.setState isGroupGuid guid state =
      { m with
        groupsStore := Function.update m.groupsStore guid ((m.groupsStore guid).setState state) } := by
  rw [setState, h]
  rfl

theorem restoreState_player (h : isGroupGuid guid = false) (m : LFGMgr) :
    m.restoreState isGroupGuid guid =
      { m with
        playersStore := Function.update m.playersStore guid (m.playersStore guid).restoreState } := by
  rw [restoreState, h]
  rfl

theorem restoreState_group (h : isGroupGuid guid = true) (m : LFGMgr) :
    m.restoreState isGroupGuid guid =
      { m with
        groupsStore := Function.update m.groupsStore guid (m.groupsStore guid).restoreState } := by
  rw [restoreState, h]
  rfl

end Guids

def getTeam (m : LFGMgr) (guid : ℕ) : ℕ := (m.playersStore guid).teamId

def getQueue (m : LFGMgr) (guid : ℕ) : ℕ :=
  if isGroupGuid guid then
    let pguid := (m.groupsStore guid).players.headD 0
    if pguid ≠ 0 then m.getTeam pguid else m.getTeam (m.groupsStore guid).leader
  else m.getTeam guid

end LFGMgr

end HysteriaCore.Dungeon
