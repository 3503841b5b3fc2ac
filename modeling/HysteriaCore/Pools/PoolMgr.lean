import HysteriaCore.Lib.Words
import Mathlib.Algebra.Order.Ring.Rat

/-!
# Pools of spawns

A pool has members, which are creatures, game objects, quests or other pools, and up to a limit of them are
active at a time. Which ones become active is rolled.
-/

namespace HysteriaCore.Pools
open Lib

inductive Kind where
  | creature | gameobject | pool | quest
deriving DecidableEq

/-- A row of `pool_creature`, `pool_gameobject`, `pool_pool` or `pool_quest`. -/
structure Row where
  kind : Kind
  guid : ℕ
  pool : ℕ
  chance : ℚ

structure QuestTemplate where
  isDaily : Bool
  isWeekly : Bool

/-- The tables when they have been loaded. An object is listed once, the members of a pool are of one
kind, and `rank` is lower for a pool than for its mother pool, as there are no circular references. -/
structure Tables where
  maxPoolId : ℕ
  maxLimit : ℕ → ℕ
  rows : List Row
  questTemplate : ℕ → Option QuestTemplate
  rank : ℕ → ℕ
  limit : ∀ p, maxLimit p < 2 ^ 32
  distinct : (rows.map fun r => (r.kind, r.guid)).Nodup
  oneKind : ∀ r ∈ rows, ∀ r' ∈ rows, r.pool = r'.pool → r.kind = r'.kind
  ranked : ∀ r ∈ rows, r.kind = .pool → rank r.guid < rank r.pool
  questChance : ∀ r ∈ rows, r.kind = .quest → r.chance = 0

namespace Tables
variable (T : Tables) (k : Kind) (p : ℕ)

abbrev Member := { r : Row // r ∈ T.rows ∧ r.kind = k ∧ r.pool = p }

variable {T k p} in
def Member.guid (o : T.Member k p) : ℕ := o.1.guid

def objects : List (T.Member k p) :=
  (T.rows.filter fun r => decide (r.kind = k ∧ r.pool = p)).attach.map fun r =>
    have h := List.mem_filter.mp r.2
    ⟨r.1, h.1, of_decide_eq_true h.2⟩

/-- `AddEntry`: an object has a chance of its own only in a pool with one place. -/
def explicitlyChanced : List (T.Member k p) :=
  (T.objects k p).filter fun o => decide (o.1.chance ≠ 0 ∧ T.maxLimit p = 1)

def equalChanced : List (T.Member k p) :=
  (T.objects k p).filter fun o => !decide (o.1.chance ≠ 0 ∧ T.maxLimit p = 1)

def motherPool : ℕ := ((T.rows.find? fun r => decide (r.kind = .pool ∧ r.guid = p)).map Row.pool).getD 0

def firstQuest : Option QuestTemplate :=
  (T.equalChanced .quest p).head?.bind fun o => T.questTemplate o.guid

end Tables

structure ActivePoolData where
  /-- `mSpawnedCreatures`, `mSpawnedGameobjects` and `mActiveQuests` -/
  spawned : Kind → List ℕ
  /-- `mSpawnedPools`: the pools with a counter are the active ones -/
  spawnedPools : ℕ → Option ℕ
  /-- what has been activated, and for which pool; not data of the server -/
  activations : List (Kind × ℕ × ℕ)

namespace ActivePoolData
variable (d : ActivePoolData) (k : Kind) (guid p : ℕ)

def getActiveObjectCount : ℕ := (d.spawnedPools p).getD 0

def isActiveObject : Bool :=
  match k with
  | .pool => (d.spawnedPools guid).isSome
  | k => decide (guid ∈ d.spawned k)

def insert : ActivePoolData :=
  match k with
  | .pool => { d with spawnedPools := Function.update d.spawnedPools guid (some 0) }
  | k => { d with spawned := Function.update d.spawned k ((d.spawned k).insert guid) }

def erase : ActivePoolData :=
  match k with
  | .pool => { d with spawnedPools := Function.update d.spawnedPools guid none }
  | k => { d with spawned := Function.update d.spawned k ((d.spawned k).filter fun g => decide (g ≠ guid)) }

def setCount (n : ℕ) : ActivePoolData := { d with spawnedPools := Function.update d.spawnedPools p (some n) }

def activateObject : ActivePoolData :=
  let d := { d.insert k guid with activations := d.activations ++ [(k, guid, p)] }
  d.setCount p (d.getActiveObjectCount p + 1)

def removeObject : ActivePoolData :=
  let d := d.erase k guid
  d.setCount p (d.getActiveObjectCount p - 1)

end ActivePoolData

structure Roll where
  chance : ℚ
  index : ℕ

structure PoolMgr where
  data : ActivePoolData
  saved : ℕ → List ℕ
  rolled : ℕ

namespace PoolMgr
variable (T : Tables) (dice : ℕ → Roll)

def roll (m : PoolMgr) : PoolMgr := { m with rolled := m.rolled + 1 }

def activate (k : Kind) (guid p : ℕ) (m : PoolMgr) : PoolMgr := { m with data := m.data.activateObject k guid p }

def remove (k : Kind) (guid p : ℕ) (m : PoolMgr) : PoolMgr := { m with data := m.data.removeObject k guid p }

section Group
variable (k : Kind) (p : ℕ)

def rollExplicitly (eligible : T.Member k p → Bool) : ℚ → List (T.Member k p) → Option (T.Member k p)
  | _, [] => none
  | roll, o :: os =>
    let roll := roll - o.1.chance
    if roll < 0 ∧ eligible o = true then some o else rollExplicitly eligible roll os

def rollOne (triggerFrom : ℕ) (m : PoolMgr) : Option (T.Member k p) :=
  let roll := dice m.rolled
  let eligible := fun o : T.Member k p => decide (o.guid = triggerFrom) || !m.data.isActiveObject k o.guid
  let equalChanced := T.equalChanced k p
  (rollExplicitly T k p eligible roll.chance (T.explicitlyChanced k p)).or
    (equalChanced[roll.index % equalChanced.length]?.filter eligible)

def despawnTurn (despawn1 : T.Member k p → PoolMgr → PoolMgr) (guid : ℕ) (m : PoolMgr) (o : T.Member k p) : PoolMgr :=
  if m.data.isActiveObject k o.guid = true ∧ (guid = 0 ∨ o.guid = guid) then (despawn1 o m).remove k o.guid p else m

def despawnObject (despawn1 : T.Member k p → PoolMgr → PoolMgr) (guid : ℕ) (m : PoolMgr) : PoolMgr :=
  (T.equalChanced k p ++ T.explicitlyChanced k p).foldl (despawnTurn T k p despawn1 guid) m

structure Spawning where
  m : PoolMgr
  triggerFrom : ℕ
  lastDespawned : ℕ

def spawnTurn (spawn1 despawn1 : T.Member k p → PoolMgr → PoolMgr) (x : Spawning) : Spawning :=
  match rollOne T dice k p x.triggerFrom x.m with
  | none => { x with m := x.m.roll }
  | some obj =>
    if obj.guid = x.lastDespawned then { x with m := x.m.roll }
    else if obj.guid = x.triggerFrom then { x with m := x.m.roll, triggerFrom := 0 }
    else
      let m := spawn1 obj (x.m.roll.activate k obj.guid p)
      -- one spawn and one despawn
      if x.triggerFrom ≠ 0 then ⟨despawnObject T k p despawn1 x.triggerFrom m, 0, x.triggerFrom⟩
      else { x with m }

@[irreducible] def turns (limit triggerFrom : ℕ) (m : PoolMgr) : ℕ :=
  (toInt32 (subU32 limit (m.data.getActiveObjectCount p)) + if triggerFrom ≠ 0 then 1 else 0).toNat

def spawnTurns (spawn1 despawn1 : T.Member k p → PoolMgr → PoolMgr) : ℕ → Spawning → PoolMgr
  | 0, x => x.m
  | n + 1, x => spawnTurns spawn1 despawn1 n (spawnTurn T dice k p spawn1 despawn1 x)

def spawnObject (spawn1 despawn1 : T.Member k p → PoolMgr → PoolMgr) (limit triggerFrom : ℕ) (m : PoolMgr) : PoolMgr :=
  spawnTurns T dice k p spawn1 despawn1 (turns p limit triggerFrom m) ⟨m, triggerFrom, 0⟩

end Group

section Quests
variable (p : ℕ)

def select (guids : List ℕ) (m : PoolMgr) : ℕ := (guids[(dice m.rolled).index % guids.length]?).getD 0

def saves (daily weekly other : Bool) : Bool :=
  !(T.objects .quest p).isEmpty && match T.firstQuest p with
    | some quest => (daily || !quest.isDaily) && (weekly || !quest.isWeekly) && (other || quest.isDaily || quest.isWeekly)
    | none => true

def saveQuestsToDB (daily weekly other : Bool) (m : PoolMgr) : PoolMgr :=
  { m with
    saved := fun p => if decide (p ≤ T.maxPoolId) && saves T p daily weekly other
      then ((T.objects .quest p).map Tables.Member.guid).filter (m.data.isActiveObject .quest) else m.saved p }

def loadQuests : ℕ → List ℕ → PoolMgr → PoolMgr
  | _, [], m => m
  | limit, questId :: rows, m =>
    let m := m.activate .quest questId p
    if subU32 limit 1 ≠ 0 then loadQuests (subU32 limit 1) rows m else m

def recycle (limit : ℕ) : ℕ → List ℕ → List ℕ → PoolMgr → List ℕ × PoolMgr
  | 0, newQuests, _, m => (newQuests, m)
  | left + 1, newQuests, currentQuests, m =>
    let questId := select dice currentQuests m
    let newQuests := newQuests.insert questId
    if newQuests.length < limit then recycle limit left newQuests (currentQuests.erase questId) m.roll
    else (newQuests, m.roll)

def activateQuests : ℕ → ℕ → List ℕ → PoolMgr → PoolMgr
  | 0, _, _, m => m
  | left + 1, limit, newQuests, m =>
    let questId := select dice newQuests m
    let m := m.roll.activate .quest questId p
    if subU32 limit 1 ≠ 0 then activateQuests left (subU32 limit 1) (newQuests.erase questId) m else m

def newQuests (m : PoolMgr) : List ℕ :=
  ((T.equalChanced .quest p).map Tables.Member.guid).filter fun questId => !m.data.isActiveObject .quest questId

def spawnQuests (limit triggerFrom : ℕ) (m : PoolMgr) : PoolMgr :=
  if triggerFrom = 0 ∧ m.saved p ≠ [] then loadQuests p limit (m.saved p) m
  else
    let currentQuests := m.data.spawned .quest
    let newQuests := newQuests T p m
    let m := despawnObject T .quest p (fun _ m => m) 0 m
    let (newQuests, m) := if newQuests.length < limit ∧ currentQuests ≠ []
      then recycle dice limit currentQuests.length newQuests currentQuests m else (newQuests, m)
    if newQuests = [] then m
    else
      let m := activateQuests dice p newQuests.length limit newQuests m
      if triggerFrom = 0 then saveQuestsToDB T false false true m else m

end Quests

def despawnPool (p : ℕ) (m : PoolMgr) : PoolMgr :=
  let m := despawnObject T .creature p (fun _ m => m) 0 m
  let m := despawnObject T .gameobject p (fun _ m => m) 0 m
  let m := despawnObject T .pool p (fun o m => despawnPool o.guid m) 0 m
  despawnObject T .quest p (fun _ m => m) 0 m
termination_by T.rank p
decreasing_by
  have hranked := T.ranked o.1 o.2.1 o.2.2.1
  rwa [o.2.2.2] at hranked

def spawnGroup (p : ℕ) (spawnChild : T.Member .pool p → PoolMgr → PoolMgr) (k : Kind) (triggerFrom : ℕ)
    (m : PoolMgr) : PoolMgr :=
  if (T.objects k p).isEmpty then m
  else
    match k with
    | .quest => spawnQuests T dice p (T.maxLimit p) triggerFrom m
    | .pool =>
      spawnObject T dice .pool p spawnChild (fun o m => despawnPool T o.guid m) (T.maxLimit p) triggerFrom m
    | k => spawnObject T dice k p (fun _ m => m) (fun _ m => m) (T.maxLimit p) triggerFrom m

def spawnPool (p : ℕ) (m : PoolMgr) : PoolMgr :=
  let m := spawnGroup T dice p (fun o m => spawnPool o.guid m) .pool 0 m
  let m := spawnGroup T dice p (fun o m => spawnPool o.guid m) .gameobject 0 m
  let m := spawnGroup T dice p (fun o m => spawnPool o.guid m) .creature 0 m
  spawnGroup T dice p (fun o m => spawnPool o.guid m) .quest 0 m
termination_by T.rank p
decreasing_by
  all_goals
    have hranked := T.ranked o.1 o.2.1 o.2.2.1
    rwa [o.2.2.2] at hranked

def spawnGroupFrom (k : Kind) (p triggerFrom : ℕ) (m : PoolMgr) : PoolMgr :=
  spawnGroup T dice p (fun o m => spawnPool T dice o.guid m) k triggerFrom m

def updatePool (k : Kind) (p guid : ℕ) (m : PoolMgr) : PoolMgr :=
  if T.motherPool p ≠ 0 then spawnGroupFrom T dice .pool (T.motherPool p) p m
  else spawnGroupFrom T dice k p guid m

def questPools (skips : QuestTemplate → Bool) : List ℕ :=
  (List.range (T.maxPoolId + 1)).filter fun p => (T.firstQuest p).any fun quest => !skips quest

def changeQuests (skips : QuestTemplate → Bool) (m : PoolMgr) : PoolMgr :=
  (questPools T skips).foldl (fun m p => updatePool T dice .quest p 1 m) m

def changeDailyQuests (m : PoolMgr) : PoolMgr :=
  saveQuestsToDB T true false false (changeQuests T dice QuestTemplate.isWeekly m)

def changeWeeklyQuests (m : PoolMgr) : PoolMgr :=
  saveQuestsToDB T false true false (changeQuests T dice QuestTemplate.isDaily m)

inductive Call where
  | spawnPool (p : ℕ)
  | despawnPool (p : ℕ)
  | updatePool (k : Kind) (p guid : ℕ)
  | changeDailyQuests
  | changeWeeklyQuests

def step (m : PoolMgr) : Call → Option PoolMgr
  | .spawnPool p => some (spawnPool T dice p m)
  | .despawnPool p => some (despawnPool T p m)
  | .updatePool k p guid =>
    if (T.objects k p).any (fun o => decide (o.guid = guid)) = true ∧ m.data.isActiveObject k guid = true
    then some (updatePool T dice k p guid m) else none
  | .changeDailyQuests => some (changeDailyQuests T dice m)
  | .changeWeeklyQuests => some (changeWeeklyQuests T dice m)

def Starts (m : PoolMgr) : Prop := m.data = ⟨fun _ => [], fun _ => none, []⟩

end PoolMgr

end HysteriaCore.Pools
