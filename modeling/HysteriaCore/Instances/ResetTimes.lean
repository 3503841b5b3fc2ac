import HysteriaCore.Lib.KeyedList
import HysteriaCore.Lib.Words

/-!
# The schedule of the global instance resets

A queue that is ordered by time holds the next warning or the reset of each map and difficulty. The loop
that works it off looks at its first entry, inserts what comes next and then removes the first entry.
-/

namespace HysteriaCore.Instances
open Lib

def DAY : ℕ := 86400
def HOUR : ℕ := 3600
def MINUTE : ℕ := 60

def resetTimeDelay (type : ℕ) : ℕ := [3600, 900, 300, 60, 0].getD (type - 1) 0

structure MapDifficulty where
  mapid : ℕ
  difficulty : ℕ
  resetTime : ℕ
  /-- the reset time with the rate, as an unsigned number -/
  ratedPeriod : ℕ
deriving DecidableEq

def MapDifficulty.pair (d : MapDifficulty) : ℕ × ℕ := (d.mapid, d.difficulty)

def MapDifficulty.period (d : MapDifficulty) : ℕ := if d.ratedPeriod < DAY then DAY else d.ratedPeriod

structure Config where
  hour : ℕ
  mapDifficulties : KeyedList MapDifficulty.pair
  instanceable : ℕ → Bool

def Config.diff (cfg : Config) : ℕ := cfg.hour * HOUR

def Config.scheduled (cfg : Config) : List MapDifficulty :=
  cfg.mapDifficulties.rows.filter fun d => decide (d.resetTime ≠ 0)

structure InstResetEvent where
  type : ℕ
  mapid : ℕ
  difficulty : ℕ

def InstResetEvent.pair (e : InstResetEvent) : ℕ × ℕ := (e.mapid, e.difficulty)

structure Entry where
  pair : ℕ × ℕ
  type : ℕ
  resetTime : ℕ
  newTime : ℕ
  now : ℕ

structure Schedule where
  /-- `m_resetTimeByMapDifficulty`, 0 where there is none -/
  resetTime : ℕ × ℕ → ℕ
  queue : List (ℤ × InstResetEvent)
  clock : ℕ
  /-- the reset times after loading, and what has been called since; not data of the server -/
  first : ℕ × ℕ → ℕ
  log : List Entry

def insertEvent (time : ℤ) (e : InstResetEvent) : List (ℤ × InstResetEvent) → List (ℤ × InstResetEvent)
  | [] => [(time, e)]
  | x :: queue => if time < x.1 then (time, e) :: x :: queue else x :: insertEvent time e queue

def Config.nextReset (cfg : Config) (d : MapDifficulty) (resetTime : ℕ) : ℕ :=
  (resetTime + MINUTE) / DAY * DAY + d.period + cfg.diff

namespace Schedule
variable (cfg : Config) (m : Schedule)

def scheduleReset (time : ℤ) (e : InstResetEvent) : Schedule := { m with queue := insertEvent time e m.queue }

def setResetTimeFor (pair : ℕ × ℕ) (t : ℕ) : Schedule := { m with resetTime := Function.update m.resetTime pair t }

def resetOrWarnAll (mapid difficulty : ℕ) (warn : Bool) (resetTime : ℕ) : Schedule :=
  if cfg.instanceable mapid = false ∨ warn = true then m
  else
    match cfg.mapDifficulties.find? (mapid, difficulty) with
    | none => m
    | some d =>
      if d.resetTime = 0 then m
      else
        let nextReset := u32 (cfg.nextReset d resetTime)
        (m.setResetTimeFor (mapid, difficulty) nextReset).scheduleReset (subU32 nextReset 3600) ⟨1, mapid, difficulty⟩

def turn (now : ℕ) (t : ℤ) (e : InstResetEvent) (queue : List (ℤ × InstResetEvent)) : Schedule :=
  if e.type = 0 then { m with queue := queue }
  else
    let resetTime := m.resetTime e.pair
    let warn := decide (e.type < 5)
    let called := m.resetOrWarnAll cfg e.mapid e.difficulty warn resetTime
    let m := { called with log := m.log ++ [⟨e.pair, e.type, resetTime, called.resetTime e.pair, now⟩] }
    let m := if warn then
        let next := { e with type := e.type + 1 }
        scheduleReset { m with queue := (t, next) :: queue } (resetTime - resetTimeDelay next.type) next
      else m
    { m with queue := m.queue.tail }

def update (now : ℕ) : ℕ → Schedule → Option Schedule
  | 0, _ => none
  | fuel + 1, m =>
    match m.queue with
    | [] => some m
    | (t, e) :: queue => if now ≤ t then some m else update now fuel (m.turn cfg now t e queue)

def firstType (now t : ℕ) : ℕ := (([1, 2, 3, 4] : List ℕ).find? fun type => decide (now + resetTimeDelay type < t)).getD 5

def loadMapDifficulty (now : ℕ) (d : MapDifficulty) : Schedule :=
  let period := if d.resetTime < DAY then DAY else d.resetTime
  let today := now / DAY * DAY
  let t := if m.resetTime d.pair = 0 then today + period + cfg.diff else m.resetTime d.pair
  let m := m.setResetTimeFor d.pair t
  m.scheduleReset (t - resetTimeDelay (firstType now t)) ⟨firstType now t, d.mapid, d.difficulty⟩

def loadRow (m : Schedule) (row : (ℕ × ℕ) × ℕ) : Schedule :=
  if (cfg.mapDifficulties.find? row.1).isSome then m.setResetTimeFor row.1 row.2 else m

def loadResetTimes (rows : List ((ℕ × ℕ) × ℕ)) (now : ℕ) : Schedule :=
  let m := rows.foldl (loadRow cfg) ⟨fun _ => 0, [], now, fun _ => 0, []⟩
  let m := cfg.scheduled.foldl (fun m d => m.loadMapDifficulty cfg now d) m
  { m with first := m.resetTime }

structure Tick where
  now : ℕ
  fuel : ℕ

def step (tick : Tick) : Option Schedule :=
  if m.clock ≤ tick.now then (update cfg tick.now tick.fuel m).map fun m => { m with clock := tick.now } else none

def Loaded (m : Schedule) : Prop := ∃ rows now, m = loadResetTimes cfg rows now

end Schedule

end HysteriaCore.Instances
