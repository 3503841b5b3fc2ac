import HysteriaCore.Events.Timers
import Mathlib.Algebra.Order.Ring.Rat

/-!
# Loading the table of game events

`LoadFromDB` stores the fields of a row before it looks at them, and a row of a holiday takes its
length, period and start from the entry of the holiday. `localtime` and `mktime` belong to the
platform and are parameters. `%` by zero and the use of an entry that is not in the store have no
value.
-/

namespace HysteriaCore.Events
open Lib

structure LocalTime where
  year : ℤ → ℤ
  mktime : ℤ → ℕ → ℕ → ℕ → ℕ → ℤ

def hour : ℕ := 3600

def maxHolidayDurations : ℕ := 10
def maxHolidayDates : ℕ := 26

structure HolidaysEntry where
  duration : ℕ → ℕ
  date : ℕ → ℕ
  looping : ℕ
  calendarFilterType : ℕ

namespace HolidaysEntry
variable (h : HolidaysEntry) (clock : LocalTime) (now : ℤ)

def loopMinutes : ℕ :=
  (((List.range maxHolidayDurations).takeWhile fun i => h.duration i ≠ 0).foldl
    (fun sum i => u32 (sum + u32 (h.duration i * hour) / minute)) 0)

/-- The period of an event of the holiday, `YEAR / MINUTE` or `WEEK / MINUTE` by the type of the holiday. -/
def occurence (own : ℕ) : ℕ :=
  if h.looping ≠ 0 then h.loopMinutes
  else if h.calendarFilterType = 2 ^ 32 - 1 then 518400
  else if h.calendarFilterType = 0 then 10080
  else own

def singleDate : Bool := decide ((h.date 0 >>> 24) &&& 0x1F = 31)

def stageOffset (stageIndex : ℕ) : ℕ :=
  (List.range stageIndex).foldl (fun sum i => sum + u32 (h.duration i * hour)) 0

def dateInYear (year : ℤ) (date : ℕ) : ℤ :=
  clock.mktime year ((date >>> 20) &&& 0xF) (((date >>> 14) &&& 0x3F) + 1) ((date >>> 6) &&& 0x1F) (date &&& 0x3F)

def startDate (lengthSeconds : ℕ) : List ℕ → Option ℤ
  | [] => none
  | i :: rest =>
    if h.date i = 0 then none
    else
      let year : ℤ := if h.singleDate then clock.year now - 1 else ((h.date i >>> 24 &&& 0x1F) + 100 : ℕ)
      let startTime := dateInYear clock year (h.date i)
      if now < startTime + lengthSeconds then some startTime
      else if h.singleDate then some (dateInYear clock (clock.year now) (h.date i))
      else startDate lengthSeconds rest

def stageStart (lengthSeconds stageIndex : ℕ) : Option ℤ :=
  (h.startDate clock now lengthSeconds (List.range maxHolidayDates)).map fun start => start + h.stageOffset stageIndex

def Usable : Prop := h.date 0 ≠ 0 ∧ h.duration 0 ≠ 0

instance : Decidable h.Usable := inferInstanceAs (Decidable (_ ∧ _))

end HolidaysEntry

structure GameEventRow where
  eventEntry : ℕ
  startTime : ℤ
  endTime : ℤ
  occurence : ℕ
  length : ℕ
  holiday : ℕ
  worldEvent : ℕ
  holidayStage : ℕ

/-- The tables that `LoadFromDB` reads into `mGameEvent`, `game_event_save`, `game_event_prerequisite`,
`game_event_condition` and `game_event_condition_save` after the rows of `game_event`. -/
structure GameEventDB where
  rows : List GameEventRow
  saves : List (ℕ × ℕ × ℕ) := []
  prerequisites : List (ℕ × ℕ) := []
  conditions : List (ℕ × ℕ × ℚ) := []
  conditionSaves : List (ℕ × ℕ × ℚ) := []

section Load
variable (clock : LocalTime) (holidays : ℕ → Option HolidaysEntry) (now : ℤ)

def setHolidayEventTime (e : GameEventData) : Option GameEventData :=
  if e.holidayStage = 0 then some e
  else (holidays e.holidayId).map fun h =>
    if ¬ h.Usable then e
    else
      let stageIndex := e.holidayStage - 1
      let e := { e with length := u32 (h.duration stageIndex * hour) / minute, occurence := h.occurence e.occurence }
      { e with start := (h.stageStart clock now e.lengthSeconds stageIndex).getD e.start }

def GameEventRow.store (row : GameEventRow) (e : GameEventData) : GameEventData :=
  { e with
    start := row.startTime
    endTime := row.endTime
    occurence := u32 row.occurence
    length := u32 row.length
    holidayId := row.holiday
    holidayStage := row.holidayStage
    state := GameEventState.ofUInt8 row.worldEvent
    nextstart := 0 }

def checkHoliday (e : GameEventData) : GameEventData :=
  if e.holidayId ≠ 0 ∧ (holidays e.holidayId).isNone then { e with holidayId := 0 } else e

def checkRow (e : GameEventData) : Option GameEventData :=
  if e.length = 0 ∧ e.state = .normal then some e
  else if maxHolidayDurations < e.holidayStage then some { e with holidayStage := 0 }
  else setHolidayEventTime clock holidays now (checkHoliday holidays e)

def loadRow (table : GameEventTable) (row : GameEventRow) : Option GameEventTable :=
  if row.eventEntry = 0 then some table
  else (checkRow clock holidays now (row.store (table.event row.eventEntry))).map (table.setEvent row.eventEntry)

def modifyEvent (table : GameEventTable) (entry : ℕ) (f : GameEventData → GameEventData) : GameEventTable :=
  if entry < table.events.length then table.setEvent entry (f (table.event entry)) else table

def loadSave (table : GameEventTable) (row : ℕ × ℕ × ℕ) : GameEventTable :=
  modifyEvent table row.1 fun e =>
    if e.serverwide then { e with state := GameEventState.ofUInt8 row.2.1, nextstart := row.2.2 } else e

def loadPrerequisite (table : GameEventTable) (row : ℕ × ℕ) : GameEventTable :=
  modifyEvent table row.1 fun e =>
    let prerequisite := row.2 % 2 ^ 16
    if e.serverwide ∧ prerequisite < table.events.length ∧ prerequisite ∉ e.prerequisiteEvents then
      { e with prerequisiteEvents := prerequisite :: e.prerequisiteEvents }
    else e

def loadCondition (table : GameEventTable) (row : ℕ × ℕ × ℚ) : GameEventTable :=
  modifyEvent table row.1 fun e =>
    { e with conditions := (row.2.1, ⟨row.2.2, 0⟩) :: e.conditions.filter fun c => c.1 ≠ row.2.1 }

def setDone (condition : ℕ) (done : ℚ) (c : ℕ × GameEventFinishCondition) : ℕ × GameEventFinishCondition :=
  if c.1 = condition then (c.1, { c.2 with done := done }) else c

def loadConditionSave (table : GameEventTable) (row : ℕ × ℕ × ℚ) : GameEventTable :=
  modifyEvent table row.1 fun e => { e with conditions := e.conditions.map (setDone row.2.1 row.2.2) }

def loadRest (db : GameEventDB) (table : GameEventTable) : GameEventTable :=
  let table := db.saves.foldl loadSave table
  let table := db.prerequisites.foldl loadPrerequisite table
  let table := db.conditions.foldl loadCondition table
  db.conditionSaves.foldl loadConditionSave table

def initialTable (db : GameEventDB) : GameEventTable :=
  ⟨List.replicate ((db.rows.map (·.eventEntry)).foldl max 0 + 1) {}, ∅⟩

def loadFromDB (db : GameEventDB) : Option GameEventTable :=
  if db.rows = [] then some ⟨[], ∅⟩
  else (db.rows.foldlM (loadRow clock holidays now) (initialTable db)).map (loadRest db)

end Load

/-! ### The system after loading -/

/-- `HandleQuestComplete`, for the event, the condition and the number that the quest counts for. -/
def handleQuestComplete (now : ℤ) (table : GameEventTable) (entry condition : ℕ) (num : ℚ) : GameEventTable :=
  let e := table.event entry
  if entry ∈ table.active ∧ e.state = .worldConditions then
    match e.conditions.find? fun c => c.1 = condition with
    | none => table
    | some c =>
      if c.2.done < c.2.reqNum then
        let e := { e with conditions := e.conditions.map (setDone condition (min (c.2.done + num) c.2.reqNum)) }
        table.setEvent entry (e.checkConditions now).2
      else table
  else table

inductive EventAction where
  | update
  | startEvent (entry : ℕ) (overwrite : Bool)
  | stopEvent (entry : ℕ) (overwrite : Bool)
  | questComplete (entry condition : ℕ) (num : ℚ)

structure EventSystem where
  clock : ℤ
  table : GameEventTable

namespace EventSystem

def act (now : ℤ) (table : GameEventTable) : EventAction → Option GameEventTable
  | .update => (table.update now).map Prod.fst
  | .startEvent entry overwrite => guarded (entry < table.events.length) (table.startEvent now entry overwrite).2
  | .stopEvent entry overwrite => guarded (entry < table.events.length) (table.stopEvent now entry overwrite)
  | .questComplete entry condition num =>
    guarded (entry < table.events.length) (handleQuestComplete now table entry condition num)

def step (s : EventSystem) (a : ℤ × EventAction) : Option EventSystem :=
  if a.1 < s.clock then none else (act a.1 s.table a.2).map fun table => ⟨a.1, table⟩

def Loaded (clock : LocalTime) (holidays : ℕ → Option HolidaysEntry) (now : ℤ) (db : GameEventDB)
    (s : EventSystem) : Prop :=
  s.clock = now ∧ loadFromDB clock holidays now db = some s.table

end EventSystem

/-! ### Events with a period -/

/-- The check of an event finds a period to divide by, or its window has no moment from now on. -/
def Timed (now : ℤ) (occurence : ℕ) (start endTime : ℤ) : Prop :=
  ¬ 2 ^ 30 ∣ occurence ∨ endTime < start ∨ endTime < now

instance (now : ℤ) (occurence : ℕ) (start endTime : ℤ) : Decidable (Timed now occurence start endTime) :=
  inferInstanceAs (Decidable (_ ∨ _ ∨ _))

namespace GameEventData

def Timed (now : ℤ) (e : GameEventData) : Prop := Events.Timed now e.occurence e.start e.endTime

instance (now : ℤ) (e : GameEventData) : Decidable (e.Timed now) :=
  inferInstanceAs (Decidable (Events.Timed _ _ _ _))

variable {now t : ℤ} {e : GameEventData}

theorem Timed.mono (h : e.Timed now) (hle : now ≤ t) : e.Timed t := by
  unfold Timed Events.Timed at h ⊢
  omega

theorem Timed.phase_isSome (h : e.Timed now) (hstart : e.start ≤ now) (hend : now ≤ e.endTime) :
    (e.phase now).isSome := by
  have hocc : ¬ 2 ^ 30 ∣ e.occurence := by
    unfold Timed Events.Timed at h
    omega
  have hperiod : e.period ≠ 0 := mt (u32_minutes_eq_zero _).mp hocc
  rw [phase_of_period hperiod, Option.isSome_some]

theorem Timed.inWindow_isSome (h : e.Timed now) : (e.inWindow now).isSome := by
  unfold inWindow
  split
  · rw [Option.isSome_map]
    exact h.phase_isSome (by omega) (by omega)
  · rfl

theorem Timed.nextCheck_isSome (h : e.Timed now) : (e.nextCheck now).isSome := by
  unfold nextCheck
  split
  · rfl
  split
  · rfl
  split
  · rfl
  split
  · rfl
  rw [Option.isSome_map]
  exact h.phase_isSome (by omega) (by omega)

theorem Timed.checkConditions (h : e.Timed now) : (e.checkConditions t).2.Timed now := by
  unfold GameEventData.checkConditions
  split
  · exact h
  · exact h

end GameEventData

namespace GameEventTable
variable {now t : ℤ} {table table' : GameEventTable} {entry : ℕ} {e : GameEventData}

def AllTimed (now : ℤ) (table : GameEventTable) : Prop := ∀ e ∈ table.events, e.Timed now

theorem AllTimed.mono (h : table.AllTimed now) (hle : now ≤ t) : table.AllTimed t :=
  fun e he => (h e he).mono hle

theorem AllTimed.event (h : table.AllTimed now) (entry : ℕ) : (table.event entry).Timed now := by
  unfold GameEventTable.event
  cases hget : table.events[entry]? with
  | none => exact .inr (.inl (by decide))
  | some e => exact h e (List.mem_of_getElem? hget)

theorem AllTimed.setEvent (h : table.AllTimed now) (he : e.Timed now) (entry : ℕ) :
    (table.setEvent entry e).AllTimed now := by
  intro e' hmem
  cases List.mem_or_eq_of_mem_set hmem with
  | inl hold => exact h e' hold
  | inr hnew => exact hnew ▸ he

theorem AllTimed.modifyEvent {f : GameEventData → GameEventData} (h : table.AllTimed now)
    (hf : ∀ e, e.Timed now → (f e).Timed now) : (modifyEvent table entry f).AllTimed now := by
  unfold Events.modifyEvent
  split
  · exact h.setEvent (hf _ (h.event entry)) entry
  · exact h

theorem AllTimed.checkOneGameEvent_isSome (h : table.AllTimed now) (entry : ℕ) :
    (table.checkOneGameEvent now entry).isSome := by
  unfold checkOneGameEvent
  cases (table.event entry).state with
  | normal => exact (h.event entry).inWindow_isSome
  | unnamed value => exact (h.event entry).inWindow_isSome
  | _ => rfl

theorem AllTimed.nextCheck_isSome (h : table.AllTimed now) (entry : ℕ) :
    (table.nextCheck now entry).isSome := (h.event entry).nextCheck_isSome

/-! ### `Update` -/

variable {p : Pass}

theorem AllTimed.queue (h : p.table.AllTimed now) (entry : ℕ) (running : Bool) :
    (p.queue entry running).table.AllTimed now := by
  unfold Pass.queue
  split
  · split <;> exact h
  · split <;> exact h

theorem AllTimed.delay (h : p.table.AllTimed now) (entry : ℕ) :
    ∃ q, Pass.delay now entry p = some q ∧ q.table.AllTimed now := by
  obtain ⟨calcDelay, hdelay⟩ := Option.isSome_iff_exists.mp (h.nextCheck_isSome entry)
  exact ⟨_, Option.map_eq_some_iff.mpr ⟨calcDelay, hdelay, rfl⟩, h⟩

theorem AllTimed.checkEvent (h : p.table.AllTimed now) (itr : ℕ) :
    ∃ q, checkEvent now p itr = some q ∧ q.table.AllTimed now := by
  obtain ⟨running, hrunning⟩ := Option.isSome_iff_exists.mp (h.checkOneGameEvent_isSome itr)
  have hevent := h.event itr
  rw [GameEventTable.checkEvent, hrunning, Option.bind_some]
  simp only
  split
  · exact ⟨_, rfl, AllTimed.setEvent
      (e := { p.table.event itr with state := .worldFinished, nextstart := 0 }) h hevent itr⟩
  · split
    · exact (AllTimed.queue (p := { p with table := p.table.setEvent itr _ })
        (h.setEvent hevent.checkConditions itr) itr running).delay itr
    · exact (h.queue itr running).delay itr

theorem AllTimed.checkEvents (itrs : List ℕ) (h : p.table.AllTimed now) :
    ∃ q, itrs.foldlM (GameEventTable.checkEvent now) p = some q ∧ q.table.AllTimed now := by
  induction itrs generalizing p with
  | nil => exact ⟨p, rfl, h⟩
  | cons itr itrs ih =>
    obtain ⟨q, hq, htimed⟩ := h.checkEvent itr
    obtain ⟨r, hr, htimed'⟩ := ih htimed
    exact ⟨r, Option.bind_eq_some_iff.mpr ⟨q, hq, hr⟩, htimed'⟩

theorem AllTimed.startEvent {overwrite : Bool} (h : table.AllTimed now)
    (hnew : overwrite = true → (table.event entry).serverwide = true ∨
      (overwriteStart now (table.event entry)).Timed now) :
    (table.startEvent now entry overwrite).2.AllTimed now := by
  unfold GameEventTable.startEvent
  by_cases hworld : (table.event entry).serverwide
  · simp only [hworld, if_true]
    refine AllTimed.setEvent h (GameEventData.Timed.checkConditions ?_) entry
    split <;> exact h.event entry
  · simp only [hworld, Bool.false_eq_true, if_false]
    split
    · rename_i hover
      exact AllTimed.setEvent h ((hnew hover).resolve_left hworld) entry
    · exact h

theorem AllTimed.stopEvent {overwrite : Bool} (h : table.AllTimed now)
    (hnew : overwrite = true → (table.event entry).serverwide = true ∨
      (overwriteStop now (table.event entry)).Timed now) :
    (table.stopEvent now entry overwrite).AllTimed now := by
  unfold GameEventTable.stopEvent
  simp only
  split
  · rename_i hover
    exact AllTimed.setEvent h ((hnew hover.1).resolve_left hover.2) entry
  · split
    · exact AllTimed.setEvent (e := resetWorldEvent (table.event entry)) h (h.event entry) entry
    · exact h

theorem AllTimed.activateQueue (queue : List ℕ) {s : GameEventTable × ℕ} (h : s.1.AllTimed now) :
    (activateQueue now queue s).1.AllTimed now :=
  foldl_invariant (I := fun s : GameEventTable × ℕ => s.1.AllTimed now)
    (fun _ _ hs => hs.startEvent fun hover => Bool.noConfusion hover) queue h

theorem AllTimed.deactivateQueue (queue : List ℕ) (h : table.AllTimed now) :
    (deactivateQueue now queue table).AllTimed now :=
  foldl_invariant (I := AllTimed now) (fun _ _ hs => hs.stopEvent fun hover => Bool.noConfusion hover) queue h

theorem AllTimed.update (h : table.AllTimed now) :
    ∃ table' ms, table.update now = some (table', ms) ∧ table'.AllTimed now := by
  obtain ⟨q, hq, htimed⟩ := AllTimed.checkEvents (List.range' 1 (table.events.length - 1))
    (p := ⟨table, [], [], maxGeCheckDelay⟩) h
  exact ⟨_, _, Option.map_eq_some_iff.mpr ⟨q, hq, rfl⟩,
    (AllTimed.activateQueue q.activate (s := (q.table, q.nextEventDelay)) htimed).deactivateQueue q.deactivate⟩

def Safe (now : ℤ) (table : GameEventTable) : Prop :=
  (∀ entry, (table.checkOneGameEvent now entry).isSome ∧ (table.nextCheck now entry).isSome) ∧
    (table.update now).isSome

theorem AllTimed.safe (h : table.AllTimed now) : table.Safe now := by
  obtain ⟨_, _, hupdate, _⟩ := h.update
  exact ⟨fun entry => ⟨h.checkOneGameEvent_isSome entry, h.nextCheck_isSome entry⟩, hupdate ▸ rfl⟩

end GameEventTable

/-! ### Loading -/

namespace GameEventRow
variable (clock : LocalTime) (holidays : ℕ → Option HolidaysEntry) (now : ℤ) (row : GameEventRow)

def UsesStage : Prop :=
  ¬ (u32 row.length = 0 ∧ GameEventState.ofUInt8 row.worldEvent = .normal) ∧
    row.holidayStage ≤ maxHolidayDurations ∧ row.holidayStage ≠ 0

instance : Decidable row.UsesStage := inferInstanceAs (Decidable (_ ∧ _))

def holidayEntry : Option HolidaysEntry := (holidays row.holiday).or (holidays 0)

def StageKnown : Prop := row.eventEntry ≠ 0 → row.UsesStage → (row.holidayEntry holidays).isSome

instance : Decidable (row.StageKnown holidays) := inferInstanceAs (Decidable (_ → _))

def stageMinutes (h : HolidaysEntry) : ℕ := u32 (h.duration (row.holidayStage - 1) * hour) / minute

/-- The period and the window in force for the row, its own or those of a usable holiday, are timed. -/
def RowTimed : Prop :=
  match if row.UsesStage then (row.holidayEntry holidays).filter fun h => h.Usable else none with
  | none => Timed now (u32 row.occurence) row.startTime row.endTime
  | some h => Timed now (h.occurence (u32 row.occurence))
      ((h.stageStart clock now (u32 (row.stageMinutes h * minute)) (row.holidayStage - 1)).getD row.startTime)
      row.endTime

end GameEventRow

section Load
variable {clock : LocalTime} {holidays : ℕ → Option HolidaysEntry} {now : ℤ} {row : GameEventRow}
  {table table' : GameEventTable} {e e' : GameEventData} {db : GameEventDB}

theorem holidays_checkHoliday (holidays : ℕ → Option HolidaysEntry) (e : GameEventData) :
    holidays (checkHoliday holidays e).holidayId = (holidays e.holidayId).or (holidays 0) := by
  unfold checkHoliday
  split
  · rename_i hnone
    rw [Option.isNone_iff_eq_none.mp hnone.2, Option.none_or]
  · rename_i hknown
    by_cases hzero : e.holidayId = 0
    · rw [hzero, Option.or_self]
    · cases hh : holidays e.holidayId with
      | none => exact absurd ⟨hzero, by rw [hh]; rfl⟩ hknown
      | some h => rw [Option.some_or]

theorem checkHoliday_eq (holidays : ℕ → Option HolidaysEntry) (e : GameEventData) : ∃ id, checkHoliday holidays e = { e with holidayId := id } := by
  unfold checkHoliday
  split
  · exact ⟨0, rfl⟩
  · exact ⟨e.holidayId, rfl⟩

theorem checkRow_of_own (clock : LocalTime) (holidays : ℕ → Option HolidaysEntry) (now : ℤ) (e : GameEventData) (hown : ¬ row.UsesStage) :
    ∃ e', checkRow clock holidays now (row.store e) = some e' ∧
      e'.occurence = u32 row.occurence ∧ e'.start = row.startTime ∧ e'.endTime = row.endTime := by
  unfold checkRow
  split
  · exact ⟨_, rfl, rfl, rfl, rfl⟩
  split
  · exact ⟨_, rfl, rfl, rfl, rfl⟩
  · rename_i hlength hstage
    have hzero : row.holidayStage = 0 := by
      by_contra hne
      exact hown ⟨hlength, Nat.le_of_not_lt hstage, hne⟩
    obtain ⟨id, hid⟩ := checkHoliday_eq holidays (row.store e)
    rw [hid]
    exact ⟨_, if_pos hzero, rfl, rfl, rfl⟩

theorem checkRow_of_stage (huses : row.UsesStage) :
    checkRow clock holidays now (row.store e) =
      setHolidayEventTime clock holidays now (checkHoliday holidays (row.store e)) := by
  obtain ⟨hlength, hstage, _⟩ := huses
  exact (if_neg hlength).trans (if_neg (Nat.not_lt.mpr hstage))

theorem setHoliday_of_stage (clock : LocalTime) (holidays : ℕ → Option HolidaysEntry) (now : ℤ) (e : GameEventData) (huses : row.UsesStage) :
    ∃ id, setHolidayEventTime clock holidays now (checkHoliday holidays (row.store e)) =
      (row.holidayEntry holidays).map fun h =>
        if ¬ h.Usable then { row.store e with holidayId := id }
        else { row.store e with
          holidayId := id
          length := row.stageMinutes h
          occurence := h.occurence (u32 row.occurence)
          start := (h.stageStart clock now (u32 (row.stageMinutes h * minute)) (row.holidayStage - 1)).getD
            row.startTime } := by
  have hentry := holidays_checkHoliday holidays (row.store e)
  obtain ⟨id, hid⟩ := checkHoliday_eq holidays (row.store e)
  rw [hid] at hentry ⊢
  refine ⟨id, ?_⟩
  refine (if_neg huses.2.2).trans ?_
  rw [hentry]
  rfl

theorem checkRow_isSome_iff :
    (checkRow clock holidays now (row.store e)).isSome ↔ (row.UsesStage → (row.holidayEntry holidays).isSome) := by
  by_cases huses : row.UsesStage
  · obtain ⟨id, hid⟩ := setHoliday_of_stage clock holidays now e huses
    rw [checkRow_of_stage huses, hid, Option.isSome_map]
    exact (imp_iff_right huses).symm
  · obtain ⟨e', he', _⟩ := checkRow_of_own clock holidays now e huses
    exact iff_of_true (he' ▸ rfl) fun h => absurd h huses

theorem checkRow_timed (h : row.RowTimed clock holidays now)
    (hrow : checkRow clock holidays now (row.store e) = some e') : e'.Timed now := by
  unfold GameEventRow.RowTimed at h
  by_cases huses : row.UsesStage
  · obtain ⟨id, hid⟩ := setHoliday_of_stage clock holidays now e huses
    rw [checkRow_of_stage huses, hid] at hrow
    obtain ⟨entry, hentry, rfl⟩ := Option.map_eq_some_iff.mp hrow
    rw [if_pos huses, hentry] at h
    by_cases husable : entry.Usable
    · rw [if_neg (not_not_intro husable)]
      simp only [Option.filter, husable, decide_true, if_true] at h
      exact h
    · rw [if_pos husable]
      simp only [Option.filter, husable, decide_false, Bool.false_eq_true, if_false] at h
      exact h
  · obtain ⟨e'', he'', hocc, hstart, hend⟩ :=
      checkRow_of_own clock holidays now e huses
    obtain rfl := Option.some.inj (he''.symm.trans hrow)
    rw [if_neg huses] at h
    unfold GameEventData.Timed
    rw [hocc, hstart, hend]
    exact h

theorem loadRow_isSome_iff (clock : LocalTime) (holidays : ℕ → Option HolidaysEntry) (now : ℤ)
    (table : GameEventTable) (row : GameEventRow) : (loadRow clock holidays now table row).isSome ↔ row.StageKnown holidays := by
  unfold loadRow GameEventRow.StageKnown
  split
  · rename_i hzero
    exact iff_of_true rfl fun hne => absurd hzero hne
  · rename_i hne
    rw [Option.isSome_map, checkRow_isSome_iff]
    exact (imp_iff_right hne).symm

theorem loadRow_timed (htimed : table.AllTimed now) (h : row.eventEntry ≠ 0 → row.RowTimed clock holidays now)
    (hload : loadRow clock holidays now table row = some table') : table'.AllTimed now := by
  unfold loadRow at hload
  split at hload
  · obtain rfl := Option.some.inj hload
    exact htimed
  · rename_i hne
    obtain ⟨e', hrow, rfl⟩ := Option.map_eq_some_iff.mp hload
    exact htimed.setEvent (checkRow_timed (h hne) hrow) row.eventEntry

theorem loadRows_isSome_iff (rows : List GameEventRow) :
    (rows.foldlM (loadRow clock holidays now) table).isSome ↔ ∀ row ∈ rows, row.StageKnown holidays := by
  induction rows generalizing table with
  | nil => exact iff_of_true rfl fun _ hmem => nomatch hmem
  | cons row rows ih =>
    rw [List.foldlM_cons, List.forall_mem_cons, ← loadRow_isSome_iff clock holidays now table]
    cases hload : loadRow clock holidays now table row with
    | none => exact iff_of_false (fun h => nomatch h) fun h => nomatch h.1
    | some table' => exact ih.trans (and_iff_right rfl).symm

theorem loadRows_timed {rows : List GameEventRow} (htimed : table.AllTimed now)
    (hrows : ∀ row ∈ rows, row.eventEntry ≠ 0 → row.RowTimed clock holidays now)
    (hload : rows.foldlM (loadRow clock holidays now) table = some table') : table'.AllTimed now := by
  induction rows generalizing table with
  | nil =>
    obtain rfl := Option.some.inj hload
    exact htimed
  | cons row rows ih =>
    obtain ⟨next, hnext, hrest⟩ := Option.bind_eq_some_iff.mp hload
    exact ih (loadRow_timed htimed (hrows row List.mem_cons_self) hnext)
      (fun row' hmem => hrows row' (List.mem_cons_of_mem _ hmem)) hrest

theorem loadRest_timed (db : GameEventDB) (htimed : table.AllTimed now) : (loadRest db table).AllTimed now := by
  unfold loadRest
  refine foldl_invariant (fun table row h => ?_) _ (foldl_invariant (fun table row h => ?_) _
    (foldl_invariant (fun table row h => ?_) _ (foldl_invariant (fun table row h => ?_) _ htimed)))
  · exact h.modifyEvent fun e he => he
  · exact h.modifyEvent fun e he => he
  · refine h.modifyEvent fun e he => ?_
    simp only
    split <;> exact he
  · refine h.modifyEvent fun e he => ?_
    split <;> exact he

theorem initialTable_timed (db : GameEventDB) : (initialTable db).AllTimed now := by
  intro e he
  obtain rfl := List.eq_of_mem_replicate he
  exact .inr (.inl (by decide))

theorem loadFromDB_isSome_iff (clock : LocalTime) (holidays : ℕ → Option HolidaysEntry) (now : ℤ) (db : GameEventDB) :
    (loadFromDB clock holidays now db).isSome ↔ ∀ row ∈ db.rows, row.StageKnown holidays := by
  unfold loadFromDB
  split
  · rename_i hnil
    rw [hnil]
    exact iff_of_true rfl fun _ hmem => nomatch hmem
  · rw [Option.isSome_map]
    exact loadRows_isSome_iff db.rows

theorem loadFromDB_timed (hrows : ∀ row ∈ db.rows, row.eventEntry ≠ 0 → row.RowTimed clock holidays now)
    (hload : loadFromDB clock holidays now db = some table) : table.AllTimed now := by
  unfold loadFromDB at hload
  split at hload
  · obtain rfl := Option.some.inj hload
    exact fun e he => nomatch he
  · obtain ⟨loaded, hloaded, rfl⟩ := Option.map_eq_some_iff.mp hload
    exact loadRest_timed db (loadRows_timed (initialTable_timed db) hrows hloaded)

end Load

/-! ### Runs -/

theorem handleQuestComplete_timed {now t : ℤ} {table : GameEventTable} (entry condition : ℕ) (num : ℚ)
    (h : table.AllTimed t) : (handleQuestComplete now table entry condition num).AllTimed t := by
  unfold handleQuestComplete
  simp only
  split
  · split
    · exact h
    · split
      · refine h.setEvent (GameEventData.Timed.checkConditions ?_) entry
        exact h.event entry
      · exact h
  · exact h

namespace EventSystem
variable {clock : LocalTime} {holidays : ℕ → Option HolidaysEntry} {now : ℤ} {db : GameEventDB} {s t : EventSystem}
  {a : ℤ × EventAction}

def OverwritesTimed (s : EventSystem) (a : ℤ × EventAction) : Prop :=
  match a.2 with
  | .startEvent entry true =>
    (s.table.event entry).serverwide = true ∨ (GameEventTable.overwriteStart a.1 (s.table.event entry)).Timed a.1
  | .stopEvent entry true =>
    (s.table.event entry).serverwide = true ∨ (GameEventTable.overwriteStop a.1 (s.table.event entry)).Timed a.1
  | _ => True

theorem step_timed (h : s.table.AllTimed s.clock) (hok : OverwritesTimed s a) (hs : step s a = some t) :
    t.table.AllTimed t.clock := by
  obtain ⟨time, action⟩ := a
  unfold step at hs
  split at hs
  · exact nomatch hs
  rename_i hclock
  obtain ⟨table, hact, rfl⟩ := Option.map_eq_some_iff.mp hs
  have hnow : s.table.AllTimed time := h.mono (Int.not_lt.mp hclock)
  show table.AllTimed time
  cases action with
  | update =>
    obtain ⟨r, hr, rfl⟩ := Option.map_eq_some_iff.mp hact
    obtain ⟨table', ms, hupdate, htimed⟩ := hnow.update
    obtain rfl := Option.some.inj (hupdate.symm.trans hr)
    exact htimed
  | startEvent entry overwrite =>
    obtain ⟨_, rfl⟩ := guarded_eq_some.mp hact
    refine hnow.startEvent fun hover => ?_
    subst hover
    exact hok
  | stopEvent entry overwrite =>
    obtain ⟨_, rfl⟩ := guarded_eq_some.mp hact
    refine hnow.stopEvent fun hover => ?_
    subst hover
    exact hok
  | questComplete entry condition num =>
    obtain ⟨_, rfl⟩ := guarded_eq_some.mp hact
    exact handleQuestComplete_timed entry condition num hnow

theorem timed_of_reaches (hrows : ∀ row ∈ db.rows, row.eventEntry ≠ 0 → row.RowTimed clock holidays now)
    (h : Reaches step OverwritesTimed (Loaded clock holidays now db) s) : s.table.AllTimed s.clock :=
  Reaches.invariant (I := fun s : EventSystem => s.table.AllTimed s.clock)
    (fun _ hloaded => by
      obtain ⟨rfl, hload⟩ := hloaded
      exact loadFromDB_timed hrows hload)
    (fun _ _ _ hI hok hs => step_timed hI hok hs) h

/-- `LoadFromDB` needs a holiday for every stage in use, and no more than that. From rows that are timed, no
state of a run whose overwriting starts and stops leave their events timed divides by zero, then or later. -/
theorem neverDividesByZero_of_reaches (hrows : ∀ row ∈ db.rows, row.eventEntry ≠ 0 → row.RowTimed clock holidays now) :
    ((∃ s, Loaded clock holidays now db s) ↔ ∀ row ∈ db.rows, row.StageKnown holidays) ∧
      ∀ s, Reaches step OverwritesTimed (Loaded clock holidays now db) s → ∀ t, s.clock ≤ t → s.table.Safe t := by
  constructor
  · rw [← loadFromDB_isSome_iff clock holidays now, Option.isSome_iff_exists]
    constructor
    · intro h
      obtain ⟨s, _, hload⟩ := h
      exact ⟨s.table, hload⟩
    · intro h
      obtain ⟨table, hload⟩ := h
      exact ⟨⟨now, table⟩, rfl, hload⟩
  · intro s hs t hle
    exact ((timed_of_reaches hrows hs).mono hle).safe

def universalTime : LocalTime where
  year := fun t => t / 31556952 + 70
  mktime := fun year mon mday hour min =>
    let leap : ℤ := if 2 ≤ mon ∧ year % 4 = 0 ∧ (year % 100 ≠ 0 ∨ (year + 300) % 400 = 0) then 1 else 0
    let day : ℤ := [0, 31, 59, 90, 120, 151, 181, 212, 243, 273, 304, 334].getD mon 0 + (mday - 1) + leap
    min * 60 + hour * 3600 + day * 86400 + (year - 70) * 31536000 + (year - 69) / 4 * 86400 -
      (year - 1) / 100 * 86400 + (year + 299) / 400 * 86400

def newYearWeek : HolidaysEntry where
  duration := fun i => if i = 0 then 168 else 0
  date := fun i => if i = 0 then 10 <<< 24 else 0
  looping := 0
  calendarFilterType := 1

def sampleRows : GameEventDB where
  rows := [⟨1, 1262300000, 1893456000, 1440, 60, 0, 0, 0⟩, ⟨2, 1262300000, 1893456000, 525600, 1440, 7, 0, 1⟩]

def sampleHolidays (id : ℕ) : Option HolidaysEntry := if id = 7 then some newYearWeek else none

theorem neverDividesByZero_of_reaches_sample :
    (∃ s, Loaded universalTime sampleHolidays 1262310000 sampleRows s) ∧
      ∀ s, Reaches step OverwritesTimed (Loaded universalTime sampleHolidays 1262310000 sampleRows) s →
        ∀ t, s.clock ≤ t → s.table.Safe t := by
  have hrows : ∀ row ∈ sampleRows.rows, row.eventEntry ≠ 0 →
      row.RowTimed universalTime sampleHolidays 1262310000 := by
    intro row hmem _
    cases hmem with
    | head => exact .inl (by decide)
    | tail _ hmem =>
      obtain rfl := List.mem_singleton.mp hmem
      exact .inl (by decide)
  obtain ⟨hloads, hsafe⟩ := neverDividesByZero_of_reaches hrows
  exact ⟨hloads.mpr (by decide), hsafe⟩

theorem rows_unsafe :
    (¬ ∀ (clock : LocalTime) (holidays : ℕ → Option HolidaysEntry) (now : ℤ) (db : GameEventDB),
      ∃ s, Loaded clock holidays now db s) ∧
    ¬ ∀ (clock : LocalTime) (holidays : ℕ → Option HolidaysEntry) (now : ℤ) (db : GameEventDB) (s : EventSystem),
      Reaches step anyStep (Loaded clock holidays now db) s → ∀ t, s.clock ≤ t → s.table.Safe t := by
  constructor
  · intro h
    obtain ⟨s, _, hload⟩ :=
      h universalTime sampleHolidays 1262310000 { rows := [⟨1, 1262300000, 1893456000, 1440, 60, 0, 0, 1⟩] }
    exact nomatch hload
  · intro h
    let noPeriod : GameEventData := { start := 1262300000, endTime := 1893456000, length := 60 }
    have hsafe := h universalTime sampleHolidays 1262310000
      { rows := [⟨1, 1262300000, 1893456000, 0, 60, 0, 0, 0⟩] } ⟨1262310000, ⟨[{}, noPeriod], ∅⟩⟩
      (.start ⟨rfl, rfl⟩) 1262310000 le_rfl
    exact nomatch (hsafe.1 1).2

end EventSystem

end HysteriaCore.Events
