import HysteriaCore.Lib.Runs
import HysteriaCore.Lib.Words
import Mathlib.Data.Finset.Basic
import Mathlib.Data.Rat.Defs

/-!
# The timer of game events

`CheckOneGameEvent` says whether an event runs, `NextCheck` in how many seconds it has to be looked
at again. `Update` acts on the first and returns the least of the second, one second added. Each
function reads the clock once here, `%` by zero has no value, and times are integers. What starting
and stopping does to spawns, quests and scripts is left out.
-/

namespace HysteriaCore.Events
open Lib

inductive GameEventState where
  | normal
  | worldInactive
  | worldConditions
  | worldNextphase
  | worldFinished
  | internal
  /-- A value of the column without a name; every `switch` treats it in its `default`. -/
  | unnamed (value : ℕ)
deriving DecidableEq

def GameEventState.ofUInt8 : ℕ → GameEventState
  | 0 => .normal
  | 1 => .worldInactive
  | 2 => .worldConditions
  | 3 => .worldNextphase
  | 4 => .worldFinished
  | 5 => .internal
  | value => .unnamed value

structure GameEventFinishCondition where
  reqNum : ℚ
  done : ℚ
deriving DecidableEq

structure GameEventData where
  start : ℤ := 1
  endTime : ℤ := 0
  nextstart : ℤ := 0
  occurence : ℕ := 0
  length : ℕ := 0
  holidayId : ℕ := 0
  holidayStage : ℕ := 0
  state : GameEventState := .normal
  conditions : List (ℕ × GameEventFinishCondition) := []
  prerequisiteEvents : List ℕ := []
deriving DecidableEq

def minute : ℕ := 60

def maxGeCheckDelay : ℕ := 86400

namespace GameEventData
variable (now : ℤ) (e : GameEventData)

def isValid : Bool := decide (0 < e.length ∨ e.state ≠ .normal)

def period : ℕ := u32 (e.occurence * minute)

def lengthSeconds : ℕ := u32 (e.length * minute)

def phase : Option ℤ := if e.period = 0 then none else some ((now - e.start) % e.period)

def serverwide : Bool := decide (e.state ≠ .normal ∧ e.state ≠ .internal)

def inWindow : Option Bool :=
  if e.start < now ∧ now < e.endTime then (e.phase now).map fun φ : ℤ => decide (φ < e.lengthSeconds)
  else some false

def phaseDelay (φ : ℤ) : ℤ := if φ < e.lengthSeconds then e.lengthSeconds - φ else e.period - φ

def nextCheck : Option ℕ :=
  if (e.state = .worldNextphase ∨ e.state = .worldFinished) ∧ now ≤ e.nextstart then
    some (u32 (e.nextstart - now).toNat)
  else if e.state = .worldConditions then
    some (if e.length ≠ 0 then e.lengthSeconds else maxGeCheckDelay)
  else if e.endTime < now then some maxGeCheckDelay
  else if now < e.start then some (u32 (e.start - now).toNat)
  else (e.phase now).map fun φ : ℤ =>
    if e.endTime < now + e.phaseDelay φ then u32 (e.endTime - now).toNat else (e.phaseDelay φ).toNat

def checkConditions : Bool × GameEventData :=
  if e.conditions.any fun c => decide (c.2.done < c.2.reqNum) then (false, e)
  else (true, { e with
    state := .worldNextphase
    nextstart := if e.nextstart = 0 then now + e.lengthSeconds else e.nextstart })

end GameEventData

structure GameEventTable where
  events : List GameEventData
  active : Finset ℕ

namespace GameEventTable
variable (now : ℤ) (table : GameEventTable) (entry : ℕ)

def event : GameEventData := (table.events[entry]?).getD {}

def setEvent (e : GameEventData) : GameEventTable := { table with events := table.events.set entry e }

def prerequisitesMet (e : GameEventData) : Bool :=
  (e.prerequisiteEvents.all fun p =>
    decide (((table.event p).state = .worldNextphase ∨ (table.event p).state = .worldFinished) ∧
      (table.event p).nextstart ≤ now)) && !e.prerequisiteEvents.isEmpty

def checkOneGameEvent : Option Bool :=
  match (table.event entry).state with
  | .worldConditions => some true
  | .worldNextphase => some true
  | .worldFinished => some false
  | .internal => some false
  | .worldInactive => some (table.prerequisitesMet now (table.event entry))
  | .normal => (table.event entry).inWindow now
  | .unnamed _ => (table.event entry).inWindow now

def nextCheck : Option ℕ := (table.event entry).nextCheck now

/-- What `StartEvent` does with `overwrite` to an event that is not a world event. -/
def overwriteStart (e : GameEventData) : GameEventData :=
  { e with start := now, endTime := if e.endTime ≤ now then now + e.length else e.endTime }

def startEvent (overwrite : Bool) : Bool × GameEventTable :=
  let e := table.event entry
  let table := { table with active := insert entry table.active }
  if e.serverwide then
    let e := if e.state = .worldInactive then { e with state := .worldConditions } else e
    ((e.checkConditions now).1, table.setEvent entry (e.checkConditions now).2)
  else (false, if overwrite then table.setEvent entry (overwriteStart now e) else table)

/-- What `StopEvent` does with `overwrite` to an event that is not a world event. -/
def overwriteStop (e : GameEventData) : GameEventData :=
  let start := now - e.lengthSeconds
  { e with start := start, endTime := if e.endTime ≤ start then start + e.length else e.endTime }

def resetWorldEvent (e : GameEventData) : GameEventData :=
  { e with
    nextstart := 0
    state := .worldInactive
    conditions := e.conditions.map fun c => (c.1, { c.2 with done := 0 }) }

def stopEvent (overwrite : Bool) : GameEventTable :=
  let e := table.event entry
  let table := { table with active := table.active.erase entry }
  if overwrite ∧ ¬ e.serverwide then table.setEvent entry (overwriteStop now e)
  else if e.serverwide ∧ (overwrite ∨ e.state ≠ .worldFinished) then table.setEvent entry (resetWorldEvent e)
  else table

structure Pass where
  table : GameEventTable
  activate : List ℕ
  deactivate : List ℕ
  nextEventDelay : ℕ

def Pass.queue (p : Pass) (running : Bool) : Pass :=
  if running then
    if entry ∈ p.table.active then p else { p with activate := p.activate ++ [entry] }
  else if entry ∈ p.table.active ∧ (p.table.event entry).state ≠ .internal then
    { p with deactivate := p.deactivate ++ [entry] }
  else p

def Pass.delay (p : Pass) : Option Pass :=
  (p.table.nextCheck now entry).map fun calcDelay =>
    { p with nextEventDelay := if calcDelay < p.nextEventDelay then calcDelay else p.nextEventDelay }

def Pass.finish (p : Pass) : Pass :=
  { p with
    table := p.table.setEvent entry { p.table.event entry with state := .worldFinished, nextstart := 0 }
    deactivate := if entry ∈ p.table.active then p.deactivate ++ [entry] else p.deactivate }

def checkEvent (p : Pass) (itr : ℕ) : Option Pass :=
  (p.table.checkOneGameEvent now itr).bind fun running =>
    let e := p.table.event itr
    if running ∧ e.state = .worldNextphase ∧ e.nextstart ≤ now then some (p.finish itr)
    else if running ∧ e.state = .worldConditions then
      Pass.delay now itr (Pass.queue itr
        { p with table := p.table.setEvent itr (e.checkConditions now).2 } running)
    else Pass.delay now itr (p.queue itr running)

def activateQueue (queue : List ℕ) (s : GameEventTable × ℕ) : GameEventTable × ℕ :=
  queue.foldl (fun s id =>
    ((s.1.startEvent now id false).2, if (s.1.startEvent now id false).1 then 0 else s.2)) s

def deactivateQueue (queue : List ℕ) (table : GameEventTable) : GameEventTable :=
  queue.foldl (fun table id => table.stopEvent now id false) table

def update : Option (GameEventTable × ℕ) :=
  ((List.range' 1 (table.events.length - 1)).foldlM (checkEvent now) ⟨table, [], [], maxGeCheckDelay⟩).map
    fun p =>
      let s := activateQueue now p.activate (p.table, p.nextEventDelay)
      (deactivateQueue now p.deactivate s.1, u32 ((s.2 + 1) * 1000))

end GameEventTable

/-! ### Between two checks -/

variable {delay : ℕ}

namespace GameEventData
variable {now t : ℤ} {e : GameEventData}

theorem phase_of_period (hperiod : e.period ≠ 0) : e.phase now = some ((now - e.start) % e.period) :=
  if_neg hperiod

theorem phase_bounds (now : ℤ) (hperiod : e.period ≠ 0) :
    0 ≤ (now - e.start) % (e.period : ℤ) ∧ (now - e.start) % (e.period : ℤ) < e.period :=
  ⟨Int.emod_nonneg _ (by omega), Int.emod_lt_of_pos _ (by omega)⟩

theorem phase_advance (hle : now ≤ t) (hlt : (now - e.start) % (e.period : ℤ) + (t - now) < e.period) :
    (t - e.start) % (e.period : ℤ) = (now - e.start) % (e.period : ℤ) + (t - now) := by
  have hperiod : (e.period : ℤ) ≠ 0 ∨ (e.period : ℤ) = 0 := by omega
  cases hperiod with
  | inl hne =>
    have hnonneg := Int.emod_nonneg (now - e.start) hne
    have hsplit : t - e.start = now - e.start + (t - now) := by omega
    rw [hsplit, ← Int.emod_add_emod, Int.emod_eq_of_lt (by omega) hlt]
  | inr hzero =>
    rw [hzero, Int.emod_zero, Int.emod_zero]
    omega

theorem inWindow_of_le_start (h : now ≤ e.start) : e.inWindow now = some false :=
  if_neg fun hin => by omega

theorem inWindow_of_endTime_le (h : e.endTime ≤ now) : e.inWindow now = some false :=
  if_neg fun hin => by omega

theorem inWindow_of_period (hperiod : e.period ≠ 0) :
    e.inWindow now = some (decide (e.start < now ∧ now < e.endTime ∧
      (now - e.start) % (e.period : ℤ) < e.lengthSeconds)) := by
  unfold inWindow
  rw [phase_of_period hperiod]
  by_cases hin : e.start < now ∧ now < e.endTime
  · simp [hin]
  · rw [if_neg hin]
    have hnot : ¬ (e.start < now ∧ now < e.endTime ∧ (now - e.start) % (e.period : ℤ) < e.lengthSeconds) := by
      omega
    simp only [hnot, decide_false]

section Normal
variable (hnormal : e.state = .normal)
include hnormal

theorem nextCheck_of_over (h : e.endTime < now) : e.nextCheck now = some maxGeCheckDelay := by
  simp [nextCheck, hnormal, h]

theorem nextCheck_of_ahead (hend : now ≤ e.endTime) (h : now < e.start) :
    e.nextCheck now = some (u32 (e.start - now).toNat) := by
  have hnot : ¬ e.endTime < now := by omega
  simp [nextCheck, hnormal, h, hnot]

theorem nextCheck_of_within (hend : now ≤ e.endTime) (h : e.start ≤ now) :
    e.nextCheck now = (e.phase now).map fun φ =>
      if e.endTime < now + e.phaseDelay φ then u32 (e.endTime - now).toNat else (e.phaseDelay φ).toNat := by
  have hover : ¬ e.endTime < now := by omega
  have hahead : ¬ now < e.start := by omega
  simp [nextCheck, hnormal, hover, hahead]

theorem nextCheck_le (hperiod : e.period ≠ 0) (hend : now ≤ e.endTime) (h : e.start ≤ now)
    (hdelay : e.nextCheck now = some delay) :
    now + delay ≤ e.endTime ∧ (delay : ℤ) ≤ e.phaseDelay ((now - e.start) % e.period) := by
  rw [nextCheck_of_within hnormal hend h, phase_of_period hperiod, Option.map_some, Option.some.injEq] at hdelay
  obtain ⟨hnonneg, hlt⟩ := phase_bounds now hperiod
  have hpos : 0 < e.phaseDelay ((now - e.start) % e.period) := by
    unfold phaseDelay
    split <;> omega
  split at hdelay
  · have hmod : u32 (e.endTime - now).toNat ≤ (e.endTime - now).toNat := Nat.mod_le _ _
    omega
  · omega

end Normal

theorem inWindow_until_nextCheck (hnormal : e.state = .normal) (hperiod : e.period ≠ 0)
    (hstart : e.start < now) (hend : now ≤ e.endTime) (hdelay : e.nextCheck now = some delay)
    (hle : now ≤ t) (hlt : t + 1 ≤ now + delay) : e.inWindow t = e.inWindow now := by
  obtain ⟨hwindow, hphase⟩ := nextCheck_le hnormal hperiod hend hstart.le hdelay
  have hnow := phase_bounds now hperiod
  have hthen := phase_bounds t hperiod
  have hsame : (t - e.start) % (e.period : ℤ) < e.lengthSeconds ↔
      (now - e.start) % (e.period : ℤ) < e.lengthSeconds := by
    unfold phaseDelay at hphase
    by_cases hlong : e.period ≤ e.lengthSeconds
    · omega
    · -- a phase shorter than the period ends before the phase starts over
      have hadvance := phase_advance (e := e) hle (by split at hphase <;> omega)
      split at hphase <;> omega
  rw [inWindow_of_period hperiod, inWindow_of_period hperiod]
  congr 2
  rw [hsame, eq_iff_iff]
  omega

theorem u32_minutes_eq_zero (n : ℕ) : u32 (n * minute) = 0 ↔ 2 ^ 30 ∣ n := by
  unfold u32 minute
  omega

theorem four_le_u32_minutes {n : ℕ} (h : ¬ 2 ^ 30 ∣ n) : 4 ≤ u32 (n * minute) := by
  have hne := mt (u32_minutes_eq_zero n).mp h
  unfold u32 minute at hne ⊢
  omega

/-- The moments at which the timer of a normal event is right: outside its window, or within it, with a
period, but not at the very second of a start that has a second after it to run. -/
def Noticed (now : ℤ) (e : GameEventData) : Prop :=
  e.endTime < now ∨ now < e.start ∨
    ¬ 2 ^ 30 ∣ e.occurence ∧ ¬ (now = e.start ∧ ¬ 2 ^ 30 ∣ e.length ∧ e.start + 2 ≤ e.endTime)

instance (now : ℤ) (e : GameEventData) : Decidable (Noticed now e) :=
  inferInstanceAs (Decidable (_ ∨ _ ∨ _))

def Unchanged (now : ℤ) (e : GameEventData) : Prop :=
  ∃ running delay, e.inWindow now = some running ∧ e.nextCheck now = some delay ∧
    ∀ t, now ≤ t → t + 1 ≤ now + delay → e.inWindow t = some running

theorem unchanged_of_over (hnormal : e.state = .normal) (h : e.endTime < now) : Unchanged now e :=
  ⟨false, maxGeCheckDelay, inWindow_of_endTime_le h.le, nextCheck_of_over hnormal h,
    fun _ hle _ => inWindow_of_endTime_le (by omega)⟩

theorem unchanged_of_ahead (hnormal : e.state = .normal) (hend : now ≤ e.endTime) (h : now < e.start) :
    Unchanged now e := by
  have hmod : u32 (e.start - now).toNat ≤ (e.start - now).toNat := Nat.mod_le _ _
  exact ⟨false, u32 (e.start - now).toNat, inWindow_of_le_start h.le, nextCheck_of_ahead hnormal hend h,
    fun t _ hlt => inWindow_of_le_start (by omega)⟩

theorem unchanged_of_within (hnormal : e.state = .normal) (hperiod : e.period ≠ 0) (hend : now ≤ e.endTime)
    (h : e.start < now) : Unchanged now e := by
  have hdelay := nextCheck_of_within hnormal hend h.le
  rw [phase_of_period hperiod, Option.map_some] at hdelay
  exact ⟨_, _, inWindow_of_period hperiod, hdelay, fun t hle hlt =>
    (inWindow_until_nextCheck hnormal hperiod h hend hdelay hle hlt).trans (inWindow_of_period hperiod)⟩

theorem unchanged_at_start_iff (hnormal : e.state = .normal) (hperiod : 4 ≤ e.period) (hend : e.start ≤ e.endTime)
    (hlength : e.lengthSeconds = 0 ∨ 4 ≤ e.lengthSeconds) :
    Unchanged e.start e ↔ ¬ (e.lengthSeconds ≠ 0 ∧ e.start + 2 ≤ e.endTime) := by
  have hne : e.period ≠ 0 := by omega
  have hphase : (e.start - e.start) % (e.period : ℤ) = 0 := by
    rw [Int.sub_self, Int.zero_emod]
  have hdelay := nextCheck_of_within hnormal hend le_rfl
  rw [phase_of_period hne, Option.map_some, hphase] at hdelay
  have hstart : e.inWindow e.start = some false := inWindow_of_le_start le_rfl
  constructor
  · intro hun hruns
    obtain ⟨running, delay, hnow, hnext, hkeeps⟩ := hun
    obtain rfl : running = false := Option.some.inj (hnow.symm.trans hstart)
    have hlen : 4 ≤ e.lengthSeconds := by omega
    have htwo : (2 : ℤ) ≤ delay := by
      rw [hdelay, Option.some.injEq] at hnext
      have hpd : e.phaseDelay 0 = e.lengthSeconds := by
        rw [phaseDelay, if_pos (by omega), Int.sub_zero]
      rw [hpd] at hnext
      split at hnext
      · have hmod : u32 (e.endTime - e.start).toNat = (e.endTime - e.start).toNat := by
          have hword : e.lengthSeconds < 2 ^ 32 := u32_lt _
          exact u32_of_lt (by omega)
        omega
      · omega
    have hafter := hkeeps (e.start + 1) (by omega) (by omega)
    have hphase' : (e.start + 1 - e.start) % (e.period : ℤ) = 1 := by
      rw [show e.start + 1 - e.start = 1 by omega, Int.emod_eq_of_lt (by omega) (by omega)]
    rw [inWindow_of_period hne, hphase'] at hafter
    have hrun : e.start < e.start + 1 ∧ e.start + 1 < e.endTime ∧ (1 : ℤ) < e.lengthSeconds := by omega
    simp only [hrun, and_self, decide_true, Option.some.injEq, reduceCtorEq] at hafter
  · intro hnot
    refine ⟨false, _, hstart, hdelay, fun t hle hlt => ?_⟩
    by_cases hlen : e.lengthSeconds = 0
    · have hnonneg := (phase_bounds t hne).1
      have hnever : ¬ (e.start < t ∧ t < e.endTime ∧ (t - e.start) % (e.period : ℤ) < e.lengthSeconds) := by
        omega
      rw [inWindow_of_period hne]
      simp only [hnever, decide_false]
    · have hle' := (nextCheck_le hnormal hne hend le_rfl hdelay).1
      exact inWindow_of_le_start (by omega)

theorem unchanged_iff (hnormal : e.state = .normal) : Unchanged now e ↔ Noticed now e := by
  unfold Noticed
  by_cases hover : e.endTime < now
  · exact iff_of_true (unchanged_of_over hnormal hover) (.inl hover)
  have hend : now ≤ e.endTime := by omega
  by_cases hahead : now < e.start
  · exact iff_of_true (unchanged_of_ahead hnormal hend hahead) (.inr (.inl hahead))
  have hstart : e.start ≤ now := by omega
  simp only [hover, hahead, false_or]
  by_cases hocc : 2 ^ 30 ∣ e.occurence
  · -- without a period, `NextCheck` divides by zero
    have hzero : e.period = 0 := (u32_minutes_eq_zero _).mpr hocc
    constructor
    · intro hun
      obtain ⟨_, _, _, hnext, _⟩ := hun
      rw [nextCheck_of_within hnormal hend hstart, phase, if_pos hzero] at hnext
      exact nomatch hnext
    · intro hnot
      exact absurd hocc hnot.1
  have hperiod : 4 ≤ e.period := four_le_u32_minutes hocc
  by_cases heq : now = e.start
  · subst heq
    have hlength : e.lengthSeconds = 0 ∨ 4 ≤ e.lengthSeconds := by
      by_cases hlen : 2 ^ 30 ∣ e.length
      · exact .inl ((u32_minutes_eq_zero _).mpr hlen)
      · exact .inr (four_le_u32_minutes hlen)
    rw [unchanged_at_start_iff hnormal hperiod hend hlength]
    simp only [hocc, not_false_eq_true, true_and, ← u32_minutes_eq_zero e.length, lengthSeconds, ne_eq]
  · exact iff_of_true (unchanged_of_within hnormal (by omega) hend (by omega)) ⟨hocc, fun h => heq h.1⟩

end GameEventData

namespace GameEventTable
variable {now t : ℤ} {table table' : GameEventTable} {i itr : ℕ} {e : GameEventData} {p q r : Pass}

theorem event_of_getElem (hi : table.events[i]? = some e) : table.event i = e := by
  rw [event, hi, Option.getD_some]

theorem checkOneGameEvent_of_normal (hi : table.events[i]? = some e) (hnormal : e.state = .normal) :
    table.checkOneGameEvent now i = e.inWindow now := by
  rw [checkOneGameEvent, event_of_getElem hi, hnormal]

theorem setEvent_events_of_ne (hne : itr ≠ i) (e : GameEventData) :
    (table.setEvent itr e).events[i]? = table.events[i]? := List.getElem?_set_ne hne

/-! ### One run of `Update` -/

/-- What a step of the loop about another event leaves as it is. -/
structure Keeps (i : ℕ) (p q : Pass) : Prop where
  event : q.table.events[i]? = p.table.events[i]?
  active : q.table.active = p.table.active
  activate : i ∈ q.activate ↔ i ∈ p.activate
  deactivate : i ∈ q.deactivate ↔ i ∈ p.deactivate
  delay : q.nextEventDelay ≤ p.nextEventDelay

theorem Keeps.refl (i : ℕ) (p : Pass) : Keeps i p p := ⟨rfl, rfl, Iff.rfl, Iff.rfl, le_rfl⟩

theorem Keeps.trans (h : Keeps i p q) (h' : Keeps i q r) : Keeps i p r :=
  ⟨h'.event.trans h.event, h'.active.trans h.active, h'.activate.trans h.activate,
    h'.deactivate.trans h.deactivate, h'.delay.trans h.delay⟩

theorem keeps_setEvent (hne : itr ≠ i) (p : Pass) (e : GameEventData) :
    Keeps i p { p with table := p.table.setEvent itr e } :=
  ⟨setEvent_events_of_ne hne e, rfl, Iff.rfl, Iff.rfl, le_rfl⟩

theorem mem_append_of_ne {ns : List ℕ} (hne : itr ≠ i) : i ∈ ns ++ [itr] ↔ i ∈ ns := by
  rw [List.mem_append, List.mem_singleton]
  exact or_iff_left fun heq => hne heq.symm

theorem keeps_queue (hne : itr ≠ i) (p : Pass) (running : Bool) : Keeps i p (p.queue itr running) := by
  unfold Pass.queue
  split
  · split
    · exact Keeps.refl i p
    · exact ⟨rfl, rfl, mem_append_of_ne hne, Iff.rfl, le_rfl⟩
  · split
    · exact ⟨rfl, rfl, Iff.rfl, mem_append_of_ne hne, le_rfl⟩
    · exact Keeps.refl i p

theorem keeps_finish (hne : itr ≠ i) (p : Pass) : Keeps i p (p.finish itr) := by
  have hset := keeps_setEvent hne p { p.table.event itr with state := .worldFinished, nextstart := 0 }
  refine ⟨hset.event, hset.active, Iff.rfl, ?_, le_rfl⟩
  unfold Pass.finish
  split
  · exact mem_append_of_ne hne
  · exact Iff.rfl

theorem delay_spec (h : Pass.delay now itr p = some q) :
    ∃ calcDelay, p.table.nextCheck now itr = some calcDelay ∧ q.table = p.table ∧
      q.activate = p.activate ∧ q.deactivate = p.deactivate ∧ q.nextEventDelay ≤ p.nextEventDelay ∧
      q.nextEventDelay ≤ calcDelay := by
  obtain ⟨calcDelay, hnext, rfl⟩ := Option.map_eq_some_iff.mp h
  refine ⟨calcDelay, hnext, rfl, rfl, rfl, ?_, ?_⟩
  · show (if calcDelay < p.nextEventDelay then calcDelay else p.nextEventDelay) ≤ p.nextEventDelay
    split <;> omega
  · show (if calcDelay < p.nextEventDelay then calcDelay else p.nextEventDelay) ≤ calcDelay
    split <;> omega

theorem keeps_delay (h : Pass.delay now itr p = some q) : Keeps i p q := by
  obtain ⟨_, _, htable, hactivate, hdeactivate, hle, _⟩ := delay_spec h
  exact ⟨by rw [htable], by rw [htable], by rw [hactivate], by rw [hdeactivate], hle⟩

theorem checkEvent_keeps (hne : itr ≠ i) (h : checkEvent now p itr = some q) : Keeps i p q := by
  obtain ⟨running, _, h⟩ := Option.bind_eq_some_iff.mp h
  simp only at h
  split at h
  · obtain rfl := Option.some.inj h
    exact keeps_finish hne p
  · split at h
    · exact ((keeps_setEvent hne p _).trans (keeps_queue hne _ running)).trans (keeps_delay h)
    · exact (keeps_queue hne p running).trans (keeps_delay h)

theorem checkEvents_keep {itrs : List ℕ} (hnot : i ∉ itrs) (h : itrs.foldlM (checkEvent now) p = some q) :
    Keeps i p q := by
  induction itrs generalizing p with
  | nil =>
    obtain rfl := Option.some.inj h
    exact Keeps.refl i p
  | cons itr itrs ih =>
    obtain ⟨s, hs, hrest⟩ := Option.bind_eq_some_iff.mp h
    have hkeeps := checkEvent_keeps (i := i) (fun heq => hnot (heq ▸ List.mem_cons_self)) hs
    exact hkeeps.trans (ih (fun hmem => hnot (List.mem_cons_of_mem _ hmem)) hrest)

structure Queued (i : ℕ) (running : Bool) (delay : ℕ) (p : Pass) : Prop where
  activate : i ∈ p.activate ↔ running = true ∧ i ∉ p.table.active
  deactivate : i ∈ p.deactivate ↔ running = false ∧ i ∈ p.table.active
  delay : p.nextEventDelay ≤ delay

theorem Queued.of_keeps {running : Bool} (h : Queued i running delay p) (hkeeps : Keeps i p q) :
    Queued i running delay q := by
  refine ⟨?_, ?_, hkeeps.delay.trans h.delay⟩
  · rw [hkeeps.activate, hkeeps.active, h.activate]
  · rw [hkeeps.deactivate, hkeeps.active, h.deactivate]

theorem queue_queued (running : Bool) (hi : p.table.events[i]? = some e) (hnormal : e.state = .normal)
    (ha : i ∉ p.activate) (hd : i ∉ p.deactivate) :
    Queued i running p.nextEventDelay (p.queue i running) ∧ (p.queue i running).table = p.table := by
  have hstate : (p.table.event i).state ≠ .internal := by
    rw [event_of_getElem hi, hnormal]
    exact nofun
  unfold Pass.queue
  cases running with
  | true =>
    by_cases hmem : i ∈ p.table.active
    · simp only [hmem, if_true, and_true]
      exact ⟨iff_of_false ha fun h => h.2 hmem, iff_of_false hd (fun h => nomatch h.1), le_rfl⟩
    · simp only [hmem, if_true, if_false, and_true]
      exact ⟨iff_of_true (by simp) ⟨rfl, hmem⟩, iff_of_false hd (fun h => nomatch h.1), le_rfl⟩
  | false =>
    by_cases hmem : i ∈ p.table.active
    · simp only [hmem, hstate, Bool.false_eq_true, if_false, ne_eq, not_false_eq_true, and_self, if_true, and_true]
      exact ⟨iff_of_false ha (fun h => nomatch h.1), iff_of_true (by simp) ⟨rfl, hmem⟩, le_rfl⟩
    · simp only [hmem, Bool.false_eq_true, if_false, false_and, and_true]
      exact ⟨iff_of_false ha (fun h => nomatch h.1), iff_of_false hd fun h => hmem h.2, le_rfl⟩

theorem checkEvent_own (hi : p.table.events[i]? = some e) (hnormal : e.state = .normal) (ha : i ∉ p.activate)
    (hd : i ∉ p.deactivate) (h : checkEvent now p i = some q) :
    ∃ running delay, e.inWindow now = some running ∧ e.nextCheck now = some delay ∧
      Queued i running delay q ∧ q.table = p.table ∧ q.nextEventDelay ≤ p.nextEventDelay := by
  obtain ⟨running, hrunning, h⟩ := Option.bind_eq_some_iff.mp h
  rw [checkOneGameEvent_of_normal hi hnormal] at hrunning
  have hevent := event_of_getElem hi
  simp only [hevent, hnormal, reduceCtorEq, false_and, and_false, if_false] at h
  obtain ⟨hqueued, htable⟩ := queue_queued running hi hnormal ha hd
  obtain ⟨delay, hdelay, htable', _, _, _, hle⟩ := delay_spec h
  rw [htable, nextCheck, hevent] at hdelay
  have hkeeps := hqueued.of_keeps (keeps_delay h)
  exact ⟨running, delay, hrunning, hdelay, ⟨hkeeps.activate, hkeeps.deactivate, hle⟩, htable'.trans htable,
    hkeeps.delay⟩

theorem checkEvents_spec {delay₀ : ℕ} (hi : table.events[i]? = some e) (hpos : 1 ≤ i) (hnormal : e.state = .normal)
    (h : (List.range' 1 (table.events.length - 1)).foldlM (checkEvent now) ⟨table, [], [], delay₀⟩ = some q) :
    ∃ running delay, e.inWindow now = some running ∧ e.nextCheck now = some delay ∧
      Queued i running delay q ∧ q.table.events[i]? = some e ∧ q.nextEventDelay ≤ delay₀ := by
  have hlt : i < table.events.length := (List.getElem?_eq_some_iff.mp hi).1
  have hmem : i ∈ List.range' 1 (table.events.length - 1) := List.mem_range'_1.mpr (by omega)
  obtain ⟨before, after, hsplit⟩ := List.append_of_mem hmem
  have hnodup := List.nodup_range' (s := 1) (n := table.events.length - 1)
  rw [hsplit] at hnodup h
  obtain ⟨hbefore, hafter⟩ : i ∉ before ∧ i ∉ after := by
    rw [List.nodup_middle, List.nodup_cons, List.mem_append, not_or] at hnodup
    exact hnodup.1
  rw [List.foldlM_append] at h
  obtain ⟨p, hp, h⟩ := Option.bind_eq_some_iff.mp h
  obtain ⟨r, hr, h⟩ := Option.bind_eq_some_iff.mp h
  have hpre := checkEvents_keep hbefore hp
  have hpost := checkEvents_keep hafter h
  have hev : p.table.events[i]? = some e := hpre.event.trans hi
  obtain ⟨running, delay, hrunning, hdelay, hqueued, htable, hle⟩ := checkEvent_own hev hnormal
    (fun hin => nomatch hpre.activate.mp hin) (fun hin => nomatch hpre.deactivate.mp hin) hr
  refine ⟨running, delay, hrunning, hdelay, hqueued.of_keeps hpost, ?_, ?_⟩
  · rw [hpost.event, htable, hev]
  · exact hpost.delay.trans (hle.trans hpre.delay)

theorem startEvent_spec (now : ℤ) (id : ℕ) (hi : table.events[i]? = some e) (hnormal : e.state = .normal) :
    (table.startEvent now id false).2.events[i]? = some e ∧
      (i ∈ (table.startEvent now id false).2.active ↔ i = id ∨ i ∈ table.active) := by
  unfold startEvent
  by_cases hworld : (table.event id).serverwide
  · have hne : id ≠ i := by
      intro heq
      subst heq
      rw [event_of_getElem hi, GameEventData.serverwide, hnormal] at hworld
      exact absurd hworld (by decide)
    simp only [hworld, if_true]
    exact ⟨(setEvent_events_of_ne hne _).trans hi, Finset.mem_insert⟩
  · simp only [hworld, Bool.false_eq_true, if_false]
    exact ⟨hi, Finset.mem_insert⟩

theorem activateQueue_spec (now : ℤ) (queue : List ℕ) (delay : ℕ) (hi : table.events[i]? = some e) (hnormal : e.state = .normal) :
    (activateQueue now queue (table, delay)).1.events[i]? = some e ∧
      (i ∈ (activateQueue now queue (table, delay)).1.active ↔ i ∈ queue ∨ i ∈ table.active) ∧
      (activateQueue now queue (table, delay)).2 ≤ delay := by
  induction queue generalizing table delay with
  | nil => exact ⟨hi, by simp [activateQueue], le_rfl⟩
  | cons id queue ih =>
    obtain ⟨hev, hactive⟩ := startEvent_spec now id hi hnormal
    have hrest := ih (if (table.startEvent now id false).1 then 0 else delay) hev
    have hle : (if (table.startEvent now id false).1 then 0 else delay) ≤ delay := by split <;> omega
    refine ⟨hrest.1, hrest.2.1.trans ?_, hrest.2.2.trans hle⟩
    rw [hactive, List.mem_cons]
    tauto

theorem stopEvent_spec (now : ℤ) (id : ℕ) (hi : table.events[i]? = some e) (hnormal : e.state = .normal) :
    (table.stopEvent now id false).events[i]? = some e ∧
      (i ∈ (table.stopEvent now id false).active ↔ i ≠ id ∧ i ∈ table.active) := by
  unfold stopEvent
  simp only [Bool.false_eq_true, false_and, false_or, if_false]
  split
  · rename_i hworld
    have hne : id ≠ i := by
      intro heq
      subst heq
      rw [event_of_getElem hi, GameEventData.serverwide, hnormal] at hworld
      exact absurd hworld.1 (by decide)
    exact ⟨(setEvent_events_of_ne hne _).trans hi, Finset.mem_erase⟩
  · exact ⟨hi, Finset.mem_erase⟩

theorem deactivateQueue_spec (now : ℤ) (queue : List ℕ) (hi : table.events[i]? = some e) (hnormal : e.state = .normal) :
    (deactivateQueue now queue table).events[i]? = some e ∧
      (i ∈ (deactivateQueue now queue table).active ↔ i ∉ queue ∧ i ∈ table.active) := by
  induction queue generalizing table with
  | nil => exact ⟨hi, by simp [deactivateQueue]⟩
  | cons id queue ih =>
    obtain ⟨hev, hactive⟩ := stopEvent_spec now id hi hnormal
    have hrest := ih hev
    refine ⟨hrest.1, hrest.2.trans ?_⟩
    rw [hactive, List.mem_cons]
    tauto

theorem update_spec {ms : ℕ} (hi : table.events[i]? = some e) (hpos : 1 ≤ i) (hnormal : e.state = .normal)
    (h : table.update now = some (table', ms)) :
    ∃ running delay, e.inWindow now = some running ∧ e.nextCheck now = some delay ∧
      table'.events[i]? = some e ∧ (i ∈ table'.active ↔ running = true) ∧ ms / 1000 ≤ delay + 1 := by
  obtain ⟨q, hq, hresult⟩ := Option.map_eq_some_iff.mp h
  obtain ⟨running, delay, hrunning, hdelay, hqueued, hev, hle⟩ := checkEvents_spec hi hpos hnormal hq
  obtain ⟨hev', hactive, hdelay'⟩ :=
    activateQueue_spec now q.activate q.nextEventDelay hev hnormal
  obtain ⟨hev'', hactive'⟩ := deactivateQueue_spec now q.deactivate hev' hnormal
  obtain ⟨rfl, rfl⟩ := Prod.mk.inj hresult
  refine ⟨running, delay, hrunning, hdelay, hev'', ?_, ?_⟩
  · rw [hactive', hactive, hqueued.activate, hqueued.deactivate]
    cases running <;> tauto
  · have hday : (activateQueue now q.activate (q.table, q.nextEventDelay)).2 ≤ maxGeCheckDelay := hdelay'.trans hle
    have hnext := hdelay'.trans hqueued.delay
    rw [maxGeCheckDelay] at hday
    rw [u32_of_lt (by omega)]
    omega

/-- The check of an event keeps its value up to the second before `NextCheck`, and each later change comes at
most a second before the call that `Update` asks for. -/
def MissesNothing (now : ℤ) (table : GameEventTable) (i : ℕ) : Prop :=
  ∃ running delay, table.checkOneGameEvent now i = some running ∧ table.nextCheck now i = some delay ∧
    (∀ t, now ≤ t → t ≤ now + delay - 1 → table.checkOneGameEvent t i = some running) ∧
    ∀ table' ms, table.update now = some (table', ms) →
      (i ∈ table'.active ↔ running = true) ∧
        ∀ t, now ≤ t → table'.checkOneGameEvent t i ≠ some running → now + ms / 1000 ≤ t + 1

/-- The timer of a normal event misses nothing at exactly the moments of `Noticed`. -/
theorem missesNothing_iff (hi : table.events[i]? = some e) (hpos : 1 ≤ i) (hnormal : e.state = .normal) :
    MissesNothing now table i ↔ e.Noticed now := by
  rw [← GameEventData.unchanged_iff hnormal]
  have hnext : table.nextCheck now i = e.nextCheck now := by rw [nextCheck, event_of_getElem hi]
  constructor
  · intro h
    obtain ⟨running, delay, hrunning, hdelay, hkeeps, _⟩ := h
    rw [checkOneGameEvent_of_normal hi hnormal] at hrunning
    rw [hnext] at hdelay
    refine ⟨running, delay, hrunning, hdelay, fun t hle hlt => ?_⟩
    rw [← checkOneGameEvent_of_normal hi hnormal]
    exact hkeeps t hle (by omega)
  · intro h
    obtain ⟨running, delay, hrunning, hdelay, hkeeps⟩ := h
    refine ⟨running, delay, (checkOneGameEvent_of_normal hi hnormal).trans hrunning, hnext.trans hdelay,
      fun t hle hlt => (checkOneGameEvent_of_normal hi hnormal).trans (hkeeps t hle (by omega)), ?_⟩
    intro table' ms hupdate
    obtain ⟨running', delay', hrunning', hdelay', hev, hactive, hms⟩ := update_spec hi hpos hnormal hupdate
    obtain rfl := Option.some.inj (hrunning'.symm.trans hrunning)
    obtain rfl := Option.some.inj (hdelay'.symm.trans hdelay)
    refine ⟨hactive, fun t hle hchange => ?_⟩
    rw [checkOneGameEvent_of_normal hev hnormal] at hchange
    by_contra hlate
    exact hchange (hkeeps t hle (by omega))

def dailyHour : GameEventData := { start := 1000000, endTime := 3592000, occurence := 1440, length := 60 }

theorem missesNothing_dailyHour : MissesNothing 1000600 ⟨[{}, dailyHour], ∅⟩ 1 ∧
    MissesNothing 1007200 ⟨[{}, dailyHour], ∅⟩ 1 :=
  ⟨(missesNothing_iff rfl le_rfl rfl).mpr (by decide), (missesNothing_iff rfl le_rfl rfl).mpr (by decide)⟩

/-- Looked at in the second in which it starts, the event is not running, and is to be looked at again when it
has just ended. -/
theorem start_missed : ¬ ∀ (now : ℤ) (table : GameEventTable) (i : ℕ) (e : GameEventData),
    table.events[i]? = some e → 1 ≤ i → e.state = .normal → 1 ≤ e.occurence → 1 ≤ e.length →
    MissesNothing now table i := by
  intro h
  obtain ⟨running, delay, hrunning, hdelay, hkeeps, _⟩ :=
    h 1000000 ⟨[{}, dailyHour], ∅⟩ 1 dailyHour rfl le_rfl rfl (by decide) (by decide)
  obtain rfl : false = running := Option.some.inj hrunning
  obtain rfl : 3600 = delay := Option.some.inj hdelay
  exact absurd (hkeeps 1000001 (by decide) (by decide)) (by decide)

end GameEventTable

end HysteriaCore.Events
