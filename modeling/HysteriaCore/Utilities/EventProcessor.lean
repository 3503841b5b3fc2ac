import HysteriaCore.Lib.Runs
import Mathlib.Algebra.Ring.Nat
import Mathlib.Data.List.Sort

/-!
# The event processor

`EventProcessor` keeps events in a multimap ordered by their times. `Update` executes those that are
due and `KillAllEvents` aborts them; both call the event's own functions, which may change the map
while it is walked. A step is a call, a turn of a loop, something that the code outside does, or the
end of one of the event's functions.
-/

namespace HysteriaCore.Utilities
open Lib

structure BasicEvent where
  toAbort : Bool
  addTime : ℕ
  execTime : ℕ
  deriving DecidableEq, Repr

structure Entry where
  time : ℕ
  event : ℕ
  node : ℕ
  deriving DecidableEq, Repr

def insertEntry (e : Entry) : List Entry → List Entry
  | [] => [e]
  | x :: l => if e.time < x.time then e :: x :: l else x :: insertEntry e l

/-- Where the processor is: between two calls, at the head of a loop, or inside a function of an
event. -/
inductive Control where
  | idle
  | updating (pTime : ℕ)
  | executing (pTime event : ℕ)
  | aborting (pTime event : ℕ)
  | killing (force : Bool)
  | killAborting (force : Bool) (old : Entry)
  deriving DecidableEq, Repr

namespace Control

def outside : Control → Bool
  | .updating _ | .killing _ => false
  | _ => true

def executed : Control → Option ℕ
  | .executing _ event => some event
  | _ => none

def aborted : Control → Option ℕ
  | .aborting _ event => some event
  | _ => none

def walks : Control → Bool
  | .killing _ | .killAborting _ _ => true
  | _ => false

def forced : Control → Bool
  | .killAborting true _ => true
  | _ => false

def current : Control → Option ℕ
  | .executing _ event | .aborting _ event => some event
  | _ => none

end Control

inductive Reason where
  | returned
  | aborted (deletable : Bool)
  | killed
  deriving DecidableEq, Repr

structure Execution where
  entry : Entry
  execTime : ℕ
  time : ℕ
  toAbort : Bool
  deriving DecidableEq, Repr

/-- The processor, the events, and what has been done with them. `m_events` is `passed ++ ahead`:
while `KillAllEvents` walks, its iterator is at the first entry of `ahead`. -/
structure EventProcessor where
  time : ℕ
  passed : List Entry
  ahead : List Entry
  aborting : Bool
  control : Control
  events : ℕ → BasicEvent
  deletable : ℕ → Bool
  inserted : ℕ
  added : List ℕ
  executed : List Execution
  deleted : List (ℕ × Reason)

inductive Action where
  | addEvent (event eTime : ℕ) (setAddtime : Bool)
  | markAbort (event : ℕ)
  | setDeletable (event : ℕ) (deletable : Bool)
  | update (pTime : ℕ)
  | killAllEvents (force : Bool)
  /-- The next turn of the loop of `Update` or `KillAllEvents`. -/
  | turn
  | back (result : Bool)
  deriving DecidableEq, Repr

namespace EventProcessor

def initial : EventProcessor where
  time := 0
  passed := []
  ahead := []
  aborting := false
  control := .idle
  events := fun _ => ⟨false, 0, 0⟩
  deletable := fun _ => true
  inserted := 0
  added := []
  executed := []
  deleted := []

def entries (s : EventProcessor) : List Entry := s.passed ++ s.ahead

def insert (s : EventProcessor) (e : Entry) : EventProcessor :=
  match s.control, s.ahead with
  | .killAborting _ _, [] => { s with passed := insertEntry e s.passed }
  | .killAborting _ _, next :: _ =>
    if e.time < next.time then { s with passed := insertEntry e s.passed }
    else { s with ahead := insertEntry e s.ahead }
  | _, _ => { s with ahead := insertEntry e s.ahead }

def addEvent (s : EventProcessor) (event eTime : ℕ) (setAddtime : Bool) : EventProcessor :=
  let ev := s.events event
  let ev := { ev with addTime := if setAddtime then s.time else ev.addTime, execTime := eTime }
  insert
    { s with
      events := Function.update s.events event ev
      added := s.added ++ [event]
      inserted := s.inserted + 1 }
    ⟨eTime, event, s.inserted⟩

def markAbort (s : EventProcessor) (event : ℕ) : EventProcessor :=
  { s with events := Function.update s.events event { s.events event with toAbort := true } }

def delete (s : EventProcessor) (event : ℕ) (reason : Reason) : EventProcessor :=
  { s with deleted := s.deleted ++ [(event, reason)] }

def updateTurn (s : EventProcessor) (pTime : ℕ) : EventProcessor :=
  match s.ahead with
  | [] => { s with control := .idle }
  | e :: rest =>
    if s.time < e.time then { s with control := .idle }
    else
      let s := { s with ahead := rest }
      let ev := s.events e.event
      if ev.toAbort then { s with control := .aborting pTime e.event }
      else
        { s with
          executed := s.executed ++ [⟨e, ev.execTime, s.time, ev.toAbort⟩]
          control := .executing pTime e.event }

/-- One turn of `KillAllEvents`, up to the call of `Abort`; the map is cleared behind the loop. -/
def killTurn (s : EventProcessor) (force : Bool) : EventProcessor :=
  match s.ahead with
  | [] =>
    { s with passed := [], ahead := if force then [] else s.passed, control := .idle }
  | e :: rest =>
    { s.markAbort e.event with
      passed := s.passed ++ [e]
      ahead := rest
      control := .killAborting force e }

def killBack (s : EventProcessor) (force : Bool) (old : Entry) : EventProcessor :=
  if force then { s.delete old.event .killed with control := .killing force }
  else if s.deletable old.event then
    { s.delete old.event (.aborted true) with
      passed := s.passed.erase old
      control := .killing force }
  else { s with control := .killing force }

def step (s : EventProcessor) : Action → Option EventProcessor
  | .addEvent event eTime setAddtime =>
    guarded (s.control.outside = true) (s.addEvent event eTime setAddtime)
  | .markAbort event => guarded (s.control.outside = true) (s.markAbort event)
  | .setDeletable event deletable =>
    guarded (s.control.outside = true)
      { s with deletable := Function.update s.deletable event deletable }
  | .update pTime =>
    guarded (s.control = .idle)
      { s with time := (s.time + pTime) % 2 ^ 64, control := .updating pTime }
  | .killAllEvents force =>
    guarded (s.control = .idle) { s with aborting := true, control := .killing force }
  | .turn =>
    match s.control with
    | .updating pTime => some (s.updateTurn pTime)
    | .killing force => some (s.killTurn force)
    | _ => none
  | .back result =>
    match s.control with
    | .executing pTime event =>
      let s := if result then s.delete event .returned else s
      some { s with control := .updating pTime }
    | .aborting pTime event =>
      some { s.delete event (.aborted (s.deletable event)) with control := .updating pTime }
    | .killAborting force old => some (s.killBack force old)
    | _ => none

/-- How the processor may be used: an event is new when it is added, or it is the one that executes
and is added again once, and then it returns false. Times are not in the past. -/
def Allowed (s : EventProcessor) : Action → Prop
  | .addEvent event eTime _ =>
    (s.time ≤ eTime ∧ eTime < 2 ^ 64) ∧
      (event ∉ s.added ∨ s.control.executed = some event ∧ event ∉ s.entries.map Entry.event)
  | .back result =>
    ∀ event ∈ s.control.executed, result = false ↔ event ∈ s.entries.map Entry.event
  | _ => True

instance (s : EventProcessor) : ∀ a, Decidable (s.Allowed a)
  | .addEvent _ _ _ => inferInstanceAs (Decidable (_ ∧ _))
  | .back result =>
    match h : s.control.executed with
    | none => isTrue fun event hevent => by rw [h] at hevent; cases hevent
    | some event =>
      decidable_of_iff (result = false ↔ event ∈ s.entries.map Entry.event) (by simp [Allowed, h])
  | .markAbort _ | .setDeletable _ _ | .update _ | .killAllEvents _ | .turn => isTrue trivial

end EventProcessor

/-! ### The multimap -/

theorem insertEntry_perm (e : Entry) (l : List Entry) : (insertEntry e l).Perm (e :: l) := by
  induction l with
  | nil => exact .refl _
  | cons x l ih =>
    rw [insertEntry]
    split
    · exact .refl _
    · exact (ih.cons x).trans (.swap e x l)

theorem insertEntry_sorted (e : Entry) {l : List Entry} (h : l.Pairwise (·.time ≤ ·.time)) :
    (insertEntry e l).Pairwise (·.time ≤ ·.time) := by
  induction l with
  | nil => exact List.pairwise_singleton _ _
  | cons x l ih =>
    obtain ⟨hx, hl⟩ := List.pairwise_cons.mp h
    rw [insertEntry]
    split
    · rename_i hlt
      refine List.pairwise_cons.mpr ⟨fun y hy => ?_, h⟩
      rcases List.mem_cons.mp hy with rfl | hy
      · exact hlt.le
      · exact hlt.le.trans (hx y hy)
    · rename_i hle
      refine List.pairwise_cons.mpr ⟨fun y hy => ?_, ih hl⟩
      rcases List.mem_cons.mp ((insertEntry_perm e l).mem_iff.mp hy) with rfl | hy
      · exact Nat.le_of_not_lt hle
      · exact hx y hy

theorem insertEntry_append_of_le {e : Entry} {l : List Entry} (h : ∀ x ∈ l, x.time ≤ e.time)
    (l' : List Entry) : insertEntry e (l ++ l') = l ++ insertEntry e l' := by
  induction l with
  | nil => rfl
  | cons x l ih =>
    rw [List.cons_append, insertEntry, if_neg (h x List.mem_cons_self).not_gt,
      ih fun y hy => h y (List.mem_cons_of_mem x hy)]
    rfl

theorem insertEntry_append_of_lt {e next : Entry} (h : e.time < next.time) (l l' : List Entry) :
    insertEntry e (l ++ next :: l') = insertEntry e l ++ next :: l' := by
  induction l with
  | nil => exact if_pos h
  | cons x l ih =>
    rw [List.cons_append, insertEntry, insertEntry]
    split
    · rfl
    · rw [ih]
      rfl

end HysteriaCore.Utilities
