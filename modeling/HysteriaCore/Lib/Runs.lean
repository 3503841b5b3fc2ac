import Mathlib.Data.List.Basic
import Mathlib.Order.Basic

/-!
# Runs of a system with partial steps

A system is a step function `σ → α → Option σ`: `none` says that the event
cannot happen in the state. `Reaches` collects the states of the runs all of
whose steps meet a side condition, `invariant` is the induction over them, and
`replay` executes a concrete list of events.
-/

namespace HysteriaCore.Lib

variable {σ α : Type*}

def guarded (c : Prop) [Decidable c] (s : σ) : Option σ := if c then some s else none

theorem guarded_eq_some {c : Prop} [Decidable c] {s t : σ} : guarded c s = some t ↔ c ∧ s = t := by
  simp [guarded]

def anyStep (_ : σ) (_ : α) : Prop := True

inductive Reaches (step : σ → α → Option σ) (ok : σ → α → Prop) (start : σ → Prop) : σ → Prop where
  | start {s : σ} (h : start s) : Reaches step ok start s
  | next {s t : σ} {a : α} (h : Reaches step ok start s) (hok : ok s a) (hs : step s a = some t) :
      Reaches step ok start t

namespace Reaches

variable {step : σ → α → Option σ} {ok : σ → α → Prop} {start : σ → Prop}

theorem invariant {I : σ → Prop} (h0 : ∀ s, start s → I s)
    (hstep : ∀ s a t, I s → ok s a → step s a = some t → I t) {s : σ}
    (h : Reaches step ok start s) : I s := by
  induction h with
  | start hs => exact h0 _ hs
  | next _ hok hs ih => exact hstep _ _ _ ih hok hs

theorem mono {ok' : σ → α → Prop} (hok : ∀ s a, ok s a → ok' s a) {s : σ}
    (h : Reaches step ok start s) : Reaches step ok' start s := by
  induction h with
  | start hs => exact .start hs
  | next _ h1 hs ih => exact .next ih (hok _ _ h1) hs

end Reaches

def replay (step : σ → α → Option σ) : σ → List α → Option σ
  | s, [] => some s
  | s, a :: as => (step s a).bind fun t => replay step t as

def replayOk (step : σ → α → Option σ) (ok : σ → α → Prop) : σ → List α → Prop
  | _, [] => True
  | s, a :: as => ok s a ∧ ∀ t ∈ step s a, replayOk step ok t as

instance replayOk.decidable (step : σ → α → Option σ) (ok : σ → α → Prop)
    [∀ s a, Decidable (ok s a)] : ∀ s as, Decidable (replayOk step ok s as)
  | _, [] => isTrue trivial
  | s, a :: as =>
    have : Decidable (∀ t ∈ step s a, replayOk step ok t as) :=
      match h : step s a with
      | none => isTrue (by simp)
      | some t =>
        have := replayOk.decidable step ok t as
        decidable_of_iff (replayOk step ok t as) (by simp)
    inferInstanceAs (Decidable (_ ∧ _))

theorem Reaches.of_replay {step : σ → α → Option σ} {ok : σ → α → Prop} {start : σ → Prop}
    {as : List α} {s t : σ} (hs : Reaches step ok start s) (hok : replayOk step ok s as)
    (h : replay step s as = some t) : Reaches step ok start t := by
  induction as generalizing s with
  | nil =>
    cases h
    exact hs
  | cons a as ih =>
    obtain ⟨u, hu, hrest⟩ := Option.bind_eq_some_iff.mp h
    exact ih (.next hs hok.1 hu) (hok.2 u hu) hrest

theorem Reaches.exists_of_replay (step : σ → α → Option σ) (ok : σ → α → Prop) {start : σ → Prop}
    {s : σ} (hs : start s) (as : List α) (hok : replayOk step ok s as) (p : σ → Bool)
    (h : (replay step s as).any p = true) : ∃ t, Reaches step ok start t ∧ p t = true := by
  cases hr : replay step s as with
  | none => simp [hr] at h
  | some t =>
    have hp : p t = true := by simpa [hr] using h
    exact ⟨t, .of_replay (.start hs) hok hr, hp⟩

theorem replayOk_anyStep (step : σ → α → Option σ) (s : σ) (as : List α) :
    replayOk step anyStep s as := by
  induction as generalizing s with
  | nil => trivial
  | cons a as ih => exact ⟨trivial, fun t _ => ih t⟩

def along (f : σ → α → σ) (ok : σ → α → Prop) : List α → σ → Prop
  | [], _ => True
  | a :: as, s => ok s a ∧ along f ok as (f s a)

instance along.decidable (f : σ → α → σ) (ok : σ → α → Prop) [∀ s a, Decidable (ok s a)] :
    ∀ as s, Decidable (along f ok as s)
  | [], _ => isTrue trivial
  | a :: as, s =>
    have := along.decidable f ok as (f s a)
    inferInstanceAs (Decidable (_ ∧ _))

theorem along_congr {f : σ → α → σ} {ok ok' : σ → α → Prop} (h : ∀ s a, ok s a ↔ ok' s a) (as : List α) (s : σ) :
    along f ok as s ↔ along f ok' as s := by
  induction as generalizing s with
  | nil => exact Iff.rfl
  | cons a as ih => exact and_congr (h s a) (ih (f s a))

theorem along.invariant {f : σ → α → σ} {ok : σ → α → Prop} {I : σ → Prop}
    (hstep : ∀ s a, I s → ok s a → I (f s a)) {as : List α} {s : σ} (hs : I s)
    (h : along f ok as s) : I (as.foldl f s) := by
  induction as generalizing s with
  | nil => exact hs
  | cons a as ih => exact ih (hstep s a hs h.1) h.2

theorem foldl_invariant {f : σ → α → σ} {I : σ → Prop} (hstep : ∀ s a, I s → I (f s a)) (as : List α)
    {s : σ} (hs : I s) : I (as.foldl f s) := by
  induction as generalizing s with
  | nil => exact hs
  | cons a as ih => exact ih (hstep s a hs)

theorem foldlM_invariant_mem {f : σ → α → Option σ} {I : σ → Prop} {as : List α}
    (hstep : ∀ s, ∀ a ∈ as, ∀ t, I s → f s a = some t → I t) {s t : σ} (hs : I s) (h : as.foldlM f s = some t) :
    I t := by
  induction as generalizing s with
  | nil =>
    obtain rfl := Option.some.inj h
    exact hs
  | cons a as ih =>
    obtain ⟨u, hu, hrest⟩ := Option.bind_eq_some_iff.mp h
    exact ih (fun s b hb => hstep s b (List.mem_cons_of_mem a hb)) (hstep s a List.mem_cons_self u hs hu) hrest

theorem foldlM_invariant {f : σ → α → Option σ} {I : σ → Prop} (hstep : ∀ s a t, I s → f s a = some t → I t)
    {as : List α} {s t : σ} (hs : I s) (h : as.foldlM f s = some t) : I t :=
  foldlM_invariant_mem (fun s a _ => hstep s a) hs h

end HysteriaCore.Lib
