import Mathlib.Data.List.Induction

/-!
# Obligations along a trace

A turn of a trace may open an obligation, and later turns may meet it.
`MetInTurn` says that nothing is opened before what was opened earlier is met;
`MetOrPending` is the invariant that carries it along a growing trace.
-/

namespace HysteriaCore.Lib

variable {τ κ : Type*}

def MetInTurn (opens : τ → κ → Prop) (meets : κ → τ → Prop) (trace : List τ) : Prop :=
  ∀ before t between u after k k', trace = before ++ t :: (between ++ u :: after) →
    opens t k → opens u k' → ∃ v ∈ between, meets k v

def MetOrPending (opens : τ → κ → Prop) (meets : κ → τ → Prop) (pending : Option κ)
    (trace : List τ) : Prop :=
  ∀ before t since k, trace = before ++ t :: since → opens t k →
    (∃ v ∈ since, meets k v) ∨ pending = some k

theorem concat_eq_append_cons {trace before since : List τ} {t u : τ}
    (h : trace ++ [u] = before ++ t :: since) :
    (trace = before ∧ t = u ∧ since = []) ∨
      ∃ since', since = since' ++ [u] ∧ trace = before ++ t :: since' := by
  induction since using List.reverseRecOn with
  | nil =>
    obtain ⟨rfl, hu⟩ := List.append_inj' h rfl
    exact .inl ⟨rfl, (List.cons.inj hu).1.symm, rfl⟩
  | append_singleton since' v _ =>
    have hsplit : trace ++ [u] = (before ++ t :: since') ++ [v] := by simpa using h
    obtain ⟨htrace, hu⟩ := List.append_inj' hsplit rfl
    obtain rfl := (List.cons.inj hu).1
    exact .inr ⟨since', rfl, htrace⟩

variable {opens : τ → κ → Prop} {meets : κ → τ → Prop} {pending pending' : Option κ}
  {trace : List τ} {u : τ}

theorem MetInTurn.nil : MetInTurn opens meets [] := by
  intro before t between u after k k' h
  simp at h

theorem MetOrPending.nil : MetOrPending opens meets pending [] := by
  intro before t since k h
  simp at h

theorem MetInTurn.concat (h : MetInTurn opens meets trace)
    (hp : MetOrPending opens meets pending trace) (hopen : ∀ k, opens u k → pending = none) :
    MetInTurn opens meets (trace ++ [u]) := by
  intro before t between v after k k' hsplit ht hv
  rcases concat_eq_append_cons hsplit with ⟨_, _, hnil⟩ | ⟨since, hsince, htrace⟩
  · simp at hnil
  · -- the second opening is the new turn, or both are in the old trace
    rcases concat_eq_append_cons hsince.symm with ⟨rfl, rfl, _⟩ | ⟨after', _, hbetween⟩
    · have hnone := hopen k' hv
      rcases hp before t since k htrace ht with hmet | hpending
      · exact hmet
      · rw [hnone] at hpending
        cases hpending
    · rw [hbetween] at htrace
      exact h before t between v after' k k' htrace ht hv

theorem MetOrPending.concat (h : MetOrPending opens meets pending trace)
    (hkeep : ∀ k, pending = some k → meets k u ∨ pending' = some k)
    (hopen : ∀ k, opens u k → pending' = some k) :
    MetOrPending opens meets pending' (trace ++ [u]) := by
  intro before t since k hsplit ht
  rcases concat_eq_append_cons hsplit with ⟨_, rfl, _⟩ | ⟨since', rfl, htrace⟩
  · exact .inr (hopen k ht)
  · rcases h before t since' k htrace ht with ⟨v, hv, hmet⟩ | hpending
    · exact .inl ⟨v, List.mem_append_left _ hv, hmet⟩
    · rcases hkeep k hpending with hmet | hstill
      · exact .inl ⟨u, by simp, hmet⟩
      · exact .inr hstill

end HysteriaCore.Lib
