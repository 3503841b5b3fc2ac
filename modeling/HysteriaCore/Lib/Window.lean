import Mathlib.Data.List.Basic
import Mathlib.Algebra.Ring.Nat

/-!
# The last elements of a list in a ring of slots

The last `n` elements of a list with their places in it. The element at place `i` belongs into slot
`i % n`, and a new element takes the slot of the one that it pushes out.
-/

namespace HysteriaCore.Lib

variable {α : Type*} {n : ℕ} {l : List α}

def window (n : ℕ) (l : List α) : List (α × ℕ) := l.zipIdx.drop (l.length - n)

theorem map_fst_window (n : ℕ) (l : List α) : (window n l).map Prod.fst = l.drop (l.length - n) := by
  rw [window, List.map_drop, List.zipIdx_map_fst]

theorem map_snd_window (n : ℕ) (l : List α) :
    (window n l).map Prod.snd = List.range' (l.length - n) (l.length - (l.length - n)) := by
  rw [window, List.map_drop, List.zipIdx_map_snd, List.drop_range', Nat.mul_one, Nat.zero_add]

theorem length_window (n : ℕ) (l : List α) : (window n l).length = min l.length n := by
  rw [window, List.length_drop, List.length_zipIdx]
  omega

theorem bounds_of_mem_window {q : α × ℕ} (h : q ∈ window n l) : l.length - n ≤ q.2 ∧ q.2 < l.length := by
  have hmem := List.mem_map_of_mem (f := Prod.snd) h
  rw [map_snd_window, List.mem_range'_1] at hmem
  omega

theorem window_pairwise (n : ℕ) (l : List α) : (window n l).Pairwise fun p q => p.2 < q.2 := by
  have h := List.pairwise_lt_range' (s := l.length - n) (n := l.length - (l.length - n))
  rw [← map_snd_window, List.pairwise_map] at h
  exact h

theorem slot_ne {i j : ℕ} (hlt : i < j) (hnear : j < i + n) : i % n ≠ j % n := by
  intro heq
  have hzero : (j - i) % n = 0 := Nat.sub_mod_eq_zero_of_mod_eq heq.symm
  rw [Nat.mod_eq_of_lt (by omega)] at hzero
  omega

theorem slots_pairwise (n : ℕ) (l : List α) : (window n l).Pairwise fun p q => p.2 % n ≠ q.2 % n := by
  refine (window_pairwise n l).imp_of_mem fun hp hq hlt => slot_ne hlt ?_
  have hlow := bounds_of_mem_window hp
  have hhigh := bounds_of_mem_window hq
  omega

theorem window_concat (hn : 0 < n) (l : List α) (a : α) :
    window n (l ++ [a]) = (window n l).drop (if n ≤ l.length then 1 else 0) ++ [(a, l.length)] := by
  rw [window, window, List.zipIdx_append, List.length_append, List.length_singleton, List.drop_drop,
    List.drop_append_of_le_length (by rw [List.length_zipIdx]; omega)]
  congr 2
  · split <;> omega
  · rw [Nat.zero_add]
    rfl

theorem filter_slot_window (hn : 0 < n) (l : List α) :
    (window n l).filter (fun q => q.2 % n ≠ l.length % n) =
      (window n l).drop (if n ≤ l.length then 1 else 0) := by
  have hother : ∀ q ∈ window n l, l.length - n < q.2 ∨ l.length < n → q.2 % n ≠ l.length % n := by
    intro q hq hfar
    have hbounds := bounds_of_mem_window hq
    exact slot_ne hbounds.2 (by omega)
  by_cases hfull : n ≤ l.length
  · rw [if_pos hfull]
    have hplaces := map_snd_window n l
    cases hw : window n l with
    | nil =>
      have hlength := length_window n l
      rw [hw, List.length_nil] at hlength
      omega
    | cons q qs =>
      have hpairwise := window_pairwise n l
      rw [hw, List.pairwise_cons] at hpairwise
      have hfirst : q.2 = l.length - n := by
        rw [hw, show l.length - (l.length - n) = (n - 1) + 1 by omega, List.range'_succ] at hplaces
        exact (List.cons.inj hplaces).1
      have hslot : q.2 % n = l.length % n := by
        rw [hfirst, ← Nat.add_mod_right, Nat.sub_add_cancel hfull]
      rw [List.filter_cons_of_neg (by simpa using hslot), List.drop_one, List.tail_cons]
      refine List.filter_eq_self.mpr fun q' hq' => decide_eq_true ?_
      refine hother q' (hw ▸ List.mem_cons_of_mem _ hq') (.inl ?_)
      rw [← hfirst]
      exact hpairwise.1 q' hq'
  · rw [if_neg hfull, List.drop_zero]
    refine List.filter_eq_self.mpr fun q hq => decide_eq_true (hother q hq (.inr ?_))
    omega

end HysteriaCore.Lib
