import Mathlib.Algebra.Ring.Nat
import Mathlib.Data.List.Nodup

/-!
# Counting in lists

How `countP` changes when an entry at a position is changed, and how the counts of tests relate.
-/

namespace HysteriaCore.Lib

variable {α : Type}

theorem countP_eq_sum (p : α → Bool) (l : List α) : l.countP p = (l.map fun a => if p a then 1 else 0).sum := by
  induction l with
  | nil => rfl
  | cons a l ih =>
    rw [List.countP_cons, List.map_cons, List.sum_cons, ih]
    omega

theorem countP_zipIdx_modify (p : α × ℕ → Bool) (f : α → α) {l : List α} {i : ℕ} {x : α}
    (h : l[i]? = some x) (k : ℕ) :
    ((l.modify i f).zipIdx k).countP p + (if p (x, k + i) then 1 else 0) =
      (l.zipIdx k).countP p + (if p (f x, k + i) then 1 else 0) := by
  induction l generalizing i k with
  | nil => simp at h
  | cons y l ih =>
    cases i with
    | zero =>
      have hy : y = x := by simpa using h
      subst hy
      simp only [List.modify_zero_cons, List.zipIdx_cons, List.countP_cons, Nat.add_zero]
      omega
    | succ i =>
      have hrec := ih (by simpa using h) (k + 1)
      rw [Nat.add_assoc, Nat.add_comm 1 i] at hrec
      simp only [List.modify_succ_cons, List.zipIdx_cons, List.countP_cons]
      omega

theorem countP_split {p q r : α → Bool} {l : List α}
    (h : ∀ x ∈ l, p x = (q x || r x) ∧ (q x && r x) = false) :
    l.countP p = l.countP q + l.countP r := by
  induction l with
  | nil => rfl
  | cons x l ih =>
    obtain ⟨hp, hex⟩ := h x List.mem_cons_self
    have hrec := ih fun y hy => h y (List.mem_cons_of_mem _ hy)
    simp only [List.countP_cons, hrec, hp]
    cases hq : q x <;> cases hr : r x <;> simp [hq, hr] at hex ⊢ <;> omega

theorem countP_mem_sublist [DecidableEq α] {l l' : List α} (hsub : l.Sublist l')
    (hnodup : l'.Nodup) (p : α → Bool) : (l'.countP fun x => decide (x ∈ l) && p x) = l.countP p := by
  have hperm : (l'.filter fun x => decide (x ∈ l)).Perm l := by
    rw [List.perm_ext_iff_of_nodup (hnodup.filter _) (hnodup.sublist hsub)]
    intro x
    rw [List.mem_filter]
    exact ⟨fun h => by simpa using h.2, fun h => ⟨hsub.subset h, by simpa using h⟩⟩
  rw [← hperm.countP_eq, List.countP_filter]
  exact List.countP_congr fun x _ => by rw [Bool.and_comm]

variable {α β : Type}

theorem zipIdx_map_zipIdx (f : α × ℕ → β) (l : List α) :
    (l.zipIdx.map f).zipIdx = l.zipIdx.map fun x => (f x, x.2) := by
  refine List.ext_getElem? fun i => ?_
  cases h : l[i]? with
  | none => simp [List.getElem?_zipIdx, h]
  | some x => simp [List.getElem?_zipIdx, h]

theorem zipIdx_nodup (l : List α) : l.zipIdx.Nodup := by
  refine List.Nodup.of_map Prod.snd ?_
  rw [List.zipIdx_map_snd]
  exact List.nodup_range'

theorem filterMap_range_getElem? (f : ℕ → α → β) (l : List α) :
    ((List.range l.length).filterMap fun i => l[i]?.map (f i)) = l.mapIdx f := by
  induction l generalizing f with
  | nil => rfl
  | cons x l ih =>
    rw [List.length_cons, List.range_succ_eq_map, List.filterMap_cons, List.filterMap_map,
      List.mapIdx_cons]
    exact congrArg (f 0 x :: ·) (ih fun i => f (i + 1))

theorem filterMap_perm_cons {f g : α → Option β} {l : List α} (hl : l.Nodup) {a : α}
    (ha : a ∈ l) {x : β} (hf : f a = some x) (hg : g a = none) (hsame : ∀ b, b ≠ a → g b = f b) :
    (l.filterMap f).Perm (x :: l.filterMap g) := by
  induction l with
  | nil => cases ha
  | cons b l ih =>
    obtain ⟨hnot, hl⟩ := List.nodup_cons.mp hl
    by_cases hb : b = a
    · subst hb
      have hrest : l.filterMap g = l.filterMap f :=
        List.filterMap_congr fun c hc => hsame c fun h => hnot (h ▸ hc)
      rw [List.filterMap_cons_some hf, List.filterMap_cons_none hg, hrest]
    · have hin := (List.mem_cons.mp ha).resolve_left (Ne.symm hb)
      cases hfb : f b with
      | none =>
        rw [List.filterMap_cons_none hfb, List.filterMap_cons_none ((hsame b hb).trans hfb)]
        exact ih hl hin
      | some y =>
        rw [List.filterMap_cons_some hfb, List.filterMap_cons_some ((hsame b hb).trans hfb)]
        exact ((ih hl hin).cons y).trans (.swap x y _)

theorem perm_eraseP_of_find? {p : α → Bool} {l : List α} {x : α}
    (h : l.find? p = some x) : l.Perm (x :: l.eraseP p) := by
  induction l with
  | nil => cases h
  | cons y l ih =>
    rw [List.find?_cons] at h
    rw [List.eraseP_cons]
    cases hy : p y with
    | true =>
      rw [hy] at h
      cases h
      exact .refl _
    | false =>
      rw [hy] at h
      exact ((ih h).cons y).trans (.swap x y _)

theorem map_modify_of_same {f : α → β} {g : α → α} (h : ∀ a, f (g a) = f a) (l : List α) (k : ℕ) :
    (l.modify k g).map f = l.map f := by
  induction l generalizing k with
  | nil => cases k <;> rfl
  | cons a l ih =>
    cases k with
    | zero => rw [List.modify_zero_cons, List.map_cons, List.map_cons, h]
    | succ k => rw [List.modify_succ_cons, List.map_cons, List.map_cons, ih]

theorem countP_switch {α κ : Type} {key : α → κ} {l : List α} (hnodup : (l.map key).Nodup) {a : α} (ha : a ∈ l)
    {p q : α → Bool} (hother : ∀ x ∈ l, key x ≠ key a → q x = p x) :
    l.countP q + (if p a then 1 else 0) = l.countP p + (if q a then 1 else 0) := by
  obtain ⟨s, t, rfl⟩ := List.append_of_mem ha
  rw [List.map_append, List.map_cons, List.nodup_middle, List.nodup_cons, List.mem_append] at hnodup
  have hs : s.countP q = s.countP p := by
    refine List.countP_congr fun x hx => ?_
    rw [hother x (List.mem_append_left _ hx) fun heq => hnodup.1 (.inl (heq ▸ List.mem_map_of_mem hx))]
  have ht : t.countP q = t.countP p := by
    refine List.countP_congr fun x hx => ?_
    rw [hother x (List.mem_append_right _ (List.mem_cons_of_mem _ hx)) fun heq =>
      hnodup.1 (.inr (heq ▸ List.mem_map_of_mem hx))]
  rw [List.countP_append, List.countP_append, List.countP_cons, List.countP_cons, hs, ht]
  omega

end HysteriaCore.Lib
