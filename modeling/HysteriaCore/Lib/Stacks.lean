import HysteriaCore.Lib.KeyedList
import Mathlib.Algebra.BigOperators.Group.List.Basic

/-!
# Stacks of things in positions

Containers hold stacks, one in a position. A quantity of one kind is stored over
a list of positions: it joins the stack that is there or becomes a new one. When
every position has room, nothing gets lost and no stack grows too large.
-/

namespace HysteriaCore.Lib

variable {κ ε φ : Type*}

structure Stack (κ ε φ : Type*) where
  pos : κ
  entry : ε
  count : ℕ
  marks : φ

structure PosCount (κ : Type*) where
  pos : κ
  count : ℕ

abbrev Stacks (κ ε φ : Type*) := KeyedList (Stack.pos : Stack κ ε φ → κ)

namespace Stacks

def total [DecidableEq ε] (t : Stacks κ ε φ) (within : κ → Bool) (entry : ε) : ℕ :=
  (t.rows.map fun s => if within s.pos ∧ s.entry = entry then s.count else 0).sum

def WithinMax (t : Stacks κ ε φ) (max : ε → ℕ) : Prop := ∀ s ∈ t, s.count ≤ max s.entry

def HasRoom (max : ε → ℕ) (look : κ → Option (Stack κ ε φ)) (entry : ε) (p : PosCount κ) : Prop :=
  match look p.pos with
  | some s => s.entry = entry ∧ s.count + p.count ≤ max entry
  | none => p.count ≤ max entry

structure Fits (max : ε → ℕ) (look : κ → Option (Stack κ ε φ)) (entry : ε) (vec : List (PosCount κ)) :
    Prop where
  distinct : (vec.map PosCount.pos).Nodup
  room : ∀ p ∈ vec, HasRoom max look entry p

variable {p : PosCount κ}

section Fits
variable {max : ε → ℕ} {look look' : κ → Option (Stack κ ε φ)} {entry : ε} {vec : List (PosCount κ)}

theorem Fits.congr (h : Fits max look entry vec) (hsame : ∀ p ∈ vec, look' p.pos = look p.pos) :
    Fits max look' entry vec := by
  refine ⟨h.distinct, fun p hp => ?_⟩
  unfold HasRoom
  rw [hsame p hp]
  exact h.room p hp

theorem Fits.cons (h : Fits max look entry (p :: vec)) :
    HasRoom max look entry p ∧ (∀ q ∈ vec, q.pos ≠ p.pos) ∧ Fits max look entry vec := by
  obtain ⟨hnew, hdistinct⟩ := List.nodup_cons.mp h.distinct
  refine ⟨h.room p (List.mem_cons_self ..), fun q hq heq => hnew (heq ▸ List.mem_map_of_mem hq), hdistinct, ?_⟩
  exact fun q hq => h.room q (List.mem_cons_of_mem p hq)

end Fits

variable [DecidableEq κ] (t : Stacks κ ε φ)

def storeAt (entry : ε) (marks : φ) (mark : φ → φ) (p : PosCount κ) : Stacks κ ε φ :=
  match t.find? p.pos with
  | some _ => t.adjust p.pos
      (fun s => { s with count := s.count + p.count, marks := mark s.marks }) fun _ => rfl
  | none => t.put ⟨p.pos, entry, p.count, mark marks⟩

def store (entry : ε) (marks : φ) (mark : φ → φ) (vec : List (PosCount κ)) : Stacks κ ε φ :=
  vec.foldl (fun t p => t.storeAt entry marks mark p) t

def takeAt (pos : κ) (part : ℕ) : Stacks κ ε φ :=
  if part = 0 then t.erase pos
  else t.adjust pos (fun s => { s with count := s.count - part }) fun _ => rfl

variable {t} {max : ε → ℕ} {entry : ε} {marks : φ} {mark : φ → φ}

/-! ### One position -/

theorem find?_storeAt_ne {k : κ} (hk : k ≠ p.pos) : (t.storeAt entry marks mark p).find? k = t.find? k := by
  unfold storeAt
  split
  · rw [KeyedList.find?_adjust]
    cases t.find? k with
    | none => rfl
    | some s => exact congrArg some (if_neg hk)
  · rw [KeyedList.find?_put]
    exact if_neg hk.symm

variable {within : κ → Bool}

theorem total_storeAt [DecidableEq ε] (marks : φ) (mark : φ → φ) (hin : within p.pos = true)
    (h : HasRoom max t.find? entry p) (e : ε) :
    (t.storeAt entry marks mark p).total within e = t.total within e + if entry = e then p.count else 0 := by
  unfold storeAt
  unfold HasRoom at h
  cases hfind : t.find? p.pos with
  | none =>
    have hnew := (t.find?_eq_none_iff p.pos).mp hfind
    refine (t.sum_put_of_new (fun s => if within s.pos ∧ s.entry = e then s.count else 0) hnew).trans ?_
    simp [hin, total]
  | some s =>
    rw [hfind] at h
    obtain ⟨hmem, hpos⟩ := (t.find?_eq_some_iff p.pos s).mp hfind
    have hsum := t.sum_adjust (fun s => if within s.pos ∧ s.entry = e then s.count else 0) hmem
      (fun s => { s with count := s.count + p.count, marks := mark s.marks }) fun _ => rfl
    rw [hpos] at hsum
    simp only [h.1, hin, true_and] at hsum
    unfold total
    dsimp only
    by_cases he : entry = e
    · simp only [he, if_true] at hsum ⊢
      omega
    · simp only [he, if_false] at hsum ⊢
      omega

theorem within_storeAt (hw : t.WithinMax max) (h : HasRoom max t.find? entry p) :
    (t.storeAt entry marks mark p).WithinMax max := by
  unfold storeAt
  unfold HasRoom at h
  intro s hs
  cases hfind : t.find? p.pos with
  | none =>
    rw [hfind] at h hs
    rcases (t.mem_put _ s).mp hs with rfl | ⟨hs, -⟩
    · exact h
    · exact hw s hs
  | some x =>
    rw [hfind] at h hs
    obtain ⟨hmem, hpos⟩ := (t.find?_eq_some_iff p.pos x).mp hfind
    obtain ⟨y, hy, rfl⟩ := (t.mem_adjust p.pos
      (fun s => { s with count := s.count + p.count, marks := mark s.marks }) (fun _ => rfl) s).mp hs
    by_cases hyp : y.pos = p.pos
    · have heq : y = x := t.eq_of_key_eq hy hmem (hyp.trans hpos.symm)
      subst heq
      rw [if_pos hyp]
      show y.count + p.count ≤ max y.entry
      rw [h.1]
      exact h.2
    · rw [if_neg hyp]
      exact hw y hy

/-! ### All positions -/

variable {vec : List (PosCount κ)}

theorem find?_store_ne {k : κ} (hk : ∀ p ∈ vec, k ≠ p.pos) : (t.store entry marks mark vec).find? k = t.find? k := by
  induction vec generalizing t with
  | nil => rfl
  | cons p vec ih =>
    have hp := hk p (List.mem_cons_self ..)
    exact (ih fun q hq => hk q (List.mem_cons_of_mem p hq)).trans (find?_storeAt_ne hp)

theorem Fits.storeAt (marks : φ) (mark : φ → φ) (h : Fits max t.find? entry (p :: vec)) :
    Fits max (t.storeAt entry marks mark p).find? entry vec := by
  obtain ⟨-, hne, hfits⟩ := h.cons
  exact hfits.congr fun q hq => find?_storeAt_ne (hne q hq)

theorem total_store [DecidableEq ε]
    (hin : ∀ p ∈ vec, within p.pos = true) (h : Fits max t.find? entry vec) (e : ε) :
    (t.store entry marks mark vec).total within e =
      t.total within e + if entry = e then (vec.map PosCount.count).sum else 0 := by
  induction vec generalizing t with
  | nil => simp [store]
  | cons p vec ih =>
    have hp := total_storeAt marks mark (hin p (List.mem_cons_self ..)) h.cons.1 e
    have hrest := ih (fun q hq => hin q (List.mem_cons_of_mem p hq)) (h.storeAt marks mark)
    rw [List.map_cons, List.sum_cons]
    refine hrest.trans ?_
    rw [hp]
    split <;> omega

theorem within_store (hw : t.WithinMax max) (h : Fits max t.find? entry vec) :
    (t.store entry marks mark vec).WithinMax max := by
  induction vec generalizing t with
  | nil => exact hw
  | cons p vec ih => exact ih (within_storeAt hw h.cons.1) (h.storeAt marks mark)

/-! ### Taking -/

theorem find?_takeAt_ne {pos k : κ} {part : ℕ} (hk : k ≠ pos) : (t.takeAt pos part).find? k = t.find? k := by
  unfold takeAt
  split
  · rw [KeyedList.find?_erase]
    exact if_neg hk
  · rw [KeyedList.find?_adjust]
    cases t.find? k with
    | none => rfl
    | some s => exact congrArg some (if_neg hk)

theorem find?_takeAt_all (pos : κ) : (t.takeAt pos 0).find? pos = none := by
  unfold takeAt
  rw [if_pos rfl, KeyedList.find?_erase]
  exact if_pos rfl

theorem total_takeAt [DecidableEq ε] {s : Stack κ ε φ} {part : ℕ} (hs : s ∈ t)
    (hin : within s.pos = true) (hpart : part ≤ s.count) (e : ε) :
    (t.takeAt s.pos part).total within e +
      (if s.entry = e then if part = 0 then s.count else part else 0) = t.total within e := by
  unfold takeAt
  split
  · have hsum := t.sum_erase (fun s => if within s.pos ∧ s.entry = e then s.count else 0) hs
    simpa [hin, total] using hsum
  · have hsum := t.sum_adjust (fun s => if within s.pos ∧ s.entry = e then s.count else 0) hs
      (fun s => { s with count := s.count - part }) fun _ => rfl
    simp only [hin, true_and] at hsum
    unfold total
    by_cases he : s.entry = e
    · simp only [he, if_true] at hsum ⊢
      omega
    · simp only [he, if_false] at hsum ⊢
      omega

theorem within_takeAt (hw : t.WithinMax max) (pos : κ) (part : ℕ) : (t.takeAt pos part).WithinMax max := by
  unfold takeAt
  split
  · exact fun s hs => hw s ((t.mem_erase pos s).mp hs).1
  · intro s hs
    obtain ⟨y, hy, rfl⟩ :=
      (t.mem_adjust pos (fun s => { s with count := s.count - part }) (fun _ => rfl) s).mp hs
    have hle := hw y hy
    split
    · show y.count - part ≤ max y.entry
      omega
    · exact hle

theorem HasRoom.takeAt {pos : κ} {part : ℕ} (hpart : part ≠ 0)
    (h : HasRoom max t.find? entry p) : HasRoom max (t.takeAt pos part).find? entry p := by
  unfold Stacks.takeAt HasRoom at *
  rw [if_neg hpart, KeyedList.find?_adjust]
  cases hfind : t.find? p.pos with
  | none =>
    rw [hfind] at h
    exact h
  | some s =>
    rw [hfind] at h
    dsimp only [Option.map_some] at h ⊢
    split
    · exact ⟨h.1, by dsimp only; omega⟩
    · exact h

end Stacks

end HysteriaCore.Lib
