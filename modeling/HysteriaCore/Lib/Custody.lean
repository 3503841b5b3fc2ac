import Mathlib.Data.List.Nodup

/-!
# Things with one holder

Things are made, held at one place each, and disposed of once. `Holding` says that nothing is
disposed of twice, held after its disposal or held at two places, and `Custody` that nothing
is lost as well. The lemmas are the moves that keep them.
-/

namespace HysteriaCore.Lib

variable {ι α : Type*}

structure Holding (held : ι → Option α) (made disposed : List α) : Prop where
  nodup : disposed.Nodup
  made_of_disposed : ∀ a ∈ disposed, a ∈ made
  open_of_held : ∀ i a, held i = some a → a ∈ made ∧ a ∉ disposed
  single : ∀ i j a, held i = some a → held j = some a → i = j

structure Custody (held : ι → Option α) (made disposed : List α) : Prop
    extends Holding held made disposed where
  held_of_open : ∀ a ∈ made, a ∉ disposed → ∃ i, held i = some a

variable {a : α}

namespace Holding

variable {held : ι → Option α} {made disposed : List α}

theorem nothing : Holding (fun _ : ι => (none : Option α)) [] [] := ⟨.nil, nofun, nofun, nofun⟩

theorem of_sub (h : Holding held made disposed) {held' : ι → Option α}
    (hsub : ∀ i a, held' i = some a → held i = some a) : Holding held' made disposed :=
  ⟨h.nodup, h.made_of_disposed, fun i a hi => h.open_of_held i a (hsub i a hi),
    fun i j a hi hj => h.single i j a (hsub i a hi) (hsub j a hj)⟩

theorem count_le_one [DecidableEq α] (h : Holding held made disposed) (a : α) :
    disposed.count a ≤ 1 := List.nodup_iff_count_le_one.mp h.nodup a

theorem waste (h : Holding held made disposed) (ha : a ∉ made) : Holding held (a :: made) (a :: disposed) := by
  refine ⟨List.nodup_cons.mpr ⟨fun hd => ha (h.made_of_disposed a hd), h.nodup⟩, ?_, ?_, h.single⟩
  · exact fun b hb => List.mem_cons.mpr ((List.mem_cons.mp hb).imp_right (h.made_of_disposed b))
  · intro i b hi
    obtain ⟨hb, hd⟩ := h.open_of_held i b hi
    refine ⟨.tail _ hb, fun hc => ?_⟩
    rcases List.mem_cons.mp hc with rfl | hc
    · exact ha hb
    · exact hd hc

variable [DecidableEq ι]

theorem take (h : Holding held made disposed) (i : ι) (ha : a ∉ made) :
    Holding (Function.update held i (some a)) (a :: made) disposed := by
  have hother : ∀ j b, Function.update held i (some a) j = some b →
      (j = i ∧ b = a) ∨ (j ≠ i ∧ held j = some b) := by
    intro j b hj
    by_cases hji : j = i
    · subst hji
      rw [Function.update_self] at hj
      exact .inl ⟨rfl, (Option.some.inj hj).symm⟩
    · rw [Function.update_of_ne hji] at hj
      exact .inr ⟨hji, hj⟩
  refine ⟨h.nodup, fun b hb => .tail _ (h.made_of_disposed b hb), ?_, ?_⟩
  · intro j b hj
    rcases hother j b hj with ⟨-, rfl⟩ | ⟨-, hj⟩
    · exact ⟨.head _, fun hd => ha (h.made_of_disposed _ hd)⟩
    · exact ⟨.tail _ (h.open_of_held j b hj).1, (h.open_of_held j b hj).2⟩
  · intro j k b hj hk
    rcases hother j b hj with ⟨hji, hba⟩ | ⟨-, hj'⟩
    · rcases hother k b hk with ⟨hki, -⟩ | ⟨-, hk'⟩
      · rw [hji, hki]
      · exact absurd (hba ▸ (h.open_of_held k b hk').1) ha
    · rcases hother k b hk with ⟨-, hba⟩ | ⟨-, hk'⟩
      · exact absurd (hba ▸ (h.open_of_held j b hj').1) ha
      · exact h.single j k b hj' hk'

theorem drop (h : Holding held made disposed) {i : ι} (hi : held i = some a) :
    Holding (Function.update held i none) made (a :: disposed) := by
  obtain ⟨hmade, hopen⟩ := h.open_of_held i a hi
  have hother : ∀ j b, Function.update held i none j = some b → j ≠ i ∧ held j = some b := by
    intro j b hj
    by_cases hji : j = i
    · subst hji
      rw [Function.update_self] at hj
      cases hj
    · exact ⟨hji, (Function.update_of_ne hji ..).symm.trans hj⟩
  refine ⟨List.nodup_cons.mpr ⟨hopen, h.nodup⟩, ?_, ?_, ?_⟩
  · intro b hb
    rcases List.mem_cons.mp hb with rfl | hb
    · exact hmade
    · exact h.made_of_disposed b hb
  · intro j b hj
    obtain ⟨hji, hj⟩ := hother j b hj
    obtain ⟨hb, hd⟩ := h.open_of_held j b hj
    refine ⟨hb, fun hc => ?_⟩
    rcases List.mem_cons.mp hc with rfl | hc
    · exact hji (h.single j i b hj hi)
    · exact hd hc
  · exact fun j k b hj hk => h.single j k b (hother j b hj).2 (hother k b hk).2

end Holding

namespace Custody

variable {held : ι → Option α} {made disposed : List α}

theorem nothing : Custody (fun _ : ι => (none : Option α)) [] [] := ⟨.nothing, nofun⟩

theorem count_eq_one [DecidableEq α] (h : Custody held made disposed) (ha : a ∈ made)
    (hheld : ∀ i, held i ≠ some a) : disposed.count a = 1 := by
  refine List.count_eq_one_of_mem h.nodup ?_
  by_contra hd
  obtain ⟨i, hi⟩ := h.held_of_open a ha hd
  exact hheld i hi

theorem waste (h : Custody held made disposed) (ha : a ∉ made) : Custody held (a :: made) (a :: disposed) := by
  refine ⟨h.toHolding.waste ha, fun b hb hd => ?_⟩
  obtain ⟨hne, hd⟩ := not_or.mp (mt List.mem_cons.mpr hd)
  exact h.held_of_open b ((List.mem_cons.mp hb).resolve_left hne) hd

variable [DecidableEq ι]

theorem take (h : Custody held made disposed) {i : ι} (hi : held i = none) (ha : a ∉ made) :
    Custody (Function.update held i (some a)) (a :: made) disposed := by
  refine ⟨h.toHolding.take i ha, fun b hb hd => ?_⟩
  rcases List.mem_cons.mp hb with rfl | hb
  · exact ⟨i, Function.update_self ..⟩
  · obtain ⟨j, hj⟩ := h.held_of_open b hb hd
    have hji : j ≠ i := fun heq => by simp [heq, hi] at hj
    exact ⟨j, (Function.update_of_ne hji ..).trans hj⟩

theorem drop (h : Custody held made disposed) {i : ι} (hi : held i = some a) :
    Custody (Function.update held i none) made (a :: disposed) := by
  refine ⟨h.toHolding.drop hi, fun b hb hd => ?_⟩
  obtain ⟨hne, hd⟩ := not_or.mp (mt List.mem_cons.mpr hd)
  obtain ⟨j, hj⟩ := h.held_of_open b hb hd
  have hji : j ≠ i := by
    rintro rfl
    exact hne (Option.some.inj (hj.symm.trans hi))
  exact ⟨j, (Function.update_of_ne hji ..).trans hj⟩

end Custody

end HysteriaCore.Lib
