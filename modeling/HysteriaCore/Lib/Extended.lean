import Mathlib.Algebra.Order.Field.Basic

/-!
# Numbers with two infinities

The elements of an ordered field between a least and a greatest one, with the arithmetic that has
a value there. A difference of equal infinities has none; what stands here for it is not used.
-/

namespace HysteriaCore.Lib

abbrev Extended (K : Type*) := WithBot (WithTop K)

namespace Extended
variable {K : Type*}

def fin (x : K) : Extended K := ((x : WithTop K) : WithBot (WithTop K))

theorem cases_of (x : Extended K) : x = ⊥ ∨ x = ⊤ ∨ ∃ q, x = fin q := by
  cases x with
  | none => exact .inl rfl
  | some x =>
    cases x with
    | top => exact .inr (.inl rfl)
    | coe q => exact .inr (.inr ⟨q, rfl⟩)

section Order
variable [LinearOrder K]

@[simp] theorem fin_le_fin {x y : K} : fin x ≤ fin y ↔ x ≤ y := by simp [fin]

@[simp] theorem fin_lt_fin {x y : K} : fin x < fin y ↔ x < y := by simp [fin]

@[simp] theorem bot_lt_fin (x : K) : (⊥ : Extended K) < fin x := WithBot.bot_lt_coe _

@[simp] theorem fin_lt_top (x : K) : fin x < (⊤ : Extended K) :=
  WithBot.coe_lt_coe.mpr (WithTop.coe_lt_top x)

end Order

section Arithmetic
variable [Field K] [LinearOrder K]

def sub : Extended K → Extended K → Extended K
  | some (some a), some (some b) => fin (a - b)
  | none, _ => ⊥
  | some none, _ => ⊤
  | some (some _), none => ⊤
  | some (some _), some none => ⊥

def scale (c : K) : Extended K → Extended K
  | some (some a) => fin (c * a)
  | e => e

/-- Where a ray with this origin and inverse direction meets the plane, `(e - org) * inv`. -/
def along (org inv : K) : Extended K → Extended K
  | some (some a) => fin ((a - org) * inv)
  | none => if inv < 0 then ⊤ else ⊥
  | some none => if inv < 0 then ⊥ else ⊤

@[simp] theorem along_fin (org inv a : K) : along org inv (fin a) = fin ((a - org) * inv) := rfl

theorem along_bot (org inv : K) : along org inv ⊥ = if inv < 0 then ⊤ else ⊥ := rfl

theorem along_top (org inv : K) : along org inv ⊤ = if inv < 0 then ⊥ else ⊤ := rfl

variable [IsStrictOrderedRing K]

theorem along_mono {org inv : K} (hinv : 0 < inv) {x y : Extended K} (h : x ≤ y) :
    along org inv x ≤ along org inv y := by
  rcases cases_of x with rfl | rfl | ⟨a, rfl⟩
  · rw [along_bot, if_neg hinv.not_gt]
    exact bot_le
  · rw [top_le_iff.mp h]
  · rcases cases_of y with rfl | rfl | ⟨b, rfl⟩
    · exact absurd h (bot_lt_fin a).not_ge
    · rw [along_top, if_neg hinv.not_gt]
      exact le_top
    · rw [along_fin, along_fin, fin_le_fin]
      exact mul_le_mul_of_nonneg_right (sub_le_sub_right (fin_le_fin.mp h) org) hinv.le

theorem along_anti {org inv : K} (hinv : inv < 0) {x y : Extended K} (h : x ≤ y) :
    along org inv y ≤ along org inv x := by
  rcases cases_of x with rfl | rfl | ⟨a, rfl⟩
  · rw [along_bot, if_pos hinv]
    exact le_top
  · rw [top_le_iff.mp h]
  · rcases cases_of y with rfl | rfl | ⟨b, rfl⟩
    · exact absurd h (bot_lt_fin a).not_ge
    · rw [along_top, if_pos hinv]
      exact bot_le
    · rw [along_fin, along_fin, fin_le_fin]
      exact mul_le_mul_of_nonpos_right (sub_le_sub_right (fin_le_fin.mp h) org) hinv.le

end Arithmetic

end Extended

end HysteriaCore.Lib
