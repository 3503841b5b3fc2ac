import Mathlib.Algebra.Ring.Int.Defs
import Mathlib.Algebra.Ring.Nat

/-!
# 32-bit words

`uint32` values are natural numbers below `2^32`; `u32` is the reduction that
every unsigned operation ends with. `int32` values are integers, and `toInt32`
is the conversion to them.
-/

namespace HysteriaCore.Lib

def u32 (n : ℕ) : ℕ := n % 2^32

theorem u32_lt (n : ℕ) : u32 n < 2^32 := Nat.mod_lt _ (by decide)

theorem u32_of_lt {n : ℕ} (h : n < 2^32) : u32 n = n := Nat.mod_eq_of_lt h

def subU32 (a b : ℕ) : ℕ := u32 (a + 2^32 - b)

theorem subU32_of_le {a b : ℕ} (h : b ≤ a) (ha : a < 2^32) : subU32 a b = a - b := by
  unfold subU32 u32
  omega

def toInt32 (x : ℤ) : ℤ := x.bmod (2^32)

theorem toInt32_of_range {x : ℤ} (hle : -2^31 ≤ x) (hlt : x < 2^31) : toInt32 x = x :=
  Int.bmod_eq_of_le_mul_two (by omega) (by omega)

theorem toInt32_lt (x : ℤ) : toInt32 x < 2^31 := Int.bmod_lt (by decide)

theorem le_toInt32 (x : ℤ) : -2^31 ≤ toInt32 x := Int.le_bmod (by decide)

theorem toInt32_natCast_le (n : ℕ) : toInt32 n ≤ n := by
  have hdef := Int.bmod_def (n : ℤ) (2^32)
  unfold toInt32
  rw [hdef]
  split <;> omega

/-! ### The greatest of a list -/

theorem le_foldl_max (ns : List ℕ) (a : ℕ) : a ≤ ns.foldl max a ∧ ∀ n ∈ ns, n ≤ ns.foldl max a := by
  induction ns generalizing a with
  | nil => simp
  | cons m ns ih =>
    obtain ⟨ha, hns⟩ := ih (max a m)
    refine ⟨Nat.le_trans (Nat.le_max_left a m) ha, fun n hn => ?_⟩
    rcases List.mem_cons.mp hn with rfl | hn
    · exact Nat.le_trans (Nat.le_max_right a n) ha
    · exact hns n hn

theorem foldl_max_le {ns : List ℕ} {a b : ℕ} (ha : a ≤ b) (h : ∀ n ∈ ns, n ≤ b) :
    ns.foldl max a ≤ b := by
  induction ns generalizing a with
  | nil => exact ha
  | cons m ns ih =>
    have hm : m ≤ b := h m (List.mem_cons_self ..)
    exact ih (Nat.max_le.mpr ⟨ha, hm⟩) fun n hn => h n (List.mem_cons_of_mem m hn)

end HysteriaCore.Lib
