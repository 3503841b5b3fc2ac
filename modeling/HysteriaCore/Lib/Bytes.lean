import Mathlib.Data.List.TakeWhile

/-!
# Texts as byte lists

C strings, and numbers written in decimal.
-/

namespace HysteriaCore.Lib

abbrev Bytes := List UInt8

def ascii (s : String) : Bytes := s.toList.map fun c => UInt8.ofNat c.toNat

def cstr (b : Bytes) : Bytes := b.takeWhile (· ≠ 0)

theorem cstr_eq_self {b : Bytes} : cstr b = b ↔ 0 ∉ b := by
  unfold cstr
  rw [List.takeWhile_eq_self_iff]
  constructor
  · intro h hmem
    simpa using h 0 hmem
  · intro h x hx
    have hne : x ≠ 0 := fun h0 => h (h0 ▸ hx)
    simpa using hne

/-! ### Decimal numbers -/

def digits : Bytes → ℕ → ℕ
  | [], n => n
  | c :: rest, n => if 48 ≤ c.toNat ∧ c.toNat ≤ 57 then digits rest (10 * n + (c.toNat - 48)) else n

def digit (d : ℕ) : UInt8 := UInt8.ofNat (48 + d)

def decimalLoop : ℕ → ℕ → Bytes → Bytes
  | 0, _, acc => acc
  | fuel + 1, n, acc =>
    if n < 10 then digit n :: acc else decimalLoop fuel (n / 10) (digit (n % 10) :: acc)

def decimal (n : ℕ) : Bytes := decimalLoop (n + 1) n []

theorem digit_toNat {d : ℕ} (h : d < 10) : (digit d).toNat = 48 + d := by
  simp only [digit, UInt8.toNat_ofNat']
  omega

theorem digits_digit {d : ℕ} (h : d < 10) (rest : Bytes) (n : ℕ) :
    digits (digit d :: rest) n = digits rest (10 * n + d) := by
  have hd := digit_toNat h
  simp only [digits]
  rw [if_pos (by omega), hd]
  congr 1
  omega

theorem digits_decimalLoop {fuel n : ℕ} (h : n < fuel) (acc : Bytes) :
    digits (decimalLoop fuel n acc) 0 = digits acc n := by
  induction fuel generalizing n acc with
  | zero => omega
  | succ fuel ih =>
    unfold decimalLoop
    split_ifs with hn
    · rw [digits_digit hn]
      simp
    · rw [ih (by omega), digits_digit (by omega)]
      congr 1
      omega

@[simp] theorem digits_decimal (n : ℕ) : digits (decimal n) 0 = n :=
  digits_decimalLoop (Nat.lt_succ_self n) []

theorem decimal_injective {m n : ℕ} (h : decimal m = decimal n) : m = n := by
  rw [← digits_decimal m, h, digits_decimal]

theorem mem_decimalLoop {fuel n : ℕ} {acc : Bytes} {b : UInt8} (hb : b ∈ decimalLoop fuel n acc) :
    b ∈ acc ∨ 48 ≤ b.toNat ∧ b.toNat ≤ 57 := by
  induction fuel generalizing n acc with
  | zero => exact .inl hb
  | succ fuel ih =>
    unfold decimalLoop at hb
    split_ifs at hb with hn
    · rcases List.mem_cons.mp hb with rfl | hb
      · have := digit_toNat hn
        right
        omega
      · exact .inl hb
    · rcases ih hb with hacc | hdig
      · rcases List.mem_cons.mp hacc with rfl | hacc
        · have := digit_toNat (show n % 10 < 10 by omega)
          right
          omega
        · exact .inl hacc
      · exact .inr hdig

theorem mem_decimal {n : ℕ} {b : UInt8} (hb : b ∈ decimal n) : 48 ≤ b.toNat ∧ b.toNat ≤ 57 :=
  (mem_decimalLoop hb).resolve_left (by simp)

theorem decimal_ne_nil (n : ℕ) : decimal n ≠ [] := by
  intro h
  have hlen : ∀ fuel n acc, (acc : Bytes) ≠ [] → decimalLoop fuel n acc ≠ [] := by
    intro fuel
    induction fuel with
    | zero => exact fun _ _ h => h
    | succ fuel ih =>
      intro n acc _
      unfold decimalLoop
      split_ifs
      · simp
      · exact ih _ _ (by simp)
  unfold decimal decimalLoop at h
  split_ifs at h
  exact hlen _ _ _ (by simp) h

end HysteriaCore.Lib
