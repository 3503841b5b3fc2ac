import HysteriaCore.Bans.Logon

/-!
# Durations as text

`secsToTimeString` prints a number of seconds, and `TimeStringToSecs` reads it for the bans.
-/

namespace HysteriaCore.Utilities
open Lib

def MINUTE : ℕ := 60
def HOUR : ℕ := MINUTE * 60
def DAY : ℕ := HOUR * 24

def component (written : Bool) (n : ℕ) (shortText : Bool) (short long : String) : Bytes :=
  if written then decimal n ++ ascii (if shortText then short else long) else []

def secsToTimeString (timeInSecs : ℕ) (shortText : Bool) : Bytes :=
  let secs := timeInSecs % MINUTE
  let minutes := timeInSecs % HOUR / MINUTE
  let hours := timeInSecs % DAY / HOUR
  let days := timeInSecs / DAY
  let str := component (days ≠ 0) days shortText "d" " day(s) " ++
    component (hours ≠ 0) hours shortText "h" " hour(s) " ++
    component (minutes ≠ 0) minutes shortText "m" " minute(s) " ++
    component (secs ≠ 0 ∨ days = 0 ∧ hours = 0 ∧ minutes = 0) secs shortText "s" " second(s) "
  if shortText = false ∧ str.getLast? = some 32 then str.dropLast else str

open Bans (timeStringToSecs)

theorem go_digit {c : UInt8} (hc : 48 ≤ c.toNat ∧ c.toNat ≤ 57) (rest : Bytes) (secs buffer : ℕ) :
    timeStringToSecs.go (c :: rest) secs buffer =
      timeStringToSecs.go rest secs (u32 (u32 (buffer * 10) + (c.toNat - 48))) := by
  conv_lhs => unfold timeStringToSecs.go
  exact if_pos hc

theorem go_decimalLoop {fuel n : ℕ} (hfuel : n < fuel) (hn : n < 2 ^ 32) (acc : Bytes) (secs : ℕ) :
    timeStringToSecs.go (decimalLoop fuel n acc) secs 0 = timeStringToSecs.go acc secs n := by
  have hdigit : ∀ (d : ℕ) (rest : Bytes) (buffer : ℕ), d < 10 → 10 * buffer + d < 2 ^ 32 →
      timeStringToSecs.go (digit d :: rest) secs buffer = timeStringToSecs.go rest secs (10 * buffer + d) := by
    intro d rest buffer hd hroom
    have hvalue := digit_toNat hd
    have hproduct : u32 (buffer * 10) = 10 * buffer := by
      rw [u32_of_lt (by omega), Nat.mul_comm]
    rw [go_digit (by omega), hproduct, hvalue, Nat.add_sub_cancel_left, u32_of_lt hroom]
  induction fuel generalizing n acc with
  | zero => omega
  | succ fuel ih =>
    unfold decimalLoop
    split_ifs with hsmall
    · rw [hdigit n acc 0 hsmall (by omega), Nat.mul_zero, Nat.zero_add]
    · have hdiv : 10 * (n / 10) + n % 10 = n := Nat.div_add_mod n 10
      rw [ih (by omega) (by omega), hdigit (n % 10) acc (n / 10) (by omega) (by omega), hdiv]

theorem go_decimal {n : ℕ} (hn : n < 2 ^ 32) (rest : Bytes) (secs : ℕ) :
    timeStringToSecs.go (decimal n ++ rest) secs 0 = timeStringToSecs.go rest secs n := by
  have happend : ∀ fuel m acc, decimalLoop fuel m acc ++ rest = decimalLoop fuel m (acc ++ rest) := by
    intro fuel
    induction fuel with
    | zero => exact fun _ _ => rfl
    | succ fuel ih =>
      intro m acc
      unfold decimalLoop
      split_ifs
      · rfl
      · exact ih _ _
  rw [decimal, happend, go_decimalLoop (Nat.lt_succ_self n) hn, List.nil_append]

theorem go_component (unit : ℕ) {written : Bool} {n : ℕ} {c : UInt8} {short long : String} (hshort : ascii short = [c])
    (hunit : ∀ rest secs, timeStringToSecs.go (c :: rest) secs n =
      timeStringToSecs.go rest (u32 (secs + u32 (n * unit))) 0)
    (hzero : written = false → n = 0) {secs : ℕ} (hn : n < 2 ^ 32) (hroom : secs + n * unit < 2 ^ 32) (rest : Bytes) :
    timeStringToSecs.go (component written n true short long ++ rest) secs 0 =
      timeStringToSecs.go rest (secs + n * unit) 0 := by
  unfold component
  cases written with
  | true =>
    rw [if_pos rfl, if_pos rfl, hshort, List.append_assoc, go_decimal hn, List.singleton_append, hunit,
      u32_of_lt (show n * unit < 2 ^ 32 by omega), u32_of_lt hroom]
  | false =>
    rw [if_neg Bool.false_ne_true, hzero rfl, Nat.zero_mul, Nat.add_zero, List.nil_append]

theorem go_components {days hours minutes secs : ℕ}
    (hroom : days * 86400 + hours * 3600 + minutes * 60 + secs * 1 < 2 ^ 32) {last : Bool}
    (hlast : last = false → secs = 0) :
    timeStringToSecs (component (days ≠ 0) days true "d" " day(s) " ++
      component (hours ≠ 0) hours true "h" " hour(s) " ++
      component (minutes ≠ 0) minutes true "m" " minute(s) " ++ component last secs true "s" " second(s) ") =
      days * 86400 + hours * 3600 + minutes * 60 + secs * 1 := by
  have hzero : ∀ n : ℕ, decide (n ≠ 0) = false → n = 0 := fun n h => not_not.mp (of_decide_eq_false h)
  have hsecond : ∀ rest before, timeStringToSecs.go (115 :: rest) before secs =
      timeStringToSecs.go rest (u32 (before + u32 (secs * 1))) 0 := by
    intro rest before
    rw [Nat.mul_one, u32_of_lt (show secs < 2 ^ 32 by omega)]
    rfl
  rw [timeStringToSecs, List.append_assoc, List.append_assoc,
    go_component 86400 (c := 100) rfl (fun _ _ => rfl) (hzero days) (by omega) (by omega),
    go_component 3600 (c := 104) rfl (fun _ _ => rfl) (hzero hours) (by omega) (by omega),
    go_component 60 (c := 109) rfl (fun _ _ => rfl) (hzero minutes) (by omega) (by omega),
    ← List.append_nil (component last secs true _ _),
    go_component 1 (c := 115) rfl hsecond hlast (by omega) (by omega), timeStringToSecs.go, Nat.zero_add]

/-- What is printed in short form is read back. -/
theorem time_round_trip (t : ℕ) (ht : t < 2 ^ 32) : timeStringToSecs (secsToTimeString t true) = t := by
  have hparts : t / DAY * 86400 + t % DAY / HOUR * 3600 + t % HOUR / MINUTE * 60 + t % MINUTE * 1 = t := by
    unfold DAY HOUR MINUTE
    omega
  unfold secsToTimeString
  dsimp only
  rw [if_neg fun h => Bool.noConfusion h.1, go_components (by omega), hparts]
  intro hlast
  exact not_not.mp (not_or.mp (of_decide_eq_false hlast)).1

theorem time_round_trip_day : timeStringToSecs (secsToTimeString 86461 true) = 86461 := time_round_trip 86461 (by decide)

example : secsToTimeString 86461 true = ascii "1d1m1s" := by decide

end HysteriaCore.Utilities
