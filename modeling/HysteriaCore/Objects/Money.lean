import HysteriaCore.Lib.Words

/-!
# A player's money

An unsigned 32-bit amount that is changed by a signed one.
-/

namespace HysteriaCore.Objects
open Lib

def maxMoneyAmount : ℕ := 0x7FFFFFFF - 1

theorem maxMoneyAmount_eq : maxMoneyAmount = 2147483646 := rfl

/-- `Player::ModifyMoney`: whether it was accepted, and the money afterwards. Too
much to pay leaves nothing; too much to receive is refused. -/
def modifyMoney (money : ℕ) (amount : ℤ) : Bool × ℕ :=
  if amount = 0 then (true, money)
  else if amount < 0 then (true, if (-amount).toNat < money then money - (-amount).toNat else 0)
  else if money < ((maxMoneyAmount - amount) % 2^32).toNat then (true, u32 (money + amount.toNat))
  else (false, money)

def hasEnoughMoney (money amount : ℕ) : Bool := decide (amount ≤ money)

variable {money amount : ℕ}

theorem modifyMoney_pay (h : amount ≤ money) : modifyMoney money (-amount) = (true, money - amount) := by
  unfold modifyMoney
  by_cases hzero : amount = 0
  · rw [if_pos (by omega)]
    simp [hzero]
  · rw [if_neg (by omega), if_pos (by omega)]
    have hneg : (-(-(amount : ℤ))).toNat = amount := by omega
    rw [hneg]
    by_cases hlt : amount < money
    · rw [if_pos hlt]
    · rw [if_neg hlt, show money - amount = 0 by omega]

theorem modifyMoney_payCast (h : amount ≤ money) (hmoney : money ≤ maxMoneyAmount) :
    modifyMoney money (-toInt32 amount) = (true, money - amount) := by
  have hmax := maxMoneyAmount_eq
  rw [toInt32_of_range (by omega) (by omega)]
  exact modifyMoney_pay h

theorem modifyMoney_receive (money : ℕ) (h : amount ≤ maxMoneyAmount) :
    modifyMoney money amount = (true, money + amount) ∨ modifyMoney money amount = (false, money) := by
  unfold modifyMoney
  by_cases hzero : amount = 0
  · rw [if_pos (by omega)]
    simp [hzero]
  · rw [if_neg (by omega), if_neg (by omega)]
    have hmax := maxMoneyAmount_eq
    have hroom : (((maxMoneyAmount : ℤ) - amount) % 2^32).toNat = maxMoneyAmount - amount := by omega
    rw [hroom]
    by_cases hlt : money < maxMoneyAmount - amount
    · rw [if_pos hlt, Int.toNat_natCast, u32_of_lt (by omega)]
      exact .inl rfl
    · rw [if_neg hlt]
      exact .inr rfl

theorem modifyMoney_room (h : money + amount < maxMoneyAmount) :
    modifyMoney money (toInt32 amount) = (true, money + amount) := by
  have hmax := maxMoneyAmount_eq
  rw [toInt32_of_range (by omega) (by omega)]
  unfold modifyMoney
  by_cases hzero : amount = 0
  · rw [if_pos (by omega)]
    simp [hzero]
  · have hroom : (((maxMoneyAmount : ℤ) - amount) % 2^32).toNat = maxMoneyAmount - amount := by omega
    rw [if_neg (by omega), if_neg (by omega), hroom, if_pos (by omega), Int.toNat_natCast,
      u32_of_lt (by omega)]

theorem modifyMoney_accepted (hamount : amount ≤ maxMoneyAmount) (hmoney : money ≤ maxMoneyAmount)
    (hok : (modifyMoney money (toInt32 amount)).1 = true) :
    modifyMoney money (toInt32 amount) = (true, money + amount) ∧ money + amount ≤ maxMoneyAmount := by
  have hmax := maxMoneyAmount_eq
  rw [toInt32_of_range (by omega) (by omega)] at hok ⊢
  by_cases hzero : amount = 0
  · subst hzero
    exact ⟨rfl, hmoney⟩
  · unfold modifyMoney at hok ⊢
    have hroom : (((maxMoneyAmount : ℤ) - amount) % 2^32).toNat = maxMoneyAmount - amount := by omega
    rw [if_neg (by omega), if_neg (by omega), hroom] at hok ⊢
    by_cases hlt : money < maxMoneyAmount - amount
    · rw [if_pos hlt, Int.toNat_natCast, u32_of_lt (by omega)]
      exact ⟨rfl, by omega⟩
    · rw [if_neg hlt] at hok
      cases hok

end HysteriaCore.Objects
