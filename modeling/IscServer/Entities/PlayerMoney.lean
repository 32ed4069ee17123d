import Mathlib

/-!
# Money of a Player

`Player::ModifyMoney` (`game/Entities/Player/Player.cpp`) and the conversions of the amounts that it is
called with.

## Main results

* `modifyMoney_neg` — paying what one has.
* `tryModifyMoney_pos` — getting what one can hold.
-/

namespace IscServer.Player

/-- The value of a number in a `uint32`. -/
def uint32 (n : ℕ) : ℕ := n % 2 ^ 32

/-- `int32(n)` of a `uint32`. -/
def int32 (n : ℕ) : ℤ := if n < 2 ^ 31 then n else n - 2 ^ 32

/-- `MAX_MONEY_AMOUNT`. -/
def maxMoneyAmount : ℕ := 2 ^ 31 - 1

/-- `Player::ModifyMoney` on the money of the player: the new amount, or `none` when there would be too
much. -/
def tryModifyMoney (money : ℕ) (amount : ℤ) : Option ℕ :=
  if amount = 0 then some money
  else if amount < 0 then some (if amount.natAbs < money then money - amount.natAbs else 0)
  else if money < maxMoneyAmount - amount.natAbs then some (money + amount.natAbs) else none

/-- `Player::ModifyMoney` where the result is not asked for. -/
def modifyMoney (money : ℕ) (amount : ℤ) : ℕ := (tryModifyMoney money amount).getD money

theorem int32_of_le {n : ℕ} (h : n ≤ maxMoneyAmount) : int32 n = n :=
  if_pos (Nat.lt_of_le_of_lt h (by decide))

/-- Paying what one has. -/
theorem modifyMoney_neg {money amount : ℕ} (hle : amount ≤ money) (hmax : money ≤ maxMoneyAmount) :
    modifyMoney money (-int32 amount) = money - amount := by
  rw [int32_of_le (Nat.le_trans hle hmax), modifyMoney, tryModifyMoney, Int.natAbs_neg, Int.natAbs_natCast]
  by_cases hzero : amount = 0
  · subst hzero
    rfl
  · rw [if_neg (by omega), if_pos (by omega), Option.getD_some]
    split_ifs <;> omega

/-- Getting what one can hold. -/
theorem tryModifyMoney_pos {money amount sum : ℕ} (hamount : amount ≤ maxMoneyAmount)
    (hmax : money ≤ maxMoneyAmount) (h : tryModifyMoney money (int32 amount) = some sum) :
    sum = money + amount ∧ sum ≤ maxMoneyAmount := by
  rw [int32_of_le hamount, tryModifyMoney, Int.natAbs_natCast] at h
  by_cases hzero : amount = 0
  · rw [if_pos (by omega)] at h
    cases h
    omega
  · rw [if_neg (by omega), if_neg (by omega)] at h
    split_ifs at h
    cases h
    omega

end IscServer.Player
