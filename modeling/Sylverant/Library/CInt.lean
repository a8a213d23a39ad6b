/-
# The value of a C `int`

Converting an integer to a 32-bit `int`, or counting in one, keeps the value
modulo `2 ^ 32` and reads the result as a signed number. Programs that keep a
length in an `int` are right only where the conversion is the identity, so the
lemmas say when it is, and what survives when it is not.
-/

import Mathlib.Algebra.Group.Int.Defs
import Mathlib.Algebra.Group.Nat.Defs
import Mathlib.Tactic.Common

namespace CInt

/-- The value an `int` holds after the integer `n` is stored in it. -/
def ofInt (n : Int) : Int := (BitVec.ofInt 32 n).toInt

theorem ofInt_eq_bmod (n : Int) : ofInt n = n.bmod (2 ^ 32) := BitVec.toInt_ofInt n

theorem ofInt_eq_self {n : Int} (hlow : -2 ^ 31 ≤ n) (hhigh : n < 2 ^ 31) :
    ofInt n = n := by
  rw [ofInt_eq_bmod]
  apply Int.bmod_eq_of_le_mul_two <;> omega

@[simp]
theorem ofInt_natCast {n : Nat} (h : n < 2 ^ 31) : ofInt (n : Int) = n :=
  ofInt_eq_self (by omega) (by omega)

/-- A count stored in an `int` never reads as more than was counted. -/
theorem ofInt_le {n : Int} (h : 0 ≤ n) : ofInt n ≤ n := by
  have hself := Int.emod_add_mul_ediv n (2 ^ 32)
  have hquot : 0 ≤ n / 2 ^ 32 := Int.ediv_nonneg h (by decide)
  rw [ofInt_eq_bmod, Int.bmod_def]
  split <;> omega

theorem ofInt_lt (n : Int) : ofInt n < 2 ^ 31 := by
  have := Int.bmod_lt (x := n) (m := 2 ^ 32) (by decide)
  simpa [ofInt_eq_bmod] using this

/-- A count that has just outgrown an `int` reads as a negative number. -/
theorem ofInt_neg {n : Int} (hlow : 2 ^ 31 ≤ n) (hhigh : n < 2 ^ 32) : ofInt n < 0 := by
  rw [ofInt_eq_bmod, Int.bmod_def]
  split <;> omega

/-- The difference of two positions is exact in an `int` when it is small,
however large the positions themselves are. -/
theorem ofInt_sub {a b : Int} (hlow : -2 ^ 31 ≤ a - b) (hhigh : a - b < 2 ^ 31) :
    ofInt (ofInt a - ofInt b) = a - b := by
  have hcast : ofInt (ofInt a - ofInt b) = ofInt (a - b) := by
    simp only [ofInt_eq_bmod]
    rw [Int.bmod_sub_bmod, Int.sub_bmod_bmod]
  rw [hcast, ofInt_eq_self hlow hhigh]

end CInt
