/-
# Lists in pieces of one width

A list that is cut into pieces of one width, of which only the last may be shorter, is all of its
pieces one behind the other. As many pieces are enough as the width goes into the length, and one
more where something is left.
-/

import Mathlib.Data.List.Range

namespace Pieces

universe u

variable {α : Type u} {w : Nat} {xs : List α} {k n : Nat}

/-- A piece of a list. -/
def piece (w : Nat) (xs : List α) (k : Nat) : List α := (xs.drop (k * w)).take w

/-- The number of pieces that a list of some length has. -/
def count (w n : Nat) : Nat := if n % w ≠ 0 then n / w + 1 else n / w

theorem length_piece : (piece w xs k).length = min w (xs.length - k * w) := by
  rw [piece, List.length_take, List.length_drop]

/-- Some pieces are the beginning of the list. -/
theorem flatMap_piece (n : Nat) : (List.range n).flatMap (piece w xs) = xs.take (n * w) := by
  induction n with
  | zero => rw [List.range_zero, List.flatMap_nil, Nat.zero_mul, List.take_zero]
  | succ n ih =>
      rw [List.range_succ, List.flatMap_append, ih, List.flatMap_singleton, Nat.succ_mul,
        List.take_add]
      rfl

theorem le_count_mul (hw : 0 < w) : n ≤ count w n * w := by
  have parts : w * (n / w) + n % w = n := Nat.div_add_mod n w
  have short : n % w < w := Nat.mod_lt n hw
  unfold count
  by_cases left : n % w ≠ 0
  · rw [if_pos left, Nat.succ_mul, Nat.mul_comm]
    omega
  · rw [if_neg left, Nat.mul_comm]
    omega

/-- A piece counts when it has anything in it. -/
theorem lt_count_iff (hw : 0 < w) : k < count w n ↔ k * w < n := by
  have parts : w * (n / w) + n % w = n := Nat.div_add_mod n w
  have short : n % w < w := Nat.mod_lt n hw
  have whole : k * w < n / w * w ↔ k < n / w := Nat.mul_lt_mul_right hw
  have same : k = n / w → k * w = n / w * w := congrArg (· * w)
  have more : n / w < k → n / w * w + w ≤ k * w := by
    intro h
    rw [← Nat.succ_mul]
    exact Nat.mul_le_mul_right w h
  rw [Nat.mul_comm w] at parts
  unfold count
  by_cases left : n % w ≠ 0
  · rw [if_pos left]
    omega
  · rw [if_neg left]
    omega

/-- All pieces are the list. -/
theorem flatMap_count (hw : 0 < w) (xs : List α) :
    (List.range (count w xs.length)).flatMap (piece w xs) = xs := by
  rw [flatMap_piece]
  exact List.take_of_length_le (le_count_mul hw)

/-- Every piece but the last is full. -/
theorem length_piece_of_next (hw : 0 < w) (h : k + 1 < count w xs.length) :
    (piece w xs k).length = w := by
  have more : (k + 1) * w < xs.length := (lt_count_iff hw).mp h
  rw [Nat.succ_mul] at more
  rw [length_piece]
  omega

theorem piece_ne_nil (hw : 0 < w) (h : k < count w xs.length) : piece w xs k ≠ [] := by
  have more : k * w < xs.length := (lt_count_iff hw).mp h
  apply List.ne_nil_of_length_pos
  rw [length_piece]
  omega

/-- The last piece is what is left, or a full one where nothing is. -/
theorem length_piece_eq (hw : 0 < w) (h : k < count w n) :
    min w (n - k * w) = if n < (k + 1) * w then n % w else w := by
  have more : k * w < n := (lt_count_iff hw).mp h
  have parts : w * (n / w) + n % w = n := Nat.div_add_mod n w
  by_cases last : n < (k + 1) * w
  · have here : n / w = k := Nat.div_eq_of_lt_le (Nat.le_of_lt more) last
    rw [here, Nat.mul_comm] at parts
    have short : n % w < w := Nat.mod_lt n hw
    rw [if_pos last]
    omega
  · rw [if_neg last]
    rw [Nat.succ_mul] at last
    omega

end Pieces
