/-
# Choosing by weights

Weights stand in a row, and a number below their sum selects the one in whose part of
the row it lies. Weights are in any ordered monoid. With weights that are not negative
there is exactly one index that a number selects.
-/

import Mathlib.Algebra.BigOperators.Group.Finset.Basic
import Mathlib.Algebra.Order.BigOperators.Group.Finset

namespace Weighted

open Finset

variable {M : Type*} [AddCommMonoid M]

/-- The sum of the weights before an index. -/
def before (w : ℕ → M) (i : ℕ) : M := ∑ j ∈ range i, w j

@[simp]
theorem before_zero (w : ℕ → M) : before w 0 = 0 := sum_range_zero w

theorem before_succ (w : ℕ → M) (i : ℕ) : before w (i + 1) = before w i + w i :=
  sum_range_succ w i

variable [LinearOrder M] {w : ℕ → M} {n i j : ℕ} {r : M}

/-- A number lies in the part of an index: it is at least the sum of the weights before
the index, and below the sum up to and including it. -/
structure Selects (w : ℕ → M) (r : M) (i : ℕ) : Prop where
  le : before w i ≤ r
  lt : r < before w (i + 1)

/-- An index is the only one of the first `n` that a number selects. -/
structure Chosen (w : ℕ → M) (n : ℕ) (r : M) (i : ℕ) : Prop where
  bound : i < n
  selects : Selects w r i
  unique : ∀ j < n, Selects w r j → j = i

/-- A weight whose index is selected is not 0. -/
theorem Selects.pos (h : Selects w r i) (hw : 0 ≤ w i) : 0 < w i := by
  refine hw.lt_of_ne fun h0 => ?_
  have hlt := h.lt
  rw [before_succ, ← h0, add_zero] at hlt
  exact absurd (hlt.trans_le h.le) (lt_irrefl r)

variable [IsOrderedAddMonoid M]

/-- Sums of weights that are not negative grow. -/
theorem before_mono (hw : ∀ k < n, 0 ≤ w k) (hij : i ≤ j) (hj : j ≤ n) :
    before w i ≤ before w j := by
  refine sum_le_sum_of_subset_of_nonneg (range_mono hij) fun k hk _ => hw k ?_
  have hkj := mem_range.mp hk
  omega

/-- A number does not select two indices. -/
theorem Selects.eq (hw : ∀ k < n, 0 ≤ w k) (hi : i < n) (hj : j < n) (hsi : Selects w r i)
    (hsj : Selects w r j) : i = j := by
  have hnot {a b : ℕ} (ha : Selects w r a) (hb : Selects w r b) (hbn : b < n) : ¬a < b := by
    intro hab
    exact absurd (ha.lt.trans_le ((before_mono hw hab hbn.le).trans hb.le)) (lt_irrefl r)
  have h1 := hnot hsi hsj hj
  have h2 := hnot hsj hsi hi
  omega

/-- A row of weights that are not negative, with their sum. -/
structure Weights (w : ℕ → M) (n : ℕ) (total : M) : Prop where
  nonneg : ∀ k < n, 0 ≤ w k
  sum : before w n = total

/-- With weights that are not negative, an index that is selected is the only one. -/
theorem Selects.chosen (hw : ∀ k < n, 0 ≤ w k) (hi : i < n) (h : Selects w r i) :
    Chosen w n r i :=
  ⟨hi, h, fun _ hj hsj => hsj.eq hw hj hi h⟩

/-- A weight is at most the sum of all of them. -/
theorem le_before (hw : ∀ k < n, 0 ≤ w k) (hi : i < n) : w i ≤ before w n :=
  single_le_sum (fun k hk => hw k (mem_range.mp hk)) (mem_range.mpr hi)

end Weighted
