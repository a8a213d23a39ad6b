/-
# Tables that are filled level by level

A table gets, for one level after the other, what each element of a list has for the level.
What there is through a level stands at the start of the table, so a number for each level
is enough to find it. Up to the order it is what each element has for all of these levels.
-/

import Mathlib.Data.List.Basic
import Mathlib.Data.List.Flatten
import Mathlib.Data.List.Perm.Basic
import Mathlib.Algebra.Group.Action.Defs
import Mathlib.Algebra.Order.BigOperators.Group.List
import Mathlib.Algebra.Order.Group.Nat

namespace Levels

universe u v

variable {α : Type u} {β : Type v} (emit : Nat → α → List β) (xs : List α)

/-- What there is for the levels below a number. -/
def through (m : Nat) : List β := (List.range m).flatMap fun i => xs.flatMap (emit i)

@[simp]
theorem through_zero : through emit xs 0 = [] := rfl

theorem through_succ (m : Nat) :
    through emit xs (m + 1) = through emit xs m ++ xs.flatMap (emit m) := by
  rw [through, List.range_succ, List.flatMap_append, List.flatMap_singleton]
  rfl

/-- What one element has for the levels below a number. -/
def own (m : Nat) (x : α) : List β := (List.range m).flatMap fun i => emit i x

theorem own_succ (m : Nat) (x : α) : own emit (m + 1) x = own emit m x ++ emit m x := by
  rw [own, List.range_succ, List.flatMap_append, List.flatMap_singleton]
  rfl

/-- Up to the order, a table has what its elements have. -/
theorem through_perm (m : Nat) : (through emit xs m).Perm (xs.flatMap (own emit m)) := by
  induction m with
  | zero =>
      have hnone : xs.flatMap (own emit 0) = [] := List.flatMap_eq_nil_iff.mpr fun _ _ => rfl
      rw [hnone, through_zero]
  | succ m ih =>
      rw [through_succ, List.flatMap_congr fun x _ => own_succ emit m x]
      exact (ih.append_right _).trans (List.flatMap_append_perm xs (own emit m) (emit m))

/-- What there is through a level stays at the start of the table. -/
theorem through_of_le {m n : Nat} (h : m ≤ n) : through emit xs m <+: through emit xs n := by
  induction h with
  | refl => exact List.prefix_refl _
  | step _ ih =>
      rw [through_succ]
      exact ih.trans (List.prefix_append _ _)

variable {emit xs}

/-- A bound for the table from one for each element. -/
theorem length_through_le {c m : Nat} (h : ∀ x ∈ xs, (own emit m x).length ≤ c) :
    (through emit xs m).length ≤ xs.length * c := by
  rw [(through_perm emit xs m).length_eq, List.length_flatMap]
  rw [← smul_eq_mul, ← List.length_map fun x => (own emit m x).length]
  refine List.sum_le_card_nsmul _ c fun k hk => ?_
  obtain ⟨x, hx, rfl⟩ := List.mem_map.mp hk
  exact h x hx

end Levels
