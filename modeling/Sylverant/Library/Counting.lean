/-
# Counting

How the number of elements of a list with a property changes when one element is
taken out, and when the property changes for one element only. How often something is in
several lists together, when one of them changes. And a loop that counts up from a number until
it finds one that is not used: it ends after at most as many rounds as there are used numbers.
-/

import Mathlib.Data.List.Nodup
import Mathlib.Data.List.Perm.Subperm
import Mathlib.Tactic.Common

namespace Counting

universe u

variable {α : Type u} [DecidableEq α] {xs : List α} {x : α} {p q : α → Bool}

/-- Taking out an element. -/
theorem countP_erase (h : x ∈ xs) : (xs.erase x).countP p + (p x).toNat = xs.countP p := by
  rw [(List.perm_cons_erase h).countP_eq p, List.countP_cons]
  cases p x <;> rfl

/-- Changing the property for one element. -/
theorem countP_change (hnodup : xs.Nodup) (h : x ∈ xs) (hpq : ∀ y, y ≠ x → q y = p y) :
    xs.countP q + (p x).toNat = xs.countP p + (q x).toNat := by
  have hrest : (xs.erase x).countP q = (xs.erase x).countP p := by
    refine List.countP_congr fun y hy => ?_
    rw [hpq y (hnodup.mem_erase_iff.mp hy).1]
  have hp := countP_erase (p := p) h
  have hq := countP_erase (p := q) h
  omega

section Rows

variable {β : Type u} [DecidableEq β] {f g : α → List β}

/-- Changing one of several lists that stand one after the other. -/
theorem count_flatMap_change (hnodup : xs.Nodup) (h : x ∈ xs) (hfg : ∀ y, y ≠ x → g y = f y)
    (b : β) :
    (xs.flatMap g).count b + (f x).count b = (xs.flatMap f).count b + (g x).count b := by
  have hrest : (xs.erase x).flatMap g = (xs.erase x).flatMap f := by
    rw [List.flatMap_def, List.flatMap_def,
      List.map_congr_left fun y hy => hfg y (hnodup.mem_erase_iff.mp hy).1]
  have hsplit (k : α → List β) :
      (xs.flatMap k).count b = (k x).count b + ((xs.erase x).flatMap k).count b := by
    rw [((List.perm_cons_erase h).flatMap_right k).count_eq b, List.flatMap_cons,
      List.count_append]
  rw [hsplit g, hsplit f, hrest]
  omega

end Rows

end Counting

namespace Unused

/-- Count up as long as the number is used, for at most some rounds. -/
def firstUnused (used : Nat → Bool) : Nat → Nat → Nat
  | 0, id => id
  | rounds + 1, id => if used id then firstUnused used rounds (id + 1) else id

/-- The loop finds an unused number if there is one in reach. -/
theorem used_firstUnused {used : Nat → Bool} {rounds id : Nat}
    (h : ∃ k ≤ rounds, used (id + k) = false) : used (firstUnused used rounds id) = false := by
  induction rounds generalizing id with
  | zero =>
      obtain ⟨k, hk, hfree⟩ := h
      obtain rfl : k = 0 := by omega
      exact hfree
  | succ rounds ih =>
      rw [firstUnused]
      split
      · rename_i hused
        obtain ⟨k, hk, hfree⟩ := h
        cases k with
        | zero => exact absurd (hused.symm.trans hfree) Bool.false_ne_true.symm
        | succ k => exact ih ⟨k, by omega, by rwa [Nat.add_right_comm, Nat.add_assoc]⟩
      · rename_i hfree
        exact Bool.eq_false_iff.mpr hfree

/-- Of more numbers than a list is long, one is not in the list. -/
theorem exists_not_mem (xs : List Nat) (id : Nat) : ∃ k ≤ xs.length, id + k ∉ xs := by
  by_contra hall
  have hsubset : List.range' id (xs.length + 1) ⊆ xs := by
    intro x hx
    obtain ⟨k, hk, rfl⟩ := List.mem_range'.mp hx
    by_contra hnot
    exact hall ⟨k, by omega, by rwa [Nat.one_mul] at hnot⟩
  have hlength := (List.subperm_of_subset List.nodup_range' hsubset).length_le
  rw [List.length_range'] at hlength
  omega

end Unused
