/-
# Slots

An array of slots that are free or hold something: how many of the first `n` are
filled, how filling and clearing one changes that number, and which is the first
that is free. And a loop over the first `n` indices that remembers the first index with the
smallest key below a bound. Indices without a key are skipped.
-/

import Mathlib.Logic.Function.Basic
import Mathlib.Tactic.Common

namespace Slots

open Function (update)

universe u

variable {α : Type u} {f : Nat → Option α} {n i : Nat}

/-- The number of the first `n` slots that are filled. -/
def filled (n : Nat) (f : Nat → Option α) : Nat := (List.range n).countP fun i => (f i).isSome

/-- The first of `n` slots that is free. -/
def firstFree (n : Nat) (f : Nat → Option α) : Option Nat :=
  (List.range n).find? fun i => (f i).isNone

@[simp]
theorem filled_zero (f : Nat → Option α) : filled 0 f = 0 := rfl

theorem filled_succ (n : Nat) (f : Nat → Option α) :
    filled (n + 1) f = filled n f + if (f n).isSome then 1 else 0 := by
  rw [filled, List.range_succ, List.countP_append, List.countP_singleton, filled]

theorem filled_le (n : Nat) (f : Nat → Option α) : filled n f ≤ n := by
  have h : filled n f ≤ (List.range n).length := List.countP_le_length
  rwa [List.length_range] at h

/-- A slot that is not counted does not matter. -/
theorem filled_update_of_le (h : n ≤ i) (v : Option α) :
    filled n (update f i v) = filled n f := by
  apply List.countP_congr
  intro j hj
  have hne : j ≠ i := by
    have := List.mem_range.mp hj
    omega
  rw [Function.update_of_ne hne]

/-- Filling a free slot. -/
theorem filled_update_some (hi : i < n) (h : f i = none) (x : α) :
    filled n (update f i (some x)) = filled n f + 1 := by
  induction n with
  | zero => omega
  | succ n ih =>
      rw [filled_succ, filled_succ]
      by_cases hlast : i = n
      · subst hlast
        rw [filled_update_of_le (Nat.le_refl i), Function.update_self, h]
        rfl
      · rw [ih (by omega), Function.update_of_ne (Ne.symm hlast)]
        omega

/-- Clearing a filled slot. -/
theorem filled_update_none (hi : i < n) {x : α} (h : f i = some x) :
    filled n (update f i none) + 1 = filled n f := by
  have hback : update (update f i none) i (some x) = f := by
    rw [Function.update_idem, ← h, Function.update_eq_self]
  rw [← filled_update_some hi (Function.update_self ..) x, hback]

theorem filled_eq_zero_iff : filled n f = 0 ↔ ∀ i, i < n → f i = none := by
  simp only [filled, List.countP_eq_zero, List.mem_range, Option.not_isSome_iff_eq_none]

/-- A filled slot counts. -/
theorem filled_pos (hi : i < n) {x : α} (h : f i = some x) : 0 < filled n f := by
  have hback := filled_update_none hi h
  omega

/-- Only one slot is filled when clearing it leaves none. -/
theorem exists_of_filled_pos (h : 0 < filled n f) : ∃ i x, i < n ∧ f i = some x := by
  by_contra hnone
  have hzero : filled n f = 0 := filled_eq_zero_iff.mpr fun i hi => by
    cases hf : f i with
    | none => rfl
    | some x => exact absurd ⟨i, x, hi, hf⟩ hnone
  omega

theorem firstFree_eq_some (h : firstFree n f = some i) : i < n ∧ f i = none := by
  have hfree := List.find?_some h
  exact ⟨List.mem_range.mp (List.mem_of_find?_eq_some h), Option.isNone_iff_eq_none.mp hfree⟩

/-- There is a free slot as long as not all are filled. -/
theorem exists_firstFree (h : filled n f < n) : ∃ i, firstFree n f = some i := by
  cases hfree : firstFree n f with
  | some i => exact ⟨i, rfl⟩
  | none =>
      have hall : filled n f = (List.range n).length := by
        apply List.countP_eq_length.mpr
        intro i hi
        have hnot := List.find?_eq_none.mp hfree i hi
        cases hf : f i with
        | none => exact absurd (Option.isNone_iff_eq_none.mpr hf) hnot
        | some x => rfl
      rw [List.length_range] at hall
      omega

end Slots

namespace Scan

/-- Look at one more index. -/
def next (key : Nat → Option Nat) (best : Option Nat × Nat) (i : Nat) : Option Nat × Nat :=
  match key i with
  | none => best
  | some k => if k < best.2 then (some i, k) else best

/-- Look at the first `n` indices. -/
def scan (key : Nat → Option Nat) (n : Nat) (best : Option Nat × Nat) : Option Nat × Nat :=
  (List.range n).foldl (next key) best

variable {key : Nat → Option Nat} {n bound : Nat}

theorem scan_succ (key : Nat → Option Nat) (n : Nat) (best : Option Nat × Nat) :
    scan key (n + 1) best = next key (scan key n best) n := by
  rw [scan, List.range_succ, List.foldl_append, List.foldl_cons, List.foldl_nil, scan]

/-- No key lies below the bound, or the scan finds the smallest. -/
theorem scan_cases (key : Nat → Option Nat) (n bound : Nat) :
    (scan key n (none, bound) = (none, bound) ∧
        ∀ i k, i < n → key i = some k → bound ≤ k) ∨
      ∃ i k, scan key n (none, bound) = (some i, k) ∧ i < n ∧ key i = some k ∧ k < bound ∧
        ∀ j k', j < n → key j = some k' → k ≤ k' := by
  induction n with
  | zero => exact .inl ⟨rfl, fun i k hi => absurd hi (Nat.not_lt_zero i)⟩
  | succ n ih =>
      rw [scan_succ]
      obtain ⟨hscan, hall⟩ | ⟨i, k, hscan, hi, hkey, hlt, hmin⟩ := ih
      · rw [hscan, next]
        cases hn : key n with
        | none =>
            refine .inl ⟨rfl, fun i k hi hk => ?_⟩
            obtain hi | rfl := Nat.lt_succ_iff_lt_or_eq.mp hi
            · exact hall i k hi hk
            · rw [hn] at hk
              cases hk
        | some m =>
            dsimp only
            split
            · rename_i hm
              refine .inr ⟨n, m, rfl, Nat.lt_succ_self n, hn, hm, fun j k' hj hk => ?_⟩
              obtain hj | rfl := Nat.lt_succ_iff_lt_or_eq.mp hj
              · exact Nat.le_trans (Nat.le_of_lt hm) (hall j k' hj hk)
              · exact Nat.le_of_eq (Option.some.inj (hn.symm.trans hk))
            · rename_i hm
              refine .inl ⟨rfl, fun i k hi hk => ?_⟩
              obtain hi | rfl := Nat.lt_succ_iff_lt_or_eq.mp hi
              · exact hall i k hi hk
              · rw [hn] at hk
                cases hk
                omega
      · rw [hscan, next]
        cases hn : key n with
        | none =>
            refine .inr ⟨i, k, rfl, by omega, hkey, hlt, fun j k' hj hk => ?_⟩
            obtain hj | rfl := Nat.lt_succ_iff_lt_or_eq.mp hj
            · exact hmin j k' hj hk
            · rw [hn] at hk
              cases hk
        | some m =>
            dsimp only
            split
            · rename_i hm
              refine .inr ⟨n, m, rfl, Nat.lt_succ_self n, hn, by omega, fun j k' hj hk => ?_⟩
              obtain hj | rfl := Nat.lt_succ_iff_lt_or_eq.mp hj
              · exact Nat.le_trans (Nat.le_of_lt hm) (hmin j k' hj hk)
              · exact Nat.le_of_eq (Option.some.inj (hn.symm.trans hk))
            · rename_i hm
              refine .inr ⟨i, k, rfl, by omega, hkey, hlt, fun j k' hj hk => ?_⟩
              obtain hj | rfl := Nat.lt_succ_iff_lt_or_eq.mp hj
              · exact hmin j k' hj hk
              · rw [hn] at hk
                cases hk
                omega

end Scan
