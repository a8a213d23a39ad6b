/-
# Bit masks

A mask of fixed width stands for the set of the places of its bits. Setting,
clearing and testing one bit, as programs write them with a shifted one, insert,
remove and look up one element of this set.
-/

import Mathlib.Data.Set.Insert

namespace BitMask

variable {w : Nat}

/-- The places of the bits of a mask. -/
def members (m : BitVec w) : Set Nat := {i | m.getLsbD i = true}

instance (m : BitVec w) (i : Nat) : Decidable (i ∈ members m) :=
  inferInstanceAs (Decidable (m.getLsbD i = true))

theorem mem_members {m : BitVec w} {i : Nat} : i ∈ members m ↔ m.getLsbD i = true := Iff.rfl

theorem lt_of_mem {m : BitVec w} {i : Nat} (h : i ∈ members m) : i < w := by
  by_contra outside
  rw [mem_members, BitVec.getLsbD_of_ge m i (Nat.le_of_not_lt outside)] at h
  contradiction

@[simp] theorem members_zero : members (0#w) = ∅ := by
  ext i
  simp [mem_members]

theorem members_and (m m' : BitVec w) : members (m &&& m') = members m ∩ members m' := by
  ext i
  rw [Set.mem_inter_iff, mem_members, mem_members, mem_members, BitVec.getLsbD_and,
    Bool.and_eq_true]

theorem mem_not {m : BitVec w} {i : Nat} : i ∈ members (~~~m) ↔ i < w ∧ i ∉ members m := by
  rw [mem_members, BitVec.getLsbD_not, Bool.and_eq_true, decide_eq_true_eq, Bool.not_eq_true',
    mem_members, Bool.not_eq_true]

theorem ne_zero_iff {m : BitVec w} : m ≠ 0#w ↔ ∃ i, i ∈ members m := by
  constructor
  · intro h
    by_contra none
    apply h
    apply BitVec.eq_of_getLsbD_eq
    intro i _
    rw [BitVec.getLsbD_zero]
    exact Bool.eq_false_iff.mpr fun bit => none ⟨i, bit⟩
  · rintro ⟨i, hi⟩ rfl
    rw [members_zero] at hi
    contradiction

/-- `m |= 1 << i` -/
theorem members_insert (m : BitVec w) {i : Nat} (inside : i < w) :
    members (m ||| 1#w <<< i) = insert i (members m) := by
  ext j
  rw [← BitVec.twoPow_eq, Set.mem_insert_iff, mem_members, mem_members, BitVec.getLsbD_or,
    BitVec.getLsbD_twoPow]
  simp only [inside, decide_true, Bool.true_and, Bool.or_eq_true, decide_eq_true_eq]
  constructor
  · rintro (h | h)
    · exact Or.inr h
    · exact Or.inl h.symm
  · rintro (h | h)
    · exact Or.inr h.symm
    · exact Or.inl h

/-- `m &= ~(1 << i)` -/
theorem members_remove (m : BitVec w) (i : Nat) :
    members (m &&& ~~~(1#w <<< i)) = members m \ {i} := by
  ext j
  rw [← BitVec.twoPow_eq, Set.mem_sdiff, Set.mem_singleton_iff, mem_members, mem_members,
    BitVec.getLsbD_and, BitVec.getLsbD_not, BitVec.getLsbD_twoPow]
  constructor
  · intro h
    simp only [Bool.and_eq_true, decide_eq_true_eq, Bool.not_eq_true', Bool.and_eq_false_iff,
      decide_eq_false_iff_not] at h
    obtain ⟨hm, hj, hi⟩ := h
    refine ⟨hm, ?_⟩
    rintro rfl
    rcases hi with hi | hi
    · exact hi hj
    · exact hi rfl
  · rintro ⟨hm, hne⟩
    have hj : j < w := lt_of_mem hm
    simp [hm, hj, Ne.symm hne]

/-- `m & (1 << i)` -/
theorem test_ne_zero {m : BitVec w} {i : Nat} : m &&& 1#w <<< i ≠ 0#w ↔ i ∈ members m := by
  rw [← BitVec.twoPow_eq, BitVec.and_twoPow, mem_members]
  constructor
  · intro h
    by_contra clear
    exact h (if_neg clear)
  · intro h zero
    rw [if_pos h] at zero
    have bit := congrArg (fun v : BitVec w => v.getLsbD i) zero
    have inside : i < w := lt_of_mem h
    simp [inside] at bit

end BitMask
