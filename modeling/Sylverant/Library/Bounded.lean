/-
# Buffers of a fixed size

What is copied into a buffer takes the place of what was there, and leaves the rest. An access
that leaves a buffer of a fixed size has no result, so that a program has a result only when all
its accesses stay inside.
-/

import Mathlib.Tactic.Common

namespace Buffer

universe u

variable {α : Type u}

/-- Copy to an offset of the buffer. -/
def memcpy (buf : List α) (offset : Nat) (src : List α) : List α :=
  buf.take offset ++ src ++ buf.drop (offset + src.length)

variable {buf src : List α} {offset : Nat}

theorem length_memcpy (h : offset + src.length ≤ buf.length) :
    (memcpy buf offset src).length = buf.length := by
  rw [memcpy, List.length_append, List.length_append, List.length_take_of_le (by omega),
    List.length_drop]
  omega

/-- What is read after a copy. -/
theorem getD_memcpy (h : offset + src.length ≤ buf.length) (i : Nat) (d : α) :
    (memcpy buf offset src).getD i d =
      if offset ≤ i ∧ i < offset + src.length then src.getD (i - offset) d else buf.getD i d := by
  have htake : (buf.take offset).length = offset := List.length_take_of_le (by omega)
  unfold memcpy
  simp only [List.getD_eq_getElem?_getD]
  by_cases hbefore : i < offset
  · rw [if_neg (by omega), List.append_assoc,
      List.getElem?_append_left (by rw [htake]; exact hbefore), List.getElem?_take_of_lt hbefore]
  · by_cases hinside : i < offset + src.length
    · rw [if_pos ⟨by omega, hinside⟩, List.append_assoc,
        List.getElem?_append_right (by rw [htake]; omega), htake,
        List.getElem?_append_left (by omega)]
    · rw [if_neg (by omega), List.getElem?_append_right (by rw [List.length_append, htake]; omega),
        List.length_append, htake, List.getElem?_drop, Nat.add_sub_cancel' (by omega)]

/-- A copy of as much as there is replaces all. -/
theorem memcpy_zero (h : buf.length = src.length) : memcpy buf 0 src = src := by
  rw [memcpy, List.take_zero, List.nil_append, Nat.zero_add, ← h, List.drop_length,
    List.append_nil]

end Buffer

namespace Bounded

universe u

variable {α : Type u} {n : Nat}

/-- A buffer of `n` cells. -/
abbrev Buf (α : Type u) (n : Nat) := {cells : List α // cells.length = n}

/-- A buffer full of one value. -/
def full (n : Nat) (a : α) : Buf α n := ⟨List.replicate n a, List.length_replicate⟩

/-- Read a cell. -/
def load (b : Buf α n) (i : Nat) : Option α := b.val[i]?

/-- Read some cells. -/
def read (b : Buf α n) (i k : Nat) : Option (List α) :=
  if i + k ≤ n then some ((b.val.drop i).take k) else none

/-- Write some cells. -/
def write (b : Buf α n) (i : Nat) (src : List α) : Option (Buf α n) :=
  if h : i + src.length ≤ n then
    some ⟨Buffer.memcpy b.val i src, by rw [Buffer.length_memcpy (by rw [b.property]; exact h),
      b.property]⟩
  else none

/-- Look whether the cells differ from others, up to the first one that does. -/
def differs [DecidableEq α] (b : Buf α n) : Nat → List α → Option Bool
  | _, [] => some false
  | i, a :: as =>
      match load b i with
      | none => none
      | some c => if c ≠ a then some true else differs b (i + 1) as

variable {b b' : Buf α n} {i k : Nat} {s t : List α}

theorem drop_of_lt (h : i < n) : ∃ a rest, b.val.drop i = a :: rest :=
  have hi : i < b.val.length := by rw [b.property]; exact h
  ⟨b.val[i], b.val.drop (i + 1), List.drop_eq_getElem_cons hi⟩

/-- What lies behind the first cells at some place. -/
theorem drop_add (h : b.val.drop i = s ++ t) : b.val.drop (i + s.length) = t := by
  rw [← List.drop_drop, h, List.drop_left]

theorem length_drop (h : b.val.drop i = s ++ t) (inside : i ≤ n) :
    i + s.length + t.length = n := by
  have whole := congrArg List.length h
  rw [List.length_drop, b.property, List.length_append] at whole
  omega

theorem load_cons {a : α} (h : b.val.drop i = a :: t) : load b i = some a := by
  have first : (b.val.drop i)[0]? = b.val[i + 0]? := List.getElem?_drop
  rw [h] at first
  exact first.symm

theorem load_outside (h : n ≤ i) : load b i = none :=
  List.getElem?_eq_none (by rw [b.property]; exact h)

theorem read_append (h : b.val.drop i = s ++ t) (inside : i ≤ n) :
    read b i s.length = some s := by
  have whole := length_drop h inside
  rw [read, if_pos (by omega), h, List.take_left]

/-- Some of the cells that are known. -/
theorem read_within {off : Nat} (h : b.val.drop i = s ++ t) (inside : i ≤ n)
    (some_of : off + k ≤ s.length) : read b (i + off) k = some ((s.drop off).take k) := by
  have whole := length_drop h inside
  rw [read, if_pos (by omega), ← List.drop_drop, h, List.drop_append_of_le_length (by omega),
    List.take_append_of_le_length (by rw [List.length_drop]; omega)]

theorem read_inside (h : i + k ≤ n) : ∃ s, read b i k = some s ∧ s.length = k := by
  refine ⟨_, if_pos h, ?_⟩
  rw [List.length_take, List.length_drop, b.property]
  omega

theorem read_outside (h : n < i + k) : read b i k = none := if_neg (by omega)

theorem write_outside (h : n < i + s.length) : write b i s = none := dif_neg (by omega)

theorem write_inside (h : i + s.length ≤ n) :
    ∃ b', write b i s = some b' ∧ b'.val = Buffer.memcpy b.val i s :=
  ⟨_, dif_pos h, rfl⟩

/-- Cells are replaced by as many others. -/
theorem write_middle {p q r : List α} (h : b.val = p ++ (q ++ r))
    (place : p.length = i) (same : q.length = s.length) :
    ∃ b', write b i s = some b' ∧ b'.val = p ++ (s ++ r) := by
  have whole : p.length + (q.length + r.length) = n := by
    rw [← b.property, h, List.length_append, List.length_append]
  obtain ⟨b', written, copied⟩ := write_inside (b := b) (i := i) (s := s) (by omega)
  have behind : b.val.drop (i + s.length) = r := by
    rw [h, ← List.drop_drop, ← place, List.drop_left, ← same, List.drop_left]
  refine ⟨b', written, ?_⟩
  rw [copied, Buffer.memcpy, behind, h, ← place, List.take_left, List.append_assoc]

/-- The cells up to what is written. -/
theorem take_write (h : write b i s = some b') :
    b'.val.take (i + s.length) = b.val.take i ++ s := by
  by_cases inside : i + s.length ≤ n
  · obtain ⟨c, written, copied⟩ := write_inside (b := b) inside
    obtain rfl : c = b' := Option.some.inj (written.symm.trans h)
    have before : (b.val.take i).length = i := by
      rw [List.length_take, b.property]
      omega
    have all : (b.val.take i ++ s).length = i + s.length := by
      rw [List.length_append, before]
    rw [copied, Buffer.memcpy, ← all, List.take_left]
  · rw [write_outside (by omega)] at h
    cases h

/-- The cells are looked at past the end of the buffer only if all up to there agree. -/
theorem differs_eq_none_iff [DecidableEq α] (want : List α) :
    differs b i want = none ↔ b.val.drop i <+: want ∧ (b.val.drop i).length < want.length := by
  induction want generalizing i with
  | nil =>
      constructor
      · intro h
        exact nomatch h
      · rintro ⟨-, short⟩
        exact absurd short (Nat.not_lt_zero _)
  | cons a want ih =>
      by_cases inside : i < n
      · obtain ⟨c, rest, here⟩ := drop_of_lt (b := b) inside
        have behind : b.val.drop (i + 1) = rest := drop_add (s := [c]) here
        rw [differs, load_cons here, here]
        by_cases same : c = a
        · subst same
          simp only [ne_eq, not_true_eq_false, if_false]
          rw [ih, behind, List.prefix_cons_inj, List.length_cons, List.length_cons,
            Nat.add_lt_add_iff_right]
        · simp only [ne_eq, same, not_false_eq_true, if_true, reduceCtorEq, false_iff]
          rintro ⟨⟨t, h⟩, -⟩
          exact same (List.cons.inj h).1
      · have gone : b.val.drop i = [] :=
          List.drop_of_length_le (by rw [b.property]; exact Nat.le_of_not_lt inside)
        rw [differs, load_outside (Nat.le_of_not_lt inside), gone]
        exact iff_of_true rfl ⟨List.nil_prefix, Nat.succ_pos _⟩

/-- Cells that are there can be compared. -/
theorem differs_append [DecidableEq α] {want : List α} (h : b.val.drop i = s ++ t)
    (len : s.length = want.length) : differs b i want = some (decide (s ≠ want)) := by
  induction want generalizing i s with
  | nil =>
      obtain rfl : s = [] := List.length_eq_zero_iff.mp len
      rfl
  | cons a want ih =>
      cases s with
      | nil => exact nomatch len
      | cons c s =>
          rw [differs, load_cons h]
          by_cases same : c = a
          · subst same
            have later := ih (drop_add (s := [c]) h) (Nat.succ.inj len)
            simpa using later
          · simp [same]

end Bounded
