/-
# Blocks of memory and who owns them

A program gets blocks of memory and frees them. Each block has a number, and the heap remembers
which blocks were freed, and in which order. What the program still has is a list of blocks that
is passed from one step to the next: nothing in the list has been freed, and nothing can have been
freed twice.
-/

import Mathlib.Data.List.Count
import Mathlib.Data.List.Nodup

namespace Ownership

/-- The memory: the number of the next block, the blocks that were freed, how often the program
has asked for memory, and whether there is some each time. -/
structure Heap where
  next : Nat := 0
  freed : List Nat := []
  asked : Nat := 0
  room : Nat → Bool := fun _ => true

/-- There is memory for so many requests, after those before. -/
def Enough (room : Nat → Bool) (asked n : Nat) : Prop := ∀ k < n, room (asked + k)

namespace Heap

/-- A block from a library, which always has one. -/
def new (h : Heap) : Nat × Heap := (h.next, { h with next := h.next + 1 })

/-- `malloc` -/
def malloc (h : Heap) : Option Nat × Heap :=
  if h.room h.asked then (some h.next, { h with next := h.next + 1, asked := h.asked + 1 })
  else (none, { h with asked := h.asked + 1 })

/-- `free` -/
def free (h : Heap) (a : Nat) : Heap := { h with freed := h.freed ++ [a] }

/-- Free one block after another. -/
def freeAll (h : Heap) (as : List Nat) : Heap := { h with freed := h.freed ++ as }

/-- There is memory for the next so many requests. -/
def Has (h : Heap) (n : Nat) : Prop := Enough h.room h.asked n

/-- What the program has. Each block was given out once, and it was freed or the program still has
it, or it was forgotten. -/
def Owns (h : Heap) (live : List Nat) : Prop :=
  ∀ a, live.count a + h.freed.count a ≤ if a < h.next then 1 else 0

variable {h : Heap} {live live' : List Nat} {a : Nat}

/-! ## What is owned -/

theorem owns_empty (room : Nat → Bool) : Owns { room } [] := fun a => by simp

/-- Blocks may be forgotten, and their order does not matter. -/
theorem Owns.mono (owns : h.Owns live) (le : ∀ a, live'.count a ≤ live.count a) :
    h.Owns live' :=
  fun a => Nat.le_trans (Nat.add_le_add_right (le a) _) (owns a)

theorem Owns.nodup (owns : h.Owns live) : h.freed.Nodup := by
  rw [List.nodup_iff_count_le_one]
  intro a
  have once := owns a
  split at once <;> omega

theorem Owns.not_freed (owns : h.Owns live) (has : a ∈ live) : a ∉ h.freed := by
  intro freed
  have once := owns a
  have here := List.count_pos_iff.mpr has
  have there := List.count_pos_iff.mpr freed
  split at once <;> omega

theorem Owns.new (owns : h.Owns live) : h.new.2.Owns (h.next :: live) := by
  intro a
  have once := owns a
  change (h.next :: live).count a + h.freed.count a ≤ if a < h.next + 1 then 1 else 0
  rw [List.count_cons]
  by_cases same : h.next = a
  · subst same
    rw [if_neg (Nat.lt_irrefl _)] at once
    rw [if_pos (beq_self_eq_true _), if_pos (Nat.lt_succ_self _)]
    omega
  · rw [if_neg fun eq => same (beq_iff_eq.mp eq)]
    refine Nat.le_trans once ?_
    split <;> split <;> omega

theorem Owns.free (owns : h.Owns (a :: live)) : (h.free a).Owns live := by
  intro b
  have once := owns b
  rw [List.count_cons] at once
  change live.count b + (h.freed ++ [a]).count b ≤ if b < h.next then 1 else 0
  rw [List.count_append, List.count_singleton]
  omega

/-- A block that is owned may be freed, wherever it is among the others. -/
theorem Owns.release (owns : h.Owns live) (le : ∀ b, (a :: live').count b ≤ live.count b) :
    (h.free a).Owns live' :=
  (owns.mono le).free

theorem Owns.freeAll {as : List Nat} (owns : h.Owns (as ++ live)) :
    (h.freeAll as).Owns live := by
  intro b
  have once := owns b
  rw [List.count_append] at once
  change live.count b + (h.freed ++ as).count b ≤ if b < h.next then 1 else 0
  rw [List.count_append]
  omega

/-- A block that is freed again has been freed twice. -/
theorem not_nodup_freeAll {as : List Nat} (freed : a ∈ h.freed) (again : a ∈ as) :
    ¬ (h.freeAll as).freed.Nodup := by
  intro once
  exact List.disjoint_of_nodup_append once freed again

/-! ## What there is room for -/

theorem malloc_some (room : h.room h.asked) :
    h.malloc = (some h.next, { h with next := h.next + 1, asked := h.asked + 1 }) := if_pos room

theorem malloc_none (full : ¬ h.room h.asked) :
    h.malloc = (none, { h with asked := h.asked + 1 }) := if_neg full

theorem has_zero (h : Heap) : h.Has 0 := fun k less => absurd less (Nat.not_lt_zero k)

theorem has_one_iff : h.Has 1 ↔ h.room h.asked := by
  constructor
  · exact fun has => has 0 Nat.one_pos
  · intro room k less
    obtain rfl : k = 0 := Nat.lt_one_iff.mp less
    exact room

/-- The requests come one after another. -/
theorem has_add_iff {h' : Heap} {m n : Nat} (asked : h'.asked = h.asked + m)
    (room : h'.room = h.room) : h.Has (m + n) ↔ h.Has m ∧ h'.Has n := by
  constructor
  · intro has
    refine ⟨fun k less => has k (Nat.lt_add_right n less), fun k less => ?_⟩
    rw [room, asked, Nat.add_assoc]
    exact has (m + k) (Nat.add_lt_add_left less m)
  · rintro ⟨first, second⟩ k less
    by_cases early : k < m
    · exact first k early
    · have late := second (k - m) (by omega)
      rw [room, asked, Nat.add_assoc] at late
      rwa [show m + (k - m) = k by omega] at late

end Heap

end Ownership
