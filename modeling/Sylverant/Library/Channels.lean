/-
# Queues and channels

A queue between a writer and a consumer, with its history: what the consumer was given and what
is still queued, taken together, is what was written, in that order, whatever the consumer takes
and when. And packets in flight over several channels, in one list: what is sent goes to its end,
and the next packet of a channel is the first one of the list that goes over it.
-/

import Mathlib.Data.List.Perm.Basic
import Mathlib.Tactic.Common

namespace Fifo

universe u

variable {α : Type u}

/-- What the consumer was given, and what waits for it. -/
structure Queue (α : Type u) where
  taken : List α
  pending : List α

namespace Queue

/-- The queue after the writer has written `letters`. -/
def push (q : Queue α) (letters : List α) : Queue α :=
  { q with pending := q.pending ++ letters }

/-- The queue after the consumer has taken `n` letters, or all if there are fewer. -/
def pop (q : Queue α) (n : Nat) : Queue α where
  taken := q.taken ++ q.pending.take n
  pending := q.pending.drop n

/-- All that was ever written. -/
def history (q : Queue α) : List α := q.taken ++ q.pending

@[simp]
theorem history_push (q : Queue α) (letters : List α) :
    (q.push letters).history = q.history ++ letters :=
  (List.append_assoc ..).symm

@[simp]
theorem history_pop (q : Queue α) (n : Nat) : (q.pop n).history = q.history := by
  rw [history, pop, List.append_assoc, List.take_append_drop, history]

@[simp]
theorem pop_zero (q : Queue α) : q.pop 0 = q := by
  rw [pop, List.take_zero, List.append_nil, List.drop_zero]

end Queue

/-- A step of a queue: a write, or a delivery. -/
inductive Op (α : Type u)
  | push (letters : List α)
  | pop (n : Nat)

/-- The queue after a step. -/
def Queue.apply (q : Queue α) : Op α → Queue α
  | .push letters => q.push letters
  | .pop n => q.pop n

/-- The letters a step writes. -/
def Op.written : Op α → List α
  | .push letters => letters
  | .pop _ => []

/-- Nothing is lost, doubled or reordered in any run. -/
theorem Queue.history_foldl (q : Queue α) (ops : List (Op α)) :
    (ops.foldl Queue.apply q).history = q.history ++ ops.flatMap Op.written := by
  induction ops generalizing q with
  | nil => rw [List.foldl_nil, List.flatMap_nil, List.append_nil]
  | cons op ops ih =>
      rw [List.foldl_cons, List.flatMap_cons, ih, ← List.append_assoc]
      cases op with
      | push letters => rw [Queue.apply, history_push, Op.written]
      | pop n => rw [Queue.apply, history_pop, Op.written, List.append_nil]

end Fifo

namespace Channels

variable {α : Type*}

/-- The next packet of a channel, and what else is in flight. -/
def next? (sel : α → Bool) : List α → Option (α × List α)
  | [] => none
  | a :: flying =>
      if sel a then some (a, flying)
      else (next? sel flying).map fun found => (found.1, a :: found.2)

variable {sel q : α → Bool} {a : α} {flying rest : List α}

/-- The next packet goes over the channel, and none before it does. -/
theorem exists_of_next? (h : next? sel flying = some (a, rest)) :
    ∃ front back, flying = front ++ a :: back ∧ rest = front ++ back ∧ sel a = true ∧
      ∀ b ∈ front, sel b = false := by
  induction flying generalizing rest with
  | nil => cases h
  | cons b flying ih =>
      rw [next?] at h
      split at h
      · rename_i hover
        cases h
        exact ⟨[], flying, rfl, rfl, hover, fun _ hb => (List.not_mem_nil hb).elim⟩
      · rename_i hover
        rcases Option.map_eq_some_iff.mp h with ⟨found, hfound, heq⟩
        rcases found with ⟨a', rest'⟩
        cases heq
        rcases ih hfound with ⟨front, back, rfl, rfl, ha, hfront⟩
        refine ⟨b :: front, back, rfl, rfl, ha, fun c hc => ?_⟩
        rcases List.mem_cons.mp hc with rfl | hc
        · exact Bool.eq_false_iff.mpr hover
        · exact hfront c hc

theorem sel_of_next? (h : next? sel flying = some (a, rest)) : sel a = true := by
  rcases exists_of_next? h with ⟨front, back, -, -, hover, -⟩
  exact hover

/-- A packet that is taken is no longer in flight, the others are. -/
theorem perm_of_next? (h : next? sel flying = some (a, rest)) :
    List.Perm flying (a :: rest) := by
  rcases exists_of_next? h with ⟨front, back, rfl, rfl, -, -⟩
  exact List.perm_middle

theorem mem_of_next? (h : next? sel flying = some (a, rest)) : a ∈ flying :=
  (perm_of_next? h).mem_iff.mpr List.mem_cons_self

theorem mem_of_mem_rest (h : next? sel flying = some (a, rest)) {b : α} (hb : b ∈ rest) :
    b ∈ flying := (perm_of_next? h).mem_iff.mpr (List.mem_cons_of_mem a hb)

/-- Of what is counted in flight, the packet that is taken is one less. -/
theorem countP_of_next? (h : next? sel flying = some (a, rest)) :
    flying.countP q = rest.countP q + if q a then 1 else 0 := by
  rw [(perm_of_next? h).countP_eq, List.countP_cons]

end Channels
