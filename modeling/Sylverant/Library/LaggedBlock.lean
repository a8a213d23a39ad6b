/-
# Numbers that are made in blocks

A generator keeps a table of numbers, and makes each new one from three of the table: the
oldest, the one after it, and one that is `lag` places further. The numbers form a stream with a
recurrence. Programs do not follow the stream one number at a time. They hand out the whole table
and then renew it in place, in one pass from its front, where the later numbers are made from
renewed ones. Whoever takes numbers sees the stream all the same.
-/

import Mathlib.Algebra.Group.Nat.Defs
import Mathlib.Tactic.Common

namespace LaggedBlock

universe u v

variable {α : Type u}

/-! ## Loops -/

/-- What each round of a counting loop keeps, the loop keeps. -/
theorem fold_inv {σ : Type v} {n : Nat} {body : (i : Nat) → i < n → σ → σ} {s : σ}
    (Inv : Nat → σ → Prop) (start : Inv 0 s)
    (round : ∀ i (hi : i < n) s, Inv i s → Inv (i + 1) (body i hi s)) :
    Inv n (Nat.fold n body s) := by
  induction n with
  | zero => exact start
  | succ n ih =>
      rw [Nat.fold_succ]
      exact round n (Nat.lt_succ_self n) _ (ih fun i hi => round i (Nat.lt_succ_of_lt hi))

/-! ## Streams -/

/-- A recurrence: how many numbers the table has, which of them go into a new one, and how. -/
structure Lagged (α : Type u) where
  size : Nat
  lag : Nat
  make : α → α → α → α
  one_lt : 1 < size
  lag_lt : lag < size

/-- A stream that obeys the recurrence. -/
def Lagged.Follows (g : Lagged α) (x : Nat → α) : Prop :=
  ∀ i, x (i + g.size) = g.make (x i) (x (i + 1)) (x (i + g.lag))

/-- The stream that starts with some numbers. -/
def Lagged.stream (g : Lagged α) (first : Nat → α) (i : Nat) : α :=
  if i < g.size then first i
  else g.make (stream g first (i - g.size)) (stream g first (i - g.size + 1))
    (stream g first (i - g.size + g.lag))
termination_by i
decreasing_by
  all_goals
    have := g.one_lt
    have := g.lag_lt
    omega

theorem Lagged.stream_of_lt (g : Lagged α) (first : Nat → α) {i : Nat} (hi : i < g.size) :
    g.stream first i = first i := by
  rw [stream, if_pos hi]

theorem Lagged.follows_stream (g : Lagged α) (first : Nat → α) : g.Follows (g.stream first) := by
  intro i
  rw [stream, if_neg (Nat.not_lt.mpr (Nat.le_add_left _ _)), Nat.add_sub_cancel]

variable {g : Lagged α} {x y : Nat → α} {b p q : Nat} {t t' : Nat → α}

/-- Two streams that agree for as long as the table is agree from there on. -/
theorem Lagged.Follows.ext_of_window (hx : g.Follows x) (hy : g.Follows y)
    (window : ∀ i < g.size, x (p + i) = y (q + i)) (i : Nat) : x (p + i) = y (q + i) := by
  induction i using Nat.strongRecOn with
  | ind i ih =>
      by_cases hi : i < g.size
      · exact window i hi
      · obtain ⟨j, rfl⟩ : ∃ j, i = j + g.size := ⟨i - g.size, by omega⟩
        have hone := g.one_lt
        have hlag := g.lag_lt
        have h0 := ih j (by omega)
        have h1 := ih (j + 1) (by omega)
        have h2 := ih (j + g.lag) (by omega)
        rw [← Nat.add_assoc] at h1 h2
        rw [← Nat.add_assoc, ← Nat.add_assoc, hx, hy, h0]
        rw [← Nat.add_assoc] at h1 h2
        rw [h1, h2]

/-! ## The pass over the table -/

/-- The table has a block of the stream, of which the first `k` numbers are renewed. -/
def Lagged.Renewed (g : Lagged α) (x : Nat → α) (b k : Nat) (t : Nat → α) : Prop :=
  ∀ i < g.size, t i = if i < k then x (b + g.size + i) else x (b + i)

/-- The table has the block of the stream that starts at `b`. -/
def Lagged.Block (g : Lagged α) (x : Nat → α) (b : Nat) (t : Nat → α) : Prop :=
  ∀ i < g.size, t i = x (b + i)

theorem Lagged.block_iff_renewed : g.Block x b t ↔ g.Renewed x b 0 t :=
  forall₂_congr fun i _ => by rw [if_neg (Nat.not_lt_zero i)]

theorem Lagged.Renewed.block (h : g.Renewed x b g.size t) : g.Block x (b + g.size) t :=
  fun i hi => (h i hi).trans (if_pos hi)

/-- The tables that the stream itself starts with. -/
theorem Lagged.block_stream (t : Nat → α) : g.Block (g.stream t) 0 t := by
  intro i hi
  rw [Nat.zero_add, g.stream_of_lt t hi]

/-- In the middle of a pass, the numbers from the one that is next to be renewed on are the
stream, where the table goes on at its front. -/
theorem Lagged.Renewed.read {k d i : Nat} (h : g.Renewed x b k t) (hk : k < g.size)
    (hd : d < g.size) (hi : i = if k + d < g.size then k + d else k + d - g.size) :
    t i = x (b + k + d) := by
  by_cases hwrap : k + d < g.size
  · rw [if_pos hwrap] at hi
    rw [hi, h _ hwrap, if_neg (by omega), Nat.add_assoc]
  · rw [if_neg hwrap] at hi
    rw [hi, h _ (by omega), if_pos (by omega)]
    congr 1
    omega

/-- One number is renewed. -/
theorem Lagged.Renewed.step {k i j : Nat} (hx : g.Follows x) (h : g.Renewed x b k t)
    (hk : k < g.size) (hi : i = if k + 1 < g.size then k + 1 else k + 1 - g.size)
    (hj : j = if k + g.lag < g.size then k + g.lag else k + g.lag - g.size)
    (here : t' k = g.make (t k) (t i) (t j)) (frame : ∀ l < g.size, l ≠ k → t' l = t l) :
    g.Renewed x b (k + 1) t' := by
  intro l hl
  by_cases heq : l = k
  · subst heq
    have hself : t l = x (b + l) := by rw [h l hl, if_neg (Nat.lt_irrefl l)]
    rw [if_pos (Nat.lt_succ_self l), here, hself, h.read hk g.one_lt hi, h.read hk g.lag_lt hj,
      ← hx (b + l)]
    congr 1
    omega
  · rw [frame l hl heq, h l hl]
    by_cases hlt : l < k
    · rw [if_pos hlt, if_pos (by omega)]
    · rw [if_neg hlt, if_neg (by omega)]

/-! ## Tables in arrays -/

section Table

variable [Inhabited α] {n start i j k c : Nat} {v : Vector α n} {a : α}

/-- The numbers of an array from some place on. -/
def table (start : Nat) (v : Vector α n) (i : Nat) : α := v[start + i]?.getD default

theorem table_of_lt (h : start + i < n) : table start v i = v[start + i] := by
  rw [table, Vector.getElem?_eq_getElem h, Option.getD_some]

theorem table_set_self (h : c < n) (hc : c = start + i) : table start (v.set c a) i = a := by
  subst hc
  rw [table_of_lt h, Vector.getElem_set_self]

theorem table_set_ne (h : c < n) (hc : c ≠ start + i) :
    table start (v.set c a) i = table start v i := by
  rw [table, table, Vector.getElem?_set_ne h hc]

/-- One number of an array is renewed. -/
theorem Lagged.Renewed.set (hx : g.Follows x) (h : g.Renewed x b k (table start v))
    (hk : k < g.size) (hc : c < n) (hck : c = start + k)
    (hi : i = if k + 1 < g.size then k + 1 else k + 1 - g.size)
    (hj : j = if k + g.lag < g.size then k + g.lag else k + g.lag - g.size)
    (value : a = g.make (table start v k) (table start v i) (table start v j)) :
    g.Renewed x b (k + 1) (table start (v.set c a)) := by
  refine h.step hx hk hi hj ?_ fun l _ hne => table_set_ne hc (by omega)
  rw [table_set_self hc hck, value]

end Table

/-- A pass that renews the table. -/
def Lagged.Renews (g : Lagged α) (t t' : Nat → α) : Prop :=
  ∀ x b, g.Follows x → g.Block x b t → g.Block x (b + g.size) t'

/-! ## Taking numbers -/

/-- The table has a block of the stream of which `q` numbers are used, and the next number is
the one at `p`. -/
def Lagged.Ready (g : Lagged α) (x : Nat → α) (p : Nat) (t : Nat → α) (q : Nat) : Prop :=
  q ≤ g.size ∧ ∃ b, p = b + q ∧ g.Block x b t

theorem Lagged.Block.ready (h : g.Block x b t) (hq : q ≤ g.size) : g.Ready x (b + q) t q :=
  ⟨hq, b, rfl, h⟩

theorem Lagged.Ready.value (h : g.Ready x p t q) (hq : q < g.size) : t q = x p := by
  obtain ⟨-, b, rfl, hb⟩ := h
  exact hb q hq

theorem Lagged.Ready.use (h : g.Ready x p t q) (hq : q < g.size) :
    g.Ready x (p + 1) t (q + 1) := by
  obtain ⟨-, b, rfl, hb⟩ := h
  exact ⟨hq, b, rfl, hb⟩

/-- When all numbers are used, the renewed table goes on where they end. -/
theorem Lagged.Ready.renew (hx : g.Follows x) (h : g.Ready x p t g.size) (hpass : g.Renews t t') :
    g.Ready x p t' 0 := by
  obtain ⟨-, b, rfl, hb⟩ := h
  exact ⟨Nat.zero_le _, b + g.size, rfl, hpass x b hx hb⟩

end LaggedBlock
