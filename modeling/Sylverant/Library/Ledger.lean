/-
# Ledgers

Entries of several owners that are posted in batches. An entry waits with its owner until all
that waits there is posted or is dropped. If none is dropped that is due, then every entry that
is due waits or was posted, and only once.
-/

import Mathlib.Data.List.Count
import Mathlib.Logic.Function.Basic
import Mathlib.Tactic.Common

open Function (update)

universe u v

/-- The entries, in their order, and where they are. -/
structure Ledger (ω : Type u) (α : Type v) where
  entries : List α := []
  pending : ω → List α := fun _ => []
  posted : List (List α) := []

namespace Ledger

variable {ω : Type u} {α : Type v} [DecidableEq ω] [DecidableEq α]

/-- Make an entry for an owner. -/
def record (g : Ledger ω α) (o : ω) (a : α) : Ledger ω α :=
  { g with entries := g.entries ++ [a], pending := update g.pending o (g.pending o ++ [a]) }

/-- Forget what waits with an owner. -/
def drop (g : Ledger ω α) (o : ω) : Ledger ω α := { g with pending := update g.pending o [] }

/-- Post what waits with an owner. -/
def post (g : Ledger ω α) (o : ω) : Ledger ω α :=
  { g.drop o with posted := g.posted ++ [g.pending o] }

/-- How often an entry was posted. -/
def times (g : Ledger ω α) (a : α) : Nat := g.posted.flatten.count a

variable {owner : α → ω} {due : α → Prop} {g : Ledger ω α} {o : ω} {a b : α}

section Writes

omit [DecidableEq α]

@[simp] theorem entries_record : (g.record o a).entries = g.entries ++ [a] := rfl

@[simp] theorem entries_drop : (g.drop o).entries = g.entries := rfl

@[simp] theorem entries_post : (g.post o).entries = g.entries := rfl

@[simp] theorem posted_record : (g.record o a).posted = g.posted := rfl

@[simp] theorem posted_drop : (g.drop o).posted = g.posted := rfl

@[simp] theorem posted_post : (g.post o).posted = g.posted ++ [g.pending o] := rfl

theorem pending_record : (g.record o a).pending = update g.pending o (g.pending o ++ [a]) := rfl

theorem pending_drop : (g.drop o).pending = update g.pending o [] := rfl

theorem pending_post : (g.post o).pending = update g.pending o [] := rfl

theorem mem_pending_drop (o' : ω) : b ∈ (g.drop o).pending o' ↔ o' ≠ o ∧ b ∈ g.pending o' := by
  rw [pending_drop]
  by_cases h : o' = o
  · subst h
    rw [Function.update_self]
    exact iff_of_false List.not_mem_nil fun hb => hb.1 rfl
  · rw [Function.update_of_ne h]
    exact ⟨fun hb => ⟨h, hb⟩, fun hb => hb.2⟩

theorem mem_pending_record (o' : ω) :
    b ∈ (g.record o a).pending o' ↔ b ∈ g.pending o' ∨ o' = o ∧ b = a := by
  rw [pending_record]
  by_cases h : o' = o
  · subst h
    rw [Function.update_self, List.mem_append, List.mem_singleton]
    exact or_congr_right ⟨fun hb => ⟨rfl, hb⟩, fun hb => hb.2⟩
  · rw [Function.update_of_ne h]
    exact ⟨.inl, fun hb => hb.elim id fun hb => absurd hb.1 h⟩

end Writes

@[simp] theorem times_record : (g.record o a).times b = g.times b := rfl

@[simp] theorem times_drop : (g.drop o).times b = g.times b := rfl

theorem times_post : (g.post o).times b = g.times b + (g.pending o).count b := by
  rw [times, posted_post, List.flatten_append, List.count_append, List.flatten_singleton, times]

/-- Entries wait with their owners, only entries are posted, and what is due waits or was posted
once. -/
structure Balanced (owner : α → ω) (due : α → Prop) (g : Ledger ω α) : Prop where
  waits : ∀ o, ∀ a ∈ g.pending o, a ∈ g.entries ∧ owner a = o
  knows : ∀ a, g.times a ≠ 0 → a ∈ g.entries
  once : ∀ a ∈ g.entries, due a → g.times a + (g.pending (owner a)).count a = 1

omit [DecidableEq ω] in
theorem balanced_empty : Balanced owner due ({} : Ledger ω α) where
  waits _ _ ha := absurd ha List.not_mem_nil
  knows _ ha := absurd rfl ha
  once _ ha := absurd ha List.not_mem_nil

/-- A new entry. -/
theorem Balanced.record (h : g.Balanced owner due) (hnew : a ∉ g.entries) (howner : owner a = o) :
    (g.record o a).Balanced owner due where
  waits o' b hb := by
    rw [entries_record, List.mem_append, List.mem_singleton]
    obtain hb | ⟨rfl, rfl⟩ := (mem_pending_record o').mp hb
    · exact ⟨.inl (h.waits o' b hb).1, (h.waits o' b hb).2⟩
    · exact ⟨.inr rfl, howner⟩
  knows b hb := List.mem_append_left _ (h.knows b hb)
  once b hb hdue := by
    rw [times_record, pending_record]
    rw [entries_record, List.mem_append, List.mem_singleton] at hb
    rcases hb with hb | rfl
    · have hne : b ≠ a := fun heq => hnew (heq ▸ hb)
      by_cases ho : owner b = o
      · rw [ho, Function.update_self, List.count_append,
          List.count_eq_zero_of_not_mem (fun hmem => hne (List.mem_singleton.mp hmem)),
          Nat.add_zero, ← ho]
        exact h.once b hb hdue
      · rw [Function.update_of_ne ho]
        exact h.once b hb hdue
    · have hposted : g.times b = 0 := by
        by_contra hpos
        exact hnew (h.knows b hpos)
      have hwaits : (g.pending o).count b = 0 :=
        List.count_eq_zero_of_not_mem fun hmem => hnew (h.waits o b hmem).1
      rw [howner, Function.update_self, List.count_append, hposted, hwaits,
        List.count_singleton_self]

/-- Nothing that is due is forgotten. -/
theorem Balanced.drop (h : g.Balanced owner due) (hnone : ∀ a ∈ g.pending o, ¬due a) :
    (g.drop o).Balanced owner due where
  waits o' b hb := h.waits o' b ((mem_pending_drop o').mp hb).2
  knows := h.knows
  once b hb hdue := by
    rw [times_drop, pending_drop]
    by_cases ho : owner b = o
    · have hcount : (g.pending (owner b)).count b = 0 :=
        List.count_eq_zero_of_not_mem fun hmem => hnone b (ho ▸ hmem) hdue
      have honce := h.once b hb hdue
      rw [hcount] at honce
      rw [ho, Function.update_self]
      exact honce
    · rw [Function.update_of_ne ho]
      exact h.once b hb hdue

/-- What waits is posted. -/
theorem Balanced.post (h : g.Balanced owner due) : (g.post o).Balanced owner due where
  waits o' b hb := h.waits o' b ((mem_pending_drop o').mp hb).2
  knows b hb := by
    rw [times_post] at hb
    by_cases hposted : g.times b = 0
    · have hmem : b ∈ g.pending o := by
        rw [← List.count_pos_iff]
        omega
      exact (h.waits o b hmem).1
    · exact h.knows b hposted
  once b hb hdue := by
    rw [times_post, pending_post]
    by_cases ho : owner b = o
    · have honce := h.once b hb hdue
      rw [ho, Function.update_self, List.count_nil, Nat.add_zero, ← ho]
      exact honce
    · have hcount : (g.pending o).count b = 0 :=
        List.count_eq_zero_of_not_mem fun hmem => ho (h.waits o b hmem).2
      rw [Function.update_of_ne ho, hcount, Nat.add_zero]
      exact h.once b hb hdue

omit [DecidableEq ω] in
/-- What is due and does not wait was posted once. -/
theorem Balanced.times_eq_one (h : g.Balanced owner due) (ha : a ∈ g.entries) (hdue : due a)
    (hgone : a ∉ g.pending (owner a)) : g.times a = 1 := by
  have honce := h.once a ha hdue
  rwa [List.count_eq_zero_of_not_mem hgone, Nat.add_zero] at honce

omit [DecidableEq ω] in
theorem Balanced.times_le_one (h : g.Balanced owner due) (ha : a ∈ g.entries) (hdue : due a) :
    g.times a ≤ 1 := by
  have honce := h.once a ha hdue
  omega

end Ledger
