/-
# Records that are stored compressed or raw

A record goes into a row with its compressed form and its size, if compressing makes it
shorter, or else as it is and without a size. Whether the size is there tells what the row
has.
-/

import Mathlib.Tactic.Common

namespace Packed

universe u

/-- A way to compress, which may fail. To uncompress, the room for the result is given. -/
structure Codec (α : Type u) where
  compress : List α → Option (List α)
  uncompress : List α → Nat → Option (List α)
  /-- What was compressed comes out again, if there is room for it. -/
  inverts : ∀ d c n, compress d = some c → d.length ≤ n → uncompress c n = some d
  /-- What comes out fits the room. -/
  fits : ∀ c d n, uncompress c n = some d → d.length ≤ n

/-- The columns of a row for the data and for its size. -/
structure Row (α : Type u) where
  data : List α
  size : Option Nat
deriving DecidableEq, Repr

variable {α : Type u} (z : Codec α)

namespace Codec

/-- The record as it is compressed, if that is shorter. -/
def shorter (d : List α) : Option (List α) :=
  (z.compress d).filter fun c => decide (c.length < d.length)

def pack (d : List α) : Row α :=
  match z.shorter d with
  | some c => { data := c, size := some d.length }
  | none => { data := d, size := none }

def unpack (row : Row α) : Option (List α) :=
  match row.size with
  | some n => z.uncompress row.data n
  | none => some row.data

/-- Store a record in a row that keeps its size. -/
def repack (row : Row α) (d : List α) : Row α := { row with data := (z.pack d).data }

/-- The row stays right: a record without a size was not and is not compressed; one with a size
is compressed and not longer than that, or comes out of itself. -/
def Repacks (row : Row α) (d : List α) : Prop :=
  match row.size, z.shorter d with
  | none, shorter => shorter = none
  | some n, some _ => d.length ≤ n
  | some n, none => z.uncompress d n = some d

variable {z}

theorem shorter_eq_some {d c : List α} (h : z.shorter d = some c) :
    z.compress d = some c ∧ c.length < d.length := by
  obtain ⟨hc, hlt⟩ := Option.filter_eq_some_iff.mp h
  exact ⟨hc, of_decide_eq_true hlt⟩

/-- A record comes out of a row of its own. -/
@[simp]
theorem unpack_pack (d : List α) : z.unpack (z.pack d) = some d := by
  unfold pack
  cases h : z.shorter d with
  | none => rfl
  | some c => exact z.inverts d c d.length (shorter_eq_some h).1 (Nat.le_refl _)

/-- A record comes out of a row that had another one just if the row stays right. -/
theorem unpack_repack_iff (row : Row α) (d : List α) :
    z.unpack (z.repack row d) = some d ↔ z.Repacks row d := by
  unfold unpack repack Repacks pack
  cases row.size with
  | none =>
      cases h : z.shorter d with
      | none => exact ⟨fun _ => rfl, fun _ => rfl⟩
      | some c =>
          refine ⟨fun heq => ?_, fun heq => nomatch heq⟩
          have hsame : c = d := Option.some.inj heq
          have hlt := (shorter_eq_some h).2
          rw [hsame] at hlt
          exact absurd hlt (Nat.lt_irrefl _)
  | some n =>
      cases h : z.shorter d with
      | none => exact Iff.rfl
      | some c => exact ⟨z.fits c d n, z.inverts d c n (shorter_eq_some h).1⟩

end Codec

end Packed
