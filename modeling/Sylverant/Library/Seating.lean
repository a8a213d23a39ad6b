/-
# Seating

Guests that sit on places, recorded twice: each place knows its guest, and each
guest knows its place. The two records agree, and keep agreeing when a guest
enters, leaves, or moves by taking the new place before giving up the old one.
-/

import Mathlib.Tactic.Common
import Mathlib.Logic.Function.Basic

namespace Seating

open Function (update)

universe u v

variable {ι : Type u} {κ : Type v}

/-- The places and the guests agree about who sits where. -/
def Paired (guest : κ → Option ι) (seat : ι → Option κ) : Prop :=
  ∀ p x, guest p = some x ↔ seat x = some p

namespace Paired

variable {guest : κ → Option ι} {seat : ι → Option κ} {x y : ι} {p q : κ}

/-- A guest sits on one place only. -/
theorem place_unique (h : Paired guest seat) (hp : guest p = some x) (hq : guest q = some x) :
    p = q :=
  Option.some.inj (((h p x).mp hp).symm.trans ((h q x).mp hq))

variable [DecidableEq ι] [DecidableEq κ]

/-- A guest without a place takes a free one. -/
theorem enter (h : Paired guest seat) (hx : seat x = none) (hp : guest p = none) :
    Paired (update guest p (some x)) (update seat x (some p)) := by
  intro q y
  by_cases hq : q = p <;> by_cases hy : y = x
  · subst hq hy
    simp only [Function.update_self]
  · subst hq
    rw [Function.update_self, Function.update_of_ne hy, ← h q y, hp]
    exact ⟨fun heq => absurd (Option.some.inj heq).symm hy, fun heq => (nomatch heq)⟩
  · subst hy
    rw [Function.update_self, Function.update_of_ne hq, h q y, hx]
    exact ⟨fun heq => (nomatch heq), fun heq => absurd (Option.some.inj heq).symm hq⟩
  · rw [Function.update_of_ne hq, Function.update_of_ne hy]
    exact h q y

/-- A guest gives up its place. -/
theorem leave (h : Paired guest seat) (hp : guest p = some x) :
    Paired (update guest p none) (update seat x none) := by
  intro q y
  by_cases hq : q = p <;> by_cases hy : y = x
  · subst hq hy
    simp only [Function.update_self, reduceCtorEq]
  · subst hq
    rw [Function.update_self, Function.update_of_ne hy, ← h q y, hp]
    exact ⟨fun heq => (nomatch heq), fun heq => absurd (Option.some.inj heq).symm hy⟩
  · subst hy
    rw [Function.update_self, Function.update_of_ne hq]
    exact ⟨fun heq => absurd (h.place_unique heq hp) hq, fun heq => (nomatch heq)⟩
  · rw [Function.update_of_ne hq, Function.update_of_ne hy]
    exact h q y

/-- A guest takes a free place, and gives up the one it had afterwards. -/
theorem move (h : Paired guest seat) (hp : guest p = some x) (hq : guest q = none) :
    Paired (update (update guest q (some x)) p none) (update seat x (some q)) := by
  have hne : p ≠ q := fun heq => by
    rw [heq, hq] at hp
    cases hp
  have hmoved := (h.leave hp).enter (x := x) (p := q) (Function.update_self ..)
    (by rw [Function.update_of_ne (Ne.symm hne), hq])
  rwa [Function.update_comm hne, Function.update_idem] at hmoved

end Paired

/-! ## Rows -/

section Rows

variable {ρ : Type v} [DecidableEq ρ] {r : ρ} {i : Nat} {v : Option ι}

/-- Writing to one place of a row, when the places are in rows. -/
theorem update_row (row row' : ρ → Nat → Option ι) (hrest : ∀ q, q ≠ r → row' q = row q)
    (hrow : row' r = update (row r) i v) :
    (fun p : ρ × Nat => row' p.1 p.2) = update (fun p : ρ × Nat => row p.1 p.2) (r, i) v := by
  funext p
  obtain ⟨q, j⟩ := p
  by_cases hq : q = r
  · subst hq
    by_cases hj : j = i
    · subst hj
      simp only [hrow, Function.update_self]
    · have hne : (q, j) ≠ (q, i) := fun heq => hj (Prod.mk.inj heq).2
      simp only [hrow, Function.update_of_ne hj, Function.update_of_ne hne]
  · have hne : (q, j) ≠ (r, i) := fun heq => hq (Prod.mk.inj heq).1
    simp only [hrest q hq, Function.update_of_ne hne]

end Rows

end Seating
