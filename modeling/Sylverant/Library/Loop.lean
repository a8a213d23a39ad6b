/-
# Loops

A loop that counts up and breaks off at the first error, and the rules for it: what a
round keeps, a loop that ends keeps, and a loop whose rounds fill one cell each fills
all of them. A loop that goes on until a round stops it has the result of the only state
it comes to whose round stops.
-/

import Mathlib.Logic.Relation
import Mathlib.Tactic.Common

namespace Loop

variable {ε σ τ : Type}

/-- The rounds that are left of a loop, and the count of the next one. -/
def count (body : Nat → σ → Except ε σ) : Nat → Nat → σ → Except ε σ
  | 0, _, s => .ok s
  | left + 1, i, s =>
      match body i s with
      | .error e => .error e
      | .ok s => count body left (i + 1) s

/-- An invariant of the rounds, in a loop of which no round breaks off. -/
theorem count_inv {body : Nat → σ → Except ε σ} {n i : Nat} {s : σ} (Inv : Nat → σ → Prop)
    (hstart : Inv i s)
    (hround : ∀ j s, i ≤ j → j < i + n → Inv j s → ∃ s', body j s = .ok s' ∧ Inv (j + 1) s') :
    ∃ s', count body n i s = .ok s' ∧ Inv (i + n) s' := by
  induction n generalizing i s with
  | zero => exact ⟨s, rfl, hstart⟩
  | succ n ih =>
      obtain ⟨s₁, hbody, hnext⟩ := hround i s (Nat.le_refl i) (by omega) hstart
      obtain ⟨s₂, hrest, hend⟩ := ih hnext fun j s hlow hhigh => hround j s (by omega) (by omega)
      refine ⟨s₂, ?_, ?_⟩
      · rw [count, hbody]
        exact hrest
      · rw [Nat.add_right_comm] at hend
        exact hend

/-- A loop that breaks off with the only error that there is in its rounds. -/
theorem count_error {body : Nat → σ → Except ε σ} {n i : Nat} {e : ε}
    (hround : ∀ j s, body j s = .error e ∨ ∃ s', body j s = .ok s')
    (hbreak : ∃ j, i ≤ j ∧ j < i + n ∧ ∀ s, body j s = .error e) (s : σ) :
    count body n i s = .error e := by
  induction n generalizing i s with
  | zero =>
      obtain ⟨j, hlow, hhigh, -⟩ := hbreak
      omega
  | succ n ih =>
      rw [count]
      rcases hround i s with herror | ⟨s', hok⟩
      · rw [herror]
      · rw [hok]
        obtain ⟨j, hlow, hhigh, hj⟩ := hbreak
        refine ih ⟨j, ?_, by omega, hj⟩ s'
        rcases Nat.lt_or_eq_of_le hlow with hlt | rfl
        · exact hlt
        · rw [hj s] at hok
          cases hok

/-- A loop whose rounds fill one cell each. The rounds may count on an invariant of the
rest of the state. -/
theorem count_fills {body : Nat → σ → Except ε σ} {n : Nat} {s : σ} {cell : σ → Nat → τ}
    {Q : Nat → σ → Prop} {P : Nat → τ → Prop} (hstart : Q 0 s)
    (hround : ∀ j < n, ∀ s, Q j s → ∃ s', body j s = .ok s' ∧ Q (j + 1) s' ∧ P j (cell s' j) ∧
      ∀ k, k ≠ j → cell s' k = cell s k) :
    ∃ s', count body n 0 s = .ok s' ∧ Q n s' ∧ ∀ j < n, P j (cell s' j) := by
  have hloop := @count_inv _ _ body n 0 s
    (fun j s => Q j s ∧ ∀ k < j, P k (cell s k)) ⟨hstart, fun k hk => absurd hk (Nat.not_lt_zero k)⟩
    fun j s _ hlt hinv => by
      obtain ⟨s', hbody, hnext, hcell, hrest⟩ := hround j (by omega) s hinv.1
      refine ⟨s', hbody, hnext, fun k hk => ?_⟩
      rcases Nat.lt_succ_iff_lt_or_eq.mp hk with hlt | rfl
      · rw [hrest k (Nat.ne_of_lt hlt)]
        exact hinv.2 k hlt
      · exact hcell
  rw [Nat.zero_add] at hloop
  exact hloop

/-! ## Loops that go on until they stop -/

section Until

universe u v

variable {ρ : Type u} {α : Type v}

/-- The result that a loop stops with, if it does so within so many rounds. -/
def stops (body : α → Except ρ α) : Nat → α → Option ρ
  | 0, _ => none
  | rounds + 1, a =>
      match body a with
      | .error r => some r
      | .ok next => stops body rounds next

/-- The loop comes from one state to the other. -/
def Comes (body : α → Except ρ α) : α → α → Prop :=
  Relation.ReflTransGen fun a next => body a = .ok next

variable {body : α → Except ρ α} {a b next : α} {r r' : ρ} {rounds : Nat}

theorem stops_error (hbody : body a = .error r) : stops body (rounds + 1) a = some r := by
  rw [stops, hbody]

theorem stops_ok (hbody : body a = .ok next) :
    stops body (rounds + 1) a = stops body rounds next := by
  rw [stops, hbody]

/-- The loop stops with a result just when it comes to a state whose round does. -/
theorem stops_iff :
    (∃ rounds, stops body rounds a = some r) ↔ ∃ b, Comes body a b ∧ body b = .error r := by
  constructor
  · rintro ⟨rounds, hstops⟩
    induction rounds generalizing a with
    | zero => exact nomatch hstops
    | succ rounds ih =>
        cases hbody : body a with
        | error r' =>
            rw [stops_error hbody] at hstops
            obtain rfl := Option.some.inj hstops
            exact ⟨a, Relation.ReflTransGen.refl, hbody⟩
        | ok next =>
            rw [stops_ok hbody] at hstops
            obtain ⟨b, hcomes, hlast⟩ := ih hstops
            exact ⟨b, Relation.ReflTransGen.head hbody hcomes, hlast⟩
  · rintro ⟨b, hcomes, hlast⟩
    induction hcomes using Relation.ReflTransGen.head_induction_on with
    | refl => exact ⟨1, stops_error hlast⟩
    | head hbody _ ih =>
        obtain ⟨rounds, hstops⟩ := ih
        exact ⟨rounds + 1, (stops_ok hbody).trans hstops⟩

/-- A loop stops when its rounds use something up. -/
theorem stops_of_measure {I : α → Prop} {size : α → Nat}
    (hround : ∀ a next, I a → body a = .ok next → I next ∧ size next < size a) (ha : I a) :
    ∃ rounds r, stops body rounds a = some r := by
  induction hsize : size a using Nat.strongRecOn generalizing a with
  | ind n ih =>
      cases hbody : body a with
      | error r => exact ⟨1, r, stops_error hbody⟩
      | ok next =>
          obtain ⟨hnext, hless⟩ := hround a next ha hbody
          obtain ⟨rounds, r, hstops⟩ := ih (size next) (hsize ▸ hless) hnext rfl
          exact ⟨rounds + 1, r, (stops_ok hbody).trans hstops⟩

/-- There is one result at most. -/
theorem stops_unique {rounds' : Nat} (h : stops body rounds a = some r)
    (h' : stops body rounds' a = some r') : r = r' := by
  induction rounds generalizing a rounds' with
  | zero => exact nomatch h
  | succ rounds ih =>
      cases rounds' with
      | zero => exact nomatch h'
      | succ rounds' =>
          cases hbody : body a with
          | error r'' =>
              rw [stops_error hbody] at h h'
              exact Option.some.inj (h.symm.trans h')
          | ok next =>
              rw [stops_ok hbody] at h h'
              exact ih h h'

end Until

end Loop
