/-
# Steps that may stop

A step either gives a value or stops with a reason. Steps that are taken one after the
other stop with the reason of the first of them that does, so a reason that comes out says
of which step it is, and that all before it went on.
-/

import Mathlib.Data.List.Basic
import Mathlib.Tactic.Common

namespace Stopping

universe u v w

variable {ε : Type u} {α β : Type v}

@[simp]
theorem ok_bind (a : α) (f : α → Except ε β) : ((.ok a : Except ε α) >>= f) = f a := rfl

@[simp]
theorem error_bind (e : ε) (f : α → Except ε β) :
    ((.error e : Except ε α) >>= f) = .error e := rfl

theorem bind_eq_error_iff {m : Except ε α} {f : α → Except ε β} {e : ε} :
    (m >>= f) = .error e ↔ m = .error e ∨ ∃ a, m = .ok a ∧ f a = .error e := by
  cases m with
  | error e' =>
      constructor
      · intro h
        cases h
        exact .inl rfl
      · rintro (h | ⟨a, ha, -⟩)
        · cases h
          rfl
        · cases ha
  | ok a =>
      constructor
      · exact fun h => .inr ⟨a, rfl, h⟩
      · rintro (h | ⟨a', ha, h⟩)
        · cases h
        · cases ha
          exact h

theorem bind_eq_ok_iff {m : Except ε α} {f : α → Except ε β} {b : β} :
    (m >>= f) = .ok b ↔ ∃ a, m = .ok a ∧ f a = .ok b := by
  cases m with
  | error e =>
      constructor
      · intro h
        cases h
      · rintro ⟨a, ha, -⟩
        cases ha
  | ok a =>
      constructor
      · exact fun h => ⟨a, rfl, h⟩
      · rintro ⟨a', ha, h⟩
        cases ha
        exact h

/-- Take a step for each number below a bound. -/
def upTo (f : Nat → Except ε α) : Nat → Except ε (List α)
  | 0 => .ok []
  | n + 1 => do
      let as ← upTo f n
      let a ← f n
      return as ++ [a]

variable {f : Nat → Except ε α}

theorem upTo_isOk_iff {n : Nat} :
    (∃ as, upTo f n = .ok as) ↔ ∀ i < n, ∃ a, f i = .ok a := by
  induction n with
  | zero => exact iff_of_true ⟨[], rfl⟩ fun i hi => absurd hi (Nat.not_lt_zero i)
  | succ n ih =>
      constructor
      · rintro ⟨as, has⟩ i hi
        obtain ⟨before, hbefore, hlast⟩ := bind_eq_ok_iff.mp has
        obtain ⟨a, ha, -⟩ := bind_eq_ok_iff.mp hlast
        rcases Nat.lt_succ_iff_lt_or_eq.mp hi with hlt | rfl
        · exact ih.mp ⟨before, hbefore⟩ i hlt
        · exact ⟨a, ha⟩
      · intro hall
        obtain ⟨before, hbefore⟩ := ih.mpr fun i hi => hall i (Nat.lt_succ_of_lt hi)
        obtain ⟨a, ha⟩ := hall n (Nat.lt_succ_self n)
        exact ⟨before ++ [a],
          bind_eq_ok_iff.mpr ⟨before, hbefore, bind_eq_ok_iff.mpr ⟨a, ha, rfl⟩⟩⟩

/-- The steps stop with the reason of the first one that does. -/
theorem upTo_eq_error_iff {e : ε} {n : Nat} :
    upTo f n = .error e ↔ ∃ i < n, f i = .error e ∧ ∀ j < i, ∃ a, f j = .ok a := by
  induction n with
  | zero =>
      refine iff_of_false (fun h => ?_) fun ⟨i, hi, _⟩ => absurd hi (Nat.not_lt_zero i)
      cases h
  | succ n ih =>
      constructor
      · intro h
        rcases bind_eq_error_iff.mp h with hbefore | ⟨before, hbefore, hlast⟩
        · obtain ⟨i, hi, hstop, hpast⟩ := ih.mp hbefore
          exact ⟨i, Nat.lt_succ_of_lt hi, hstop, hpast⟩
        · rcases bind_eq_error_iff.mp hlast with hstop | ⟨a, -, hret⟩
          · exact ⟨n, Nat.lt_succ_self n, hstop, upTo_isOk_iff.mp ⟨before, hbefore⟩⟩
          · cases hret
      · rintro ⟨i, hi, hstop, hpast⟩
        rcases Nat.lt_succ_iff_lt_or_eq.mp hi with hlt | rfl
        · exact bind_eq_error_iff.mpr (.inl (ih.mpr ⟨i, hlt, hstop, hpast⟩))
        · obtain ⟨before, hbefore⟩ := upTo_isOk_iff.mpr hpast
          exact bind_eq_error_iff.mpr
            (.inr ⟨before, hbefore, bind_eq_error_iff.mpr (.inl hstop)⟩)

section Known

variable {P : Nat → Prop} {g : Nat → α} (h : ∀ i a, f i = .ok a ↔ P i ∧ a = g i)

include h

/-- Where it is known which steps go on, and with which values, so it is of all of them. -/
theorem upTo_eq_ok_iff {n : Nat} {as : List α} :
    upTo f n = .ok as ↔ (∀ i < n, P i) ∧ as = (List.range n).map g := by
  induction n generalizing as with
  | zero =>
      constructor
      · intro has
        cases has
        exact ⟨fun i hi => absurd hi (Nat.not_lt_zero i), rfl⟩
      · rintro ⟨-, rfl⟩
        rfl
  | succ n ih =>
      rw [upTo, bind_eq_ok_iff, List.range_succ, List.map_append, List.map_singleton]
      constructor
      · rintro ⟨before, hbefore, hlast⟩
        obtain ⟨a, ha, hret⟩ := bind_eq_ok_iff.mp hlast
        obtain ⟨hall, rfl⟩ := ih.mp hbefore
        obtain ⟨hn, rfl⟩ := (h n a).mp ha
        refine ⟨fun i hi => ?_, (Except.ok.inj hret).symm⟩
        rcases Nat.lt_succ_iff_lt_or_eq.mp hi with hlt | rfl
        · exact hall i hlt
        · exact hn
      · rintro ⟨hall, rfl⟩
        exact ⟨_, ih.mpr ⟨fun i hi => hall i (Nat.lt_succ_of_lt hi), rfl⟩,
          bind_eq_ok_iff.mpr ⟨g n, (h n _).mpr ⟨hall n (Nat.lt_succ_self n), rfl⟩, rfl⟩⟩

theorem exists_ok_iff (i : Nat) : (∃ a, f i = .ok a) ↔ P i :=
  ⟨fun ⟨a, ha⟩ => ((h i a).mp ha).1, fun hi => ⟨g i, (h i _).mpr ⟨hi, rfl⟩⟩⟩

theorem upTo_eq_error_iff_of_known {e : ε} {n : Nat} :
    upTo f n = .error e ↔ ∃ i < n, f i = .error e ∧ ∀ j < i, P j := by
  simp only [upTo_eq_error_iff, exists_ok_iff h]

end Known

end Stopping
