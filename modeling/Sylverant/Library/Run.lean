/-
# Guarded runs and histories

Runs of a system that takes one step for each event, where every event meets a
condition on the state it happens in. What the steps of such runs preserve holds
in all states that they reach. A history is the list of what a system did, the oldest
first. A condition on an entry may ask for what is in the history before it.
-/

import Mathlib.Tactic.Common

namespace Run

universe u v

variable {σ : Type u} {ε : Type v}

/-- Every event of the run meets the condition, in the state it happens in. -/
def Guarded (step : σ → ε → σ) (ok : σ → ε → Prop) : σ → List ε → Prop
  | _, [] => True
  | s, e :: es => ok s e ∧ Guarded step ok (step s e) es

instance Guarded.decidable {step : σ → ε → σ} {ok : σ → ε → Prop} [∀ s e, Decidable (ok s e)] :
    (s : σ) → (es : List ε) → Decidable (Guarded step ok s es)
  | _, [] => inferInstanceAs (Decidable True)
  | s, e :: es =>
      haveI : Decidable (Guarded step ok (step s e) es) := Guarded.decidable (step s e) es
      inferInstanceAs (Decidable (_ ∧ _))

namespace Guarded

variable {step : σ → ε → σ} {ok ok' : σ → ε → Prop} {s : σ} {es es' : List ε} {e : ε}

/-- The events up to some point are a run. -/
theorem left (h : Guarded step ok s (es ++ es')) : Guarded step ok s es := by
  induction es generalizing s with
  | nil => trivial
  | cons e es ih => exact ⟨h.1, ih h.2⟩

/-- The events after some point are a run from the state there. -/
theorem right (h : Guarded step ok s (es ++ es')) :
    Guarded step ok (es.foldl step s) es' := by
  induction es generalizing s with
  | nil => exact h
  | cons e es ih => exact ih h.2

/-- What every step preserves holds at the end. -/
theorem invariant {P : σ → Prop} (hstep : ∀ s e, P s → ok s e → P (step s e)) (hs : P s)
    (h : Guarded step ok s es) : P (es.foldl step s) := by
  induction es generalizing s with
  | nil => exact hs
  | cons e es ih => exact ih (hstep s e hs h.1) h.2

theorem mono (hok : ∀ s e, ok s e → ok' s e) (h : Guarded step ok s es) :
    Guarded step ok' s es := by
  induction es generalizing s with
  | nil => trivial
  | cons e es ih => exact ⟨hok s e h.1, ih h.2⟩

/-- Each event meets the condition in the state that those before it have led to. -/
theorem iff_each :
    Guarded step ok s es ↔
      ∀ front e back, es = front ++ e :: back → ok (front.foldl step s) e := by
  constructor
  · rintro h front e back rfl
    exact h.right.1
  · intro h
    induction es generalizing s with
    | nil => trivial
    | cons e es ih =>
        refine ⟨h [] e es rfl, ih fun front e' back split => ?_⟩
        exact h (e :: front) e' back (congrArg (e :: ·) split)

/-- Two conditions that agree in the states of a run are met by the same runs. -/
theorem congr {P : σ → Prop} (hiff : ∀ s e, P s → (ok s e ↔ ok' s e))
    (hstep : ∀ s e, P s → ok s e → P (step s e)) (hs : P s) :
    Guarded step ok s es ↔ Guarded step ok' s es := by
  induction es generalizing s with
  | nil => exact Iff.rfl
  | cons e es ih =>
      constructor
      · rintro ⟨hok, hrest⟩
        exact ⟨(hiff s e hs).mp hok, (ih (hstep s e hs hok)).mp hrest⟩
      · rintro ⟨hok', hrest⟩
        have hok := (hiff s e hs).mpr hok'
        exact ⟨hok, (ih (hstep s e hs hok)).mpr hrest⟩

end Guarded

end Run

namespace History

variable {α : Type*}

/-- Each entry meets the condition on what is before it, where `past` is before all of them. -/
def Each (ok : List α → α → Prop) : List α → List α → Prop
  | _, [] => True
  | past, a :: as => ok past a ∧ Each ok (past ++ [a]) as

variable {ok : List α → α → Prop} {past front back : List α}

/-- What is added to a history only has to meet the condition itself. -/
theorem each_append :
    Each ok past (front ++ back) ↔ Each ok past front ∧ Each ok (past ++ front) back := by
  induction front generalizing past with
  | nil =>
      rw [List.append_nil]
      exact ⟨fun h => ⟨trivial, h⟩, fun h => h.2⟩
  | cons a front ih =>
      rw [List.cons_append, Each, Each, ih, and_assoc, List.append_assoc]
      exact Iff.rfl

theorem each_singleton {a : α} : Each ok past [a] ↔ ok past a :=
  ⟨fun h => h.1, fun h => ⟨h, trivial⟩⟩

/-- An entry meets the condition on what is before it. -/
theorem Each.at {a : α} (h : Each ok past (front ++ a :: back)) : ok (past ++ front) a :=
  (each_append.mp h).2.1

end History
