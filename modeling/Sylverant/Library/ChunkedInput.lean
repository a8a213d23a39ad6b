/-
# Reading a stream in pieces

A reader looks at the input it has, and either waits for more, takes a part of it
and goes on, or stops. It may change its state while it waits, as long as it then
goes on as if it had not looked yet. For such a reader it makes no difference
where the input is cut into pieces: feeding the pieces one after the other, and
keeping what was not taken in between, ends as reading all the input at once
does.
-/

import Mathlib.Tactic.Common

namespace ChunkedInput

universe u v

variable {σ : Type u} {β : Type v}

/-- What a reader does with the input it has. -/
inductive Step (σ : Type u)
  /-- Keep the input and wait for more. -/
  | wait (s : σ)
  /-- Take the first `n` letters and go on. -/
  | take (s : σ) (n : Nat)
  /-- Take no more input. -/
  | stop (s : σ)
  /-- Do something undefined. -/
  | fail

/-- How reading ends for now. -/
inductive Outcome (σ : Type u) (β : Type v)
  | waiting (s : σ) (rest : List β)
  | stopped (s : σ)
  | failed

/-- A reader whose decisions stay the same when there is more input. -/
structure Reader (σ : Type u) (β : Type v) where
  step : σ → List β → Step σ
  take_bounds : ∀ {s s' : σ} {a : List β} {n : Nat}, step s a = .take s' n →
    0 < n ∧ n ≤ a.length
  take_append : ∀ {s s' : σ} {a : List β} {n : Nat} (b : List β), step s a = .take s' n →
    step s (a ++ b) = .take s' n
  stop_append : ∀ {s s' : σ} {a : List β} (b : List β), step s a = .stop s' →
    step s (a ++ b) = .stop s'
  fail_append : ∀ {s : σ} {a : List β} (b : List β), step s a = .fail →
    step s (a ++ b) = .fail
  wait_append : ∀ {s s' : σ} {a : List β} (b : List β), step s a = .wait s' →
    step s' (a ++ b) = step s (a ++ b)

/-- Step until the reader waits or stops. -/
def loop (step : σ → List β → Step σ) : Nat → σ → List β → Outcome σ β
  | 0, _, _ => .failed
  | fuel + 1, s, buf =>
      match step s buf with
      | .wait s' => .waiting s' buf
      | .take s' n => loop step fuel s' (buf.drop n)
      | .stop s' => .stopped s'
      | .fail => .failed

/-- The steps that a loop comes to. -/
inductive Reaches (step : σ → List β → Step σ) (s : σ) (a : List β) : σ → List β → Prop
  | here : Reaches step s a s a
  | next {s₁ s₂ : σ} {a₁ : List β} {n : Nat} (come : Reaches step s a s₁ a₁)
      (hstep : step s₁ a₁ = .take s₂ n) : Reaches step s a s₂ (a₁.drop n)

/-- A loop ends if each of its steps takes something, or ends it. -/
theorem loop_ends {step : σ → List β → Step σ} {s : σ} {a : List β} {fuel : Nat}
    (hfuel : a.length < fuel)
    (hstep : ∀ s' a', Reaches step s a s' a' → step s' a' ≠ .fail ∧
      ∀ t n, step s' a' = .take t n → 0 < n ∧ n ≤ a'.length) :
    loop step fuel s a ≠ .failed := by
  have hrun : ∀ fuel s' a', a'.length < fuel → Reaches step s a s' a' →
      loop step fuel s' a' ≠ .failed := by
    intro fuel
    induction fuel with
    | zero => exact fun s' a' hlt => absurd hlt (Nat.not_lt_zero _)
    | succ fuel ih =>
        intro s' a' hlt come
        obtain ⟨hfail, htake⟩ := hstep s' a' come
        rw [loop]
        cases hresult : step s' a' with
        | wait t => exact fun h => nomatch h
        | stop t => exact fun h => nomatch h
        | fail => exact absurd hresult hfail
        | take t n =>
            obtain ⟨hpos, hle⟩ := htake t n hresult
            apply ih
            · rw [List.length_drop]
              omega
            · exact .next come hresult
  exact hrun fuel s a hfuel .here

/-- The state in which a step leaves a reader. -/
def Step.state? : Step σ → Option σ
  | .wait s => some s
  | .take s _ => some s
  | .stop s => some s
  | .fail => none

/-- The state in which a loop ends. -/
def Outcome.state? : Outcome σ β → Option σ
  | .waiting s _ => some s
  | .stopped s => some s
  | .failed => none

/-- What every step preserves, whatever is in front of it, holds at the end. -/
theorem loop_keeps {step : σ → List β → Step σ} {P : σ → Prop}
    (hstep : ∀ s a, P s → ∀ t ∈ (step s a).state?, P t) {fuel : Nat} {s : σ} {a : List β}
    (h : P s) : ∀ t ∈ (loop step fuel s a).state?, P t := by
  induction fuel generalizing s a with
  | zero => exact fun t ht => nomatch ht
  | succ fuel ih =>
      have hone := hstep s a h
      rw [loop]
      cases hresult : step s a with
      | wait t =>
          rw [hresult] at hone
          exact hone
      | take t n =>
          rw [hresult] at hone
          exact ih (hone t rfl)
      | stop t =>
          rw [hresult] at hone
          exact hone
      | fail => exact fun t ht => nomatch ht

/-- What is left over was there. -/
theorem length_loop_waiting {step : σ → List β → Step σ} {fuel : Nat} {s s' : σ} {a rest : List β}
    (h : loop step fuel s a = .waiting s' rest) : rest.length ≤ a.length := by
  induction fuel generalizing s a with
  | zero => exact nomatch h
  | succ fuel ih =>
      rw [loop] at h
      cases hstep : step s a with
      | wait t =>
          rw [hstep] at h
          cases h
          exact Nat.le_refl _
      | take t n =>
          rw [hstep] at h
          have hle := ih h
          rw [List.length_drop] at hle
          omega
      | stop t =>
          rw [hstep] at h
          exact nomatch h
      | fail =>
          rw [hstep] at h
          exact nomatch h

namespace Reader

variable (R : Reader σ β)

/-- Read as much of the input as possible. -/
def run (s : σ) (buf : List β) : Outcome σ β := loop R.step (buf.length + 1) s buf

/-- Read pieces one after the other, keeping what is not taken. -/
def feed : σ → List β → List (List β) → Outcome σ β
  | s, rest, [] => .waiting s rest
  | s, rest, piece :: pieces =>
      match R.run s (rest ++ piece) with
      | .waiting s' rest' => feed s' rest' pieces
      | .stopped s' => .stopped s'
      | .failed => .failed

variable {R} {s s' : σ} {a b rest : List β}

/-- Every step takes input, so that more fuel than input changes nothing. -/
theorem loop_fuel {fuel fuel' : Nat} (h : a.length < fuel) (h' : a.length < fuel') :
    loop R.step fuel s a = loop R.step fuel' s a := by
  induction fuel generalizing fuel' s a with
  | zero => omega
  | succ fuel ih =>
      obtain ⟨fuel', rfl⟩ : ∃ k, fuel' = k + 1 := ⟨fuel' - 1, by omega⟩
      rw [loop, loop]
      cases hstep : R.step s a with
      | wait t => rfl
      | stop t => rfl
      | fail => rfl
      | take t n =>
          obtain ⟨hpos, hle⟩ := R.take_bounds hstep
          exact ih (by rw [List.length_drop]; omega) (by rw [List.length_drop]; omega)

theorem run_wait (h : R.step s a = .wait s') : R.run s a = .waiting s' a := by
  rw [run, loop, h]

theorem run_stop (h : R.step s a = .stop s') : R.run s a = .stopped s' := by
  rw [run, loop, h]

theorem run_fail (h : R.step s a = .fail) : R.run s a = .failed := by
  rw [run, loop, h]

theorem run_take {n : Nat} (h : R.step s a = .take s' n) :
    R.run s a = R.run s' (a.drop n) := by
  obtain ⟨hpos, hle⟩ := R.take_bounds h
  rw [run, loop, h]
  exact loop_fuel (by rw [List.length_drop]; omega) (by rw [List.length_drop]; omega)

/-- Reading on after more input has come is reading it all. -/
theorem run_append (R : Reader σ β) (s : σ) (a b : List β) :
    R.run s (a ++ b) =
      match R.run s a with
      | .waiting s' rest => R.run s' (rest ++ b)
      | .stopped s' => .stopped s'
      | .failed => .failed := by
  induction hlen : a.length using Nat.strongRecOn generalizing s a with
  | ind k ih =>
      cases hstep : R.step s a with
      | wait t =>
          have hsame : R.run s (a ++ b) = R.run t (a ++ b) := by
            rw [run, run, loop, loop, R.wait_append b hstep]
          rw [run_wait hstep, hsame]
      | stop t => rw [run_stop hstep, run_stop (R.stop_append b hstep)]
      | fail => rw [run_fail hstep, run_fail (R.fail_append b hstep)]
      | take t n =>
          obtain ⟨hpos, hle⟩ := R.take_bounds hstep
          rw [run_take hstep, run_take (R.take_append b hstep), List.drop_append_of_le_length hle]
          exact ih (a.drop n).length (by rw [List.length_drop]; omega) t (a.drop n) rfl

/-- A reader that waits has looked at what is left over. -/
theorem exists_step_of_waiting (h : R.run s a = .waiting s' rest) :
    ∃ t, R.step t rest = .wait s' := by
  induction hlen : a.length using Nat.strongRecOn generalizing s a with
  | ind k ih =>
      cases hstep : R.step s a with
      | wait t =>
          rw [run_wait hstep] at h
          cases h
          exact ⟨s, hstep⟩
      | stop t =>
          rw [run_stop hstep] at h
          cases h
      | fail =>
          rw [run_fail hstep] at h
          cases h
      | take t n =>
          obtain ⟨hpos, hle⟩ := R.take_bounds hstep
          rw [run_take hstep] at h
          exact ih (a.drop n).length (by rw [List.length_drop]; omega) h rfl

/-- What is left over when a reader waits is not enough for another step. -/
theorem run_of_waiting (h : R.run s a = .waiting s' rest) : R.run s' rest = .waiting s' rest := by
  obtain ⟨t, hstep⟩ := exists_step_of_waiting h
  have hagain := R.wait_append [] hstep
  rw [List.append_nil, hstep] at hagain
  exact run_wait hagain

/-- It makes no difference where the input is cut into pieces. -/
theorem feed_eq_run (h : R.run s rest = .waiting s rest) (pieces : List (List β)) :
    R.feed s rest pieces = R.run s (rest ++ pieces.flatten) := by
  induction pieces generalizing s rest with
  | nil => rw [feed, List.flatten_nil, List.append_nil, h]
  | cons piece pieces ih =>
      rw [feed, List.flatten_cons, ← List.append_assoc,
        run_append R s (rest ++ piece) pieces.flatten]
      cases hrun : R.run s (rest ++ piece) with
      | waiting t rest' => exact ih (run_of_waiting hrun)
      | stopped t => rfl
      | failed => rfl

end Reader

end ChunkedInput
