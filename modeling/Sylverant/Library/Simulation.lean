/-
# Relating two programs with state and errors

Two programs that run over different states can be compared step by step. They
are in lockstep when, from related states, they return the same value or fail
with the same error and leave related states. A program with a limit may also
give up early: `Sim` allows the second program to stop with an error of its own
as long as the state of the first one satisfies a condition that none of its
later steps undoes. With the condition `fun _ _ => False` the programs agree to
the end.

What a program does on the way to its result, such as what it reads, is made visible by a
copy of the program that notes events in a record, the newest first. What a copy does must not
depend on the record, and `Tells` says so: the program has the same result whatever the record
is, and adds the same events to it.
-/

import Mathlib.Tactic.Common

universe u

namespace Simulation

open EStateM (Result)

variable {ε σ τ α β : Type u}

/-- The state a program leaves, whether it succeeds or fails. -/
def endState : Result ε σ α → σ
  | .ok _ s => s
  | .error _ s => s

theorem bind_ok {m : EStateM ε σ α} {f : α → EStateM ε σ β} {s t : σ} {a : α}
    (h : m s = .ok a t) : (m >>= f) s = f a t := by
  simp [bind, EStateM.bind, h]

theorem bind_error {m : EStateM ε σ α} {f : α → EStateM ε σ β} {s t : σ} {e : ε}
    (h : m s = .error e t) : (m >>= f) s = .error e t := by
  simp [bind, EStateM.bind, h]

/-! ## Running the primitive steps -/

@[simp]
theorem run_get_bind (f : σ → EStateM ε σ α) (s : σ) :
    ((get : EStateM ε σ σ) >>= f) s = f s s := rfl

@[simp]
theorem run_set_bind (t : σ) (f : PUnit → EStateM ε σ α) (s : σ) :
    ((set t : EStateM ε σ PUnit) >>= f) s = f ⟨⟩ t := rfl

@[simp]
theorem run_modify_bind (g : σ → σ) (f : PUnit → EStateM ε σ α) (s : σ) :
    ((modify g : EStateM ε σ PUnit) >>= f) s = f ⟨⟩ (g s) := rfl

@[simp]
theorem run_set (t s : σ) : (set t : EStateM ε σ PUnit) s = .ok ⟨⟩ t := rfl

@[simp]
theorem run_modify (g : σ → σ) (s : σ) :
    (modify g : EStateM ε σ PUnit) s = .ok ⟨⟩ (g s) := rfl

@[simp]
theorem run_pure (a : α) (s : σ) : (pure a : EStateM ε σ α) s = .ok a s := rfl

@[simp]
theorem run_throw (e : ε) (s : σ) : (throw e : EStateM ε σ α) s = .error e s := rfl

@[simp]
theorem run_pure_bind (a : α) (f : α → EStateM ε σ β) (s : σ) :
    ((pure a : EStateM ε σ α) >>= f) s = f a s := rfl

@[simp]
theorem run_throw_bind (e : ε) (f : α → EStateM ε σ β) (s : σ) :
    ((throw e : EStateM ε σ α) >>= f) s = .error e s := rfl

/-! ## Conditions a program keeps -/

/-- A program that keeps a condition on the state, also when it fails. -/
def Keeps (P : σ → Prop) (m : EStateM ε σ α) : Prop := ∀ s, P s → P (endState (m s))

variable {P : σ → Prop}

theorem Keeps.pure (a : α) : Keeps P (pure a : EStateM ε σ α) := fun _ hs => hs

theorem Keeps.throw (e : ε) : Keeps P (throw e : EStateM ε σ α) := fun _ hs => hs

theorem Keeps.bind {m : EStateM ε σ α} {f : α → EStateM ε σ β} (hm : Keeps P m)
    (hf : ∀ a, Keeps P (f a)) : Keeps P (m >>= f) := by
  intro s hs
  have hkept := hm s hs
  cases hrun : m s with
  | ok a r =>
      rw [bind_ok hrun]
      rw [hrun] at hkept
      exact hf a r hkept
  | error e r =>
      rw [bind_error hrun]
      rw [hrun] at hkept
      exact hkept

theorem Keeps.ite {c : Prop} {_ : Decidable c} {m n : EStateM ε σ α} (hm : Keeps P m)
    (hn : Keeps P n) : Keeps P (if c then m else n) := by
  by_cases h : c
  · rw [if_pos h]
    exact hm
  · rw [if_neg h]
    exact hn

/-- A loop over a list keeps what its rounds keep. -/
theorem Keeps.foldlM {γ : Type u} {f : β → γ → EStateM ε σ β} (hf : ∀ b c, Keeps P (f b c))
    (cs : List γ) (b : β) : Keeps P (cs.foldlM f b) := by
  induction cs generalizing b with
  | nil => exact Keeps.pure b
  | cons c cs ih =>
      rw [List.foldlM_cons]
      exact (hf b c).bind ih

/-- A program that leads from one condition on the state to another one, also when it
fails. -/
def Leads (P Q : σ → Prop) (m : EStateM ε σ α) : Prop := ∀ s, P s → Q (endState (m s))

variable {Q : σ → Prop}

/-- A program that only keeps the first condition may come before. -/
theorem Keeps.leads {m : EStateM ε σ α} {f : α → EStateM ε σ β} (hm : Keeps P m)
    (hweak : ∀ s, P s → Q s) (hf : ∀ a, Leads P Q (f a)) : Leads P Q (m >>= f) := by
  intro s hs
  have hkept := hm s hs
  cases hrun : m s with
  | ok a r =>
      rw [bind_ok hrun]
      rw [hrun] at hkept
      exact hf a r hkept
  | error e r =>
      rw [bind_error hrun]
      rw [hrun] at hkept
      exact hweak r hkept

theorem Leads.ite {c : Prop} {_ : Decidable c} {m n : EStateM ε σ α} (hm : Leads P Q m)
    (hn : Leads P Q n) : Leads P Q (if c then m else n) := by
  by_cases h : c
  · rw [if_pos h]
    exact hm
  · rw [if_neg h]
    exact hn

/-! ## Lockstep up to giving up -/

/-- How two programs may end: alike in related states, or with the second one
giving up in a way that `Gave` allows for the state the first one reaches. -/
inductive Lockstep (R : σ → τ → Prop) (Gave : σ → ε → Prop) :
    Result ε σ α → Result ε τ α → Prop
  | ok {s : σ} {t : τ} (a : α) (related : R s t) : Lockstep R Gave (.ok a s) (.ok a t)
  | error {s : σ} {t : τ} (e : ε) (related : R s t) : Lockstep R Gave (.error e s) (.error e t)
  | gave {r : Result ε σ α} {e : ε} {t : τ} (allowed : Gave (endState r) e) :
      Lockstep R Gave r (.error e t)

/-- From related states the two programs end in lockstep, and the first one
never undoes a reason for which the second one gave up before. -/
structure Sim (R : σ → τ → Prop) (Gave : σ → ε → Prop) (m : EStateM ε σ α)
    (n : EStateM ε τ α) : Prop where
  run : ∀ s t, R s t → Lockstep R Gave (m s) (n t)
  keeps : ∀ e, Keeps (fun s => Gave s e) m

variable {R : σ → τ → Prop} {Gave : σ → ε → Prop}

theorem Sim.pure (a : α) :
    Sim R Gave (pure a : EStateM ε σ α) (pure a : EStateM ε τ α) :=
  ⟨fun _ _ related => .ok a related, fun _ => Keeps.pure a⟩

theorem Sim.throw (e : ε) :
    Sim R Gave (throw e : EStateM ε σ α) (throw e : EStateM ε τ α) :=
  ⟨fun _ _ related => .error e related, fun _ => Keeps.throw e⟩

/-- Reading a function of the state on which related states agree. -/
theorem Sim.read {f : σ → α} {g : τ → α} (h : ∀ s t, R s t → f s = g t) :
    Sim R Gave (do return f (← get) : EStateM ε σ α) (do return g (← get)) := by
  refine ⟨fun s t related => ?_, fun e s hs => hs⟩
  simp only [run_get_bind, run_pure, h s t related]
  exact .ok _ related

/-- Sequences of programs in lockstep are in lockstep. -/
theorem Sim.bind {m : EStateM ε σ α} {n : EStateM ε τ α} {f : α → EStateM ε σ β}
    {g : α → EStateM ε τ β} (hm : Sim R Gave m n) (hf : ∀ a, Sim R Gave (f a) (g a)) :
    Sim R Gave (m >>= f) (n >>= g) := by
  refine ⟨fun s t related => ?_, fun e => Keeps.bind (hm.keeps e) fun a => (hf a).keeps e⟩
  have hstep := hm.run s t related
  generalize hms : m s = r at hstep
  generalize hnt : n t = q at hstep
  cases hstep with
  | ok a related' =>
      rw [bind_ok hms, bind_ok hnt]
      exact (hf a).run _ _ related'
  | error e related' =>
      rw [bind_error hms, bind_error hnt]
      exact .error e related'
  | @gave _ e t' allowed =>
      rw [bind_error hnt]
      refine .gave ?_
      cases r with
      | ok a s' =>
          rw [bind_ok hms]
          exact (hf a).keeps e s' allowed
      | error f s' =>
          rw [bind_error hms]
          exact allowed

end Simulation

namespace Observing

variable {ε ω α β : Type}

/-- Add an event to the record. -/
def note (event : ω) : EStateM ε (List ω) Unit := modify (event :: ·)

/-- A computation without events. -/
def quiet : Except ε α → EStateM ε (List ω) α
  | .ok a => pure a
  | .error e => throw e

/-- The program succeeds with `a`, and `P` holds of the events that it adds to the record. -/
def Tells (m : EStateM ε (List ω) α) (a : α) (P : List ω → Prop) : Prop :=
  ∃ events, P events ∧ ∀ log, m log = .ok a (events ++ log)

namespace Tells

variable {a : α} {b : β} {P Q R : List ω → Prop} {m : EStateM ε (List ω) α}
  {f : α → EStateM ε (List ω) β}

theorem pure (a : α) (h : P []) : Tells (pure a : EStateM ε (List ω) α) a P := ⟨[], h, fun _ => rfl⟩

theorem note {event : ω} (h : P [event]) :
    Tells (note event : EStateM ε (List ω) Unit) () P :=
  ⟨[event], h, fun _ => rfl⟩

theorem quiet {r : Except ε α} (hr : r = .ok a) (h : P []) :
    Tells (quiet r : EStateM ε (List ω) α) a P :=
  ⟨[], h, fun _ => by rw [hr]; rfl⟩

/-- The events of the second program are the newer ones. -/
theorem bind (hm : Tells m a P) (hf : Tells (f a) b Q)
    (h : ∀ xs ys, P xs → Q ys → R (ys ++ xs)) : Tells (m >>= f) b R := by
  obtain ⟨xs, hP, hrun⟩ := hm
  obtain ⟨ys, hQ, hrest⟩ := hf
  refine ⟨ys ++ xs, h xs ys hP hQ, fun log => ?_⟩
  rw [Simulation.bind_ok (hrun log), hrest, List.append_assoc]

theorem mono (hm : Tells m a P) (h : ∀ events, P events → Q events) : Tells m a Q :=
  let ⟨events, hP, hrun⟩ := hm
  ⟨events, h events hP, hrun⟩

end Tells

end Observing
