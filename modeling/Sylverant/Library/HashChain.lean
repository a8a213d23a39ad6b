/-
# Hash chains over a sliding window

A compressor finds earlier occurrences of the text at a position by a table with
one chain for each hash key. The head of a chain is the newest position with the
key and every position links to the next older one. The links live in a ring of
`window` slots, so that adding a position forgets the link of the one a window
before it, and a chain is cut where it leaves the window.

`Chains` says what such a table means when positions below `count` have been
added and positions more than `window` before `horizon` no longer matter: a chain
that starts inside the window runs through all positions of the window with its
key, newest first. The operations of a table keep it.
-/

import Mathlib.Tactic.Common
import Mathlib.Logic.Function.Basic

namespace HashChain

universe u

variable {κ : Type u}

/-- The positions below a bound that satisfy `P`, newest first. -/
def below (P : Nat → Bool) : Nat → List Nat
  | 0 => []
  | k + 1 => if P k then k :: below P k else below P k

theorem mem_below {P : Nat → Bool} {k q : Nat} : q ∈ below P k ↔ q < k ∧ P q := by
  induction k with
  | zero => simp [below]
  | succ k ih =>
      rw [below]
      split
      · rename_i hk
        rw [List.mem_cons, ih]
        constructor
        · rintro (rfl | ⟨hlt, hP⟩)
          · exact ⟨Nat.lt_succ_self q, hk⟩
          · exact ⟨by omega, hP⟩
        · rintro ⟨hlt, hP⟩
          by_cases heq : q = k
          · exact .inl heq
          · exact .inr ⟨by omega, hP⟩
      · rename_i hk
        rw [ih]
        refine ⟨fun ⟨hlt, hP⟩ => ⟨by omega, hP⟩, fun ⟨hlt, hP⟩ => ⟨?_, hP⟩⟩
        have hne : q ≠ k := fun heq => hk (heq ▸ hP)
        omega

theorem below_pairwise (P : Nat → Bool) (k : Nat) : (below P k).Pairwise (· > ·) := by
  induction k with
  | zero => exact .nil
  | succ k ih =>
      rw [below]
      split
      · exact .cons (fun q hq => (mem_below.mp hq).1) ih
      · exact ih

/-- Positions that fail do not matter. -/
theorem below_skip {P : Nat → Bool} {j k : Nat} (hle : j ≤ k)
    (hskip : ∀ q, j ≤ q → q < k → ¬ P q) : below P k = below P j := by
  induction k with
  | zero => rw [Nat.le_zero.mp hle]
  | succ k ih =>
      by_cases heq : j = k + 1
      · rw [heq]
      · rw [below, if_neg (hskip k (by omega) (Nat.lt_succ_self k))]
        exact ih (by omega) fun q hj hk => hskip q hj (by omega)

theorem below_eq_nil {P : Nat → Bool} {k : Nat} (h : ∀ q < k, ¬ P q) : below P k = [] :=
  (below_skip (Nat.zero_le k) fun q _ hq => h q hq).trans rfl

/-- The positions of the window with a key. -/
def live [DecidableEq κ] (window : Nat) (key : Nat → κ) (horizon : Nat) (k : κ) (q : Nat) : Bool :=
  key q = k && horizon ≤ q + window

theorem live_iff [DecidableEq κ] {window horizon : Nat} {key : Nat → κ} {k : κ} {q : Nat} :
    live window key horizon k q = true ↔ key q = k ∧ horizon ≤ q + window := by
  simp [live]

/-- What a table of chains means. -/
structure Chains (window : Nat) (key : Nat → κ) (head : κ → Option Nat)
    (prev : Nat → Option Nat) (count horizon : Nat) : Prop where
  /-- A head is the newest position with its key. -/
  head_some : ∀ k e, head k = some e →
    e < count ∧ key e = k ∧ ∀ q, e < q → q < count → key q ≠ k
  /-- A missing head leaves no position of the window out. -/
  head_none : ∀ k, head k = none → ∀ q < count, key q = k → q + window < horizon
  /-- A link leads to the next older position with the same key. -/
  prev_some : ∀ e < count, count ≤ e + window → ∀ e', prev e = some e' →
    e' < e ∧ key e' = key e ∧ ∀ q, e' < q → q < e → key q ≠ key e
  /-- A missing link leaves no position of the window out. -/
  prev_none : ∀ e < count, count ≤ e + window → prev e = none →
    ∀ q < e, key q = key e → q + window < horizon

namespace Chains

variable {window : Nat} {key : Nat → κ} {head : κ → Option Nat} {prev : Nat → Option Nat}
variable {count horizon : Nat}

/-- A table without positions. -/
theorem empty (window : Nat) (key : Nat → κ) (prev : Nat → Option Nat) :
    Chains window key (fun _ => none) prev 0 0 where
  head_some _ _ h := by cases h
  head_none _ _ q hq := absurd hq (Nat.not_lt_zero q)
  prev_some e he := absurd he (Nat.not_lt_zero e)
  prev_none e he := absurd he (Nat.not_lt_zero e)

/-- The window only moves forward. -/
theorem advance (h : Chains window key head prev count horizon) {later : Nat}
    (hle : horizon ≤ later) : Chains window key head prev count later where
  head_some := h.head_some
  head_none k hk q hq hkey := Nat.lt_of_lt_of_le (h.head_none k hk q hq hkey) hle
  prev_some := h.prev_some
  prev_none e he hin hp q hq hkey := Nat.lt_of_lt_of_le (h.prev_none e he hin hp q hq hkey) hle

/-- Adding the next position: it becomes the head of its chain and links to the
old head. Other links survive unless they share its slot. -/
theorem add [DecidableEq κ] (h : Chains window key head prev count horizon)
    {prev' : Nat → Option Nat} (hlink : prev' count = head (key count))
    (hkeep : ∀ e < count, count < e + window → prev' e = prev e) :
    Chains window key (Function.update head (key count) (some count)) prev' (count + 1)
      horizon where
  head_some k e hk := by
    by_cases heq : k = key count
    · subst heq
      rw [Function.update_self, Option.some.injEq] at hk
      subst hk
      exact ⟨Nat.lt_succ_self _, rfl, fun q hq hlt => absurd hlt (by omega)⟩
    · rw [Function.update_of_ne heq] at hk
      obtain ⟨hlt, hkey, hnew⟩ := h.head_some k e hk
      refine ⟨by omega, hkey, fun q hq hcount => ?_⟩
      by_cases hlast : q = count
      · exact hlast ▸ fun hkq => heq hkq.symm
      · exact hnew q hq (by omega)
  head_none k hk q hq hkey := by
    by_cases heq : k = key count
    · rw [heq, Function.update_self] at hk
      cases hk
    · rw [Function.update_of_ne heq] at hk
      by_cases hlast : q = count
      · exact absurd (hlast ▸ hkey).symm heq
      · exact h.head_none k hk q (by omega) hkey
  prev_some e he hin e' hp := by
    by_cases hlast : e = count
    · subst hlast
      rw [hlink] at hp
      obtain ⟨hlt, hkey, hnew⟩ := h.head_some _ e' hp
      exact ⟨hlt, hkey, hnew⟩
    · rw [hkeep e (by omega) (by omega)] at hp
      exact h.prev_some e (by omega) (by omega) e' hp
  prev_none e he hin hp q hq hkey := by
    by_cases hlast : e = count
    · subst hlast
      rw [hlink] at hp
      exact h.head_none _ hp q hq hkey
    · rw [hkeep e (by omega) (by omega)] at hp
      exact h.prev_none e (by omega) (by omega) hp q hq hkey

/-- A chain whose head has left the window may be dropped. -/
theorem dropHead [DecidableEq κ] (h : Chains window key head prev count horizon) {k : κ} {e : Nat}
    (hk : head k = some e) (hout : e + window < horizon) :
    Chains window key (Function.update head k none) prev count horizon where
  head_some j e' hj := by
    by_cases heq : j = k
    · rw [heq, Function.update_self] at hj
      cases hj
    · rw [Function.update_of_ne heq] at hj
      exact h.head_some j e' hj
  head_none j hj q hq hkey := by
    by_cases heq : j = k
    · subst heq
      obtain ⟨-, -, hnew⟩ := h.head_some j e hk
      have hle : q ≤ e := by
        by_contra hlt
        exact hnew q (by omega) hq hkey
      omega
    · rw [Function.update_of_ne heq] at hj
      exact h.head_none j hj q hq hkey
  prev_some := h.prev_some
  prev_none := h.prev_none

/-- A chain is cut after a position whose link leads out of the window. -/
theorem cut (h : Chains window key head prev count horizon) {e e' : Nat} (he : e < count)
    (hin : count ≤ e + window) (hp : prev e = some e') (hout : e' + window < horizon)
    {prev' : Nat → Option Nat} (hnone : prev' e = none)
    (hkeep : ∀ q < count, count ≤ q + window → q ≠ e → prev' q = prev q) :
    Chains window key head prev' count horizon where
  head_some := h.head_some
  head_none := h.head_none
  prev_some q hq hwin q' hlink := by
    by_cases heq : q = e
    · rw [heq, hnone] at hlink
      cases hlink
    · rw [hkeep q hq hwin heq] at hlink
      exact h.prev_some q hq hwin q' hlink
  prev_none q hq hwin hlink r hr hkey := by
    by_cases heq : q = e
    · subst heq
      obtain ⟨-, -, hnew⟩ := h.prev_some q he hin e' hp
      have hle : r ≤ e' := by
        by_contra hlt
        exact hnew r (by omega) hr hkey
      omega
    · rw [hkeep q hq hwin heq] at hlink
      exact h.prev_none q hq hwin hlink r hr hkey

/-! ## What a search visits -/

variable [DecidableEq κ]

/-- Without a head there is nothing to visit. -/
theorem below_of_head_none (h : Chains window key head prev count horizon) {k : κ}
    (hk : head k = none) : below (live window key horizon k) count = [] := by
  refine below_eq_nil fun q hq hlive => ?_
  obtain ⟨hkey, hin⟩ := live_iff.mp hlive
  have := h.head_none k hk q hq hkey
  omega

/-- With a head outside the window there is nothing to visit. -/
theorem below_of_head_out (h : Chains window key head prev count horizon) {k : κ} {e : Nat}
    (hk : head k = some e) (hout : e + window < horizon) :
    below (live window key horizon k) count = [] :=
  (h.dropHead hk hout).below_of_head_none (Function.update_self k none head)

/-- A search begins at the head. -/
theorem below_of_head_some (h : Chains window key head prev count horizon) {k : κ} {e : Nat}
    (hk : head k = some e) :
    below (live window key horizon k) count = below (live window key horizon k) (e + 1) := by
  obtain ⟨hlt, -, hnew⟩ := h.head_some k e hk
  refine below_skip hlt fun q hq hcount hlive => ?_
  exact hnew q hq hcount (live_iff.mp hlive).1

/-- A position of the window is visited. -/
theorem below_of_live {k : κ} {e : Nat} (hkey : key e = k) (hin : horizon ≤ e + window) :
    below (live window key horizon k) (e + 1) =
      e :: below (live window key horizon k) e := by
  rw [below, if_pos (live_iff.mpr ⟨hkey, hin⟩)]

/-- A search goes on along the link. -/
theorem below_of_prev_some (h : Chains window key head prev count horizon) {e e' : Nat}
    (he : e < count) (hin : count ≤ e + window) (hp : prev e = some e') :
    below (live window key horizon (key e)) e =
      below (live window key horizon (key e)) (e' + 1) := by
  obtain ⟨hlt, -, hnew⟩ := h.prev_some e he hin e' hp
  refine below_skip hlt fun q hq hqe hlive => ?_
  exact hnew q hq hqe (live_iff.mp hlive).1

/-- A search ends where there is no link. -/
theorem below_of_prev_none (h : Chains window key head prev count horizon) {e : Nat}
    (he : e < count) (hin : count ≤ e + window) (hp : prev e = none) :
    below (live window key horizon (key e)) e = [] := by
  refine below_eq_nil fun q hq hlive => ?_
  obtain ⟨hkey, hwin⟩ := live_iff.mp hlive
  have := h.prev_none e he hin hp q hq hkey
  omega

/-- A search ends where the link leads out of the window. -/
theorem below_of_prev_out (h : Chains window key head prev count horizon) {e e' : Nat}
    (he : e < count) (hin : count ≤ e + window) (hp : prev e = some e')
    (hout : e' + window < horizon) :
    below (live window key horizon (key e)) e = [] := by
  obtain ⟨-, -, hnew⟩ := h.prev_some e he hin e' hp
  refine below_eq_nil fun q hq hlive => ?_
  obtain ⟨hkey, hwin⟩ := live_iff.mp hlive
  have hle : q ≤ e' := by
    by_contra hlt
    exact hnew q (by omega) hq hkey
  omega

end Chains

end HashChain
