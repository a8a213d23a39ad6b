/-
# Reading from a socket

A receiver that is called again and again while a socket has something to read. Each of its
calls asks for a number of letters, and gets some of those that are there, in pieces of any
size. What a call preserves, of the state and of what is still to be read, holds at the end.
-/

import Mathlib.Tactic.Common

namespace Socket

universe u v

variable {σ : Type u} {β : Type v}

/-- Call a receiver while there is something to read. Each call gets what it asks for, but at
most one more letter than the list says. It ends with the state and with what was not
read. -/
def drain (ask : σ → Nat) (call : σ → List β → σ) : σ → List β → List Nat → σ × List β
  | s, socket, [] => (s, socket)
  | s, [], _ :: _ => (s, [])
  | s, b :: socket, n :: ns =>
      let k := min (n + 1) (ask s)
      drain ask call (call s ((b :: socket).take k)) ((b :: socket).drop k) ns

/-- What every call preserves, whatever it reads, holds at the end. -/
theorem drain_keeps {ask : σ → Nat} {call : σ → List β → σ} {P : σ → Prop}
    (hcall : ∀ s data, P s → P (call s data)) {s : σ} (h : P s) (socket : List β)
    (ns : List Nat) : P (drain ask call s socket ns).1 := by
  induction ns generalizing s socket with
  | nil => exact h
  | cons n ns ih =>
      cases socket with
      | nil => exact h
      | cons b socket => exact ih (hcall _ _ h) _

/-- Receivers that are related, ask for the same and stay related with each call read the same
from the same socket. -/
theorem drain_related {τ : Type*} {ask : σ → Nat} {call : σ → List β → σ} {ask' : τ → Nat}
    {call' : τ → List β → τ} {rel : σ → τ → Prop} (hask : ∀ s t, rel s t → ask s = ask' t)
    (hcall : ∀ s t data, rel s t → rel (call s data) (call' t data)) {s : σ} {t : τ}
    (h : rel s t) (socket : List β) (ns : List Nat) :
    rel (drain ask call s socket ns).1 (drain ask' call' t socket ns).1 ∧
      (drain ask call s socket ns).2 = (drain ask' call' t socket ns).2 := by
  induction ns generalizing s t socket with
  | nil => exact ⟨h, rfl⟩
  | cons n ns ih =>
      cases socket with
      | nil => exact ⟨h, rfl⟩
      | cons b socket =>
          rw [drain, drain, hask s t h]
          exact ih (hcall s t _ h) _

section Drain

variable {ask : σ → Nat} {call : σ → List β → σ} {P : σ → List β → Prop}
  (hask : ∀ s rest, P s rest → 0 < ask s)
  (hcall : ∀ s data rest, P s (data ++ rest) → data ≠ [] → data.length ≤ ask s →
    P (call s data) rest)

include hask hcall

/-- A call preserves what all calls do. -/
theorem call_invariant {s : σ} {b : β} {socket : List β} (n : Nat) (h : P s (b :: socket)) :
    P (call s ((b :: socket).take (min (n + 1) (ask s))))
      ((b :: socket).drop (min (n + 1) (ask s))) := by
  have hpos := hask s _ h
  obtain ⟨k, hk⟩ : ∃ k, min (n + 1) (ask s) = k + 1 := ⟨min (n + 1) (ask s) - 1, by omega⟩
  apply hcall
  · rw [List.take_append_drop]
    exact h
  · rw [hk, List.take_succ_cons]
    exact List.cons_ne_nil _ _
  · exact Nat.le_trans (List.length_take_le ..) (Nat.min_le_right ..)

/-- What every call preserves holds at the end. -/
theorem drain_invariant {s : σ} {socket : List β} (h : P s socket) (ns : List Nat) :
    P (drain ask call s socket ns).1 (drain ask call s socket ns).2 := by
  induction ns generalizing s socket with
  | nil => exact h
  | cons n ns ih =>
      cases socket with
      | nil => exact h
      | cons b socket => exact ih (call_invariant hask hcall n h)

/-- Every call reads something, so that as many calls as there are letters read them all. -/
theorem drain_all {s : σ} {socket : List β} (h : P s socket) {ns : List Nat}
    (hlen : socket.length ≤ ns.length) : (drain ask call s socket ns).2 = [] := by
  induction ns generalizing s socket with
  | nil => exact List.length_eq_zero_iff.mp (Nat.le_zero.mp hlen)
  | cons n ns ih =>
      cases socket with
      | nil => rfl
      | cons b socket =>
          have hpos := hask s _ h
          apply ih (call_invariant hask hcall n h)
          rw [List.length_drop]
          rw [List.length_cons, List.length_cons] at *
          omega

end Drain

end Socket
