/-
# Hashing a message piece by piece

A hash takes a message in blocks of one width into a state. Where a message comes in pieces, what
is left of a piece after its last whole block is pending until the next piece completes the
block. What the state and the pending part are depends on the message only, not on its pieces.
-/

import Mathlib.Tactic.Common

namespace BlockHash

universe u v

variable {α : Type u} {σ : Type v}

/-- Take some blocks into a state. -/
def absorb (w : Nat) (compress : σ → List α → σ) : Nat → σ → List α → σ
  | 0, s, _ => s
  | n + 1, s, data => absorb w compress n (compress s (data.take w)) (data.drop w)

variable {w m n : Nat} {compress : σ → List α → σ} {s s₀ : σ} {a b : List α}

theorem absorb_append (hlen : a.length = m * w) :
    absorb w compress (m + n) s (a ++ b) = absorb w compress n (absorb w compress m s a) b := by
  induction m generalizing a s with
  | zero =>
      rw [Nat.zero_mul] at hlen
      rw [List.eq_nil_of_length_eq_zero hlen, Nat.zero_add]
      rfl
  | succ m ih =>
      rw [Nat.succ_mul] at hlen
      rw [Nat.add_right_comm, absorb, List.take_append_of_le_length (by omega),
        List.drop_append_of_le_length (by omega), ih (by rw [List.length_drop]; omega)]
      rfl

/-- A state has the whole blocks of a message, and the rest of it is pending. -/
def Holds (w : Nat) (compress : σ → List α → σ) (s₀ : σ) (msg : List α) (s : σ)
    (pending : List α) : Prop :=
  pending.length < w ∧ ∃ whole n, msg = whole ++ pending ∧ whole.length = n * w ∧
    s = absorb w compress n s₀ whole

variable {msg input front body tail pending : List α}

theorem holds_nil (hw : 0 < w) : Holds w compress s₀ [] s₀ [] :=
  ⟨hw, [], 0, rfl, (Nat.zero_mul w).symm, rfl⟩

/-- What is pending, with the rest of the message, tells how long the message is. -/
theorem Holds.length_mod (h : Holds w compress s₀ msg s pending) :
    msg.length % w = pending.length := by
  obtain ⟨hlt, whole, n, rfl, hwhole, -⟩ := h
  rw [List.length_append, hwhole, Nat.mul_comm, Nat.mul_add_mod, Nat.mod_eq_of_lt hlt]

/-- A piece that completes no block is pending, too. -/
theorem Holds.short (h : Holds w compress s₀ msg s pending)
    (hlt : (pending ++ input).length < w) :
    Holds w compress s₀ (msg ++ input) s (pending ++ input) := by
  obtain ⟨-, whole, n, rfl, hwhole, hs⟩ := h
  exact ⟨hlt, whole, n, List.append_assoc .., hwhole, hs⟩

/-- What completes a block goes into the state with what was pending. -/
theorem Holds.full (h : Holds w compress s₀ msg s pending)
    (hfront : (pending ++ front).length = w) :
    Holds w compress s₀ (msg ++ front) (compress s (pending ++ front)) [] := by
  obtain ⟨hlt, whole, n, rfl, hwhole, hs⟩ := h
  refine ⟨by rw [List.length_nil]; omega, whole ++ (pending ++ front), n + 1, ?_, ?_, ?_⟩
  · rw [List.append_nil, List.append_assoc]
  · rw [List.length_append, hfront, hwhole, Nat.succ_mul]
  · rw [absorb_append hwhole, ← hs, absorb, List.take_of_length_le (Nat.le_of_eq hfront)]
    rfl

/-- Where nothing is pending, whole blocks go into the state, and the rest is pending. -/
theorem Holds.blocks (h : Holds w compress s₀ msg s []) (hbody : body.length = m * w)
    (htail : tail.length < w) :
    Holds w compress s₀ (msg ++ (body ++ tail)) (absorb w compress m s body) tail := by
  obtain ⟨-, whole, n, rfl, hwhole, hs⟩ := h
  refine ⟨htail, whole ++ body, n + m, ?_, ?_, by rw [absorb_append hwhole, hs]⟩
  · rw [List.append_nil, List.append_assoc]
  · rw [List.length_append, hwhole, hbody, Nat.add_mul]

/-- Where nothing is pending, the state has all of the message. -/
theorem Holds.state_eq (h : Holds w compress s₀ msg s []) :
    s = absorb w compress (msg.length / w) s₀ msg := by
  obtain ⟨hw, whole, n, rfl, hwhole, hs⟩ := h
  rw [List.append_nil, hwhole, Nat.mul_div_cancel n hw]
  exact hs

/-- What a map of states takes compressing to, it takes absorbing to. -/
theorem absorb_map {τ : Type*} {other : τ → List α → τ} (f : σ → τ)
    (hcompress : ∀ s block, f (compress s block) = other (f s) block) (n : Nat) (s : σ)
    (data : List α) :
    f (absorb w compress n s data) = absorb w other n (f s) data := by
  induction n generalizing s data with
  | zero => rfl
  | succ n ih => rw [absorb, ih, hcompress, absorb]

end BlockHash
