/-
# Packets on a stream

What it means that a receiver has given its handlers the packets of a stream, as far as it has
read it: each packet that is complete, once and in order, and that nothing is left over on the
boundaries between packets only.
-/

import Sylverant.Library.Socket
import Sylverant.Ship.Delivery

namespace Sylverant.Servers

open Ship (complete)

/-- The handlers accept the packets, one after the other. -/
def Accepts {σ : Type} (process : σ → List UInt8 → σ × Int) : σ → List (List UInt8) → Prop
  | _, [] => True
  | h, pkt :: pkts => (process h pkt).2 = 0 ∧ Accepts process (process h pkt).1 pkts

/-- The first `n` bytes of a stream end with a packet. -/
def OnBoundary (pkts : List (List UInt8)) (n : Nat) : Prop :=
  ∃ whole, whole <+: pkts ∧ whole.flatten.length = n

/-- A receiver that has read `n` bytes of a stream has delivered the packets that are
complete, and is idle exactly on the boundaries. -/
structure Delivers (pkts : List (List UInt8)) (n : Nat) (delivered : List (List UInt8))
    (idle : Prop) : Prop where
  delivered_eq : delivered = complete pkts n
  idle_iff : idle ↔ OnBoundary pkts n

/-- The packets before a position are complete at it. -/
theorem complete_append (whole next : List (List UInt8)) (n : Nat) :
    complete (whole ++ next) (whole.flatten.length + n) = whole ++ complete next n := by
  induction whole with
  | nil => rw [List.flatten_nil, List.length_nil, Nat.zero_add, List.nil_append, List.nil_append]
  | cons pkt whole ih =>
      have hrest : pkt.length + whole.flatten.length + n - pkt.length =
          whole.flatten.length + n := by omega
      rw [List.flatten_cons, List.length_append, List.cons_append, complete,
        if_pos (by omega), hrest, ih]
      rfl

theorem complete_prefix (pkts : List (List UInt8)) (n : Nat) : complete pkts n <+: pkts := by
  induction pkts generalizing n with
  | nil => exact List.prefix_refl _
  | cons pkt pkts ih =>
      rw [complete]
      split
      · exact (List.prefix_cons_inj pkt).mpr (ih _)
      · exact List.nil_prefix

/-- Part of a packet is no packet. -/
theorem complete_part {next : List (List UInt8)} {part : Nat}
    (hpart : ∀ pkt ∈ next.head?, part < pkt.length) : complete next part = [] := by
  cases next with
  | nil => rfl
  | cons pkt next =>
      have hlt := hpart pkt rfl
      rw [complete, if_neg (by omega)]

/-- A position is a boundary exactly if the complete packets end there. -/
theorem onBoundary_iff {pkts : List (List UInt8)} (hsome : ∀ pkt ∈ pkts, pkt ≠ []) (n : Nat) :
    OnBoundary pkts n ↔ (complete pkts n).flatten.length = n := by
  constructor
  · rintro ⟨whole, ⟨next, rfl⟩, rfl⟩
    have hnext : complete next 0 = [] := by
      apply complete_part
      intro pkt hpkt
      exact List.length_pos_iff.mpr
        (hsome pkt (List.mem_append_right _ (List.mem_of_mem_head? hpkt)))
    have hall := complete_append whole next 0
    rw [Nat.add_zero, hnext, List.append_nil] at hall
    rw [hall]
  · intro hlen
    exact ⟨_, complete_prefix pkts n, hlen⟩

/-- Between the packets that were delivered and the rest of the stream there is part of a
packet, unless the receiver is idle. -/
theorem Delivers.of_part {whole next : List (List UInt8)} {part : Nat} {idle : Prop}
    (hsome : ∀ pkt ∈ whole ++ next, pkt ≠ []) (hpart : ∀ pkt ∈ next.head?, part < pkt.length)
    (hidle : idle ↔ part = 0) :
    Delivers (whole ++ next) (whole.flatten.length + part) whole idle := by
  have hwhole : complete (whole ++ next) (whole.flatten.length + part) = whole := by
    rw [complete_append, complete_part hpart, List.append_nil]
  refine ⟨hwhole.symm, ?_⟩
  rw [onBoundary_iff hsome, hwhole, hidle]
  omega

end Sylverant.Servers
