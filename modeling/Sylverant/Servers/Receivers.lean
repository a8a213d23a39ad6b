/-
# The receivers of the patch server, the login server and the link

What is shown of each receiver on its own, taken together: the packets of a stream are
delivered however the stream arrives, and headers that are made up break a receiver exactly
when they tell a size that it cannot take.
-/

import Sylverant.Servers.PatchFraming
import Sylverant.Shipgate.HostileHeaders

namespace Sylverant.Servers

open Shipgate (LinkState LinkIdle WellFormed handlePkt shipgateProcessPkt linkAsk linkNext
  linkDelivered linkStep NextSafe NextSized pktLen pktLen8)
open Socket (drain)

/-- Two packets of a patch client, and two of the link. -/
def somePackets : List (List UInt8) := [[8, 0, 2, 0, 1, 2, 3, 4], [4, 0, 4, 0]]

def someLinkPackets : List (List UInt8) :=
  [[0, 16, 0, 1, 0, 0, 0, 0, 1, 2, 3, 4, 5, 6, 7, 8], [0, 8, 0, 2, 0, 0, 0, 0]]

/-- Handlers that accept every packet. -/
def acceptAll : Unit → List UInt8 → Unit × Int := fun h _ => (h, 0)

theorem accepts_acceptAll (pkts : List (List UInt8)) : Accepts acceptAll () pkts := by
  induction pkts with
  | nil => trivial
  | cons pkt pkts ih => exact ⟨rfl, ih⟩

/-- In every run of calls, whatever is received and in whatever pieces, all calls of the patch
server are safe exactly if no header has a length of zero and no body is awaited that is smaller
than its header. The same holds of the login server, for every type of client. All calls of the
shipgate are safe exactly if no header that they come to has a length smaller than 8, and those
of the ship exactly if none has a length of zero or larger than 65528. -/
theorem receivers_safe_iff {γ σ : Type} (ciphers : Ciphers γ) (patchHandlers : PatchHandlers σ)
    (loginHandlers : LoginHandlers γ σ) (gateHandlers shipHandlers : σ → List UInt8 → σ × Int) :
    (∀ (conn : PatchConn γ σ) (rs : List Recv),
      Run.Guarded (readStep (patchReceiver ciphers patchHandlers))
          (fun s r => (readStep (patchReceiver ciphers patchHandlers) s r).Safe)
          (.go (.new conn)) rs ↔
        Run.Guarded (readStep (patchReceiver ciphers patchHandlers))
          (Sized (patchReceiver ciphers patchHandlers)) (.go (.new conn)) rs) ∧
    (∀ (conn : LoginConn γ σ) (rs : List Recv),
      Run.Guarded (readStep (loginReceiver ciphers loginHandlers))
          (fun s r => (readStep (loginReceiver ciphers loginHandlers) s r).Safe)
          (.go (.new conn)) rs ↔
        Run.Guarded (readStep (loginReceiver ciphers loginHandlers))
          (Sized (loginReceiver ciphers loginHandlers)) (.go (.new conn)) rs) ∧
    (∀ (handler : σ) (pieces : List (List UInt8)),
      Run.Guarded (linkStep pktLen gateHandlers) (NextSafe pktLen gateHandlers) (.new handler)
          pieces ↔
        Run.Guarded (linkStep pktLen gateHandlers)
          (NextSized pktLen gateHandlers fun hdr => 8 ≤ pktLen hdr) (.new handler) pieces) ∧
    (∀ (handler : σ) (pieces : List (List UInt8)),
      Run.Guarded (linkStep pktLen8 shipHandlers) (NextSafe pktLen8 shipHandlers) (.new handler)
          pieces ↔
        Run.Guarded (linkStep pktLen8 shipHandlers)
          (NextSized pktLen8 shipHandlers fun hdr => pktLen hdr ≠ 0 ∧ pktLen hdr ≤ 0xFFF8)
          (.new handler) pieces) := by
  refine ⟨?_, ?_, ?_, ?_⟩
  · exact fun conn rs => safe_runs_iff _ conn rs
  · exact fun conn rs => safe_runs_iff _ conn rs
  · exact fun handler pieces => Shipgate.link_runs_iff _ _ (fun _ => Iff.rfl) handler pieces
  · exact fun handler pieces =>
      Shipgate.link_runs_iff _ _ Shipgate.eight_le_pktLen8_iff handler pieces

/-- A cipher that changes nothing. -/
def plain : Ciphers Unit where
  cryptData k data := (k, data)
  length_cryptData _ _ := rfl

/-- A header of zeros is copied to where nothing is allocated, by the patch and by the login
server, and is passed on again and again by both ends of the link. -/
theorem not_safe_zeros :
    (¬∀ rs : List Recv,
      Run.Guarded (readStep (patchReceiver plain ⟨acceptAll, acceptAll⟩))
        (fun s r => (readStep (patchReceiver plain ⟨acceptAll, acceptAll⟩) s r).Safe)
        (.go (.new ⟨.pcPatch, (), ()⟩)) rs) ∧
    (¬∀ rs : List Recv,
      Run.Guarded
        (readStep (loginReceiver plain ⟨fun c _ => (c, 0), fun c _ => (c, 0), fun c _ => (c, 0)⟩))
        (fun s r => (readStep (loginReceiver plain
          ⟨fun c _ => (c, 0), fun c _ => (c, 0), fun c _ => (c, 0)⟩) s r).Safe)
        (.go (.new ⟨.pc, false, (), (), ()⟩)) rs) ∧
    (¬∀ pieces : List (List UInt8),
      Run.Guarded (linkStep pktLen acceptAll) (NextSafe pktLen acceptAll) (.new ()) pieces) ∧
    (¬∀ pieces : List (List UInt8),
      Run.Guarded (linkStep pktLen8 acceptAll) (NextSafe pktLen8 acceptAll) (.new ()) pieces) := by
  refine ⟨?_, ?_, ?_, ?_⟩
  · intro hall
    exact (hall [.bytes [0, 0, 0, 0]]).1
  · intro hall
    exact (hall [.bytes [0, 0, 0, 0]]).1
  · intro hall
    have hsafe := (hall [[0, 0, 0, 0, 0, 0, 0, 0]]).1 rfl
    have hpass := hsafe.passes _ _ ⟨List.cons_ne_nil _ _, .here⟩
    exact absurd (Shipgate.passSafe_iff.mp hpass (by decide)) (by decide)
  · intro hall
    have hsafe := (hall [[0, 0, 0, 0, 0, 0, 0, 0]]).1 rfl
    have hpass := hsafe.passes _ _ ⟨List.cons_ne_nil _ _, .here⟩
    exact absurd (Shipgate.passSafe_iff.mp hpass (by decide)) (by decide)

end Sylverant.Servers
