/-
# Headers that are made up on the link

What a call of the receivers on the link between ship and shipgate touches when the length
field of a header is anything: it is safe as long as the size that is taken for a packet is
no smaller than a header. The size is the length itself for the shipgate, and the length
rounded up in 16 bits for the ship.
-/

import Sylverant.Library.Run
import Sylverant.Ship.HostileHeaders
import Sylverant.Shipgate.Framing

namespace Sylverant.Shipgate

open ChunkedInput (Step Outcome Reaches)
open Ship (Access RecvBuf saveRest)

/-! ## What a call touches -/

section Safe

variable {σ : Type} (size : List UInt8 → Nat) (process : σ → List UInt8 → σ × Int)

/-- What one pass of the loop asks for, in the order in which it does. -/
def passAccesses (c : Link σ) (rbp : List UInt8) : List Access :=
  if rbp.length < 8 then []
  else
    let pktSz := size (c.readHeader rbp).pkt
    (if c.hdrRead then [] else [⟨.copy, 0, 8⟩]) ++
      if pktSz ≤ rbp.length then [⟨.copy, 0, 8⟩, ⟨.deliver, 0, pktSz⟩] else []

/-- A pass is safe: it touches bytes only that were received, hands over no packet shorter
than a header, and takes at least a header when it goes on. -/
structure PassSafe (c : Link σ) (rbp : List UInt8) : Prop where
  inside : ∀ a ∈ passAccesses size c rbp, a.Inside rbp.length
  whole : ∀ a ∈ passAccesses size c rbp, a.use = .deliver → 8 ≤ a.size
  progress : ∀ c' n, linkPass size process c rbp = .take c' n → 8 ≤ n

/-- What is in the main buffer after bytes were received. -/
def mainBuf (buf : RecvBuf) (received : List UInt8) : List UInt8 :=
  buf.saved ++ received.take (linkRoom buf)

/-- A call comes to a pass of its loop. -/
def CallReaches (c : Link σ) (buf : RecvBuf) (received : List UInt8) (c' : Link σ)
    (rbp : List UInt8) : Prop :=
  received ≠ [] ∧
    Reaches (linkPass size process) { c with rv := 0 } (mainBuf buf received) c' rbp

/-- A call is safe: what it reads fits into the main buffer, each of its passes is safe, and
it ends. -/
structure CallSafe (c : Link σ) (buf : RecvBuf) (received : List UInt8) : Prop where
  fits : (mainBuf buf received).length ≤ 65536
  passes : ∀ c' rbp, CallReaches size process c buf received c' rbp →
    PassSafe size process c' rbp
  ends : linkCall size process c buf received ≠ none

/-- Each header that a call comes to meets a condition. -/
def CallSized (fine : List UInt8 → Prop) (c : Link σ) (buf : RecvBuf) (received : List UInt8) :
    Prop :=
  ∀ c' rbp, CallReaches size process c buf received c' rbp → 8 ≤ rbp.length →
    fine (c'.readHeader rbp).pkt

/-- The calls for one connection, until it is closed. -/
def linkStep (s : LinkState σ) (received : List UInt8) : LinkState σ :=
  match s with
  | some (c, buf) => if c.rv = 0 then linkCall size process c buf received else s
  | none => none

/-- The next call is safe, if there is one. The calls before it have all ended. -/
def NextSafe : LinkState σ → List UInt8 → Prop
  | some (c, buf), received => c.rv = 0 → CallSafe size process c buf received
  | none, _ => False

/-- The next call meets the condition on headers, if there is one. -/
def NextSized (fine : List UInt8 → Prop) : LinkState σ → List UInt8 → Prop
  | some (c, buf), received => c.rv = 0 → CallSized size process fine c buf received
  | none, _ => True

/-! ## Passes -/

variable {size process} {c : Link σ} {rbp : List UInt8}

/-- A pass takes what the header tells, and no more than there is. -/
theorem linkPass_take_iff {c' : Link σ} {n : Nat} (h : linkPass size process c rbp = .take c' n) :
    8 ≤ rbp.length ∧ n = size (c.readHeader rbp).pkt ∧ n ≤ rbp.length := by
  unfold linkPass at h
  dsimp only at h
  split_ifs at h with hshort hwhole hgoes
  cases h
  exact ⟨Nat.le_of_not_lt hshort, rfl, hwhole⟩

theorem linkPass_ne_fail (c : Link σ) (rbp : List UInt8) : linkPass size process c rbp ≠ .fail := by
  unfold linkPass
  dsimp only
  split_ifs <;> exact fun h => nomatch h

/-- A pass over a header is safe exactly when the size it tells is no smaller than it. -/
theorem passSafe_iff :
    PassSafe size process c rbp ↔ (8 ≤ rbp.length → 8 ≤ size (c.readHeader rbp).pkt) := by
  constructor
  · intro hsafe hhdr
    by_contra hsmall
    have hdelivered : (⟨.deliver, 0, size (c.readHeader rbp).pkt⟩ : Access) ∈
        passAccesses size c rbp := by
      unfold passAccesses
      dsimp only
      rw [if_neg (Nat.not_lt_of_le hhdr), if_pos (show size (c.readHeader rbp).pkt ≤ rbp.length by
        omega)]
      exact List.mem_append_right _ (List.mem_cons_of_mem _ List.mem_cons_self)
    exact hsmall (hsafe.whole _ hdelivered rfl)
  · intro hlarge
    have hbounds : ∀ a ∈ passAccesses size c rbp, a.Inside rbp.length ∧
        (a.use = .deliver → 8 ≤ a.size) := by
      intro a ha
      unfold passAccesses at ha
      dsimp only at ha
      by_cases hshort : rbp.length < 8
      · rw [if_pos hshort] at ha
        exact nomatch ha
      · have hhdr := Nat.le_of_not_lt hshort
        have hcopy : (⟨.copy, 0, 8⟩ : Access).Inside rbp.length ∧
            ((Ship.Use.copy = .deliver) → 8 ≤ 8) := by
          refine ⟨?_, fun _ => Nat.le_refl _⟩
          rw [Access.Inside]
          dsimp only
          omega
        rw [if_neg hshort, List.mem_append] at ha
        rcases ha with hheader | hpacket
        · split_ifs at hheader
          · exact nomatch hheader
          · rw [List.mem_singleton.mp hheader]
            exact hcopy
        · split_ifs at hpacket with hwhole
          · rcases List.mem_cons.mp hpacket with rfl | hlast
            · exact hcopy
            · rw [List.mem_singleton.mp hlast]
              refine ⟨?_, fun _ => hlarge hhdr⟩
              rw [Access.Inside]
              dsimp only
              omega
          · exact nomatch hpacket
    refine ⟨fun a ha => (hbounds a ha).1, fun a ha => (hbounds a ha).2, ?_⟩
    intro c' n htake
    obtain ⟨hhdr, hn, -⟩ := linkPass_take_iff htake
    rw [hn]
    exact hlarge hhdr

/-! ## Calls -/

variable {buf : RecvBuf} {received : List UInt8}

variable (received) in
theorem length_mainBuf (hbuf : buf.saved.length ≤ 65536) :
    (mainBuf buf received).length ≤ 65536 := by
  have hlen := length_saved buf
  rw [mainBuf, List.length_append, List.length_take, linkRoom]
  omega

/-- Whatever is received: a call is safe exactly when each header that it comes to tells a size
that is no smaller than it. -/
theorem linkCallSafe_iff {fine : List UInt8 → Prop} (hfine : ∀ hdr, 8 ≤ size hdr ↔ fine hdr)
    (hbuf : buf.saved.length ≤ 65536) :
    CallSafe size process c buf received ↔ CallSized size process fine c buf received := by
  constructor
  · intro hsafe c' rbp hcome hhdr
    exact (hfine _).mp (passSafe_iff.mp (hsafe.passes c' rbp hcome) hhdr)
  · intro hsized
    refine ⟨length_mainBuf received hbuf, ?_, ?_⟩
    · intro c' rbp hcome
      exact passSafe_iff.mpr fun hhdr => (hfine _).mpr (hsized c' rbp hcome hhdr)
    · unfold linkCall
      by_cases hnone : received = []
      · rw [if_pos hnone]
        exact Option.some_ne_none _
      · rw [if_neg hnone]
        have hends : ChunkedInput.loop (linkPass size process)
            ((mainBuf buf received).length + 1) { c with rv := 0 } (mainBuf buf received) ≠
            .failed := by
          apply ChunkedInput.loop_ends (Nat.lt_succ_self _)
          intro c' rbp hcome
          refine ⟨linkPass_ne_fail c' rbp, ?_⟩
          intro t n htake
          obtain ⟨hhdr, hn, hle⟩ := linkPass_take_iff htake
          have hlarge := (hfine _).mpr (hsized c' rbp ⟨hnone, hcome⟩ hhdr)
          exact ⟨by omega, hle⟩
        dsimp only
        split
        · exact Option.some_ne_none _
        · exact Option.some_ne_none _
        · rename_i hfailed
          exact absurd hfailed hends

/-! ## Runs -/

/-- What is kept fits into the main buffer, and all calls have ended. -/
def Fits : LinkState σ → Prop
  | some (_, buf) => buf.saved.length ≤ 65536
  | none => False

/-- What a safe call keeps fits into the main buffer. -/
theorem Fits.linkStep {s : LinkState σ} (hs : Fits s)
    (hsafe : NextSafe size process s received) : Fits (linkStep size process s received) := by
  cases s with
  | none => exact hs
  | some pair =>
      obtain ⟨c, buf⟩ := pair
      unfold Sylverant.Shipgate.linkStep
      dsimp only
      split
      · rename_i hgoes
        have hends := (hsafe hgoes).ends
        unfold linkCall at hends ⊢
        by_cases hnone : received = []
        · rw [if_pos hnone]
          exact hs
        · rw [if_neg hnone] at hends ⊢
          dsimp only at hends ⊢
          cases hloop : ChunkedInput.loop (linkPass size process)
            ((buf.saved ++ received.take (linkRoom buf)).length + 1) { c with rv := 0 }
            (buf.saved ++ received.take (linkRoom buf)) with
          | waiting c' rest =>
              have hrest := ChunkedInput.length_loop_waiting hloop
              have hmain := length_mainBuf received hs
              show (saveRest buf rest).saved.length ≤ 65536
              rw [Ship.saved_saveRest]
              exact Nat.le_trans hrest hmain
          | stopped c' => exact Nat.zero_le _
          | failed =>
              rw [hloop] at hends
              exact absurd rfl hends
      · exact hs

variable (size process) in
/-- In every run of calls for a new connection, all calls are safe exactly if all headers that
they come to are fine, which is if they tell sizes that are no smaller than a header. -/
theorem link_runs_iff {fine : List UInt8 → Prop} (hfine : ∀ hdr, 8 ≤ size hdr ↔ fine hdr)
    (handler : σ) (pieces : List (List UInt8)) :
    Run.Guarded (linkStep size process) (NextSafe size process) (.new handler) pieces ↔
      Run.Guarded (linkStep size process) (NextSized size process fine) (.new handler) pieces := by
  have hiff : ∀ s received, Fits s →
      (NextSafe size process s received ↔ NextSized size process fine s received) := by
    intro s received hs
    cases s with
    | none => exact hs.elim
    | some pair =>
        constructor
        · exact fun hsafe hgoes => (linkCallSafe_iff hfine hs).mp (hsafe hgoes)
        · exact fun hsized hgoes => (linkCallSafe_iff hfine hs).mpr (hsized hgoes)
  apply Run.Guarded.congr hiff
  · exact fun s received hs hsafe => hs.linkStep hsafe
  · exact Nat.zero_le _

end Safe

/-- Rounding up makes a size smaller than a header of a length of zero, and of one that is
carried over 16 bits. -/
theorem eight_le_pktLen8_iff (hdr : List UInt8) :
    8 ≤ pktLen8 hdr ↔ pktLen hdr ≠ 0 ∧ pktLen hdr ≤ 0xFFF8 := by
  have hlen := pktLen_lt hdr
  rw [pktLen8_eq]
  omega

end Sylverant.Shipgate
