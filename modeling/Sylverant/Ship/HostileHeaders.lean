/-
# Headers that clients make up

What `client_process_pkt` touches when the decrypted length field of a header is
anything: the bytes that it copies, has decrypted and delivers in each pass of its loop,
and how far the pass gets. A length that is rounded up to zero in 16 bits is smaller than
the header, and what is left of it for the body is no size at all.
-/

import Mathlib.Algebra.Group.Int.Defs
import Sylverant.Ship.Delivery

namespace Sylverant.Ship

open ChunkedInput (Step Outcome Reader)

/-! ## What a pass touches -/

/-- What is done with bytes of the buffer. -/
inductive Use
  | copy
  | decrypt
  | deliver
  deriving DecidableEq, Repr

/-- Bytes of the buffer, counted from where the pass starts. -/
structure Access where
  use : Use
  start : Nat
  size : Nat
  deriving DecidableEq, Repr

/-- `pkt_sz - hsz`, an int, as the unsigned long that `CRYPT_CryptData` takes. -/
def bodySize (hsz size : Nat) : Nat := (((size : Int) - hsz) % 2 ^ 64).toNat

section Passes

variable {σ : Type} (key : Nat → UInt8 → UInt8) (handlers : Handlers σ)

/-- What one pass of the loop asks for, in the order in which it does. -/
def passAccesses (r : Reception σ) (rbp : List UInt8) : List Access :=
  let hsz := r.c.version.hdrSize
  if rbp.length < hsz then []
  else
    let size := pktSz r.c.version (readHeader key r.c rbp).pkt
    (if r.c.hdrRead then [] else [⟨.copy, 0, hsz⟩]) ++
      if size ≤ rbp.length then
        [⟨.decrypt, hsz, bodySize hsz size⟩, ⟨.copy, 0, hsz⟩, ⟨.deliver, 0, size⟩]
      else []

/-- The bytes are among the first `n`. -/
def Access.Inside (n : Nat) (a : Access) : Prop := a.start + a.size ≤ n

/-- A pass is safe: it touches bytes only that were received, delivers no packet shorter
than a header, and takes at least a header when it goes on. -/
structure PassSafe (r : Reception σ) (rbp : List UInt8) : Prop where
  inside : ∀ a ∈ passAccesses key r rbp, a.Inside rbp.length
  whole : ∀ a ∈ passAccesses key r rbp, a.use = .deliver → r.c.version.hdrSize ≤ a.size
  progress : ∀ r' n, processPass key handlers r rbp = .take r' n → r.c.version.hdrSize ≤ n

/-- The passes that the loop comes to from one. -/
inductive Reaches : Reception σ → List UInt8 → Reception σ → List UInt8 → Prop
  | here (r : Reception σ) (rbp : List UInt8) : Reaches r rbp r rbp
  | next {r r₁ r₂ : Reception σ} {rbp rbp₁ : List UInt8} {n : Nat} :
      Reaches r rbp r₁ rbp₁ → processPass key handlers r₁ rbp₁ = .take r₂ n →
      Reaches r rbp r₂ (rbp₁.drop n)

/-- The passes of one call, over the bytes kept and the bytes received. -/
def CallReaches (r : Reception σ) (buf : RecvBuf) (received : List UInt8) (r' : Reception σ)
    (rbp : List UInt8) : Prop :=
  received ≠ [] ∧ Reaches key handlers { r with rv := 0 } (buf.saved ++ received) r' rbp

/-- A call is safe: each of its passes is, and it ends. -/
structure CallSafe (r : Reception σ) (buf : RecvBuf) (received : List UInt8) : Prop where
  passes : ∀ r' rbp, CallReaches key handlers r buf received r' rbp → PassSafe key handlers r' rbp
  ends : clientProcessPkt key handlers r buf received ≠ none

/-- The length field of the header at the front of the buffer, decrypted. -/
def frontLen (r : Reception σ) (rbp : List UInt8) : Nat :=
  pktLen r.c.version (readHeader key r.c rbp).pkt

end Passes

/-! ## Sizes -/

/-- The header is as long as a power of two. -/
theorem hdrSize_pow (version : Version) : ∃ k, (k = 2 ∨ k = 3) ∧ version.hdrSize = 2 ^ k := by
  cases version with
  | bb => exact ⟨3, Or.inr rfl, rfl⟩
  | _ => exact ⟨2, Or.inl rfl, rfl⟩

/-- Only a length of zero, and one that rounding up carries over 16 bits, leave a packet
smaller than its header. -/
theorem pktSz_lt_hdrSize_iff (version : Version) (pkt : List UInt8) :
    pktSz version pkt < version.hdrSize ↔
      pktLen version pkt = 0 ∨ 0x10000 - version.hdrSize < pktLen version pkt := by
  obtain ⟨k, hk, hhdr⟩ := hdrSize_pow version
  have hlen := pktLen_lt version pkt
  simp only [pktSz]
  generalize pktLen version pkt = len at hlen ⊢
  rw [hhdr, Nat.and_two_pow_sub_one_eq_mod, and_clearLow (by omega) hlen]
  rcases hk with rfl | rfl
  · split <;> omega
  · split <;> omega

theorem bodySize_of_le {hsz size : Nat} (hle : hsz ≤ size) (hsize : size < 0x10000) :
    bodySize hsz size = size - hsz := by
  rw [bodySize]
  omega

/-! ## Passes -/

section Safe

variable {σ : Type} {key : Nat → UInt8 → UInt8} {handlers : Handlers σ}

/-- A pass over a header is safe exactly when the packet is not smaller than it. -/
theorem passSafe_iff (r : Reception σ) (rbp : List UInt8) :
    PassSafe key handlers r rbp ↔
      (r.c.version.hdrSize ≤ rbp.length →
        r.c.version.hdrSize ≤ pktSz r.c.version (readHeader key r.c rbp).pkt) := by
  have hpos := hdrSize_pos r.c.version
  have hbound := pktSz_lt r.c.version (readHeader key r.c rbp).pkt
  constructor
  · intro safe hdr
    by_contra small
    have whole : pktSz r.c.version (readHeader key r.c rbp).pkt ≤ rbp.length := by omega
    have delivered : (⟨.deliver, 0, pktSz r.c.version (readHeader key r.c rbp).pkt⟩ : Access) ∈
        passAccesses key r rbp := by
      simp only [passAccesses, if_neg (Nat.not_lt_of_le hdr), if_pos whole]
      apply List.mem_append_right
      exact List.mem_cons_of_mem _ (List.mem_cons_of_mem _ List.mem_cons_self)
    exact small (safe.whole _ delivered rfl)
  · intro large
    have bounds : ∀ a ∈ passAccesses key r rbp, a.Inside rbp.length ∧
        (a.use = .deliver → r.c.version.hdrSize ≤ a.size) := by
      intro a ha
      rw [passAccesses] at ha
      by_cases short : rbp.length < r.c.version.hdrSize
      · rw [if_pos short] at ha
        contradiction
      · have hdr : r.c.version.hdrSize ≤ rbp.length := Nat.le_of_not_lt short
        have body := bodySize_of_le (large hdr) hbound
        rw [if_neg short, List.mem_append] at ha
        rcases ha with header | packet
        · split_ifs at header
          · contradiction
          · obtain rfl := List.mem_singleton.mp header
            refine ⟨?_, ?_⟩
            · simp only [Access.Inside]
              omega
            · intro no
              contradiction
        · split_ifs at packet with whole
          · have hlarge := large hdr
            simp only [List.mem_cons, List.not_mem_nil, or_false] at packet
            rcases packet with rfl | rfl | rfl
            · refine ⟨?_, ?_⟩
              · simp only [Access.Inside, body]
                omega
              · intro no
                contradiction
            · refine ⟨?_, ?_⟩
              · simp only [Access.Inside]
                omega
              · intro no
                contradiction
            · refine ⟨?_, ?_⟩
              · simp only [Access.Inside]
                omega
              · intro _
                exact hlarge
          · contradiction
    refine ⟨fun a ha => (bounds a ha).1, fun a ha => (bounds a ha).2, ?_⟩
    intro r' n took
    rw [processPass_eq] at took
    split_ifs at took with short whole small
    cases took
    exact Nat.le_of_not_lt small

/-- A loop that fails comes to a pass that does. -/
theorem reaches_fail_of_run {r : Reception σ} {rbp : List UInt8}
    (failed : (pktReader key handlers).run r rbp = .failed) :
    ∃ r' rbp', Reaches key handlers r rbp r' rbp' ∧
      processPass key handlers r' rbp' = .fail := by
  have onward : ∀ k r₁ rbp₁, rbp₁.length = k → Reaches key handlers r rbp r₁ rbp₁ →
      (pktReader key handlers).run r₁ rbp₁ = .failed →
      ∃ r' rbp', Reaches key handlers r rbp r' rbp' ∧
        processPass key handlers r' rbp' = .fail := by
    intro k
    induction k using Nat.strongRecOn with
    | ind k ih =>
        intro r₁ rbp₁ hlen come hrun
        cases hstep : (pktReader key handlers).step r₁ rbp₁ with
        | wait r₂ =>
            rw [Reader.run_wait hstep] at hrun
            contradiction
        | stop r₂ =>
            rw [Reader.run_stop hstep] at hrun
            contradiction
        | fail => exact ⟨r₁, rbp₁, come, hstep⟩
        | take r₂ n =>
            obtain ⟨hpos, hle⟩ := processPass_take_bounds hstep
            rw [Reader.run_take hstep] at hrun
            refine ih (rbp₁.drop n).length ?_ r₂ _ rfl (.next come hstep) hrun
            rw [List.length_drop]
            omega
  exact onward _ r rbp rfl (.here r rbp) failed

/-- A pass fails on a header only whose packet is smaller than it. -/
theorem small_of_fail {r : Reception σ} {rbp : List UInt8}
    (h : processPass key handlers r rbp = .fail) :
    r.c.version.hdrSize ≤ rbp.length ∧
      pktSz r.c.version (readHeader key r.c rbp).pkt < r.c.version.hdrSize := by
  rw [processPass_eq] at h
  split_ifs at h with short whole small
  exact ⟨Nat.le_of_not_lt short, small⟩

/-- Whatever a call has kept and receives: it is safe exactly when no header that it
comes to has a length of zero, or one that is not rounded up in 16 bits. -/
theorem callSafe_iff (key : Nat → UInt8 → UInt8) (handlers : Handlers σ) (r : Reception σ)
    (buf : RecvBuf) (received : List UInt8) :
    CallSafe key handlers r buf received ↔
      ∀ r' rbp, CallReaches key handlers r buf received r' rbp →
        r'.c.version.hdrSize ≤ rbp.length →
        frontLen key r' rbp ≠ 0 ∧ frontLen key r' rbp ≤ 0x10000 - r'.c.version.hdrSize := by
  have sized : ∀ (r' : Reception σ) (rbp : List UInt8),
      r'.c.version.hdrSize ≤ pktSz r'.c.version (readHeader key r'.c rbp).pkt ↔
        frontLen key r' rbp ≠ 0 ∧ frontLen key r' rbp ≤ 0x10000 - r'.c.version.hdrSize := by
    intro r' rbp
    have small := pktSz_lt_hdrSize_iff r'.c.version (readHeader key r'.c rbp).pkt
    rw [← Nat.not_lt, small, not_or, Nat.not_lt, frontLen]
  constructor
  · intro safe r' rbp come hdr
    rw [← sized]
    exact (passSafe_iff r' rbp).mp (safe.passes r' rbp come) hdr
  · intro good
    refine ⟨?_, ?_⟩
    · intro r' rbp come
      rw [passSafe_iff]
      intro hdr
      exact (sized r' rbp).mpr (good r' rbp come hdr)
    · intro none_back
      by_cases nothing : received = []
      · rw [clientProcessPkt, if_pos nothing] at none_back
        contradiction
      · rw [clientProcessPkt, if_neg nothing] at none_back
        have failed : (pktReader key handlers).run { r with rv := 0 } (buf.saved ++ received) =
            .failed := by
          cases hrun : (pktReader key handlers).run { r with rv := 0 } (buf.saved ++ received) with
          | waiting r₁ rest =>
              rw [Reader.run] at hrun
              simp only [pktReader] at hrun
              simp only [hrun] at none_back
              contradiction
          | stopped r₁ =>
              rw [Reader.run] at hrun
              simp only [pktReader] at hrun
              simp only [hrun] at none_back
              contradiction
          | failed => rfl
        obtain ⟨r', rbp, come, fail⟩ := reaches_fail_of_run failed
        obtain ⟨hdr, small⟩ := small_of_fail fail
        have large := (sized r' rbp).mpr (good r' rbp ⟨nothing, come⟩ hdr)
        omega

end Safe

/-- A PC client that has sent nothing yet, whose stream is not encrypted. -/
def freshPc : Reception Unit where
  c := { version := .pc, typeShip := false, hdrRead := false, pkt := [], ckey := 0 }
  handler := ()
  delivered := []
  rv := 0

/-- Handlers that accept every packet. -/
def acceptAll : Handlers Unit where
  shipProcessPkt _ _ := ((), 0)
  blockProcessPkt _ _ := ((), 0)

/-- A header of zeros has a packet without bytes delivered. -/
theorem not_callSafe_zeros :
    ¬ CallSafe (fun _ b => b) acceptAll freshPc .empty [0, 0, 0, 0] := by
  intro safe
  have first := safe.passes freshPc [0, 0, 0, 0] ⟨List.cons_ne_nil _ _, .here _ _⟩
  have large := (passSafe_iff freshPc [0, 0, 0, 0]).mp first (by decide)
  exact absurd large (by decide)

end Sylverant.Ship
