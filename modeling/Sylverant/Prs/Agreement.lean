/-
# The public decoding functions

The lockstep of the callbacks carries over to the public functions. On an input
that produces fewer than `2 ^ 31` bytes, the three functions without a limit
return what the decoder without buffers returns, and the one with a fixed buffer
does too unless the buffer is too small. With the meaning of the decoder this
gives the meaning of `prsDecompressBuf`.
-/

import Sylverant.Prs.FrontEnds
import Sylverant.Prs.Decoding

namespace Sylverant.Prs

open Simulation
open FlagStream (Item)

/-! ## Callbacks in lockstep -/

theorem inStep_buf (junk : Nat → UInt8) :
    Callbacks.InStep (Mirrors MemSource GrowSink) Never Decoder.callbacks (bufCallbacks junk) where
  copyByte := sim_copyAbyte upward_never junk
  offsetCopy _ hlow hneg := sim_offsetCopyAlloc upward_never framed_memSource junk hlow hneg
  fetchBit := sim_fetchBit upward_never
  fetchByte := sim_fetchByte upward_never
  fetchShort := sim_fetchShort upward_never
  dstPos _ _ related := related.2.2.2.2.1.symm

theorem inStep_buf2 (limit : Nat) :
    Callbacks.InStep (Mirrors MemSource (FixedSink limit)) (Overflows limit) Decoder.callbacks
      buf2Callbacks where
  copyByte := sim_copyByte limit
  offsetCopy _ hlow hneg := sim_offsetCopy framed_memSource limit hlow hneg
  fetchBit := sim_fetchBit (upward_overflows limit)
  fetchByte := sim_fetchByte (upward_overflows limit)
  fetchShort := sim_fetchShort (upward_overflows limit)
  dstPos _ _ related := related.2.2.2.2.1.symm

theorem inStep_size :
    Callbacks.InStep (Mirrors MemSource CountSink) Never Decoder.callbacks sizeCallbacks where
  copyByte := sim_nocopyByte upward_never
  offsetCopy _ hlow hneg := sim_offsetNocopy upward_never framed_memSource hlow hneg
  fetchBit := sim_fetchBit upward_never
  fetchByte := sim_fetchByte upward_never
  fetchShort := sim_fetchShort upward_never
  dstPos _ _ related := related.2.symm

theorem inStep_file (junk : Nat → UInt8) :
    Callbacks.InStep (Mirrors FileSource GrowSink) Never Decoder.callbacks
      (fileCallbacks junk) where
  copyByte := sim_copyFbyte upward_never junk
  offsetCopy _ hlow hneg := sim_offsetCopyAlloc upward_never framed_fileSource junk hlow hneg
  fetchBit := sim_fileBit upward_never
  fetchByte := sim_fileByte upward_never
  fetchShort := sim_fileShort upward_never
  dstPos _ _ related := related.2.2.2.2.1.symm

/-! ## Results -/

section Results

variable {src : List UInt8}

/-- The value the functions return, with what was produced before that. -/
def Decoder.returned (src : List UInt8) : Except Stop Int :=
  match Decoder.run src with
  | .ok rv _ => .ok rv
  | .error stop _ => .error stop

/-- A run ends in one of two ways when little enough is produced. -/
theorem run_small (hsmall : (Decoder.produced src).length < 2 ^ 31) :
    (∃ d, Decoder.run src = .error (.ret (-EBADMSG)) d ∧ d.out = Decoder.produced src) ∨
      ∃ d, Decoder.run src = .ok (Decoder.produced src).length d ∧
        d.out = Decoder.produced src := by
  obtain ⟨d, hstop⟩ | ⟨tokens, pad, trailing, next, -, -, hrun⟩ := Decoder.run_cases src
  · exact .inl ⟨d, hstop, by rw [Decoder.produced, hstop]; rfl⟩
  · have hout : Decoder.produced src = expansion tokens := by rw [Decoder.produced, hrun]; rfl
    rw [hout] at hsmall ⊢
    rw [CInt.ofInt_natCast hsmall] at hrun
    exact .inr ⟨_, hrun, rfl⟩

theorem mirrors_memCxt (src : List UInt8) {Snk : Sink} (dst : List UInt8) (dstLen : Nat)
    (h : Snk [] 0 dstLen 0 dst) :
    Mirrors MemSource Snk (Decoder.start src) (memCxt src dst dstLen) :=
  ⟨⟨rfl, rfl, rfl, rfl, rfl⟩, h⟩

theorem growSink_malloc (junk : Nat → UInt8) {n : Nat} (h : 0 < n) :
    GrowSink [] 0 n 0 (malloc junk n) :=
  ⟨rfl, length_malloc junk n, h, rfl, Nat.zero_le _, rfl⟩

/-- A growing buffer ends up with the bytes produced. -/
theorem returnBuffer_eq {Src : FlagStream.Cursor → DecCxt → Prop}
    (hsmall : (Decoder.produced src).length < 2 ^ 31)
    {result : EStateM.Result Stop DecCxt Int}
    (h : Lockstep (Mirrors Src GrowSink) Never (Decoder.run src) result) :
    returnBuffer result = (Decoder.returned src).map fun rv => (rv, Decoder.produced src) := by
  obtain ⟨d, hrun, hout⟩ | ⟨d, hrun, hout⟩ := run_small hsmall
  · rw [hrun] at h
    rw [Decoder.returned, hrun]
    cases h with
    | error e related => rfl
    | gave allowed => exact allowed.elim
  · rw [hrun] at h
    rw [Decoder.returned, hrun]
    cases h with
    | ok a related =>
        obtain ⟨-, -, -, -, -, -, htake⟩ := related
        rw [hout] at htake
        simp only [returnBuffer, if_neg (Int.not_lt.mpr (Int.natCast_nonneg _)),
          Int.toNat_natCast, htake, Except.map]
    | gave allowed => exact allowed.elim

variable (hlen : 3 ≤ src.length) (hsmall : (Decoder.produced src).length < 2 ^ 31)

include hlen

theorem prsDecompressBuf_eq_returnBuffer (junk : Nat → UInt8) :
    prsDecompressBuf junk src = returnBuffer (decompressBufRun junk src) := by
  rw [prsDecompressBuf, if_neg (by omega), if_neg (by omega)]

theorem lockstep_buf (junk : Nat → UInt8) :
    Lockstep (Mirrors MemSource GrowSink) Never (Decoder.run src) (decompressBufRun junk src) :=
  (sim_doDecompress (inStep_buf junk) _).run _ _
    (mirrors_memCxt src _ _ (growSink_malloc junk (n := src.length * 2) (by omega)))

include hsmall

theorem prsDecompressBuf_eq (junk : Nat → UInt8) :
    prsDecompressBuf junk src =
      (Decoder.returned src).map fun rv => (rv, Decoder.produced src) := by
  rw [prsDecompressBuf_eq_returnBuffer hlen]
  exact returnBuffer_eq hsmall (lockstep_buf hlen junk)

theorem prsDecompressFile_eq (junk : Nat → UInt8) :
    prsDecompressFile junk src =
      (Decoder.returned src).map fun rv => (rv, Decoder.produced src) := by
  rw [prsDecompressFile, if_neg (by omega)]
  refine returnBuffer_eq hsmall ((sim_doDecompress (inStep_file junk) _).run _ _ ?_)
  exact ⟨⟨rfl, rfl, rfl, rfl, rfl⟩, growSink_malloc junk (n := src.length * 2) (by omega)⟩

omit hsmall in
theorem prsDecompressSize_eq : prsDecompressSize src = Decoder.returned src := by
  have h := (sim_doDecompress inStep_size (passes src)).run _ _
    (mirrors_memCxt src [] sizeMax rfl)
  rw [prsDecompressSize, if_neg (by omega), if_neg (by omega), Decoder.returned, Decoder.run]
  generalize doDecompress Decoder.callbacks (passes src) (Decoder.start src) = r at h
  generalize doDecompress sizeCallbacks (passes src) (memCxt src [] sizeMax) = q at h
  cases h with
  | ok a related => rfl
  | error e related => rfl
  | gave allowed => exact allowed.elim

omit hsmall in
/-- A fixed buffer takes what is produced if that fits, and is refused if not. -/
theorem prsDecompressBuf2_eq {dst : List UInt8} (hdst : 1 ≤ dst.length) :
    ((Decoder.produced src).length ≤ dst.length →
      (prsDecompressBuf2 src dst).1 = Decoder.returned src ∧
      (prsDecompressBuf2 src dst).2.length = dst.length ∧
      (prsDecompressBuf2 src dst).2.take (Decoder.produced src).length =
        Decoder.produced src) ∧
    (dst.length < (Decoder.produced src).length →
      (prsDecompressBuf2 src dst).1 = .error (.ret (-ENOSPC))) := by
  have h := (sim_doDecompress (inStep_buf2 dst.length) (passes src)).run _ _
    (mirrors_memCxt src dst dst.length
      ⟨rfl, rfl, rfl, rfl, Nat.zero_le _, rfl⟩)
  have hshort : ¬ (src.length = 0 ∨ dst.length = 0) := by omega
  rw [prsDecompressBuf2, if_neg hshort, if_neg (by omega)]
  generalize hq : doDecompress buf2Callbacks (passes src) (memCxt src dst dst.length) = q at h
  change Lockstep _ _ (Decoder.run src) q at h
  have hout : (endState (Decoder.run src)).out = Decoder.produced src := rfl
  rw [Decoder.returned]
  generalize Decoder.run src = r at h hout
  cases h with
  | ok a related =>
      obtain ⟨-, -, hlimit, -, -, hle, htake⟩ := related
      simp only [endState] at hout
      rw [hout] at hle htake
      exact ⟨fun _ => ⟨rfl, hlimit, htake⟩, fun hlt => absurd hle (by omega)⟩
  | error e related =>
      obtain ⟨-, -, hlimit, -, -, hle, htake⟩ := related
      simp only [endState] at hout
      rw [hout] at hle htake
      exact ⟨fun _ => ⟨rfl, hlimit, htake⟩, fun hlt => absurd hle (by omega)⟩
  | gave allowed =>
      obtain ⟨rfl, hlimit⟩ := allowed
      rw [hout] at hlimit
      exact ⟨fun hle => absurd hle (by omega), fun _ => rfl⟩

end Results

/-! ## Agreement of the front ends -/

/-- A stream that produces fewer than `2 ^ 31` bytes is decoded alike by every
front end, and a fixed buffer is refused exactly when it is too small. -/
theorem frontEnds_agree {src : List UInt8} (hlen : 3 ≤ src.length)
    (hsmall : (Decoder.produced src).length < 2 ^ 31) (junk junk' : Nat → UInt8) :
    ∃ r : Except Stop Int,
      (r = .ok (Decoder.produced src).length ∨ r = .error (.ret (-EBADMSG))) ∧
      prsDecompressSize src = r ∧
      prsDecompressBuf junk src = r.map (fun rv => (rv, Decoder.produced src)) ∧
      prsDecompressFile junk' src = r.map (fun rv => (rv, Decoder.produced src)) ∧
      ∀ dst : List UInt8, 1 ≤ dst.length →
        ((Decoder.produced src).length ≤ dst.length →
          (prsDecompressBuf2 src dst).1 = r ∧
          (prsDecompressBuf2 src dst).2.take (Decoder.produced src).length =
            Decoder.produced src) ∧
        (dst.length < (Decoder.produced src).length →
          (prsDecompressBuf2 src dst).1 = .error (.ret (-ENOSPC))) := by
  refine ⟨Decoder.returned src, ?_, prsDecompressSize_eq hlen,
    prsDecompressBuf_eq hlen hsmall junk, prsDecompressFile_eq hlen hsmall junk',
    fun dst hdst => ?_⟩
  swap
  · obtain ⟨hfits, hfull⟩ := prsDecompressBuf2_eq hlen hdst
    exact ⟨fun hle => ⟨(hfits hle).1, (hfits hle).2.2⟩, hfull⟩
  obtain ⟨d, hrun, -⟩ | ⟨d, hrun, -⟩ := run_small hsmall
  · exact .inr (by rw [Decoder.returned, hrun])
  · exact .inl (by rw [Decoder.returned, hrun])

/-- A literal and the end marker, through every front end. -/
theorem frontEnds_agree_literal :
    ∃ r : Except Stop Int,
      (r = .ok 1 ∨ r = .error (.ret (-EBADMSG))) ∧
      prsDecompressSize [5, 65, 0, 0] = r ∧
      prsDecompressBuf (fun _ => 0) [5, 65, 0, 0] = r.map (fun rv => (rv, [65])) ∧
      prsDecompressFile (fun _ => 1) [5, 65, 0, 0] = r.map (fun rv => (rv, [65])) ∧
      ∀ dst : List UInt8, 1 ≤ dst.length →
        (1 ≤ dst.length →
          (prsDecompressBuf2 [5, 65, 0, 0] dst).1 = r ∧
          (prsDecompressBuf2 [5, 65, 0, 0] dst).2.take 1 = [65]) ∧
        (dst.length < 1 → (prsDecompressBuf2 [5, 65, 0, 0] dst).1 = .error (.ret (-ENOSPC))) :=
  @frontEnds_agree [5, 65, 0, 0] (by decide) (by decide) (fun _ => 0) (fun _ => 1)

/-! ## The meaning of a stream -/

/-- A stream is long enough to be decoded. -/
theorem three_le_length_serialise (pad : List Bool) (tokens : List Token) :
    3 ≤ (serialise pad tokens).length := by
  rw [serialise, FlagStream.length_pack, FlagStream.packedSize_eq (Nat.zero_le 7)]
  simp only [streamItems, FlagStream.byteCount_append, FlagStream.bitsOf_append,
    List.length_append, endMarker, FlagStream.byteCount, FlagStream.bitsOf, List.length_cons,
    List.length_nil]
  omega

/-- A well-formed stream is decoded to its expansion. -/
theorem decompress_serialise (junk : Nat → UInt8) {tokens : List Token}
    (hwf : WellFormed tokens) (hsmall : (expansion tokens).length < 2 ^ 31) (pad : List Bool)
    (trailing : List UInt8) :
    prsDecompressBuf junk (serialise pad tokens ++ trailing) =
      .ok ((expansion tokens).length, expansion tokens) := by
  obtain ⟨next, hrun⟩ := Decoder.run_serialise hwf hsmall pad trailing
  have hout : Decoder.produced (serialise pad tokens ++ trailing) = expansion tokens := by
    rw [Decoder.produced, hrun]
    rfl
  have hlen : 3 ≤ (serialise pad tokens ++ trailing).length := by
    have := three_le_length_serialise pad tokens
    rw [List.length_append]
    omega
  rw [prsDecompressBuf_eq hlen (by rwa [hout]) junk, Decoder.returned, hrun, hout]
  rfl

/-- What is decoded is a well-formed stream and its expansion. -/
theorem serialise_of_decompress (junk : Nat → UInt8) {src out : List UInt8} {n : Int}
    (hsmall : (Decoder.produced src).length < 2 ^ 31)
    (hrun : prsDecompressBuf junk src = .ok (n, out)) :
    ∃ (tokens : List Token) (pad : List Bool) (trailing : List UInt8), WellFormed tokens ∧
      src = serialise pad tokens ++ trailing ∧ out = expansion tokens ∧ n = out.length := by
  have hlen : 3 ≤ src.length := by
    by_contra hshort
    rw [prsDecompressBuf] at hrun
    split at hrun
    · cases hrun
    · rw [if_pos (by omega)] at hrun
      cases hrun
  rw [prsDecompressBuf_eq hlen hsmall junk, Decoder.returned] at hrun
  obtain ⟨d, hstop⟩ | ⟨tokens, pad, trailing, next, hwf, hsrc, hok⟩ := Decoder.run_cases src
  · rw [hstop] at hrun
    cases hrun
  · have hout : Decoder.produced src = expansion tokens := by
      rw [Decoder.produced, hok]
      rfl
    rw [hok, hout] at hrun
    rw [hout] at hsmall
    simp only [Except.map, Except.ok.injEq, Prod.mk.injEq, CInt.ofInt_natCast hsmall] at hrun
    obtain ⟨rfl, rfl⟩ := hrun
    exact ⟨tokens, pad, trailing, hwf, hsrc, rfl, rfl⟩

/-- `prs_decompress_buf` decodes a well-formed stream to its expansion, whatever
follows it, and decodes nothing but well-formed streams. -/
theorem prsDecompressBuf_tokens (junk : Nat → UInt8) :
    (∀ (tokens : List Token) (pad : List Bool) (trailing : List UInt8), WellFormed tokens →
      (expansion tokens).length < 2 ^ 31 →
      prsDecompressBuf junk (serialise pad tokens ++ trailing) =
        .ok ((expansion tokens).length, expansion tokens)) ∧
    ∀ (src : List UInt8) (n : Int) (out : List UInt8),
      (Decoder.produced src).length < 2 ^ 31 → prsDecompressBuf junk src = .ok (n, out) →
      ∃ (tokens : List Token) (pad : List Bool) (trailing : List UInt8), WellFormed tokens ∧
        src = serialise pad tokens ++ trailing ∧ out = expansion tokens ∧ n = out.length :=
  ⟨fun _ pad trailing hwf hsmall => decompress_serialise junk hwf hsmall pad trailing,
    fun _ _ _ hsmall hrun => serialise_of_decompress junk hsmall hrun⟩

/-- A literal and a copy that overlaps itself, with two bytes after the stream. -/
theorem prsDecompressBuf_tokens_overlap :
    prsDecompressBuf (fun _ => 0) (serialise [true] [.literal 7, .short 4 1] ++ [1, 2]) =
        .ok (5, [7, 7, 7, 7, 7]) ∧
      ∃ (tokens : List Token) (pad : List Bool) (trailing : List UInt8), WellFormed tokens ∧
        [5, 65, 0, 0] = serialise pad tokens ++ trailing ∧ [65] = expansion tokens ∧
        (1 : Int) = ([65] : List UInt8).length :=
  ⟨(prsDecompressBuf_tokens _).1 [.literal 7, .short 4 1] [true] [1, 2]
      ⟨by decide, by decide⟩ (by decide),
    (prsDecompressBuf_tokens fun _ => 0).2 [5, 65, 0, 0] 1 [65] (by decide) (by decide)⟩

end Sylverant.Prs
