/-
# The decoder with a fixed buffer

A caller that knows the size of what it unpacks gives `prs_decompress_buf2` a block of that
size. A stream fills the block that is meant for it, and what fills a block is
decoded to the same bytes by the other front ends. Data that starts with a zero is refused
before anything is written.
-/

import Sylverant.Prs.RoundTrip

namespace Sylverant.Prs

open Simulation

/-- Flags that are all zero stay so. -/
theorem run_shiftBit_zero {cxt : DecCxt} (h : cxt.flags = 0) :
    shiftBit cxt = .ok 0 { cxt with bitPos := cxt.bitPos - 1 } := by
  have hflags : (0 : UInt8) >>> 1 = 0 := by decide
  have hbit : ((0 : UInt8) &&& 1).toNat = 0 := by decide
  cases cxt
  simp only at h
  subst h
  simp only [shiftBit, run_get_bind, run_set_bind, run_pure, hflags, hbit]

/-- A copy into an empty output is refused. -/
theorem run_offsetCopy_empty {cxt : DecCxt} (hpos : cxt.dstPos = 0) (v : Nat) :
    offsetCopy (signExtend v 0xFFFFFF00) cxt = .error (.ret (-EBADMSG)) cxt := by
  have hbounds := signExtend_short v
  have hcheck : CInt.ofInt (CInt.ofInt ((0 : Nat) : Int) + signExtend v 0xFFFFFF00) < 0 := by
    rw [CInt.ofInt_natCast (by decide), CInt.ofInt_eq_self (by omega) (by omega)]
    omega
  simp only [offsetCopy, run_get_bind, hpos, hcheck, if_true, run_throw]

/-- Data that starts with a zero starts with a copy, and there is nothing to copy. -/
theorem prsDecompressBuf2_zero (rest dst : List UInt8) :
    ∃ rv, prsDecompressBuf2 (0 :: rest) dst = (.error (.ret rv), dst) := by
  rw [prsDecompressBuf2]
  by_cases hnone : (0 :: rest).length = 0 ∨ dst.length = 0
  · exact ⟨_, if_pos hnone⟩
  by_cases hshort : (0 :: rest).length < 3
  · exact ⟨_, by rw [if_neg hnone, if_pos hshort]⟩
  obtain ⟨v, rest, rfl⟩ : ∃ v vs, rest = v :: vs := by
    cases rest with
    | nil => exact absurd (show 1 < 3 by decide) hshort
    | cons v vs => exact ⟨v, vs, rfl⟩
  let cxt (left src : Nat) : DecCxt := { memCxt (0 :: v :: rest) dst dst.length with
    bitPos := left, src := src, srcPos := src }
  have hload : ∀ i b, (0 :: v :: rest)[i]? = some b → ∀ c, loadSrc (cxt c i) i = pure b := by
    intro i b hget c
    simp only [loadSrc, cxt, memCxt, hget]
  have hfirst : fetchBit (cxt 0 0) = .ok 0 (cxt 7 1) := by
    have hmore : ¬ (cxt 0 0).srcPos ≥ (cxt 0 0).srcLen := Nat.not_le.mpr (Nat.succ_pos _)
    have hzero : (cxt 0 0).bitPos = 0 := rfl
    simp only [fetchBit, run_get_bind, hzero, if_true, hmore, if_false]
    rw [show (cxt 0 0).src = 0 from rfl, hload 0 0 rfl 0]
    exact run_shiftBit_zero rfl
  have hbit : ∀ left, fetchBit (cxt (left + 1) 1) = .ok 0 (cxt left 1) := fun _ =>
    run_shiftBit_zero rfl
  have hbyte : fetchByte (cxt 4 1) = .ok v.toNat (cxt 4 2) := by
    have hmore : ¬ (cxt 4 1).srcPos ≥ (cxt 4 1).srcLen :=
      Nat.not_le.mpr (Nat.succ_lt_succ (Nat.succ_pos _))
    simp only [fetchByte, run_get_bind, hmore, if_false]
    rw [show (cxt 4 1).src = 1 from rfl, hload 1 v rfl 4]
    rfl
  have hcopy : offsetCopy (signExtend v.toNat 0xFFFFFF00) (cxt 4 2) =
      .error (.ret (-EBADMSG)) (cxt 4 2) :=
    run_offsetCopy_empty rfl _
  have hcopies : shortCopy buf2Callbacks (cxt 6 1) = .error (.ret (-EBADMSG)) (cxt 4 2) := by
    refine (bind_ok (hbit 5)).trans ((bind_ok (hbit 4)).trans ((bind_ok hbyte).trans ?_))
    exact bind_error (bind_error hcopy)
  have hpass : decompressPass buf2Callbacks (cxt 0 0) = .error (.ret (-EBADMSG)) (cxt 4 2) :=
    (bind_ok hfirst).trans ((bind_ok (hbit 6)).trans hcopies)
  have hrun : doDecompress buf2Callbacks (passes (0 :: v :: rest))
      (memCxt (0 :: v :: rest) dst dst.length) = .error (.ret (-EBADMSG)) (cxt 4 2) := by
    rw [passes, doDecompress]
    exact bind_error hpass
  rw [if_neg hnone, if_neg hshort, hrun]
  exact ⟨_, rfl⟩

section Filling

variable {src dst out : List UInt8}

/-- A well-formed stream fills a block of the size of its expansion. -/
theorem prsDecompressBuf2_serialise {tokens : List Token} (hwf : WellFormed tokens)
    (hdst : dst.length = (expansion tokens).length) (hpos : 1 ≤ dst.length)
    (hsmall : dst.length < 2 ^ 31) (pad : List Bool) (trailing : List UInt8) :
    prsDecompressBuf2 (serialise pad tokens ++ trailing) dst =
      (.ok dst.length, expansion tokens) := by
  obtain ⟨next, hrun⟩ := Decoder.run_serialise hwf (by rwa [← hdst]) pad trailing
  have hout : Decoder.produced (serialise pad tokens ++ trailing) = expansion tokens := by
    rw [Decoder.produced, hrun]
    rfl
  have hlen : 3 ≤ (serialise pad tokens ++ trailing).length := by
    have := three_le_length_serialise pad tokens
    rw [List.length_append]
    omega
  obtain ⟨hrv, hblock, htake⟩ :=
    (prsDecompressBuf2_eq hlen hpos).1 (by rw [hout]; exact Nat.le_of_eq hdst.symm)
  rw [hout, ← hdst, ← hblock, List.take_length] at htake
  rw [Decoder.returned, hrun] at hrv
  simp only at hrv
  exact Prod.ext (by rw [hrv, hdst]) htake

/-- What fills a block is decoded by `prs_decompress_buf` too. -/
theorem prsDecompressBuf_of_buf2 (hsmall : dst.length < 2 ^ 31) (junk : Nat → UInt8)
    (h : prsDecompressBuf2 src dst = (.ok dst.length, out)) :
    prsDecompressBuf junk src = .ok (dst.length, out) := by
  have hfirst : (prsDecompressBuf2 src dst).1 = .ok dst.length := by rw [h]
  have hpos : 1 ≤ dst.length ∧ 3 ≤ src.length := by
    rw [prsDecompressBuf2] at hfirst
    split_ifs at hfirst with hnone hshort
    omega
  obtain ⟨hpos, hlen⟩ := hpos
  obtain ⟨hfits, hfull⟩ := prsDecompressBuf2_eq hlen hpos
  by_cases hle : (Decoder.produced src).length ≤ dst.length
  · obtain ⟨hrv, hblock, htake⟩ := hfits hle
    rw [hfirst] at hrv
    have hcount : (Decoder.produced src).length = dst.length := by
      obtain ⟨d, hrun, -⟩ | ⟨d, hrun, -⟩ := run_small (Nat.lt_of_le_of_lt hle hsmall)
      · rw [Decoder.returned, hrun] at hrv
        cases hrv
      · rw [Decoder.returned, hrun] at hrv
        exact (Int.ofNat.inj (Except.ok.inj hrv)).symm
    rw [hcount, ← hblock, List.take_length, h] at htake
    rw [prsDecompressBuf_eq hlen (by omega) junk, ← hrv, ← htake]
    rfl
  · rw [hfull (by omega)] at hfirst
    cases hfirst

end Filling

end Sylverant.Prs
