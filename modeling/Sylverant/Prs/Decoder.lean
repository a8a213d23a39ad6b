/-
# The decoder without its buffers

`streamCallbacks` runs the decoding loop over a cursor into the compressed bytes
and a list of the bytes produced. It has no lengths, pointers or allocation, and
it is what the four front ends of the source have in common: each set of their
callbacks is in lockstep with it. A front end with a fixed buffer may also stop
with `-ENOSPC`, and then the decoder without buffers goes on to produce more
bytes than the buffer holds.
-/

import Sylverant.Library.FlagStream
import Sylverant.Prs.Decomp

namespace Sylverant.Prs

open FlagStream (Cursor)
open Simulation

/-- A cursor into the compressed bytes and the output so far. -/
structure Decoder where
  cur : Cursor
  out : List UInt8

namespace Decoder

def fetchBit : EStateM Stop Decoder Nat := fun d =>
  match d.cur.nextBit with
  | some (b, next) => .ok b.toNat { d with cur := next }
  | none => .error (.ret (-EBADMSG)) d

def fetchByte : EStateM Stop Decoder Nat := fun d =>
  match d.cur.nextByte with
  | some (v, next) => .ok v.toNat { d with cur := next }
  | none => .error (.ret (-EBADMSG)) d

/-- Both bytes must be there before either is taken. -/
def fetchShort : EStateM Stop Decoder Nat := fun d =>
  match d.cur.nextByte with
  | none => .error (.ret (-EBADMSG)) d
  | some (low, mid) =>
      match mid.nextByte with
      | none => .error (.ret (-EBADMSG)) d
      | some (high, next) => .ok (low.toNat ||| high.toNat <<< 8) { d with cur := next }

def copyByte : EStateM Stop Decoder Unit := fun d =>
  match d.cur.nextByte with
  | some (v, next) => .ok () { cur := next, out := d.out ++ [v] }
  | none => .error (.ret (-EBADMSG)) d

def offsetCopy (offset : Int) : EStateM Stop Decoder Unit := fun d =>
  if CInt.ofInt (CInt.ofInt d.out.length + offset) < 0 then .error (.ret (-EBADMSG)) d
  else .ok () { d with out := d.out ++ d.out[(d.out.length + offset).toNat]?.toList }

def callbacks : Callbacks Decoder :=
  { copyByte, offsetCopy, fetchBit, fetchByte, fetchShort,
    dstPos := fun d => d.out.length }

/-- The decoder at the start of `src`. -/
def start (src : List UInt8) : Decoder := { cur := ⟨0, 0, src⟩, out := [] }

/-- The run of the decoding loop on `src`. -/
def run (src : List UInt8) : EStateM.Result Stop Decoder Int :=
  doDecompress callbacks (passes src) (start src)

/-- The bytes produced before the decoder stops, with success or an error. -/
def produced (src : List UInt8) : List UInt8 := (endState (run src)).out

end Decoder

/-! ## The loop and its callbacks -/

/-- Filling in the high bits makes an offset negative, and no less than the
value of the mask. -/
theorem signExtend_bounds (v : Nat) (mask : BitVec 32) (hmask : 2 ^ 31 ≤ mask.toNat) :
    (mask.toNat : Int) - 2 ^ 32 ≤ signExtend v mask ∧ signExtend v mask < 0 := by
  have hge : mask.toNat ≤ (BitVec.ofNat 32 v ||| mask).toNat := by
    rw [BitVec.toNat_or]
    exact Nat.right_le_or
  have hlt := (BitVec.ofNat 32 v ||| mask).isLt
  rw [signExtend, BitVec.toInt_eq_toNat_cond]
  split <;> omega

/-- Offsets of long copies stay within the window. -/
theorem signExtend_long (v : Nat) :
    -8192 ≤ signExtend v 0xFFFFE000 ∧ signExtend v 0xFFFFE000 < 0 :=
  signExtend_bounds v 0xFFFFE000 (by decide)

/-- Offsets of short copies stay within the window. -/
theorem signExtend_short (v : Nat) :
    -8192 ≤ signExtend v 0xFFFFFF00 ∧ signExtend v 0xFFFFFF00 < 0 := by
  have h : -256 ≤ signExtend v 0xFFFFFF00 ∧ signExtend v 0xFFFFFF00 < 0 :=
    signExtend_bounds v 0xFFFFFF00 (by decide)
  exact ⟨by omega, h.2⟩

/-- Callbacks in lockstep, for the offsets the loop can form. -/
structure Callbacks.InStep {σ τ : Type} (R : σ → τ → Prop) (Gave : σ → Stop → Prop)
    (cb : Callbacks σ) (cb' : Callbacks τ) : Prop where
  copyByte : Sim R Gave cb.copyByte cb'.copyByte
  offsetCopy : ∀ offset, -8192 ≤ offset → offset < 0 →
    Sim R Gave (cb.offsetCopy offset) (cb'.offsetCopy offset)
  fetchBit : Sim R Gave cb.fetchBit cb'.fetchBit
  fetchByte : Sim R Gave cb.fetchByte cb'.fetchByte
  fetchShort : Sim R Gave cb.fetchShort cb'.fetchShort
  dstPos : ∀ s t, R s t → cb.dstPos s = cb'.dstPos t

section InStep

variable {σ τ : Type} {R : σ → τ → Prop} {Gave : σ → Stop → Prop}
variable {cb : Callbacks σ} {cb' : Callbacks τ} (h : cb.InStep R Gave cb')

include h

theorem sim_copyLoop {offset : Int} (hlow : -8192 ≤ offset) (hneg : offset < 0) (size : Nat) :
    Sim R Gave (copyLoop cb offset size) (copyLoop cb' offset size) := by
  induction size with
  | zero => exact Sim.pure ()
  | succ size ih => exact Sim.bind (h.offsetCopy offset hlow hneg) fun _ => ih

theorem sim_longCopy : Sim R Gave (longCopy cb) (longCopy cb') := by
  refine Sim.bind h.fetchShort fun field => ?_
  have hoffset := signExtend_long (field >>> 3)
  by_cases hend : field = 0
  · simp only [hend, if_true]
    exact Sim.read fun s t related => by rw [h.dstPos s t related]
  simp only [hend, if_false]
  by_cases hsize : field &&& 0x0007 = 0
  · simp only [hsize, if_true]
    refine Sim.bind h.fetchByte fun size => ?_
    exact Sim.bind (sim_copyLoop h hoffset.1 hoffset.2 _) fun _ => Sim.pure none
  · simp only [hsize, if_false]
    exact Sim.bind (sim_copyLoop h hoffset.1 hoffset.2 _) fun _ => Sim.pure none

theorem sim_shortCopy : Sim R Gave (shortCopy cb) (shortCopy cb') := by
  refine Sim.bind h.fetchBit fun flag => Sim.bind h.fetchBit fun size => ?_
  refine Sim.bind h.fetchByte fun offset => ?_
  have hoffset := signExtend_short offset
  exact Sim.bind (sim_copyLoop h hoffset.1 hoffset.2 _) fun _ => Sim.pure none

theorem sim_decompressPass : Sim R Gave (decompressPass cb) (decompressPass cb') := by
  refine Sim.bind h.fetchBit fun flag => ?_
  by_cases hflag : flag = 0
  · simp only [hflag, ne_eq, not_true_eq_false, if_false]
    refine Sim.bind h.fetchBit fun flag => ?_
    by_cases hlong : flag = 0
    · simp only [hlong, not_true_eq_false, if_false]
      exact sim_shortCopy h
    · simp only [hlong, not_false_eq_true, if_true]
      exact sim_longCopy h
  · simp only [hflag, ne_eq, not_false_eq_true, if_true]
    exact Sim.bind h.copyByte fun _ => Sim.pure none

/-- Callbacks in lockstep decode in lockstep. -/
theorem sim_doDecompress (fuel : Nat) :
    Sim R Gave (doDecompress cb fuel) (doDecompress cb' fuel) := by
  induction fuel with
  | zero => exact Sim.throw Stop.fuel
  | succ fuel ih =>
      refine Sim.bind (sim_decompressPass h) fun rv => ?_
      cases rv with
      | some rv => exact Sim.pure rv
      | none => exact ih

end InStep

end Sylverant.Prs
