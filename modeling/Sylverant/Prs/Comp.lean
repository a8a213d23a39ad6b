/-
# The PRS encoder

`prsCompress` searches matches with a hash table of chains over a window of 8 KiB
and writes tokens as it goes; `prsArchive` writes every byte as a literal. The
source bytes are a function on offsets, so that the bytes past the end that the
hash function reads have a value too. Pointers into the source are offsets from
its start; `base` is the address of the start, which decides the slot of a
pointer in `h_prev`. The output is one block, and a write outside it is a fault.

The loops of the source that follow pointers take fuel here. The length of a
match is counted in an `int`, which wraps.
-/

import Sylverant.Library.CInt
import Sylverant.Prs.Outcome
import Mathlib.Logic.Function.Basic

namespace Sylverant.Prs

/-- `struct prs_comp_cxt`; `flagPtr` is an offset into `dst`. -/
structure CompCxt where
  flags : UInt8
  bitsLeft : Nat
  src : Nat → UInt8
  dst : List UInt8
  flagPtr : Nat
  srcLen : Nat
  dstLen : Nat
  srcPos : Nat
  dstPos : Nat

/-- `struct prs_hash_cxt`; a null pointer is `none`. -/
structure HashCxt where
  hash : UInt8 → Option Nat
  hPrev : Nat → Option Nat

def maxWindow : Nat := 0x2000

/-- `prs_max_compressed_size`. -/
def prsMaxCompressedSize (len : Nat) : Nat :=
  (len + 2) + (len + 2) >>> 3 + if (len + 2) &&& 0x07 ≠ 0 then 1 else 0

/-! ## Writing -/

/-- `*(cxt->dst + i) = b`. -/
def storeByte (cxt : CompCxt) (i : Nat) (b : UInt8) : Except Stop CompCxt :=
  if i < cxt.dst.length then .ok { cxt with dst := cxt.dst.set i b } else .error .fault

/-- Shift a flag into the flag byte. -/
def shiftFlag (cxt : CompCxt) (value : Nat) : CompCxt :=
  { cxt with
    flags := if value ≠ 0 then cxt.flags >>> 1 ||| 0x80 else cxt.flags >>> 1 }

/-- A full flag byte is written to its place before the next one is begun. -/
def setBit (cxt : CompCxt) (value : Nat) : Except Stop CompCxt :=
  if cxt.bitsLeft = 0 then
    if cxt.dstPos ≥ cxt.dstLen then .error (.ret (-ENOSPC))
    else do
      let cxt ← storeByte cxt cxt.flagPtr cxt.flags
      return shiftFlag
        { cxt with flagPtr := cxt.dstPos, dstPos := cxt.dstPos + 1, bitsLeft := 7 } value
  else .ok (shiftFlag { cxt with bitsLeft := cxt.bitsLeft - 1 } value)

def writeFinalFlags (cxt : CompCxt) : Except Stop CompCxt :=
  let flags := cxt.flags >>> UInt8.ofNat cxt.bitsLeft
  storeByte { cxt with flags } cxt.flagPtr flags

def copyLiteral (cxt : CompCxt) : Except Stop CompCxt :=
  if cxt.dstPos ≥ cxt.dstLen then .error (.ret (-ENOSPC))
  else if cxt.srcPos ≥ cxt.srcLen then .error (.ret (-EPERM))
  else do
    let cxt ← storeByte cxt cxt.dstPos (cxt.src cxt.srcPos)
    return { cxt with dstPos := cxt.dstPos + 1, srcPos := cxt.srcPos + 1 }

def writeLiteral (cxt : CompCxt) (val : UInt8) : Except Stop CompCxt :=
  if cxt.dstPos ≥ cxt.dstLen then .error (.ret (-ENOSPC))
  else do
    let cxt ← storeByte cxt cxt.dstPos val
    return { cxt with dstPos := cxt.dstPos + 1 }

def writeEof (cxt : CompCxt) : Except Stop CompCxt := do
  let cxt ← setBit cxt 0
  let cxt ← setBit cxt 1
  let cxt ← writeFinalFlags cxt
  let cxt ← writeLiteral cxt 0
  writeLiteral cxt 0

/-! ## The hash table -/

/-- `HASH_STR`. -/
def hashStr (src : Nat → UInt8) (s : Nat) : UInt8 := src s ^^^ src (s + 1)

namespace HashCxt

variable (base : Nat)

/-- The slot of a pointer in `h_prev`. -/
def slot (s : Nat) : Nat := (base + s) % maxWindow

/-- `PREV`. -/
def prev (hc : HashCxt) (s : Nat) : Option Nat := hc.hPrev (slot base s)

def setPrev (hc : HashCxt) (s : Nat) (ent : Option Nat) : HashCxt :=
  { hc with hPrev := Function.update hc.hPrev (slot base s) ent }

def setEnt (hc : HashCxt) (h : UInt8) (ent : Option Nat) : HashCxt :=
  { hc with hash := Function.update hc.hash h ent }

/-- `ADD_TO_HASH`. -/
def addToHash (hc : HashCxt) (s : Nat) (h : UInt8) : HashCxt :=
  (hc.setPrev base s (hc.hash h)).setEnt h (some s)

/-- The table after `memset`. -/
def empty : HashCxt := { hash := fun _ => none, hPrev := fun _ => none }

end HashCxt

/-! ## Searching -/

/-- The loop of `match_length`, with the number of bytes up to `end`. -/
def matchLoop (src : Nat → UInt8) (s1 s2 : Nat) : Nat → Nat
  | 0 => 0
  | left + 1 => if src s1 = src s2 then matchLoop src (s1 + 1) (s2 + 1) left + 1 else 0

def matchLength (cxt : CompCxt) (s2 : Nat) : Int :=
  CInt.ofInt (matchLoop cxt.src cxt.srcPos s2 (cxt.srcLen - cxt.srcPos))

/-- `cxt->src_pos - diff > MAX_WINDOW`, where the difference is unsigned. -/
def beyondWindow (srcPos ent : Nat) : Bool := srcPos < ent || srcPos - ent > maxWindow

/-- Keep the longer match; of matches of at least 256 bytes, keep the last. -/
def keepLongest (mlen : Int) (ent : Nat) (longest : Int × Option Nat) : Int × Option Nat :=
  if mlen ≠ 0 ∧ (mlen > longest.1 ∨ mlen ≥ 256) then (mlen, some ent) else longest

/-- The loop that follows a chain from `ent`. -/
def followChain (base : Nat) (cxt : CompCxt) :
    Nat → HashCxt → Nat → Int × Option Nat → Except Stop ((Int × Option Nat) × HashCxt)
  | 0, _, _, _ => .error .fuel
  | fuel + 1, hc, ent, longest =>
      let longest := keepLongest (matchLength cxt ent) ent longest
      match hc.prev base ent with
      | none => .ok (longest, hc)
      | some ent2 =>
          if beyondWindow cxt.srcPos ent2 then .ok (longest, hc.setPrev base ent none)
          else followChain base cxt fuel hc ent2 longest

/-- `find_longest_match`: the length, the value of `*pos` (zero where the source
leaves it alone, which is where the length is zero) and the table. -/
def findLongestMatch (base : Nat) (cxt : CompCxt) (hc : HashCxt) (lazy : Bool) :
    Except Stop (Int × Int × HashCxt) :=
  if cxt.srcPos ≥ cxt.srcLen then .ok (0, 0, hc)
  else
    let hash := hashStr cxt.src cxt.srcPos
    let add (hc : HashCxt) : HashCxt :=
      if lazy then hc else hc.addToHash base cxt.srcPos hash
    match hc.hash hash with
    | none => .ok (0, 0, add hc)
    | some ent =>
        if beyondWindow cxt.srcPos ent then .ok (0, 0, add (hc.setEnt hash none))
        else do
          let (longest, hc) ← followChain base cxt (cxt.srcPos + 1) hc ent (0, none)
          match longest with
          | (longest, some longestMatch) =>
              return (longest, CInt.ofInt (CInt.ofInt longestMatch - CInt.ofInt cxt.srcPos),
                add hc)
          | (longest, none) => return (longest, 0, add hc)

/-- `add_intermediates`: the strings at the positions after the current one. -/
def addIntermediates (base : Nat) (cxt : CompCxt) (hc : HashCxt) (len : Nat) : HashCxt :=
  (List.range' 1 (len - 1)).foldl
    (fun hc i => hc.addToHash base (cxt.srcPos + i) (hashStr cxt.src (cxt.srcPos + i))) hc

/-! ## Public functions -/

/-- A literal: its flag and the byte. -/
def putLiteral (cxt : CompCxt) : Except Stop CompCxt := do
  copyLiteral (← setBit cxt 1)

/-- The loop of `prs_archive`. -/
def archiveLoop : Nat → CompCxt → Except Stop CompCxt
  | 0, cxt => .ok cxt
  | srcLen + 1, cxt => do archiveLoop srcLen (← putLiteral cxt)

/-- The context both functions begin with. -/
def compCxt (junk : Nat → UInt8) (src : Nat → UInt8) (srcLen : Nat) : CompCxt :=
  { flags := 0, bitsLeft := 0, src, dst := malloc junk (prsMaxCompressedSize srcLen),
    flagPtr := 0, srcLen, dstLen := prsMaxCompressedSize srcLen, srcPos := 0, dstPos := 0 }

/-- The return value and the block `*dst`. -/
def prsArchive (junk : Nat → UInt8) (src : Nat → UInt8) (srcLen : Nat) :
    Except Stop (Int × List UInt8) :=
  if srcLen = 0 then .error (.ret (-EINVAL))
  else do
    let cxt ← archiveLoop srcLen (compCxt junk src srcLen)
    let cxt ← writeEof cxt
    return (CInt.ofInt cxt.dstPos, cxt.dst)

/-- The test that jumps to `blergh` and keeps a short match, although the lazy
match is longer. -/
def keepsShort (mlen offset mlen2 offset2 : Int) : Bool :=
  mlen ≥ 2 && mlen ≤ 5 && offset2 < offset && offset ≥ -256 && offset2 < -256 &&
    mlen2 - mlen < 3

/-- `((offset & 0x1f) << 3) | (size & 0x07)` stored in a byte. -/
def fieldLow (offset size : Int) : UInt8 :=
  ⟨((BitVec.ofInt 32 offset &&& 0x1f) <<< 3 ||| (BitVec.ofInt 32 size &&& 0x07)).setWidth 8⟩

/-- `offset >> 5` stored in a byte. -/
def fieldHigh (offset : Int) : UInt8 := ⟨((BitVec.ofInt 32 offset).sshiftRight 5).setWidth 8⟩

def putShortMatch (cxt : CompCxt) (mlen offset : Int) : Except Stop CompCxt := do
  let cxt ← setBit cxt 0
  let cxt ← setBit cxt 0
  let cxt ← setBit cxt ((mlen - 2).toNat &&& 0x02)
  let cxt ← setBit cxt ((mlen - 2).toNat &&& 0x01)
  writeLiteral cxt (UInt8.ofInt offset)

def putLongMatch (cxt : CompCxt) (mlen offset : Int) : Except Stop CompCxt := do
  let cxt ← setBit cxt 0
  let cxt ← setBit cxt 1
  let cxt ← writeLiteral cxt (fieldLow offset (mlen - 2))
  writeLiteral cxt (fieldHigh offset)

def putSizedMatch (cxt : CompCxt) (mlen offset : Int) : Except Stop CompCxt := do
  let cxt ← setBit cxt 0
  let cxt ← setBit cxt 1
  let cxt ← writeLiteral cxt (fieldLow offset 0)
  let cxt ← writeLiteral cxt (fieldHigh offset)
  writeLiteral cxt (UInt8.ofInt (mlen - 1))

/-- After a match has been written, its strings are added and it is skipped. -/
def skipMatch (base : Nat) (cxt : CompCxt) (hc : HashCxt) (mlen : Int) : CompCxt × HashCxt :=
  ({ cxt with srcPos := cxt.srcPos + mlen.toNat }, addIntermediates base cxt hc mlen.toNat)

/-- The part of the loop from `blergh`: a match in the best shape it fits, or a
literal if it fits none. -/
def putMatch (base : Nat) (cxt : CompCxt) (hc : HashCxt) (mlen offset : Int) :
    Except Stop (CompCxt × HashCxt) :=
  if mlen ≥ 2 ∧ mlen ≤ 5 ∧ offset ≥ -256 then do
    return skipMatch base (← putShortMatch cxt mlen offset) hc mlen
  else if mlen ≥ 3 ∧ mlen ≤ 9 then do
    return skipMatch base (← putLongMatch cxt mlen offset) hc mlen
  else if mlen > 9 then do
    let mlen := if mlen > 256 then 256 else mlen
    return skipMatch base (← putSizedMatch cxt mlen offset) hc mlen
  else do
    return (← putLiteral cxt, hc)

/-- One pass of the loop of `prs_compress`. -/
def compressPass (base : Nat) (cxt : CompCxt) (hc : HashCxt) :
    Except Stop (CompCxt × HashCxt) := do
  let (mlen, offset, hc) ← findLongestMatch base cxt hc false
  if mlen ≠ 0 then do
    let (mlen2, offset2, hc) ←
      findLongestMatch base { cxt with srcPos := cxt.srcPos + 1 } hc true
    if mlen2 > mlen ∧ ¬ keepsShort mlen offset mlen2 offset2 then do
      return (← putLiteral cxt, hc)
    else putMatch base cxt hc mlen offset
  else do
    return (← putLiteral cxt, hc)

/-- The loop of `prs_compress`. -/
def compressLoop (base : Nat) : Nat → CompCxt → HashCxt → Except Stop CompCxt
  | 0, _, _ => .error .fuel
  | fuel + 1, cxt, hc =>
      if cxt.srcPos < cxt.srcLen - 1 then do
        let (cxt, hc) ← compressPass base cxt hc
        compressLoop base fuel cxt hc
      else .ok cxt

/-- The left over byte at the end. -/
def putLeftOver (cxt : CompCxt) : Except Stop CompCxt :=
  if cxt.srcPos < cxt.srcLen then putLiteral cxt else .ok cxt

/-- The return value and the block `*dst`, resized to the length of the output. -/
def prsCompress (junk : Nat → UInt8) (base : Nat) (src : Nat → UInt8) (srcLen : Nat) :
    Except Stop (Int × List UInt8) :=
  if srcLen = 0 then .error (.ret (-EINVAL))
  else if srcLen ≤ 3 then prsArchive junk src srcLen
  else do
    let hc := (HashCxt.empty.addToHash base 0 (hashStr src 0)).addToHash base 1 (hashStr src 1)
    let cxt ← putLiteral (compCxt junk src srcLen)
    let cxt ← putLiteral cxt
    let cxt ← compressLoop base srcLen cxt hc
    let cxt ← putLeftOver cxt
    let cxt ← writeEof cxt
    return (CInt.ofInt cxt.dstPos, cxt.dst.take cxt.dstPos)

end Sylverant.Prs
