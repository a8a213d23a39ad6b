/-
# The PRS decoder

`doDecompress` is the one decoding loop. It reaches the compressed data and the
output only through five callbacks, and the four public functions differ in the
callbacks they install: a growing buffer, a fixed buffer, no buffer at all, and
a `FILE` with a growing buffer. A callback that returns a negative value ends
the loop with that value, so a callback here either stops or yields the value it
read.

The context keeps the pointers of the source as offsets into the blocks they
point into; an access outside its block is a fault. Lengths are unbounded: they
are sizes of objects in memory, far below the wrap of `size_t`. The pointers
given to the public functions are not `NULL` and allocation succeeds.
-/

import Sylverant.Library.CInt
import Sylverant.Library.Simulation
import Sylverant.Prs.Outcome

namespace Sylverant.Prs

/-- `struct prs_dec_cxt` together with the blocks its pointers lead to. -/
structure DecCxt where
  flags : UInt8
  bitPos : Nat
  /-- The pointer `src`, as an offset into `srcBlock`. -/
  src : Nat
  /-- The pointer `dst`, as an offset into `dstBlock`. -/
  dst : Nat
  /-- The position of the `FILE` in `udata`. -/
  filePos : Nat
  srcLen : Nat
  dstLen : Nat
  srcPos : Nat
  dstPos : Nat
  srcBlock : List UInt8
  dstBlock : List UInt8
  /-- The contents of the `FILE` in `udata`. -/
  file : List UInt8

/-- The callbacks of a context, and the counter the loop reads itself. -/
structure Callbacks (σ : Type) where
  copyByte : EStateM Stop σ Unit
  offsetCopy : Int → EStateM Stop σ Unit
  fetchBit : EStateM Stop σ Nat
  fetchByte : EStateM Stop σ Nat
  fetchShort : EStateM Stop σ Nat
  dstPos : σ → Nat

/-- `offset |= mask` on an `int32_t`. -/
def signExtend (offset : Nat) (mask : BitVec 32) : Int :=
  (BitVec.ofNat 32 offset ||| mask).toInt

section Loop

variable {σ : Type} (cb : Callbacks σ)

/-- `while(size--)` around the copy callback. -/
def copyLoop (offset : Int) : Nat → EStateM Stop σ Unit
  | 0 => pure ()
  | size + 1 => do
      cb.offsetCopy offset
      copyLoop offset size

/-- The part of a pass that starts with the bits `01`: a long copy, or the end of
the data, where the pass returns the size. -/
def longCopy : EStateM Stop σ (Option Int) := do
  let field ← cb.fetchShort
  if field = 0 then do
    let cxt ← get
    return some (CInt.ofInt (cb.dstPos cxt))
  else if field &&& 0x0007 = 0 then do
    let size ← cb.fetchByte
    copyLoop cb (signExtend (field >>> 3) 0xFFFFE000) (size + 1)
    return none
  else do
    copyLoop cb (signExtend (field >>> 3) 0xFFFFE000) ((field &&& 0x0007) + 2)
    return none

/-- The part of a pass that starts with the bits `00`. -/
def shortCopy : EStateM Stop σ (Option Int) := do
  let flag ← cb.fetchBit
  let size ← cb.fetchBit
  let offset ← cb.fetchByte
  copyLoop cb (signExtend offset 0xFFFFFF00) ((size ||| flag <<< 1) + 2)
  return none

/-- One pass of the `for(;;)` loop; it yields a value where the loop returns. -/
def decompressPass : EStateM Stop σ (Option Int) := do
  let flag ← cb.fetchBit
  if flag ≠ 0 then do
    cb.copyByte
    return none
  else do
    let flag ← cb.fetchBit
    if flag ≠ 0 then longCopy cb else shortCopy cb

/-- `do_decompress`, for at most `fuel` passes. -/
def doDecompress : Nat → EStateM Stop σ Int
  | 0 => throw .fuel
  | fuel + 1 => do
      match ← decompressPass cb with
      | some rv => return rv
      | none => doDecompress fuel

end Loop

/-! ## Memory -/

/-- Read the byte of the source block that `src` points to. -/
def loadSrc (cxt : DecCxt) (i : Nat) : EStateM Stop DecCxt UInt8 :=
  match cxt.srcBlock[i]? with
  | some b => pure b
  | none => throw .fault

/-- Read a byte of the destination block. -/
def loadDst (cxt : DecCxt) (i : Int) : EStateM Stop DecCxt UInt8 :=
  if i < 0 then throw .fault
  else
    match cxt.dstBlock[i.toNat]? with
    | some b => pure b
    | none => throw .fault

/-- Write a byte of the destination block. -/
def storeDst (i : Nat) (b : UInt8) : EStateM Stop DecCxt Unit := do
  let cxt ← get
  if i < cxt.dstBlock.length then set { cxt with dstBlock := cxt.dstBlock.set i b }
  else throw .fault

/-- `fgetc`: the next byte of the file, or `EOF`. -/
def fgetc : EStateM Stop DecCxt (Option UInt8) := do
  let cxt ← get
  match cxt.file[cxt.filePos]? with
  | some b => do
      set { cxt with filePos := cxt.filePos + 1 }
      return some b
  | none => return none

/-- Double the destination buffer when it is full. -/
def growDst (junk : Nat → UInt8) : EStateM Stop DecCxt Unit := do
  let cxt ← get
  if cxt.dstPos ≥ cxt.dstLen then
    set { cxt with
      dstBlock := realloc junk cxt.dstBlock (cxt.dstLen * 2), dstLen := cxt.dstLen * 2 }
  else pure ()

/-! ## Callbacks on memory -/

/-- Fetch the bit and shift it off the end of the byte. -/
def shiftBit : EStateM Stop DecCxt Nat := do
  let cxt ← get
  set { cxt with flags := cxt.flags >>> 1, bitPos := cxt.bitPos - 1 }
  return (cxt.flags &&& 1).toNat

def fetchBit : EStateM Stop DecCxt Nat := do
  let cxt ← get
  if cxt.bitPos = 0 then
    if cxt.srcPos ≥ cxt.srcLen then throw (.ret (-EBADMSG))
    else do
      let flags ← loadSrc cxt cxt.src
      set { cxt with flags, src := cxt.src + 1, srcPos := cxt.srcPos + 1, bitPos := 8 }
      shiftBit
  else shiftBit

def copyByte : EStateM Stop DecCxt Unit := do
  let cxt ← get
  if cxt.srcPos ≥ cxt.srcLen then throw (.ret (-EBADMSG))
  else if cxt.dstPos ≥ cxt.dstLen then throw (.ret (-ENOSPC))
  else do
    storeDst cxt.dst (← loadSrc cxt cxt.src)
    modify fun cxt => { cxt with
      dst := cxt.dst + 1, src := cxt.src + 1, srcPos := cxt.srcPos + 1, dstPos := cxt.dstPos + 1 }

def fetchByte : EStateM Stop DecCxt Nat := do
  let cxt ← get
  if cxt.srcPos ≥ cxt.srcLen then throw (.ret (-EBADMSG))
  else do
    let rv ← loadSrc cxt cxt.src
    set { cxt with src := cxt.src + 1, srcPos := cxt.srcPos + 1 }
    return rv.toNat

def fetchShort : EStateM Stop DecCxt Nat := do
  let cxt ← get
  if cxt.srcPos + 1 ≥ cxt.srcLen then throw (.ret (-EBADMSG))
  else do
    let low ← loadSrc cxt cxt.src
    let high ← loadSrc cxt (cxt.src + 1)
    set { cxt with src := cxt.src + 2, srcPos := cxt.srcPos + 2 }
    return low.toNat ||| high.toNat <<< 8

/-- The source pointer of the copy is taken before `dst` moves on. -/
def offsetCopy (offset : Int) : EStateM Stop DecCxt Unit := do
  let cxt ← get
  if CInt.ofInt (CInt.ofInt cxt.dstPos + offset) < 0 then throw (.ret (-EBADMSG))
  else if cxt.dstPos ≥ cxt.dstLen then throw (.ret (-ENOSPC))
  else do
    storeDst cxt.dst (← loadDst cxt (cxt.dst + offset))
    modify fun cxt => { cxt with dst := cxt.dst + 1, dstPos := cxt.dstPos + 1 }

def nocopyByte : EStateM Stop DecCxt Unit := do
  let cxt ← get
  if cxt.srcPos ≥ cxt.srcLen then throw (.ret (-EBADMSG))
  else set { cxt with
    src := cxt.src + 1, srcPos := cxt.srcPos + 1, dstPos := cxt.dstPos + 1 }

def offsetNocopy (offset : Int) : EStateM Stop DecCxt Unit := do
  let cxt ← get
  if CInt.ofInt (CInt.ofInt cxt.dstPos + offset) < 0 then throw (.ret (-EBADMSG))
  else set { cxt with dstPos := cxt.dstPos + 1 }

def copyAbyte (junk : Nat → UInt8) : EStateM Stop DecCxt Unit := do
  let cxt ← get
  if cxt.srcPos ≥ cxt.srcLen then throw (.ret (-EBADMSG))
  else do
    growDst junk
    storeDst (cxt.dst + cxt.dstPos) (← loadSrc cxt cxt.src)
    modify fun cxt => { cxt with
      src := cxt.src + 1, srcPos := cxt.srcPos + 1, dstPos := cxt.dstPos + 1 }

def offsetCopyAlloc (junk : Nat → UInt8) (offset : Int) : EStateM Stop DecCxt Unit := do
  let cxt ← get
  if CInt.ofInt (CInt.ofInt cxt.dstPos + offset) < 0 then throw (.ret (-EBADMSG))
  else do
    growDst junk
    storeDst (cxt.dst + cxt.dstPos) (← loadDst (← get) (cxt.dst + cxt.dstPos + offset))
    modify fun cxt => { cxt with dstPos := cxt.dstPos + 1 }

/-! ## Callbacks on a file

Reads of the file succeed, so `EOF` is the end of the file and never an error. -/

def fileBit : EStateM Stop DecCxt Nat := do
  let cxt ← get
  if cxt.bitPos = 0 then
    if cxt.srcPos ≥ cxt.srcLen then throw (.ret (-EBADMSG))
    else do
      match ← fgetc with
      | none => throw (.ret (-EBADMSG))
      | some rv => do
          modify fun cxt => { cxt with flags := rv, srcPos := cxt.srcPos + 1, bitPos := 8 }
          shiftBit
  else shiftBit

def copyFbyte (junk : Nat → UInt8) : EStateM Stop DecCxt Unit := do
  let cxt ← get
  if cxt.srcPos ≥ cxt.srcLen then throw (.ret (-EBADMSG))
  else do
    growDst junk
    match ← fgetc with
    | none => throw (.ret (-EBADMSG))
    | some b => do
        storeDst (cxt.dst + cxt.dstPos) b
        modify fun cxt => { cxt with srcPos := cxt.srcPos + 1, dstPos := cxt.dstPos + 1 }

def fileByte : EStateM Stop DecCxt Nat := do
  let cxt ← get
  if cxt.srcPos ≥ cxt.srcLen then throw (.ret (-EBADMSG))
  else do
    match ← fgetc with
    | none => throw (.ret (-EBADMSG))
    | some rv => do
        modify fun cxt => { cxt with srcPos := cxt.srcPos + 1 }
        return rv.toNat

/-- A short `fread` returns `-errno`, which the read itself does not set; the
model counts it as a fault. -/
def fileShort : EStateM Stop DecCxt Nat := do
  let cxt ← get
  if cxt.srcPos + 1 ≥ cxt.srcLen then throw (.ret (-EBADMSG))
  else do
    match ← fgetc, ← fgetc with
    | some low, some high => do
        modify fun cxt => { cxt with srcPos := cxt.srcPos + 2 }
        return low.toNat ||| high.toNat <<< 8
    | _, _ => throw .fault

/-! ## Public functions -/

def bufCallbacks (junk : Nat → UInt8) : Callbacks DecCxt :=
  { copyByte := copyAbyte junk, offsetCopy := offsetCopyAlloc junk, fetchBit := fetchBit,
    fetchByte := fetchByte, fetchShort := fetchShort, dstPos := DecCxt.dstPos }

def buf2Callbacks : Callbacks DecCxt :=
  { copyByte := copyByte, offsetCopy := offsetCopy, fetchBit := fetchBit,
    fetchByte := fetchByte, fetchShort := fetchShort, dstPos := DecCxt.dstPos }

def sizeCallbacks : Callbacks DecCxt :=
  { copyByte := nocopyByte, offsetCopy := offsetNocopy, fetchBit := fetchBit,
    fetchByte := fetchByte, fetchShort := fetchShort, dstPos := DecCxt.dstPos }

def fileCallbacks (junk : Nat → UInt8) : Callbacks DecCxt :=
  { copyByte := copyFbyte junk, offsetCopy := offsetCopyAlloc junk, fetchBit := fileBit,
    fetchByte := fileByte, fetchShort := fileShort, dstPos := DecCxt.dstPos }

/-- A context over a source in memory. -/
def memCxt (src dst : List UInt8) (dstLen : Nat) : DecCxt :=
  { flags := 0, bitPos := 0, src := 0, dst := 0, filePos := 0, srcLen := src.length, dstLen,
    srcPos := 0, dstPos := 0, srcBlock := src, dstBlock := dst, file := [] }

/-- A context over a source in a file. -/
def fileCxt (file dst : List UInt8) (dstLen : Nat) : DecCxt :=
  { flags := 0, bitPos := 0, src := 0, dst := 0, filePos := 0, srcLen := file.length, dstLen,
    srcPos := 0, dstPos := 0, srcBlock := [], dstBlock := dst, file }

/-- Every pass but the last reads a bit, so this many passes are enough. -/
def passes (src : List UInt8) : Nat := 8 * src.length + 1

/-- The return value and the buffer `*dst`, resized to that many bytes. -/
def returnBuffer : EStateM.Result Stop DecCxt Int → Except Stop (Int × List UInt8)
  | .ok rv cxt => if rv < 0 then .error (.ret rv) else .ok (rv, cxt.dstBlock.take rv.toNat)
  | .error stop _ => .error stop

/-- The run of the decoding loop inside `prs_decompress_buf`. -/
def decompressBufRun (junk : Nat → UInt8) (src : List UInt8) :
    EStateM.Result Stop DecCxt Int :=
  doDecompress (bufCallbacks junk) (passes src)
    (memCxt src (malloc junk (src.length * 2)) (src.length * 2))

def prsDecompressBuf (junk : Nat → UInt8) (src : List UInt8) :
    Except Stop (Int × List UInt8) :=
  if src.length = 0 then .error (.ret (-EINVAL))
  else if src.length < 3 then .error (.ret (-EBADMSG))
  else returnBuffer (decompressBufRun junk src)

/-- The result and the caller's block afterwards. The block has `dst_len` bytes. -/
def prsDecompressBuf2 (src dst : List UInt8) : Except Stop Int × List UInt8 :=
  if src.length = 0 ∨ dst.length = 0 then (.error (.ret (-EINVAL)), dst)
  else if src.length < 3 then (.error (.ret (-EBADMSG)), dst)
  else
    match doDecompress buf2Callbacks (passes src) (memCxt src dst dst.length) with
    | .ok rv cxt => (.ok rv, cxt.dstBlock)
    | .error stop cxt => (.error stop, cxt.dstBlock)

/-- `SIZE_MAX`. -/
def sizeMax : Nat := 2 ^ 64 - 1

def prsDecompressSize (src : List UInt8) : Except Stop Int :=
  if src.length = 0 then .error (.ret (-EINVAL))
  else if src.length < 3 then .error (.ret (-EBADMSG))
  else
    match doDecompress sizeCallbacks (passes src) (memCxt src [] sizeMax) with
    | .ok rv _ => .ok rv
    | .error stop _ => .error stop

/-- The file is the one named by `fn`; opening and measuring it succeed. -/
def prsDecompressFile (junk : Nat → UInt8) (file : List UInt8) :
    Except Stop (Int × List UInt8) :=
  if file.length < 3 then .error (.ret (-EBADMSG))
  else
    returnBuffer (doDecompress (fileCallbacks junk) (passes file)
      (fileCxt file (malloc junk (file.length * 2)) (file.length * 2)))

end Sylverant.Prs
