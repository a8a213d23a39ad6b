/-
# Quests in one file

A .qst file holds the packets that send a quest to a client: the headers of its two files,
and then the chunks of both. The server looks up how long the .dat file is, and copies its
chunks to a buffer of that size. An access outside a buffer has no result, and then the
outcome says so.
-/

import Mathlib.Data.Nat.Digits.Defs
import Sylverant.Library.Bounded
import Sylverant.Library.Loop
import Sylverant.Ship.Version

namespace Sylverant.Ship.QuestFiles

open Bounded (Buf)

variable {sz dsz : Nat}

/-! ## Strings and numbers in a file -/

/-- The number that bytes stand for, lowest first. -/
def littleEndian (bytes : List UInt8) : Nat := Nat.ofDigits 256 (bytes.map UInt8.toNat)

/-- A number in the file. -/
def number (buf : Buf UInt8 sz) (pos size : Nat) : Option Nat :=
  (Bounded.read buf pos size).map littleEndian

/-- `strncpy`, with a zero put behind what it may copy. -/
def strncpy (buf : Buf UInt8 sz) (pos : Nat) : Nat → Option (List UInt8)
  | 0 => some []
  | n + 1 =>
      match Bounded.load buf pos with
      | none => none
      | some c => if c = 0 then some [] else (strncpy buf (pos + 1) n).map (c :: ·)

/-- `strrchr`, with what stands there. -/
def strrchr (c : UInt8) : List UInt8 → Option (List UInt8)
  | [] => none
  | b :: s =>
      match strrchr c s with
      | some last => some last
      | none => if b = c then some (b :: s) else none

/-- `'.'` -/
def dot : UInt8 := 46

/-- `".dat"` -/
def dotDat : List UInt8 := [46, 100, 97, 116]

/-! ## Packets -/

/-- Where a version has what is read of a `*_quest_file_pkt`, and the packet's size. -/
structure FileLayout where
  nameAt : Nat
  lengthAt : Nat
  size : Nat
  name_le : nameAt + 16 ≤ lengthAt + 4
  length_le : lengthAt + 4 ≤ size
  size_le : size ≤ 120

/-- `dc_quest_file_pkt` -/
def dcFile : FileLayout := ⟨39, 56, 0x3C, by decide, by decide, by decide⟩

/-- `pc_quest_file_pkt`, and `gc_quest_file_pkt` too. -/
def pcFile : FileLayout := ⟨40, 56, 0x3C, by decide, by decide, by decide⟩

/-- `bb_quest_file_pkt` -/
def bbFile : FileLayout := ⟨44, 60, 0x58, by decide, by decide, by decide⟩

/-- Where a version has what is read of a `*_quest_chunk_pkt`, the length that the packet should
have, where the first chunk of a file is, and how far apart the chunks are. -/
structure ChunkLayout where
  typeAt : Nat
  typeSize : Nat
  lenAt : Nat
  pktLen : Nat
  nameAt : Nat
  dataAt : Nat
  lengthAt : Nat
  stride : Nat
  first : Nat
  type_le : typeAt + typeSize ≤ lengthAt + 4
  len_le : lenAt + 2 ≤ lengthAt + 4
  name_le : nameAt + 16 ≤ lengthAt + 4
  data_le : dataAt + 1024 ≤ lengthAt + 4
  chunk_le : lengthAt + 4 ≤ stride
  moves : 1024 ≤ stride
  first_lt : first < 2 ^ 32
  noWrap : ∀ k, first + k * stride + lengthAt + 4 < 2 ^ 32 → first + k * stride + stride < 2 ^ 32

/-- `dc_quest_chunk_pkt` with the header of the Dreamcast. -/
def dcChunk : ChunkLayout where
  typeAt := 0
  typeSize := 1
  lenAt := 2
  pktLen := 0x0418
  nameAt := 4
  dataAt := 20
  lengthAt := 1044
  stride := 0x0418
  first := 120
  type_le := by decide
  len_le := by decide
  name_le := by decide
  data_le := by decide
  chunk_le := by decide
  moves := by decide
  first_lt := by decide
  noWrap := by omega

/-- `dc_quest_chunk_pkt` with the header of the PC. -/
def pcChunk : ChunkLayout := { dcChunk with
  typeAt := 2
  lenAt := 0
  type_le := by decide
  len_le := by decide }

/-- `bb_quest_chunk_pkt` -/
def bbChunk : ChunkLayout where
  typeAt := 2
  typeSize := 2
  lenAt := 0
  pktLen := 0x041C
  nameAt := 8
  dataAt := 24
  lengthAt := 1048
  stride := 0x0420
  first := 176
  type_le := by decide
  len_le := by decide
  name_le := by decide
  data_le := by decide
  chunk_le := by decide
  moves := by decide
  first_lt := by decide
  noWrap := by omega

/-- `QUEST_CHUNK_TYPE` -/
def questChunkType : Nat := 0x13

/-! ## How long the .dat file is -/

/-- The name in the header of a file, and the length if it is the .dat file. -/
def datLength (F : FileLayout) (buf : Buf UInt8 sz) (hdr : Nat) : Option (Option Nat) :=
  match strncpy buf (hdr + F.nameAt) 16 with
  | none => none
  | some fn =>
      if strrchr dot fn = some dotDat then (number buf (hdr + F.lengthAt) 4).map some
      else some none

/-- The first header, and then the second one. -/
def eitherLength (F : FileLayout) (buf : Buf UInt8 sz) : Option Nat :=
  match datLength F buf 0 with
  | none => none
  | some (some length) => some length
  | some none => (datLength F buf F.size).map fun length => length.getD 0

/-- `qst_dat_size` -/
def qstDatSize (buf : Buf UInt8 sz) : Version → Option Nat
  | .dcv1 | .dcv2 => eitherLength dcFile buf
  | .gc | .pc => eitherLength pcFile buf
  | .bb => eitherLength bbFile buf
  | .ep3 => some 0

/-! ## Copying its chunks -/

/-- What becomes of a file. -/
inductive Outcome
  | outside
  | rejected
  | data (dat : List UInt8)
  deriving DecidableEq

/-- The variables of the loop. -/
structure Walk (dsz : Nat) where
  ptr : Nat
  optr : Nat
  rbuf : Buf UInt8 dsz

/-- Check the chunk for validity. -/
def validHeader (L : ChunkLayout) (buf : Buf UInt8 sz) (ck : Nat) : Option Bool :=
  match number buf (ck + L.typeAt) L.typeSize with
  | none => none
  | some type =>
      if type ≠ questChunkType then some false
      else (number buf (ck + L.lenAt) 2).map fun len => decide (len = L.pktLen)

/-- The name and the length in the chunk. -/
def vitals (L : ChunkLayout) (buf : Buf UInt8 sz) (ck : Nat) : Option (List UInt8 × Nat) :=
  match strncpy buf (ck + L.nameAt) 16 with
  | none => none
  | some fn => (number buf (ck + L.lengthAt) 4).map fun clen => (fn, clen)

/-- Copy a part of the .dat file. -/
def copyChunk (L : ChunkLayout) (buf : Buf UInt8 sz) (s : Walk dsz) (clen : Nat) :
    Except Outcome (Walk dsz) :=
  if dsz < (s.optr + clen) % 2 ^ 32 then .error .rejected
  else
    match (Bounded.read buf (s.ptr + L.dataAt) clen).bind (Bounded.write s.rbuf s.optr) with
    | none => .error .outside
    | some rbuf =>
        .ok { ptr := (s.ptr + L.stride) % 2 ^ 32, optr := (s.optr + clen) % 2 ^ 32, rbuf }

/-- One round of the loop, with what is done behind the loop when it is over. -/
def round (L : ChunkLayout) (buf : Buf UInt8 sz) (s : Walk dsz) : Except Outcome (Walk dsz) :=
  if s.ptr < sz then
    match validHeader L buf s.ptr with
    | none => .error .outside
    | some false => .error .rejected
    | some true =>
        match vitals L buf s.ptr with
        | none => .error .outside
        | some (fn, clen) =>
            match strrchr dot fn with
            | none => .error .rejected
            | some cptr =>
                if 1024 < clen then .error .rejected
                else if cptr = dotDat then copyChunk L buf s clen
                else .ok { s with ptr := (s.ptr + L.stride) % 2 ^ 32 }
  else if s.optr ≠ dsz then .error .rejected
  else .error (.data s.rbuf.val)

/-- What the three functions do. -/
def copyQstDat (L : ChunkLayout) (buf : Buf UInt8 sz) (rbuf : Buf UInt8 dsz) (rounds : Nat) :
    Option Outcome :=
  Loop.stops (round L buf) rounds ⟨L.first, 0, rbuf⟩

/-- `copy_dc_qst_dat` -/
def copyDcQstDat (buf : Buf UInt8 sz) (rbuf : Buf UInt8 dsz) (rounds : Nat) : Option Outcome :=
  copyQstDat dcChunk buf rbuf rounds

/-- `copy_pc_qst_dat` -/
def copyPcQstDat (buf : Buf UInt8 sz) (rbuf : Buf UInt8 dsz) (rounds : Nat) : Option Outcome :=
  copyQstDat pcChunk buf rbuf rounds

/-- `copy_bb_qst_dat` -/
def copyBbQstDat (buf : Buf UInt8 sz) (rbuf : Buf UInt8 dsz) (rounds : Nat) : Option Outcome :=
  copyQstDat bbChunk buf rbuf rounds

/-- `read_and_dec_qst`, up to what it passes to `decompress_dat`. The function says what is in
the memory that `malloc` gives. -/
def readAndDecQst (malloc : (n : Nat) → Buf UInt8 n) (buf : Buf UInt8 sz) (ver : Version)
    (rounds : Nat) : Option Outcome :=
  if sz < 120 then some .rejected
  else
    match qstDatSize buf ver with
    | none => some .outside
    | some dsz =>
        if dsz = 0 then some .rejected
        else
          match ver with
          | .dcv1 | .dcv2 | .gc => copyDcQstDat buf (malloc dsz) rounds
          | .pc => copyPcQstDat buf (malloc dsz) rounds
          | .bb => copyBbQstDat buf (malloc dsz) rounds
          | .ep3 => some .rejected

end Sylverant.Ship.QuestFiles
