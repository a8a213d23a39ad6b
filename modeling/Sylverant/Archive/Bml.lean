/-
# BML archives

A BML archive starts with a block of 64 bytes that holds the number of files, and a record of
64 bytes for each of them: its name and the sizes of its data, compressed and not, and of the
data of a texture archive (PVM) that may be attached to it. Where the data is does not
stand in the file. It is behind the table, one piece after the other, and the reader rounds the
position up to a multiple of 32 after each piece. The definitions follow `bmltool.c`. The names
on the command line are given without the zero that ends them.
-/

import Sylverant.Archive.Files
import Sylverant.Prs.Comp
import Sylverant.Prs.Decomp

namespace Sylverant.Archive.Bml

open RandomAccess (Image Stream)
open Prs (Stop prsCompress prsDecompressBuf2 malloc)

/-- `bml_entry_t`. -/
structure BmlEntry where
  filename : List UInt8
  csize : Nat
  unk : Nat
  usize : Nat
  pvmCsize : Nat
  pvmUsize : Nat
  padding : List UInt8

namespace BmlEntry

/-- The 64 bytes of an entry. -/
def bytes (ent : BmlEntry) : List UInt8 :=
  ent.filename ++ le32 ent.csize ++ le32 ent.unk ++ le32 ent.usize ++ le32 ent.pvmCsize ++
    le32 ent.pvmUsize ++ ent.padding

/-- The entry in a buffer of 64 bytes. -/
def ofBytes (buf : List UInt8) : BmlEntry where
  filename := buf.take 32
  csize := ofLe32 ((buf.drop 32).take 4)
  unk := ofLe32 ((buf.drop 36).take 4)
  usize := ofLe32 ((buf.drop 40).take 4)
  pvmCsize := ofLe32 ((buf.drop 44).take 4)
  pvmUsize := ofLe32 ((buf.drop 48).take 4)
  padding := buf.drop 52

/-- The name as a string. -/
def name (ent : BmlEntry) : List UInt8 := ent.filename.takeWhile (· ≠ 0)

end BmlEntry

/-! ## Scanning -/

/-- Round a position up in 32 bits, if it is not a multiple already. -/
def roundUp (low step high x : Nat) : Nat :=
  if x &&& low ≠ 0 then (x + step) % 2 ^ 32 &&& high else x

/-- The length of the header for a number of entries, `hdrlen` in `update_bml`. -/
def hdrlen (entries : Nat) : Nat := roundUp 0x7FF 0x800 0xFFFFF800 ((entries + 1) * 64 % 2 ^ 32)

/-- The position behind a piece of data. -/
def nextOffset (offset size : Nat) : Nat :=
  roundUp 0x1F 0x20 0xFFFFFFE0 ((offset + size) % 2 ^ 32)

/-- `open_bml`: the number of entries, and the file at the first of them. -/
def openBml (f : Image) : Option (Nat × Stream) :=
  let (buf, fp) := (Stream.mk f 0).get 12
  if buf.length ≠ 12 then none
  else if buf.take 4 ≠ [0, 0, 0, 0] ∨ buf.drop 8 ≠ [0x50, 0x01, 0, 0] then none
  else some (ofLe32 ((buf.drop 4).take 4), fp.seek 64)

/-- What `scan_bml` calls for each entry: with the archive, the entry, its index, and the
positions of the data and of the PVM. A value other than zero, which is always negative, ends the
scan. -/
abbrev Callback (σ : Type) := Stream → BmlEntry → Nat → Nat → Nat → σ → Except Int σ

/-- The loop of `scan_bml`, with the number of entries that are left. -/
def scanLoop {σ : Type} (p : Callback σ) : Nat → Nat → Nat → Stream → σ → Except Int σ
  | 0, _, _, _, userdata => .ok userdata
  | left + 1, i, offset, fp, userdata =>
      let (buf, fp) := fp.get 64
      if buf.length ≠ 64 then .error (-2)
      else
        let ent := BmlEntry.ofBytes buf
        let poffset := nextOffset offset ent.csize
        let next := fp.pos
        let eoffset := if ent.pvmCsize ≠ 0 then nextOffset poffset ent.pvmCsize else poffset
        match p fp ent i offset poffset userdata with
        | .error rv => .error rv
        | .ok userdata => scanLoop p left (i + 1) eoffset (fp.seek next) userdata

/-- `scan_bml`. -/
def scanBml {σ : Type} (f : Image) (p : Callback σ) (userdata : σ) : Except Int σ :=
  match openBml f with
  | none => .error (-1)
  | some (entries, fp) => scanLoop p entries 0 (hdrlen entries) fp userdata

/-- A line of the listing, with a second one when there is a PVM. -/
structure Line where
  i : Nat
  filename : List UInt8
  csize : Nat
  usize : Nat
  unk : Nat
  offset : Nat
  pvm : Option (Nat × Nat × Nat)

/-- `print_file_info`. -/
def printFileInfo : Callback (List Line) := fun _ ent i offset poffset d =>
  .ok (d ++ [⟨i, ent.name, ent.csize, ent.usize, ent.unk, offset,
    if ent.pvmCsize ≠ 0 then some (ent.pvmCsize, ent.pvmUsize, poffset) else none⟩])

/-- The option `-t`. -/
def listBml (f : Image) : Except Int (List Line) := scanBml f printFileInfo []

/-! ## Extracting

A tool that extracts writes files. They are kept in the order in which they are written, so that
a name that is written to twice is there twice. -/

/-- `.prs`. -/
def prsSuffix : List UInt8 := [0x2E, 0x70, 0x72, 0x73]

/-- `.pvm`. -/
def pvmSuffix : List UInt8 := [0x2E, 0x70, 0x76, 0x6D]

/-- The files that are written, each with its name. -/
abbrev Written := List (List UInt8 × Image)

/-- `extract_file`. The PVM is copied with the size of the file it is attached to. -/
def extractFile (only : Option (List UInt8)) : Callback Written :=
  fun fp ent _ offset poffset d =>
    if only.any (· ≠ ent.name) then .ok d
    else
      match copyFile ⟨Image.empty, 0⟩ (fp.seek offset) ent.csize with
      | .error _ => .error (-3)
      | .ok (ofp, _) =>
          let d := d ++ [(ent.name ++ prsSuffix, ofp.image)]
          if ent.pvmCsize ≠ 0 then
            match copyFile ⟨Image.empty, 0⟩ (fp.seek poffset) ent.csize with
            | .error _ => .error (-6)
            | .ok (ofp, _) => .ok (d ++ [(ent.name ++ pvmSuffix ++ prsSuffix, ofp.image)])
          else .ok d

/-- The options `-x` and `-xs`. -/
def extractBml (only : Option (List UInt8)) (f : Image) : Except Int Written :=
  scanBml f (extractFile only) []

/-- The `int` that a function returns, unless it faults. -/
def returned : Except Stop Int → Option Int
  | .ok rv => some rv
  | .error (.ret rv) => some rv
  | .error _ => none

/-- `read_and_dec`, with what the new block happens to hold. The value that is returned is
compared with the size as a number of 32 bits. -/
def readAndDec (junk : Nat → UInt8) (fp : Stream) (offset cs ds : Nat) : Except Int Image :=
  let (comp, _) := (fp.seek offset).get cs
  if comp.length ≠ cs then .error (-4)
  else
    let (rv, decomp) := prsDecompressBuf2 comp (malloc junk ds)
    if (returned rv).map (· % 2 ^ 32) ≠ some (ds : Int) then .error (-5)
    else .ok (ofList decomp)

/-- `decompress_file`. -/
def decompressFile (junk : Nat → UInt8) (only : Option (List UInt8)) : Callback Written :=
  fun fp ent _ offset poffset d =>
    if only.any (· ≠ ent.name) then .ok d
    else
      match readAndDec junk fp offset ent.csize ent.usize with
      | .error _ => .error (-1)
      | .ok ofp =>
          let d := d ++ [(ent.name, ofp)]
          if ent.pvmCsize ≠ 0 then
            match readAndDec junk fp poffset ent.pvmCsize ent.pvmUsize with
            | .error _ => .error (-2)
            | .ok ofp => .ok (d ++ [(ent.name ++ pvmSuffix, ofp)])
          else .ok d

/-- The options `-xd` and `-xsd`. -/
def decompressBml (junk : Nat → UInt8) (only : Option (List UInt8)) (f : Image) :
    Except Int Written :=
  scanBml f (decompressFile junk only) []

/-! ## Updating -/

/-- The memory in which files are compressed: what a new block holds, and where the file is. -/
structure Memory where
  junk : Nat → UInt8
  base : Nat

/-- `read_and_cmp`: the compressed data, whose length is the size that is returned, and the size
of the file. -/
def readAndCmp (mem : Memory) (file : List UInt8) : Option (List UInt8 × Nat) :=
  match prsCompress mem.junk mem.base (fun i => file.getD i 0) file.length with
  | .error _ => none
  | .ok (rv, comp) => if rv < 0 then none else some (comp.take rv.toNat, file.length % 2 ^ 32)

/-- `struct update_cxt` without the strings. -/
structure UpdateCxt where
  fp : Stream
  fpos : Nat
  wpos : Nat

/-- `copy_update`, for the entry with the name `fn`. -/
def copyUpdate (mem : Memory) (fn file : List UInt8) (isPvm : Bool) : Callback UpdateCxt :=
  fun fp ent _ offset poffset cxt =>
    let cs := ent.csize
    let pcs := ent.pvmCsize
    if fn = ent.name then
      match readAndCmp mem file with
      | none => .error (-10)
      | some (buf, nus) =>
          let ent :=
            if isPvm then { ent with pvmCsize := buf.length, pvmUsize := nus }
            else { ent with csize := buf.length, usize := nus }
          let out := (cxt.fp.seek cxt.fpos).put ent.bytes
          let fpos := cxt.fpos + 64
          let out := out.seek cxt.wpos
          match if isPvm then copyFile out (fp.seek offset) cs else .ok (out.put buf, fp) with
          | .error _ => .error (-18)
          | .ok (out, _) =>
              let (out, wpos) := padFile out 32
              if pcs ≠ 0 ∨ isPvm then
                match if isPvm then .ok (out.put buf, fp)
                  else copyFile out (fp.seek poffset) pcs with
                | .error _ => .error (-18)
                | .ok (out, _) =>
                    let (out, wpos) := padFile out 32
                    .ok ⟨out, fpos, wpos⟩
              else .ok ⟨out, fpos, wpos⟩
    else
      let out := (cxt.fp.seek cxt.fpos).put ent.bytes
      let fpos := cxt.fpos + 64
      match copyFile (out.seek cxt.wpos) (fp.seek offset) cs with
      | .error _ => .error (-5)
      | .ok (out, _) =>
          let (out, wpos) := padFile out 32
          if pcs ≠ 0 then
            match copyFile out (fp.seek poffset) pcs with
            | .error _ => .error (-8)
            | .ok (out, _) =>
                let (out, wpos) := padFile out 32
                .ok ⟨out, fpos, wpos⟩
          else .ok ⟨out, fpos, wpos⟩

/-- The first 12 bytes of an archive. -/
def magic (entries : Nat) : List UInt8 := [0, 0, 0, 0] ++ le32 entries ++ [0x50, 0x01, 0, 0]

/-- The `hdrbuf` of `update_bml`. -/
def hdrbuf (entries : Nat) : List UInt8 := magic entries ++ zeros 52

/-- `update_bml`: the archive that takes the place of the old one. -/
def updateBml (mem : Memory) (f : Image) (fn file : List UInt8) (isPvm : Bool) :
    Except Int Image :=
  match openBml f with
  | none => .error (-1)
  | some (entries, _) =>
      let fp := (Stream.mk Image.empty 0).put (hdrbuf entries)
      match scanBml f (copyUpdate mem fn file isPvm) ⟨fp, 64, hdrlen entries⟩ with
      | .error _ => .error (-7)
      | .ok cxt => .ok cxt.fp.image

end Sylverant.Archive.Bml
