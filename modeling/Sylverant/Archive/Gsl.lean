/-
# GSL archives

A GSL archive starts with a table of records of 48 bytes, with the name of a file, where its
data is, in blocks of 2048 bytes, and its size. The table ends at a record whose name is
empty. Nothing says in which order the bytes of a number are, so the tool guesses. The
definitions follow `gsl.c`; a file that is added is given by its base name and its contents.
-/

import Sylverant.Archive.Files
import Sylverant.Library.Blocks
import Sylverant.Library.CInt

namespace Sylverant.Archive.Gsl

open RandomAccess (Image Stream)
open Layout (Region)

/-- The static `endianness`. -/
inductive Endianness where
  | auto
  | big
  | little
  deriving DecidableEq

/-- The bytes of a number in a record. -/
def num (endianness : Endianness) (n : Nat) : List UInt8 :=
  match endianness with
  | .big => (le32 n).reverse
  | _ => le32 n

/-- The number that bytes stand for. -/
def ofNum (endianness : Endianness) (buf : List UInt8) : Nat :=
  match endianness with
  | .big => ofLe32 buf.reverse
  | _ => ofLe32 buf

/-! ## Reading -/

/-- What `scan_gsl` calls for each file: with the archive at the position of the data, the
index of the file, the size, and the name. -/
abbrev Callback (σ : Type) := Stream → Nat → Nat → List UInt8 → σ → Except Int σ

/-- The part of `scan_gsl` that reads an offset, and guesses the order of bytes when it has
not been given: big endian, unless the data would be outside the file. -/
def readOffset (endianness : Endianness) (total : Nat) (buf : List UInt8) :
    Except Int (Endianness × Nat) :=
  match endianness with
  | .auto =>
      let offset := ofNum .big buf
      if offset > total % 2 ^ 32 ∨ offset * 2048 % 2 ^ 32 > total % 2 ^ 32 then
        let offset := ofNum .little buf
        if offset * 2048 % 2 ^ 32 > total % 2 ^ 32 then .error (-9) else .ok (.little, offset)
      else .ok (.big, offset)
  | .big => .ok (.big, ofNum .big buf)
  | .little => .ok (.little, ofNum .little buf)

/-- The loop of `scan_gsl`, which also returns the index at which it stops. Each round reads
48 bytes, so that reading fails when the rounds for the whole file are used up. -/
def scanLoop {σ : Type} (p : Callback σ) (total : Nat) :
    Nat → Endianness → Nat → Stream → σ → Except Int (Nat × σ)
  | 0, _, _, _, _ => .error (-2)
  | rounds + 1, endianness, i, fp, userdata =>
      let (filename, fp) := fp.get 32
      if filename.length ≠ 32 then .error (-2)
      else if filename.head? = some 0 then .ok (i, userdata)
      else
        let (buf, fp) := fp.get 4
        if buf.length ≠ 4 then .error (-3)
        else
          match readOffset endianness total buf with
          | .error rv => .error rv
          | .ok (endianness, offset) =>
              let (buf, fp) := fp.get 4
              if buf.length ≠ 4 then .error (-4)
              else
                let size := ofNum endianness buf
                let next := fp.pos + 8
                match p (fp.seek (offset * 2048)) i size (filename.takeWhile (· ≠ 0)) userdata with
                | .error _ => .error (-7)
                | .ok userdata => scanLoop p total rounds endianness (i + 1) (fp.seek next) userdata

/-- `scan_gsl`, with the number of files as the `int` that is returned. -/
def scanGsl {σ : Type} (endianness : Endianness) (f : Image) (p : Callback σ) (userdata : σ) :
    Except Int (Int × σ) :=
  match scanLoop p f.length (f.length / 48 + 1) endianness 0 ⟨f, 0⟩ userdata with
  | .error rv => .error rv
  | .ok (i, userdata) => .ok (CInt.ofInt i, userdata)

/-- `print_file_info`, which prints the index, the name, the offset and the size. -/
def printFileInfo : Callback (List (Nat × List UInt8 × Region)) :=
  fun fp i sz fn d => .ok (d ++ [(i, fn, ⟨fp.pos % 2 ^ 32, sz⟩)])

/-- `print_gsl_files`. -/
def printGslFiles (endianness : Endianness) (f : Image) :
    Except Int (Int × List (Nat × List UInt8 × Region)) :=
  scanGsl endianness f printFileInfo []

/-- `extract_file`. -/
def extractFile : Callback (Directory (List UInt8)) :=
  fun fp _ sz fn d =>
    match copyFile ⟨Image.empty, 0⟩ fp sz with
    | .error _ => .error (-2)
    | .ok (ofp, _) => .ok (d.save fn ofp.image)

/-- `extract_gsl`, in an empty directory. -/
def extractGsl (endianness : Endianness) (f : Image) :
    Except Int (Int × Directory (List UInt8)) :=
  scanGsl endianness f extractFile []

/-! ## Writing -/

/-- A record of the table. The position of the data is kept in blocks. -/
def record (endianness : Endianness) (filename : List UInt8) (wpos size : Nat) : List UInt8 :=
  filename ++ List.replicate (32 - filename.length) 0 ++ num endianness (wpos / 2048) ++
    num endianness size ++ List.replicate 8 0

/-- `add_files_to_gsl`, which also returns the positions in the table and behind the data. -/
def addFilesToGsl (endianness : Endianness) :
    Stream → Nat → Nat → List (List UInt8 × List UInt8) → Except Int (Stream × Nat × Nat)
  | ofp, fpos, wpos, [] => .ok (ofp, fpos, wpos)
  | ofp, _, wpos, (filename, file) :: files =>
      let size := file.length % 2 ^ 32
      if filename.length ≥ 32 then .error (-11)
      else
        let ofp := ofp.put (record endianness filename wpos size)
        let fpos := ofp.pos
        match copyFile (ofp.seek wpos) ⟨ofList file, 0⟩ size with
        | .error _ => .error (-6)
        | .ok (ofp, _) =>
            let (ofp, wpos) := padFile ofp 2048
            addFilesToGsl endianness (ofp.seek fpos) fpos wpos files

/-- The `hdrlen` of `create_gsl`, in 32 bits. -/
def hdrlen (count : Nat) : Nat := (count * 48 + 2048) % 2 ^ 32 &&& 0xFFFFF000

/-- `create_gsl`. -/
def createGsl (endianness : Endianness) (files : List (List UInt8 × List UInt8)) :
    Except Int Image :=
  let endianness := if endianness = .auto then .big else endianness
  let wpos := hdrlen files.length
  match addFilesToGsl endianness ⟨Image.empty, 0⟩ 0 wpos files with
  | .error _ => .error (-6)
  | .ok (ofp, _, _) => .ok ofp.image

/-- The header is rounded to a multiple of 4096, down as well as up. -/
theorem hdrlen_eq (count : Nat) : hdrlen count = (count * 48 + 2048) % 2 ^ 32 / 4096 * 4096 := by
  have hlt : (count * 48 + 2048) % 2 ^ 32 < 2 ^ 32 := by omega
  exact @and_highMask 12 _ (by decide) hlt

end Sylverant.Archive.Gsl
