/-
# AFS archives

An AFS archive starts with its magic number, the number of files, and for each file the
position and the size of its data. The tool reserves half a megabyte for this table and
puts the data behind it, padded to blocks of 2048 bytes. The definitions follow `afs.c`;
a file that the tool opens by its path is given by its contents.
-/

import Sylverant.Archive.Files
import Sylverant.Library.Blocks
import Sylverant.Library.CInt

namespace Sylverant.Archive.Afs

open RandomAccess (Image Stream)
open Layout (Region)

/-! ## Reading -/

/-- The magic number. -/
def magic : List UInt8 := [0x41, 0x46, 0x53, 0x00]

/-- What `scan_afs` calls for each file: with the archive at the position of the data, the
index of the file, the number of files, and the size. -/
abbrev Callback (σ : Type) := Stream → Nat → Nat → Nat → σ → Except Int σ

/-- `open_afs`. -/
def openAfs (f : Image) : Option (Stream × Nat) :=
  let (buf, fp) := (Stream.mk f 0).get 4
  if buf.length ≠ 4 then none
  else if buf ≠ magic then none
  else
    let (buf, fp) := fp.get 4
    if buf.length ≠ 4 then none else some (fp, ofLe32 buf)

/-- The loop of `scan_afs`, for the files that are left and the index of the next. -/
def scanLoop {σ : Type} (p : Callback σ) (entries : Nat) : Nat → Nat → Stream → σ → Except Int σ
  | 0, _, _, userdata => .ok userdata
  | left + 1, i, fp, userdata =>
      let (buf, fp) := fp.get 4
      if buf.length ≠ 4 then .error (-2)
      else
        let offset := ofLe32 buf
        let (buf, fp) := fp.get 4
        if buf.length ≠ 4 then .error (-3)
        else
          let size := ofLe32 buf
          let next := fp.pos
          match p (fp.seek offset) i entries size userdata with
          | .error _ => .error (-5)
          | .ok userdata => scanLoop p entries left (i + 1) (fp.seek next) userdata

/-- `scan_afs`, with the number of files as the `int` that is returned. -/
def scanAfs {σ : Type} (f : Image) (p : Callback σ) (userdata : σ) : Except Int (Int × σ) :=
  match openAfs f with
  | none => .error (-1)
  | some (fp, entries) =>
      match scanLoop p entries entries 0 fp userdata with
      | .error rv => .error rv
      | .ok userdata => .ok (CInt.ofInt entries, userdata)

/-- `print_file_info`, which prints the index, the offset and the size. -/
def printFileInfo : Callback (List (Nat × Region)) :=
  fun fp i _ sz d => .ok (d ++ [(i, ⟨fp.pos % 2 ^ 32, sz⟩)])

/-- `print_afs_files`. -/
def printAfsFiles (f : Image) : Except Int (Int × List (Nat × Region)) :=
  scanAfs f printFileInfo []

/-- `digits`. -/
def digits (n : Nat) : Nat :=
  if n / 10 = 0 then 1 else digits (n / 10) + 1
decreasing_by omega

/-- The name that `extract_file` gives the file with index `i`. -/
def extractName (fn : String) (cnt i : Nat) : String :=
  fn ++ "." ++ String.ofList ((Nat.toDigits 10 i).leftpad (digits cnt) '0') ++ ".bin"

/-- `extract_file`. -/
def extractFile (fn : String) : Callback (Directory String) :=
  fun fp i cnt sz d =>
    match copyFile ⟨Image.empty, 0⟩ fp sz with
    | .error _ => .error (-2)
    | .ok (ofp, _) => .ok (d.save (extractName fn cnt i) ofp.image)

/-- `extract_afs`, in an empty directory, for an archive with this base name. -/
def extractAfs (bn : String) (f : Image) : Except Int (Int × Directory String) :=
  scanAfs f (extractFile bn) []

/-! ## Writing -/

/-- A line of the table as it is stored. -/
def record (wpos size : Nat) : List UInt8 := le32 wpos ++ le32 size

/-- `add_files_to_afs`, which also returns the positions in the table and behind the data. -/
def addFilesToAfs : Stream → Nat → Nat → List (List UInt8) → Except Int (Stream × Nat × Nat)
  | ofp, fpos, wpos, [] => .ok (ofp, fpos, wpos)
  | ofp, _, wpos, file :: files =>
      let size := file.length % 2 ^ 32
      let ofp := ofp.put (record wpos size)
      let fpos := ofp.pos
      match copyFile (ofp.seek wpos) ⟨ofList file, 0⟩ size with
      | .error _ => .error (-6)
      | .ok (ofp, _) =>
          let (ofp, wpos) := padFile ofp 2048
          addFilesToAfs (ofp.seek fpos) fpos wpos files

/-- The header as it is stored. -/
def header (count : Nat) : List UInt8 := magic ++ le32 count

/-- `create_afs`. -/
def createAfs (files : List (List UInt8)) : Except Int Image :=
  if files.length > 65535 then .error (-14)
  else
    let ofp := (Stream.mk Image.empty 0).put (header files.length)
    let fpos := ofp.pos
    let wpos := 0x80000
    match addFilesToAfs (ofp.seek fpos) fpos wpos files with
    | .error _ => .error (-6)
    | .ok (ofp, _, _) => .ok ofp.image

/-- `copy_file_cb`. The data goes to where the new archive stands. -/
def copyFileCb : Callback Stream := fun fp i _ sz ofp =>
  let fpos := i * 8 % 2 ^ 32 + 8
  let wpos := if i = 0 then 0x80000 else ofp.pos % 2 ^ 32
  let ofp := (ofp.seek fpos).put (record wpos sz)
  match copyFile (ofp.seek wpos) fp sz with
  | .error _ => .error (-4)
  | .ok (ofp, _) => .ok (padFile ofp 2048).1

/-- `add_to_afs`. -/
def addToAfs (f : Image) (files : List (List UInt8)) : Except Int Image :=
  match scanAfs f copyFileCb ⟨Image.empty, 8⟩ with
  | .error _ => .error (-5)
  | .ok (entries, ofp) =>
      if entries < 0 then .error (-5)
      else
        let entries := entries.toNat
        if entries + files.length > 65535 then .error (-6)
        else
          let wpos := ofp.pos
          let fpos := entries * 8 + 8
          let ofp := (ofp.seek 0).put (header (entries + files.length))
          match addFilesToAfs (ofp.seek fpos) fpos wpos files with
          | .error _ => .error (-10)
          | .ok (ofp, _, _) => .ok ofp.image

/-- `struct delete_cxt`. -/
structure DeleteCxt where
  fp : Stream
  items : List Nat
  fpos : Nat
  wpos : Nat
  copied_files : Nat

/-- `copy_filtered`. -/
def copyFiltered : Callback DeleteCxt := fun fp i _ sz cxt =>
  if i ∈ cxt.items then .ok cxt
  else
    let ofp := (cxt.fp.seek cxt.fpos).put (record cxt.wpos sz)
    match copyFile (ofp.seek cxt.wpos) fp sz with
    | .error _ => .error (-4)
    | .ok (ofp, _) =>
        let (ofp, wpos) := padFile ofp 2048
        .ok { cxt with
          fp := ofp
          fpos := cxt.fpos + 8
          wpos := wpos
          copied_files := cxt.copied_files + 1 }

/-- `delete_from_afs`, for the numbers that the arguments name. -/
def deleteFromAfs (f : Image) (items : List Nat) : Except Int Image :=
  match scanAfs f copyFiltered ⟨⟨Image.empty, 8⟩, items, 8, 0x80000, 0⟩ with
  | .error _ => .error (-7)
  | .ok (entries, cxt) =>
      if entries < 0 then .error (-7)
      else if items.any fun item => entries.toNat ≤ item then .error (-8)
      else .ok ((cxt.fp.seek 0).put (header cxt.copied_files)).image

/-- `struct update_cxt`, with the contents of the new file. -/
structure UpdateCxt where
  fp : Stream
  item : Nat
  file : List UInt8
  fpos : Nat
  wpos : Nat

/-- `copy_update`. -/
def copyUpdate : Callback UpdateCxt := fun fp i _ sz cxt =>
  if cxt.item = i then
    match addFilesToAfs (cxt.fp.seek cxt.fpos) cxt.fpos cxt.wpos [cxt.file] with
    | .error _ => .error (-6)
    | .ok (ofp, fpos, wpos) => .ok { cxt with fp := ofp, fpos := fpos, wpos := wpos }
  else
    let ofp := (cxt.fp.seek cxt.fpos).put (record cxt.wpos sz)
    match copyFile (ofp.seek cxt.wpos) fp sz with
    | .error _ => .error (-4)
    | .ok (ofp, _) =>
        let (ofp, wpos) := padFile ofp 2048
        .ok { cxt with fp := ofp, fpos := cxt.fpos + 8, wpos := wpos }

/-- `update_afs`, for the number that the argument names. -/
def updateAfs (f : Image) (item : Nat) (file : List UInt8) : Except Int Image :=
  match scanAfs f copyUpdate ⟨⟨Image.empty, 8⟩, item, file, 8, 0x80000⟩ with
  | .error _ => .error (-7)
  | .ok (entries, cxt) =>
      if entries < 0 then .error (-7)
      else if item ≥ entries.toNat then .error (-8)
      else .ok ((cxt.fp.seek 0).put (header entries.toNat)).image

end Sylverant.Archive.Afs
