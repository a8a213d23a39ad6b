/-
# Reading item data

The functions of `pmtdata.c` that read the decompressed `ItemPMT` file of an edition, and
those that look items up in the tables that they make. Sums in the checks have 64 bits
where a `sizeof` is part of them, and 32 bits otherwise. Reading outside of the file or of
a table is a result of its own, with which everything ends. There is enough memory.
-/

import Mathlib.Algebra.Group.Nat.Defs
import Sylverant.Library.Stopping

namespace Sylverant.Ship.PmtData

open Stopping

/-- A decompressed file. Its size is an `int`. -/
structure PmtFile where
  bytes : List UInt8
  fits : bytes.length < 2 ^ 31

/-- Why a function does not come to its end: it reads outside of an array, or it returns an
error. -/
inductive Stop
  | outside
  | error (rv : Int)
  deriving DecidableEq

/-- A function that may stop. -/
abbrev Load : Type → Type := Except Stop

/-- What the editions differ in: the order of the bytes, the number of pointers, which of
them lead to the weapons, the guards, the units and the stars and behind them, and the sizes
of the records. -/
structure Layout where
  bigEndian : Bool
  ptrs : Nat
  weapons : Nat
  weaponsEnd : Nat
  guards : Nat
  guardsEnd : Nat
  units : Nat
  stars : Nat
  starsEnd : Nat
  weaponSize : Nat
  guardSize : Nat
  unitSize : Nat

/-! ## The file -/

namespace PmtFile

variable (f : PmtFile)

/-- `sz` -/
def sz : UInt32 := f.bytes.length.toUInt32

/-- A byte, by its position. -/
def byte (pos : Nat) : UInt32 := (f.bytes.getD pos 0).toUInt32

/-- A word in one of the orders, by its position. -/
def word (bigEndian : Bool) (pos : Nat) : UInt32 :=
  if bigEndian then
    f.byte pos <<< 24 ||| f.byte (pos + 1) <<< 16 ||| f.byte (pos + 2) <<< 8 ||| f.byte (pos + 3)
  else
    f.byte pos ||| f.byte (pos + 1) <<< 8 ||| f.byte (pos + 2) <<< 16 ||| f.byte (pos + 3) <<< 24

/-- Copy bytes out of the file. -/
def read {α : Type} (pos : Int) (n : Nat) (value : α) : Load α :=
  if 0 ≤ pos ∧ pos + n ≤ f.bytes.length then .ok value else .error .outside

end PmtFile

section Readers

variable (l : Layout) (f : PmtFile)

/-- `read_ptr_tbl`, `read_gcptr_tbl` and `read_bbptr_tbl`. -/
def readPtrTbl : Load (Nat → UInt32) := do
  let tmp ← f.read (f.bytes.length - 16) 4 (f.word l.bigEndian (f.bytes.length - 16))
  if tmp.toNat + 4 * l.ptrs > (f.sz - 16).toNat then throw (.error (-1))
  else f.read tmp.toNat (4 * l.ptrs) fun i => f.word l.bigEndian (tmp.toNat + 4 * i)

/-- The number of records of a table, and where it starts, at a position of the file. -/
def tableCount (pos : Nat) : UInt32 := f.word l.bigEndian pos

def tableStart (pos : Nat) : UInt32 := f.word l.bigEndian (pos + 4)

/-- The records of a table, by their `index`, the first field. -/
def tableRecords (size pos : Nat) : List UInt32 :=
  (List.range (tableCount l f pos).toNat).map fun j =>
    f.word l.bigEndian ((tableStart l f pos).toNat + size * j)

/-- Read a table with records of some size, by its number and its start, or return an error. -/
def readTable (size : Nat) (rv : Int) (pos : Nat) : Load (List UInt32) := do
  let (cnt, start) ← f.read pos 8 (tableCount l f pos, tableStart l f pos)
  if start.toNat + size * cnt.toNat > f.sz.toNat then throw (.error rv)
  else f.read start.toNat (size * cnt.toNat) (tableRecords l f size pos)

/-- `read_v2_weapons`, `read_gc_weapons` and `read_bb_weapons`. -/
def readWeapons (ptrs : Nat → UInt32) : Load (List (List UInt32)) :=
  if ptrs l.weapons > f.sz ∨ ptrs l.weapons > ptrs l.weaponsEnd then .error (.error (-1))
  else
    let cnt := (ptrs l.weaponsEnd - ptrs l.weapons) / 8
    upTo (fun i => readTable l f l.weaponSize (-4) ((ptrs l.weapons).toNat + 8 * i)) cnt.toNat

/-- `read_v2_guards`, `read_gc_guards` and `read_bb_guards`. -/
def readGuards (ptrs : Nat → UInt32) : Load (List (List UInt32)) :=
  if ptrs l.guardsEnd > f.sz ∨ ptrs l.guards > ptrs l.guardsEnd then .error (.error (-1))
  else
    let cnt := (ptrs l.guardsEnd - ptrs l.guards) / 8
    if cnt ≠ 2 then .error (.error (-2))
    else upTo (fun i => readTable l f l.guardSize (-5) ((ptrs l.guards).toNat + 8 * i)) cnt.toNat

/-- `read_v2_units`, `read_gc_units` and `read_bb_units`. -/
def readUnits (ptrs : Nat → UInt32) : Load (List UInt32) :=
  if ptrs l.units > f.sz then .error (.error (-1))
  else readTable l f l.unitSize (-2) (ptrs l.units).toNat

/-- `read_v2_stars`, `read_gc_stars` and `read_bb_stars`, where `numUnits` is `num_units`. -/
def readStars (ptrs : Nat → UInt32) (unitLowest numUnits weaponLowest : UInt32) :
    Load (List UInt8) :=
  if ptrs l.stars > f.sz ∨ ptrs l.starsEnd > f.sz ∨ ptrs l.starsEnd < ptrs l.stars then
    .error (.error (-1))
  else
    let starMax := ptrs l.starsEnd - ptrs l.stars
    if starMax < unitLowest + numUnits - weaponLowest then .error (.error (-2))
    else
      f.read (ptrs l.stars).toNat starMax.toNat
        ((f.bytes.drop (ptrs l.stars).toNat).take starMax.toNat)

end Readers

/-! ## The tables -/

/-- The least index of some records, which is the greatest there is if there are none. -/
def lowest (records : List UInt32) : UInt32 :=
  records.foldl (fun low index => if index < low then index else low) 0xFFFFFFFF

/-- What has been read: the tables of weapons and guards, the units, and the stars. A record
is kept by its `index`. -/
structure Tables where
  weapons : List (List UInt32)
  guards : List (List UInt32)
  units : List UInt32
  stars : List UInt8
  deriving DecidableEq

namespace Tables

variable (t : Tables)

/-- `weapon_lowest` -/
def weaponLowest : UInt32 := lowest t.weapons.flatten

/-- `unit_lowest` -/
def unitLowest : UInt32 := lowest t.units

/-- `num_units` -/
def numUnits : UInt32 := t.units.length.toUInt32

end Tables

/-- Return another error where a function returns one. -/
def failWith {α : Type} (rv : Int) : Load α → Load α
  | .error (.error _) => .error (.error rv)
  | result => result

/-- The body that `pmt_read_v2`, `pmt_read_gc` and `pmt_read_bb` share, up to the tables for
random units. The number that the stars are checked with depends on that of the units. -/
def pmtRead (l : Layout) (checked : UInt32 → UInt32) (f : PmtFile) : Load Tables := do
  let ptrs ← failWith (-9) (readPtrTbl l f)
  let weapons ← failWith (-10) (readWeapons l f ptrs)
  let guards ← failWith (-11) (readGuards l f ptrs)
  let units ← failWith (-12) (readUnits l f ptrs)
  let t : Tables := ⟨weapons, guards, units, []⟩
  let stars ← failWith (-13)
    (readStars l f ptrs t.unitLowest (checked t.numUnits) t.weaponLowest)
  return { t with stars }

/-- What is in the files for versions 1 and 2. -/
def v2Layout : Layout where
  bigEndian := false
  ptrs := 21
  weapons := 1
  weaponsEnd := 11
  guards := 2
  guardsEnd := 3
  units := 3
  stars := 12
  starsEnd := 13
  weaponSize := 24
  guardSize := 24
  unitSize := 12

/-- What is in the files for the GameCube. -/
def gcLayout : Layout where
  bigEndian := true
  ptrs := 23
  weapons := 0
  weaponsEnd := 17
  guards := 1
  guardsEnd := 2
  units := 2
  stars := 11
  starsEnd := 12
  weaponSize := 40
  guardSize := 28
  unitSize := 16

/-- What is in the files for Blue Burst. -/
def bbLayout : Layout where
  bigEndian := false
  ptrs := 23
  weapons := 0
  weaponsEnd := 17
  guards := 1
  guardsEnd := 2
  units := 2
  stars := 11
  starsEnd := 12
  weaponSize := 44
  guardSize := 32
  unitSize := 20

/-- `pmt_read_v2` -/
def pmtReadV2 (f : PmtFile) : Load Tables := pmtRead v2Layout id f

/-- `pmt_read_gc`, where the units for versions 1 and 2 are `numUnits`: the stars are checked
with these. -/
def pmtReadGc (numUnits : UInt32) (f : PmtFile) : Load Tables :=
  pmtRead gcLayout (fun _ => numUnits) f

/-- `pmt_read_bb`, with the same check. -/
def pmtReadBb (numUnits : UInt32) (f : PmtFile) : Load Tables :=
  pmtRead bbLayout (fun _ => numUnits) f

/-! ## Looking items up -/

/-- `parts[k]` -/
def part (code : UInt32) (k : Nat) : Nat := ((code >>> (8 * k).toUInt32) &&& 0xFF).toNat

/-- An entry of an array. -/
def entry {α : Type} (as : List α) (i : Int) : Load α :=
  if 0 ≤ i then
    match as[i.toNat]? with
    | some a => .ok a
    | none => .error .outside
  else .error .outside

section Lookups

variable (t : Tables) (code : UInt32)

/-- `pmt_lookup_weapon_v2`, `pmt_lookup_weapon_gc` and `pmt_lookup_weapon_bb`, for tables that
have been read and with a place for the record. -/
def pmtLookupWeapon : Load UInt32 := do
  if part code 0 ≠ 0 then throw (.error (-2))
  else if part code 1 > t.weapons.length then throw (.error (-3))
  else
    let table ← entry t.weapons (part code 1)
    if part code 2 ≥ table.length then throw (.error (-4)) else entry table (part code 2)

/-- `pmt_lookup_guard_v2`, `pmt_lookup_guard_gc` and `pmt_lookup_guard_bb`. -/
def pmtLookupGuard : Load UInt32 := do
  if part code 0 ≠ 1 then throw (.error (-2))
  else if part code 1 = 3 then throw (.error (-3))
  else if part code 1 > t.guards.length then throw (.error (-4))
  else
    let table ← entry t.guards ((part code 1 : Int) - 1)
    if part code 2 ≥ table.length then throw (.error (-5)) else entry table (part code 2)

/-- `pmt_lookup_unit_v2`, `pmt_lookup_unit_gc` and `pmt_lookup_unit_bb`. -/
def pmtLookupUnit : Load UInt32 :=
  if part code 0 ≠ 1 ∨ part code 1 ≠ 3 then .error (.error (-2))
  else if part code 2 ≥ t.units.length then .error (.error (-3))
  else entry t.units (part code 2)

/-- The stars of a record that has been looked up. -/
def starsOf (found : Load UInt32) : Load UInt8 :=
  match found with
  | .ok index =>
      if (index - t.weaponLowest).toNat > t.stars.length then .ok 0xFF
      else entry t.stars (index - t.weaponLowest).toNat
  | .error .outside => .error .outside
  | .error (.error _) => .ok 0xFF

/-- `pmt_lookup_stars_v2`, `pmt_lookup_stars_gc` and `pmt_lookup_stars_bb`. -/
def pmtLookupStars : Load UInt8 :=
  if part code 0 = 0 then starsOf t (pmtLookupWeapon t code)
  else if part code 0 = 1 then
    if part code 1 = 1 ∨ part code 1 = 2 then starsOf t (pmtLookupGuard t code)
    else if part code 1 = 3 then starsOf t (pmtLookupUnit t code)
    else .ok 0xFF
  else .ok 0xFF

end Lookups

end Sylverant.Ship.PmtData
