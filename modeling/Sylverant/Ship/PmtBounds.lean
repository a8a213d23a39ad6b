/-
# The bounds of item data

Which files are read without leaving them, and which codes are looked up without leaving
the tables. The position of the pointers, the descriptors of the weapons and that of the
units are read before anything says that they are in the file. In the tables, the number
after the last type of weapons passes the check, and so does the type of guards before the
first one, and the number of stars as the number of a star.
-/

import Sylverant.Ship.PmtData

namespace Sylverant.Ship.PmtData

open Stopping

/-! ## What a file says -/

namespace PmtFile

variable (l : Layout) (f : PmtFile)

/-- Where the pointers are. -/
def tablePos : Nat := (f.word l.bigEndian (f.bytes.length - 16)).toNat

/-- A pointer. -/
def ptr (i : Nat) : UInt32 := f.word l.bigEndian (f.tablePos l + 4 * i)

/-- The pointers come before the last words of the file. -/
def PtrsFit : Prop := f.tablePos l + 4 * l.ptrs ≤ f.bytes.length - 16

instance : Decidable (f.PtrsFit l) := inferInstanceAs (Decidable (_ ≤ _))

/-- The table at a position is in the file. -/
def TableFits (size pos : Nat) : Prop :=
  (tableStart l f pos).toNat + size * (tableCount l f pos).toNat ≤ f.bytes.length

instance (size pos : Nat) : Decidable (f.TableFits l size pos) :=
  inferInstanceAs (Decidable (_ ≤ _))

/-- The number of types of weapons. -/
def weaponTypes : Nat := ((f.ptr l l.weaponsEnd - f.ptr l l.weapons) / 8).toNat

/-- The position where the table of a type of weapons is described. -/
def weaponPos (i : Nat) : Nat := (f.ptr l l.weapons).toNat + 8 * i

def guardPos (i : Nat) : Nat := (f.ptr l l.guards).toNat + 8 * i

/-- The types of weapons are behind each other, from a position in the file on. -/
def WeaponsSane : Prop :=
  (f.ptr l l.weapons).toNat ≤ f.bytes.length ∧ f.ptr l l.weapons ≤ f.ptr l l.weaponsEnd

/-- A type of weapons is described in the file, and its table is in the file. -/
def WeaponFits (i : Nat) : Prop :=
  f.weaponPos l i + 8 ≤ f.bytes.length ∧ f.TableFits l l.weaponSize (f.weaponPos l i)

/-- There are two tables of guards, and both are in the file. -/
structure GuardsFit : Prop where
  guardsEnd : (f.ptr l l.guardsEnd).toNat ≤ f.bytes.length
  guards : f.ptr l l.guards ≤ f.ptr l l.guardsEnd
  types : (f.ptr l l.guardsEnd - f.ptr l l.guards) / 8 = 2
  fits : ∀ i < 2, f.TableFits l l.guardSize (f.guardPos l i)

/-- The tables that a file has, apart from the stars. -/
def itemTables : Tables where
  weapons := (List.range (f.weaponTypes l)).map fun i =>
    tableRecords l f l.weaponSize (f.weaponPos l i)
  guards := (List.range 2).map fun i => tableRecords l f l.guardSize (f.guardPos l i)
  units := tableRecords l f l.unitSize (f.ptr l l.units).toNat
  stars := []

/-- The number of stars. -/
def starMax : UInt32 := f.ptr l l.starsEnd - f.ptr l l.stars

/-- The tables that a file has. -/
def tables : Tables :=
  { f.itemTables l with
    stars := (f.bytes.drop (f.ptr l l.stars).toNat).take (f.starMax l).toNat }

/-- The stars are in the file, and pass the check for some number of units. -/
structure StarsFit (numUnits : UInt32) : Prop where
  stars : (f.ptr l l.stars).toNat ≤ f.bytes.length
  starsEnd : (f.ptr l l.starsEnd).toNat ≤ f.bytes.length
  order : f.ptr l l.stars ≤ f.ptr l l.starsEnd
  enough : (f.itemTables l).unitLowest + numUnits - (f.itemTables l).weaponLowest ≤ f.starMax l

variable {l f}

theorem toNat_sz : f.sz.toNat = f.bytes.length := Nat.mod_eq_of_lt (by have := f.fits; omega)

theorem gt_sz_iff {p : UInt32} : p > f.sz ↔ f.bytes.length < p.toNat := by
  rw [gt_iff_lt, UInt32.lt_iff_toNat_lt, toNat_sz]

theorem read_of_le {α : Type} {pos n : Nat} {value : α} (h : pos + n ≤ f.bytes.length) :
    f.read pos n value = .ok value := if_pos ⟨by omega, by omega⟩

theorem read_of_lt {α : Type} {pos n : Nat} {value : α} (h : f.bytes.length < pos + n) :
    f.read pos n value = .error .outside := if_neg (by omega)

end PmtFile

open PmtFile

/-! ## What is read of it -/

section Readers

variable {l : Layout} {f : PmtFile}

theorem readPtrTbl_of_lt (h : f.bytes.length < 16) : readPtrTbl l f = .error .outside := by
  rw [readPtrTbl, PmtFile.read, if_neg (by omega)]
  rfl

/-- With the last words in the file, the pointers are read from within the file. -/
theorem readPtrTbl_of_le (h : 16 ≤ f.bytes.length) :
    readPtrTbl l f = if f.PtrsFit l then .ok (f.ptr l) else .error (.error (-1)) := by
  have hfits := f.fits
  have hsub : (f.sz - 16).toNat = f.bytes.length - 16 := by
    rw [UInt32.toNat_sub, toNat_sz]
    simp only [UInt32.reduceToNat]
    omega
  rw [readPtrTbl, PmtFile.read, if_pos (by omega), ok_bind, hsub, ← tablePos]
  by_cases hptrs : f.PtrsFit l
  · rw [if_pos hptrs, if_neg (Nat.not_lt.mpr hptrs), read_of_le (by rw [PtrsFit] at hptrs; omega)]
    rfl
  · rw [if_neg hptrs, if_pos (Nat.not_le.mp hptrs)]
    rfl

/-- A table is read from within the file where its description is in the file. -/
theorem readTable_of_le {size pos : Nat} {rv : Int} (h : pos + 8 ≤ f.bytes.length) :
    readTable l f size rv pos =
      if f.TableFits l size pos then .ok (tableRecords l f size pos) else .error (.error rv) := by
  rw [readTable, read_of_le h, ok_bind, toNat_sz]
  dsimp only
  by_cases hfits : f.TableFits l size pos
  · rw [if_pos hfits, if_neg (Nat.not_lt.mpr hfits), read_of_le hfits]
  · rw [if_neg hfits, if_pos (Nat.not_le.mp hfits)]
    rfl

theorem readTable_of_lt {size pos : Nat} {rv : Int} (h : f.bytes.length < pos + 8) :
    readTable l f size rv pos = .error .outside := by
  rw [readTable, read_of_lt h]
  rfl

/-- What comes of reading a table. -/
theorem readTable_cases (l : Layout) (f : PmtFile) (size : Nat) (rv : Int) (pos : Nat) :
    (f.bytes.length < pos + 8 ∧ readTable l f size rv pos = .error .outside) ∨
      ((pos + 8 ≤ f.bytes.length ∧ ¬f.TableFits l size pos) ∧
        readTable l f size rv pos = .error (.error rv)) ∨
      ((pos + 8 ≤ f.bytes.length ∧ f.TableFits l size pos) ∧
        readTable l f size rv pos = .ok (tableRecords l f size pos)) := by
  rcases Nat.lt_or_ge f.bytes.length (pos + 8) with hlt | hle
  · exact .inl ⟨hlt, readTable_of_lt hlt⟩
  · by_cases hfits : f.TableFits l size pos
    · exact .inr (.inr ⟨⟨hle, hfits⟩, by rw [readTable_of_le hle, if_pos hfits]⟩)
    · exact .inr (.inl ⟨⟨hle, hfits⟩, by rw [readTable_of_le hle, if_neg hfits]⟩)

theorem readTable_eq_ok_iff {size pos : Nat} {rv : Int} {records : List UInt32} :
    readTable l f size rv pos = .ok records ↔
      (pos + 8 ≤ f.bytes.length ∧ f.TableFits l size pos) ∧
        records = tableRecords l f size pos := by
  rcases readTable_cases l f size rv pos with ⟨hlt, hrun⟩ | ⟨hnot, hrun⟩ | ⟨hfits, hrun⟩
  · rw [hrun]
    exact iff_of_false nofun fun h => absurd h.1.1 (Nat.not_le.mpr hlt)
  · rw [hrun]
    exact iff_of_false nofun fun h => hnot.2 h.1.2
  · rw [hrun, Except.ok.injEq]
    exact ⟨fun h => ⟨hfits, h.symm⟩, fun h => h.2.symm⟩

theorem readTable_eq_outside_iff {size pos : Nat} {rv : Int} :
    readTable l f size rv pos = .error .outside ↔ f.bytes.length < pos + 8 := by
  rcases readTable_cases l f size rv pos with ⟨hlt, hrun⟩ | ⟨hnot, hrun⟩ | ⟨hfits, hrun⟩
  · exact iff_of_true hrun hlt
  · rw [hrun]
    exact iff_of_false nofun (Nat.not_lt.mpr hnot.1)
  · rw [hrun]
    exact iff_of_false nofun (Nat.not_lt.mpr hfits.1)

/-- The tables at some positions. -/
theorem readTables_known (l : Layout) (f : PmtFile) (size : Nat) (rv : Int) (pos : Nat → Nat)
    (i : Nat) (records : List UInt32) :
    readTable l f size rv (pos i) = .ok records ↔
      (pos i + 8 ≤ f.bytes.length ∧ f.TableFits l size (pos i)) ∧
        records = tableRecords l f size (pos i) :=
  readTable_eq_ok_iff

/-! ## Weapons, guards, units and stars -/

/-- The description of a type of weapons is read that is not in the file: the tables of the
types before it were in the file. -/
def WeaponsStray (l : Layout) (f : PmtFile) : Prop :=
  f.WeaponsSane l ∧ ∃ i < f.weaponTypes l, f.bytes.length < f.weaponPos l i + 8 ∧
    ∀ j < i, f.WeaponFits l j

/-- The check of the pointers to the weapons. -/
theorem weaponsSane_iff : f.WeaponsSane l ↔
    ¬(f.ptr l l.weapons > f.sz ∨ f.ptr l l.weapons > f.ptr l l.weaponsEnd) := by
  rw [not_or, PmtFile.WeaponsSane, gt_sz_iff, Nat.not_lt, gt_iff_lt, UInt32.not_lt]

theorem readWeapons_of_sane (h : f.WeaponsSane l) :
    readWeapons l f (f.ptr l) =
      upTo (fun i => readTable l f l.weaponSize (-4) (f.weaponPos l i)) (f.weaponTypes l) := by
  rw [readWeapons, if_neg (weaponsSane_iff.mp h)]
  rfl

theorem readWeapons_of_not_sane (h : ¬f.WeaponsSane l) :
    readWeapons l f (f.ptr l) = .error (.error (-1)) := by
  rw [readWeapons, if_pos (not_not.mp fun hn => h (weaponsSane_iff.mpr hn))]

theorem readWeapons_eq_outside_iff :
    readWeapons l f (f.ptr l) = .error .outside ↔ WeaponsStray l f := by
  by_cases hsane : f.WeaponsSane l
  · rw [readWeapons_of_sane hsane,
      upTo_eq_error_iff_of_known (readTables_known l f l.weaponSize (-4) (f.weaponPos l))]
    simp only [readTable_eq_outside_iff]
    exact (and_iff_right hsane).symm
  · rw [readWeapons_of_not_sane hsane]
    exact iff_of_false nofun fun h => hsane h.1

theorem readWeapons_eq_ok_iff {weapons : List (List UInt32)} :
    readWeapons l f (f.ptr l) = .ok weapons ↔
      (f.WeaponsSane l ∧ ∀ i < f.weaponTypes l, f.WeaponFits l i) ∧
        weapons = (f.itemTables l).weapons := by
  by_cases hsane : f.WeaponsSane l
  · rw [readWeapons_of_sane hsane, and_assoc, and_iff_right hsane]
    exact upTo_eq_ok_iff (readTables_known l f l.weaponSize (-4) (f.weaponPos l))
  · rw [readWeapons_of_not_sane hsane]
    exact iff_of_false nofun fun h => hsane h.1.1

/-- Both tables of guards are described in the file, if there are two up to a position in it. -/
theorem guardPos_le (hend : (f.ptr l l.guardsEnd).toNat ≤ f.bytes.length)
    (horder : f.ptr l l.guards ≤ f.ptr l l.guardsEnd)
    (htypes : (f.ptr l l.guardsEnd - f.ptr l l.guards) / 8 = 2) {i : Nat} (hi : i < 2) :
    f.guardPos l i + 8 ≤ f.bytes.length := by
  have hle := UInt32.le_iff_toNat_le.mp horder
  have hdiv := congrArg UInt32.toNat htypes
  rw [UInt32.toNat_div, UInt32.toNat_sub_of_le _ _ horder] at hdiv
  simp only [UInt32.reduceToNat] at hdiv
  rw [PmtFile.guardPos]
  omega

/-- Reading the guards does not leave the file. -/
theorem readGuards_cases (l : Layout) (f : PmtFile) :
    (¬f.GuardsFit l ∧ ∃ rv, readGuards l f (f.ptr l) = .error (.error rv)) ∨
      (f.GuardsFit l ∧ readGuards l f (f.ptr l) = .ok (f.itemTables l).guards) := by
  rw [readGuards]
  by_cases hout : f.ptr l l.guardsEnd > f.sz ∨ f.ptr l l.guards > f.ptr l l.guardsEnd
  · refine .inl ⟨fun hfit => ?_, -1, if_pos hout⟩
    rcases hout with hend | horder
    · exact Nat.not_lt.mpr hfit.guardsEnd (gt_sz_iff.mp hend)
    · exact UInt32.not_lt.mpr hfit.guards horder
  · obtain ⟨hend, horder⟩ := not_or.mp hout
    rw [gt_sz_iff, Nat.not_lt] at hend
    rw [gt_iff_lt, UInt32.not_lt] at horder
    rw [if_neg hout]
    by_cases htypes : (f.ptr l l.guardsEnd - f.ptr l l.guards) / 8 = 2
    · have hpos := fun i (hi : i < 2) => guardPos_le hend horder htypes hi
      have hknown := readTables_known l f l.guardSize (-5) (f.guardPos l)
      simp only [htypes, ne_eq, not_true_eq_false, if_false, UInt32.reduceToNat]
      by_cases hfits : ∀ i < 2, f.TableFits l l.guardSize (f.guardPos l i)
      · exact .inr ⟨⟨hend, horder, htypes, hfits⟩,
          (upTo_eq_ok_iff hknown).mpr ⟨fun i hi => ⟨hpos i hi, hfits i hi⟩, rfl⟩⟩
      · refine .inl ⟨fun hfit => hfits hfit.fits, ?_⟩
        cases hrun : upTo (fun i => readTable l f l.guardSize (-5) (f.guardPos l i)) 2 with
        | ok guards =>
            exact absurd (fun i hi => (((upTo_eq_ok_iff hknown).mp hrun).1 i hi).2) hfits
        | error stop =>
            cases stop with
            | error rv => exact ⟨rv, hrun⟩
            | outside =>
                obtain ⟨i, hi, hstop, -⟩ := upTo_eq_error_iff.mp hrun
                exact absurd (readTable_eq_outside_iff.mp hstop) (Nat.not_lt.mpr (hpos i hi))
    · refine .inl ⟨fun hfit => htypes hfit.types, -2, ?_⟩
      simp only [ne_eq, htypes, not_false_eq_true, if_true]

/-- The description of the units is read from the end of the file, or from behind it. -/
def UnitsStray (l : Layout) (f : PmtFile) : Prop :=
  (f.ptr l l.units).toNat ≤ f.bytes.length ∧ f.bytes.length < (f.ptr l l.units).toNat + 8

/-- The units are described in the file, and they are in the file. -/
def UnitsFit (l : Layout) (f : PmtFile) : Prop :=
  (f.ptr l l.units).toNat + 8 ≤ f.bytes.length ∧
    f.TableFits l l.unitSize (f.ptr l l.units).toNat

theorem readUnits_eq_outside_iff :
    readUnits l f (f.ptr l) = .error .outside ↔ UnitsStray l f := by
  rw [readUnits, UnitsStray]
  by_cases hout : f.ptr l l.units > f.sz
  · rw [if_pos hout]
    exact iff_of_false nofun fun h => Nat.not_lt.mpr h.1 (gt_sz_iff.mp hout)
  · rw [if_neg hout, readTable_eq_outside_iff]
    exact (and_iff_right (Nat.not_lt.mp fun hlt => hout (gt_sz_iff.mpr hlt))).symm

theorem readUnits_eq_ok_iff {units : List UInt32} :
    readUnits l f (f.ptr l) = .ok units ↔ UnitsFit l f ∧ units = (f.itemTables l).units := by
  rw [readUnits, UnitsFit]
  by_cases hout : f.ptr l l.units > f.sz
  · have hlt := gt_sz_iff.mp hout
    rw [if_pos hout]
    exact iff_of_false nofun fun h => absurd h.1.1 (by omega)
  · rw [if_neg hout, readTable_eq_ok_iff]
    rfl

/-- Reading the stars does not leave the file. -/
theorem readStars_cases (l : Layout) (f : PmtFile) (numUnits : UInt32) :
    let result := readStars l f (f.ptr l) (f.itemTables l).unitLowest numUnits
      (f.itemTables l).weaponLowest
    (¬f.StarsFit l numUnits ∧ ∃ rv, result = .error (.error rv)) ∨
      (f.StarsFit l numUnits ∧ result = .ok (f.tables l).stars) := by
  dsimp only
  rw [readStars]
  by_cases hout : f.ptr l l.stars > f.sz ∨ f.ptr l l.starsEnd > f.sz ∨
      f.ptr l l.starsEnd < f.ptr l l.stars
  · refine .inl ⟨fun hfit => ?_, -1, if_pos hout⟩
    rcases hout with hstars | hend | horder
    · exact Nat.not_lt.mpr hfit.stars (gt_sz_iff.mp hstars)
    · exact Nat.not_lt.mpr hfit.starsEnd (gt_sz_iff.mp hend)
    · exact UInt32.not_lt.mpr hfit.order horder
  · rw [if_neg hout]
    simp only [not_or, gt_sz_iff, Nat.not_lt, UInt32.not_lt] at hout
    obtain ⟨hstars, hend, horder⟩ := hout
    have hle : (f.ptr l l.stars).toNat + (f.starMax l).toNat ≤ f.bytes.length := by
      have := UInt32.le_iff_toNat_le.mp horder
      rw [PmtFile.starMax, UInt32.toNat_sub_of_le _ _ horder]
      omega
    by_cases henough : f.starMax l < (f.itemTables l).unitLowest + numUnits -
        (f.itemTables l).weaponLowest
    · exact .inl ⟨fun hfit => UInt32.not_lt.mpr hfit.enough henough, -2, if_pos henough⟩
    · refine .inr ⟨⟨hstars, hend, horder, UInt32.not_lt.mp henough⟩, ?_⟩
      exact (if_neg henough).trans (read_of_le hle)

theorem failWith_eq_outside_iff {α : Type} {rv : Int} {m : Load α} :
    failWith rv m = .error .outside ↔ m = .error .outside := by
  rcases m with (_ | _) | _
  · exact Iff.rfl
  · exact iff_of_false nofun nofun
  · exact iff_of_false nofun nofun

theorem failWith_eq_ok_iff {α : Type} {rv : Int} {m : Load α} {a : α} :
    failWith rv m = .ok a ↔ m = .ok a := by
  rcases m with (_ | _) | _
  · exact Iff.rfl
  · exact iff_of_false nofun nofun
  · exact Iff.rfl

/-! ## Reading a file -/

/-- All tables of weapons are in the file, and so are their descriptions. -/
def WeaponsFit (l : Layout) (f : PmtFile) : Prop :=
  f.WeaponsSane l ∧ ∀ i < f.weaponTypes l, f.WeaponFits l i

/-- A file that is read without an error. -/
structure Accepted (l : Layout) (checked : UInt32 → UInt32) (f : PmtFile) : Prop where
  size : 16 ≤ f.bytes.length
  ptrs : f.PtrsFit l
  weapons : WeaponsFit l f
  guards : f.GuardsFit l
  units : UnitsFit l f
  stars : f.StarsFit l (checked (f.itemTables l).numUnits)

/-- A file that is not left. -/
structure Contained (l : Layout) (f : PmtFile) : Prop where
  size : 16 ≤ f.bytes.length
  weapons : f.PtrsFit l → ¬WeaponsStray l f
  units : f.PtrsFit l → WeaponsFit l f → f.GuardsFit l → ¬UnitsStray l f

variable {checked : UInt32 → UInt32}

/-- The readers after that of the pointers. -/
theorem pmtRead_of_fit (hsize : 16 ≤ f.bytes.length) (hptrs : f.PtrsFit l) :
    pmtRead l checked f = do
      let weapons ← failWith (-10) (readWeapons l f (f.ptr l))
      let guards ← failWith (-11) (readGuards l f (f.ptr l))
      let units ← failWith (-12) (readUnits l f (f.ptr l))
      let t : Tables := ⟨weapons, guards, units, []⟩
      let stars ← failWith (-13)
        (readStars l f (f.ptr l) t.unitLowest (checked t.numUnits) t.weaponLowest)
      return { t with stars } := by
  rw [pmtRead, readPtrTbl_of_le hsize, if_pos hptrs]
  rfl

theorem pmtRead_of_not_fit (hsize : 16 ≤ f.bytes.length) (hptrs : ¬f.PtrsFit l) :
    pmtRead l checked f = .error (.error (-9)) := by
  rw [pmtRead, readPtrTbl_of_le hsize, if_neg hptrs]
  rfl

theorem pmtRead_of_lt (hsize : f.bytes.length < 16) :
    pmtRead l checked f = .error .outside := by
  rw [pmtRead, readPtrTbl_of_lt hsize]
  rfl

theorem pmtRead_eq_ok_iff {t : Tables} :
    pmtRead l checked f = .ok t ↔ Accepted l checked f ∧ t = f.tables l := by
  rcases Nat.lt_or_ge f.bytes.length 16 with hsize | hsize
  · rw [pmtRead_of_lt hsize]
    exact iff_of_false nofun fun h => absurd h.1.size (Nat.not_le.mpr hsize)
  · by_cases hptrs : f.PtrsFit l
    · rw [pmtRead_of_fit hsize hptrs]
      constructor
      · intro h
        obtain ⟨weapons, hweapons, h⟩ := bind_eq_ok_iff.mp h
        obtain ⟨guards, hguards, h⟩ := bind_eq_ok_iff.mp h
        obtain ⟨units, hunits, h⟩ := bind_eq_ok_iff.mp h
        obtain ⟨stars, hstars, h⟩ := bind_eq_ok_iff.mp h
        rw [failWith_eq_ok_iff] at hweapons hguards hunits hstars
        obtain ⟨hwfit, rfl⟩ := readWeapons_eq_ok_iff.mp hweapons
        obtain ⟨hufit, rfl⟩ := readUnits_eq_ok_iff.mp hunits
        rcases readGuards_cases l f with ⟨-, rv, hrun⟩ | ⟨hgfit, hrun⟩
        · cases hrun.symm.trans hguards
        · cases hrun.symm.trans hguards
          rcases readStars_cases l f (checked (f.itemTables l).numUnits) with
            ⟨-, rv, hrun⟩ | ⟨hsfit, hrun⟩
          · cases hrun.symm.trans hstars
          · cases hrun.symm.trans hstars
            exact ⟨⟨hsize, hptrs, hwfit, hgfit, hufit, hsfit⟩, (Except.ok.inj h).symm⟩
      · rintro ⟨h, rfl⟩
        have hweapons := readWeapons_eq_ok_iff.mpr ⟨h.weapons, rfl⟩
        have hunits := readUnits_eq_ok_iff.mpr ⟨h.units, rfl⟩
        have hguards := (readGuards_cases l f).resolve_left fun hn => hn.1 h.guards
        have hstars := (readStars_cases l f (checked (f.itemTables l).numUnits)).resolve_left
          fun hn => hn.1 h.stars
        exact bind_eq_ok_iff.mpr ⟨_, failWith_eq_ok_iff.mpr hweapons,
          bind_eq_ok_iff.mpr ⟨_, failWith_eq_ok_iff.mpr hguards.2,
            bind_eq_ok_iff.mpr ⟨_, failWith_eq_ok_iff.mpr hunits,
              bind_eq_ok_iff.mpr ⟨_, failWith_eq_ok_iff.mpr hstars.2, rfl⟩⟩⟩⟩
    · rw [pmtRead_of_not_fit hsize hptrs]
      exact iff_of_false nofun fun h => hptrs h.1.ptrs

/-- Which files are not left while they are read. -/
theorem pmtRead_ne_outside_iff : pmtRead l checked f ≠ .error .outside ↔ Contained l f := by
  constructor
  · intro h
    have hsize : 16 ≤ f.bytes.length := Nat.not_lt.mp fun hlt => h (pmtRead_of_lt hlt)
    refine ⟨hsize, fun hptrs hstray => h ?_, fun hptrs hwfit hgfit hstray => h ?_⟩
    · rw [pmtRead_of_fit hsize hptrs, readWeapons_eq_outside_iff.mpr hstray]
      rfl
    · have hguards := (readGuards_cases l f).resolve_left fun hn => hn.1 hgfit
      rw [pmtRead_of_fit hsize hptrs, readWeapons_eq_ok_iff.mpr ⟨hwfit, rfl⟩, hguards.2,
        readUnits_eq_outside_iff.mpr hstray]
      rfl
  · intro h hout
    by_cases hptrs : f.PtrsFit l
    · rw [pmtRead_of_fit h.size hptrs] at hout
      rcases bind_eq_error_iff.mp hout with hweapons | ⟨weapons, hweapons, hout⟩
      · exact h.weapons hptrs (readWeapons_eq_outside_iff.mp (failWith_eq_outside_iff.mp hweapons))
      obtain ⟨hwfit, rfl⟩ := readWeapons_eq_ok_iff.mp (failWith_eq_ok_iff.mp hweapons)
      rcases readGuards_cases l f with ⟨-, rv, hrun⟩ | ⟨hgfit, hrun⟩
      · rw [hrun] at hout
        cases hout
      rw [hrun] at hout
      rcases bind_eq_error_iff.mp hout with hguards | ⟨guards, hguards, hout⟩
      · cases hguards
      cases hguards
      rcases bind_eq_error_iff.mp hout with hunits | ⟨units, hunits, hout⟩
      · exact h.units hptrs hwfit hgfit
          (readUnits_eq_outside_iff.mp (failWith_eq_outside_iff.mp hunits))
      obtain ⟨-, rfl⟩ := readUnits_eq_ok_iff.mp (failWith_eq_ok_iff.mp hunits)
      rcases bind_eq_error_iff.mp hout with hstars | ⟨stars, -, hout⟩
      · rcases readStars_cases l f (checked (f.itemTables l).numUnits) with
          ⟨-, rv, hrun⟩ | ⟨-, hrun⟩
        · cases hrun.symm.trans (failWith_eq_outside_iff.mp hstars)
        · cases hrun.symm.trans (failWith_eq_outside_iff.mp hstars)
      · cases hout
    · rw [pmtRead_of_not_fit h.size hptrs] at hout
      cases hout

end Readers

end Sylverant.Ship.PmtData
