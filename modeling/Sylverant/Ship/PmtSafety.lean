/-
# When item data is safe

A file is read without leaving it, gives a table with a star for each of its units, and is
looked up in without leaving the tables, if and only if what it says of the places of its
parts, and the code, meet some conditions. Most of them are not checked.
-/

import Sylverant.Ship.PmtLookups

namespace Sylverant.Ship.PmtData

/-- The editions with files of their own. -/
inductive Edition
  | v2
  | gc
  | bb
  deriving DecidableEq

namespace Edition

def layout : Edition → Layout
  | .v2 => v2Layout
  | .gc => gcLayout
  | .bb => bbLayout

/-- The function that reads the file of an edition, where `num_units` is from another one or
0. -/
def read (ed : Edition) (numUnits : UInt32) (f : PmtFile) : Load Tables :=
  match ed with
  | .v2 => pmtReadV2 f
  | .gc => pmtReadGc numUnits f
  | .bb => pmtReadBb numUnits f

/-- The number that the stars are checked with, from that of the units. -/
def checked (ed : Edition) (numUnits own : UInt32) : UInt32 :=
  match ed with
  | .v2 => own
  | .gc | .bb => numUnits

theorem read_eq (ed : Edition) (numUnits : UInt32) (f : PmtFile) :
    ed.read numUnits f = pmtRead ed.layout (ed.checked numUnits) f := by
  cases ed <;> rfl

end Edition

namespace Tables

variable (t : Tables)

/-- `j + unit_lowest - weapon_lowest`, the place of the stars of a unit. -/
def starIndex (j : Nat) : UInt32 := j.toUInt32 + t.unitLowest - t.weaponLowest

/-- The place of the first unit among the stars. -/
def firstUnit : Nat := (t.unitLowest - t.weaponLowest).toNat

variable {t}

theorem toNat_starIndex {j : Nat} (h : t.firstUnit + j < 2 ^ 32) :
    (t.starIndex j).toNat = t.firstUnit + j := by
  have hsum : t.starIndex j = t.unitLowest - t.weaponLowest + j.toUInt32 := by
    rw [starIndex, UInt32.sub_eq_add_neg, UInt32.sub_eq_add_neg, UInt32.add_assoc,
      UInt32.add_comm]
  have hj : j.toUInt32.toNat = j := Nat.mod_eq_of_lt (by omega)
  rw [hsum, UInt32.toNat_add, hj]
  exact Nat.mod_eq_of_lt h

/-- There are stars for all units where those of the first one and the others after it are
in the table. -/
theorem starIndex_lt_iff (hstars : t.stars.length < 2 ^ 31) :
    (∀ j < t.units.length, (t.starIndex j).toNat < t.stars.length) ↔
      t.units = [] ∨ t.firstUnit + t.units.length ≤ t.stars.length := by
  constructor
  · intro h
    rcases Nat.eq_zero_or_pos t.units.length with hzero | hpos
    · exact .inl (List.length_eq_zero_iff.mp hzero)
    · have hfirst := h 0 hpos
      rw [toNat_starIndex (UInt32.toNat_lt _)] at hfirst
      refine .inr (Nat.not_lt.mp fun hlt => ?_)
      -- The unit whose place would be the one after the last star.
      have hunit := h (t.stars.length - t.firstUnit) (by omega)
      rw [toNat_starIndex (by omega)] at hunit
      omega
  · rintro (hnil | hle) j hj
    · rw [hnil] at hj
      exact absurd hj (Nat.not_lt_zero j)
    · rw [toNat_starIndex (by omega)]
      omega

end Tables

/-! ## The editions -/

variable {ed : Edition} {numUnits code : UInt32} {f : PmtFile}

/-- There are stars for the units. Files for versions 1 and 2 are checked with the number of
their units, so that only a sum that wraps is missed. -/
def Edition.StarsReach (ed : Edition) (t : Tables) : Prop :=
  t.units = [] ∨
    match ed with
    | .v2 => t.firstUnit + t.units.length < 2 ^ 32
    | .gc | .bb => t.firstUnit + t.units.length ≤ t.stars.length

/-- Reading a file does not leave it, and comes to tables with stars for all units, in which
a code is looked up without leaving them. -/
structure Safe (ed : Edition) (numUnits : UInt32) (f : PmtFile) (code : UInt32) : Prop where
  file : ed.read numUnits f ≠ .error .outside
  stars : ∀ t, ed.read numUnits f = .ok t →
    ∀ j < t.units.length, (t.starIndex j).toNat < t.stars.length
  lookups : ∀ t, ed.read numUnits f = .ok t →
    pmtLookupWeapon t code ≠ .error .outside ∧ pmtLookupGuard t code ≠ .error .outside ∧
      pmtLookupUnit t code ≠ .error .outside ∧ pmtLookupStars t code ≠ .error .outside

/-- A file that is not left, and if there is no error, has stars for its units and tables
that hold what a code leads to. -/
structure Sound (ed : Edition) (numUnits : UInt32) (f : PmtFile) (code : UInt32) : Prop where
  contained : Contained ed.layout f
  stars : Accepted ed.layout (ed.checked numUnits) f → ed.StarsReach (f.tables ed.layout)
  code : Accepted ed.layout (ed.checked numUnits) f → (f.tables ed.layout).Holds code

theorem length_stars_lt (l : Layout) (f : PmtFile) : (f.tables l).stars.length < 2 ^ 31 :=
  (List.length_take_le' _ _).trans_lt ((List.length_drop ▸ Nat.sub_le _ _).trans_lt f.fits)

/-- A file that is accepted has all of the stars that it says. -/
theorem Accepted.length_stars {l : Layout} {checked : UInt32 → UInt32}
    (h : Accepted l checked f) : (f.tables l).stars.length = (f.starMax l).toNat := by
  have hstars := h.stars
  have hle := UInt32.le_iff_toNat_le.mp hstars.order
  have hend := hstars.starsEnd
  have hmax : (f.starMax l).toNat = (f.ptr l l.starsEnd).toNat - (f.ptr l l.stars).toNat :=
    UInt32.toNat_sub_of_le _ _ hstars.order
  rw [PmtFile.tables, List.length_take, List.length_drop]
  omega

/-- What the check of the stars leaves to be shown. -/
theorem starsReach_iff (h : Accepted ed.layout (ed.checked numUnits) f) :
    ed.StarsReach (f.tables ed.layout) ↔
      (f.tables ed.layout).units = [] ∨
        (f.tables ed.layout).firstUnit + (f.tables ed.layout).units.length ≤
          (f.tables ed.layout).stars.length := by
  have hlen := length_stars_lt ed.layout f
  cases ed with
  | gc => exact Iff.rfl
  | bb => exact Iff.rfl
  | v2 =>
      refine or_congr_right ⟨fun hsum => ?_, fun hle => by omega⟩
      -- The sum that is checked is the place after the last unit.
      have henough := h.stars.enough
      rw [UInt32.add_comm] at henough
      have hplace := UInt32.le_iff_toNat_le.mp henough
      rw [← h.length_stars] at hplace
      exact (Tables.toNat_starIndex hsum).symm.trans_le hplace

theorem length_guards (l : Layout) (f : PmtFile) : (f.tables l).guards.length = 2 := by
  rw [PmtFile.tables, PmtFile.itemTables, List.length_map, List.length_range]

/-- Exactly for such files and codes, nothing is read outside of the file and the tables. -/
theorem safe_iff (ed : Edition) (numUnits : UInt32) (f : PmtFile) (code : UInt32) :
    Safe ed numUnits f code ↔ Sound ed numUnits f code := by
  constructor
  · intro h
    have hcont := pmtRead_ne_outside_iff.mp (ed.read_eq numUnits f ▸ h.file)
    refine ⟨hcont, fun hacc => ?_, fun hacc => ?_⟩
    · have hread := pmtRead_eq_ok_iff.mpr ⟨hacc, rfl⟩
      rw [← ed.read_eq] at hread
      exact (starsReach_iff hacc).mpr
        ((Tables.starIndex_lt_iff (length_stars_lt _ _)).mp (h.stars _ hread))
    · have hread := pmtRead_eq_ok_iff.mpr ⟨hacc, rfl⟩
      rw [← ed.read_eq] at hread
      exact (lookups_ne_outside_iff (length_guards _ _) code).mp (h.lookups _ hread)
  · intro h
    refine ⟨ed.read_eq numUnits f ▸ pmtRead_ne_outside_iff.mpr h.contained, fun t hread => ?_,
      fun t hread => ?_⟩
    · rw [ed.read_eq] at hread
      obtain ⟨hacc, rfl⟩ := pmtRead_eq_ok_iff.mp hread
      exact (Tables.starIndex_lt_iff (length_stars_lt _ _)).mpr
        ((starsReach_iff hacc).mp (h.stars hacc))
    · rw [ed.read_eq] at hread
      obtain ⟨hacc, rfl⟩ := pmtRead_eq_ok_iff.mp hread
      exact (lookups_ne_outside_iff (length_guards _ _) code).mpr (h.code hacc)

/-- A file with two empty tables of guards, and nothing else. -/
def emptyTables : PmtFile where
  bytes := List.replicate 12 0 ++ 16 :: List.replicate 87 0
  fits := by decide

/-- The guards before the first ones are looked up. -/
theorem not_safe :
    ¬∀ (ed : Edition) (numUnits : UInt32) (f : PmtFile) (code : UInt32),
      Safe ed numUnits f code := by
  intro hall
  have hread : Edition.v2.read 0 emptyTables = .ok ⟨[], [[], []], [], []⟩ := by decide
  exact ((hall .v2 0 emptyTables 0x000001).lookups _ hread).2.1 rfl

end Sylverant.Ship.PmtData
