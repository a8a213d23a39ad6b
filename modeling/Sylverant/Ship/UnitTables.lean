/-
# The tables of random units

The functions that build the tables go through the levels from no star to one above the
best unit. A unit has its entry on the level of its stars, and one that can be changed has
its two worse variants on the level below and its two better ones on the level above. The
table that is filled so has for each number of stars the entries of all units up to it at
its start, and the place to end is stored for the level.
-/

import Mathlib.Data.Finset.Lattice.Fold
import Mathlib.Order.Lattice.Nat
import Sylverant.Library.Levels
import Sylverant.Ship.WeightedDrops

namespace Sylverant.Ship.Pt

open Function (update)
open Levels

/-- `pmt_unit_v2_t`, `pmt_unit_gc_t` or `pmt_unit_bb_t`, as far as the tables depend on it. -/
structure PmtUnit where
  stat : UInt16
  pmRange : UInt8

/-- `units`, `unit_lowest`, `weapon_lowest` and `star_table` of a version. The records of the
units are in a file with a size of 32 bits, and the smallest of them have 12 bytes. -/
structure UnitData where
  units : List PmtUnit
  unitLowest : UInt32
  weaponLowest : UInt32
  starTable : UInt32 → UInt8
  fits : 12 * units.length < 2 ^ 32

/-- `units_by_stars`, `units_with_stars` and `k`, with `none` for what is not initialised,
and the indices at which the former has been written. -/
structure UnitTable where
  byStars : Nat → Option UInt64
  withStars : Nat → Option UInt32
  k : UInt32
  written : List Nat

/-- `Item_Knight_Power` -/
def itemKnightPower : UInt32 := 0x000301

/-- `0x00000301 | (j << 16)` -/
def unitCode (j : Nat) : UInt32 := (0x00000301 : UInt32) ||| (j.toUInt32 <<< 16)

/-- The item of a unit with a change. -/
def unitVariant (j : Nat) (pm : Int16) : UInt64 :=
  (unitCode j).toUInt64 ||| (pm.toInt64.toUInt64 <<< 48)

/-- `units_by_stars[k++] = v` -/
def UnitTable.put (t : UnitTable) (v : UInt64) : UnitTable :=
  { t with
    byStars := update t.byStars t.k.toNat (some v)
    k := t.k + 1
    written := t.written ++ [t.k.toNat] }

/-- The change of a unit that is some times its range. -/
def PmtUnit.pm (unit : PmtUnit) (times : Int) : Int16 :=
  Int16.ofInt (times * unit.pmRange.toNat)

/-- Whether there are variants of a unit. -/
def PmtUnit.varied (unit : PmtUnit) (norestrict : Bool) : Bool :=
  unit.pmRange ≠ 0 && (unit.stat ≤ 3 || norestrict)

namespace UnitData

variable (d : UnitData) (norestrict : Bool)

/-- `star_table[j + unit_lowest - weapon_lowest]` -/
def star (j : Nat) : UInt8 := d.starTable (j.toUInt32 + d.unitLowest - d.weaponLowest)

/-- `unit_max_stars` -/
def unitMaxStars : UInt8 :=
  (List.range d.units.length).foldl (fun m i => if d.star i > m then d.star i else m) 0 + 1

/-- The round of the inner loop for a level and a unit. -/
def fillUnit (i : UInt32) (t : UnitTable) (x : PmtUnit × Nat) : UnitTable :=
  let star := (d.star x.2).toUInt32
  -- There is no level below that of a unit without stars: the difference wraps.
  if star - 1 = i ∧ x.1.varied norestrict then
    (t.put (unitVariant x.2 (x.1.pm (-2)))).put (unitVariant x.2 (x.1.pm (-1)))
  else if star = i then
    t.put (unitCode x.2).toUInt64
  else if star + 1 = i ∧ x.1.varied norestrict then
    (t.put (unitVariant x.2 (x.1.pm 2))).put (unitVariant x.2 (x.1.pm 1))
  else
    t

/-- The round of the outer loop for a level. -/
def fillLevel (t : UnitTable) (i : Nat) : UnitTable :=
  let t := d.units.zipIdx.foldl (d.fillUnit norestrict i.toUInt32) t
  { t with withStars := update t.withStars i (some t.k) }

/-- The table with the entry that there always is. -/
def startTable : UnitTable where
  byStars := update (fun _ => none) 0 (some itemKnightPower.toUInt64)
  withStars := update (fun _ => none) 0 (some 1)
  k := 1
  written := [0]

/-- The body that `build_v2_units`, `build_gc_units` and `build_bb_units` share, where there
is enough memory. -/
def buildUnits : UnitTable :=
  (List.range (d.unitMaxStars.toNat + 1)).foldl (d.fillLevel norestrict) startTable

/-- `build_v2_units` -/
def buildV2Units : UnitTable := d.buildUnits norestrict

/-- `build_gc_units` -/
def buildGcUnits : UnitTable := d.buildUnits norestrict

/-- `build_bb_units` -/
def buildBbUnits : UnitTable := d.buildUnits norestrict

/-- `pmt_random_unit_v2`, `pmt_random_unit_gc` and `pmt_random_unit_bb` on a table, for a
random number. There is no result if an entry that is read is not initialised, or for a
division by zero. -/
def randomUnit (t : UnitTable) (max : UInt8) (rnd : UInt32) : Option GenItem := do
  let max := if max > d.unitMaxStars then d.unitMaxStars else max
  let count ← t.withStars max.toNat
  let unit ← (if count = 0 then none else t.byStars (rnd % count).toNat)
  return ⟨unit.toUInt32, (unit >>> 32).toUInt32, 0, 0⟩

/-! ## The entries of the units -/

/-- The entries of a unit on a level. -/
def levelEntries (i : Nat) (x : PmtUnit × Nat) : List UInt64 :=
  let star := (d.star x.2).toNat
  if star = i + 1 ∧ x.1.varied norestrict then
    [unitVariant x.2 (x.1.pm (-2)), unitVariant x.2 (x.1.pm (-1))]
  else if star = i then
    [(unitCode x.2).toUInt64]
  else if star + 1 = i ∧ x.1.varied norestrict then
    [unitVariant x.2 (x.1.pm 2), unitVariant x.2 (x.1.pm 1)]
  else
    []

/-- The entries of a unit up to a number of stars. -/
def unitEntries (s : Nat) (x : PmtUnit × Nat) : List UInt64 :=
  let star := (d.star x.2).toNat
  (if x.1.varied norestrict ∧ 1 ≤ star ∧ star - 1 ≤ s then
    [unitVariant x.2 (x.1.pm (-2)), unitVariant x.2 (x.1.pm (-1))] else []) ++
  (if star ≤ s then [(unitCode x.2).toUInt64] else []) ++
  (if x.1.varied norestrict ∧ star + 1 ≤ s then
    [unitVariant x.2 (x.1.pm 2), unitVariant x.2 (x.1.pm 1)] else [])

/-- The stars of the best unit. -/
def maxStar : Nat := (Finset.range d.units.length).sup fun j => (d.star j).toNat

variable {d norestrict} {t : UnitTable} {es : List UInt64}

theorem unitEntries_zero (x : PmtUnit × Nat) :
    d.unitEntries norestrict 0 x = d.levelEntries norestrict 0 x := by
  simp only [unitEntries, levelEntries]
  generalize (d.star x.2).toNat = star
  cases x.1.varied norestrict
  · simp only [Bool.false_eq_true, false_and, and_false, if_false]
    split_ifs <;> first | omega | simp
  · simp only [true_and, and_true]
    split_ifs <;> first | contradiction | omega | simp

theorem unitEntries_succ (s : Nat) (x : PmtUnit × Nat) :
    d.unitEntries norestrict (s + 1) x =
      d.unitEntries norestrict s x ++ d.levelEntries norestrict (s + 1) x := by
  simp only [unitEntries, levelEntries]
  generalize (d.star x.2).toNat = star
  cases x.1.varied norestrict
  · simp only [Bool.false_eq_true, false_and, and_false, if_false]
    split_ifs <;> first | omega | simp
  · simp only [true_and, and_true]
    split_ifs <;> first | omega | simp

/-- A unit has on the levels together what it has up to the last of them. -/
theorem own_levelEntries (s : Nat) (x : PmtUnit × Nat) :
    own (d.levelEntries norestrict) (s + 1) x = d.unitEntries norestrict s x := by
  induction s with
  | zero => rw [own_succ, own, unitEntries_zero]; rfl
  | succ s ih => rw [own_succ, ih, unitEntries_succ]

theorem length_unitEntries_le (s : Nat) (x : PmtUnit × Nat) :
    (d.unitEntries norestrict s x).length ≤ 5 := by
  simp only [unitEntries, List.length_append]
  split_ifs <;> simp

end UnitData

/-! ## What the loops keep -/

namespace UnitTable

/-- The entries that have been written are those of a list, in its order. -/
structure Holds (t : UnitTable) (es : List UInt64) : Prop where
  k : t.k.toNat = es.length
  byStars : ∀ m, t.byStars m = es[m]?
  written : t.written = List.range es.length

variable {t : UnitTable} {es : List UInt64}

theorem Holds.put (h : t.Holds es) (v : UInt64) (hroom : es.length + 1 < 2 ^ 32) :
    (t.put v).Holds (es ++ [v]) where
  k := by
    have hk := h.k
    simp only [UnitTable.put, UInt32.toNat_add, UInt32.reduceToNat, List.length_append,
      List.length_singleton]
    omega
  byStars m := by
    simp only [UnitTable.put, h.k]
    rcases lt_trichotomy m es.length with hlt | rfl | hgt
    · rw [Function.update_of_ne hlt.ne, h.byStars, List.getElem?_append_left hlt]
    · rw [Function.update_self, List.getElem?_concat_length]
    · have hout : (es ++ [v]).length ≤ m := by
        rw [List.length_append, List.length_singleton]
        exact hgt
      rw [Function.update_of_ne hgt.ne', h.byStars, List.getElem?_eq_none hgt.le,
        List.getElem?_eq_none hout]
  written := by
    rw [List.length_append, List.length_singleton, List.range_succ, ← h.written, ← h.k]
    rfl

end UnitTable

namespace UnitData

variable (d : UnitData) (norestrict : Bool) {t : UnitTable} {es : List UInt64} {i : Nat}

/-- A round puts the entries of the unit on the level. -/
theorem holds_fillUnit (h : t.Holds es) (hi : i < 256) (x : PmtUnit × Nat)
    (hroom : es.length + (d.levelEntries norestrict i x).length < 2 ^ 32) :
    (d.fillUnit norestrict i.toUInt32 t x).Holds (es ++ d.levelEntries norestrict i x) := by
  have hi32 : i.toUInt32.toNat = i := Nat.mod_eq_of_lt (by omega)
  have hbyte : (d.star x.2).toNat < 256 := (d.star x.2).toNat_lt
  have hminus : (d.star x.2).toUInt32 - 1 = i.toUInt32 ↔ (d.star x.2).toNat = i + 1 := by
    rw [← UInt32.toNat_inj, hi32, UInt32.toNat_sub, UInt8.toNat_toUInt32]
    simp only [UInt32.reduceToNat]
    omega
  have hplain : (d.star x.2).toUInt32 = i.toUInt32 ↔ (d.star x.2).toNat = i := by
    rw [← UInt32.toNat_inj, hi32, UInt8.toNat_toUInt32]
  have hplus : (d.star x.2).toUInt32 + 1 = i.toUInt32 ↔ (d.star x.2).toNat + 1 = i := by
    rw [← UInt32.toNat_inj, hi32, UInt32.toNat_add, UInt8.toNat_toUInt32]
    simp only [UInt32.reduceToNat]
    omega
  simp only [fillUnit, levelEntries, hminus, hplain, hplus] at hroom ⊢
  split_ifs at hroom ⊢
  · simpa using (h.put _ (by simp at hroom; omega)).put _ (by simp at hroom ⊢; omega)
  · exact h.put _ hroom
  · simpa using (h.put _ (by simp at hroom; omega)).put _ (by simp at hroom ⊢; omega)
  · simpa using h

theorem holds_foldl_fillUnit (h : t.Holds es) (hi : i < 256) (xs : List (PmtUnit × Nat))
    (hroom : es.length + (xs.flatMap (d.levelEntries norestrict i)).length < 2 ^ 32) :
    (xs.foldl (d.fillUnit norestrict i.toUInt32) t).Holds
      (es ++ xs.flatMap (d.levelEntries norestrict i)) := by
  induction xs generalizing t es with
  | nil => simpa using h
  | cons x xs ih =>
      rw [List.flatMap_cons, List.length_append, ← Nat.add_assoc] at hroom
      have hx := holds_fillUnit d norestrict h hi x (by omega)
      rw [List.flatMap_cons, ← List.append_assoc]
      exact ih hx (by rwa [List.length_append])

theorem withStars_foldl_fillUnit (i : UInt32) (xs : List (PmtUnit × Nat)) :
    (xs.foldl (d.fillUnit norestrict i) t).withStars = t.withStars := by
  induction xs generalizing t with
  | nil => rfl
  | cons x xs ih =>
      rw [List.foldl_cons, ih, fillUnit]
      split_ifs <;> rfl

theorem fillLevel_withStars_of_ne {m s : Nat} (h : s ≠ m) :
    (d.fillLevel norestrict t m).withStars s = t.withStars s := by
  rw [← withStars_foldl_fillUnit d norestrict (t := t) m.toUInt32 d.units.zipIdx]
  exact Function.update_of_ne h _ _

/-- What the table has before a level: the entry that there always is, and those of the
levels below. -/
def tableThrough (m : Nat) : List UInt64 :=
  itemKnightPower.toUInt64 :: through (d.levelEntries norestrict) d.units.zipIdx m

theorem length_tableThrough_le (m : Nat) :
    (d.tableThrough norestrict m).length ≤ 5 * d.units.length + 1 := by
  have hown : ∀ x ∈ d.units.zipIdx, (own (d.levelEntries norestrict) m x).length ≤ 5 := by
    intro x _
    cases m with
    | zero => exact Nat.zero_le 5
    | succ m =>
        rw [own_levelEntries]
        exact length_unitEntries_le m x
  have hle := length_through_le hown
  rw [List.length_zipIdx] at hle
  rw [tableThrough, List.length_cons]
  omega

theorem tableThrough_succ (m : Nat) :
    d.tableThrough norestrict (m + 1) =
      d.tableThrough norestrict m ++ d.units.zipIdx.flatMap (d.levelEntries norestrict m) := by
  rw [tableThrough, through_succ]
  rfl

/-- The loop over the levels below a number fills the table for these levels, and stores
where each of them ends. -/
theorem holds_levels {m : Nat} (hm : m ≤ 256) :
    let t := (List.range m).foldl (d.fillLevel norestrict) startTable
    t.Holds (d.tableThrough norestrict m) ∧
      ∀ s < m, ∃ count, t.withStars s = some count ∧
        count.toNat = (d.tableThrough norestrict (s + 1)).length := by
  induction m with
  | zero =>
      refine ⟨⟨rfl, fun k => ?_, rfl⟩, fun s hs => absurd hs (Nat.not_lt_zero s)⟩
      cases k <;> rfl
  | succ m ih =>
      obtain ⟨htable, hcounts⟩ := ih (by omega)
      have hlen := d.length_tableThrough_le norestrict (m + 1)
      have hfits := d.fits
      have hroom : (d.tableThrough norestrict (m + 1)).length < 2 ^ 32 := by omega
      rw [tableThrough_succ, List.length_append] at hroom
      have hfull := holds_foldl_fillUnit d norestrict htable (by omega) d.units.zipIdx hroom
      rw [← tableThrough_succ] at hfull
      simp only [List.range_succ, List.foldl_append, List.foldl_cons, List.foldl_nil]
      refine ⟨⟨hfull.k, hfull.byStars, hfull.written⟩, fun s hs => ?_⟩
      rcases Nat.lt_succ_iff_lt_or_eq.mp hs with hlt | rfl
      · obtain ⟨count, hcount, hlast⟩ := hcounts s hlt
        exact ⟨count, by rw [fillLevel_withStars_of_ne d norestrict hlt.ne, hcount], hlast⟩
      · exact ⟨_, Function.update_self _ _ _, hfull.k⟩

/-! ## The best unit -/

/-- The last level is the one above the best unit. -/
theorem toNat_unitMaxStars (hstars : ∀ j < d.units.length, d.star j < 255) :
    d.unitMaxStars.toNat = d.maxStar + 1 := by
  have hrun : ∀ n, ((List.range n).foldl
      (fun m i => if d.star i > m then d.star i else m) 0).toNat =
        (Finset.range n).sup fun j => (d.star j).toNat := by
    intro n
    induction n with
    | zero => rfl
    | succ n ih =>
        rw [Finset.range_add_one, Finset.sup_insert, ← ih, List.range_succ, List.foldl_append,
          List.foldl_cons, List.foldl_nil]
        split_ifs with hgt
        · exact (sup_eq_left.mpr (UInt8.lt_iff_toNat_lt.mp hgt).le).symm
        · exact (sup_eq_right.mpr (UInt8.le_iff_toNat_le.mp (UInt8.not_lt.mp hgt))).symm
  have hmax : d.maxStar < 255 := by
    refine (Finset.sup_lt_iff (by decide)).mpr fun j hj => ?_
    exact UInt8.lt_iff_toNat_lt.mp (hstars j (Finset.mem_range.mp hj))
  rw [unitMaxStars, UInt8.toNat_add, hrun, ← maxStar]
  exact Nat.mod_eq_of_lt (Nat.succ_lt_succ hmax)

/-- What a table has for a level stays there. -/
theorem tableThrough_of_le {m n : Nat} (h : m ≤ n) :
    d.tableThrough norestrict m <+: d.tableThrough norestrict n :=
  (List.prefix_cons_inj _).mpr (through_of_le _ _ h)

/-- Up to the order, the entries for a level are those of the units up to it. -/
theorem tableThrough_perm (s : Nat) :
    (d.tableThrough norestrict (s + 1)).Perm
      (itemKnightPower.toUInt64 :: d.units.zipIdx.flatMap (d.unitEntries norestrict s)) := by
  rw [tableThrough, ← List.flatMap_congr fun x _ => own_levelEntries s x]
  exact (through_perm _ _ _).cons _

/-- A level that has been filled has its entries at the start of the table. -/
theorem buildUnits_level (hstars : ∀ j < d.units.length, d.star j < 255) {s : Nat}
    (hs : s ≤ d.maxStar + 1) :
    ∃ count, (d.buildUnits norestrict).withStars s = some count ∧
      (d.tableThrough norestrict (s + 1)).length = count.toNat ∧
        ∀ k < count.toNat,
          (d.buildUnits norestrict).byStars k = (d.tableThrough norestrict (s + 1))[k]? := by
  have hmax := toNat_unitMaxStars d hstars
  have hbyte := d.unitMaxStars.toNat_lt
  have hlevels : d.unitMaxStars.toNat + 1 ≤ 256 := by omega
  obtain ⟨htable, hcounts⟩ := d.holds_levels norestrict hlevels
  obtain ⟨count, hcount, hlast⟩ := hcounts s (by omega)
  refine ⟨count, hcount, hlast.symm, fun k hk => ?_⟩
  have hprefix := d.tableThrough_of_le norestrict (m := s + 1) (n := d.unitMaxStars.toNat + 1)
    (by omega)
  have hk : k < (d.tableThrough norestrict (s + 1)).length := by omega
  rw [buildUnits, htable.byStars, List.prefix_iff_getElem?.mp hprefix k hk,
    List.getElem?_eq_getElem hk]

/-- A table stays within the entries that are allocated for it. -/
theorem buildUnits_written {k : Nat} (hk : k ∈ (d.buildUnits norestrict).written) :
    k < 5 * d.units.length + 1 := by
  have hbyte := d.unitMaxStars.toNat_lt
  obtain ⟨htable, -⟩ := d.holds_levels norestrict (m := d.unitMaxStars.toNat + 1) (by omega)
  rw [buildUnits, htable.written, List.mem_range] at hk
  exact hk.trans_le (d.length_tableThrough_le norestrict _)

/-- A unit is only chosen among the entries of a level. -/
theorem isSome_randomUnit (hstars : ∀ j < d.units.length, d.star j < 255) (max : UInt8)
    (rnd : UInt32) : (d.randomUnit (d.buildUnits norestrict) max rnd).isSome := by
  have hmax := toNat_unitMaxStars d hstars
  have hlevel : (if max > d.unitMaxStars then d.unitMaxStars else max).toNat ≤
      d.maxStar + 1 := by
    split_ifs with hgt
    · exact hmax.le
    · exact hmax ▸ UInt8.le_iff_toNat_le.mp (UInt8.not_lt.mp hgt)
  obtain ⟨count, hcount, hlen, hentries⟩ := d.buildUnits_level norestrict hstars hlevel
  -- The entry that there always is makes a division by the number possible.
  have hpos : 0 < count.toNat := hlen ▸ Nat.succ_pos _
  have hne : count ≠ 0 := fun hzero => hpos.ne' (congrArg UInt32.toNat hzero)
  have hk : (rnd % count).toNat < count.toNat := by
    rw [UInt32.toNat_mod]
    exact Nat.mod_lt _ hpos
  have hin : (rnd % count).toNat < (d.tableThrough norestrict (_ + 1)).length := hlen ▸ hk
  simp only [randomUnit, hcount, Option.bind_eq_bind, Option.bind_some, if_neg hne, hentries _ hk,
    List.getElem?_eq_getElem hin, Option.pure_def, Option.isSome_some]

/-- What is looked up for units is in a table. -/
structure TableOf (t : UnitTable) (pmt : Pmt) : Prop where
  unitMaxStars : pmt.unitMaxStars = d.unitMaxStars
  unitsWithStars : ∀ m, ∀ count ∈ t.withStars m.toNat, pmt.unitsWithStars m = count
  unitsByStars : ∀ k, ∀ v ∈ t.byStars k.toNat, pmt.unitsByStars k = v

/-- The generators for drops choose their units in the table. -/
theorem run_pmtRandomUnit {pmt : Pmt} {max : UInt8} {s : GenState} {item : GenItem}
    (hpmt : d.TableOf t pmt) (hitem : d.randomUnit t max (s.rng 0) = some item) :
    pmtRandomUnit pmt max s = .ok item (s.drawn 1) := by
  obtain ⟨count, hcount, hrest⟩ := Option.bind_eq_some_iff.mp hitem
  obtain ⟨unit, hread, hret⟩ := Option.bind_eq_some_iff.mp hrest
  obtain ⟨-, hunit⟩ := Option.ite_none_left_eq_some.mp hread
  obtain rfl := Option.some.inj hret
  have hlook := hpmt.unitsWithStars _ _ hcount
  rw [pmtRandomUnit, run_draw_bind]
  simp only [hpmt.unitMaxStars, hlook, hpmt.unitsByStars _ _ hunit]
  rfl

/-- Within the levels, the first entries of a table are those of the units up to it. No
entry is outside of the table, and only entries that there are can be chosen. -/
theorem buildUnits_complete (build : UnitData → Bool → UnitTable)
    (hbuild : build ∈ [buildV2Units, buildGcUnits, buildBbUnits])
    (hstars : ∀ j < d.units.length, d.star j < 255) :
    (∀ s ≤ d.maxStar + 1, ∃ count, ∃ entries : List UInt64,
      (build d norestrict).withStars s = some count ∧ entries.length = count.toNat ∧
        (∀ k < count.toNat, (build d norestrict).byStars k = entries[k]?) ∧
        entries.Perm (itemKnightPower.toUInt64 ::
          d.units.zipIdx.flatMap (d.unitEntries norestrict s))) ∧
    (∀ k ∈ (build d norestrict).written, k < 5 * d.units.length + 1) ∧
    ∀ max rnd, (d.randomUnit (build d norestrict) max rnd).isSome := by
  have hsame : build d norestrict = d.buildUnits norestrict := by
    simp only [List.mem_cons, List.not_mem_nil, or_false] at hbuild
    rcases hbuild with rfl | rfl | rfl <;> rfl
  rw [hsame]
  refine ⟨fun s hs => ?_, fun k hk => ?_, fun max rnd => ?_⟩
  · obtain ⟨count, hcount, hlen, hentries⟩ := d.buildUnits_level norestrict hstars hs
    exact ⟨count, _, hcount, hlen, hentries, d.tableThrough_perm norestrict s⟩
  · exact d.buildUnits_written norestrict hk
  · exact d.isSome_randomUnit norestrict hstars max rnd

/-- Two units, of which the second can be changed. -/
def twoUnits : UnitData where
  units := [⟨4, 1⟩, ⟨2, 1⟩]
  unitLowest := 7
  weaponLowest := 5
  starTable i := if i = 3 then 2 else 0
  fits := by decide

theorem buildUnits_complete_twoUnits :
    ((∀ s ≤ twoUnits.maxStar + 1, ∃ count, ∃ entries : List UInt64,
      (buildGcUnits twoUnits false).withStars s = some count ∧
        entries.length = count.toNat ∧
          (∀ k < count.toNat, (buildGcUnits twoUnits false).byStars k = entries[k]?) ∧
            entries.Perm (itemKnightPower.toUInt64 ::
              twoUnits.units.zipIdx.flatMap (twoUnits.unitEntries false s))) ∧
      (∀ k ∈ (buildGcUnits twoUnits false).written, k < 5 * twoUnits.units.length + 1) ∧
      ∀ max rnd, (twoUnits.randomUnit (buildGcUnits twoUnits false) max rnd).isSome) ∧
    (buildGcUnits twoUnits false).withStars 1 = some 4 :=
  ⟨buildUnits_complete twoUnits false buildGcUnits (by simp) (by decide), by decide⟩

end UnitData

end Sylverant.Ship.Pt
