/-
# Looking up item data

The tables that a file has are looked up in by the bytes of a code. What a code names is
found where there is such a record. Three kinds of codes leave the tables: that of the type
of weapons after the last one, that of the guards before the first ones, and that of a
record whose place among the stars is the one after the last.
-/

import Mathlib.Order.Nat
import Sylverant.Ship.PmtBounds

namespace Sylverant.Ship.PmtData

open Stopping

section Lookups

variable {t : Tables} {code : UInt32}

/-- The record that a code names. -/
def Tables.record (t : Tables) (code : UInt32) : Option UInt32 :=
  if part code 0 = 0 then t.weapons[part code 1]?.bind (·[part code 2]?)
  else if part code 0 = 1 then
    if part code 1 = 1 ∨ part code 1 = 2 then
      t.guards[part code 1 - 1]?.bind (·[part code 2]?)
    else if part code 1 = 3 then t.units[part code 2]?
    else none
  else none

/-- A code that leads to no entry outside of the tables. -/
structure Tables.Holds (t : Tables) (code : UInt32) : Prop where
  weapon : part code 0 = 0 → part code 1 ≠ t.weapons.length
  guard : part code 0 = 1 → part code 1 ≠ 0
  stars : ∀ index ∈ t.record code, (index - t.weaponLowest).toNat ≠ t.stars.length

variable {α : Type} {as : List α} {n : Nat}

theorem entry_of_lt (h : n < as.length) : entry as n = .ok as[n] := by
  rw [entry, if_pos (Int.natCast_nonneg n), Int.toNat_natCast, List.getElem?_eq_getElem h]

theorem entry_of_le (h : as.length ≤ n) : entry as n = .error .outside := by
  rw [entry, if_pos (Int.natCast_nonneg n), Int.toNat_natCast, List.getElem?_eq_none h]

/-- Reading of a record in one of some tables. -/
theorem entries_cases (tables : List (List UInt32)) (i j : Nat) (rv : Int) :
    let run : Load UInt32 := do
      let table ← entry tables i
      if j ≥ table.length then throw (.error rv) else entry table j
    (tables.length ≤ i ∧ run = .error .outside) ∨
      (i < tables.length ∧ tables[i]?.bind (·[j]?) = none ∧ run = .error (.error rv)) ∨
      (i < tables.length ∧ ∃ index, tables[i]?.bind (·[j]?) = some index ∧ run = .ok index) := by
  rcases Nat.lt_or_ge i tables.length with hi | hi
  · rw [entry_of_lt hi, ok_bind, List.getElem?_eq_getElem hi, Option.bind_some]
    rcases Nat.lt_or_ge j (tables[i]).length with hj | hj
    · rw [if_neg (Nat.not_le.mpr hj), entry_of_lt hj, List.getElem?_eq_getElem hj]
      exact .inr (.inr ⟨hi, _, rfl, rfl⟩)
    · rw [if_pos hj, List.getElem?_eq_none hj]
      exact .inr (.inl ⟨hi, rfl, rfl⟩)
  · rw [entry_of_le hi]
    exact .inl ⟨hi, rfl⟩

/-- Looking the stars of a record up. -/
theorem starsOf_ne_outside_iff {found : Load UInt32} :
    starsOf t found ≠ .error .outside ↔
      found ≠ .error .outside ∧
        ∀ index, found = .ok index → (index - t.weaponLowest).toNat ≠ t.stars.length := by
  rcases found with (_ | rv) | index
  · exact iff_of_false (fun h => h rfl) fun h => h.1 rfl
  · exact iff_of_true nofun ⟨nofun, nofun⟩
  · simp only [starsOf, ne_eq, reduceCtorEq, not_false_eq_true, true_and, Except.ok.injEq,
      forall_eq']
    rcases Nat.lt_trichotomy (index - t.weaponLowest).toNat t.stars.length with hlt | heq | hgt
    · rw [if_neg (Nat.lt_asymm hlt), entry_of_lt hlt]
      exact iff_of_true nofun hlt.ne
    · rw [if_neg (Nat.lt_irrefl _ <| heq ▸ ·), entry_of_le heq.ge]
      exact iff_of_false (fun h => h rfl) fun h => h heq
    · rw [if_pos hgt]
      exact iff_of_true nofun hgt.ne'

/-- A weapon is found where the code names one. -/
theorem pmtLookupWeapon_cases (t : Tables) (code : UInt32) :
    (part code 0 = 0 ∧ part code 1 = t.weapons.length ∧
        pmtLookupWeapon t code = .error .outside) ∨
      ((part code 0 = 0 → part code 1 ≠ t.weapons.length ∧ t.record code = none) ∧
        ∃ rv, pmtLookupWeapon t code = .error (.error rv)) ∨
      (part code 0 = 0 ∧ part code 1 ≠ t.weapons.length ∧
        ∃ index, t.record code = some index ∧ pmtLookupWeapon t code = .ok index) := by
  rw [pmtLookupWeapon, Tables.record]
  by_cases hkind : part code 0 = 0
  · rw [if_neg (not_not.mpr hkind), if_pos hkind]
    by_cases hhigh : part code 1 > t.weapons.length
    · rw [if_pos hhigh, List.getElem?_eq_none hhigh.le]
      exact .inr (.inl ⟨fun _ => ⟨hhigh.ne', rfl⟩, -3, rfl⟩)
    · rw [if_neg hhigh]
      rcases entries_cases t.weapons (part code 1) (part code 2) (-4) with
        ⟨hle, hrun⟩ | ⟨hlt, hnone, hrun⟩ | ⟨hlt, index, hsome, hrun⟩
      · exact .inl ⟨hkind, (Nat.not_lt.mp hhigh).antisymm hle, hrun⟩
      · exact .inr (.inl ⟨fun _ => ⟨hlt.ne, hnone⟩, -4, hrun⟩)
      · exact .inr (.inr ⟨hkind, hlt.ne, index, hsome, hrun⟩)
  · rw [if_pos hkind]
    exact .inr (.inl ⟨fun h => absurd h hkind, -2, rfl⟩)

/-- A guard is found where the code names one. -/
theorem pmtLookupGuard_cases (hguards : t.guards.length = 2) (code : UInt32) :
    (part code 0 = 1 ∧ part code 1 = 0 ∧ pmtLookupGuard t code = .error .outside) ∨
      ((part code 0 = 1 → part code 1 ≠ 0 ∧
          (part code 1 = 1 ∨ part code 1 = 2 → t.record code = none)) ∧
        ∃ rv, pmtLookupGuard t code = .error (.error rv)) ∨
      (part code 0 = 1 ∧ (part code 1 = 1 ∨ part code 1 = 2) ∧
        ∃ index, t.record code = some index ∧ pmtLookupGuard t code = .ok index) := by
  rw [pmtLookupGuard, Tables.record]
  by_cases hkind : part code 0 = 1
  · have hweapon : part code 0 ≠ 0 := by omega
    rw [if_neg (not_not.mpr hkind), if_neg hweapon, if_pos hkind]
    rcases Nat.lt_or_ge 2 (part code 1) with hhigh | hlow
    · refine .inr (.inl ⟨fun _ => ⟨by omega, fun h => by omega⟩, ?_⟩)
      by_cases hunit : part code 1 = 3
      · exact ⟨-3, if_pos hunit⟩
      · rw [if_neg hunit, if_pos (hguards ▸ hhigh)]
        exact ⟨-4, rfl⟩
    · rw [if_neg (by omega), if_neg (by omega)]
      by_cases hzero : part code 1 = 0
      · rw [hzero]
        exact .inl ⟨hkind, rfl, rfl⟩
      · have hsub : (part code 1 : Int) - 1 = ((part code 1 - 1 : Nat) : Int) := by omega
        have hplace : part code 1 = 1 ∨ part code 1 = 2 := by omega
        rw [hsub, if_pos hplace]
        rcases entries_cases t.guards (part code 1 - 1) (part code 2) (-5) with
          ⟨hle, hrun⟩ | ⟨hlt, hnone, hrun⟩ | ⟨hlt, index, hsome, hrun⟩
        · omega
        · exact .inr (.inl ⟨fun _ => ⟨hzero, fun _ => hnone⟩, -5, hrun⟩)
        · exact .inr (.inr ⟨hkind, hplace, index, hsome, hrun⟩)
  · rw [if_pos hkind]
    exact .inr (.inl ⟨fun h => absurd h hkind, -2, rfl⟩)

/-- A unit is found where the code names one. -/
theorem pmtLookupUnit_cases (t : Tables) (code : UInt32) :
    ((part code 0 = 1 → part code 1 = 3 → t.record code = none) ∧
        ∃ rv, pmtLookupUnit t code = .error (.error rv)) ∨
      (part code 0 = 1 ∧ part code 1 = 3 ∧
        ∃ index, t.record code = some index ∧ pmtLookupUnit t code = .ok index) := by
  rw [pmtLookupUnit]
  by_cases hkind : part code 0 ≠ 1 ∨ part code 1 ≠ 3
  · rw [if_pos hkind]
    exact .inl ⟨fun h0 h1 => absurd hkind (by omega), -2, rfl⟩
  · obtain ⟨h0, h1⟩ := not_or.mp hkind
    rw [not_not] at h0 h1
    have hweapon : part code 0 ≠ 0 := by omega
    have hguard : ¬(part code 1 = 1 ∨ part code 1 = 2) := by omega
    rw [if_neg hkind, Tables.record, if_neg hweapon, if_pos h0, if_neg hguard, if_pos h1]
    rcases Nat.lt_or_ge (part code 2) t.units.length with hlt | hge
    · rw [if_neg (Nat.not_le.mpr hlt), entry_of_lt hlt, List.getElem?_eq_getElem hlt]
      exact .inr ⟨h0, h1, _, rfl, rfl⟩
    · rw [if_pos hge, List.getElem?_eq_none hge]
      exact .inl ⟨fun _ _ => rfl, -3, rfl⟩

theorem pmtLookupWeapon_ne_outside_iff (t : Tables) (code : UInt32) :
    pmtLookupWeapon t code ≠ .error .outside ↔
      (part code 0 = 0 → part code 1 ≠ t.weapons.length) := by
  rcases pmtLookupWeapon_cases t code with
    ⟨hkind, htype, hrun⟩ | ⟨hnone, rv, hrun⟩ | ⟨hkind, htype, index, hsome, hrun⟩
  · exact iff_of_false (fun h => h hrun) fun h => h hkind htype
  · exact iff_of_true (fun h => nomatch hrun.symm.trans h) fun hkind => (hnone hkind).1
  · exact iff_of_true (fun h => nomatch hrun.symm.trans h) fun _ => htype

theorem pmtLookupWeapon_eq_ok (hkind : part code 0 = 0) {index : UInt32}
    (h : part code 1 ≠ t.weapons.length) :
    pmtLookupWeapon t code = .ok index ↔ t.record code = some index := by
  rcases pmtLookupWeapon_cases t code with
    ⟨-, htype, -⟩ | ⟨hnone, rv, hrun⟩ | ⟨-, -, index', hsome, hrun⟩
  · exact absurd htype h
  · rw [hrun, (hnone hkind).2]
    exact iff_of_false nofun nofun
  · rw [hrun, hsome, Except.ok.injEq, Option.some.injEq]

theorem pmtLookupGuard_ne_outside_iff (hguards : t.guards.length = 2) (code : UInt32) :
    pmtLookupGuard t code ≠ .error .outside ↔ (part code 0 = 1 → part code 1 ≠ 0) := by
  rcases pmtLookupGuard_cases hguards code with
    ⟨hkind, hzero, hrun⟩ | ⟨hnone, rv, hrun⟩ | ⟨hkind, hplace, index, hsome, hrun⟩
  · exact iff_of_false (fun h => h hrun) fun h => h hkind hzero
  · exact iff_of_true (fun h => nomatch hrun.symm.trans h) fun hkind => (hnone hkind).1
  · exact iff_of_true (fun h => nomatch hrun.symm.trans h) fun _ => by omega

theorem pmtLookupGuard_eq_ok (hguards : t.guards.length = 2) (hkind : part code 0 = 1)
    (hplace : part code 1 = 1 ∨ part code 1 = 2) {index : UInt32} :
    pmtLookupGuard t code = .ok index ↔ t.record code = some index := by
  rcases pmtLookupGuard_cases hguards code with
    ⟨-, hzero, -⟩ | ⟨hnone, rv, hrun⟩ | ⟨-, -, index', hsome, hrun⟩
  · omega
  · rw [hrun, (hnone hkind).2 hplace]
    exact iff_of_false nofun nofun
  · rw [hrun, hsome, Except.ok.injEq, Option.some.injEq]

theorem pmtLookupUnit_ne_outside (t : Tables) (code : UInt32) :
    pmtLookupUnit t code ≠ .error .outside := by
  rcases pmtLookupUnit_cases t code with ⟨-, rv, hrun⟩ | ⟨-, -, index, -, hrun⟩
  · exact fun h => nomatch hrun.symm.trans h
  · exact fun h => nomatch hrun.symm.trans h

theorem pmtLookupUnit_eq_ok (hkind : part code 0 = 1) (hunit : part code 1 = 3)
    {index : UInt32} : pmtLookupUnit t code = .ok index ↔ t.record code = some index := by
  rcases pmtLookupUnit_cases t code with ⟨hnone, rv, hrun⟩ | ⟨-, -, index', hsome, hrun⟩
  · rw [hrun, hnone hkind hunit]
    exact iff_of_false nofun nofun
  · rw [hrun, hsome, Except.ok.injEq, Option.some.injEq]

/-- Looking stars up leaves the tables where a weapon does, or for the place after the last
star. -/
theorem pmtLookupStars_ne_outside_iff (hguards : t.guards.length = 2) (code : UInt32) :
    pmtLookupStars t code ≠ .error .outside ↔
      (part code 0 = 0 → part code 1 ≠ t.weapons.length) ∧
        ∀ index ∈ t.record code, (index - t.weaponLowest).toNat ≠ t.stars.length := by
  rw [pmtLookupStars]
  by_cases hweapon : part code 0 = 0
  · rw [if_pos hweapon, starsOf_ne_outside_iff, pmtLookupWeapon_ne_outside_iff]
    refine and_congr_right fun h => forall_congr' fun index => ?_
    rw [pmtLookupWeapon_eq_ok hweapon (h hweapon), Option.mem_def]
  · rw [if_neg hweapon, and_iff_right fun h => absurd h hweapon]
    by_cases hkind : part code 0 = 1
    · rw [if_pos hkind]
      by_cases hplace : part code 1 = 1 ∨ part code 1 = 2
      · rw [if_pos hplace, starsOf_ne_outside_iff, pmtLookupGuard_ne_outside_iff hguards,
          and_iff_right fun _ => by omega]
        simp only [pmtLookupGuard_eq_ok hguards hkind hplace, Option.mem_def]
      · rw [if_neg hplace]
        by_cases hunit : part code 1 = 3
        · rw [if_pos hunit, starsOf_ne_outside_iff,
            and_iff_right (pmtLookupUnit_ne_outside t code)]
          simp only [pmtLookupUnit_eq_ok hkind hunit, Option.mem_def]
        · rw [if_neg hunit, Tables.record, if_neg hweapon, if_pos hkind, if_neg hplace,
            if_neg hunit]
          exact iff_of_true nofun nofun
    · rw [if_neg hkind, Tables.record, if_neg hweapon, if_neg hkind]
      exact iff_of_true nofun nofun

/-- Which codes are looked up without leaving the tables. -/
theorem lookups_ne_outside_iff (hguards : t.guards.length = 2) (code : UInt32) :
    (pmtLookupWeapon t code ≠ .error .outside ∧ pmtLookupGuard t code ≠ .error .outside ∧
        pmtLookupUnit t code ≠ .error .outside ∧ pmtLookupStars t code ≠ .error .outside) ↔
      t.Holds code := by
  rw [pmtLookupWeapon_ne_outside_iff, pmtLookupGuard_ne_outside_iff hguards,
    pmtLookupStars_ne_outside_iff hguards]
  constructor
  · rintro ⟨hweapon, hguard, -, -, hstars⟩
    exact ⟨hweapon, hguard, hstars⟩
  · intro h
    exact ⟨h.weapon, h.guard, pmtLookupUnit_ne_outside t code, h.weapon, h.stars⟩

end Lookups

end Sylverant.Ship.PmtData
