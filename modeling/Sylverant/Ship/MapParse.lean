/-
# The enemies of a map

A map lists its enemies by what they are, and one entry of the list may stand for many
enemies in the game: a nest with what comes out of it, an enemy with parts or forms, or
an enemy with clones. `parse_map` writes all of them to an array with room for 0xB50.
-/

import Mathlib.Logic.Function.Basic
import Mathlib.Tactic.Common
import Sylverant.Ship.MapData

namespace Sylverant.Ship

open Function (update)

/-- `map_enemy_t`, with what is read of it. -/
structure MapEnemy where
  base : UInt32
  numClones : UInt16
  /-- `reserved[10]` -/
  reserved10 : UInt32
  skin : UInt32

/-- The lowest bit of the skin. -/
def MapEnemy.odd (en : MapEnemy) : UInt32 := en.skin &&& 0x01

/-- The skin of an enemy of which there are three. -/
def MapEnemy.third (en : MapEnemy) : UInt32 := en.skin % 3

/-- Whether the enemy is marked as the stronger one of two. -/
def MapEnemy.marked (en : MapEnemy) : UInt32 := if en.reserved10 &&& 0x800000 ≠ 0 then 1 else 0

/-- The array `gen`, and how many enemies it has. -/
structure Parsed where
  gen : Nat → GameEnemy
  count : Nat

/-- The number of entries in the array `gen`. -/
def genSize : Nat := 0xB50

/-- The array after it was cleared. -/
def Parsed.empty : Parsed where
  gen _ := { bpEntry := 0, rtIndex := 0 }
  count := 0

namespace Parsed

variable (s : Parsed)

/-- Assign to the two fields of an enemy that come from the map. -/
def set (i : Nat) (bp : UInt32) (rt : UInt8) : Parsed :=
  { s with gen := update s.gen i { s.gen i with bpEntry := bp, rtIndex := rt } }

/-- Assign to the fields of the enemy that `count` is at. -/
def here (bp : UInt32) (rt : UInt8) : Parsed := s.set s.count bp rt

/-- Go on to the next enemy. -/
def skip (n : Nat) : Parsed := { s with count := s.count + n }

/-- Enemies of one kind that come before the one that the entry is about. -/
def before (s : Parsed) (bp : UInt32) (rt : UInt8) : Nat → Parsed
  | 0 => s
  | n + 1 => ((s.here bp rt).skip 1).before bp rt n

/-- Enemies of one kind that come with the one that the entry is about. -/
def after (s : Parsed) (bp : UInt32) (rt : UInt8) : Nat → Parsed
  | 0 => s
  | n + 1 => ((s.skip 1).here bp rt).after bp rt n

/-- The loop that makes clones of the enemy that `count` is at. -/
def clone (s : Parsed) : Nat → Parsed
  | 0 => s
  | n + 1 =>
      ((s.set (s.count + 1) (s.gen s.count).bpEntry (s.gen s.count).rtIndex).skip 1).clone n

/-- The `switch` of `parse_map`, with the number of clones that are still to be made. -/
def parseBase (en : MapEnemy) (ep : Nat) (alt : Bool) : Parsed × Nat :=
  let clones := en.numClones.toNat
  let odd := en.odd
  let third := en.third
  let marked := en.marked
  match en.base with
  -- Hildebear & Hildetorr
  | 0x0040 => (s.here (0x49 + odd) (0x01 + odd.toUInt8), clones)
  -- Rappies
  | 0x0041 =>
      if ep = 3 then
        if alt then (s.here (0x17 + odd) (0x11 + odd.toUInt8), clones)
        else (s.here (0x05 + odd) (0x11 + odd.toUInt8), clones)
      else if odd ≠ 0 then
        if ep = 1 then (s.here 0x19 0x06, clones) else (s.here 0x19 0xFF, clones)
      else (s.here 0x18 0x05, clones)
  -- Monest + 30 Mothmants
  | 0x0042 => ((s.here 0x01 0x04).after 0x00 0x03 30, clones)
  -- Savage Wolf & Barbarous Wolf
  | 0x0043 => (s.here (0x02 + marked) (0x07 + marked.toUInt8), clones)
  -- Booma family
  | 0x0044 => (s.here (0x4B + third) (0x09 + third.toUInt8), clones)
  -- Grass Assassin
  | 0x0060 => (s.here 0x4E 0x0C, clones)
  -- Del Lily, Poison Lily, Nar Lily
  | 0x0061 =>
      if ep = 2 ∧ alt then (s.here 0x25 0x53, clones)
      else (s.here (0x04 + marked) (0x0D + marked.toUInt8), clones)
  -- Nano Dragon
  | 0x0062 => (s.here 0x1A 0x0F, clones)
  -- Shark Family
  | 0x0063 => (s.here (0x4F + third) (0x10 + third.toUInt8), clones)
  -- Slime + 4 clones
  | 0x0064 => ((s.here (0x30 - marked) (0x13 + marked.toUInt8)).after 0x30 0x13 4, clones)
  -- Pan Arms, Migium, Hidoom
  | 0x0065 => (((s.here 0x31 0x15).after 0x32 0x16 1).after 0x33 0x17 1, clones)
  -- Dubchic & Gilchic
  | 0x0080 => (s.here (0x1B + odd) ((0x18 + odd.toUInt8) <<< odd.toUInt8), clones)
  -- Garanz
  | 0x0081 => (s.here 0x1D 0x19, clones)
  -- Sinow Beat & Sinow Gold
  | 0x0082 =>
      let s := if marked ≠ 0 then s.here 0x13 0x1B else s.here 0x06 0x1A
      (s, if clones = 0 then 4 else clones)
  -- Canadine
  | 0x0083 => (s.here 0x07 0x1C, clones)
  -- Canadine Group
  | 0x0084 => ((s.here 0x09 0x1D).after 0x08 0x1C 8, clones)
  -- Delsaber
  | 0x00A0 => (s.here 0x52 0x1E, clones)
  -- Chaos Sorcerer, Bee L, Bee R
  | 0x00A1 => (((s.here 0x0A 0x1F).after 0x0B 0x00 1).after 0x0C 0x00 1, clones)
  -- Dark Gunner
  | 0x00A2 => (s.here 0x1E 0x22, clones)
  -- Chaos Bringer
  | 0x00A4 => (s.here 0x0D 0x24, clones)
  -- Dark Belra
  | 0x00A5 => (s.here 0x0E 0x25, clones)
  -- Dimenian Family
  | 0x00A6 => (s.here (0x53 + third) (0x29 + third.toUInt8), clones)
  -- Bulclaw + 4 Claws
  | 0x00A7 => ((s.here 0x1F 0x28).after 0x20 0x26 4, clones)
  -- Claw
  | 0x00A8 => (s.here 0x20 0x26, clones)
  -- Dragon or Gal Gryphon
  | 0x00C0 => if ep = 1 then (s.here 0x12 0x2C, clones) else (s.here 0x1E 0x4D, clones)
  -- De Rol Le
  | 0x00C1 => (s.here 0x0F 0x2D, clones)
  -- Vol Opt (form 2)
  | 0x00C5 => (s.here 0x25 0x2E, clones)
  -- Dark Falz (3 forms, backwards) + 510 Darvants
  | 0x00C8 =>
      ((((s.before 0x35 0 510).before 0x38 0x2F 1).before 0x37 0x2F 1).here 0x36 0x2F, clones)
  -- Olga Flow
  | 0x00CA => ((s.here 0x2C 0x4E).skip 512, clones)
  -- Barba Ray
  | 0x00CB => ((s.here 0x0F 0x49).skip 47, clones)
  -- Gol Dragon
  | 0x00CC => ((s.here 0x12 0x4C).skip 5, clones)
  -- Sinow Berill & Spigell, with 4 clones which are never used
  | 0x00D4 =>
      let s := if en.skin ≥ 0x01 then s.here 0x13 0x3F else s.here 0x06 0x3E
      (s.skip 4, clones)
  -- Merillia & Meriltas
  | 0x00D5 => (s.here (0x4B + odd) (0x34 + odd.toUInt8), clones)
  -- Mericus, Merikle, or Mericarol
  | 0x00D6 =>
      (s.here (if third ≠ 0 then 0x44 + third else 0x3A) (0x38 + third.toUInt8), clones)
  -- Ul Gibbon & Zol Gibbon
  | 0x00D7 => (s.here (0x3B + odd) (0x3B + odd.toUInt8), clones)
  -- Gibbles
  | 0x00D8 => (s.here 0x3D 0x3D, clones)
  -- Gee
  | 0x00D9 => (s.here 0x07 0x36, clones)
  -- Gi Gue
  | 0x00DA => (s.here 0x1A 0x37, clones)
  -- Deldepth
  | 0x00DB => (s.here 0x30 0x47, clones)
  -- Delbiter
  | 0x00DC => (s.here 0x0D 0x48, clones)
  -- Dolmolm & Dolmdarl
  | 0x00DD => (s.here (0x4F + odd) (0x40 + odd.toUInt8), clones)
  -- Morfos
  | 0x00DE => (s.here 0x41 0x42, clones)
  -- Recobox & Recons, which are not counted twice
  | 0x00DF => ((s.here 0x41 0x43).after 0x42 0x44 clones, 0)
  -- Epsilon, Sinow Zoa & Zele
  | 0x00E0 =>
      if ep = 2 ∧ alt then ((s.here 0x23 0x54).skip 4, clones)
      else (s.here (0x43 + odd) (0x45 + odd.toUInt8), clones)
  -- Ill Gill
  | 0x00E1 => (s.here 0x26 0x52, clones)
  -- Astark
  | 0x0110 => (s.here 0x09 0x01, clones)
  -- Satellite Lizard & Yowie
  | 0x0111 =>
      (s.here (if alt then 0x0D + marked + 0x10 else 0x0D + marked) (0x02 + marked.toUInt8), clones)
  -- Merissa A/AA
  | 0x0112 => (s.here (0x19 + odd) (0x04 + odd.toUInt8), clones)
  -- Girtablulu
  | 0x0113 => (s.here 0x1F 0x06, clones)
  -- Zu & Pazuzu
  | 0x0114 =>
      (s.here (if alt then 0x07 + odd + 0x14 else 0x07 + odd) (7 + odd.toUInt8), clones)
  -- Boota Family
  | 0x0115 =>
      (s.here (if en.skin &&& 0x02 ≠ 0 then 0x03 else 0x00 + third) (0x09 + third.toUInt8), clones)
  -- Dorphon & Eclair
  | 0x0116 => (s.here (0x0F + odd) (0x0C + odd.toUInt8), clones)
  -- Goran Family
  | 0x0117 =>
      let rt : UInt8 :=
        if en.skin &&& 0x02 ≠ 0 then 0x0F else if en.skin &&& 0x01 ≠ 0 then 0x10 else 0x0E
      (s.here (0x11 + third) rt, clones)
  -- Saint Million, Shambertin, & Kondrieu
  | 0x0119 => (s.here 0x22 (if marked ≠ 0 then 0x15 else 0x13 + odd.toUInt8), clones)
  -- Dubwitch, Death Gunner, Vol Opt (form 1), and those that are not known
  | _ => (s, clones)

/-- A round of the loop of `parse_map`. -/
def parseEnemy (en : MapEnemy) (ep : Nat) (alt : Bool) : Parsed :=
  let r := s.parseBase en ep alt
  (r.1.clone r.2).skip 1

end Parsed

/-- The loop of `parse_map`. -/
def parseEnemies (ep : Nat) (alt : Bool) : List MapEnemy → Parsed → Parsed
  | [], s => s
  | en :: ens, s => parseEnemies ep alt ens (s.parseEnemy en ep alt)

/-- The enemies that `parse_map` makes of a list. Where there are more than fit in the
array, the source writes behind it. -/
def parseMap (ens : List MapEnemy) (ep : Nat) (alt : Bool) : List GameEnemy :=
  let s := parseEnemies ep alt ens Parsed.empty
  (List.range s.count).map s.gen

/-! ## How many enemies there are -/

namespace Parsed

variable (s : Parsed) (bp : UInt32) (rt : UInt8)

@[simp] theorem count_here : (s.here bp rt).count = s.count := rfl

@[simp] theorem count_skip (n : Nat) : (s.skip n).count = s.count + n := rfl

@[simp] theorem count_before (n : Nat) : (s.before bp rt n).count = s.count + n := by
  induction n generalizing s with
  | zero => rfl
  | succ n ih =>
      rw [before, ih, count_skip, count_here]
      omega

@[simp] theorem count_after (n : Nat) : (s.after bp rt n).count = s.count + n := by
  induction n generalizing s with
  | zero => rfl
  | succ n ih =>
      rw [after, ih, count_here, count_skip]
      omega

@[simp] theorem count_clone (n : Nat) : (s.clone n).count = s.count + n := by
  induction n generalizing s with
  | zero => rfl
  | succ n ih =>
      rw [clone, ih, count_skip]
      exact Nat.add_right_comm s.count 1 n

/-- No entry of the list takes enemies back. -/
theorem le_count_parseBase (en : MapEnemy) (ep : Nat) (alt : Bool) :
    s.count ≤ (s.parseBase en ep alt).1.count := by
  unfold parseBase
  dsimp only
  split <;> (try split_ifs) <;> simp [Nat.add_assoc]

theorem lt_count_parseEnemy (en : MapEnemy) (ep : Nat) (alt : Bool) :
    s.count < (s.parseEnemy en ep alt).count := by
  have hbase := s.le_count_parseBase en ep alt
  rw [parseEnemy, count_skip, count_clone]
  omega

end Parsed

/-- Each entry of the list stands for an enemy at least. -/
theorem le_count_parseEnemies (ep : Nat) (alt : Bool) (ens : List MapEnemy) (s : Parsed) :
    s.count + ens.length ≤ (parseEnemies ep alt ens s).count := by
  induction ens generalizing s with
  | nil => exact Nat.le_refl _
  | cons en ens ih =>
      have hlt := s.lt_count_parseEnemy en ep alt
      have hrest := ih (s.parseEnemy en ep alt)
      rw [parseEnemies, List.length_cons]
      omega

/-- A list makes no enemies only if it is empty. -/
theorem length_parseMap_eq_zero {ens : List MapEnemy} {ep : Nat} {alt : Bool} :
    (parseMap ens ep alt).length = 0 ↔ ens.length = 0 := by
  rw [parseMap, List.length_map, List.length_range]
  constructor
  · intro h
    have hle := le_count_parseEnemies ep alt ens Parsed.empty
    omega
  · intro h
    rw [List.length_eq_zero_iff.mp h]
    rfl

end Sylverant.Ship
