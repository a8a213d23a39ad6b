/-
# Generating items

The functions of `ptdata.c` that make up a random item from the data for an area, and the
rolls for rare items of `rtdata.c`. Random numbers come from a stream. The accesses to
arrays that depend on a request, or on the area of the client that makes it, are kept in
a log. An array is a function here: what it says outside of the array is what stands in
memory there. Words are in the order of a little-endian machine.
-/

import Mathlib.Algebra.Ring.Int.Defs
import Sylverant.Library.Simulation
import Sylverant.Ship.DropTables
import Sylverant.Ship.Items
import Sylverant.Ship.QuestMap
import Sylverant.Ship.RareTables

namespace Sylverant.Ship.Pt

open Simulation
open Sylverant.Ship.Bb (itemIsStackable)
open Sylverant.Ship.QuestMap (QuestEnemy)
open Sylverant.Ship.Rt (RtData RtSet)

/-! ## Items -/

/-- `item[4]`, the words of an item that is generated. -/
structure GenItem where
  w0 : UInt32
  w1 : UInt32
  w2 : UInt32
  w3 : UInt32
  deriving DecidableEq, Inhabited

namespace GenItem

/-- `item_b[1]` -/
def b1 (it : GenItem) : UInt8 := (it.w0 >>> 8).toUInt8

/-- `item_b[2]` -/
def b2 (it : GenItem) : UInt8 := (it.w0 >>> 16).toUInt8

/-- A word with another byte, the lowest one having the number 0. -/
def putByte (w : UInt32) (k : Nat) (b : UInt8) : UInt32 :=
  (w &&& ~~~((0xFF : UInt32) <<< (8 * k).toUInt32)) ||| (b.toUInt32 <<< (8 * k).toUInt32)

/-- An assignment to `item_b[i]`, where the items that are generated have their bytes from
4 to 11. -/
def setByte (it : GenItem) (i : Nat) (b : UInt8) : GenItem :=
  if i < 8 then { it with w1 := putByte it.w1 (i - 4) b }
  else { it with w2 := putByte it.w2 (i - 8) b }

/-- An assignment to `item_w[3]`. -/
def setHalf3 (it : GenItem) (h : UInt16) : GenItem :=
  { it with w1 := (it.w1 &&& (0xFFFF : UInt32)) ||| (h.toUInt32 <<< 16) }

/-- An assignment to `item_w[4]`. -/
def setHalf4 (it : GenItem) (h : UInt16) : GenItem :=
  { it with w2 := (it.w2 &&& (0xFFFF0000 : UInt32)) ||| h.toUInt32 }

/-- Clear all words but the first one. -/
def clear (it : GenItem) : GenItem := { it with w1 := 0, w2 := 0, w3 := 0 }

end GenItem

/-! ## Tables -/

/-- `pt_v2_entry_t` or `pt_v3_entry_t`. The percentages of the former are bytes. -/
structure PtEntry where
  weaponRatio : Nat → Int8
  weaponMinrank : Nat → Int8
  weaponUpgfloor : Nat → Int8
  powerPattern : Nat → Int → Int8
  percentPattern : Nat → Int → UInt16
  areaPattern : Nat → Int → Int8
  percentAttachment : Nat → Int → Int8
  elementRanking : Int → Int8
  elementProbability : Int → Int8
  armorRanking : Nat → Int8
  slotRanking : Nat → Int8
  unitLevel : Int → Int8
  toolFrequency : Nat → Int → UInt16
  techFrequency : Nat → Int → UInt8
  techLevels : Nat → Int → Int8
  enemyDar : Nat → Int8
  enemyMeseta : Nat → UInt16 × UInt16
  enemyDrop : Nat → Int8
  boxMeseta : Int → UInt16 × UInt16
  boxDrop : Nat → Int → UInt8
  armorLevel : Int

/-- What the functions of `pmtdata.c` look up: `dfp_range` and `evp_range` of a guard, the
stars of an item, and the units in the order of their stars. -/
structure Pmt where
  guard : UInt32 → Option (UInt8 × UInt8)
  stars : UInt32 → UInt8
  unitMaxStars : UInt8
  unitsWithStars : UInt8 → UInt32
  unitsByStars : UInt32 → UInt64

/-- `tool_base` -/
def toolBase : List UInt32 :=
  [0x000003, 0x010003, 0x020003, 0x000103, 0x010103, 0x020103, 0x000603, 0x010603, 0x000303,
    0x000403, 0x000503, 0x000703, 0x000803, 0x000A03, 0x010A03, 0x020A03, 0x000B03, 0x010B03,
    0x020B03, 0x030B03, 0x040B03, 0x050B03, 0x060B03, 0x070B03, 0x000903, 0x000203, 0x001003,
    0xFFFFFF]

/-- `Item_Disk_Lv01` -/
def itemDiskLv01 : UInt32 := 0x000203

/-- `Item_Photon_Drop` -/
def itemPhotonDrop : UInt32 := 0x001003

/-- `Item_NoSuchItem` -/
def itemNoSuchItem : UInt32 := 0xFFFFFF

/-- `attr_list`, by the ranking of the elements. -/
def attrList : List (List UInt32) :=
  [[0x01, 0x05, 0x0F, 0x13, 0x17, 0x1B, 0x1F, 0x23, 0x00, 0x00, 0x00, 0x00],
    [0x02, 0x06, 0x10, 0x14, 0x18, 0x1C, 0x20, 0x24, 0x09, 0x0C, 0x00, 0x00],
    [0x03, 0x07, 0x11, 0x15, 0x19, 0x1D, 0x21, 0x25, 0x0A, 0x0C, 0x0D, 0x27],
    [0x04, 0x08, 0x12, 0x16, 0x1A, 0x1E, 0x22, 0x26, 0x0B, 0x0C, 0x0E, 0x28]]

/-- `attr_count` -/
def attrCount : List UInt32 := [8, 10, 12, 12]

/-! ## The state of a generator -/

/-- What is read of `map_object_t`. -/
structure MapObject where
  skin : UInt32
  dword : Nat → UInt32

/-- What the generators read of a game, and what they change. -/
structure DropLobby extends DropGame where
  version : Version
  /-- The id of the next item. -/
  itemId : UInt32
  qid : UInt32
  mids : Option (List QuestEnemy)
  mtypes : Option (List QuestEnemy)
  objs : Nat → MapObject

/-- An access to an array at an index that depends on the request. -/
inductive Access
  | enemy (i : Nat)
  | obj (i : Nat)
  | enemyDar (i : Nat)
  | enemyDrop (i : Nat)
  | enemyMeseta (i : Nat)
  /-- The entry for an area in one of the arrays that have ten of them. -/
  | column (area : Int)
  deriving DecidableEq

/-- An item that was sent to the game, with the request that it was made for. -/
structure Sent where
  req : ItemReq
  item : GenItem
  itemId : UInt32

/-- The game, the random numbers that come, the accesses that were made, and the items
that were sent, and those that were added to the game. -/
structure GenState where
  lobby : DropLobby
  rng : Nat → UInt32
  log : List Access
  sent : List Sent
  added : List Sent

/-- A function that draws random numbers, and may break off with a return value. -/
abbrev Gen (α : Type) : Type := EStateM Int GenState α

/-- `mt19937_genrand_int32` -/
def draw : Gen UInt32 := fun s => .ok (s.rng 0) { s with rng := fun n => s.rng (n + 1) }

/-- Make an access. -/
def access (a : Access) : Gen Unit := modify fun s => { s with log := s.log ++ [a] }

/-- Return where a condition holds. -/
def returnIf (c : Prop) [Decidable c] (rv : Int) : Gen Unit := if c then throw rv else pure ()

/-- Make an access where a condition holds. -/
def accessIf (c : Prop) [Decidable c] (a : Access) : Gen Unit := if c then access a else pure ()

/-- Go on where a function has returned 0, and return 0 otherwise. -/
def orNothing {α : Type} (m : Gen α) : Gen α := fun s =>
  match m s with
  | .ok a t => .ok a t
  | .error _ t => .error 0 t

/-! ## Choosing by weights -/

/-- A loop that subtracts weights from a number until it falls below zero, which shows as
a number above the bound. -/
def pick (weight : Nat → UInt32) (bound : UInt32) : Nat → Nat → UInt32 → Option Nat
  | 0, _, _ => none
  | left + 1, i, rnd =>
      if rnd - weight i > bound then some i else pick weight bound left (i + 1) (rnd - weight i)

/-- A signed byte in an expression with unsigned words. -/
def word (x : Int8) : UInt32 := x.toInt32.toUInt32

/-! ## Weapons -/

section Items

variable (ent : PtEntry) (area : Int)

/-- A type of weapon with the rank and the pattern of grinds for it: `wtypes`, `wranks` and
`gptrn`. -/
structure WeaponType where
  kind : Nat
  rank : Int
  pattern : Int
  deriving Inhabited

/-- The loop that raises a rank by one for each `upgfloor` areas. Each round takes at least
one off the area. -/
def upgradeLoop (upgfloor : Int) : Nat → Int → Int → Int × Int
  | 0, rank, warea => (rank, warea)
  | rounds + 1, rank, warea =>
      if warea - upgfloor ≥ 0 then upgradeLoop upgfloor rounds (rank + 1) (warea - upgfloor)
      else (rank, warea)

/-- The type of weapon with a number, in an area where there is one. -/
def weaponType (i : Nat) : WeaponType :=
  let minrank := (ent.weaponMinrank i).toInt
  let (rank, warea) := if minrank ≥ 0 then (minrank, area) else (0, minrank + area)
  let (rank, warea) := upgradeLoop (ent.weaponUpgfloor i).toInt (warea.toNat + 1) rank warea
  { kind := i, rank, pattern := min warea 3 }

/-- The loop over the types of weapons. -/
def weaponTypes : Nat → Nat → Except Int (List WeaponType)
  | 0, _ => .ok []
  | left + 1, i =>
      if (ent.weaponMinrank i).toInt + area ≥ 0 ∧ (ent.weaponRatio i).toInt > 0 then
        if (ent.weaponUpgfloor i).toInt ≤ 0 then .error (-1)
        else (weaponTypes left (i + 1)).map (weaponType ent area i :: ·)
      else weaponTypes left (i + 1)

/-- Roll for a common weapon, with its pattern of grinds. -/
def commonWeapon : Gen (GenItem × Int) := do
  match weaponTypes ent area 12 0 with
  | .error rv => throw rv
  | .ok [] => throw (-1)
  | .ok types =>
      let wchance := UInt32.ofInt (types.map fun t => (ent.weaponRatio t.kind).toInt).sum
      let rnd ← draw
      match pick (fun i => word (ent.weaponRatio (types.getD i default).kind)) wchance
        types.length 0 (rnd % wchance) with
      | none => throw (-1)
      | some i =>
          let t := types.getD i default
          let w0 := (UInt32.ofNat (t.kind + 1) <<< 8) ||| (UInt32.ofInt t.rank <<< 16)
          if w0 = 0 then throw (-1) else return (⟨w0, 0, 0, 0⟩, t.pattern)

/-- One of the three rounds that may add a percentage, with the item, `npcts` and `upcts`. -/
def weaponPercent (percents : UInt32) (st : GenItem × Nat × UInt32) (i : Nat) :
    Gen (GenItem × Nat × UInt32) := do
  access (.column area)
  if (ent.areaPattern i area).toInt < 0 then return st
  else
    let warea := (ent.areaPattern i area).toInt
    let rnd ← draw
    match pick (fun j => (ent.percentPattern j warea).toUInt32) percents 23 0 (rnd % percents) with
    | none => return st
    | some j =>
        -- The row of 0%.
        if j = 2 then return st
        else
          let rnd ← draw
          access (.column area)
          match pick (fun k => word (ent.percentAttachment k area)) 100 6 0 (rnd % 100) with
          | none => return st
          | some k =>
              let (item, npcts, upcts) := st
              if k = 0 ∨ upcts &&& ((1 : UInt32) <<< UInt32.ofNat k) ≠ 0 then return st
              else
                let item := item.setByte (npcts * 2 + 6) (UInt8.ofNat k)
                let item := item.setByte (npcts * 2 + 7) (UInt8.ofInt (((j : Int) - 2) * 5))
                return (item, npcts + 1, upcts ||| ((1 : UInt32) <<< UInt32.ofNat k))

/-- The element of a weapon, or the flag that it has to be identified. The rankings that
are not 0 are from 1 to 4. -/
def weaponElement (v1 semirare rare : Bool) (item : GenItem) : Gen GenItem := do
  accessIf (¬semirare) (.column area)
  if ¬semirare ∧ ent.elementRanking area ≠ 0 then
    let ranking := ((ent.elementRanking area).toInt - 1).toNat
    let rnd ← draw
    access (.column area)
    if rnd % 100 < word (ent.elementProbability area) then
      let rnd ← draw
      let attr := (attrList.getD ranking []).getD (rnd % attrCount.getD ranking 0).toNat 0
      return { item with w1 := 0x80 ||| attr }
    else return item
  else if rare ∨ (v1 ∧ semirare) then return { item with w1 := 0x80 }
  else return item

/-- `generate_weapon_v2` and `generate_weapon_v3`, where a rare weapon has been picked or
not. -/
def generateWeapon (percents : UInt32) (v1 : Bool) (item : GenItem) (picked : Bool) :
    Gen GenItem := do
  let (item, warea) ← (if picked then pure (item.clear, 3) else commonWeapon ent area)
  let rare : Bool := picked ∧ item.b1 > 12
  let semirare : Bool := rare ∨ (item.b1 ≥ 10 ∧ item.b2 > 3) ∨ item.b2 > 4
  let rnd ← draw
  match pick (fun i => word (ent.powerPattern i warea)) 100 9 0 (rnd % 100) with
  | none => throw (-1)
  | some i =>
      let item := { item with w0 := item.w0 ||| (UInt32.ofNat i <<< 24) }
      let (item, _, _) ← [0, 1, 2].foldlM (weaponPercent ent area percents) (item, 0, 0)
      weaponElement ent area v1 semirare rare item

/-- `generate_weapon_v2` -/
def generateWeaponV2 (item : GenItem) (picked v1 : Bool) : Gen GenItem :=
  generateWeapon ent area 100 v1 item picked

/-- `generate_weapon_v3` -/
def generateWeaponV3 (item : GenItem) (picked : Bool) : Gen GenItem :=
  generateWeapon ent area 10000 false item picked

/-! ## Armors, shields and units -/

/-- The code of a common armor or shield. -/
def commonGuard (base : UInt32) : Gen UInt32 := do
  let rnd ← draw
  match pick (fun i => word (ent.armorRanking i)) 100 5 0 (rnd % 100) with
  | none => throw (-1)
  | some i =>
      return base ||| (UInt32.ofInt (max 0 (ent.armorLevel - 3 + area + i)) <<< 16)

/-- The slots of an armor. -/
def armorSlots (item : GenItem) : Gen GenItem := do
  let rnd ← draw
  match pick (fun i => word (ent.slotRanking i)) 100 5 0 (rnd % 100) with
  | none => return item
  | some i => return item.setByte 5 (UInt8.ofNat i)

/-- Draw a boost, where there is a range for it. -/
def boost (range : UInt8) (set : UInt16 → GenItem) (item : GenItem) : Gen GenItem :=
  if range ≠ 0 then (fun rnd => set (rnd % (range.toUInt32 + 1)).toUInt16) <$> draw else pure item

/-- The boosts of an armor or a shield. -/
def guardBoosts (pmt : Pmt) (item : GenItem) : Gen GenItem := do
  match pmt.guard item.w0 with
  | none => throw (-2)
  | some (dfp, evp) =>
      let item ← boost dfp item.setHalf3 item
      boost evp item.setHalf4 item

/-- `generate_armor_v2` and `generate_armor_v3`. -/
def generateArmor (pmt : Pmt) (item : GenItem) (picked : Bool) : Gen GenItem := do
  let w0 ← (if picked then pure item.w0 else commonGuard ent area 0x00000101)
  let item ← armorSlots ent ⟨w0, 0, 0, 0⟩
  guardBoosts pmt item

/-- `generate_shield_v2` and `generate_shield_v3`. -/
def generateShield (pmt : Pmt) (item : GenItem) (picked : Bool) : Gen GenItem := do
  let w0 ← (if picked then pure item.w0 else commonGuard ent area 0x00000201)
  guardBoosts pmt ⟨w0, 0, 0, 0⟩

/-- `pmt_random_unit_v2`, `pmt_random_unit_gc` and `pmt_random_unit_bb`. -/
def pmtRandomUnit (pmt : Pmt) (max : UInt8) : Gen GenItem := do
  let max := if max > pmt.unitMaxStars then pmt.unitMaxStars else max
  let rnd ← draw
  let unit := pmt.unitsByStars (rnd % pmt.unitsWithStars max)
  return ⟨unit.toUInt32, (unit >>> 32).toUInt32, 0, 0⟩

/-! ## Tools and meseta -/

/-- `generate_tool_base` -/
def generateToolBase : Gen UInt32 := do
  let rnd ← draw
  access (.column area)
  match pick (fun i => (ent.toolFrequency i area).toUInt32) 10000 28 0 (rnd % 10000) with
  | none => return itemNoSuchItem
  | some i => return toolBase.getD i itemNoSuchItem

/-- `generate_tech` -/
def generateTech (item : GenItem) : Gen GenItem := do
  let rnd ← draw
  access (.column area)
  match pick (fun i => (ent.techFrequency i area).toUInt32) 1000 19 0 (rnd % 1000) with
  | none => throw (-1)
  | some i =>
      let t1 := word (ent.techLevels i (area * 2))
      let t2 := word (ent.techLevels i (area * 2 + 1))
      if t1 = 0xFFFFFFFF ∨ t1 > t2 then throw (-1)
      else
        let level := if t1 < t2 then (rnd / 1000) % ((t2 + 1) - t1) + t1 else t1
        return { item with w0 := item.w0 ||| (level <<< 16), w1 := UInt32.ofNat i }

/-- The quantity of a tool, which is 1 if it is stackable. -/
def quantity (w0 : UInt32) : UInt32 := if itemIsStackable w0 then (1 : UInt32) <<< 8 else 0

/-- `generate_tool_v2` and `generate_tool_v3`, with the tools that are refused. -/
def generateTool (refused : List UInt32) : Gen GenItem := do
  let w0 ← generateToolBase ent area
  if w0 ∈ refused then throw (-1)
  else
    let item : GenItem := ⟨w0, quantity w0, 0, 0⟩
    if w0 = itemDiskLv01 then generateTech ent area item else return item

/-- `generate_tool_v2` -/
def generateToolV2 : Gen GenItem := generateTool ent area [itemPhotonDrop, itemNoSuchItem]

/-- `generate_tool_v3` -/
def generateToolV3 : Gen GenItem := generateTool ent area [itemNoSuchItem]

/-- `generate_meseta` -/
def generateMeseta (range : UInt16 × UInt16) : Gen GenItem := do
  let lo := range.1.toUInt32
  let hi := range.2.toUInt32
  let rnd ← (if lo < hi then (fun rnd => rnd % ((hi + 1) - lo) + lo) <$> draw else pure lo)
  if rnd ≠ 0 then return ⟨0x00000004, 0, 0, rnd⟩ else throw (-1)

end Items

/-! ## Rare items -/

/-- The comparison of `mt19937_genrand_real1` with a probability. -/
def lucky (rnd prob : UInt32) : Bool := rnd.toNat * 2 ^ 32 < prob.toNat * (2 ^ 32 - 1)

/-- The loop over the boxes with rare items. -/
def rareBox (set : RtSet) (area : Int) : Nat → Nat → Gen UInt32
  | 0, _ => return 0
  | left + 1, i => do
      if (set.boxRares i).area = UInt32.ofInt area then
        let rnd ← draw
        if lucky rnd (set.boxRares i).prob then return (set.boxRares i).itemData
        else rareBox set area left (i + 1)
      else rareBox set area left (i + 1)

/-- `rt_generate_v2_rare` and `rt_generate_gc_rare`, with the set of the game if the tables
were read. -/
def rtGenerateRare (set : Option RtSet) (rtIndex area : Int) : Gen UInt32 := do
  match set with
  | none => return 0
  | some set =>
      if rtIndex < -1 ∨ rtIndex > 100 then return 0xFFFFFFFF
      else if rtIndex ≥ 0 then
        let rnd ← draw
        let data := set.enemyRares rtIndex.toNat
        if lucky rnd data.prob then return data.itemData else return 0
      else rareBox set area 30 0

/-! ## What making an item keeps -/

section Keeps

variable {P : GenState → Prop} {ent : PtEntry} {area : Int}

theorem keeps_orNothing {α : Type} {m : Gen α} (hm : Keeps P m) : Keeps P (orNothing m) := by
  intro s hs
  have hkept := hm s hs
  rw [orNothing]
  cases hrun : m s with
  | ok a t =>
      rw [hrun] at hkept
      exact hkept
  | error e t =>
      rw [hrun] at hkept
      exact hkept

section Draws

variable (hdraw : Keeps P draw)

include hdraw

theorem keeps_commonWeapon : Keeps P (commonWeapon ent area) := by
  rw [commonWeapon]
  split
  · exact Keeps.throw _
  · exact Keeps.throw _
  · refine hdraw.bind fun rnd => ?_
    split
    · exact Keeps.throw _
    · exact Keeps.ite (Keeps.throw _) (Keeps.pure _)

theorem keeps_commonGuard (base : UInt32) : Keeps P (commonGuard ent area base) := by
  refine hdraw.bind fun rnd => ?_
  split
  · exact Keeps.throw _
  · exact Keeps.pure _

theorem keeps_armorSlots (item : GenItem) : Keeps P (armorSlots ent item) := by
  refine hdraw.bind fun rnd => ?_
  split <;> exact Keeps.pure _

theorem keeps_boost (range : UInt8) (set : UInt16 → GenItem) (item : GenItem) :
    Keeps P (boost range set item) := by
  refine Keeps.ite ?_ (Keeps.pure _)
  rw [map_eq_pure_bind]
  exact hdraw.bind fun _ => Keeps.pure _

theorem keeps_guardBoosts (pmt : Pmt) (item : GenItem) : Keeps P (guardBoosts pmt item) := by
  rw [guardBoosts]
  split
  · exact Keeps.throw _
  · exact (keeps_boost hdraw _ _ _).bind fun item => keeps_boost hdraw _ _ _

/-- A function that makes armor only draws random numbers. -/
theorem keeps_generateArmor (pmt : Pmt) (item : GenItem) (picked : Bool) :
    Keeps P (generateArmor ent area pmt item picked) := by
  refine (Keeps.ite (Keeps.pure _) (keeps_commonGuard hdraw _)).bind fun w0 => ?_
  exact (keeps_armorSlots hdraw _).bind fun item => keeps_guardBoosts hdraw pmt item

theorem keeps_generateShield (pmt : Pmt) (item : GenItem) (picked : Bool) :
    Keeps P (generateShield ent area pmt item picked) :=
  (Keeps.ite (Keeps.pure _) (keeps_commonGuard hdraw _)).bind fun _ =>
    keeps_guardBoosts hdraw pmt _

theorem keeps_pmtRandomUnit (pmt : Pmt) (max : UInt8) : Keeps P (pmtRandomUnit pmt max) :=
  hdraw.bind fun _ => Keeps.pure _

theorem keeps_generateMeseta (range : UInt16 × UInt16) : Keeps P (generateMeseta range) := by
  refine (Keeps.ite ?_ (Keeps.pure _)).bind fun _ => Keeps.ite (Keeps.pure _) (Keeps.throw _)
  rw [map_eq_pure_bind]
  exact hdraw.bind fun _ => Keeps.pure _

theorem keeps_rareBox (set : RtSet) (a : Int) (left i : Nat) : Keeps P (rareBox set a left i) := by
  induction left generalizing i with
  | zero => exact Keeps.pure _
  | succ left ih =>
      refine Keeps.ite (hdraw.bind fun rnd => ?_) (ih (i + 1))
      exact Keeps.ite (Keeps.pure _) (ih (i + 1))

theorem keeps_rtGenerateRare (set : Option RtSet) (rtIndex a : Int) :
    Keeps P (rtGenerateRare set rtIndex a) := by
  cases set with
  | none => exact Keeps.pure _
  | some set =>
      refine Keeps.ite (Keeps.pure _) (Keeps.ite ?_ (keeps_rareBox hdraw set a 30 0))
      exact hdraw.bind fun rnd => Keeps.ite (Keeps.pure _) (Keeps.pure _)

end Draws

/-- A condition that random numbers and accesses to the columns of an area do not change. -/
structure Stable (P : GenState → Prop) (area : Int) : Prop where
  draw : Keeps P draw
  column : Keeps P (access (.column area))

section Columns

variable (h : Stable P area)

include h

theorem keeps_weaponPercent (percents : UInt32) (st : GenItem × Nat × UInt32) (i : Nat) :
    Keeps P (weaponPercent ent area percents st i) := by
  refine h.column.bind fun _ => Keeps.ite (Keeps.pure _) (h.draw.bind fun rnd => ?_)
  split
  · exact Keeps.pure _
  · refine Keeps.ite (Keeps.pure _) (h.draw.bind fun rnd' => h.column.bind fun _ => ?_)
    split
    · exact Keeps.pure _
    · exact Keeps.ite (Keeps.pure _) (Keeps.pure _)

theorem keeps_weaponElement (v1 semirare rare : Bool) (item : GenItem) :
    Keeps P (weaponElement ent area v1 semirare rare item) := by
  refine (Keeps.ite h.column (Keeps.pure _)).bind fun _ => Keeps.ite ?_ ?_
  · refine h.draw.bind fun rnd => h.column.bind fun _ => Keeps.ite ?_ (Keeps.pure _)
    exact h.draw.bind fun rnd' => Keeps.pure _
  · exact Keeps.ite (Keeps.pure _) (Keeps.pure _)

/-- A function that makes weapons draws random numbers and uses the columns of the area. -/
theorem keeps_generateWeapon (percents : UInt32) (v1 : Bool) (item : GenItem) (picked : Bool) :
    Keeps P (generateWeapon ent area percents v1 item picked) := by
  refine (Keeps.ite (Keeps.pure _) (keeps_commonWeapon h.draw)).bind fun start =>
    h.draw.bind fun rnd => ?_
  split
  · exact Keeps.throw _
  · refine (Keeps.foldlM (fun st i => keeps_weaponPercent h percents st i) _ _).bind fun st => ?_
    exact keeps_weaponElement h v1 _ _ st.1

theorem keeps_generateToolBase : Keeps P (generateToolBase ent area) := by
  refine h.draw.bind fun rnd => h.column.bind fun _ => ?_
  split <;> exact Keeps.pure _

theorem keeps_generateTech (item : GenItem) : Keeps P (generateTech ent area item) := by
  refine h.draw.bind fun rnd => h.column.bind fun _ => ?_
  split
  · exact Keeps.throw _
  · exact Keeps.ite (Keeps.throw _) (Keeps.pure _)

theorem keeps_generateTool (refused : List UInt32) : Keeps P (generateTool ent area refused) :=
  (keeps_generateToolBase h).bind fun _ =>
    Keeps.ite (Keeps.throw _) (Keeps.ite (keeps_generateTech h _) (Keeps.pure _))

end Columns

end Keeps

end Sylverant.Ship.Pt
