/-
# Checking items against the limits

`sylverant_limits_check_item` of `items.c`, with the checks for each type of item. An
item that the limits say nothing of is accepted or rejected as the limits file asks.
-/

import Sylverant.Items.Document

namespace Sylverant.Items

/-- `sylverant_iitem_t` -/
structure IItem where
  dataB : Vector UInt8 12
  data2B : Vector UInt8 4 := Vector.replicate 4 0
  deriving DecidableEq

/-- A byte read as a signed one. -/
def s8 (b : UInt8) : Int := b.toInt8.toInt

/-- Two bytes, the low one first. -/
def word (low high : UInt8) : Nat := low.toNat ||| high.toNat <<< 8

/-- The value is beyond a limit that is set, where `none` stands for no limit. -/
def Bounds.exceeded (b : Bounds) (unset value : Int) : Bool :=
  (b.max ≠ unset && decide (value > b.max)) || (b.min ≠ unset && decide (value < b.min))

/-- The entry is for items of the code in all the versions asked for. -/
def ItemBase.applies (j : ItemBase) (ic version : UInt32) : Bool :=
  j.itemCode = ic && j.versions &&& version = version

/-! ## Weapons -/

/-- The item code that `check_weapon` looks for. -/
def weaponCode (i : IItem) (ic : UInt32) : UInt32 :=
  if i.dataB[5] ≠ 0 then i.dataB[5].toUInt32 <<< 8 else ic

/-- A weapon is an S-Rank. -/
def isSrank (ic : UInt32) : Bool := ic ≥ 0x007000 && ic ≤ 0x008800

/-- An S-Rank with a name. -/
def isNamedSrank (i : IItem) (ic : UInt32) : Bool := isSrank ic && i.dataB[6] ≥ 0x0C

/-- The eight characters of the name of an S-Rank. -/
def srankName (i : IItem) : List UInt8 :=
  [((i.dataB[6] &&& 0x03) <<< 3) ||| ((i.dataB[7] &&& 0xE0) >>> 5),
    i.dataB[7] &&& 0x1F,
    (i.dataB[8] >>> 2) &&& 0x1F,
    ((i.dataB[8] &&& 0x03) <<< 3) ||| ((i.dataB[9] &&& 0xE0) >>> 5),
    i.dataB[9] &&& 0x1F,
    (i.dataB[10] >>> 2) &&& 0x1F,
    ((i.dataB[10] &&& 0x03) <<< 3) ||| ((i.dataB[11] &&& 0xE0) >>> 5),
    i.dataB[11] &&& 0x1F]

/-- The checks of the names of S-Ranks reject the item. -/
def srankRejects (l : Limits) (i : IItem) (ic : UInt32) : Bool :=
  l.checkSrankNames && isSrank ic &&
    (!isNamedSrank i ic || (srankName i).any fun tmp => tmp > 26)

/-- The same attribute has two percents. -/
def duplicatePercents (i : IItem) : Bool :=
  (i.dataB[6] ≠ 0 && (i.dataB[6] = i.dataB[8] || i.dataB[6] = i.dataB[10])) ||
    (i.dataB[8] ≠ 0 && i.dataB[8] = i.dataB[10])

/-- The grind value is beyond its limits. SPECIAL WEAPONs have none. -/
def grindRejects (w : Weapon) (i : IItem) : Bool :=
  w.grind.exceeded (-1) i.dataB[3].toNat && i.dataB[4] ≠ 0x80

/-- A percent is beyond its limits, or no multiple of 5. -/
def percentsReject (w : Weapon) (i : IItem) : Bool :=
  (i.dataB[6] ≠ 0 && w.percents.exceeded (-1) (s8 i.dataB[7])) ||
    (i.dataB[8] ≠ 0 && w.percents.exceeded (-1) (s8 i.dataB[9])) ||
    (i.dataB[10] ≠ 0 && w.percents.exceeded (-1) (s8 i.dataB[11])) ||
    ((s8 i.dataB[7]).tmod 5 ≠ 0 || (s8 i.dataB[9]).tmod 5 ≠ 0 || (s8 i.dataB[11]).tmod 5 ≠ 0)

/-- The attribute of a weapon. -/
def attributeOf (i : IItem) : Nat := (i.dataB[4] &&& 0x7F).toNat

/-- The weapon's attribute is allowed by the mask. The shifted one is an int, which gets
the width of the mask. -/
def attributeValid (validAttrs : BitVec 64) (tmp : Nat) : Bool :=
  tmp ≤ 0x28 && validAttrs &&& (intShift tmp).signExtend 64 ≠ 0#64

/-- `check_weapon` -/
def checkWeapon (l : Limits) (i : IItem) (version ic : UInt32) : Int :=
  let ic := weaponCode i ic
  if srankRejects l i ic then 0
  else if !isNamedSrank i ic && duplicatePercents i then 0
  else
    match l.weapons.find? (fun w => w.toItemBase.applies ic version) with
    | none => l.defaultBehavior
    | some w =>
        if w.autoReject then 0
        else if grindRejects w i then 0
        else if !isNamedSrank i ic && percentsReject w i then 0
        else if !attributeValid w.validAttrs (attributeOf i) then 0
        else 1

/-! ## Guards -/

/-- The item code that `check_guard` looks for. -/
def guardCode (i : IItem) (ic : UInt32) : UInt32 :=
  if (ic >>> 8) &&& 0x03 ≠ 0x03 ∧ i.dataB[3] ≠ 0 then ic ||| i.dataB[3].toUInt32 <<< 16 else ic

/-- The DFP and EVP of an item are the most there can be. -/
def maxedOut (j : ItemBase) (dfp evp : Bounds) (i : IItem) : Bool :=
  j.rejectMax && (word i.dataB[6] i.dataB[7] : Int) = dfp.max &&
    (word i.dataB[8] i.dataB[9] : Int) = evp.max

/-- The DFP or the EVP is beyond its limits. -/
def boostsReject (dfp evp : Bounds) (i : IItem) : Bool :=
  dfp.exceeded (-1) (word i.dataB[6] i.dataB[7]) || evp.exceeded (-1) (word i.dataB[8] i.dataB[9])

/-- The checks that depend on the type of a guard reject the item. An entry has the code
of the item, and so its type. -/
def guardRejects (j : Guard) (i : IItem) : Bool :=
  match j with
  | .frame f =>
      f.slots.exceeded (-1) i.dataB[5].toNat || boostsReject f.dfp f.evp i ||
        maxedOut f.toItemBase f.dfp f.evp i
  | .barrier b => boostsReject b.dfp b.evp i || maxedOut b.toItemBase b.dfp b.evp i
  | .unit u =>
      u.plus.exceeded intMin (Int16.ofInt (word i.dataB[6] i.dataB[7])).toInt

/-- `check_guard` -/
def checkGuard (l : Limits) (i : IItem) (version ic : UInt32) : Int :=
  let ic := guardCode i ic
  match l.guards.find? (fun g => g.base.applies ic version) with
  | none => l.defaultBehavior
  | some j => if j.base.autoReject then 0 else if guardRejects j i then 0 else 1

/-! ## Mags -/

/-- The item code that `check_mag` looks for. -/
def magCode (i : IItem) : UInt32 :=
  if i.dataB[1] = 0x00 ∧ i.dataB[2] ≥ 0xC9 then
    (0x02 : UInt32) ||| ((i.dataB[2].toUInt32 - 0xC9) + 0x2C) <<< 8
  else (0x02 : UInt32) ||| i.dataB[1].toUInt32 <<< 8

/-- A statistic of a mag. -/
def magStat (low high : UInt8) : Nat := (word low high &&& 0x7FFE) / 100

/-- The left photon blast: its number skips those in the center and on the right. -/
def leftPb (cpb rpb lpb : Nat) : Nat :=
  if cpb ≤ lpb ∧ rpb ≤ lpb then lpb + 2
  else if cpb ≤ lpb then if rpb = lpb + 1 then lpb + 2 else lpb + 1
  else if rpb ≤ lpb then if cpb = lpb + 1 then lpb + 2 else lpb + 1
  else lpb

/-- The photon blast or the color is allowed by a mask that is narrower than an int. -/
def maskAllows {w : Nat} (allowed : BitVec w) (i : Nat) : Bool :=
  allowed.setWidth 32 &&& intShift i ≠ 0#32

/-- The statistics of a mag are beyond their limits. -/
def magStatsReject (m : Mag) (i : IItem) : Bool :=
  let defense := magStat i.dataB[4] i.dataB[5]
  let pow := magStat i.dataB[6] i.dataB[7]
  let dex := magStat i.dataB[8] i.dataB[9]
  let mind := magStat i.dataB[10] i.dataB[11]
  m.defense.exceeded (-1) defense || m.pow.exceeded (-1) pow || m.dex.exceeded (-1) dex ||
    m.mind.exceeded (-1) mind || m.level.exceeded (-1) (defense + pow + dex + mind : Nat) ||
    m.iq.exceeded (-1) (word i.data2B[0] i.data2B[1]) ||
    m.synchro.exceeded (-1) (word i.data2B[2] i.data2B[3] &&& 0x7FFF : Nat)

/-- A photon blast of a mag is not one of those allowed. -/
def pbsReject (m : Mag) (i : IItem) : Bool :=
  let cpb := (i.dataB[3] &&& 0x07).toNat
  let rpb := ((i.dataB[3] >>> 3) &&& 0x07).toNat
  let lpb := ((i.dataB[3] >>> 6) &&& 0x03).toNat
  (i.data2B[3] &&& 0x80 ≠ 0 && !maskAllows m.allowedCpb cpb) ||
    (i.dataB[5] &&& 0x80 ≠ 0 && !maskAllows m.allowedRpb rpb) ||
    (i.dataB[7] &&& 0x80 ≠ 0 && !maskAllows m.allowedLpb (leftPb cpb rpb lpb))

/-- The color of a mag. -/
def magColor (i : IItem) : Nat :=
  let bit (b : UInt8) : UInt8 := b &&& 0x01
  (bit i.dataB[4] ||| bit i.dataB[6] <<< 1 ||| bit i.dataB[8] <<< 2 ||| bit i.dataB[10] <<< 3).toNat

/-- The photon blasts of a mag are such as only a hacked one has. -/
def pbsHacked (i : IItem) : Bool :=
  let cpb := i.dataB[3] &&& 0x07
  let rpb := (i.dataB[3] >>> 3) &&& 0x07
  cpb > 5 || rpb > 5 || (i.data2B[3] &&& 0x80 ≠ 0 && i.dataB[5] &&& 0x80 ≠ 0 && cpb = rpb)

/-- `check_mag` -/
def checkMag (l : Limits) (i : IItem) (version : UInt32) : Int :=
  if l.checkPbs && pbsHacked i then 0
  else
    match l.mags.find? (fun m => m.toItemBase.applies (magCode i) version) with
    | none => l.defaultBehavior
    | some m =>
        if m.autoReject then 0
        else if magStatsReject m i then 0
        else if pbsReject m i then 0
        else if !maskAllows m.allowedColors (magColor i) then 0
        else 1

/-! ## Tools -/

/-- The item code that `check_tool` looks for. -/
def toolCode (i : IItem) (ic : UInt32) : UInt32 :=
  if ic = 0x060D03 ∧ i.dataB[3] ≠ 0 then
    (0x000E03 : UInt32) ||| (i.dataB[3].toUInt32 - 1) <<< 16
  else ic

/-- `check_tool` -/
def checkTool (l : Limits) (i : IItem) (version ic : UInt32) : Int :=
  match l.tools.find? (fun t => t.toItemBase.applies (toolCode i ic) version) with
  | none => l.defaultBehavior
  | some t =>
      if t.autoReject then 0
      else if t.stack.exceeded (-1) i.dataB[5].toNat then 0
      else 1

/-! ## Items -/

/-- The first three bytes of an item. -/
def itemCode (i : IItem) : UInt32 :=
  i.dataB[0].toUInt32 ||| i.dataB[1].toUInt32 <<< 8 ||| i.dataB[2].toUInt32 <<< 16

/-- `sylverant_limits_check_item`. Meseta always pass, and types that there are not never. -/
def sylverantLimitsCheckItem (l : Limits) (i : IItem) (version : UInt32) : Int :=
  if itemCode i &&& 0xFF = 0x00 then checkWeapon l i version (itemCode i)
  else if itemCode i &&& 0xFF = 0x01 then checkGuard l i version (itemCode i)
  else if itemCode i &&& 0xFF = 0x02 then checkMag l i version
  else if itemCode i &&& 0xFF = 0x03 then checkTool l i version (itemCode i)
  else if itemCode i &&& 0xFF = 0x04 then 1
  else 0

end Sylverant.Items
