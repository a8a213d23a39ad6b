/-
# Reading the item limits

The limits file says for each kind of item what is legitimate, as `items.c` of
libsylverant reads it. The library that parses XML hands the file over as a tree of
nodes; memory is always there.
-/

import Sylverant.Library.CInt
import Sylverant.Library.CString

namespace Sylverant.Items

open CString (strtok strtol strtoul)

/-! ## The document -/

/-- The attributes of an element, by name. -/
abbrev Props := List (String × String)

/-- `xmlNode`: an element, or text and the like. -/
inductive Node
  | element (name : String) (props : Props) (children : List Node)
  | other

/-- `xmlGetProp` -/
def xmlGetProp (props : Props) (name : String) : Option String := props.lookup name

/-! ## The items -/

/-- `sylverant_item_t` -/
structure ItemBase where
  itemCode : UInt32
  versions : UInt32 := 0
  autoReject : Bool := false
  rejectMax : Bool := false

/-- The two fields for the most and the least of something. -1 stands for no limit. -/
structure Bounds where
  max : Int := -1
  min : Int := -1

/-- `sylverant_weapon_t` -/
structure Weapon extends ItemBase where
  grind : Bounds := {}
  percents : Bounds := {}
  validAttrs : BitVec 64

/-- `sylverant_frame_t` -/
structure Frame extends ItemBase where
  slots : Bounds := {}
  dfp : Bounds := {}
  evp : Bounds := {}

/-- `sylverant_barrier_t` -/
structure Barrier extends ItemBase where
  dfp : Bounds := {}
  evp : Bounds := {}

/-- `INT_MIN` -/
def intMin : Int := -2147483648

/-- `sylverant_unit_t`, where -1 is a plus like others. -/
structure UnitItem extends ItemBase where
  plus : Bounds := ⟨intMin, intMin⟩

/-- `sylverant_mag_t` -/
structure Mag extends ItemBase where
  level : Bounds := {}
  defense : Bounds := {}
  pow : Bounds := {}
  dex : Bounds := {}
  mind : Bounds := {}
  synchro : Bounds := {}
  iq : Bounds := {}
  allowedColors : BitVec 16
  allowedCpb : BitVec 8
  allowedRpb : BitVec 8
  allowedLpb : BitVec 8

/-- `sylverant_tool_t` -/
structure Tool extends ItemBase where
  stack : Bounds := {}

/-- An entry of the list `guards`. -/
inductive Guard
  | frame (f : Frame)
  | barrier (b : Barrier)
  | unit (u : UnitItem)

def Guard.base : Guard → ItemBase
  | .frame f => f.toItemBase
  | .barrier b => b.toItemBase
  | .unit u => u.toItemBase

/-- `sylverant_limits_t` -/
structure Limits where
  weapons : List Weapon := []
  guards : List Guard := []
  mags : List Mag := []
  tools : List Tool := []
  defaultBehavior : Int
  checkSrankNames : Bool
  checkPbs : Bool
  defaultColors : BitVec 16 := 0xFFFF
  defaultCpb : BitVec 8 := 0xFF
  defaultRpb : BitVec 8 := 0xFF
  defaultLpb : BitVec 8 := 0xFF

/-! ## Names -/

/-- `weapon_attrs` -/
def weaponAttrs : List String :=
  ["None", "Draw", "Drain", "Fill", "Gush", "Heart", "Mind", "Soul", "Geist", "Master's",
    "Lord's", "King's", "Charge", "Spirit", "Berserk", "Ice", "Frost", "Freeze", "Blizzard",
    "Bind", "Hold", "Seize", "Arrest", "Heat", "Fire", "Flame", "Burning", "Shock", "Thunder",
    "Storm", "Tempest", "Dim", "Shadow", "Dark", "Hell", "Panic", "Riot", "Havoc", "Chaos",
    "Devil's", "Demon's"]

/-- `mag_pbs` -/
def magPbs : List String :=
  ["Farlla", "Estlla", "Golla", "Pilla", "Leilla", "Mylla+Youlla", "bad1", "bad2"]

/-- `mag_colors` -/
def magColors : List String :=
  ["red", "blue", "yellow", "green", "purple", "darkpurple", "white", "cyan", "brown", "black",
    "c10", "c11", "c12", "c13", "c14", "c15"]

/-- `FULL_ATTR_VALID` -/
def fullAttrValid : BitVec 64 := 0x1FFFFFFFFFF

/-- `1 << i`. The one is an int: a shift counts modulo 32. -/
def intShift (i : Nat) : BitVec 32 := 1#32 <<< (i % 32)

/-- `valid &= ~(1 << i)`. The int on the right gets the width of the mask. -/
def clearBit {w : Nat} (valid : BitVec w) (i : Nat) : BitVec w :=
  valid &&& (~~~intShift i).signExtend w

/-- The loop over the tokens of a disallow list, for a table of names. -/
def disallow {w : Nat} (names : List String) : List String → BitVec w → Option (BitVec w)
  | [], valid => some valid
  | tok :: toks, valid =>
      match names.idxOf? tok with
      | none => none
      | some i => disallow names toks (clearBit valid i)

/-- The tokens of a disallow list. -/
def disallowed (list : String) : List String := strtok list [',', ' ']

/-! ## The handlers of child elements -/

/-- `handle_pbs`, for the masks of the center, right and left photon blasts. -/
def handlePbs (props : Props) (c r l : BitVec 8) : Option (BitVec 8 × BitVec 8 × BitVec 8) :=
  match xmlGetProp props "pos", xmlGetProp props "disallow" with
  | some pos, some pbs =>
      if pos = "center" then (disallow magPbs (disallowed pbs) 0xFF).map fun v => (v, r, l)
      else if pos = "right" then (disallow magPbs (disallowed pbs) 0xFF).map fun v => (c, v, l)
      else if pos = "left" then (disallow magPbs (disallowed pbs) 0xFF).map fun v => (c, r, v)
      else none
  | _, _ => none

/-- `handle_colors` -/
def handleColors (props : Props) : Option (BitVec 16) :=
  match xmlGetProp props "disallow" with
  | none => none
  | some colors => disallow magColors (disallowed colors) 0xFFFF

/-- `handle_attributes` -/
def handleAttributes (props : Props) (valid : BitVec 64) : Option (BitVec 64) :=
  match xmlGetProp props "disallow" with
  | none => none
  | some attr => disallow weaponAttrs (disallowed attr) valid

/-- What a flag of `versions` adds to the versions of an item. -/
def versionFlag (value : String) (bit versions : UInt32) : Option UInt32 :=
  if value = "true" then some (versions ||| bit)
  else if value = "false" then some versions
  else none

/-- `handle_common_tag` -/
def handleCommonTag (name : String) (props : Props) (i : ItemBase) : Option ItemBase :=
  if name = "auto_reject" then some { i with autoReject := true }
  else if name = "reject_max" then some { i with rejectMax := true }
  else if name = "versions" then
    match xmlGetProp props "v1", xmlGetProp props "v2", xmlGetProp props "gc" with
    | some v1, some v2, some gc => do
        let versions ← versionFlag v1 0x01 i.versions
        let versions ← versionFlag v2 0x02 versions
        let versions ← versionFlag gc 0x04 versions
        some { i with versions }
    | _, _, _ => none
  else none

/-- One attribute that `handle_max` reads. -/
def boundOf (props : Props) (name : String) (old : Int) : Option Int :=
  match xmlGetProp props name with
  | none => some old
  | some val => (strtol val 0).map CInt.ofInt

/-- `handle_max` -/
def handleMax (props : Props) (b : Bounds) : Option Bounds := do
  let max ← boundOf props "max" b.max
  let min ← boundOf props "min" b.min
  some { max, min }

/-- A tag that the children of an item may have: what it does to the item, and what the
handler of the item returns when that fails. -/
structure Tag (α : Type) where
  name : String
  failure : Int
  handle : Props → α → Option α

/-- One child of an item. Tags that are not the item's own are common ones; for any
other tag the handler of the item returns `unknown`. -/
def handleChild {α : Type} (tags : List (Tag α)) (common : String → Props → α → Option α)
    (unknown : Int) (name : String) (props : Props) (item : α) : Except Int α :=
  match tags.find? (fun tag => tag.name = name) with
  | some tag =>
      match tag.handle props item with
      | none => .error tag.failure
      | some item' => .ok item'
  | none =>
      match common name props item with
      | none => .error unknown
      | some item' => .ok item'

/-- The loop over the children of an item. -/
def handleChildren {α : Type} (tags : List (Tag α)) (common : String → Props → α → Option α)
    (unknown : Int) : List Node → α → Except Int α
  | [], item => .ok item
  | .other :: ns, item => handleChildren tags common unknown ns item
  | .element name props _ :: ns, item =>
      match handleChild tags common unknown name props item with
      | .error rv => .error rv
      | .ok item' => handleChildren tags common unknown ns item'

/-- The tags of `handle_weapon`. -/
def weaponTags : List (Tag Weapon) :=
  [⟨"grind", -1, fun props w => (handleMax props w.grind).map fun grind => { w with grind }⟩,
    ⟨"percents", -2, fun props w =>
      (handleMax props w.percents).map fun percents => { w with percents }⟩,
    ⟨"attributes", -3, fun props w =>
      (handleAttributes props w.validAttrs).map fun validAttrs => { w with validAttrs }⟩]

/-- The common tags, for a weapon. -/
def weaponCommonTag (name : String) (props : Props) (w : Weapon) : Option Weapon :=
  (handleCommonTag name props w.toItemBase).map fun base => { w with toItemBase := base }

/-- `handle_weapon` -/
def handleWeapon : List Node → Weapon → Except Int Weapon :=
  handleChildren weaponTags weaponCommonTag (-4)

/-- `handle_frame` -/
def handleFrame : List Node → Frame → Except Int Frame :=
  handleChildren
    [⟨"slots", -1, fun props f => (handleMax props f.slots).map fun slots => { f with slots }⟩,
      ⟨"dfp", -2, fun props f => (handleMax props f.dfp).map fun dfp => { f with dfp }⟩,
      ⟨"evp", -3, fun props f => (handleMax props f.evp).map fun evp => { f with evp }⟩]
    (fun name props f =>
      (handleCommonTag name props f.toItemBase).map fun base => { f with toItemBase := base })
    (-4)

/-- `handle_barrier` -/
def handleBarrier : List Node → Barrier → Except Int Barrier :=
  handleChildren
    [⟨"dfp", -1, fun props b => (handleMax props b.dfp).map fun dfp => { b with dfp }⟩,
      ⟨"evp", -2, fun props b => (handleMax props b.evp).map fun evp => { b with evp }⟩]
    (fun name props b =>
      (handleCommonTag name props b.toItemBase).map fun base => { b with toItemBase := base })
    (-3)

/-- `handle_unit` -/
def handleUnit : List Node → UnitItem → Except Int UnitItem :=
  handleChildren
    [⟨"plus", -1, fun props u => (handleMax props u.plus).map fun plus => { u with plus }⟩]
    (fun name props u =>
      (handleCommonTag name props u.toItemBase).map fun base => { u with toItemBase := base })
    (-2)

/-- `handle_mag` -/
def handleMag : List Node → Mag → Except Int Mag :=
  handleChildren
    [⟨"level", -1, fun props m => (handleMax props m.level).map fun level => { m with level }⟩,
      ⟨"def", -2, fun props m =>
        (handleMax props m.defense).map fun defense => { m with defense }⟩,
      ⟨"pow", -3, fun props m => (handleMax props m.pow).map fun pow => { m with pow }⟩,
      ⟨"dex", -4, fun props m => (handleMax props m.dex).map fun dex => { m with dex }⟩,
      ⟨"mind", -5, fun props m => (handleMax props m.mind).map fun mind => { m with mind }⟩,
      ⟨"synchro", -6, fun props m =>
        (handleMax props m.synchro).map fun synchro => { m with synchro }⟩,
      ⟨"iq", -7, fun props m => (handleMax props m.iq).map fun iq => { m with iq }⟩,
      ⟨"pbs", -8, fun props m =>
        (handlePbs props m.allowedCpb m.allowedRpb m.allowedLpb).map fun v =>
          { m with allowedCpb := v.1, allowedRpb := v.2.1, allowedLpb := v.2.2 }⟩,
      ⟨"colors", -9, fun props m =>
        (handleColors props).map fun allowedColors => { m with allowedColors }⟩]
    (fun name props m =>
      (handleCommonTag name props m.toItemBase).map fun base => { m with toItemBase := base })
    (-10)

/-- `handle_tool` -/
def handleTool : List Node → Tool → Except Int Tool :=
  handleChildren
    [⟨"stack", -1, fun props t => (handleMax props t.stack).map fun stack => { t with stack }⟩]
    (fun name props t =>
      (handleCommonTag name props t.toItemBase).map fun base => { t with toItemBase := base })
    (-2)

/-! ## The items of the document -/

/-- The bytes of a code the other way round. -/
def swapCode (code : UInt32) : UInt32 :=
  ((code >>> 24) &&& (0xFF : UInt32)) ||| ((code >>> 8) &&& (0xFF00 : UInt32)) |||
    ((code &&& (0xFF00 : UInt32)) <<< (8 : UInt32)) |||
    ((code &&& (0xFF : UInt32)) <<< (24 : UInt32))

/-- The code of an item element, as the start of `handle_item` reads it. -/
def itemCodeOf (props : Props) (swap : Bool) : Except Int UInt32 :=
  match xmlGetProp props "code" with
  | none => .error (-1)
  | some str =>
      match strtoul str 16 with
      | none => .error (-2)
      | some code => .ok (if swap then swapCode code.toUInt32 else code.toUInt32)

/-- What `handle_item` returns when the handler of the item fails. -/
def failWith {α : Type} (rv : Int) : Except Int α → Except Int α
  | .ok item => .ok item
  | .error _ => .error rv

/-- The weapon that `handle_item` reads from the children of an element. -/
def readWeapon (code : UInt32) (children : List Node) : Except Int Weapon :=
  failWith (-4) (handleWeapon children { itemCode := code, validAttrs := fullAttrValid })

/-- The frame, barrier or unit that `handle_item` reads. -/
def readGuard (code : UInt32) (children : List Node) : Except Int Guard :=
  if (code >>> 8) &&& 0xFF = 0x01 then
    (failWith (-6) (handleFrame children { itemCode := code })).map .frame
  else if (code >>> 8) &&& 0xFF = 0x02 then
    (failWith (-8) (handleBarrier children { itemCode := code })).map .barrier
  else if (code >>> 8) &&& 0xFF = 0x03 then
    (failWith (-10) (handleUnit children { itemCode := code })).map .unit
  else .error (-11)

/-- The mag that `handle_item` reads, with the masks that the document has so far. -/
def readMag (l : Limits) (code : UInt32) (children : List Node) : Except Int Mag :=
  failWith (-13) (handleMag children
    { itemCode := code
      allowedColors := l.defaultColors
      allowedCpb := l.defaultCpb
      allowedRpb := l.defaultRpb
      allowedLpb := l.defaultLpb })

/-- The tool that `handle_item` reads. -/
def readTool (code : UInt32) (children : List Node) : Except Int Tool :=
  failWith (-15) (handleTool children { itemCode := code })

/-- `handle_item` -/
def handleItem (props : Props) (children : List Node) (l : Limits) (swap : Bool) :
    Except Int Limits :=
  match itemCodeOf props swap with
  | .error rv => .error rv
  | .ok code =>
      if code &&& 0xFF = 0x00 then
        (readWeapon code children).map fun w => { l with weapons := l.weapons ++ [w] }
      else if code &&& 0xFF = 0x01 then
        (readGuard code children).map fun g => { l with guards := l.guards ++ [g] }
      else if code &&& 0xFF = 0x02 then
        (readMag l code children).map fun m => { l with mags := l.mags ++ [m] }
      else if code &&& 0xFF = 0x03 then
        (readTool code children).map fun t => { l with tools := l.tools ++ [t] }
      else .error (-16)

/-- The loop of `sylverant_read_limits` over the children of the root. A tag that it does
not know is passed over. -/
def readChildren (swap : Bool) : List Node → Limits → Except Int Limits
  | [], l => .ok l
  | .other :: ns, l => readChildren swap ns l
  | .element name props children :: ns, l =>
      if name = "item" then
        match handleItem props children l swap with
        | .error _ => .error (-10)
        | .ok l' => readChildren swap ns l'
      else if name = "pbs" then
        match handlePbs props l.defaultCpb l.defaultRpb l.defaultLpb with
        | none => .error (-11)
        | some v =>
            readChildren swap ns
              { l with defaultCpb := v.1, defaultRpb := v.2.1, defaultLpb := v.2.2 }
      else if name = "colors" then
        match handleColors props with
        | none => .error (-12)
        | some defaultColors => readChildren swap ns { l with defaultColors }
      else readChildren swap ns l

/-- The limits that the attributes of the root make, before any item. -/
def startLimits (defAct srank pbs : String) : Limits where
  defaultBehavior := if defAct = "reject" then 0 else 1
  checkSrankNames := srank ≠ "false"
  checkPbs := pbs ≠ "false"

/-- `sylverant_read_limits`, on the root element of the document. -/
def sylverantReadLimits : Node → Except Int Limits
  | .other => .error (-7)
  | .element name props children =>
      if name ≠ "items" then .error (-8)
      else
        match xmlGetProp props "byteorder", xmlGetProp props "default",
          xmlGetProp props "check_sranks", xmlGetProp props "check_pbs" with
        | some bo, some defAct, some srank, some pbs =>
            readChildren (bo = "big") children (startLimits defAct srank pbs)
        | _, _, _, _ => .error (-9)

end Sylverant.Items
