/-
# Requests for drops

The functions of `ptdata.c` that answer the request of a client for what an enemy or a
box drops: they check the request, mark the enemy or the box, and may send an item to the
game. There are two of them for each of three editions of the game, which go the same
way with other tables.
-/

import Sylverant.Ship.DropItems

namespace Sylverant.Ship.Pt

open Function (update)
open Simulation
open Sylverant.Ship.QuestMap (QuestEnemy)
open Sylverant.Ship.Rt (RtSet)

/-- What the ship makes drops from, and its settings: the tables with the data for
drops, those with the rare items if they were read, the limits for items if there are
any, and whether there are rare and nearly rare items in quests. -/
structure DropData where
  v2Ptdata : Nat → Nat → PtEntry
  gcPtdata : TableIndex → PtEntry
  bbPtdata : TableIndex → PtEntry
  v2Rtdata : Option (Nat → Nat → RtSet)
  gcRtdata : Option (TableIndex → RtSet)
  pmtV2 : Pmt
  pmtGc : Pmt
  pmtBb : Pmt
  limits : Option (Nat → GenItem → Bool)
  questRares : Bool
  questSrares : Bool

/-- The client that makes a request. -/
structure Requester where
  version : Version
  curArea : Nat

/-! ## Sending an item -/

/-- `subcmd_send_lobby_item` -/
def subcmdSendLobbyItem (req : ItemReq) (item : GenItem) : Gen Int := do
  modify fun s => { s with
    lobby := { s.lobby with itemId := s.lobby.itemId + 1 }
    sent := s.sent ++ [⟨req, item, s.lobby.itemId⟩] }
  return 0

/-- The part of `check_and_send` that holds nearly rare items back. -/
def sendUnlessRare (d : DropData) (req : ItemReq) (item : GenItem) (csr : Bool) : Gen Int := do
  let l := (← get).lobby
  let stars :=
    if csr then
      match l.version with
      | .dcv1 | .dcv2 | .pc => d.pmtV2.stars item.w0
      | .gc => d.pmtGc.stars item.w0
      | _ => 0
    else 0
  if stars ≠ 0xFF ∧ stars ≥ 9 then return 0 else subcmdSendLobbyItem req item

/-- `check_and_send` -/
def checkAndSend (d : DropData) (c : Requester) (req : ItemReq) (item : GenItem) (csr : Bool) :
    Gen Int := do
  match d.limits with
  | none => sendUnlessRare d req item csr
  | some check =>
      match itemVersion c.version with
      | none => subcmdSendLobbyItem req item
      | some v => if check v item then sendUnlessRare d req item csr else return 0

/-- `lobby_add_item_locked`, for a game where there is memory, and
`subcmd_send_bb_lobby_item`. -/
def lobbyAddItem (req : ItemReq) (item : GenItem) : Gen Int := do
  modify fun s => { s with
    lobby := { s.lobby with itemId := s.lobby.itemId + 1 }
    added := s.added ++ [⟨req, item, s.lobby.itemId⟩]
    sent := s.sent ++ [⟨req, item, s.lobby.itemId⟩] }
  return 0

/-- `check_and_send_bb` -/
def checkAndSendBb (d : DropData) (req : ItemReq) (item : GenItem) (csr : Bool) : Gen Int := do
  if csr ∧ d.pmtBb.stars item.w0 ≥ 9 then return 0 else lobbyAddItem req item

/-! ## What an edition makes of a request -/

/-- The functions that a generator calls, with the data for the area. -/
structure Maker where
  ent : PtEntry
  area : Int
  weapon : GenItem → Bool → Gen GenItem
  armor : GenItem → Bool → Gen GenItem
  shield : GenItem → Bool → Gen GenItem
  unit : UInt8 → Gen GenItem
  tool : Gen GenItem
  mag : GenItem
  rare : Int → Int → Gen UInt32
  send : GenItem → Bool → Gen Int

namespace Maker

variable (mk : Maker) (item : GenItem) (doRare csr : Bool)

/-- Send what a function has made. -/
def sendMade (made : Gen GenItem) : Gen Int := do
  let item ← orNothing made
  mk.send item csr

/-- Send a random unit. -/
def sendUnit : Gen Int := do
  access (.column mk.area)
  mk.sendMade csr (mk.unit (mk.ent.unitLevel mk.area).toUInt8)

/-- Send a rare item, of which the first word is known. -/
def rareDrop : Gen Int := do
  let kind := item.w0 &&& 0xFF
  if kind = 0 then mk.sendMade csr (mk.weapon item true)
  else if kind = 1 then
    let part := (item.w0 >>> 8) &&& 0xFF
    if part = 1 then mk.sendMade csr (mk.armor item true)
    else if part = 2 then mk.sendMade csr (mk.shield item true)
    else if part = 3 then mk.send item csr
    else return 0
  else if kind = 2 then mk.send mk.mag csr
  else if kind = 3 then mk.send { item.clear with w1 := quantity item.w0 } csr
  else return 0

/-- The roll for a rare item, and the item with the word that is assigned then. -/
def rollRare (rtIndex area : Int) : Gen GenItem := do
  if doRare then
    let code ← mk.rare rtIndex area
    return { item with w0 := code }
  else return item

/-- What an enemy drops. -/
def enemyDrop (ptIndex : Nat) : Gen Int := do
  let item ← mk.rollRare item doRare ptIndex 0
  if doRare ∧ item.w0 ≠ 0 then mk.rareDrop item csr
  else
    let rnd ← draw
    if rnd % 3 = 0 then
      access (.enemyDrop ptIndex)
      let kind := mk.ent.enemyDrop ptIndex
      if kind = 0 then mk.sendMade csr (mk.weapon item false)
      else if kind = 1 then mk.sendMade csr (mk.armor item false)
      else if kind = 2 then mk.sendMade csr (mk.shield item false)
      else if kind = 3 then mk.sendUnit csr
      else return 0
    else if rnd % 3 = 1 then mk.sendMade csr mk.tool
    else
      access (.enemyMeseta ptIndex)
      mk.sendMade csr (generateMeseta (mk.ent.enemyMeseta ptIndex))

/-- Send some meseta out of a box. -/
def boxMeseta : Gen Int := do
  access (.column mk.area)
  mk.sendMade csr (generateMeseta (mk.ent.boxMeseta mk.area))

end Maker

/-- `ntohl` -/
def ntohl (x : UInt32) : UInt32 :=
  (x &&& 0xFF) <<< 24 ||| ((x >>> 8) &&& 0xFF) <<< 16 ||| ((x >>> 16) &&& 0xFF) <<< 8 ||| (x >>> 24)

/-- Whether a word is a `float` between `1.0f - EPSILON` and `1.0f + EPSILON`. Positive ones
are ordered as their words are. -/
def isOne (w : UInt32) : Bool := 0x3F7FBE77 < w ∧ w < 0x3F8020C5

/-- Whether a box has some item of a fixed type. -/
def MapObject.fixedType (obj : MapObject) : Bool :=
  (obj.skin = 0x00000092 ∨ obj.skin = 0x00000161) ∧ isOne (obj.dword 0)

/-- The type of the item in such a box. -/
def MapObject.itemType (obj : MapObject) : UInt32 := ntohl (obj.dword 2) &&& 0xFF

/-- The item in a box that has a fixed one. -/
def MapObject.fixedItem (obj : MapObject) : GenItem :=
  let w0 := ntohl (obj.dword 2)
  ⟨w0, quantity w0, 0, if w0 = 0x00000004 then (obj.dword 3 >>> 16) * 10 else 0⟩

namespace Maker

variable (mk : Maker) (item : GenItem) (doRare csr : Bool)

/-- What is in a box. -/
def boxDrop (obj : MapObject) : Gen Int := do
  if obj.fixedType then
    if isOne (obj.dword 1) then mk.send obj.fixedItem csr
    else if obj.itemType = 0 then mk.sendMade csr (mk.weapon item false)
    else if obj.itemType = 1 then mk.sendMade csr (mk.armor item false)
    else if obj.itemType = 3 then mk.sendMade csr mk.tool
    else if obj.itemType = 4 then mk.boxMeseta csr
    else return 0
  else
    let item ← mk.rollRare item doRare (-1) (mk.area + 1)
    if doRare ∧ item.w0 ≠ 0 then mk.rareDrop item csr
    else
      let rnd ← draw
      access (.column mk.area)
      match pick (fun i => (mk.ent.boxDrop i mk.area).toUInt32) 100 6 0 (rnd % 100) with
      | some 0 => mk.sendMade csr (mk.weapon item false)
      | some 1 => mk.sendMade csr (mk.armor item false)
      | some 2 => mk.sendMade csr (mk.shield item false)
      | some 3 => mk.sendUnit csr
      | some 4 => mk.sendMade csr mk.tool
      | some _ => mk.boxMeseta csr
      | none => return 0

end Maker

section Makers

variable (d : DropData) (c : Requester) (l : DropLobby) (req : ItemReq) (area : Int)

/-- The functions for versions 1 and 2. -/
def v2Maker : Maker :=
  let ent := d.v2Ptdata l.difficulty l.v1Section
  { ent, area
    weapon item picked := generateWeaponV2 ent area item picked (l.version = .dcv1)
    armor := generateArmor ent area d.pmtV2
    shield := generateShield ent area d.pmtV2
    unit := pmtRandomUnit d.pmtV2
    tool := generateToolV2 ent area
    mag := ⟨0x00050002, 0x000101F4, 0x00010001, 0x00280000⟩
    rare := rtGenerateRare (d.v2Rtdata.map fun sets => sets l.difficulty l.v1Section)
    send := checkAndSend d c req }

/-- The functions for the GameCube. -/
def gcMaker (entry : TableIndex) : Maker :=
  let ent := d.gcPtdata entry
  { ent, area
    weapon := generateWeaponV3 ent area
    armor := generateArmor ent area d.pmtGc
    shield := generateShield ent area d.pmtGc
    unit := pmtRandomUnit d.pmtGc
    tool := generateToolV3 ent area
    mag := ⟨0x00050002, 0x000001F4, 0x00000000, 0x280000FF⟩
    rare := rtGenerateRare (d.gcRtdata.map fun sets => sets (gcRareSet l.toDropGame))
    send := checkAndSend d c req }

/-- The functions for Blue Burst. -/
def bbMaker (entry : TableIndex) : Maker :=
  let ent := d.bbPtdata entry
  { ent, area
    weapon := generateWeaponV3 ent area
    armor := generateArmor ent area d.pmtBb
    shield := generateShield ent area d.pmtBb
    unit := pmtRandomUnit d.pmtBb
    tool := generateToolV3 ent area
    mag := ⟨0x00050002, 0x000001F4, 0x00000000, 0xFF000028⟩
    rare := rtGenerateRare (d.gcRtdata.map fun sets => sets (gcRareSet l.toDropGame))
    send := checkAndSendBb d req }

end Makers

/-! ## Quests -/

/-- `search_enemy_list`, where there is a list. -/
def searchEnemyList (id : UInt32) : Option (List QuestEnemy) → UInt32
  | none => 0xFFFFFFFF
  | some list =>
      match list.find? fun q => q.key = id with
      | none => 0xFFFFFFFF
      | some q => q.value

/-- `do_rare` and `csr`, by the settings of the ship. -/
def shipRares (d : DropData) (l : DropLobby) : Bool × Bool :=
  if l.qid ≠ 0 then (d.questRares, !d.questSrares) else (true, false)

/-- `do_rare` and `csr`, by what a quest says of an enemy or of boxes. -/
def questRares (d : DropData) (l : DropLobby) (qdrop : UInt32) : Gen (Bool × Bool) := do
  if l.qid ≠ 0 then
    if qdrop = 0 then throw 0
    else if qdrop = 1 then return (false, true)
    else if qdrop = 2 then return (false, false)
    else if qdrop = 3 then return (true, false)
    else return shipRares d l
  else return shipRares d l

/-- What a quest says of an enemy. -/
def enemyQdrop (l : DropLobby) (req : ItemReq) : UInt32 :=
  let qdrop := searchEnemyList (UInt32.ofNat req.req) l.mids
  if qdrop = 0xFFFFFFFF then searchEnemyList (UInt32.ofNat req.ptIndex) l.mtypes else qdrop

/-! ## The generators -/

/-- Go on with an area, or return. -/
def orReturn (area : Except Int Int) : Gen Int :=
  match area with
  | .error rv => throw rv
  | .ok area => return area

/-- The part of a generator that checks the request for a box and marks the box, with the
area that it goes on with. -/
def claimBox (episode curArea : Nat) (req : ItemReq) : Gen Int := do
  let l := (← get).lobby
  returnIf (req.ptIndex ≠ 0x30) (-1)
  returnIf (req.req > l.objCount) (-1)
  access (.obj req.req)
  returnIf (l.opened req.req) 0
  let area ← orReturn (dropArea episode curArea)
  modify fun s => { s with lobby := { s.lobby with opened := update s.lobby.opened req.req true } }
  return area

/-- The part of a generator that checks the request for an enemy and marks the enemy, with
the area that it goes on with. -/
def claimEnemy (episode curArea : Nat) (req : ItemReq) : Gen Int := do
  let l := (← get).lobby
  let area ← orReturn (dropArea episode curArea)
  returnIf (req.req > l.enemyCount) (-1)
  access (.enemy req.req)
  returnIf (l.dropDone req.req) 0
  modify fun s =>
    { s with lobby := { s.lobby with dropDone := update s.lobby.dropDone req.req true } }
  return area

/-- Whether an enemy drops anything at all. -/
def rollDar (ent : PtEntry) (ptIndex : Nat) : Gen Unit := do
  let rnd ← draw
  access (.enemyDar ptIndex)
  returnIf (rnd % 100 ≥ word (ent.enemyDar ptIndex)) 0

section Generators

variable (d : DropData) (c : Requester) (item : GenItem) (req : ItemReq)

/-- `pt_generate_v2_boxdrop`, where `item` is what the array holds at first. -/
def ptGenerateV2Boxdrop : Gen Int := do
  let l := (← get).lobby
  let area ← claimBox 1 c.curArea req
  let (doRare, csr) ← questRares d l (searchEnemyList 0x30 l.mtypes)
  (v2Maker d c l req area).boxDrop item doRare csr (l.objs req.req)

/-- `pt_generate_v2_drop` -/
def ptGenerateV2Drop : Gen Int := do
  let l := (← get).lobby
  returnIf (req.ptIndex > 0x33) (-1)
  if req.ptIndex = 0x30 then ptGenerateV2Boxdrop d c item req
  else
    let area ← claimEnemy 1 c.curArea req
    let mk := v2Maker d c l req area
    rollDar mk.ent req.ptIndex
    let (doRare, csr) ← questRares d l (enemyQdrop l req)
    mk.enemyDrop item doRare csr req.ptIndex

/-- `pt_generate_gc_boxdrop` -/
def ptGenerateGcBoxdrop : Gen Int := do
  let l := (← get).lobby
  let area ← claimBox l.episode c.curArea req
  let (doRare, csr) := shipRares d l
  (gcMaker d c l req area (gcBoxdropEntry l.toDropGame)).boxDrop item doRare csr (l.objs req.req)

/-- `pt_generate_gc_drop` -/
def ptGenerateGcDrop : Gen Int := do
  let l := (← get).lobby
  if req.ptIndex = 0x30 then ptGenerateGcBoxdrop d c item req
  else
    let area ← claimEnemy l.episode c.curArea req
    let mk := gcMaker d c l req area (gcDropEntry l.toDropGame)
    rollDar mk.ent req.ptIndex
    let (doRare, csr) := shipRares d l
    mk.enemyDrop item doRare csr req.ptIndex

/-- `pt_generate_bb_boxdrop` -/
def ptGenerateBbBoxdrop : Gen Int := do
  let l := (← get).lobby
  returnIf (l.episode = 3) 0
  let area ← claimBox l.episode c.curArea req
  let (doRare, csr) := shipRares d l
  (bbMaker d l req area (bbBoxdropEntry l.toDropGame)).boxDrop item doRare csr (l.objs req.req)

/-- `pt_generate_bb_drop` -/
def ptGenerateBbDrop : Gen Int := do
  let l := (← get).lobby
  returnIf (l.episode = 3) 0
  if req.ptIndex = 0x30 then ptGenerateBbBoxdrop d c item req
  else
    let area ← claimEnemy l.episode c.curArea req
    let mk := bbMaker d l req area (bbDropEntry l.toDropGame)
    rollDar mk.ent req.ptIndex
    let (doRare, csr) := shipRares d l
    mk.enemyDrop item doRare csr req.ptIndex

end Generators

/-- The six generators. -/
inductive Generator
  | v2Drop
  | v2Boxdrop
  | gcDrop
  | gcBoxdrop
  | bbDrop
  | bbBoxdrop
  deriving DecidableEq

/-- The function of a generator. -/
def Generator.run : Generator → DropData → Requester → GenItem → ItemReq → Gen Int
  | .v2Drop => ptGenerateV2Drop
  | .v2Boxdrop => ptGenerateV2Boxdrop
  | .gcDrop => ptGenerateGcDrop
  | .gcBoxdrop => ptGenerateGcBoxdrop
  | .bbDrop => ptGenerateBbDrop
  | .bbBoxdrop => ptGenerateBbBoxdrop

/-! ## Checking a request -/

section Claims

variable {episode curArea : Nat} {req : ItemReq} {s : GenState}

/-- The state with another access. -/
def GenState.logged (s : GenState) (a : Access) : GenState := { s with log := s.log ++ [a] }

/-- The state with a box that is opened. -/
def GenState.openBox (s : GenState) (i : Nat) : GenState :=
  { s with lobby := { s.lobby with opened := update s.lobby.opened i true } }

/-- The state with an enemy that has dropped what it drops. -/
def GenState.dropEnemy (s : GenState) (i : Nat) : GenState :=
  { s with lobby := { s.lobby with dropDone := update s.lobby.dropDone i true } }

/-- All that the check of a request for a box does. -/
theorem claimBox_eq (episode curArea : Nat) (req : ItemReq) (s : GenState) :
    claimBox episode curArea req s =
      if req.ptIndex ≠ 0x30 ∨ req.req > s.lobby.objCount then .error (-1) s
      else if s.lobby.opened req.req then .error 0 (s.logged (.obj req.req))
      else
        match dropArea episode curArea with
        | .error rv => .error rv (s.logged (.obj req.req))
        | .ok area => .ok area ((s.logged (.obj req.req)).openBox req.req) := by
  rw [claimBox, run_get_bind]
  by_cases hindex : req.ptIndex ≠ 0x30
  · rw [if_pos (.inl hindex), returnIf, if_pos hindex, run_throw_bind]
  · by_cases hreq : req.req > s.lobby.objCount
    · rw [if_pos (.inr hreq), returnIf, returnIf, if_neg hindex, if_pos hreq]
      rfl
    · rw [if_neg (not_or.mpr ⟨hindex, hreq⟩), returnIf, returnIf, if_neg hindex, if_neg hreq]
      by_cases hopened : s.lobby.opened req.req
      · rw [if_pos hopened, returnIf, if_pos hopened]
        rfl
      · rw [if_neg hopened, returnIf, if_neg hopened]
        cases dropArea episode curArea with
        | error rv => rfl
        | ok area => rfl

/-- All that the check of a request for an enemy does. -/
theorem claimEnemy_eq (episode curArea : Nat) (req : ItemReq) (s : GenState) :
    claimEnemy episode curArea req s =
      match dropArea episode curArea with
      | .error rv => .error rv s
      | .ok area =>
          if req.req > s.lobby.enemyCount then .error (-1) s
          else if s.lobby.dropDone req.req then .error 0 (s.logged (.enemy req.req))
          else .ok area ((s.logged (.enemy req.req)).dropEnemy req.req) := by
  rw [claimEnemy, run_get_bind]
  cases dropArea episode curArea with
  | error rv => rfl
  | ok area =>
      dsimp only
      rw [orReturn]
      by_cases hreq : req.req > s.lobby.enemyCount
      · rw [if_pos hreq, returnIf, if_pos hreq]
        rfl
      · rw [if_neg hreq, returnIf, if_neg hreq]
        by_cases hdone : s.lobby.dropDone req.req
        · rw [if_pos hdone, returnIf, if_pos hdone]
          rfl
        · rw [if_neg hdone, returnIf, if_neg hdone]
          rfl

/-- What a generator answers to a request that it does not go on with. -/
def answer {α : Type} : EStateM.Result Int GenState α → Except Int α
  | .ok a _ => .ok a
  | .error rv _ => .error rv

/-- A request for a box is checked up to the entry that the drop is made from. -/
theorem boxdrop_eq (entry : TableIndex) (curArea : Nat) (req : ItemReq) (s : GenState) :
    boxdrop s.lobby.toDropGame entry curArea req =
      (answer (claimBox s.lobby.episode curArea req s)).map fun area =>
        ⟨entry, area, gcRareSet s.lobby.toDropGame⟩ := by
  rw [claimBox_eq, boxdrop]
  by_cases hindex : req.ptIndex ≠ 0x30
  · rw [if_pos hindex, if_pos (.inl hindex)]
    rfl
  · by_cases hreq : req.req > s.lobby.objCount
    · rw [if_neg hindex, if_pos hreq, if_pos (.inr hreq)]
      rfl
    · rw [if_neg hindex, if_neg hreq, if_neg (not_or.mpr ⟨hindex, hreq⟩)]
      by_cases hopened : s.lobby.opened req.req
      · rw [if_pos hopened, if_pos hopened]
        rfl
      · rw [if_neg hopened, if_neg hopened]
        cases dropArea s.lobby.episode curArea with
        | error rv => rfl
        | ok area => rfl

/-- A request for an enemy is checked up to the entry that the drop is made from. -/
theorem enemyDrop_eq (entry : TableIndex) (curArea : Nat) (req : ItemReq) (s : GenState) :
    enemyDrop s.lobby.toDropGame entry curArea req =
      (answer (claimEnemy s.lobby.episode curArea req s)).map fun area =>
        ⟨entry, area, gcRareSet s.lobby.toDropGame⟩ := by
  rw [claimEnemy_eq, enemyDrop]
  cases dropArea s.lobby.episode curArea with
  | error rv => rfl
  | ok area =>
      dsimp only
      by_cases hreq : req.req > s.lobby.enemyCount
      · rw [if_pos hreq, if_pos hreq]
        rfl
      · rw [if_neg hreq, if_neg hreq]
        by_cases hdone : s.lobby.dropDone req.req
        · rw [if_pos hdone, if_pos hdone]
          rfl
        · rw [if_neg hdone, if_neg hdone]
          rfl

end Claims

/-! ## What the rest of a generator does -/

namespace Maker

variable {P Q : GenState → Prop} {mk : Maker}

/-- Making armor, units, meseta and rare codes keeps a condition. -/
structure Steady (mk : Maker) (P : GenState → Prop) : Prop where
  draw : Keeps P draw
  armor : ∀ item picked, Keeps P (mk.armor item picked)
  shield : ∀ item picked, Keeps P (mk.shield item picked)
  unit : ∀ max, Keeps P (mk.unit max)
  rare : ∀ rtIndex area, Keeps P (mk.rare rtIndex area)

/-- Making anything keeps a condition. -/
structure Stable (mk : Maker) (P : GenState → Prop) : Prop extends mk.Steady P where
  column : Keeps P (access (.column mk.area))
  weapon : ∀ item picked, Keeps P (mk.weapon item picked)
  tool : Keeps P mk.tool

/-- Sending leads from a condition to a weaker one. -/
structure Sends (mk : Maker) (P Q : GenState → Prop) : Prop where
  weak : ∀ s, P s → Q s
  send : ∀ item csr, Leads P Q (mk.send item csr)

variable (hsend : mk.Sends P Q)

include hsend

theorem Sends.nothing (rv : Int) : Leads P Q (pure rv : Gen Int) := hsend.weak

theorem Sends.sendMade {made : Gen GenItem} (hmade : Keeps P made) (csr : Bool) :
    Leads P Q (mk.sendMade csr made) :=
  (keeps_orNothing hmade).leads hsend.weak fun item => hsend.send item csr

/-- A rare item is sent, or nothing is. -/
theorem Sends.rareDrop (hmk : mk.Steady P)
    (hweapon : ∀ item picked, Keeps P (mk.weapon item picked))
    (item : GenItem) (csr : Bool) : Leads P Q (mk.rareDrop item csr) := by
  refine Leads.ite (hsend.sendMade (hweapon _ _) csr) (Leads.ite ?_ ?_)
  · refine Leads.ite (hsend.sendMade (hmk.armor _ _) csr) ?_
    refine Leads.ite (hsend.sendMade (hmk.shield _ _) csr) ?_
    exact Leads.ite (hsend.send _ csr) (hsend.nothing 0)
  · exact Leads.ite (hsend.send _ csr) (Leads.ite (hsend.send _ csr) (hsend.nothing 0))

theorem Sends.sendUnit (hmk : mk.Stable P) (csr : Bool) : Leads P Q (mk.sendUnit csr) :=
  hmk.column.leads hsend.weak fun _ => hsend.sendMade (hmk.unit _) csr

omit hsend in
theorem keeps_rollRare (hrare : ∀ rtIndex area, Keeps P (mk.rare rtIndex area)) (item : GenItem)
    (doRare : Bool) (rtIndex area : Int) : Keeps P (mk.rollRare item doRare rtIndex area) :=
  Keeps.ite ((hrare _ _).bind fun _ => Keeps.pure _) (Keeps.pure _)

/-- One item of an enemy is sent, or none is. -/
theorem Sends.enemyDrop (hmk : mk.Stable P) {ptIndex : Nat}
    (hdrop : Keeps P (access (.enemyDrop ptIndex)))
    (hmeseta : Keeps P (access (.enemyMeseta ptIndex))) (item : GenItem) (doRare csr : Bool) :
    Leads P Q (mk.enemyDrop item doRare csr ptIndex) := by
  refine (keeps_rollRare hmk.rare item doRare _ _).leads hsend.weak fun item => ?_
  refine Leads.ite (hsend.rareDrop hmk.toSteady hmk.weapon item csr) ?_
  refine hmk.draw.leads hsend.weak fun rnd => Leads.ite ?_ (Leads.ite ?_ ?_)
  · refine hdrop.leads hsend.weak fun _ => ?_
    refine Leads.ite (hsend.sendMade (hmk.weapon _ _) csr) ?_
    refine Leads.ite (hsend.sendMade (hmk.armor _ _) csr) ?_
    refine Leads.ite (hsend.sendMade (hmk.shield _ _) csr) ?_
    exact Leads.ite (hsend.sendUnit hmk csr) (hsend.nothing 0)
  · exact hsend.sendMade hmk.tool csr
  · refine hmeseta.leads hsend.weak fun _ => ?_
    exact hsend.sendMade (keeps_generateMeseta hmk.draw _) csr

theorem Sends.boxMeseta (hmk : mk.Stable P) (csr : Bool) : Leads P Q (mk.boxMeseta csr) :=
  hmk.column.leads hsend.weak fun _ => hsend.sendMade (keeps_generateMeseta hmk.draw _) csr

/-- One item in a box is sent, or none is. -/
theorem Sends.boxDrop (hmk : mk.Stable P) (obj : MapObject) (item : GenItem) (doRare csr : Bool) :
    Leads P Q (mk.boxDrop item doRare csr obj) := by
  refine Leads.ite (Leads.ite (hsend.send _ csr) ?_) ?_
  · refine Leads.ite (hsend.sendMade (hmk.weapon _ _) csr) ?_
    refine Leads.ite (hsend.sendMade (hmk.armor _ _) csr) ?_
    refine Leads.ite (hsend.sendMade hmk.tool csr) ?_
    exact Leads.ite (hsend.boxMeseta hmk csr) (hsend.nothing 0)
  · refine (keeps_rollRare hmk.rare item doRare _ _).leads hsend.weak fun item => ?_
    refine Leads.ite (hsend.rareDrop hmk.toSteady hmk.weapon item csr) ?_
    refine hmk.draw.leads hsend.weak fun rnd => hmk.column.leads hsend.weak fun _ => ?_
    split
    · exact hsend.sendMade (hmk.weapon _ _) csr
    · exact hsend.sendMade (hmk.armor _ _) csr
    · exact hsend.sendMade (hmk.shield _ _) csr
    · exact hsend.sendUnit hmk csr
    · exact hsend.sendMade hmk.tool csr
    · exact hsend.boxMeseta hmk csr
    · exact hsend.nothing 0

end Maker

section Makers

variable {P : GenState → Prop} {area : Int} (d : DropData) (c : Requester) (l : DropLobby)
  (req : ItemReq)

theorem v2Maker_steady (hdraw : Keeps P draw) : (v2Maker d c l req area).Steady P where
  draw := hdraw
  armor := keeps_generateArmor hdraw d.pmtV2
  shield := keeps_generateShield hdraw d.pmtV2
  unit := keeps_pmtRandomUnit hdraw d.pmtV2
  rare := keeps_rtGenerateRare hdraw _

theorem v2Maker_stable (h : Stable P area) : (v2Maker d c l req area).Stable P where
  toSteady := v2Maker_steady d c l req h.draw
  column := h.column
  weapon item picked := keeps_generateWeapon h 100 _ item picked
  tool := keeps_generateTool h _

theorem gcMaker_steady (entry : TableIndex) (hdraw : Keeps P draw) :
    (gcMaker d c l req area entry).Steady P where
  draw := hdraw
  armor := keeps_generateArmor hdraw d.pmtGc
  shield := keeps_generateShield hdraw d.pmtGc
  unit := keeps_pmtRandomUnit hdraw d.pmtGc
  rare := keeps_rtGenerateRare hdraw _

theorem gcMaker_stable (entry : TableIndex) (h : Stable P area) :
    (gcMaker d c l req area entry).Stable P where
  toSteady := gcMaker_steady d c l req entry h.draw
  column := h.column
  weapon item picked := keeps_generateWeapon h 10000 _ item picked
  tool := keeps_generateTool h _

theorem bbMaker_steady (entry : TableIndex) (hdraw : Keeps P draw) :
    (bbMaker d l req area entry).Steady P where
  draw := hdraw
  armor := keeps_generateArmor hdraw d.pmtBb
  shield := keeps_generateShield hdraw d.pmtBb
  unit := keeps_pmtRandomUnit hdraw d.pmtBb
  rare := keeps_rtGenerateRare hdraw _

theorem bbMaker_stable (entry : TableIndex) (h : Stable P area) :
    (bbMaker d l req area entry).Stable P where
  toSteady := bbMaker_steady d l req entry h.draw
  column := h.column
  weapon item picked := keeps_generateWeapon h 10000 _ item picked
  tool := keeps_generateTool h _

end Makers

section Sending

variable {P Q : GenState → Prop} {d : DropData} {c : Requester} {req : ItemReq}

/-- `check_and_send` sends the item once, or does not. -/
theorem leads_checkAndSend (hweak : ∀ s, P s → Q s)
    (hsend : ∀ item, Leads P Q (subcmdSendLobbyItem req item)) (item : GenItem) (csr : Bool) :
    Leads P Q (checkAndSend d c req item csr) := by
  have hnothing : Leads P Q (pure 0 : Gen Int) := hweak
  have hunless : Leads P Q (sendUnlessRare d req item csr) := by
    intro s hs
    rw [sendUnlessRare, run_get_bind]
    exact Leads.ite hnothing (hsend item) s hs
  rw [checkAndSend]
  split
  · exact hunless
  · split
    · exact hsend item
    · exact Leads.ite hunless hnothing

theorem leads_checkAndSendBb (hweak : ∀ s, P s → Q s)
    (hsend : ∀ item, Leads P Q (lobbyAddItem req item)) (item : GenItem) (csr : Bool) :
    Leads P Q (checkAndSendBb d req item csr) := by
  have hnothing : Leads P Q (pure 0 : Gen Int) := hweak
  exact Leads.ite hnothing (hsend item)

theorem keeps_questRares (l : DropLobby) (qdrop : UInt32) : Keeps P (questRares d l qdrop) := by
  refine Keeps.ite ?_ (Keeps.pure _)
  refine Keeps.ite (Keeps.throw _) (Keeps.ite (Keeps.pure _) ?_)
  exact Keeps.ite (Keeps.pure _) (Keeps.ite (Keeps.pure _) (Keeps.pure _))

theorem keeps_rollDar (hdraw : Keeps P draw) {ptIndex : Nat}
    (hdar : Keeps P (access (.enemyDar ptIndex))) (ent : PtEntry) :
    Keeps P (rollDar ent ptIndex) :=
  hdraw.bind fun _ => hdar.bind fun _ => Keeps.ite (Keeps.throw _) (Keeps.pure _)

end Sending

end Sylverant.Ship.Pt
