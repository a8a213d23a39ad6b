/-
# The words of the items that are dropped

The array for an item is not initialised. What the functions that make items return does
not depend on what it holds at first, and neither does a mag, a tool or what is fixed in a
box. The one item of which only the first word is ever assigned is a rare unit: the code
has it in the array and nothing is done to the other words.
-/

import Sylverant.Ship.DropBounds
import Sylverant.Ship.GameDrops
import Sylverant.Ship.WeightedDrops

namespace Sylverant.Ship.Pt

open GameTables
open Simulation
open Sylverant.Ship.Rt (RtData RtSet)

/-! ## Rolling for a rare item -/

/-- A code that stands for a unit. -/
def IsUnit (code : UInt32) : Prop := code &&& 0xFF = 1 ∧ (code >>> 8) &&& 0xFF = 3

instance (code : UInt32) : Decidable (IsUnit code) := inferInstanceAs (Decidable (_ ∧ _))

/-- The rare items that are rolled for, in their order: the one of an enemy, or those of the
boxes in an area. -/
def rareRows (set : RtSet) (rtIndex area : Int) : List RtData :=
  if rtIndex < -1 ∨ rtIndex > 100 then []
  else if rtIndex ≥ 0 then [set.enemyRares rtIndex.toNat]
  else ((List.range 30).map set.boxRares).filter (·.area = UInt32.ofInt area)

/-- The first of some rare items for which the roll is lucky is a unit. -/
def FirstIsUnit (rows : List RtData) (rng : Nat → UInt32) : Prop :=
  ∃ k row, rows[k]? = some row ∧ lucky (rng k) row.prob ∧ IsUnit row.itemData ∧
    ∀ j < k, ∀ before ∈ rows[j]?, lucky (rng j) before.prob = false

theorem not_firstIsUnit_nil (rng : Nat → UInt32) : ¬FirstIsUnit [] rng := by
  rintro ⟨k, row, hrow, -⟩
  cases hrow

/-- The first roll decides, unless it is not lucky. -/
theorem firstIsUnit_cons (row : RtData) (rows : List RtData) (rng : Nat → UInt32) :
    FirstIsUnit (row :: rows) rng ↔
      if lucky (rng 0) row.prob then IsUnit row.itemData
      else FirstIsUnit rows fun n => rng (n + 1) := by
  constructor
  · rintro ⟨k, found, hfound, hlucky, hunit, hbefore⟩
    cases k with
    | zero =>
        obtain rfl := Option.some.inj hfound
        rwa [if_pos hlucky]
    | succ k =>
        rw [if_neg (Bool.eq_false_iff.mp (hbefore 0 (Nat.succ_pos k) row rfl))]
        exact ⟨k, found, hfound, hlucky, hunit, fun j hj => hbefore (j + 1) (Nat.succ_lt_succ hj)⟩
  · split_ifs with hlucky
    · exact fun hunit => ⟨0, row, rfl, hlucky, hunit, fun j hj => absurd hj (Nat.not_lt_zero j)⟩
    · rintro ⟨k, found, hfound, hfirst, hunit, hbefore⟩
      refine ⟨k + 1, found, hfound, hfirst, hunit, fun j hj before hj' => ?_⟩
      cases j with
      | zero =>
          obtain rfl := Option.some.inj hj'
          exact Bool.eq_false_iff.mpr hlucky
      | succ j => exact hbefore j (Nat.lt_of_succ_lt_succ hj) before hj'

/-- The loop over the boxes returns the first lucky item. -/
theorem rareBox_run (set : RtSet) (area : Int) (left i : Nat) (s : GenState) :
    ∃ code n, rareBox set area left i s = .ok code (s.drawn n) ∧
      (IsUnit code ↔ FirstIsUnit
        (((List.range' i left).map set.boxRares).filter (·.area = UInt32.ofInt area)) s.rng) := by
  induction left generalizing i s with
  | zero =>
      refine ⟨0, 0, rfl, iff_of_false (by decide) (not_firstIsUnit_nil s.rng)⟩
  | succ left ih =>
      rw [List.range'_succ, List.map_cons, List.filter_cons]
      by_cases hrow : (set.boxRares i).area = UInt32.ofInt area
      · rw [if_pos (decide_eq_true hrow), firstIsUnit_cons, rareBox, if_pos hrow, run_draw_bind]
        by_cases hlucky : lucky (s.rng 0) (set.boxRares i).prob
        · rw [if_pos hlucky, if_pos hlucky]
          exact ⟨_, 1, rfl, Iff.rfl⟩
        · rw [if_neg hlucky, if_neg hlucky]
          obtain ⟨code, n, hrun, hunit⟩ := ih (i + 1) (s.drawn 1)
          exact ⟨code, 1 + n, by rw [hrun, GenState.drawn_drawn], hunit⟩
      · rw [if_neg (by simpa using hrow), rareBox, if_neg hrow]
        exact ih (i + 1) s

/-- A roll for a rare item gives a unit where the first lucky item is one. -/
theorem rtGenerateRare_run (set : Option RtSet) (rtIndex area : Int) (s : GenState) :
    ∃ code n, rtGenerateRare set rtIndex area s = .ok code (s.drawn n) ∧
      (IsUnit code ↔ ∃ rares ∈ set, FirstIsUnit (rareRows rares rtIndex area) s.rng) := by
  cases set with
  | none => exact ⟨0, 0, rfl, iff_of_false (by decide) (by simp)⟩
  | some rares =>
      simp only [Option.mem_some_iff, exists_eq_left', rareRows, rtGenerateRare]
      by_cases hout : rtIndex < -1 ∨ rtIndex > 100
      · rw [if_pos hout, if_pos hout]
        exact ⟨0xFFFFFFFF, 0, rfl, iff_of_false (by decide) (not_firstIsUnit_nil s.rng)⟩
      · rw [if_neg hout, if_neg hout]
        by_cases henemy : rtIndex ≥ 0
        · rw [if_pos henemy, if_pos henemy, run_draw_bind, firstIsUnit_cons]
          by_cases hlucky : lucky (s.rng 0) (rares.enemyRares rtIndex.toNat).prob
          · rw [if_pos hlucky, if_pos hlucky]
            exact ⟨_, 1, rfl, Iff.rfl⟩
          · rw [if_neg hlucky, if_neg hlucky]
            exact ⟨0, 1, rfl, iff_of_false (by decide) (not_firstIsUnit_nil _)⟩
        · rw [if_neg henemy, if_neg henemy, List.range_eq_range']
          exact rareBox_run rares area 30 0 s

/-! ## Making an item -/

namespace Maker

/-- The same functions, with another one in the place of the one that sends. -/
def handingTo (mk : Maker) (send : GenItem → Bool → Gen Int) : Maker := { mk with send }

/-- What the functions that make items return depends on the first word of the array at most,
and on that only if an item has been picked. -/
structure Fresh (mk : Maker) : Prop where
  weapon : ∀ (item item' : GenItem) (picked : Bool), (picked → item.w0 = item'.w0) →
    mk.weapon item picked = mk.weapon item' picked
  armor : ∀ (item item' : GenItem) (picked : Bool), (picked → item.w0 = item'.w0) →
    mk.armor item picked = mk.armor item' picked
  shield : ∀ (item item' : GenItem) (picked : Bool), (picked → item.w0 = item'.w0) →
    mk.shield item picked = mk.shield item' picked

end Maker

theorem generateWeapon_congr {ent : PtEntry} {area : Int} {percents : UInt32} {v1 : Bool}
    {item item' : GenItem} {picked : Bool} (h : picked → item.w0 = item'.w0) :
    generateWeapon ent area percents v1 item picked =
      generateWeapon ent area percents v1 item' picked := by
  cases picked with
  | false => rfl
  | true =>
      have hclear : item.clear = item'.clear := by rw [GenItem.clear, GenItem.clear, h rfl]
      rw [generateWeapon, generateWeapon, hclear]

theorem generateArmor_congr {ent : PtEntry} {area : Int} {pmt : Pmt} {item item' : GenItem}
    {picked : Bool} (h : picked → item.w0 = item'.w0) :
    generateArmor ent area pmt item picked = generateArmor ent area pmt item' picked := by
  cases picked with
  | false => rfl
  | true => rw [generateArmor, generateArmor, h rfl]

theorem generateShield_congr {ent : PtEntry} {area : Int} {pmt : Pmt} {item item' : GenItem}
    {picked : Bool} (h : picked → item.w0 = item'.w0) :
    generateShield ent area pmt item picked = generateShield ent area pmt item' picked := by
  cases picked with
  | false => rfl
  | true => rw [generateShield, generateShield, h rfl]

section Makers

variable (d : DropData) (c : Requester) (l : DropLobby) (req : ItemReq) (area : Int)

theorem fresh_v2Maker : (v2Maker d c l req area).Fresh where
  weapon _ _ _ := generateWeapon_congr
  armor _ _ _ := generateArmor_congr
  shield _ _ _ := generateShield_congr

theorem fresh_gcMaker (entry : TableIndex) : (gcMaker d c l req area entry).Fresh where
  weapon _ _ _ := generateWeapon_congr
  armor _ _ _ := generateArmor_congr
  shield _ _ _ := generateShield_congr

theorem fresh_bbMaker (entry : TableIndex) : (bbMaker d l req area entry).Fresh where
  weapon _ _ _ := generateWeapon_congr
  armor _ _ _ := generateArmor_congr
  shield _ _ _ := generateShield_congr

end Makers

namespace Maker

variable {mk : Maker} {item item' : GenItem} {doRare csr : Bool} {s t : GenState}
  {code : UInt32} {rtIndex area : Int}

theorem rollRare_true (hrun : mk.rare rtIndex area s = .ok code t) :
    mk.rollRare item true rtIndex area s = .ok { item with w0 := code } t := by
  rw [rollRare, if_pos rfl, bind_ok hrun]
  rfl

/-- A rare item that is not a unit has all of its words from the code. -/
theorem rareDrop_congr (hmk : mk.Fresh) (hunit : ¬IsUnit code) :
    mk.rareDrop { item with w0 := code } csr = mk.rareDrop { item' with w0 := code } csr := by
  have hw0 : ∀ picked : Bool, picked → ({ item with w0 := code } : GenItem).w0 =
      ({ item' with w0 := code } : GenItem).w0 := fun _ _ => rfl
  simp only [rareDrop]
  split_ifs with h0 h1 h2 h3 h4 h5
  · rw [hmk.weapon _ _ true (hw0 true)]
  · rw [hmk.armor _ _ true (hw0 true)]
  · rw [hmk.shield _ _ true (hw0 true)]
  · exact absurd ⟨h1, h4⟩ hunit
  all_goals rfl

/-- A rare unit is sent with what else the array holds. -/
theorem rareDrop_unit (hunit : IsUnit code) :
    mk.rareDrop { item with w0 := code } csr = mk.send { item with w0 := code } csr := by
  obtain ⟨hkind, hpart⟩ := hunit
  simp only [rareDrop, hkind, hpart]
  rfl

/-- The part of the two functions after the roll, for a rare item and for others. -/
theorem rareOr_congr (hmk : mk.Fresh) (hunit : ¬IsUnit code) {other other' : Gen Int}
    (hother : other = other') :
    (if true ∧ ({ item with w0 := code } : GenItem).w0 ≠ 0 then
        mk.rareDrop { item with w0 := code } csr else other) =
      if true ∧ ({ item' with w0 := code } : GenItem).w0 ≠ 0 then
        mk.rareDrop { item' with w0 := code } csr else other' := by
  rw [rareDrop_congr hmk hunit, hother]

theorem code_ne_zero (hunit : IsUnit code) : code ≠ 0 := by
  rintro rfl
  exact absurd hunit (by decide)

/-- Without a picked word nothing is made of what was in the array. -/
theorem Fresh.unpicked (hmk : mk.Fresh) (item item' : GenItem) :
    mk.weapon item false = mk.weapon item' false ∧ mk.armor item false = mk.armor item' false ∧
      mk.shield item false = mk.shield item' false := by
  have hnot : false = true → item.w0 = item'.w0 := fun h => absurd h Bool.false_ne_true
  exact ⟨hmk.weapon item item' false hnot, hmk.armor item item' false hnot,
    hmk.shield item item' false hnot⟩

/-- What an enemy drops does not depend on the array, unless it is a rare unit. -/
theorem enemyDrop_fresh (hmk : mk.Fresh) {ptIndex : Nat}
    (hrun : mk.rare ptIndex 0 s = .ok code t) (hunit : doRare → ¬IsUnit code) :
    mk.enemyDrop item doRare csr ptIndex s = mk.enemyDrop item' doRare csr ptIndex s := by
  obtain ⟨hweapon, harmor, hshield⟩ := hmk.unpicked item item'
  cases doRare with
  | false =>
      simp only [enemyDrop, rollRare, Bool.false_eq_true, if_false, pure_bind, false_and,
        hweapon, harmor, hshield]
  | true =>
      rw [enemyDrop, enemyDrop, bind_ok (rollRare_true hrun), bind_ok (rollRare_true hrun)]
      refine congrFun (rareOr_congr hmk (hunit rfl) ?_) t
      obtain ⟨hweapon, harmor, hshield⟩ :=
        hmk.unpicked { item with w0 := code } { item' with w0 := code }
      rw [hweapon, harmor, hshield]

/-- What is in a box does not depend on the array, unless it is a rare unit. -/
theorem boxDrop_fresh (hmk : mk.Fresh) {obj : MapObject}
    (hrun : mk.rare (-1) (mk.area + 1) s = .ok code t)
    (hunit : doRare → obj.fixedType = false → ¬IsUnit code) :
    mk.boxDrop item doRare csr obj s = mk.boxDrop item' doRare csr obj s := by
  obtain ⟨hweapon, harmor, hshield⟩ := hmk.unpicked item item'
  cases hfixed : obj.fixedType with
  | true =>
      simp only [boxDrop, hfixed, if_true, hweapon, harmor]
  | false =>
      rw [boxDrop, boxDrop, hfixed, if_neg Bool.false_ne_true, if_neg Bool.false_ne_true]
      cases doRare with
      | false =>
          simp only [rollRare, Bool.false_eq_true, if_false, pure_bind, false_and,
            hweapon, harmor, hshield]
      | true =>
          rw [bind_ok (rollRare_true hrun), bind_ok (rollRare_true hrun)]
          refine congrFun (rareOr_congr hmk (hunit rfl hfixed) ?_) t
          obtain ⟨hweapon, harmor, hshield⟩ :=
            hmk.unpicked { item with w0 := code } { item' with w0 := code }
          rw [hweapon, harmor, hshield]

theorem enemyDrop_unit {ptIndex : Nat} (hrun : mk.rare ptIndex 0 s = .ok code t)
    (hunit : IsUnit code) :
    mk.enemyDrop item true csr ptIndex s = mk.send { item with w0 := code } csr t := by
  rw [enemyDrop, bind_ok (rollRare_true hrun), if_pos ⟨rfl, code_ne_zero hunit⟩,
    rareDrop_unit hunit]

theorem boxDrop_unit {obj : MapObject} (hrun : mk.rare (-1) (mk.area + 1) s = .ok code t)
    (hfixed : obj.fixedType = false) (hunit : IsUnit code) :
    mk.boxDrop item true csr obj s = mk.send { item with w0 := code } csr t := by
  rw [boxDrop, hfixed, if_neg Bool.false_ne_true, bind_ok (rollRare_true hrun),
    if_pos ⟨rfl, code_ne_zero hunit⟩, rareDrop_unit hunit]

end Maker

/-! ## The generators -/

namespace Generator

/-- The generators for versions 1 and 2. -/
def isV2 : Generator → Bool
  | .v2Drop | .v2Boxdrop => true
  | _ => false

/-- Whether a generator answers a request as one for a box. -/
def forBox (gen : Generator) (req : ItemReq) : Bool :=
  match gen with
  | .v2Boxdrop | .gcBoxdrop | .bbBoxdrop => true
  | _ => req.ptIndex = 0x30

/-- What a generator returns for a request at once. -/
def refusal (gen : Generator) (l : DropLobby) (req : ItemReq) : Option Int :=
  match gen with
  | .v2Drop => if req.ptIndex > 0x33 then some (-1) else none
  | .bbDrop | .bbBoxdrop => if l.episode = 3 then some 0 else none
  | _ => none

/-- The episode whose areas a generator knows. -/
def episode (gen : Generator) (l : DropLobby) : Nat := if gen.isV2 then 1 else l.episode

/-- What a generator makes items with. -/
def maker (gen : Generator) (d : DropData) (c : Requester) (l : DropLobby) (req : ItemReq)
    (area : Int) : Maker :=
  match gen with
  | .v2Drop | .v2Boxdrop => v2Maker d c l req area
  | .gcDrop | .gcBoxdrop =>
      gcMaker d c l req area
        (if gen.forBox req then gcBoxdropEntry l.toDropGame else gcDropEntry l.toDropGame)
  | .bbDrop | .bbBoxdrop =>
      bbMaker d l req area
        (if gen.forBox req then bbBoxdropEntry l.toDropGame else bbDropEntry l.toDropGame)

/-- `qdrop` -/
def qdrop (gen : Generator) (l : DropLobby) (req : ItemReq) : UInt32 :=
  if gen.forBox req then searchEnemyList 0x30 l.mtypes else enemyQdrop l req

/-- `do_rare` and `csr` -/
def rares (gen : Generator) (d : DropData) (l : DropLobby) (req : ItemReq) : Gen (Bool × Bool) :=
  if gen.isV2 then Pt.questRares d l (gen.qdrop l req) else return shipRares d l

/-- A generator with another function in the place of the one that it hands an item to. -/
def runWith (gen : Generator) (send : Maker → GenItem → Bool → Gen Int) (d : DropData)
    (c : Requester) (item : GenItem) (req : ItemReq) : Gen Int := do
  let l := (← get).lobby
  match gen.refusal l req with
  | some rv => throw rv
  | none =>
      if gen.forBox req then
        let area ← claimBox (gen.episode l) c.curArea req
        let mk := gen.maker d c l req area
        let (doRare, csr) ← gen.rares d l req
        (mk.handingTo (send mk)).boxDrop item doRare csr (l.objs req.req)
      else
        let area ← claimEnemy (gen.episode l) c.curArea req
        let mk := gen.maker d c l req area
        rollDar mk.ent req.ptIndex
        let (doRare, csr) ← gen.rares d l req
        (mk.handingTo (send mk)).enemyDrop item doRare csr req.ptIndex

/-- With the function that it has, that is the generator. -/
theorem runWith_send (gen : Generator) (d : DropData) (c : Requester) (item : GenItem)
    (req : ItemReq) : gen.runWith Maker.send d c item req = gen.run d c item req := by
  funext s
  rw [runWith, run_get_bind]
  cases gen with
  | v2Boxdrop => rfl
  | gcBoxdrop => rfl
  | v2Drop =>
      rw [run, ptGenerateV2Drop, run_get_bind, refusal, returnIf]
      by_cases hhigh : req.ptIndex > 0x33
      · rw [if_pos hhigh, if_pos hhigh]
        rfl
      · rw [if_neg hhigh, if_neg hhigh, run_pure_bind]
        by_cases hbox : req.ptIndex = 0x30
        · simp only [forBox, maker, rares, qdrop, hbox]
          rfl
        · simp only [forBox, maker, rares, qdrop, hbox]
          rfl
  | gcDrop =>
      rw [run, ptGenerateGcDrop, run_get_bind]
      by_cases hbox : req.ptIndex = 0x30
      · simp only [forBox, maker, rares, qdrop, hbox]
        rfl
      · simp only [forBox, maker, rares, qdrop, hbox]
        rfl
  | bbDrop =>
      rw [run, ptGenerateBbDrop, run_get_bind, refusal, returnIf]
      by_cases hepisode : s.lobby.episode = 3
      · rw [if_pos hepisode, if_pos hepisode]
        rfl
      · rw [if_neg hepisode, if_neg hepisode, run_pure_bind]
        by_cases hbox : req.ptIndex = 0x30
        · rw [if_pos hbox, ptGenerateBbBoxdrop, run_get_bind, returnIf, if_neg hepisode]
          simp only [forBox, maker, rares, qdrop, hbox]
          rfl
        · simp only [forBox, maker, rares, qdrop, hbox]
          rfl
  | bbBoxdrop =>
      rw [run, ptGenerateBbBoxdrop, run_get_bind, refusal, returnIf]
      by_cases hepisode : s.lobby.episode = 3
      · rw [if_pos hepisode, if_pos hepisode]
        rfl
      · rw [if_neg hepisode, if_neg hepisode]
        rfl

/-- `do_rare`, where a generator goes on. -/
def doRare (gen : Generator) (d : DropData) (l : DropLobby) (req : ItemReq) : Bool :=
  if gen.isV2 then questDoRare d l (gen.qdrop l req) else (shipRares d l).1

/-- A quest says that there is no drop. -/
def Silenced (gen : Generator) (l : DropLobby) (req : ItemReq) : Prop :=
  gen.isV2 ∧ l.qid ≠ 0 ∧ gen.qdrop l req = 0

/-- The rare items that a generator rolls for, if they were read. -/
def rareSet (gen : Generator) (d : DropData) (l : DropLobby) : Option RtSet :=
  if gen.isV2 then d.v2Rtdata.map fun sets => sets l.difficulty l.v1Section
  else d.gcRtdata.map fun sets => sets (gcRareSet l.toDropGame)

/-- The roll for a rare item comes to a unit: the request is one that the generator goes on
with, an enemy drops something at all, a box has no fixed type, rare items are rolled for,
and the first lucky one of those that there are for the enemy or for the area is a unit. -/
def RollsUnit (gen : Generator) (d : DropData) (c : Requester) (req : ItemReq) (s : GenState) :
    Prop :=
  gen.refusal s.lobby req = none ∧ ¬gen.Silenced s.lobby req ∧ gen.doRare d s.lobby req ∧
    ∃ area, dropArea (gen.episode s.lobby) c.curArea = .ok area ∧
      ∃ rares ∈ gen.rareSet d s.lobby,
        if gen.forBox req then
          boxServed s.lobby c req (gen.episode s.lobby) ∧
            (s.lobby.objs req.req).fixedType = false ∧
            FirstIsUnit (rareRows rares (-1) (area + 1)) s.rng
        else
          enemyServed s.lobby c req (gen.episode s.lobby) ∧
            s.rng 0 % 100 <
              word ((gen.maker d c s.lobby req area).ent.enemyDar req.ptIndex) ∧
            FirstIsUnit (rareRows rares req.ptIndex 0) fun n => s.rng (n + 1)

variable {gen : Generator} {d : DropData} {c : Requester} {req : ItemReq} {s : GenState}
  {item item' : GenItem}

theorem maker_rare (l : DropLobby) (area : Int) :
    (gen.maker d c l req area).rare = rtGenerateRare (gen.rareSet d l) := by
  cases gen <;> rfl

theorem maker_area (l : DropLobby) (area : Int) (send : GenItem → Bool → Gen Int) :
    ((gen.maker d c l req area).handingTo send).area = area := by
  cases gen <;> rfl

theorem fresh_maker (l : DropLobby) (area : Int) (send : GenItem → Bool → Gen Int) :
    ((gen.maker d c l req area).handingTo send).Fresh := by
  have hmk : (gen.maker d c l req area).Fresh := by cases gen with
    | v2Drop => exact fresh_v2Maker d c l req area
    | v2Boxdrop => exact fresh_v2Maker d c l req area
    | gcDrop => exact fresh_gcMaker d c l req area _
    | gcBoxdrop => exact fresh_gcMaker d c l req area _
    | bbDrop => exact fresh_bbMaker d l req area _
    | bbBoxdrop => exact fresh_bbMaker d l req area _
  exact ⟨hmk.weapon, hmk.armor, hmk.shield⟩

/-- A quest says that there is no drop, or whether a rare item is rolled for. -/
theorem questRares_run (l : DropLobby) (q : UInt32) (s : GenState) :
    if l.qid ≠ 0 ∧ q = 0 then Pt.questRares d l q s = .error 0 s
    else ∃ csr, Pt.questRares d l q s = .ok (questDoRare d l q, csr) s := by
  rw [Pt.questRares, questDoRare]
  by_cases hqid : l.qid ≠ 0
  · by_cases h0 : q = 0
    · rw [if_pos ⟨hqid, h0⟩, if_pos hqid, if_pos h0]
      rfl
    · rw [if_neg fun h => h0 h.2, if_pos hqid, if_neg h0]
      by_cases h1 : q = 1
      · rw [if_pos h1, if_pos ⟨hqid, .inl h1⟩]
        exact ⟨_, rfl⟩
      · by_cases h2 : q = 2
        · rw [if_neg h1, if_pos h2, if_pos ⟨hqid, .inr h2⟩]
          exact ⟨_, rfl⟩
        · have hother : ¬(l.qid ≠ 0 ∧ (q = 1 ∨ q = 2)) := fun h => h.2.elim h1 h2
          rw [if_neg h1, if_neg h2, if_neg hother]
          by_cases h3 : q = 3
          · rw [if_pos h3, if_pos ⟨hqid, h3⟩]
            exact ⟨_, rfl⟩
          · have hother : ¬(l.qid ≠ 0 ∧ q = 3) := fun h => h3 h.2
            rw [if_neg h3, if_neg hother]
            exact ⟨_, rfl⟩
  · rw [if_neg fun h => hqid h.1, if_neg hqid, if_neg fun h => hqid h.1,
      if_neg fun h => hqid h.1]
    exact ⟨_, rfl⟩

theorem rares_error (h : gen.Silenced s.lobby req) (t : GenState) :
    gen.rares d s.lobby req t = .error 0 t := by
  have hrun := questRares_run (d := d) s.lobby (gen.qdrop s.lobby req) t
  rw [if_pos h.2] at hrun
  rw [rares, if_pos h.1, hrun]

theorem rares_ok (h : ¬gen.Silenced s.lobby req) (t : GenState) :
    ∃ csr, gen.rares d s.lobby req t = .ok (gen.doRare d s.lobby req, csr) t := by
  rw [rares, doRare]
  by_cases hv2 : gen.isV2
  · have hrun := questRares_run (d := d) s.lobby (gen.qdrop s.lobby req) t
    rw [if_neg fun hq => h ⟨hv2, hq⟩] at hrun
    rwa [if_pos hv2, if_pos hv2]
  · rw [if_neg hv2, if_neg hv2]
    exact ⟨_, rfl⟩

/-- A request for a box that is gone on with, and where. -/
theorem claimBox_ok {n : Nat} {area : Int} {u : GenState}
    (h : claimBox n c.curArea req s = .ok area u) :
    boxServed s.lobby c req n ∧ dropArea n c.curArea = .ok area ∧ u.rng = s.rng := by
  refine ⟨boxServed_of_claimBox h, ?_⟩
  rw [claimBox_eq] at h
  split_ifs at h
  cases harea : dropArea n c.curArea with
  | error rv =>
      rw [harea] at h
      cases h
  | ok area' =>
      rw [harea] at h
      cases h
      exact ⟨rfl, rfl⟩

/-- A request for an enemy that is gone on with, and where. -/
theorem claimEnemy_ok {n : Nat} {area : Int} {u : GenState}
    (h : claimEnemy n c.curArea req s = .ok area u) :
    enemyServed s.lobby c req n ∧ dropArea n c.curArea = .ok area ∧ u.rng = s.rng := by
  refine ⟨enemyServed_of_claimEnemy h, ?_⟩
  rw [claimEnemy_eq] at h
  cases harea : dropArea n c.curArea with
  | error rv =>
      rw [harea] at h
      cases h
  | ok area' =>
      rw [harea] at h
      dsimp only at h
      split_ifs at h
      cases h
      exact ⟨rfl, rfl⟩

/-- Whether an enemy drops anything is rolled for with the next number. -/
theorem rollDar_run (ent : PtEntry) (ptIndex : Nat) (u : GenState) :
    rollDar ent ptIndex u =
      if u.rng 0 % 100 < word (ent.enemyDar ptIndex) then
        .ok () ((u.drawn 1).logged (.enemyDar ptIndex))
      else .error 0 ((u.drawn 1).logged (.enemyDar ptIndex)) := by
  rw [rollDar, run_draw_bind, run_access_bind, returnIf]
  by_cases hdar : u.rng 0 % 100 < word (ent.enemyDar ptIndex)
  · have hlow : ¬u.rng 0 % 100 ≥ word (ent.enemyDar ptIndex) := UInt32.not_le.mpr hdar
    rw [if_pos hdar, if_neg hlow]
    rfl
  · have hhigh : u.rng 0 % 100 ≥ word (ent.enemyDar ptIndex) := UInt32.not_lt.mp hdar
    rw [if_neg hdar, if_pos hhigh]
    rfl

/-- The roll for a rare item in a game. -/
theorem maker_rare_run (gen : Generator) (d : DropData) (c : Requester) (req : ItemReq)
    (l : DropLobby) (area rtIndex a : Int) (u : GenState) :
    ∃ code n, (∀ send, ((gen.maker d c l req area).handingTo send).rare rtIndex a u =
        .ok code (u.drawn n)) ∧
      (IsUnit code ↔
        ∃ rares ∈ gen.rareSet d l, FirstIsUnit (rareRows rares rtIndex a) u.rng) := by
  obtain ⟨code, n, hrun, hunit⟩ := rtGenerateRare_run (gen.rareSet d l) rtIndex a u
  exact ⟨code, n, fun send => by rw [Maker.handingTo, maker_rare, hrun], hunit⟩

/-- The roll for the boxes of the area. -/
theorem box_rare_run (gen : Generator) (d : DropData) (c : Requester) (req : ItemReq)
    (l : DropLobby) (area : Int) (u : GenState) :
    ∃ code n, (∀ send, ((gen.maker d c l req area).handingTo send).rare (-1)
        (((gen.maker d c l req area).handingTo send).area + 1) u = .ok code (u.drawn n)) ∧
      (IsUnit code ↔
        ∃ rares ∈ gen.rareSet d l, FirstIsUnit (rareRows rares (-1) (area + 1)) u.rng) := by
  obtain ⟨code, n, hrun, hunit⟩ := gen.maker_rare_run d c req l area (-1) (area + 1) u
  exact ⟨code, n, fun send => by rw [maker_area]; exact hrun send, hunit⟩

/-- Where the rare roll does not come to a unit, what the array holds has no effect. -/
theorem runWith_fresh (send : Maker → GenItem → Bool → Gen Int)
    (h : ¬gen.RollsUnit d c req s) :
    gen.runWith send d c item req s = gen.runWith send d c item' req s := by
  rw [runWith, runWith, run_get_bind, run_get_bind]
  cases hrefusal : gen.refusal s.lobby req with
  | some rv => rfl
  | none =>
      dsimp only
      split_ifs with hbox
      · refine bind_eq_of_ok fun area u hclaim => ?_
        obtain ⟨hserved, harea, hrng⟩ := claimBox_ok hclaim
        by_cases hsilent : gen.Silenced s.lobby req
        · rw [bind_error (rares_error hsilent u), bind_error (rares_error hsilent u)]
        · obtain ⟨csr, hcsr⟩ := rares_ok (d := d) hsilent u
          rw [bind_ok hcsr, bind_ok hcsr]
          obtain ⟨code, n, hrun, hunit⟩ := gen.box_rare_run d c req s.lobby area u
          refine Maker.boxDrop_fresh (fresh_maker s.lobby area _) (hrun _)
            fun hrare hfixed hcode => h ?_
          obtain ⟨rares, hrares, hfirst⟩ := hunit.mp hcode
          refine ⟨hrefusal, hsilent, hrare, area, harea, rares, hrares, ?_⟩
          rw [if_pos hbox]
          exact ⟨hserved, hfixed, hrng ▸ hfirst⟩
      · refine bind_eq_of_ok fun area u hclaim => ?_
        obtain ⟨hserved, harea, hrng⟩ := claimEnemy_ok hclaim
        refine bind_eq_of_ok fun _ v hdar => ?_
        rw [rollDar_run] at hdar
        split_ifs at hdar with hdrops
        cases hdar
        by_cases hsilent : gen.Silenced s.lobby req
        · rw [bind_error (rares_error hsilent _), bind_error (rares_error hsilent _)]
        · obtain ⟨csr, hcsr⟩ :=
            rares_ok (d := d) hsilent ((u.drawn 1).logged (.enemyDar req.ptIndex))
          rw [bind_ok hcsr, bind_ok hcsr]
          obtain ⟨code, n, hrun, hunit⟩ := gen.maker_rare_run d c req s.lobby area req.ptIndex 0
            ((u.drawn 1).logged (.enemyDar req.ptIndex))
          refine Maker.enemyDrop_fresh (fresh_maker s.lobby area _) (hrun _)
            fun hrare hcode => h ?_
          obtain ⟨rares, hrares, hfirst⟩ := hunit.mp hcode
          refine ⟨hrefusal, hsilent, hrare, area, harea, rares, hrares, ?_⟩
          rw [if_neg hbox, ← hrng]
          exact ⟨hserved, hdrops, hfirst⟩

theorem claimBox_served {n : Nat} {area : Int} (hserved : boxServed s.lobby c req n)
    (harea : dropArea n c.curArea = .ok area) :
    ∃ u, claimBox n c.curArea req s = .ok area u ∧ u.rng = s.rng := by
  simp only [boxServed, Bool.and_eq_true, decide_eq_true_eq, Bool.not_eq_true'] at hserved
  obtain ⟨⟨⟨hindex, hreq⟩, hopened⟩, -⟩ := hserved
  have hsane : ¬(req.ptIndex ≠ 0x30 ∨ req.req > s.lobby.objCount) := by omega
  have hclosed : ¬s.lobby.opened req.req = true := Bool.eq_false_iff.mp hopened
  rw [claimBox_eq, if_neg hsane, if_neg hclosed, harea]
  exact ⟨_, rfl, rfl⟩

theorem claimEnemy_served {n : Nat} {area : Int} (hserved : enemyServed s.lobby c req n)
    (harea : dropArea n c.curArea = .ok area) :
    ∃ u, claimEnemy n c.curArea req s = .ok area u ∧ u.rng = s.rng := by
  simp only [enemyServed, Bool.and_eq_true, decide_eq_true_eq, Bool.not_eq_true'] at hserved
  obtain ⟨⟨-, hreq⟩, hdone⟩ := hserved
  have halive : ¬s.lobby.dropDone req.req = true := Bool.eq_false_iff.mp hdone
  rw [claimEnemy_eq, harea]
  dsimp only
  rw [if_neg (Nat.not_lt.mpr hreq), if_neg halive]
  exact ⟨_, rfl, rfl⟩

/-- Where the rare roll comes to a unit, it is handed over with what the array holds. -/
theorem runWith_unit (h : gen.RollsUnit d c req s) :
    ∃ mk code csr t, ∀ send item,
      gen.runWith send d c item req s = send mk { item with w0 := code } csr t := by
  obtain ⟨hrefusal, hsilent, hrare, area, harea, rares, hrares, hplace⟩ := h
  by_cases hbox : gen.forBox req
  · rw [if_pos hbox] at hplace
    obtain ⟨hserved, hfixed, hfirst⟩ := hplace
    obtain ⟨u, hclaim, hrng⟩ := claimBox_served hserved harea
    obtain ⟨csr, hcsr⟩ := rares_ok (d := d) hsilent u
    obtain ⟨code, n, hrun, hunit⟩ := gen.box_rare_run d c req s.lobby area u
    refine ⟨gen.maker d c s.lobby req area, code, csr, u.drawn n, fun send item => ?_⟩
    rw [runWith, run_get_bind, hrefusal]
    dsimp only
    rw [if_pos hbox, bind_ok hclaim, bind_ok hcsr, hrare]
    exact Maker.boxDrop_unit (hrun _) hfixed (hunit.mpr ⟨rares, hrares, hrng ▸ hfirst⟩)
  · rw [if_neg hbox] at hplace
    obtain ⟨hserved, hdrops, hfirst⟩ := hplace
    obtain ⟨u, hclaim, hrng⟩ := claimEnemy_served hserved harea
    rw [← hrng] at hdrops hfirst
    have hdar := rollDar_run (gen.maker d c s.lobby req area).ent req.ptIndex u
    rw [if_pos hdrops] at hdar
    obtain ⟨csr, hcsr⟩ := rares_ok (d := d) hsilent ((u.drawn 1).logged (.enemyDar req.ptIndex))
    obtain ⟨code, n, hrun, hunit⟩ := gen.maker_rare_run d c req s.lobby area req.ptIndex 0
      ((u.drawn 1).logged (.enemyDar req.ptIndex))
    refine ⟨gen.maker d c s.lobby req area, code, csr,
      ((u.drawn 1).logged (.enemyDar req.ptIndex)).drawn n, fun send item => ?_⟩
    rw [runWith, run_get_bind, hrefusal]
    dsimp only
    rw [if_neg hbox, bind_ok hclaim, bind_ok hdar, bind_ok hcsr, hrare]
    exact Maker.enemyDrop_unit (hrun _) (hunit.mpr ⟨rares, hrares, hfirst⟩)

/-! ## What is handed over -/

/-- Note the item in the place of `check_and_send` and `check_and_send_bb`. -/
def handOver (req : ItemReq) (_ : Maker) (item : GenItem) (_ : Bool) : Gen Int := do
  modify fun s => { s with sent := s.sent ++ [⟨req, item, s.lobby.itemId⟩] }
  return 0

/-- The items that have been handed over when a generator has answered a request. -/
def handed (gen : Generator) (d : DropData) (c : Requester) (item : GenItem) (req : ItemReq)
    (s : GenState) : List Sent :=
  (endState (gen.runWith (handOver req) d c item req s)).sent

/-- What the array for the item holds at first has no effect on what is handed over, and none
on what is sent. -/
def AssignsWords (gen : Generator) (d : DropData) (c : Requester) (req : ItemReq)
    (s : GenState) : Prop :=
  ∀ item item', gen.handed d c item req s = gen.handed d c item' req s ∧
    (endState (gen.run d c item req s)).sent = (endState (gen.run d c item' req s)).sent

/-- All words of an item are assigned, unless it is a rare unit. -/
theorem assignsWords_iff (gen : Generator) (d : DropData) (c : Requester) (req : ItemReq)
    (s : GenState) : gen.AssignsWords d c req s ↔ ¬gen.RollsUnit d c req s := by
  constructor
  · intro hassigns hunit
    obtain ⟨mk, code, csr, t, hrun⟩ := runWith_unit hunit
    have hsame := (hassigns ⟨0, 0, 0, 0⟩ ⟨0, 1, 0, 0⟩).1
    rw [handed, handed, hrun, hrun] at hsame
    have hsent := List.append_cancel_left hsame
    simp at hsent
  · intro hunit item item'
    rw [handed, handed, ← runWith_send, ← runWith_send]
    exact ⟨by rw [runWith_fresh _ hunit], by rw [runWith_fresh _ hunit]⟩

/-- A ship with one rare item, for the first enemy. -/
def rareKnight : DropData :=
  { oneWeaponData with
    v2Rtdata := some fun _ _ => { enemyRares := fun _ => ⟨0xE0000000, 0x000301, 0⟩ } }

/-- The unit is sent with what the array holds. -/
theorem not_assignsWords :
    ¬∀ (gen : Generator) (d : DropData) (c : Requester) (req : ItemReq) (s : GenState),
      gen.AssignsWords d c req s := by
  intro hall
  have hsame := (hall .v2Drop rareKnight ⟨.dcv2, 1⟩ ⟨1, 0⟩
    ⟨smallLobby, fun _ => 0, [], [], []⟩ ⟨0, 0, 0, 0⟩ ⟨0, 1, 0, 0⟩).1
  exact absurd (congrArg (List.map Sent.item) hsame) (by decide)

end Generator

end Sylverant.Ship.Pt
