/-
# The bounds of a request for a drop

Which requests stay inside of the arrays. The number of enemies, or of boxes, passes the
check of the id in a request, and the generators of the GameCube and of Blue Burst take
any index for an enemy, and any area in an episode that they do not know.
-/

import Sylverant.Ship.DropRequests

namespace Sylverant.Ship.Pt

open Simulation

/-! ## Safe requests -/

/-- An access inside of an array, where those of the map have as many entries as it says,
those for the indices of enemies have 100, and those for areas have 10. -/
def Access.Inside (l : DropLobby) : Access → Prop
  | .enemy i => i < l.enemyCount
  | .obj i => i < l.objCount
  | .enemyDar i | .enemyDrop i | .enemyMeseta i => i < 100
  | .column area => 0 ≤ area ∧ area < 10

/-- All accesses that were made are inside. -/
def Logged (l : DropLobby) (s : GenState) : Prop := ∀ a ∈ s.log, a.Inside l

/-- A generator stays inside of the arrays with a request, whatever is in the tables and
whatever numbers come. -/
def IndexSafe (gen : Generator) (l : DropLobby) (c : Requester) (req : ItemReq) : Prop :=
  ∀ (d : DropData) (item : GenItem) (rng : Nat → UInt32),
    Logged l (endState (gen.run d c item req ⟨l, rng, [], [], []⟩))

/-- The data for the area is used for what is in a box. -/
def MapObject.usesArea (obj : MapObject) : Bool :=
  !obj.fixedType || !isOne (obj.dword 1) && (obj.itemType = 0 ∨ obj.itemType = 3 ∨ obj.itemType = 4)

/-- There is data for an area. -/
def AreaInside (episode curArea : Nat) : Prop :=
  ∀ area, dropArea episode curArea = .ok area → 0 ≤ area ∧ area < 10

/-- A request for a box does not name the box behind the last one, and if it names a box
that was not opened, there is data for the area, or none is used. -/
def BoxSafe (episode : Nat) (l : DropLobby) (c : Requester) (req : ItemReq) : Prop :=
  req.ptIndex = 0x30 → req.req ≠ l.objCount ∧
    (req.req < l.objCount → l.opened req.req = false → (l.objs req.req).usesArea →
      AreaInside episode c.curArea)

/-- A request for an enemy that is not on Pioneer 2 does not name the enemy behind the last
one, and if it names one that has not dropped anything, the index is one of the 100, and
there is data for the area. -/
def EnemySafe (episode : Nat) (l : DropLobby) (c : Requester) (req : ItemReq) : Prop :=
  ∀ area, dropArea episode c.curArea = .ok area → req.req ≠ l.enemyCount ∧
    (req.req < l.enemyCount → l.dropDone req.req = false →
      req.ptIndex < 100 ∧ 0 ≤ area ∧ area < 10)

/-- The requests with which a generator stays inside of the arrays. -/
def Generator.Safe (gen : Generator) (l : DropLobby) (c : Requester) (req : ItemReq) : Prop :=
  match gen with
  | .v2Drop =>
      req.ptIndex ≤ 0x33 → if req.ptIndex = 0x30 then BoxSafe 1 l c req else EnemySafe 1 l c req
  | .v2Boxdrop => BoxSafe 1 l c req
  | .gcDrop =>
      if req.ptIndex = 0x30 then BoxSafe l.episode l c req else EnemySafe l.episode l c req
  | .gcBoxdrop => BoxSafe l.episode l c req
  | .bbDrop =>
      l.episode ≠ 3 →
        if req.ptIndex = 0x30 then BoxSafe l.episode l c req else EnemySafe l.episode l c req
  | .bbBoxdrop => l.episode ≠ 3 → BoxSafe l.episode l c req

/-- Versions 1 and 2 have data for all areas. -/
theorem areaInside_one (curArea : Nat) : AreaInside 1 curArea := by
  intro area harea
  rw [dropArea] at harea
  split_ifs at harea <;> cases harea <;> omega

/-! ## Safe requests stay inside -/

section Inside

variable {l : DropLobby} {d : DropData} {c : Requester} {req : ItemReq} {area : Int}

theorem keeps_access {a : Access} (ha : a.Inside l) : Keeps (Logged l) (access a) := by
  intro s hs b hb
  rcases List.mem_append.mp hb with hold | hnew
  · exact hs b hold
  · rw [List.mem_singleton.mp hnew]
    exact ha

theorem stable_logged (harea : 0 ≤ area ∧ area < 10) : Stable (Logged l) area where
  draw _ h := h
  column := keeps_access harea

theorem logged_logged {s : GenState} (hs : Logged l s) {a : Access} (ha : a.Inside l) :
    Logged l (s.logged a) :=
  keeps_access ha s hs

theorem v2Maker_logged (x : DropLobby) :
    (v2Maker d c x req area).Sends (Logged l) (Logged l) where
  weak _ h := h
  send := leads_checkAndSend (fun _ h => h) fun _ _ h => h

theorem gcMaker_logged (x : DropLobby) (entry : TableIndex) :
    (gcMaker d c x req area entry).Sends (Logged l) (Logged l) where
  weak _ h := h
  send := leads_checkAndSend (fun _ h => h) fun _ _ h => h

theorem bbMaker_logged (x : DropLobby) (entry : TableIndex) :
    (bbMaker d x req area entry).Sends (Logged l) (Logged l) where
  weak _ h := h
  send := leads_checkAndSendBb (fun _ h => h) fun _ _ h => h

/-- What is in a box is made without the data for the area, or there is such data. -/
theorem leads_boxDrop {P Q : GenState → Prop} {mk : Maker} (hsend : mk.Sends P Q)
    (hmk : mk.Steady P) {obj : MapObject} (huses : obj.usesArea → mk.Stable P) (item : GenItem)
    (doRare csr : Bool) : Leads P Q (mk.boxDrop item doRare csr obj) := by
  by_cases harea : obj.usesArea
  · exact hsend.boxDrop (huses harea) obj item doRare csr
  · simp only [MapObject.usesArea, Bool.or_eq_true, Bool.not_eq_true', Bool.and_eq_true,
      decide_eq_true_eq, not_or, not_and] at harea
    obtain ⟨hfixed, htype⟩ := harea
    rw [Maker.boxDrop, if_pos (eq_true_of_ne_false hfixed)]
    by_cases hone : isOne (obj.dword 1)
    · rw [if_pos hone]
      exact hsend.send _ csr
    · obtain ⟨hweapon, htool, hmeseta⟩ := htype (eq_false_of_ne_true hone)
      rw [if_neg hone, if_neg hweapon, if_neg htool, if_neg hmeseta]
      exact Leads.ite (hsend.sendMade (hmk.armor _ _) csr) (hsend.nothing 0)

theorem logged_claimBox {rest : Int → Gen Int} {episode : Nat} (hsafe : BoxSafe episode l c req)
    (hrest : ∀ area, ((l.objs req.req).usesArea → 0 ≤ area ∧ area < 10) →
      Keeps (Logged l) (rest area)) {s : GenState} (hs : Logged l s) (hl : s.lobby = l) :
    Logged l (endState ((claimBox episode c.curArea req >>= rest) s)) := by
  have hclaim := claimBox_eq episode c.curArea req s
  rw [hl] at hclaim
  by_cases hcheck : req.ptIndex ≠ 0x30 ∨ req.req > l.objCount
  · rw [if_pos hcheck] at hclaim
    rw [bind_error hclaim]
    exact hs
  rw [if_neg hcheck] at hclaim
  obtain ⟨hindex, hle⟩ := not_or.mp hcheck
  obtain ⟨hne, hin⟩ := hsafe (not_not.mp hindex)
  have hlt : req.req < l.objCount := by omega
  have hobj := logged_logged hs (a := .obj req.req) hlt
  by_cases hopened : l.opened req.req
  · rw [if_pos hopened] at hclaim
    rw [bind_error hclaim]
    exact hobj
  rw [if_neg hopened] at hclaim
  cases harea : dropArea episode c.curArea with
  | error rv =>
      rw [harea] at hclaim
      rw [bind_error hclaim]
      exact hobj
  | ok area =>
      rw [harea] at hclaim
      rw [bind_ok hclaim]
      refine hrest area (fun huses => ?_) _ hobj
      exact hin hlt (eq_false_of_ne_true hopened) huses area harea

theorem logged_claimEnemy {rest : Int → Gen Int} {episode : Nat}
    (hsafe : EnemySafe episode l c req)
    (hrest : ∀ area, req.ptIndex < 100 → 0 ≤ area ∧ area < 10 → Keeps (Logged l) (rest area))
    {s : GenState} (hs : Logged l s) (hl : s.lobby = l) :
    Logged l (endState ((claimEnemy episode c.curArea req >>= rest) s)) := by
  have hclaim := claimEnemy_eq episode c.curArea req s
  rw [hl] at hclaim
  cases harea : dropArea episode c.curArea with
  | error rv =>
      rw [harea] at hclaim
      rw [bind_error hclaim]
      exact hs
  | ok area =>
      rw [harea] at hclaim
      dsimp only at hclaim
      obtain ⟨hne, hin⟩ := hsafe area harea
      by_cases hcheck : req.req > l.enemyCount
      · rw [if_pos hcheck] at hclaim
        rw [bind_error hclaim]
        exact hs
      rw [if_neg hcheck] at hclaim
      have hlt : req.req < l.enemyCount := by omega
      have henemy := logged_logged hs (a := .enemy req.req) hlt
      by_cases hdone : l.dropDone req.req
      · rw [if_pos hdone] at hclaim
        rw [bind_error hclaim]
        exact henemy
      rw [if_neg hdone] at hclaim
      rw [bind_ok hclaim]
      obtain ⟨hindex, hcolumn⟩ := hin hlt (eq_false_of_ne_true hdone)
      exact hrest area hindex hcolumn _ henemy

/-- What comes after the check of a request for an enemy. -/
theorem keeps_enemyDrop {mk : Maker} (hsend : mk.Sends (Logged l) (Logged l))
    (hmk : mk.Stable (Logged l)) (hindex : req.ptIndex < 100) (item : GenItem)
    (doRare csr : Bool) : Keeps (Logged l) (mk.enemyDrop item doRare csr req.ptIndex) :=
  hsend.enemyDrop hmk (keeps_access hindex) (keeps_access hindex) item doRare csr

theorem keeps_rollDar_logged (hindex : req.ptIndex < 100) (ent : PtEntry) :
    Keeps (Logged l) (rollDar ent req.ptIndex) :=
  keeps_rollDar (fun _ h => h) (keeps_access hindex) ent

section Generators

variable {item : GenItem} {s : GenState} (hs : Logged l s) (hl : s.lobby = l)

include hs hl

theorem logged_ptGenerateV2Boxdrop (hsafe : BoxSafe 1 l c req) :
    Logged l (endState (ptGenerateV2Boxdrop d c item req s)) := by
  rw [ptGenerateV2Boxdrop, run_get_bind, hl]
  refine logged_claimBox hsafe (fun area harea => ?_) hs hl
  refine (keeps_questRares _ _).bind fun rares => ?_
  exact leads_boxDrop (v2Maker_logged l) (v2Maker_steady d c l req fun _ h => h)
    (fun huses => v2Maker_stable d c l req (stable_logged (harea huses))) _ _ _

theorem logged_ptGenerateV2Drop (hsafe : Generator.v2Drop.Safe l c req) :
    Logged l (endState (ptGenerateV2Drop d c item req s)) := by
  rw [ptGenerateV2Drop, run_get_bind, returnIf]
  by_cases hhigh : req.ptIndex > 0x33
  · rw [if_pos hhigh]
    exact hs
  rw [if_neg hhigh, run_pure_bind]
  have hboth := hsafe (Nat.not_lt.mp hhigh)
  by_cases hbox : req.ptIndex = 0x30
  · rw [if_pos hbox] at hboth ⊢
    exact logged_ptGenerateV2Boxdrop hs hl hboth
  · rw [if_neg hbox] at hboth ⊢
    rw [hl]
    refine logged_claimEnemy hboth (fun area hindex harea => ?_) hs hl
    refine (keeps_rollDar_logged hindex _).bind fun _ => ?_
    refine (keeps_questRares _ _).bind fun rares => ?_
    exact keeps_enemyDrop (v2Maker_logged l) (v2Maker_stable d c l req (stable_logged harea))
      hindex _ _ _

theorem logged_ptGenerateGcBoxdrop (hsafe : BoxSafe l.episode l c req) :
    Logged l (endState (ptGenerateGcBoxdrop d c item req s)) := by
  rw [ptGenerateGcBoxdrop, run_get_bind, hl]
  refine logged_claimBox hsafe (fun area harea => ?_) hs hl
  exact leads_boxDrop (gcMaker_logged l _) (gcMaker_steady d c l req _ fun _ h => h)
    (fun huses => gcMaker_stable d c l req _ (stable_logged (harea huses))) _ _ _

theorem logged_ptGenerateGcDrop (hsafe : Generator.gcDrop.Safe l c req) :
    Logged l (endState (ptGenerateGcDrop d c item req s)) := by
  rw [Generator.Safe] at hsafe
  rw [ptGenerateGcDrop, run_get_bind]
  by_cases hbox : req.ptIndex = 0x30
  · rw [if_pos hbox] at hsafe ⊢
    exact logged_ptGenerateGcBoxdrop hs hl hsafe
  · rw [if_neg hbox] at hsafe ⊢
    rw [hl]
    refine logged_claimEnemy hsafe (fun area hindex harea => ?_) hs hl
    refine (keeps_rollDar_logged hindex _).bind fun _ => ?_
    exact keeps_enemyDrop (gcMaker_logged l _) (gcMaker_stable d c l req _ (stable_logged harea))
      hindex _ _ _

theorem logged_ptGenerateBbBoxdrop (hsafe : Generator.bbBoxdrop.Safe l c req) :
    Logged l (endState (ptGenerateBbBoxdrop d c item req s)) := by
  rw [ptGenerateBbBoxdrop, run_get_bind, returnIf, hl]
  by_cases hepisode : l.episode = 3
  · rw [if_pos hepisode]
    exact hs
  rw [if_neg hepisode, run_pure_bind]
  refine logged_claimBox (hsafe hepisode) (fun area harea => ?_) hs hl
  exact leads_boxDrop (bbMaker_logged l _) (bbMaker_steady d l req _ fun _ h => h)
    (fun huses => bbMaker_stable d l req _ (stable_logged (harea huses))) _ _ _

theorem logged_ptGenerateBbDrop (hsafe : Generator.bbDrop.Safe l c req) :
    Logged l (endState (ptGenerateBbDrop d c item req s)) := by
  rw [ptGenerateBbDrop, run_get_bind, returnIf, hl]
  by_cases hepisode : l.episode = 3
  · rw [if_pos hepisode]
    exact hs
  rw [if_neg hepisode, run_pure_bind]
  have hboth := hsafe hepisode
  by_cases hbox : req.ptIndex = 0x30
  · rw [if_pos hbox] at hboth ⊢
    exact logged_ptGenerateBbBoxdrop hs hl fun _ => hboth
  · rw [if_neg hbox] at hboth ⊢
    refine logged_claimEnemy hboth (fun area hindex harea => ?_) hs hl
    refine (keeps_rollDar_logged hindex _).bind fun _ => ?_
    exact keeps_enemyDrop (bbMaker_logged l _) (bbMaker_stable d l req _ (stable_logged harea))
      hindex _ _ _

end Generators

/-- A safe request stays inside of the arrays. -/
theorem indexSafe_of_safe {gen : Generator} (hsafe : gen.Safe l c req) : IndexSafe gen l c req := by
  intro d item rng
  have hstart : Logged l ⟨l, rng, [], [], []⟩ := fun a ha => absurd ha List.not_mem_nil
  cases gen with
  | v2Drop => exact logged_ptGenerateV2Drop hstart rfl hsafe
  | v2Boxdrop => exact logged_ptGenerateV2Boxdrop hstart rfl hsafe
  | gcDrop => exact logged_ptGenerateGcDrop hstart rfl hsafe
  | gcBoxdrop => exact logged_ptGenerateGcBoxdrop hstart rfl hsafe
  | bbDrop => exact logged_ptGenerateBbDrop hstart rfl hsafe
  | bbBoxdrop => exact logged_ptGenerateBbBoxdrop hstart rfl hsafe

end Inside

/-! ## Other requests do not -/

/-- An access was made. -/
def Remembers (a : Access) (s : GenState) : Prop := a ∈ s.log

/-- A program makes an access, or it was made before. -/
def Makes {α : Type} (a : Access) (m : Gen α) (s : GenState) : Prop := Remembers a (endState (m s))

section Makes

variable {α β : Type} {a : Access} {m : Gen α} {f : α → Gen β} {s t : GenState}

theorem Makes.bind_left (h : Makes a m s) (hf : ∀ x, Keeps (Remembers a) (f x)) :
    Makes a (m >>= f) s := by
  rw [Makes] at h ⊢
  cases hrun : m s with
  | ok x t =>
      rw [bind_ok hrun]
      rw [hrun] at h
      exact hf x t h
  | error e t =>
      rw [bind_error hrun]
      rw [hrun] at h
      exact h

theorem Makes.bind_right {x : α} (hrun : m s = .ok x t) (h : Makes a (f x) t) :
    Makes a (m >>= f) s := by
  rw [Makes, bind_ok hrun]
  exact h

theorem makes_access (a : Access) (s : GenState) : Makes a (access a) s :=
  List.mem_append_right _ List.mem_cons_self

theorem remembers_access (b : Access) : Keeps (Remembers a) (access b) :=
  fun _ h => List.mem_append_left _ h

theorem stable_remembers (area : Int) : Stable (Remembers a) area where
  draw _ h := h
  column := remembers_access _

variable {d : DropData} {c : Requester} {req : ItemReq} {area : Int}

theorem v2Maker_remembers (l : DropLobby) :
    (v2Maker d c l req area).Sends (Remembers a) (Remembers a) where
  weak _ h := h
  send := leads_checkAndSend (fun _ h => h) fun _ _ h => h

theorem gcMaker_remembers (l : DropLobby) (entry : TableIndex) :
    (gcMaker d c l req area entry).Sends (Remembers a) (Remembers a) where
  weak _ h := h
  send := leads_checkAndSend (fun _ h => h) fun _ _ h => h

theorem bbMaker_remembers (l : DropLobby) (entry : TableIndex) :
    (bbMaker d l req area entry).Sends (Remembers a) (Remembers a) where
  weak _ h := h
  send := leads_checkAndSendBb (fun _ h => h) fun _ _ h => h

theorem keeps_rollDar_remembers (ent : PtEntry) (ptIndex : Nat) :
    Keeps (Remembers a) (rollDar ent ptIndex) :=
  keeps_rollDar (fun _ h => h) (remembers_access _) ent

/-- The box of a request is looked at, also if it is the one behind the last one. -/
theorem makes_claimBox (hindex : req.ptIndex = 0x30) (hle : req.req ≤ s.lobby.objCount)
    (episode curArea : Nat) : Makes (.obj req.req) (claimBox episode curArea req) s := by
  have hmem : Remembers (.obj req.req) (s.logged (.obj req.req)) := makes_access _ s
  have hcheck : ¬(req.ptIndex ≠ 0x30 ∨ req.req > s.lobby.objCount) := by omega
  rw [Makes, claimBox_eq, if_neg hcheck]
  split
  · exact hmem
  · split <;> exact hmem

/-- The enemy of a request is looked at, also if it is the one behind the last one. -/
theorem makes_claimEnemy {episode curArea : Nat} (harea : dropArea episode curArea = .ok area)
    (hle : req.req ≤ s.lobby.enemyCount) :
    Makes (.enemy req.req) (claimEnemy episode curArea req) s := by
  have hmem : Remembers (.enemy req.req) (s.logged (.enemy req.req)) := makes_access _ s
  rw [Makes, claimEnemy_eq, harea]
  dsimp only
  rw [if_neg (Nat.not_lt.mpr hle)]
  split <;> exact hmem

/-- A request is gone on with for a box that was not opened. -/
theorem claimBox_ok {episode curArea : Nat} (hindex : req.ptIndex = 0x30)
    (hlt : req.req < s.lobby.objCount) (hopened : s.lobby.opened req.req = false)
    (harea : dropArea episode curArea = .ok area) :
    claimBox episode curArea req s = .ok area ((s.logged (.obj req.req)).openBox req.req) := by
  have hcheck : ¬(req.ptIndex ≠ 0x30 ∨ req.req > s.lobby.objCount) := by omega
  rw [claimBox_eq, if_neg hcheck, if_neg (by rw [hopened]; decide), harea]

/-- A request is gone on with for an enemy that has not dropped anything. -/
theorem claimEnemy_ok {episode curArea : Nat} (hlt : req.req < s.lobby.enemyCount)
    (hdone : s.lobby.dropDone req.req = false) (harea : dropArea episode curArea = .ok area) :
    claimEnemy episode curArea req s =
      .ok area ((s.logged (.enemy req.req)).dropEnemy req.req) := by
  rw [claimEnemy_eq, harea]
  dsimp only
  rw [if_neg (Nat.not_lt.mpr (Nat.le_of_lt hlt)), if_neg (by rw [hdone]; decide)]

theorem makes_rollDar (ent : PtEntry) (ptIndex : Nat) :
    Makes (.enemyDar ptIndex) (rollDar ent ptIndex) s := by
  refine .bind_right rfl (.bind_left (makes_access _ _) fun _ => ?_)
  exact Keeps.ite (Keeps.throw _) (Keeps.pure _)

end Makes

/-! ## Tables that lead to the columns of an area -/

section Columns

/-- An entry with one type of weapons, of which enemies drop something for each number. -/
def oneWeapon : PtEntry where
  weaponRatio i := if i = 0 then 1 else 0
  weaponMinrank _ := 127
  weaponUpgfloor _ := 127
  powerPattern _ _ := 127
  percentPattern _ _ := 0
  areaPattern _ _ := 0
  percentAttachment _ _ := 0
  elementRanking _ := 0
  elementProbability _ := 0
  armorRanking _ := 0
  slotRanking _ := 0
  unitLevel _ := 0
  toolFrequency _ _ := 0
  techFrequency _ _ := 0
  techLevels _ _ := 0
  enemyDar _ := 100
  enemyMeseta _ := (0, 0)
  enemyDrop _ := 0
  boxMeseta _ := (0, 0)
  boxDrop _ _ := 0
  armorLevel := 0

def noPmt : Pmt := ⟨fun _ => none, fun _ => 0, 0, fun _ => 1, fun _ => 0⟩

/-- A ship with such entries and without rare items. -/
def oneWeaponData : DropData where
  v2Ptdata _ _ := oneWeapon
  gcPtdata _ := oneWeapon
  bbPtdata _ := oneWeapon
  v2Rtdata := none
  gcRtdata := none
  pmtV2 := noPmt
  pmtGc := noPmt
  pmtBb := noPmt
  limits := none
  questRares := false
  questSrares := false

variable {area : Int} {s : GenState}

/-- Each random number is 1. -/
def Ones (s : GenState) : Prop := s.rng = fun _ => 1

theorem draw_ones (h : Ones s) : draw s = .ok 1 s := by
  cases s
  cases h
  rfl

/-- A loop that makes tools comes to the column. -/
theorem makes_generateTool (refused : List UInt32) (ent : PtEntry) :
    Makes (.column area) (generateTool ent area refused) s := by
  refine .bind_left (.bind_right rfl (.bind_left (makes_access _ _) fun _ => ?_)) fun w0 => ?_
  · split <;> exact Keeps.pure _
  · exact Keeps.ite (Keeps.throw _) (Keeps.ite (keeps_generateTech (stable_remembers area) _)
      (Keeps.pure _))

theorem weaponTypes_oneWeapon (harea : -1 ≤ area) :
    weaponTypes oneWeapon area 12 0 = .ok [weaponType oneWeapon area 0] := by
  have hratio : ∀ i, ((oneWeapon.weaponRatio i).toInt > 0) = (i = 0) := by
    intro i
    rw [oneWeapon]
    by_cases hi : i = 0
    · simp [hi]
    · simp [hi]
  have hminrank : ∀ i, (oneWeapon.weaponMinrank i).toInt = 127 := fun _ => rfl
  have hupgfloor : ∀ i, (oneWeapon.weaponUpgfloor i).toInt = 127 := fun _ => rfl
  have hin : 127 + area ≥ 0 := by omega
  simp [weaponTypes, hratio, hminrank, hupgfloor, hin, Except.map]

theorem commonWeapon_oneWeapon (h : Ones s) (harea : -1 ≤ area) :
    ∃ r, commonWeapon oneWeapon area s = .ok r s := by
  have hkind : (weaponType oneWeapon area 0).kind = 0 := rfl
  rw [commonWeapon, weaponTypes_oneWeapon harea]
  dsimp only
  rw [bind_ok (draw_ones h)]
  have hchance : UInt32.ofInt
      ([weaponType oneWeapon area 0].map fun t =>
        (oneWeapon.weaponRatio t.kind).toInt).sum = 1 := by
    rw [List.map_singleton, hkind]
    rfl
  rw [hchance]
  have hpick : pick (fun i => word (oneWeapon.weaponRatio
      ([weaponType oneWeapon area 0].getD i default).kind)) 1
        [weaponType oneWeapon area 0].length 0 (1 % 1) = some 0 := by
    rw [List.length_singleton, pick]
    rw [if_pos]
    show (1 % 1 : UInt32) - word (oneWeapon.weaponRatio (weaponType oneWeapon area 0).kind) > 1
    rw [hkind]
    decide
  rw [hpick]
  dsimp only
  rw [if_neg]
  · exact ⟨_, rfl⟩
  · rw [UInt32.or_eq_zero_iff]
    rintro ⟨hone, -⟩
    revert hone
    show ¬UInt32.ofNat ((weaponType oneWeapon area 0).kind + 1) <<< 8 = 0
    rw [hkind]
    decide

/-- A loop that makes weapons comes to the column. -/
theorem makes_generateWeapon (h : Ones s) (harea : -1 ≤ area) (percents : UInt32) (v1 : Bool)
    (item : GenItem) :
    Makes (.column area) (generateWeapon oneWeapon area percents v1 item false) s := by
  obtain ⟨r, hr⟩ := commonWeapon_oneWeapon h harea
  refine .bind_right hr (.bind_right (draw_ones h) ?_)
  have hpick : pick (fun i => word (oneWeapon.powerPattern i r.2)) 100 9 0 (1 % 100) = some 0 := by
    rw [pick]
    rw [if_pos]
    show (1 % 100 : UInt32) - word 127 > 100
    decide
  rw [hpick]
  refine .bind_left ?_ fun st => keeps_weaponElement (stable_remembers area) _ _ _ _
  rw [List.foldlM_cons]
  refine .bind_left (.bind_left (makes_access _ _) fun _ => ?_) fun st => ?_
  · have hstable := @stable_remembers (.column area) area
    refine Keeps.ite (Keeps.pure _) (hstable.draw.bind fun rnd => ?_)
    split
    · exact Keeps.pure _
    · refine Keeps.ite (Keeps.pure _)
        (hstable.draw.bind fun rnd' => hstable.column.bind fun _ => ?_)
      split
      · exact Keeps.pure _
      · exact Keeps.ite (Keeps.pure _) (Keeps.pure _)
  · exact Keeps.foldlM (fun st i => keeps_weaponPercent (stable_remembers area) _ st i) _ _

/-- A version of the game in which boxes and enemies come to the columns. -/
structure Reaches (mk : Maker) : Prop where
  area : -1 ≤ mk.area
  rare : mk.rare = rtGenerateRare none
  weapon : ∀ item s, Ones s → Makes (.column mk.area) (mk.weapon item false) s
  tool : ∀ s, Makes (.column mk.area) mk.tool s
  stable : mk.Stable (Remembers (.column mk.area))
  sends : mk.Sends (Remembers (.column mk.area)) (Remembers (.column mk.area))

namespace Reaches

variable {mk : Maker} (h : Reaches mk)

include h

theorem sendMade {made : Gen GenItem} (hmade : Makes (.column mk.area) made s) (csr : Bool) :
    Makes (.column mk.area) (mk.sendMade csr made) s := by
  refine .bind_left ?_ fun item => h.sends.send item csr
  rw [Makes, orNothing]
  rw [Makes] at hmade
  cases hrun : made s with
  | ok item t =>
      rw [hrun] at hmade
      exact hmade
  | error e t =>
      rw [hrun] at hmade
      exact hmade

/-- There is no rare item. -/
theorem rollRare (item : GenItem) (doRare : Bool) (rtIndex area : Int) :
    ∃ item', mk.rollRare item doRare rtIndex area s = .ok item' s ∧ ¬(doRare ∧ item'.w0 ≠ 0) := by
  cases doRare with
  | false => exact ⟨item, rfl, fun hboth => absurd hboth.1 (by decide)⟩
  | true =>
      refine ⟨{ item with w0 := 0 }, ?_, fun hboth => hboth.2 rfl⟩
      rw [Maker.rollRare, if_pos rfl, h.rare]
      rfl

/-- What is in a box comes to the column, if it uses the data for the area. -/
theorem boxDrop {obj : MapObject} (huses : obj.usesArea) (hones : Ones s) (item : GenItem)
    (doRare csr : Bool) : Makes (.column mk.area) (mk.boxDrop item doRare csr obj) s := by
  rw [Maker.boxDrop]
  by_cases hfixed : obj.fixedType
  · simp only [MapObject.usesArea, hfixed, Bool.not_true, Bool.false_or, Bool.and_eq_true,
      Bool.not_eq_true', decide_eq_true_eq] at huses
    obtain ⟨hone, htype⟩ := huses
    rw [if_pos hfixed, if_neg (by rw [hone]; decide)]
    by_cases hweapon : obj.itemType = 0
    · rw [if_pos hweapon]
      exact h.sendMade (h.weapon item s hones) csr
    · have harmor : obj.itemType ≠ 1 := by
        rintro heq
        rw [heq] at htype
        revert htype
        decide
      rw [if_neg hweapon, if_neg harmor]
      by_cases htool : obj.itemType = 3
      · rw [if_pos htool]
        exact h.sendMade (h.tool s) csr
      · rw [if_neg htool, if_pos ((htype.resolve_left hweapon).resolve_left htool)]
        refine .bind_left (makes_access _ s) fun _ => ?_
        exact h.sends.sendMade (keeps_generateMeseta h.stable.draw _) csr
  · obtain ⟨item', hrun, hnot⟩ := h.rollRare (s := s) item doRare (-1) (mk.area + 1)
    rw [if_neg hfixed]
    refine .bind_right hrun ?_
    rw [if_neg hnot]
    refine .bind_right (draw_ones hones) (.bind_left (makes_access _ s) fun _ => ?_)
    split
    · exact h.sends.sendMade (h.stable.weapon _ _) csr
    · exact h.sends.sendMade (h.stable.armor _ _) csr
    · exact h.sends.sendMade (h.stable.shield _ _) csr
    · exact h.sends.sendUnit h.stable csr
    · exact h.sends.sendMade h.stable.tool csr
    · exact h.sends.boxMeseta h.stable csr
    · exact h.sends.nothing 0

/-- What an enemy drops comes to the column. -/
theorem enemyDrop (hones : Ones s) (item : GenItem) (doRare csr : Bool) (ptIndex : Nat) :
    Makes (.column mk.area) (mk.enemyDrop item doRare csr ptIndex) s := by
  obtain ⟨item', hrun, hnot⟩ := h.rollRare (s := s) item doRare ptIndex 0
  refine .bind_right hrun ?_
  rw [if_neg hnot]
  refine .bind_right (draw_ones hones) ?_
  rw [if_neg (by decide), if_pos (by decide)]
  exact h.sendMade (h.tool s) csr

end Reaches

theorem reaches_gcMaker (c : Requester) (l : DropLobby) (req : ItemReq) (entry : TableIndex)
    (harea : -1 ≤ area) : Reaches (gcMaker oneWeaponData c l req area entry) where
  area := harea
  rare := rfl
  weapon item _ hones := makes_generateWeapon hones harea _ _ item
  tool _ := makes_generateTool _ _
  stable := gcMaker_stable _ c l req entry (stable_remembers area)
  sends := gcMaker_remembers l entry

theorem reaches_bbMaker (l : DropLobby) (req : ItemReq) (entry : TableIndex) (harea : -1 ≤ area) :
    Reaches (bbMaker oneWeaponData l req area entry) where
  area := harea
  rare := rfl
  weapon item _ hones := makes_generateWeapon hones harea _ _ item
  tool _ := makes_generateTool _ _
  stable := bbMaker_stable _ l req entry (stable_remembers area)
  sends := bbMaker_remembers l entry

end Columns

section Unsafe

variable {l : DropLobby} {c : Requester} {req : ItemReq} {episode : Nat}
  {rest : DropData → Int → Gen Int}

theorem le_dropArea {curArea : Nat} {area : Int} (harea : dropArea episode curArea = .ok area) :
    -1 ≤ area := by
  unfold dropArea at harea
  split at harea
  · split_ifs at harea <;> cases harea <;> omega
  · split_ifs at harea <;> cases harea <;> omega
  · split_ifs at harea <;> cases harea <;> omega
  · cases harea
    omega

/-- A generator that stays inside with a request for a box. -/
theorem boxSafe_of_logged (hremember : ∀ d area a, Keeps (Remembers a) (rest d area))
    (hcolumn : ∀ area, dropArea episode c.curArea = .ok area → (l.objs req.req).usesArea →
      0 ≤ area ∧ area < 10 ∨ ∀ s, Ones s → Makes (.column area) (rest oneWeaponData area) s)
    (hlogged : ∀ d rng,
      Logged l (endState ((claimBox episode c.curArea req >>= rest d) ⟨l, rng, [], [], []⟩))) :
    BoxSafe episode l c req := by
  have hones := hlogged oneWeaponData fun _ => 1
  intro hindex
  refine ⟨fun heq => ?_, fun hlt hopened huses area harea => ?_⟩
  · have hmade := Makes.bind_left
      (makes_claimBox (s := ⟨l, fun _ => 1, [], [], []⟩) hindex (Nat.le_of_eq heq) episode
        c.curArea)
      fun area => hremember oneWeaponData area (.obj req.req)
    exact absurd (hones _ hmade) (by rw [Access.Inside, heq]; exact Nat.lt_irrefl _)
  · rcases hcolumn area harea huses with hinside | hmakes
    · exact hinside
    · have hclaim := claimBox_ok (s := ⟨l, fun _ => 1, [], [], []⟩) hindex hlt hopened harea
      exact hones _ (Makes.bind_right hclaim (hmakes _ rfl))

/-- A generator that stays inside with a request for an enemy. -/
theorem enemySafe_of_logged (hremember : ∀ d area a, Keeps (Remembers a) (rest d area))
    (hdar : ∀ d area s, Makes (.enemyDar req.ptIndex) (rest d area) s)
    (hcolumn : ∀ area, dropArea episode c.curArea = .ok area →
      0 ≤ area ∧ area < 10 ∨ ∀ s, Ones s → Makes (.column area) (rest oneWeaponData area) s)
    (hlogged : ∀ d rng,
      Logged l (endState ((claimEnemy episode c.curArea req >>= rest d) ⟨l, rng, [], [], []⟩))) :
    EnemySafe episode l c req := by
  have hones := hlogged oneWeaponData fun _ => 1
  intro area harea
  refine ⟨fun heq => ?_, fun hlt hdone => ?_⟩
  · have hmade := Makes.bind_left
      (makes_claimEnemy (s := ⟨l, fun _ => 1, [], [], []⟩) harea (Nat.le_of_eq heq))
      fun area => hremember oneWeaponData area (.enemy req.req)
    exact absurd (hones _ hmade) (by rw [Access.Inside, heq]; exact Nat.lt_irrefl _)
  · have hclaim := claimEnemy_ok (s := ⟨l, fun _ => 1, [], [], []⟩) hlt hdone harea
    refine ⟨hones _ (Makes.bind_right hclaim (hdar _ _ _)), ?_⟩
    rcases hcolumn area harea with hinside | hmakes
    · exact hinside
    · exact hones _ (Makes.bind_right hclaim (hmakes _ rfl))

/-- The roll for whether an enemy drops something, where it always does. -/
theorem rollDar_oneWeapon {s : GenState} (hones : Ones s) (ptIndex : Nat) :
    rollDar oneWeapon ptIndex s = .ok () (s.logged (.enemyDar ptIndex)) := by
  rw [rollDar, bind_ok (draw_ones hones)]
  rfl

/-- The parts of the generators that come after the check. -/
def v2BoxRest (l : DropLobby) (c : Requester) (req : ItemReq) (d : DropData) (area : Int) :
    Gen Int := do
  let (doRare, csr) ← questRares d l (searchEnemyList 0x30 l.mtypes)
  (v2Maker d c l req area).boxDrop default doRare csr (l.objs req.req)

def gcBoxRest (l : DropLobby) (c : Requester) (req : ItemReq) (d : DropData) (area : Int) :
    Gen Int :=
  (gcMaker d c l req area (gcBoxdropEntry l.toDropGame)).boxDrop default (shipRares d l).1
    (shipRares d l).2 (l.objs req.req)

def bbBoxRest (l : DropLobby) (req : ItemReq) (d : DropData) (area : Int) : Gen Int :=
  (bbMaker d l req area (bbBoxdropEntry l.toDropGame)).boxDrop default (shipRares d l).1
    (shipRares d l).2 (l.objs req.req)

def v2EnemyRest (l : DropLobby) (c : Requester) (req : ItemReq) (d : DropData) (area : Int) :
    Gen Int := do
  rollDar (v2Maker d c l req area).ent req.ptIndex
  let (doRare, csr) ← questRares d l (enemyQdrop l req)
  (v2Maker d c l req area).enemyDrop default doRare csr req.ptIndex

def gcEnemyRest (l : DropLobby) (c : Requester) (req : ItemReq) (d : DropData) (area : Int) :
    Gen Int := do
  let mk := gcMaker d c l req area (gcDropEntry l.toDropGame)
  rollDar mk.ent req.ptIndex
  mk.enemyDrop default (shipRares d l).1 (shipRares d l).2 req.ptIndex

def bbEnemyRest (l : DropLobby) (req : ItemReq) (d : DropData) (area : Int) : Gen Int := do
  let mk := bbMaker d l req area (bbDropEntry l.toDropGame)
  rollDar mk.ent req.ptIndex
  mk.enemyDrop default (shipRares d l).1 (shipRares d l).2 req.ptIndex

theorem boxSafe_of_v2
    (hsafe : ∀ d rng,
      Logged l (endState (ptGenerateV2Boxdrop d c default req ⟨l, rng, [], [], []⟩))) :
    BoxSafe 1 l c req := by
  refine @boxSafe_of_logged l c req 1 (v2BoxRest l c req) (fun d area a => ?_)
    (fun area harea _ => .inl (areaInside_one c.curArea area harea)) hsafe
  refine (keeps_questRares _ _).bind fun rares => ?_
  exact (v2Maker_remembers _).boxDrop (v2Maker_stable d c _ req (stable_remembers area)) _ _ _ _

theorem boxSafe_of_gc
    (hsafe : ∀ d rng,
      Logged l (endState (ptGenerateGcBoxdrop d c default req ⟨l, rng, [], [], []⟩))) :
    BoxSafe l.episode l c req := by
  refine @boxSafe_of_logged l c req l.episode (gcBoxRest l c req) (fun d area a => ?_)
    (fun area harea huses => .inr fun s hones => ?_) hsafe
  · exact (gcMaker_remembers _ _).boxDrop (gcMaker_stable d c _ req _ (stable_remembers area))
      _ _ _ _
  · exact (reaches_gcMaker c l req _ (le_dropArea harea)).boxDrop huses hones _ _ _

theorem boxSafe_of_bb (hepisode : l.episode ≠ 3)
    (hsafe : ∀ d rng,
      Logged l (endState (ptGenerateBbBoxdrop d c default req ⟨l, rng, [], [], []⟩))) :
    BoxSafe l.episode l c req := by
  refine @boxSafe_of_logged l c req l.episode (bbBoxRest l req) (fun d area a => ?_)
    (fun area harea huses => .inr fun s hones => ?_) fun d rng => ?_
  · exact (bbMaker_remembers _ _).boxDrop (bbMaker_stable d _ req _ (stable_remembers area)) _ _ _ _
  · exact (reaches_bbMaker l req _ (le_dropArea harea)).boxDrop huses hones _ _ _
  · have hrun := hsafe d rng
    rw [ptGenerateBbBoxdrop, run_get_bind, returnIf, if_neg hepisode] at hrun
    exact hrun

theorem enemySafe_of_v2 (hhigh : req.ptIndex ≤ 0x33) (hbox : req.ptIndex ≠ 0x30)
    (hsafe : ∀ d rng, Logged l (endState (ptGenerateV2Drop d c default req ⟨l, rng, [], [], []⟩))) :
    EnemySafe 1 l c req := by
  refine @enemySafe_of_logged l c req 1 (v2EnemyRest l c req) (fun d area a => ?_)
    (fun d area s => ?_) (fun area harea => .inl (areaInside_one c.curArea area harea))
    fun d rng => ?_
  · refine (keeps_rollDar_remembers _ _).bind fun _ => (keeps_questRares _ _).bind fun rares => ?_
    exact (v2Maker_remembers _).enemyDrop (v2Maker_stable d c _ req (stable_remembers area))
      (remembers_access _) (remembers_access _) _ _ _
  · refine .bind_left (makes_rollDar _ _) fun _ => (keeps_questRares _ _).bind fun rares => ?_
    exact (v2Maker_remembers _).enemyDrop (v2Maker_stable d c _ req (stable_remembers area))
      (remembers_access _) (remembers_access _) _ _ _
  · have hrun := hsafe d rng
    rw [ptGenerateV2Drop, run_get_bind, returnIf, if_neg (Nat.not_lt.mpr hhigh), run_pure_bind,
      if_neg hbox] at hrun
    exact hrun

theorem enemySafe_of_gc (hbox : req.ptIndex ≠ 0x30)
    (hsafe : ∀ d rng, Logged l (endState (ptGenerateGcDrop d c default req ⟨l, rng, [], [], []⟩))) :
    EnemySafe l.episode l c req := by
  refine @enemySafe_of_logged l c req l.episode (gcEnemyRest l c req) (fun d area a => ?_)
    (fun d area s => ?_) (fun area harea => .inr fun s hones => ?_) fun d rng => ?_
  · refine (keeps_rollDar_remembers _ _).bind fun _ => ?_
    exact (gcMaker_remembers _ _).enemyDrop (gcMaker_stable d c _ req _ (stable_remembers area))
      (remembers_access _) (remembers_access _) _ _ _
  · refine .bind_left (makes_rollDar _ _) fun _ => ?_
    exact (gcMaker_remembers _ _).enemyDrop (gcMaker_stable d c _ req _ (stable_remembers area))
      (remembers_access _) (remembers_access _) _ _ _
  · have hones' : Ones (s.logged (.enemyDar req.ptIndex)) := hones
    refine .bind_right (rollDar_oneWeapon hones _) ?_
    exact (reaches_gcMaker c l req _ (le_dropArea harea)).enemyDrop hones' _ _ _ _
  · have hrun := hsafe d rng
    rw [ptGenerateGcDrop, run_get_bind, if_neg hbox] at hrun
    exact hrun

theorem enemySafe_of_bb (hepisode : l.episode ≠ 3) (hbox : req.ptIndex ≠ 0x30)
    (hsafe : ∀ d rng, Logged l (endState (ptGenerateBbDrop d c default req ⟨l, rng, [], [], []⟩))) :
    EnemySafe l.episode l c req := by
  refine @enemySafe_of_logged l c req l.episode (bbEnemyRest l req) (fun d area a => ?_)
    (fun d area s => ?_) (fun area harea => .inr fun s hones => ?_) fun d rng => ?_
  · refine (keeps_rollDar_remembers _ _).bind fun _ => ?_
    exact (bbMaker_remembers _ _).enemyDrop (bbMaker_stable d _ req _ (stable_remembers area))
      (remembers_access _) (remembers_access _) _ _ _
  · refine .bind_left (makes_rollDar _ _) fun _ => ?_
    exact (bbMaker_remembers _ _).enemyDrop (bbMaker_stable d _ req _ (stable_remembers area))
      (remembers_access _) (remembers_access _) _ _ _
  · have hones' : Ones (s.logged (.enemyDar req.ptIndex)) := hones
    refine .bind_right (rollDar_oneWeapon hones _) ?_
    exact (reaches_bbMaker l req _ (le_dropArea harea)).enemyDrop hones' _ _ _ _
  · have hrun := hsafe d rng
    rw [ptGenerateBbDrop, run_get_bind, returnIf, if_neg hepisode, run_pure_bind,
      if_neg hbox] at hrun
    exact hrun

/-- A generator that stays inside of the arrays is asked for something safe. -/
theorem safe_of_indexSafe {gen : Generator} (h : IndexSafe gen l c req) : gen.Safe l c req := by
  have hrun := fun d => h d default
  cases gen with
  | v2Drop =>
      intro hhigh
      by_cases hbox : req.ptIndex = 0x30
      · rw [if_pos hbox]
        refine boxSafe_of_v2 fun d rng => ?_
        have hdrop := hrun d rng
        rw [Generator.run, ptGenerateV2Drop, run_get_bind, returnIf, if_neg (Nat.not_lt.mpr hhigh),
          run_pure_bind, if_pos hbox] at hdrop
        exact hdrop
      · rw [if_neg hbox]
        exact enemySafe_of_v2 hhigh hbox hrun
  | v2Boxdrop => exact boxSafe_of_v2 hrun
  | gcDrop =>
      rw [Generator.Safe]
      by_cases hbox : req.ptIndex = 0x30
      · rw [if_pos hbox]
        refine boxSafe_of_gc fun d rng => ?_
        have hdrop := hrun d rng
        rw [Generator.run, ptGenerateGcDrop, run_get_bind, if_pos hbox] at hdrop
        exact hdrop
      · rw [if_neg hbox]
        exact enemySafe_of_gc hbox hrun
  | gcBoxdrop => exact boxSafe_of_gc hrun
  | bbDrop =>
      intro hepisode
      by_cases hbox : req.ptIndex = 0x30
      · rw [if_pos hbox]
        refine boxSafe_of_bb hepisode fun d rng => ?_
        have hdrop := hrun d rng
        rw [Generator.run, ptGenerateBbDrop, run_get_bind, returnIf, if_neg hepisode, run_pure_bind,
          if_pos hbox] at hdrop
        exact hdrop
      · rw [if_neg hbox]
        exact enemySafe_of_bb hepisode hbox hrun
  | bbBoxdrop => exact fun hepisode => boxSafe_of_bb hepisode hrun

/-- A generator stays inside of the arrays with a request exactly where the request is safe
for it. -/
theorem indexSafe_iff (gen : Generator) (l : DropLobby) (c : Requester) (req : ItemReq) :
    IndexSafe gen l c req ↔ gen.Safe l c req :=
  ⟨safe_of_indexSafe, indexSafe_of_safe⟩

/-- A game with one enemy and one box. -/
def smallLobby : DropLobby where
  toDropGame := ⟨1, 0, 0, 0, 1, fun _ => false, 1, fun _ => false⟩
  version := .gc
  itemId := 0
  qid := 0
  mids := none
  mtypes := none
  objs _ := ⟨0, fun _ => 0⟩

/-- The enemy behind the last one is asked for. -/
theorem not_indexSafe :
    ¬∀ (gen : Generator) (l : DropLobby) (c : Requester) (req : ItemReq), c.curArea ≤ 17 →
      IndexSafe gen l c req := by
  intro hall
  have hsafe := safe_of_indexSafe (hall .v2Drop smallLobby ⟨.dcv2, 1⟩ ⟨0, 1⟩ (by decide))
  exact (hsafe (by decide) 0 rfl).1 rfl

end Unsafe

end Sylverant.Ship.Pt
