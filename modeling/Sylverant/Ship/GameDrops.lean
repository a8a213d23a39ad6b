/-
# The drop tables behind a game

The requests for drops that come as long as a game lasts are served from the tables with the
difficulty and the episode that it was created with, and the section id of whoever leads it then.
A generator takes the place of an entry before it checks the request. It may take a second one to
roll for a rare item. Nothing else of the tables has an effect on what it does.
-/

import Sylverant.Ship.DropRequests
import Sylverant.Ship.GameTables

namespace Sylverant.Ship.GameTables

open Pt
open Simulation
open Sylverant.Ship.Rt (RtSet)

/-! ## The entries -/

/-- An entry of `v2_ptdata`, `gc_ptdata`, `bb_ptdata`, `v2_rtdata` or `gc_rtdata`. -/
inductive Entry
  | v2Ptdata (difficulty sectionId : Nat)
  | gcPtdata (i : TableIndex)
  | bbPtdata (i : TableIndex)
  | v2Rtdata (difficulty sectionId : Nat)
  | gcRtdata (i : TableIndex)

def Entry.Inside : Entry → Prop
  | .v2Ptdata difficulty sectionId | .v2Rtdata difficulty sectionId =>
      difficulty < 4 ∧ sectionId < 10
  | .gcPtdata i | .bbPtdata i | .gcRtdata i => i.Inside

section Entries

variable (d : DropData) (l : DropLobby) (c : Requester) (req : ItemReq)

/-- A request for an enemy that is gone on with. -/
def enemyServed (episode : Nat) : Bool :=
  (dropArea episode c.curArea).isOk && req.req ≤ l.enemyCount && !l.dropDone req.req

/-- A request for a box that is gone on with. -/
def boxServed (episode : Nat) : Bool :=
  req.ptIndex = 0x30 && req.req ≤ l.objCount && !l.opened req.req &&
    (dropArea episode c.curArea).isOk

/-- An enemy may have a rare item, if there is a table of them. -/
def enemyRolls (episode : Nat) (loaded doRare : Bool) : Bool :=
  enemyServed l c req episode && loaded && doRare && req.ptIndex ≤ 100

/-- A box may have a rare item, if there is a table of them. -/
def boxRolls (episode : Nat) (loaded doRare : Bool) : Bool :=
  boxServed l c req episode && loaded && doRare && !(l.objs req.req).fixedType

/-- `do_rare`, where a quest may say something of the enemy or the box. -/
def questDoRare (qdrop : UInt32) : Bool :=
  if l.qid ≠ 0 ∧ (qdrop = 1 ∨ qdrop = 2) then false
  else if l.qid ≠ 0 ∧ qdrop = 3 then true
  else (shipRares d l).1

/-- The entries that `pt_generate_v2_boxdrop` takes. -/
def v2BoxdropEntries : List Entry :=
  .v2Ptdata l.difficulty l.v1Section ::
    if boxRolls l c req 1 d.v2Rtdata.isSome (questDoRare d l (searchEnemyList 0x30 l.mtypes)) then
      [.v2Rtdata l.difficulty l.v1Section]
    else []

/-- The entries that `pt_generate_v2_drop` takes. -/
def v2DropEntries : List Entry :=
  .v2Ptdata l.difficulty l.v1Section ::
    if req.ptIndex > 0x33 then []
    else if req.ptIndex = 0x30 then v2BoxdropEntries d l c req
    else if enemyRolls l c req 1 d.v2Rtdata.isSome (questDoRare d l (enemyQdrop l req)) then
      [.v2Rtdata l.difficulty l.v1Section]
    else []

/-- The entries that `pt_generate_gc_boxdrop` takes. -/
def gcBoxdropEntries : List Entry :=
  .gcPtdata (gcBoxdropEntry l.toDropGame) ::
    if boxRolls l c req l.episode d.gcRtdata.isSome (shipRares d l).1 then
      [.gcRtdata (gcRareSet l.toDropGame)]
    else []

/-- The entries that `pt_generate_gc_drop` takes. -/
def gcDropEntries : List Entry :=
  .gcPtdata (gcDropEntry l.toDropGame) ::
    if req.ptIndex = 0x30 then gcBoxdropEntries d l c req
    else if enemyRolls l c req l.episode d.gcRtdata.isSome (shipRares d l).1 then
      [.gcRtdata (gcRareSet l.toDropGame)]
    else []

/-- The entries that `pt_generate_bb_boxdrop` takes. -/
def bbBoxdropEntries : List Entry :=
  if l.episode = 3 then []
  else
    .bbPtdata (bbBoxdropEntry l.toDropGame) ::
      if boxRolls l c req l.episode d.gcRtdata.isSome (shipRares d l).1 then
        [.gcRtdata (gcRareSet l.toDropGame)]
      else []

/-- The entries that `pt_generate_bb_drop` takes. -/
def bbDropEntries : List Entry :=
  if l.episode = 3 then []
  else
    .bbPtdata (bbDropEntry l.toDropGame) ::
      if req.ptIndex = 0x30 then bbBoxdropEntries d l c req
      else if enemyRolls l c req l.episode d.gcRtdata.isSome (shipRares d l).1 then
        [.gcRtdata (gcRareSet l.toDropGame)]
      else []

end Entries

/-- The entries that a generator takes for a request. -/
def entries (d : DropData) (l : DropLobby) (c : Requester) (req : ItemReq) :
    Generator → List Entry
  | .v2Drop => v2DropEntries d l c req
  | .v2Boxdrop => v2BoxdropEntries d l c req
  | .gcDrop => gcDropEntries d l c req
  | .gcBoxdrop => gcBoxdropEntries d l c req
  | .bbDrop => bbDropEntries d l c req
  | .bbBoxdrop => bbBoxdropEntries d l c req

/-! ## Nothing else of the tables has an effect -/

/-- What is in the tables, and behind them. -/
structure Tables where
  v2Ptdata : Nat → Nat → PtEntry
  gcPtdata : TableIndex → PtEntry
  bbPtdata : TableIndex → PtEntry
  v2Rtdata : Nat → Nat → RtSet
  gcRtdata : TableIndex → RtSet

/-- A ship with such tables. Those with rare items are there if they were read. -/
def put (d : DropData) (t : Tables) : DropData :=
  { d with
    v2Ptdata := t.v2Ptdata
    gcPtdata := t.gcPtdata
    bbPtdata := t.bbPtdata
    v2Rtdata := d.v2Rtdata.map fun _ => t.v2Rtdata
    gcRtdata := d.gcRtdata.map fun _ => t.gcRtdata }

/-- Two sets of tables have the same for an entry. -/
def Tables.SameAt (t t' : Tables) : Entry → Prop
  | .v2Ptdata i j => t.v2Ptdata i j = t'.v2Ptdata i j
  | .gcPtdata i => t.gcPtdata i = t'.gcPtdata i
  | .bbPtdata i => t.bbPtdata i = t'.bbPtdata i
  | .v2Rtdata i j => t.v2Rtdata i j = t'.v2Rtdata i j
  | .gcRtdata i => t.gcRtdata i = t'.gcRtdata i

section Effect

theorem bind_eq_of_ok {α β : Type} {m : Gen α} {f f' : α → Gen β} {s : GenState}
    (h : ∀ a t, m s = .ok a t → f a t = f' a t) : (m >>= f) s = (m >>= f') s := by
  cases run : m s with
  | ok a t =>
      rw [bind_ok run, bind_ok run]
      exact h a t run
  | error e t => rw [bind_error run, bind_error run]

theorem boxServed_of_claimBox {episode : Nat} {c : Requester} {req : ItemReq} {s t : GenState}
    {area : Int} (claimed : claimBox episode c.curArea req s = .ok area t) :
    boxServed s.lobby c req episode = true := by
  rw [claimBox_eq] at claimed
  split at claimed
  · cases claimed
  · rename_i sane
    split at claimed
    · cases claimed
    · rename_i closed
      split at claimed
      · cases claimed
      · rename_i area' known
        have index : req.ptIndex = 0x30 := by omega
        have low : req.req ≤ s.lobby.objCount := by omega
        simp [boxServed, index, low, closed, known, Except.isOk, Except.toBool]

theorem enemyServed_of_claimEnemy {episode : Nat} {c : Requester} {req : ItemReq}
    {s t : GenState} {area : Int} (claimed : claimEnemy episode c.curArea req s = .ok area t) :
    enemyServed s.lobby c req episode = true := by
  rw [claimEnemy_eq] at claimed
  split at claimed
  · cases claimed
  · rename_i area' known
    split at claimed
    · cases claimed
    · rename_i low
      split at claimed
      · cases claimed
      · rename_i alive
        have low : req.req ≤ s.lobby.enemyCount := by omega
        simp [enemyServed, low, alive, known, Except.isOk, Except.toBool]

/-- Only the roll for a rare item needs the table of them. -/
theorem enemyDrop_congr {mk mk' : Maker} (same : mk' = { mk with rare := mk'.rare })
    {item : GenItem} {doRare csr : Bool} {ptIndex : Nat}
    (roll : doRare = true → mk'.rare ptIndex 0 = mk.rare ptIndex 0) :
    mk'.enemyDrop item doRare csr ptIndex = mk.enemyDrop item doRare csr ptIndex := by
  have rolled : mk'.rollRare item doRare ptIndex 0 = mk.rollRare item doRare ptIndex 0 := by
    rw [Maker.rollRare, Maker.rollRare]
    cases doRare with
    | false => rfl
    | true => rw [roll rfl]
  rw [Maker.enemyDrop, rolled, same]
  rfl

/-- The roll for whether an enemy drops something comes before it. -/
theorem rollDar_congr {mk mk' : Maker} (same : mk' = { mk with rare := mk'.rare }) {ptIndex : Nat}
    {rest rest' : Unit → Gen Int} (h : ∀ w, rest' () w = rest () w) (u : GenState) :
    (rollDar mk'.ent ptIndex >>= rest') u = (rollDar mk.ent ptIndex >>= rest) u := by
  have ent : mk'.ent = mk.ent := by rw [same]
  rw [ent]
  exact bind_eq_of_ok fun _ w _ => h w

theorem boxDrop_congr {mk mk' : Maker} (same : mk' = { mk with rare := mk'.rare })
    {item : GenItem} {doRare csr : Bool} {obj : MapObject}
    (roll : doRare = true → obj.fixedType = false →
      mk'.rare (-1) (mk.area + 1) = mk.rare (-1) (mk.area + 1)) :
    mk'.boxDrop item doRare csr obj = mk.boxDrop item doRare csr obj := by
  have area : mk'.area = mk.area := by rw [same]
  rw [Maker.boxDrop, Maker.boxDrop]
  cases fixed : obj.fixedType with
  | true =>
      rw [if_pos rfl, if_pos rfl, same]
      rfl
  | false =>
      have rolled : mk'.rollRare item doRare (-1) (mk'.area + 1) =
          mk.rollRare item doRare (-1) (mk.area + 1) := by
        rw [area, Maker.rollRare, Maker.rollRare]
        cases doRare with
        | false => rfl
        | true => rw [roll rfl fixed]
      rw [if_neg Bool.false_ne_true, if_neg Bool.false_ne_true, rolled, same]
      rfl

/-- A roll for a rare item needs the set that it is for, if there is a table and the index is
sane. -/
theorem rtGenerateRare_congr {ι : Type} {loaded : Option ι} {set set' : RtSet} {rtIndex : Int}
    (same : loaded.isSome = true → rtIndex ≤ 100 → set = set') (area : Int) :
    rtGenerateRare (loaded.map fun _ => set) rtIndex area =
      rtGenerateRare (loaded.map fun _ => set') rtIndex area := by
  cases loaded with
  | none => rfl
  | some x =>
      by_cases sane : rtIndex ≤ 100
      · rw [same rfl sane]
      · change (if rtIndex < -1 ∨ rtIndex > 100 then _ else _) =
          (if rtIndex < -1 ∨ rtIndex > 100 then _ else _)
        rw [if_pos (Or.inr (by omega)), if_pos (Or.inr (by omega))]

variable {d : DropData} {t t' : Tables} {c : Requester} {item : GenItem} {req : ItemReq}
  {s : GenState}

theorem v2Maker_put {l : DropLobby} {area : Int}
    (same : t.v2Ptdata l.difficulty l.v1Section = t'.v2Ptdata l.difficulty l.v1Section) :
    v2Maker (put d t) c l req area =
      { v2Maker (put d t') c l req area with rare := (v2Maker (put d t) c l req area).rare } := by
  simp only [v2Maker, put, same]
  rfl

theorem gcMaker_put {l : DropLobby} {area : Int} {entry : TableIndex}
    (same : t.gcPtdata entry = t'.gcPtdata entry) :
    gcMaker (put d t) c l req area entry =
      { gcMaker (put d t') c l req area entry with
        rare := (gcMaker (put d t) c l req area entry).rare } := by
  simp only [gcMaker, put, same]
  rfl

theorem bbMaker_put {l : DropLobby} {area : Int} {entry : TableIndex}
    (same : t.bbPtdata entry = t'.bbPtdata entry) :
    bbMaker (put d t) l req area entry =
      { bbMaker (put d t') l req area entry with
        rare := (bbMaker (put d t) l req area entry).rare } := by
  simp only [bbMaker, put, same]
  rfl

/-- The rolls for a rare item of the two tables. -/
theorem v2_rare_put {l : DropLobby} {rtIndex : Int}
    (same : d.v2Rtdata.isSome = true → rtIndex ≤ 100 →
      t.v2Rtdata l.difficulty l.v1Section = t'.v2Rtdata l.difficulty l.v1Section) (area a : Int) :
    (v2Maker (put d t) c l req area).rare rtIndex a =
      (v2Maker (put d t') c l req area).rare rtIndex a := by
  have rolled := rtGenerateRare_congr same a
  simpa only [v2Maker, put, Option.map_map, Function.comp_def] using rolled

theorem gc_rare_put {i : TableIndex} {rtIndex : Int}
    (same : d.gcRtdata.isSome = true → rtIndex ≤ 100 → t.gcRtdata i = t'.gcRtdata i) (a : Int) :
    rtGenerateRare ((put d t).gcRtdata.map fun sets => sets i) rtIndex a =
      rtGenerateRare ((put d t').gcRtdata.map fun sets => sets i) rtIndex a := by
  have rolled := rtGenerateRare_congr same a
  simpa only [put, Option.map_map, Function.comp_def] using rolled

theorem gcBoxdrop_put (same : ∀ e ∈ gcBoxdropEntries d s.lobby c req, t.SameAt t' e) :
    Pt.ptGenerateGcBoxdrop (put d t) c item req s =
      Pt.ptGenerateGcBoxdrop (put d t') c item req s := by
  change (claimBox s.lobby.episode c.curArea req >>= fun area =>
      (gcMaker (put d t) c s.lobby req area (gcBoxdropEntry s.lobby.toDropGame)).boxDrop item
        (shipRares d s.lobby).1 (shipRares d s.lobby).2 (s.lobby.objs req.req)) s =
    (claimBox s.lobby.episode c.curArea req >>= fun area =>
      (gcMaker (put d t') c s.lobby req area (gcBoxdropEntry s.lobby.toDropGame)).boxDrop item
        (shipRares d s.lobby).1 (shipRares d s.lobby).2 (s.lobby.objs req.req)) s
  apply bind_eq_of_ok
  intro area u claimed
  have served := boxServed_of_claimBox claimed
  obtain ⟨entry, rare⟩ := List.forall_mem_cons.mp same
  apply congrFun (boxDrop_congr (gcMaker_put entry) fun doRare other => ?_) u
  apply gc_rare_put
  intro loaded _
  rw [if_pos (by rw [boxRolls, served, loaded, doRare, other]; rfl)] at rare
  exact rare _ List.mem_cons_self

theorem gcDrop_put (same : ∀ e ∈ gcDropEntries d s.lobby c req, t.SameAt t' e) :
    Pt.ptGenerateGcDrop (put d t) c item req s = Pt.ptGenerateGcDrop (put d t') c item req s := by
  obtain ⟨entry, rare⟩ := List.forall_mem_cons.mp same
  rw [Pt.ptGenerateGcDrop, Pt.ptGenerateGcDrop, run_get_bind, run_get_bind]
  split
  · rename_i box
    rw [if_pos box] at rare
    exact gcBoxdrop_put rare
  · rename_i enemy
    rw [if_neg enemy] at rare
    apply bind_eq_of_ok
    intro area u claimed
    have served := enemyServed_of_claimEnemy claimed
    apply rollDar_congr (gcMaker_put entry)
    intro w
    apply congrFun (@enemyDrop_congr _ _ (gcMaker_put entry) item (shipRares d s.lobby).1
      (shipRares d s.lobby).2 req.ptIndex fun doRare => ?_) w
    apply gc_rare_put
    intro loaded sane
    rw [if_pos (by simp [enemyRolls, served, loaded, doRare]; omega)] at rare
    exact rare _ List.mem_cons_self

theorem bbBoxdrop_put (same : ∀ e ∈ bbBoxdropEntries d s.lobby c req, t.SameAt t' e) :
    Pt.ptGenerateBbBoxdrop (put d t) c item req s =
      Pt.ptGenerateBbBoxdrop (put d t') c item req s := by
  rw [Pt.ptGenerateBbBoxdrop, Pt.ptGenerateBbBoxdrop, run_get_bind, run_get_bind, returnIf]
  by_cases episode : s.lobby.episode = 3
  · rw [if_pos episode, run_throw_bind, run_throw_bind]
  · rw [if_neg episode, run_pure_bind, run_pure_bind]
    rw [bbBoxdropEntries, if_neg episode] at same
    obtain ⟨entry, rare⟩ := List.forall_mem_cons.mp same
    apply bind_eq_of_ok
    intro area u claimed
    have served := boxServed_of_claimBox claimed
    apply congrFun (@boxDrop_congr _ _ (bbMaker_put entry) item (shipRares d s.lobby).1
      (shipRares d s.lobby).2 (s.lobby.objs req.req) fun doRare other => ?_) u
    apply gc_rare_put
    intro loaded _
    rw [if_pos (by rw [boxRolls, served, loaded, doRare, other]; rfl)] at rare
    exact rare _ List.mem_cons_self

theorem bbDrop_put (same : ∀ e ∈ bbDropEntries d s.lobby c req, t.SameAt t' e) :
    Pt.ptGenerateBbDrop (put d t) c item req s = Pt.ptGenerateBbDrop (put d t') c item req s := by
  rw [Pt.ptGenerateBbDrop, Pt.ptGenerateBbDrop, run_get_bind, run_get_bind, returnIf]
  by_cases episode : s.lobby.episode = 3
  · rw [if_pos episode, run_throw_bind, run_throw_bind]
  · rw [if_neg episode, run_pure_bind, run_pure_bind]
    rw [bbDropEntries, if_neg episode] at same
    obtain ⟨entry, rare⟩ := List.forall_mem_cons.mp same
    split
    · rename_i box
      rw [if_pos box] at rare
      exact bbBoxdrop_put rare
    · rename_i enemy
      rw [if_neg enemy] at rare
      apply bind_eq_of_ok
      intro area u claimed
      have served := enemyServed_of_claimEnemy claimed
      apply rollDar_congr (bbMaker_put entry)
      intro w
      apply congrFun (@enemyDrop_congr _ _ (bbMaker_put entry) item (shipRares d s.lobby).1
        (shipRares d s.lobby).2 req.ptIndex fun doRare => ?_) w
      apply gc_rare_put
      intro loaded sane
      rw [if_pos (by simp [enemyRolls, served, loaded, doRare]; omega)] at rare
      exact rare _ List.mem_cons_self

theorem doRare_of_questRares {l : DropLobby} {qdrop : UInt32} {u w : GenState}
    {rares : Bool × Bool} (said : questRares d l qdrop u = .ok rares w) :
    rares.1 = questDoRare d l qdrop := by
  rw [questRares] at said
  rw [questDoRare]
  split at said
  · rename_i quest
    split at said
    · cases said
    · rename_i none_zero
      split at said
      · rename_i one
        cases said
        rw [if_pos ⟨quest, Or.inl one⟩]
      · rename_i none_one
        split at said
        · rename_i two
          cases said
          rw [if_pos ⟨quest, Or.inr two⟩]
        · rename_i none_two
          rw [if_neg (by simp [none_one, none_two])]
          split at said
          · rename_i three
            cases said
            rw [if_pos ⟨quest, three⟩]
          · rename_i none_three
            cases said
            rw [if_neg (by simp [none_three])]
  · rename_i none_quest
    cases said
    rw [if_neg (fun h => none_quest h.1), if_neg (fun h => none_quest h.1)]

theorem v2Boxdrop_put (same : ∀ e ∈ v2BoxdropEntries d s.lobby c req, t.SameAt t' e) :
    Pt.ptGenerateV2Boxdrop (put d t) c item req s =
      Pt.ptGenerateV2Boxdrop (put d t') c item req s := by
  obtain ⟨entry, rare⟩ := List.forall_mem_cons.mp same
  rw [Pt.ptGenerateV2Boxdrop, Pt.ptGenerateV2Boxdrop, run_get_bind, run_get_bind]
  apply bind_eq_of_ok
  intro area u claimed
  have served := boxServed_of_claimBox claimed
  apply bind_eq_of_ok
  intro rares w said
  have decided : rares.1 = questDoRare d s.lobby (searchEnemyList 0x30 s.lobby.mtypes) :=
    doRare_of_questRares said
  apply congrFun (@boxDrop_congr _ _ (v2Maker_put entry) item rares.1 rares.2
    (s.lobby.objs req.req) fun doRare other => ?_) w
  apply v2_rare_put
  intro loaded _
  rw [decided] at doRare
  rw [if_pos (by rw [boxRolls, served, loaded, other]; simpa using doRare)] at rare
  exact rare _ List.mem_cons_self

theorem v2Drop_put (same : ∀ e ∈ v2DropEntries d s.lobby c req, t.SameAt t' e) :
    Pt.ptGenerateV2Drop (put d t) c item req s = Pt.ptGenerateV2Drop (put d t') c item req s := by
  obtain ⟨entry, rare⟩ := List.forall_mem_cons.mp same
  rw [Pt.ptGenerateV2Drop, Pt.ptGenerateV2Drop, run_get_bind, run_get_bind, returnIf]
  by_cases high : req.ptIndex > 0x33
  · rw [if_pos high, run_throw_bind, run_throw_bind]
  · rw [if_neg high, run_pure_bind, run_pure_bind]
    rw [if_neg high] at rare
    split
    · rename_i box
      rw [if_pos box] at rare
      exact v2Boxdrop_put rare
    · rename_i enemy
      rw [if_neg enemy] at rare
      apply bind_eq_of_ok
      intro area u claimed
      have served := enemyServed_of_claimEnemy claimed
      apply rollDar_congr (v2Maker_put entry)
      intro w
      apply bind_eq_of_ok
      intro rares v said
      have decided : rares.1 = questDoRare d s.lobby (enemyQdrop s.lobby req) :=
        doRare_of_questRares said
      apply congrFun (@enemyDrop_congr _ _ (v2Maker_put entry) item rares.1 rares.2 req.ptIndex
        fun doRare => ?_) v
      apply v2_rare_put
      intro loaded sane
      rw [decided] at doRare
      rw [if_pos (by simp [enemyRolls, served, loaded]; exact ⟨doRare, by omega⟩)] at rare
      exact rare _ List.mem_cons_self

end Effect

/-- A generator answers a request as the entries say that it takes for it, whatever else is in the
tables, and behind them. -/
theorem run_put {d : DropData} {t t' : Tables} {c : Requester} {item : GenItem} {req : ItemReq}
    {s : GenState} {gen : Generator} (same : ∀ e ∈ entries d s.lobby c req gen, t.SameAt t' e) :
    gen.run (put d t) c item req s = gen.run (put d t') c item req s := by
  cases gen with
  | v2Drop => exact v2Drop_put same
  | v2Boxdrop => exact v2Boxdrop_put same
  | gcDrop => exact gcDrop_put same
  | gcBoxdrop => exact gcBoxdrop_put same
  | bbDrop => exact bbDrop_put same
  | bbBoxdrop => exact bbBoxdrop_put same

/-! ## The requests in a game -/

/-- The functions for drops that a game may have. -/
inductive DropFunc
  | td
  | v2Drop
  | gcDrop
  | bbDrop

/-- What the function for the drops of a game depends on: the checksum of its name, the flag
`CLIENT_FLAG_SERVER_DROPS` of its creator, and whether all other tables were read. -/
structure DropSettings where
  nameCrc : UInt32
  serverDrops : Bool
  v2Enabled : Bool
  gcEnabled : Bool

/-- `lobby_setup_drops` -/
def lobbySetupDrops (env : Env) (x : DropSettings) (y : Client) (a : GameArgs) : Option DropFunc :=
  if a.version = .bb then some .bbDrop
  else if x.nameCrc = 0x9C350DD4 then some .td
  else if x.serverDrops then
    match y.version with
    | .dcv1 | .dcv2 | .pc => if x.v2Enabled ∧ env.haveV2Maps then some .v2Drop else none
    | .gc => if x.gcEnabled ∧ env.haveGcMaps then some .gcDrop else none
    | .ep3 | .bb => none
  else none

structure Game where
  args : GameArgs
  dropfunc : Option DropFunc

/-- The game that comes of a packet, if one does. -/
def createdGame (env : Env) (x : DropSettings) (y : Client) (pkt : CreatePkt) : Option Game :=
  (processGameCreate env y pkt).2.map fun a => ⟨a, lobbySetupDrops env x y a⟩

/-- A request for a drop, with the game as it is then, and the tables of the ship. -/
structure Request where
  lobby : DropLobby
  data : DropData
  client : Requester
  req : ItemReq

/-- The game as it is when a request comes. It has the difficulty and the episode that it was
created with. (The election of a leader may change the episode of a game from before the GameCube,
but there the drops do not depend on it.) -/
def Game.lobby (g : Game) (r : Request) : DropLobby :=
  { r.lobby with episode := g.args.episode, difficulty := g.args.difficulty }

/-- The entries that the game takes for a request. The function `td` has no tables, and without a
function the request is left to another client. -/
def Game.entries (g : Game) (r : Request) : List Entry :=
  match g.dropfunc with
  | some .v2Drop => GameTables.entries r.data (g.lobby r) r.client r.req .v2Drop
  | some .gcDrop => GameTables.entries r.data (g.lobby r) r.client r.req .gcDrop
  | some .bbDrop => GameTables.entries r.data (g.lobby r) r.client r.req .bbDrop
  | some .td | none => []

/-- A request for something that may have a rare item. -/
def rolls (d : DropData) (l : DropLobby) (c : Requester) (req : ItemReq) : Bool :=
  if req.ptIndex = 0x30 then boxRolls l c req l.episode d.gcRtdata.isSome (shipRares d l).1
  else enemyRolls l c req l.episode d.gcRtdata.isSome (shipRares d l).1

/-- The condition on a request: the section ids of the leader that are used are below ten, and
boxes are not opened but in the first episode. -/
def Request.Fits (g : Game) (r : Request) : Prop :=
  match g.dropfunc with
  | some .v2Drop => r.lobby.v1Section < 10
  | some .gcDrop =>
      r.lobby.v1Section < 10 ∧ g.args.episode ≤ 2 ∧ (r.req.ptIndex = 0x30 → g.args.episode = 1)
  | some .bbDrop =>
      g.args.episode = 3 ∨
        r.lobby.bbSection < 10 ∧ (r.req.ptIndex = 0x30 → g.args.episode = 1) ∧
          (rolls r.data (g.lobby r) r.client r.req = true → r.lobby.v1Section < 10)
  | some .td | none => True

section Requests

variable {d : DropData} {l : DropLobby} {c : Requester} {req : ItemReq}

/-- The two entries of a request, of which the second one is for rare items. -/
theorem inside_pair {e e' : Entry} {rolled : Bool} :
    (∀ x ∈ e :: (if rolled then [e'] else []), x.Inside) ↔
      e.Inside ∧ (rolled = true → e'.Inside) := by
  rw [List.forall_mem_cons]
  cases rolled with
  | false => simp
  | true => simp

theorem v2Drop_inside_iff (difficulty : l.difficulty < 4) :
    (∀ e ∈ v2DropEntries d l c req, e.Inside) ↔ l.v1Section < 10 := by
  have inside : ∀ e ∈ v2DropEntries d l c req,
      e = .v2Ptdata l.difficulty l.v1Section ∨ e = .v2Rtdata l.difficulty l.v1Section := by
    intro e mem
    rw [v2DropEntries, v2BoxdropEntries] at mem
    split_ifs at mem <;> simp_all
  constructor
  · exact fun all => (all _ List.mem_cons_self).2
  · intro sectionId e mem
    rcases inside e mem with rfl | rfl
    · exact ⟨difficulty, sectionId⟩
    · exact ⟨difficulty, sectionId⟩

theorem gcDrop_inside_iff (difficulty : l.difficulty < 4) (episode : 1 ≤ l.episode) :
    (∀ e ∈ gcDropEntries d l c req, e.Inside) ↔
      l.v1Section < 10 ∧ l.episode ≤ 2 ∧ (req.ptIndex = 0x30 → l.episode = 1) := by
  have enemy : (gcDropEntry l.toDropGame).Inside ↔ l.v1Section < 10 ∧ l.episode ≤ 2 := by
    simp only [gcDropEntry, TableIndex.Inside]
    omega
  have rare : (gcRareSet l.toDropGame).Inside ↔ l.v1Section < 10 ∧ l.episode ≤ 2 := enemy
  have box : (gcBoxdropEntry l.toDropGame).Inside ↔ l.v1Section < 10 ∧ l.episode = 1 := by
    simp only [gcBoxdropEntry, TableIndex.Inside]
    omega
  rw [gcDropEntries, List.forall_mem_cons, Entry.Inside, enemy]
  by_cases isBox : req.ptIndex = 0x30
  · rw [if_pos isBox, gcBoxdropEntries, inside_pair, Entry.Inside, Entry.Inside, box, rare]
    constructor
    · exact fun h => ⟨h.1.1, h.1.2, fun _ => h.2.1.2⟩
    · exact fun h => ⟨⟨h.1, h.2.1⟩, ⟨h.1, h.2.2 isBox⟩, fun _ => ⟨h.1, h.2.1⟩⟩
  · rw [if_neg isBox]
    constructor
    · exact fun h => ⟨h.1.1, h.1.2, fun h' => absurd h' isBox⟩
    · rintro ⟨sectionId, episode, -⟩
      refine ⟨⟨sectionId, episode⟩, fun e mem => ?_⟩
      split at mem
      · rw [List.mem_singleton.mp mem]
        exact rare.mpr ⟨sectionId, episode⟩
      · cases mem

theorem bbDrop_inside_iff (difficulty : l.difficulty < 4)
    (episode : 1 ≤ l.episode ∧ l.episode ≤ 3) :
    (∀ e ∈ bbDropEntries d l c req, e.Inside) ↔
      l.episode = 3 ∨ l.bbSection < 10 ∧ (req.ptIndex = 0x30 → l.episode = 1) ∧
        (rolls d l c req = true → l.v1Section < 10) := by
  rw [bbDropEntries]
  by_cases last : l.episode = 3
  · rw [if_pos last]
    exact ⟨fun _ => Or.inl last, fun _ e mem => absurd mem List.not_mem_nil⟩
  have enemy : (bbDropEntry l.toDropGame).Inside ↔ l.bbSection < 10 := by
    simp only [bbDropEntry, TableIndex.Inside]
    omega
  have rare : (gcRareSet l.toDropGame).Inside ↔ l.v1Section < 10 := by
    simp only [gcRareSet, TableIndex.Inside]
    omega
  have box : (bbBoxdropEntry l.toDropGame).Inside ↔ l.bbSection < 10 ∧ l.episode = 1 := by
    simp only [bbBoxdropEntry, TableIndex.Inside]
    omega
  rw [if_neg last, or_iff_right last, rolls]
  by_cases isBox : req.ptIndex = 0x30
  · rw [if_pos isBox, if_pos isBox, List.forall_mem_cons, bbBoxdropEntries, if_neg last,
      inside_pair, Entry.Inside, Entry.Inside, Entry.Inside, enemy, box, rare]
    constructor
    · exact fun h => ⟨h.1, fun _ => h.2.1.2, h.2.2⟩
    · exact fun h => ⟨h.1, ⟨h.1, h.2.1 isBox⟩, h.2.2⟩
  · rw [if_neg isBox, if_neg isBox, inside_pair, Entry.Inside, Entry.Inside, enemy, rare]
    constructor
    · exact fun h => ⟨h.1, fun h' => absurd h' isBox, h.2⟩
    · exact fun h => ⟨h.1, h.2.2⟩

end Requests

section Setup

variable {env : Env} {x : DropSettings} {y : Client} {a : GameArgs}

theorem version_of_gcDrop (func : lobbySetupDrops env x y a = some .gcDrop) : y.version = .gc := by
  rw [lobbySetupDrops] at func
  cases version : y.version with
  | gc => rfl
  | _ =>
      rw [version] at func
      dsimp only at func
      split_ifs at func <;> cases func

theorem version_of_bbDrop (func : lobbySetupDrops env x y a = some .bbDrop) : a.version = .bb := by
  rw [lobbySetupDrops] at func
  by_contra other
  rw [if_neg other] at func
  cases version : y.version with
  | _ =>
      rw [version] at func
      dsimp only at func
      split_ifs at func <;> cases func

end Setup

/-- The entries for a request are there if and only if the request fits, in a game whose difficulty
and episode the tables have. -/
theorem request_inside_iff {env : Env} {x : DropSettings} {y : Client} {a : GameArgs}
    (known : Known env a) (version : a.version = y.version) (r : Request) :
    (∀ e ∈ (Game.mk a (lobbySetupDrops env x y a)).entries r, e.Inside) ↔
      r.Fits ⟨a, lobbySetupDrops env x y a⟩ := by
  obtain ⟨difficulty, episode⟩ := known
  have nothing : (∀ e ∈ ([] : List Entry), e.Inside) ↔ True :=
    ⟨fun _ => trivial, fun _ e mem => absurd mem List.not_mem_nil⟩
  rw [Game.entries, Request.Fits]
  cases func : lobbySetupDrops env x y a with
  | none => exact nothing
  | some f =>
      cases f with
      | td => exact nothing
      | v2Drop => exact v2Drop_inside_iff difficulty
      | gcDrop =>
          rw [version, version_of_gcDrop func] at episode
          exact gcDrop_inside_iff difficulty episode.1
      | bbDrop =>
          rw [version_of_bbDrop func] at episode
          exact bbDrop_inside_iff difficulty episode

/-- A ship with the maps for the GameCube, and nothing but zeros behind its tables. -/
def cubeShip : Env where
  memory := ⟨fun _ => 0, fun _ _ _ => 0, fun _ _ => (0, 0)⟩
  alloc := true
  allocEnemies := true
  haveV2Maps := false
  haveGcMaps := true
  nextMaps := none
  rnd _ := 0

/-- A player for the GameCube. -/
def cubePlayer : Client where
  version := .gc
  level := 0
  chClass := 0
  times _ := 0

/-- An easy game in the seventh episode. -/
def seventhEpisode : CreatePkt :=
  .game ⟨"", 0, 0, 0, 0, 7, false⟩

end Sylverant.Ship.GameTables
