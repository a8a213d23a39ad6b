/-
# Packets about monsters

The hits on the monsters of a game and the requests for experience name a monster by a number of
sixteen bits. Here the handlers read the arrays that they look it up in only inside them: the
monsters of the game, of which there are exactly `count`, the battle parameters and the kill
counters. A handler has a result only when it stays inside all of them, and that result is the one
of the models without bounds.
-/

import Sylverant.Ship.Experience
import Sylverant.Ship.Kills

namespace Sylverant.Ship

/-- Read `enemies[mid]`, which exists only for a number below `count`. -/
def GameEnemies.load (m : GameEnemies) (mid : Nat) : Option GameEnemy :=
  if mid < m.count then some (m.enemies mid) else none

namespace MonsterPackets

open Exp (Play)
open Kills (Server)

/-! ## The code -/

/-- The entries of `bb_params`, and those of `enemy_kills`. -/
def entries : Nat := 0x60

/-- Count a kill in `enemy_kills`. -/
def countKill (s : Server) (c : ClientRef) (bp : Nat) : Option Server :=
  if bp < entries then some (s.countKill c bp) else none

/-- Read the experience in an entry of `bb_params`. -/
def paramExp (l : Exp.Game) (bp : UInt32) : Option UInt32 :=
  if bp.toNat < entries then some (l.bbParams bp) else none

/-- Save a hit. -/
def saveHit (s : Server) (c : ClientRef) (l : LobbyRef) (m : GameEnemies) (pkt : Kills.MhitPkt) :
    Option Server := do
  let en ← m.load pkt.enemyId
  let slot := (s.block.client c).clientId
  let hit : GameEnemy :=
    { en with clientsHit := en.clientsHit ||| 1#8 <<< slot, lastClient := slot.toUInt8 }
  if en.clientsHit &&& 0x80#8 ≠ 0#8 then pure s
  else if Kills.kills (s.block.client c).version pkt then
    let s := s.setEnemy l m pkt.enemyId { hit with clientsHit := hit.clientsHit ||| 0x80#8 }
    if en.bpEntry.toNat < 0x60 then countKill s c en.bpEntry.toNat else pure s
  else pure (s.setEnemy l m pkt.enemyId hit)

/-- `handle_mhit`. A client in no lobby does not get there. -/
def handleMhit (s : Server) (c : ClientRef) (pkt : Kills.MhitPkt) : Option (Server × Int) :=
  match (s.block.client c).curLobby with
  | none => some (s, 0)
  | some l =>
      if (s.block.lobby l).type = .default then some (s, -1)
      else if pkt.pktLen ≠ 0x0010 ∨ pkt.size ≠ 0x03 then some (s, -1)
      else
        match s.mapEnemies l with
        | none => some (s, 0)
        | some m =>
            if m.count < pkt.enemyId then some (s, if s.serverDrops l then -1 else 0)
            else (saveHit s c l m pkt).map (·, 0)

/-- `handle_bb_mhit` -/
def handleBbMhit (p : Play) (slot : Nat) (pkt : Exp.MhitPkt) : Option (Play × Int) :=
  let l := p.game
  if l.type = .default then some (p, -1)
  else if pkt.pktLen ≠ 0x0014 ∨ pkt.size ≠ 0x03 then some (p, -1)
  else
    let mid := pkt.enemyId.toNat
    if mid > l.mapEnemies.count then some (p, -1)
    else do
      let en ← l.mapEnemies.load mid
      if en.clientsHit &&& 0x80#8 ≠ 0#8 then pure (p, 0)
      else
        let en' := { en with
          clientsHit := en.clientsHit ||| 1#8 <<< slot, lastClient := slot.toUInt8 }
        pure ({ game := l.setEnemy mid en', deeds := .hit slot mid :: p.deeds }, 0)

/-- `handle_bb_req_exp` -/
def handleBbReqExp (p : Play) (slot : Nat) (c : Exp.Client) (pkt : Exp.ReqExpPkt) :
    Option (Play × Int) :=
  let l := p.game
  if l.type = .default then some (p, -1)
  else if pkt.pktLen ≠ 0x0014 ∨ pkt.size ≠ 0x03 then some (p, -1)
  else
    let mid := pkt.enemyId.toNat
    if mid > l.mapEnemies.count then some (p, -1)
    else do
      let en ← l.mapEnemies.load mid
      if en.clientsHit &&& 1#8 <<< slot = 0#8 then pure (p, 0)
      else
        let en' := { en with clientsHit := en.clientsHit &&& ~~~(1#8 <<< slot) ||| 0x80#8 }
        let exp ← paramExp l en.bpEntry
        let given :=
          Exp.clientGiveExp l.levels c (if pkt.lastHitter = 0 then exp * 80 / 100 else exp)
        pure ({ game := (l.setEnemy mid en').setClient slot given.1
                deeds := .pay slot mid :: p.deeds }, given.2)

/-! ## Staying inside -/

variable {m : GameEnemies} {mid : Nat}

theorem load_inside (h : mid < m.count) : m.load mid = some (m.enemies mid) := if_pos h

theorem load_outside (h : m.count ≤ mid) : m.load mid = none := if_neg (Nat.not_lt_of_le h)

variable {s : Server} {c : ClientRef} {l : LobbyRef}

/-- The counter of a kill is only looked at where there is one. -/
theorem saveHit_inside {pkt : Kills.MhitPkt} (h : pkt.enemyId < m.count) :
    saveHit s c l m pkt = some (s.saveHit c l m pkt) := by
  rw [saveHit, load_inside h, Server.saveHit]
  by_cases dead : (m.enemies pkt.enemyId).clientsHit &&& 0x80#8 ≠ 0#8
  · simp only [Option.bind_eq_bind, Option.bind_some, if_pos dead, Option.pure_def]
  by_cases kill : Kills.kills (s.block.client c).version pkt
  · simp only [Option.bind_eq_bind, Option.bind_some, if_neg dead, if_pos kill]
    by_cases counted : (m.enemies pkt.enemyId).bpEntry.toNat < 0x60
    · rw [if_pos counted, if_pos counted]
      exact if_pos counted
    · rw [if_neg counted, if_neg counted]
      rfl
  · simp only [Option.bind_eq_bind, Option.bind_some, if_neg dead, if_neg kill, Option.pure_def]

theorem saveHit_outside {pkt : Kills.MhitPkt} (h : m.count ≤ pkt.enemyId) :
    saveHit s c l m pkt = none := by
  rw [saveHit, load_outside h]
  rfl

/-- A packet is refused, or its number is not the one behind the last monster. -/
def Kept (type : LobbyType) (wellFormed : Prop) (mid count : Nat) : Prop :=
  type = .default ∨ ¬ wellFormed ∨ mid ≠ count

/-- The hit that `handle_mhit` takes. -/
def mhitFormed (pkt : Kills.MhitPkt) : Prop := pkt.pktLen = 0x0010 ∧ pkt.size = 0x03

/-- The hit that `handle_bb_mhit` takes. -/
def bbMhitFormed (pkt : Exp.MhitPkt) : Prop := pkt.pktLen = 0x0014 ∧ pkt.size = 0x03

/-- The request that `handle_bb_req_exp` takes. -/
def reqExpFormed (pkt : Exp.ReqExpPkt) : Prop := pkt.pktLen = 0x0014 ∧ pkt.size = 0x03

instance (type : LobbyType) (wellFormed : Prop) [Decidable wellFormed] (mid count : Nat) :
    Decidable (Kept type wellFormed mid count) :=
  inferInstanceAs (Decidable (_ ∨ _))

instance (pkt : Kills.MhitPkt) : Decidable (mhitFormed pkt) := inferInstanceAs (Decidable (_ ∧ _))

instance (pkt : Exp.MhitPkt) : Decidable (bbMhitFormed pkt) := inferInstanceAs (Decidable (_ ∧ _))

instance (pkt : Exp.ReqExpPkt) : Decidable (reqExpFormed pkt) :=
  inferInstanceAs (Decidable (_ ∧ _))

theorem not_kept {type : LobbyType} {wellFormed : Prop} {mid count : Nat} (lobby : type ≠ .default)
    (formed : wellFormed) (same : mid = count) : ¬ Kept type wellFormed mid count := by
  rintro (h | h | h)
  · exact lobby h
  · exact h formed
  · exact h same

/-- The checks that the three handlers begin with. What comes after them is only right for a number
below the count, and the number that is the count gets through. -/
theorem checks_eq {α : Type} {type : LobbyType} {bad wellFormed : Prop} [Decidable bad]
    [Decidable wellFormed] (hbad : bad ↔ ¬ wellFormed) {mid count : Nat} {lobby format number : α}
    {go : Option α} {done : α} (inside : mid < count → go = some done)
    (behind : mid = count → go = none) :
    (if type = .default then some lobby
      else if bad then some format
      else if count < mid then some number
      else go) =
    if Kept type wellFormed mid count then
      some (if type = .default then lobby
        else if bad then format
        else if count < mid then number
        else done)
    else none := by
  by_cases default : type = .default
  · rw [if_pos default, if_pos default, if_pos (.inl default)]
  rw [if_neg default, if_neg default]
  by_cases refused : bad
  · rw [if_pos refused, if_pos refused, if_pos (.inr (.inl (hbad.mp refused)))]
  have formed : wellFormed := not_not.mp (mt hbad.mpr refused)
  rw [if_neg refused, if_neg refused]
  rcases Nat.lt_trichotomy mid count with below | same | above
  · have near : ¬ count < mid := Nat.not_lt_of_lt below
    rw [if_neg near, if_neg near, if_pos (.inr (.inr (Nat.ne_of_lt below))), inside below]
  · have near : ¬ count < mid := Nat.not_lt_of_le (Nat.le_of_eq same)
    rw [if_neg near, if_neg (not_kept default formed same), behind same]
  · rw [if_pos above, if_pos above, if_pos (.inr (.inr (Nat.ne_of_gt above)))]

/-- What is refused for its length is what is not well formed. -/
theorem refused_iff {α β : Type} [DecidableEq α] [DecidableEq β] {len len' : α} {size size' : β} :
    (len ≠ len' ∨ size ≠ size') ↔ ¬ (len = len' ∧ size = size') := Decidable.not_and_iff_or_not.symm

/-- Either a hit stays inside all arrays, or its number is the count. -/
theorem handleMhit_eq {pkt : Kills.MhitPkt} (hl : (s.block.client c).curLobby = some l)
    (hm : s.mapEnemies l = some m) :
    handleMhit s c pkt =
      if Kept (s.block.lobby l).type (mhitFormed pkt) pkt.enemyId m.count then
        some (s.handleMhit c pkt)
      else none := by
  rw [handleMhit, Server.handleMhit, hl]
  dsimp only
  rw [hm]
  apply checks_eq refused_iff
  · intro inside
    rw [saveHit_inside inside, Option.map_some]
  · intro same
    rw [saveHit_outside (Nat.le_of_eq same.symm), Option.map_none]

variable {p : Play} {slot : Nat}

/-- The same of a hit on Blue Burst. -/
theorem handleBbMhit_eq {pkt : Exp.MhitPkt} :
    handleBbMhit p slot pkt =
      if Kept p.game.type (bbMhitFormed pkt) pkt.enemyId.toNat p.game.mapEnemies.count then
        some (Exp.handleBbMhit p slot pkt)
      else none := by
  rw [handleBbMhit, Exp.handleBbMhit]
  apply checks_eq refused_iff
  · intro inside
    rw [load_inside inside, Option.bind_eq_bind, Option.bind_some]
    exact (apply_ite some _ _ _).symm
  · intro same
    rw [load_outside (Nat.le_of_eq same.symm), Option.bind_eq_bind, Option.bind_none]

/-- The same of a request for experience, where the monsters have battle parameters. -/
theorem handleBbReqExp_eq {pkt : Exp.ReqExpPkt} {x : Exp.Client}
    (hbp : ∀ mid < p.game.mapEnemies.count, (p.game.mapEnemies.enemies mid).bpEntry.toNat < 0x60) :
    handleBbReqExp p slot x pkt =
      if Kept p.game.type (reqExpFormed pkt) pkt.enemyId.toNat p.game.mapEnemies.count then
        some (Exp.handleBbReqExp p slot x pkt)
      else none := by
  rw [handleBbReqExp, Exp.handleBbReqExp]
  apply checks_eq refused_iff
  · intro inside
    have param : paramExp p.game (p.game.mapEnemies.enemies pkt.enemyId.toNat).bpEntry =
        some (p.game.bbParams (p.game.mapEnemies.enemies pkt.enemyId.toNat).bpEntry) :=
      if_pos (hbp _ inside)
    rw [load_inside inside]
    simp only [Option.bind_eq_bind, Option.bind_some, param, Option.pure_def]
    exact (apply_ite some _ _ _).symm
  · intro same
    rw [load_outside (Nat.le_of_eq same.symm), Option.bind_eq_bind, Option.bind_none]

/-! ## The three handlers -/

/-- None of the three handlers leaves an array just when each packet is refused or its number is
not the one behind the last monster. -/
theorem index_safe_iff (s : Server) (c : ClientRef) (l : LobbyRef) (m : GameEnemies)
    (hl : (s.block.client c).curLobby = some l) (hm : s.mapEnemies l = some m)
    (pkt : Kills.MhitPkt) (p : Play) (slot : Nat) (x : Exp.Client)
    (hbp : ∀ mid < p.game.mapEnemies.count, (p.game.mapEnemies.enemies mid).bpEntry.toNat < 0x60)
    (hit : Exp.MhitPkt) (req : Exp.ReqExpPkt) :
    ((handleMhit s c pkt).isSome ↔
        Kept (s.block.lobby l).type (mhitFormed pkt) pkt.enemyId m.count) ∧
      ((handleBbMhit p slot hit).isSome ↔
        Kept p.game.type (bbMhitFormed hit) hit.enemyId.toNat p.game.mapEnemies.count) ∧
      ((handleBbReqExp p slot x req).isSome ↔
        Kept p.game.type (reqExpFormed req) req.enemyId.toNat p.game.mapEnemies.count) := by
  rw [handleMhit_eq hl hm, handleBbMhit_eq, handleBbReqExp_eq hbp]
  refine ⟨?_, ?_, ?_⟩
  all_goals simp only [Option.isSome_ite]

/-- A single monster. -/
def oneMonster : GameEnemies where
  count := 1
  enemies _ := { bpEntry := 5, rtIndex := 0 }

/-- A client in a game with the monster. -/
def hunter : Server where
  block := {
    lobbies := [1]
    numGames := 1
    clients := [0]
    lobby := fun _ => { lobbyId := 33, type := .game, maxClients := 4, version := .gc, minLevel := 0
                        maxLevel := 200 }
    client := fun _ => { version := .gc, level := 0, chClass := 0, times := fun _ => 0
                         curLobby := some 1 }
    fresh := 2
    freed := [] }
  number := 1
  guildcard _ := 42
  trackKills _ := true
  enemyKills _ _ := 0
  mapEnemies _ := some oneMonster
  difficulty _ := 0
  qid _ := 0
  serverDrops _ := false
  sent := []

/-- A game with it on Blue Burst. -/
def hunt : Play where
  game := {
    maxClients := 4
    few := Exp.duo.few
    clients := fun _ => none
    mapEnemies := oneMonster
    bbParams := fun _ => 10
    levels := fun _ _ => ⟨0, 0, 0, 0, 0, 0, 0⟩ }

theorem hunt_safe :
    ((handleMhit hunter 0 ⟨0x0010, 0x03, 0, 0⟩).isSome ↔
        Kept .game (mhitFormed ⟨0x0010, 0x03, 0, 0⟩) 0 1) ∧
      ((handleBbMhit hunt 0 { enemyId := 0 }).isSome ↔
        Kept .game (bbMhitFormed { enemyId := 0 }) 0 1) ∧
      ((handleBbReqExp hunt 0 ⟨.bb, none⟩ { enemyId := 0, lastHitter := 1 }).isSome ↔
        Kept .game (reqExpFormed { enemyId := 0, lastHitter := 1 }) 0 1) :=
  index_safe_iff hunter 0 1 oneMonster rfl rfl ⟨0x0010, 0x03, 0, 0⟩ hunt 0 ⟨.bb, none⟩
    (fun _ _ => (by decide : (5 : UInt32).toNat < 0x60)) { enemyId := 0 }
    { enemyId := 0, lastHitter := 1 }

/-- The number behind the only monster gets past each of the three checks. -/
theorem hunt_outside :
    ¬ ∀ (s : Server) (c : ClientRef) (l : LobbyRef) (m : GameEnemies),
      (s.block.client c).curLobby = some l → s.mapEnemies l = some m →
      ∀ (pkt : Kills.MhitPkt) (p : Play) (slot : Nat) (x : Exp.Client),
        (∀ mid < p.game.mapEnemies.count,
          (p.game.mapEnemies.enemies mid).bpEntry.toNat < 0x60) →
        ∀ (hit : Exp.MhitPkt) (req : Exp.ReqExpPkt),
          (handleMhit s c pkt).isSome ∧ (handleBbMhit p slot hit).isSome ∧
            (handleBbReqExp p slot x req).isSome := by
  intro claim
  have safe := claim hunter 0 1 oneMonster rfl rfl ⟨0x0010, 0x03, 1, 0⟩ hunt 0 ⟨.bb, none⟩
    (fun _ _ => (by decide : (5 : UInt32).toNat < 0x60)) { enemyId := 1 }
    { enemyId := 1, lastHitter := 1 }
  have outside : (handleBbMhit hunt 0 { enemyId := 1 }).isSome = false := rfl
  rw [safe.2.1] at outside
  exact nomatch outside

end MonsterPackets

end Sylverant.Ship
