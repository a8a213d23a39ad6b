/-
# Experience

Hits on the enemies of a Blue Burst game and the experience that its members get for
them, as `subcmd.c` and `clients.c` handle the two packets. The members send them in
any order and with any content. A mask for each enemy says who hit it, has not been
paid for it yet, and whether it is dead.

What the handlers did is kept beside the game, so that the order of hits and payments
in a run can be spoken of. Packets that are sent on change nothing.
-/

import Mathlib.Data.List.Count
import Mathlib.Logic.Function.Basic
import Sylverant.Library.BitMask
import Sylverant.Ship.Block
import Sylverant.Ship.MapData

namespace Sylverant.Ship.Exp

open Function (update)
open BitMask (members)

/-! ## The game -/

/-- `bb_level_entry_t` -/
structure BbLevelEntry where
  atp : UInt8
  mst : UInt8
  evp : UInt8
  hp : UInt8
  dfp : UInt8
  ata : UInt8
  exp : UInt32

/-- `bb_pl->character` -/
structure Character where
  atp : UInt16 := 0
  mst : UInt16 := 0
  evp : UInt16 := 0
  hp : UInt16 := 0
  dfp : UInt16 := 0
  ata : UInt16 := 0
  level : Nat
  exp : UInt32
  chClass : UInt8
  deriving DecidableEq, Repr

/-- `ship_client_t`. The client id is the number of the slot that the client is in. -/
structure Client where
  version : Version := .bb
  bbPl : Option Character
  deriving DecidableEq

/-- `lobby_t` of a game. Games are made for one client or for four. -/
structure Game where
  type : LobbyType := .game
  maxClients : Nat
  few : maxClients ≤ 4 := by decide
  clients : Nat → Option Client
  mapEnemies : GameEnemies
  /-- `bb_params`, with the experience of each entry. -/
  bbParams : UInt32 → UInt32
  /-- `char_stats.levels` -/
  levels : UInt8 → Nat → BbLevelEntry

namespace Game

/-- Writes `map_enemies->enemies[mid]`. -/
def setEnemy (l : Game) (mid : Nat) (en : GameEnemy) : Game :=
  { l with mapEnemies :=
      { l.mapEnemies with enemies := update l.mapEnemies.enemies mid en } }

/-- Writes what a client has of its character. -/
def setClient (l : Game) (slot : Nat) (c : Client) : Game :=
  { l with clients := update l.clients slot (some c) }

/-- The mask that an enemy has. -/
def mask (l : Game) (mid : Nat) : BitVec 8 := (l.mapEnemies.enemies mid).clientsHit

variable (l : Game) (mid mid' slot : Nat) (en : GameEnemy) (c : Client)

@[simp] theorem count_setEnemy : (l.setEnemy mid en).mapEnemies.count = l.mapEnemies.count := rfl

@[simp] theorem count_setClient : (l.setClient slot c).mapEnemies.count = l.mapEnemies.count := rfl

@[simp] theorem mask_setClient : (l.setClient slot c).mask = l.mask := rfl

theorem mask_setEnemy : (l.setEnemy mid en).mask = update l.mask mid en.clientsHit := by
  funext i
  by_cases same : i = mid
  · simp [mask, setEnemy, same]
  · simp [mask, setEnemy, same]

end Game

/-! ## Giving experience -/

/-- `give_stats` -/
def giveStats (ch : Character) (ent : BbLevelEntry) : Character :=
  { ch with
    atp := ch.atp + ent.atp.toUInt16
    mst := ch.mst + ent.mst.toUInt16
    evp := ch.evp + ent.evp.toUInt16
    hp := ch.hp + ent.hp.toUInt16
    dfp := ch.dfp + ent.dfp.toUInt16
    ata := ch.ata + ent.ata.toUInt16 }

/-- The loop of `client_give_exp`, for a character that can go up so many levels. -/
def levelUps (levels : UInt8 → Nat → BbLevelEntry) : Nat → Character → Character
  | 0, ch => ch
  | room + 1, ch =>
      let ent := levels ch.chClass (ch.level + 1)
      if ch.exp ≥ ent.exp then
        let ch' := giveStats ch ent
        levelUps levels room { ch' with level := ch.level + 1 }
      else ch

/-- `client_give_exp`, with what it returns. -/
def clientGiveExp (levels : UInt8 → Nat → BbLevelEntry) (c : Client) (exp : UInt32) :
    Client × Int :=
  match c.bbPl with
  | none => (c, -1)
  | some ch =>
      if c.version ≠ .bb then (c, -1)
      else if ch.level ≥ 199 then (c, 0)
      else
        let ch' := { ch with exp := ch.exp + exp }
        ({ c with bbPl := some (levelUps levels (199 - ch.level) ch') }, 0)

/-! ## The handlers -/

/-- What a handler did: it took down that the client in a slot hit an enemy, or gave
the client experience for it. -/
inductive Deed
  | hit (slot mid : Nat)
  | pay (slot mid : Nat)
  deriving DecidableEq, Repr

/-- A game, and what was done in it, the last first. -/
structure Play where
  game : Game
  deeds : List Deed := []

/-- `subcmd_bb_mhit_pkt_t` -/
structure MhitPkt where
  pktLen : UInt16 := 0x0014
  size : UInt8 := 0x03
  enemyId : UInt16

/-- `subcmd_bb_req_exp_pkt_t` -/
structure ReqExpPkt where
  pktLen : UInt16 := 0x0014
  size : UInt8 := 0x03
  enemyId : UInt16
  lastHitter : UInt8

/-- `handle_bb_mhit` -/
def handleBbMhit (p : Play) (slot : Nat) (pkt : MhitPkt) : Play × Int :=
  let l := p.game
  if l.type = .default then (p, -1)
  else if pkt.pktLen ≠ 0x0014 ∨ pkt.size ≠ 0x03 then (p, -1)
  else
    let mid := pkt.enemyId.toNat
    if mid > l.mapEnemies.count then (p, -1)
    else
      let en := l.mapEnemies.enemies mid
      if en.clientsHit &&& 0x80#8 ≠ 0#8 then (p, 0)
      else
        let en' := { en with
          clientsHit := en.clientsHit ||| 1#8 <<< slot, lastClient := slot.toUInt8 }
        ({ game := l.setEnemy mid en', deeds := .hit slot mid :: p.deeds }, 0)

/-- `handle_bb_req_exp` -/
def handleBbReqExp (p : Play) (slot : Nat) (c : Client) (pkt : ReqExpPkt) : Play × Int :=
  let l := p.game
  if l.type = .default then (p, -1)
  else if pkt.pktLen ≠ 0x0014 ∨ pkt.size ≠ 0x03 then (p, -1)
  else
    let mid := pkt.enemyId.toNat
    if mid > l.mapEnemies.count then (p, -1)
    else
      let en := l.mapEnemies.enemies mid
      if en.clientsHit &&& 1#8 <<< slot = 0#8 then (p, 0)
      else
        let en' := { en with clientsHit := en.clientsHit &&& ~~~(1#8 <<< slot) ||| 0x80#8 }
        let exp := l.bbParams en.bpEntry
        let given := clientGiveExp l.levels c (if pkt.lastHitter = 0 then exp * 80 / 100 else exp)
        ({ game := (l.setEnemy mid en').setClient slot given.1
           deeds := .pay slot mid :: p.deeds }, given.2)

/-- A packet from the member in a slot. -/
inductive Event
  | mhit (slot : Nat) (pkt : MhitPkt)
  | reqExp (slot : Nat) (pkt : ReqExpPkt)

/-- The member of the game in a slot. -/
def Game.member (l : Game) (slot : Nat) : Option Client :=
  if slot < l.maxClients then l.clients slot else none

/-- One packet. A client whose packet was bad may go on sending here, so that there
are no fewer runs than with clients thrown out. -/
def step (p : Play) : Event → Play
  | .mhit slot pkt => if (p.game.member slot).isSome then (handleBbMhit p slot pkt).1 else p
  | .reqExp slot pkt =>
      match p.game.member slot with
      | none => p
      | some c => (handleBbReqExp p slot c pkt).1

/-! ## What one packet does -/

/-- The place of the bit that marks an enemy dead. -/
def deadBit : Nat := 7

/-- The enemy is marked dead. -/
def Dead (p : Play) (mid : Nat) : Prop := deadBit ∈ members (p.game.mask mid)

theorem slot_lt {l : Game} {slot : Nat} {c : Client} (h : l.member slot = some c) : slot < 4 := by
  have inside : slot < l.maxClients := by
    by_contra outside
    rw [Game.member, if_neg outside] at h
    contradiction
  exact Nat.lt_of_lt_of_le inside l.few

/-- Everything that one packet can do to the masks and the deeds. -/
inductive Did (p p' : Play) : Prop
  | nothing : p' = p → Did p p'
  | hit (slot mid : Nat) : slot < 4 → ¬ Dead p mid →
      p'.game.mask = update p.game.mask mid (p.game.mask mid ||| 1#8 <<< slot) →
      p'.deeds = .hit slot mid :: p.deeds → Did p p'
  | pay (slot mid : Nat) : slot < 4 → slot ∈ members (p.game.mask mid) →
      p'.game.mask = update p.game.mask mid
        (p.game.mask mid &&& ~~~(1#8 <<< slot) ||| 1#8 <<< deadBit) →
      p'.deeds = .pay slot mid :: p.deeds → Did p p'

theorem handleBbMhit_did (p : Play) {slot : Nat} (inside : slot < 4) (pkt : MhitPkt) :
    Did p (handleBbMhit p slot pkt).1 := by
  unfold handleBbMhit
  by_cases lobby : p.game.type = .default
  · rw [if_pos lobby]
    exact .nothing rfl
  by_cases bad : pkt.pktLen ≠ 0x0014 ∨ pkt.size ≠ 0x03
  · rw [if_neg lobby, if_pos bad]
    exact .nothing rfl
  by_cases far : pkt.enemyId.toNat > p.game.mapEnemies.count
  · rw [if_neg lobby, if_neg bad, if_pos far]
    exact .nothing rfl
  rw [if_neg lobby, if_neg bad, if_neg far]
  by_cases dead : (p.game.mapEnemies.enemies pkt.enemyId.toNat).clientsHit &&& 0x80#8 ≠ 0#8
  · rw [if_pos dead]
    exact .nothing rfl
  · rw [if_neg dead]
    refine .hit slot pkt.enemyId.toNat inside ?_ (Game.mask_setEnemy _ _ _) rfl
    intro marked
    exact dead (BitMask.test_ne_zero.mpr marked)

theorem handleBbReqExp_did (p : Play) {slot : Nat} (inside : slot < 4) (c : Client)
    (pkt : ReqExpPkt) : Did p (handleBbReqExp p slot c pkt).1 := by
  unfold handleBbReqExp
  by_cases lobby : p.game.type = .default
  · rw [if_pos lobby]
    exact .nothing rfl
  by_cases bad : pkt.pktLen ≠ 0x0014 ∨ pkt.size ≠ 0x03
  · rw [if_neg lobby, if_pos bad]
    exact .nothing rfl
  by_cases far : pkt.enemyId.toNat > p.game.mapEnemies.count
  · rw [if_neg lobby, if_neg bad, if_pos far]
    exact .nothing rfl
  rw [if_neg lobby, if_neg bad, if_neg far]
  by_cases unhit : (p.game.mapEnemies.enemies pkt.enemyId.toNat).clientsHit &&& 1#8 <<< slot = 0#8
  · rw [if_pos unhit]
    exact .nothing rfl
  · rw [if_neg unhit]
    refine .pay slot pkt.enemyId.toNat inside (BitMask.test_ne_zero.mp unhit) ?_ rfl
    exact (Game.mask_setClient _ _ _).trans (Game.mask_setEnemy _ _ _)

/-- Every packet, from whomever it is, does one of these things. -/
theorem step_did (p : Play) (e : Event) : Did p (step p e) := by
  cases e with
  | mhit slot pkt =>
      cases found : p.game.member slot with
      | none =>
          refine .nothing ?_
          simp [step, found]
      | some c =>
          have here : step p (.mhit slot pkt) = (handleBbMhit p slot pkt).1 := by
            simp [step, found]
          rw [here]
          exact handleBbMhit_did p (slot_lt found) pkt
  | reqExp slot pkt =>
      cases found : p.game.member slot with
      | none =>
          refine .nothing ?_
          simp [step, found]
      | some c =>
          have here : step p (.reqExp slot pkt) = (handleBbReqExp p slot c pkt).1 := by
            simp [step, found]
          rw [here]
          exact handleBbReqExp_did p (slot_lt found) c pkt

/-! ## The masks in a run -/

/-- Each deed was right when it was done: who is paid has a hit taken down, if the
enemy is among the first `n`, and was not paid before; who hits an enemy comes before
all payments for it. -/
def Honest (n : Nat) : List Deed → Prop
  | [] => True
  | .hit _ mid :: deeds => (∀ slot, .pay slot mid ∉ deeds) ∧ Honest n deeds
  | .pay slot mid :: deeds =>
      (mid < n → .hit slot mid ∈ deeds) ∧ .pay slot mid ∉ deeds ∧ Honest n deeds

/-- What the masks say of the deeds, for the first `n` enemies. -/
structure Kept (n : Nat) (p : Play) : Prop where
  /-- A bit stands for a hit. -/
  hits : ∀ slot mid, slot < deadBit → mid < n → slot ∈ members (p.game.mask mid) →
    .hit slot mid ∈ p.deeds
  /-- Who was paid has no bit any more, and gets none, as the enemy is dead. -/
  paid : ∀ slot mid, .pay slot mid ∈ p.deeds →
    slot < deadBit ∧ slot ∉ members (p.game.mask mid) ∧ Dead p mid
  honest : Honest n p.deeds

theorem Kept.start {l : Game} {n : Nat} (unhit : ∀ mid < n, l.mask mid = 0#8) :
    Kept n { game := l } where
  hits := by
    intro slot mid _ hmid bit
    rw [show (Play.mk l []).game.mask mid = 0#8 from unhit mid hmid,
      BitMask.members_zero] at bit
    contradiction
  paid := by
    intro slot mid h
    contradiction
  honest := trivial

theorem Kept.hit {n : Nat} {p p' : Play} (kept : Kept n p) {slot mid : Nat} (inside : slot < 4)
    (alive : ¬ Dead p mid)
    (hmask : p'.game.mask = update p.game.mask mid (p.game.mask mid ||| 1#8 <<< slot))
    (hdeeds : p'.deeds = .hit slot mid :: p.deeds) : Kept n p' := by
  have unpaid : ∀ slot', .pay slot' mid ∉ p.deeds := by
    intro slot' h
    exact alive (kept.paid slot' mid h).2.2
  refine ⟨?_, ?_, ?_⟩
  · intro slot' mid' hslot hmid bit
    rw [hdeeds]
    by_cases same : mid' = mid
    · subst same
      rw [hmask, Function.update_self, BitMask.members_insert _ (by omega)] at bit
      rcases bit with rfl | old
      · exact List.mem_cons_self
      · exact List.mem_cons_of_mem _ (kept.hits slot' mid' hslot hmid old)
    · rw [hmask, Function.update_of_ne same] at bit
      exact List.mem_cons_of_mem _ (kept.hits slot' mid' hslot hmid bit)
  · intro slot' mid' h
    have old : .pay slot' mid' ∈ p.deeds := by
      rw [hdeeds] at h
      simpa using h
    have other : mid' ≠ mid := by
      rintro rfl
      exact unpaid slot' old
    rw [Dead, hmask, Function.update_of_ne other]
    exact kept.paid slot' mid' old
  · rw [hdeeds]
    exact ⟨unpaid, kept.honest⟩

theorem Kept.pay {n : Nat} {p p' : Play} (kept : Kept n p) {slot mid : Nat} (inside : slot < 4)
    (bit : slot ∈ members (p.game.mask mid))
    (hmask : p'.game.mask = update p.game.mask mid
      (p.game.mask mid &&& ~~~(1#8 <<< slot) ||| 1#8 <<< deadBit))
    (hdeeds : p'.deeds = .pay slot mid :: p.deeds) : Kept n p' := by
  have hslot : slot < deadBit := Nat.lt_trans inside (by decide)
  have now : members (p'.game.mask mid) = insert deadBit (members (p.game.mask mid) \ {slot}) := by
    rw [hmask, Function.update_self, BitMask.members_insert _ (by decide),
      BitMask.members_remove]
  have still : ∀ mid', mid' ≠ mid → p'.game.mask mid' = p.game.mask mid' := by
    intro mid' other
    rw [hmask, Function.update_of_ne other]
  refine ⟨?_, ?_, ?_⟩
  · intro slot' mid' hslot' hmid h
    rw [hdeeds]
    apply List.mem_cons_of_mem
    by_cases same : mid' = mid
    · subst same
      rw [now] at h
      rcases h with rfl | old
      · exact absurd hslot' (Nat.lt_irrefl _)
      · exact kept.hits slot' mid' hslot' hmid old.1
    · rw [still mid' same] at h
      exact kept.hits slot' mid' hslot' hmid h
  · intro slot' mid' h
    rw [hdeeds, List.mem_cons, Deed.pay.injEq] at h
    rcases h with ⟨rfl, rfl⟩ | old
    · refine ⟨hslot, ?_, ?_⟩
      · rw [now]
        rintro (rfl | again)
        · exact Nat.lt_irrefl _ hslot
        · exact again.2 rfl
      · rw [Dead, now]
        exact Set.mem_insert _ _
    · obtain ⟨hslot', clear, dead⟩ := kept.paid slot' mid' old
      by_cases same : mid' = mid
      · subst same
        refine ⟨hslot', ?_, ?_⟩
        · rw [now]
          rintro (rfl | again)
          · exact Nat.lt_irrefl _ hslot'
          · exact clear again.1
        · rw [Dead, now]
          exact Set.mem_insert _ _
      · rw [Dead, still mid' same]
        exact ⟨hslot', clear, dead⟩
  · rw [hdeeds]
    refine ⟨?_, ?_, kept.honest⟩
    · intro hmid
      exact kept.hits slot mid hslot hmid bit
    · intro again
      exact (kept.paid slot mid again).2.1 bit

theorem Kept.step {n : Nat} {p : Play} (kept : Kept n p) (e : Event) : Kept n (step p e) := by
  cases step_did p e with
  | nothing same =>
      rw [same]
      exact kept
  | hit slot mid inside alive hmask hdeeds => exact kept.hit inside alive hmask hdeeds
  | pay slot mid inside bit hmask hdeeds => exact kept.pay inside bit hmask hdeeds

theorem Kept.run {n : Nat} {p : Play} (kept : Kept n p) (es : List Event) :
    Kept n (es.foldl Exp.step p) := by
  induction es generalizing p with
  | nil => exact kept
  | cons e es ih => exact ih (kept.step e)

/-! ## After an enemy is dead -/

theorem dead_step {p : Play} {mid : Nat} (dead : Dead p mid) (e : Event) :
    Dead (step p e) mid ∧
      ∀ slot, (step p e).deeds.count (.hit slot mid) = p.deeds.count (.hit slot mid) := by
  cases step_did p e with
  | nothing same =>
      rw [same]
      exact ⟨dead, fun _ => rfl⟩
  | hit slot mid' inside alive hmask hdeeds =>
      have other : mid ≠ mid' := by
        rintro rfl
        exact alive dead
      constructor
      · rw [Dead, hmask, Function.update_of_ne other]
        exact dead
      · intro slot'
        rw [hdeeds]
        apply List.count_cons_of_ne
        intro same
        exact other (Deed.hit.inj same).2.symm
  | pay slot mid' inside bit hmask hdeeds =>
      constructor
      · rw [Dead, hmask]
        by_cases same : mid = mid'
        · subst same
          rw [Function.update_self, BitMask.members_insert _ (by decide)]
          exact Set.mem_insert _ _
        · rw [Function.update_of_ne same]
          exact dead
      · intro slot'
        rw [hdeeds]
        exact List.count_cons_of_ne (by simp)

/-- An enemy that is marked dead stays so, and no further hit on it is taken down. -/
theorem dead_run {p : Play} {mid : Nat} (dead : Dead p mid) (es : List Event) :
    Dead (es.foldl step p) mid ∧ ∀ slot,
      (es.foldl step p).deeds.count (.hit slot mid) = p.deeds.count (.hit slot mid) := by
  induction es generalizing p with
  | nil => exact ⟨dead, fun _ => rfl⟩
  | cons e es ih =>
      obtain ⟨dead', same⟩ := dead_step dead e
      obtain ⟨dead'', same'⟩ := ih dead'
      refine ⟨dead'', ?_⟩
      intro slot
      exact (same' slot).trans (same slot)

/-! ## Experience is paid once, for hits -/

theorem Honest.tail {n : Nat} {d : Deed} {deeds : List Deed} (h : Honest n (d :: deeds)) :
    Honest n deeds := by
  cases d with
  | hit slot mid => exact h.2
  | pay slot mid => exact h.2.2

theorem Honest.earlier {n : Nat} {later earlier : List Deed} (h : Honest n (later ++ earlier)) :
    Honest n earlier := by
  induction later with
  | nil => exact h
  | cons d later ih => exact ih h.tail

theorem Honest.count_pay {n : Nat} {deeds : List Deed} (h : Honest n deeds) (slot mid : Nat) :
    deeds.count (.pay slot mid) ≤ 1 := by
  induction deeds with
  | nil => exact Nat.zero_le 1
  | cons d deeds ih =>
      by_cases same : d = .pay slot mid
      · subst same
        rw [List.count_cons_self, List.count_eq_zero_of_not_mem h.2.1]
      · rw [List.count_cons_of_ne same]
        exact ih h.tail

/-- In a game whose enemies nobody has hit yet, whatever packets its members send and
in whatever order: a slot is paid at most once for an enemy; it is paid only after its
hit on that enemy was taken down; a payment leaves the enemy marked dead; and once it
is, whatever follows, no further hit on it is taken down. -/
theorem experience_run (l : Game) (unhit : ∀ mid < l.mapEnemies.count, l.mask mid = 0#8)
    (es : List Event) :
    let p := es.foldl step { game := l }
    (∀ slot mid, p.deeds.count (.pay slot mid) ≤ 1) ∧
    (∀ slot mid later earlier, mid < l.mapEnemies.count →
      p.deeds = later ++ .pay slot mid :: earlier → .hit slot mid ∈ earlier) ∧
    (∀ slot mid, .pay slot mid ∈ p.deeds → Dead p mid) ∧
    (∀ mid, Dead p mid → ∀ (es' : List Event) slot,
      (es'.foldl step p).deeds.count (.hit slot mid) = p.deeds.count (.hit slot mid)) := by
  intro p
  have kept : Kept l.mapEnemies.count p := (Kept.start unhit).run es
  refine ⟨?_, ?_, ?_, ?_⟩
  · intro slot mid
    exact kept.honest.count_pay slot mid
  · intro slot mid later earlier hmid split
    have honest : Honest l.mapEnemies.count (.pay slot mid :: earlier) := by
      apply Honest.earlier
      rw [← split]
      exact kept.honest
    exact honest.1 hmid
  · intro slot mid h
    exact (kept.paid slot mid h).2.2
  · intro mid dead es' slot
    exact (dead_run dead es').2 slot

/-- A game of two members with one enemy. -/
def duo : Game where
  maxClients := 4
  clients := fun i =>
    if i < 2 then some { bbPl := some { level := 0, exp := 0, chClass := 0 } } else none
  mapEnemies := { count := 1, enemies := fun _ => { bpEntry := 0, rtIndex := 0 } }
  bbParams := fun _ => 25
  levels := fun _ _ => ⟨0, 0, 0, 0, 0, 0, 1000⟩

/-- Both hit the enemy and ask for their experience, the first one twice, and hit the
dead enemy once more. -/
def duoPackets : List Event :=
  [.mhit 0 { enemyId := 0 }, .mhit 1 { enemyId := 0 }, .reqExp 0 { enemyId := 0, lastHitter := 1 },
    .reqExp 0 { enemyId := 0, lastHitter := 1 }, .mhit 0 { enemyId := 0 },
    .reqExp 1 { enemyId := 0, lastHitter := 0 }]

example : (duoPackets.foldl step { game := duo }).deeds =
    [.pay 1 0, .pay 0 0, .hit 1 0, .hit 0 0] := by decide

theorem experience_run_duo :
    (∀ mid < duo.mapEnemies.count, duo.mask mid = 0#8) ∧
    ∀ slot mid, (duoPackets.foldl step { game := duo }).deeds.count (.pay slot mid) ≤ 1 :=
  ⟨fun _ _ => rfl, (experience_run duo (fun _ _ => rfl) duoPackets).1⟩

end Sylverant.Ship.Exp
