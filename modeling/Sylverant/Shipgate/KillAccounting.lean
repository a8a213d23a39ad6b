/-
# From kills to totals

The ship and the shipgate together. The ship sends its reports over one connection, and the
shipgate handles them in this order, each when it comes to it. The totals in the database should
be those of the kills in the games, each of them reported once.
-/

import Sylverant.Ship.KillLedger
import Sylverant.Shipgate.MonsterKills

namespace Sylverant.Shipgate.MonsterKills

open Sylverant.Ship
open Sylverant.Ship.Kills

/-- The ship with its ledger, and the shipgate with what it has handled. -/
structure World where
  server : Server
  ledger : KillLedger := {}
  /-- The number of packets that were handled. -/
  handled : Nat := 0
  totals : Totals
  /-- The packets, and what each has found. -/
  log : List (Gate × Mkill) := []
  /-- Whether one was read behind its counts. -/
  outside : Bool := false

/-- The shipgate handles the next packet. -/
def World.deliver (w : World) (gate : Gate) : World :=
  match w.server.sent[w.handled]? with
  | none => w
  | some pkt =>
      let w := { w with handled := w.handled + 1, log := w.log ++ [(gate, pkt)] }
      match handleMkill gate pkt w.totals with
      | none => { w with outside := true }
      | some (totals, _) => { w with totals }

/-- What may happen next. -/
inductive Act
  | ship (d : Deed)
  | deliver (gate : Gate)

/-- The world after it. -/
def World.step (w : World) : Act → World
  | .ship d => { w with server := w.server.step d, ledger := note w.server w.ledger d }
  | .deliver gate => w.deliver gate

/-- What the code around the functions promises. -/
def Allowed (w : World) : Act → Prop
  | .ship d => Proper w.server d
  | .deliver _ => True

/-- The condition on the ship, and on the event that a packet counts for. -/
def Heeded (w : World) : Act → Prop
  | .ship d => Careful w.server w.ledger d
  | .deliver gate => ∀ pkt, w.server.sent[w.handled]? = some pkt → Listed gate pkt

/-- The kills are accounted for, and the packets that were handled have added to the totals what
they should. -/
structure Good (base : Totals) (w : World) : Prop where
  accounted : Accounted w.server w.ledger
  inOrder : w.log.map Prod.snd = w.server.sent.take w.handled
  totals : ∀ k, w.totals k = base k + (w.log.map fun entry => due entry.1 entry.2 k).sum
  inside : w.outside = false

/-- Nobody is in a lobby, and no packet was sent. -/
structure World.Fresh (w : World) : Prop where
  server : w.server.Fresh
  ledger : w.ledger = {}
  handled : w.handled = 0
  log : w.log = []
  outside : w.outside = false

section Runs

variable {w : World} {s : Server} {base : Totals} {acts : List Act}

/-! ## Packets are only added -/

theorem sent_sendSlot (l : LobbyRef) (i : Nat) :
    ∃ pkts, (s.sendSlot l i).sent = s.sent ++ pkts := by
  rw [Server.sendSlot]
  split
  · exact ⟨[], (List.append_nil _).symm⟩
  · split_ifs
    · exact ⟨_, rfl⟩
    · exact ⟨[], (List.append_nil _).symm⟩

theorem sent_sendSlots (l : LobbyRef) (slots : List Nat) :
    ∃ pkts, (slots.foldl (fun s i => s.sendSlot l i) s).sent = s.sent ++ pkts := by
  induction slots generalizing s with
  | nil => exact ⟨[], (List.append_nil _).symm⟩
  | cons i slots ih =>
      obtain ⟨first, hfirst⟩ := sent_sendSlot (s := s) l i
      obtain ⟨rest, hrest⟩ := ih (s := s.sendSlot l i)
      refine ⟨first ++ rest, hrest.trans ?_⟩
      rw [hfirst, List.append_assoc]

theorem sent_handleMhit (c : ClientRef) (pkt : MhitPkt) : (s.handleMhit c pkt).1.sent = s.sent := by
  have hsave (l : LobbyRef) (m : GameEnemies) : (s.saveHit c l m pkt).sent = s.sent := by
    rw [Server.saveHit]
    split_ifs <;> rfl
  rw [Server.handleMhit]
  cases (s.block.client c).curLobby with
  | none => rfl
  | some l =>
      simp only
      cases s.mapEnemies l with
      | none => split_ifs <;> rfl
      | some m =>
          simp only
          by_cases hrange : m.count < pkt.enemyId
          · rw [if_pos hrange]
            split_ifs <;> rfl
          · rw [if_neg hrange]
            split_ifs
            · rfl
            · rfl
            · exact hsave l m

theorem sent_call (e : Event) : ∃ pkts, (s.call e).sent = s.sent ++ pkts := by
  obtain ⟨env, call⟩ := e
  have hsame {t : Server} (h : t.sent = s.sent) : ∃ pkts, t.sent = s.sent ++ pkts :=
    ⟨[], h.trans (List.append_nil _).symm⟩
  cases call with
  | changeLobby c req =>
      refine hsame ?_
      show (s.changeLobby c env req).sent = s.sent
      rw [Server.changeLobby]
      split
      · split_ifs <;> rfl
      · rfl
  | removePlayer c =>
      show ∃ pkts, (s.removePlayer c env).sent = s.sent ++ pkts
      rw [Server.removePlayer]
      cases (s.block.client c).curLobby with
      | none => exact hsame rfl
      | some l =>
          simp only
          split_ifs
          · exact ⟨_, rfl⟩
          · exact hsame rfl
  | addToAny c req => exact hsame rfl
  | doneBurst c => exact hsame rfl
  | setFlags l flags => exact hsame rfl
  | setClient c version flags level chClass times => exact hsame rfl

theorem sent_step (d : Deed) : ∃ pkts, (s.step d).sent = s.sent ++ pkts := by
  have hsame {t : Server} (h : t.sent = s.sent) : ∃ pkts, t.sent = s.sent ++ pkts :=
    ⟨[], h.trans (List.append_nil _).symm⟩
  cases d with
  | call e => exact sent_call e
  | mhit c pkt => exact hsame (sent_handleMhit c pkt)
  | track c on => exact hsame rfl
  | quest c itemId configured enemies =>
      rw [Server.step, Server.beginQuest]
      cases (s.block.client c).curLobby with
      | none => exact hsame rfl
      | some l =>
          simp only
          split_ifs
          · exact hsame rfl
          · exact hsame rfl
          · exact sent_sendSlots (s := s.setQuesting l) l _

/-! ## Runs -/

/-- The invariant of the world. -/
structure Right (base : Totals) (w : World) : Prop where
  kept : Kept w.server w.ledger
  handled_le : w.handled ≤ w.server.sent.length
  inOrder : w.log.map Prod.snd = w.server.sent.take w.handled
  totals : ∀ k, w.totals k = base k + (w.log.map fun entry => due entry.1 entry.2 k).sum
  inside : w.outside = false

theorem Right.good (h : Right base w) : Good base w :=
  ⟨h.kept.accounted, h.inOrder, h.totals, h.inside⟩

theorem World.Fresh.right (h : w.Fresh) : Right w.totals w where
  kept := by
    rw [h.ledger]
    exact h.server.kept
  handled_le := by
    rw [h.handled]
    exact Nat.zero_le _
  inOrder := by
    rw [h.log, h.handled, List.take_zero, List.map_nil]
  totals k := by
    rw [h.log, List.map_nil, List.sum_nil, Nat.add_zero]
  inside := h.outside

theorem Right.ship (h : Right base w) {d : Deed} (hproper : Proper w.server d)
    (hcareful : Careful w.server w.ledger d) : Right base (w.step (.ship d)) := by
  obtain ⟨pkts, hpkts⟩ := sent_step (s := w.server) d
  refine ⟨h.kept.step hproper hcareful, ?_, ?_, h.totals, h.inside⟩
  · show w.handled ≤ (w.server.step d).sent.length
    rw [hpkts, List.length_append]
    exact Nat.le_add_right_of_le h.handled_le
  · show w.log.map Prod.snd = (w.server.step d).sent.take w.handled
    rw [hpkts, List.take_append_of_le_length h.handled_le]
    exact h.inOrder

theorem Right.deliver (h : Right base w) {gate : Gate}
    (hlisted : ∀ pkt, w.server.sent[w.handled]? = some pkt → Listed gate pkt) :
    Right base (w.deliver gate) := by
  rw [World.deliver]
  cases hpkt : w.server.sent[w.handled]? with
  | none => exact h
  | some pkt =>
      obtain ⟨t', reply, hresult, hadds⟩ := (credits_iff gate pkt).mpr (hlisted pkt hpkt) w.totals
      obtain ⟨hlt, -⟩ := List.getElem?_eq_some_iff.mp hpkt
      simp only [hresult]
      refine ⟨h.kept, hlt, ?_, fun k => ?_, h.inside⟩
      · rw [List.map_append, h.inOrder, List.take_add_one, hpkt]
        rfl
      · show t' k = base k + _
        rw [List.map_append, List.sum_append, hadds, h.totals]
        simp only [List.map_cons, List.map_nil, List.sum_cons, List.sum_nil, Nat.add_zero]
        omega

theorem right_step (w : World) (a : Act) (h : Right base w) (hok : Allowed w a ∧ Heeded w a) :
    Right base (w.step a) := by
  cases a with
  | ship d => exact h.ship hok.1 hok.2
  | deliver gate => exact h.deliver hok.2

/-- In every run under the condition, every kill that was counted for a client with kill tracking
is reported once, with the game that it happened in, and the totals are those of the reports. -/
theorem kills_accounted (hfresh : w.Fresh)
    (hrun : Run.Guarded World.step (fun w a => Allowed w a ∧ Heeded w a) w acts) :
    Good w.totals (acts.foldl World.step w) :=
  (hrun.invariant right_step hfresh.right).good

/-! ## A hunt -/

/-- A ship with a default lobby and a game, in which there is an enemy. -/
def hunter : World where
  server := {
    block := twoLobbies
    number := 1
    guildcard := fun _ => 42
    trackKills := fun _ => true
    enemyKills := fun _ _ => 7
    mapEnemies := fun _ => some { count := 1, enemies := fun _ => { bpEntry := 5, rtIndex := 0 } }
    difficulty := fun _ => 0
    qid := fun _ => 0
    serverDrops := fun _ => false
    sent := [] }
  totals _ := 0

/-- A client joins the game and kills the enemy. -/
def hunt : List Act :=
  [.ship (.call ({ now := 1 }, .addToAny 0 none)), .ship (.call ({ now := 2 }, .changeLobby 0 1)),
    .ship (.call ({ now := 3 }, .doneBurst 0)), .ship (.mhit 0 ⟨0x0010, 0x03, 0, 0x00080000⟩)]

/-- The event that runs, which lists the enemy. -/
def gate : Gate where
  now := 10
  events := [⟨1, 5, 15, 1, 8, false, [⟨5, 1⟩]⟩]
  lookup _ := .account 3
  takes _ := true

theorem hunter_fresh : hunter.Fresh where
  server := ⟨empty_twoLobbies, fun l h => by
    simp only [hunter, twoLobbies]
    split <;> decide, rfl⟩
  ledger := rfl
  handled := rfl
  log := rfl
  outside := rfl

/-- The client leaves the game, and the shipgate gets its report. -/
def huntAndLeave : List Act :=
  hunt ++ [.ship (.call ({ now := 4 }, .removePlayer 0)), .deliver gate]

/-- The client goes back to the default lobby. -/
def huntAndChange : List Act := hunt ++ [.ship (.call ({ now := 4 }, .changeLobby 0 0))]

theorem hunt_accounted :
    Good hunter.totals (huntAndLeave.foldl World.step hunter) := by
  refine kills_accounted hunter_fresh ⟨⟨⟨by decide, trivial⟩, trivial⟩,
    ⟨⟨by decide, trivial⟩, fun _ k hk => absurd hk List.not_mem_nil⟩,
    ⟨⟨by decide, trivial⟩, trivial⟩, ⟨trivial, fun l m hl _ _ hm => ?_⟩,
    ⟨⟨trivial, trivial⟩, fun l hl => ?_⟩, ⟨trivial, fun pkt hpkt ev acc hcredited => ?_⟩, trivial⟩
  · have hlobby : some l = some 1 := hl.symm.trans (by decide)
    cases hlobby
    cases hm
    refine ⟨by decide, fun enemy hkilled => ?_⟩
    have hpair : some ((1 : LobbyRef), enemy) = some (1, 5) := hkilled.symm.trans (by decide)
    cases hpair
    decide
  · have hlobby : some l = some 1 := hl.symm.trans (by decide)
    cases hlobby
    exact .inl ⟨by decide, rfl⟩
  · cases hpkt
    cases hcredited
    exact ⟨by decide, fun enemy _ _ => ⟨List.count_le_length, rfl⟩⟩

/-- What the client has killed. -/
def lost : Kill := ⟨0, 0, 1, 5, ⟨42, 1, 1, 0, 3⟩, true⟩

/-- The kill is never reported. -/
theorem hunt_lost :
    hunter.Fresh ∧ Run.Guarded World.step Allowed hunter huntAndChange ∧
      ¬Good hunter.totals (huntAndChange.foldl World.step hunter) := by
  refine ⟨hunter_fresh, ⟨⟨by decide, trivial⟩, ⟨by decide, trivial⟩, ⟨by decide, trivial⟩, trivial,
    ⟨by decide, trivial⟩, trivial⟩, fun h => ?_⟩
  have hentry : lost ∈ (huntAndChange.foldl World.step hunter).ledger.entries := by decide
  have honce := (h.accounted.2 lost hentry rfl).2 (by decide)
  have hnever : (huntAndChange.foldl World.step hunter).ledger.times lost = 0 := by decide
  rw [hnever] at honce
  exact nomatch honce

end Runs

end Sylverant.Shipgate.MonsterKills
