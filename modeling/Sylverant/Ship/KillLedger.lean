/-
# The ledger of the kills

Beside the server, which only keeps numbers, a ledger keeps every kill with the game that it
happened in. A report posts what waits with the client. The counters of a client are the numbers
of the kills that wait with it for as long as it is in a game, and whatever takes it out of the
game without a report loses the kills.
-/

import Mathlib.Data.List.Forall2
import Sylverant.Library.Ledger
import Sylverant.Ship.Kills
import Sylverant.Ship.Membership

namespace Sylverant.Ship.Kills

open Function (update)

/-! ## Kills -/

/-- A kill that was counted. -/
structure Kill where
  serial : Nat
  client : ClientRef
  lobby : LobbyRef
  /-- The entry of the enemy in the table of the enemies' parameters. -/
  enemy : Nat
  /-- What a report from the game would have said at the time. -/
  heading : Heading
  /-- Whether the client had kill tracking. -/
  tracked : Bool
  deriving DecidableEq

/-- The ledger that the kills are in. -/
abbrev KillLedger := Ledger ClientRef Kill

/-- The lobby in which a hit kills an enemy that was alive, and the enemy, if it is one of those
that are counted. -/
def Server.killed (s : Server) (c : ClientRef) (pkt : MhitPkt) : Option (LobbyRef × Nat) :=
  match (s.block.client c).curLobby with
  | none => none
  | some l =>
      match s.mapEnemies l with
      | none => none
      | some m =>
          let en := m.enemies pkt.enemyId
          if (s.block.lobby l).type ≠ .default ∧ (pkt.pktLen = 0x0010 ∧ pkt.size = 0x03) ∧
              pkt.enemyId < m.count ∧ en.clientsHit &&& 0x80#8 = 0#8 ∧
              kills (s.block.client c).version pkt ∧ en.bpEntry.toNat < 0x60 then
            some (l, en.bpEntry.toNat)
          else none

/-- The kill of an enemy in a lobby. -/
def Server.kill (s : Server) (serial : Nat) (c : ClientRef) (l : LobbyRef) (enemy : Nat) : Kill :=
  ⟨serial, c, l, enemy, s.heading c l, s.trackKills c⟩

/-- Whether a client that is in a lobby is let into the one that it asks for, which may be the
same. -/
def Server.moves (s : Server) (env : Env) (c : ClientRef) (req : LobbyRef) : Prop :=
  match (s.block.client c).curLobby with
  | none => False
  | some l =>
      policyError env.legit (s.block.client c).flags.overrideGame (s.block.client c)
          (s.block.lobby req) = none ∧
        (l ≠ req → (s.block.lobby req).roomFor (s.block.client c))

instance (s : Server) (env : Env) (c : ClientRef) (req : LobbyRef) :
    Decidable (s.moves env c req) := by
  unfold Server.moves
  split
  · infer_instance
  · infer_instance

/-- Post the kills of the client in a slot. -/
def noteSlot (s : Server) (l : LobbyRef) (g : KillLedger) (i : Nat) : KillLedger :=
  match (s.block.lobby l).clients i with
  | none => g
  | some c => if s.trackKills c then g.post c else g

/-- What a deed does to the ledger. -/
def note (s : Server) (g : KillLedger) : Deed → KillLedger
  | .mhit c pkt =>
      match s.killed c pkt with
      | none => g
      | some (l, enemy) => g.record c (s.kill g.entries.length c l enemy)
  | .call (env, .changeLobby c req) => if s.moves env c req then g.drop c else g
  | .call (_, .removePlayer c) =>
      match (s.block.client c).curLobby with
      | none => g
      | some l =>
          if (s.block.lobby l).type = LobbyType.game ∧ s.trackKills c then g.post c else g.drop c
  | .call _ => g
  | .quest c _ configured _ =>
      match (s.block.client c).curLobby with
      | none => g
      | some l =>
          if (s.block.lobby l).flags.bursting then g
          else if !configured then g
          else (List.range (s.block.lobby l).maxClients).foldl (noteSlot s l) g
  | .track _ _ => g

/-! ## What is promised, and what has to be heeded -/

/-- What the callers check, and that a client keeps its version. -/
def Proper (s : Server) : Deed → Prop
  | .call e => Promised s.block e ∧
      match e.2 with
      | .setClient c version _ _ _ _ => version = (s.block.client c).version
      | _ => True
  | _ => True

/-- No kill that was counted for a client with kill tracking waits there. -/
def Clear (g : KillLedger) (c : ClientRef) : Prop := ∀ k ∈ g.pending c, k.tracked = false

/-- The condition under which no kill is lost, and none is counted that is none. -/
def Careful (s : Server) (g : KillLedger) : Deed → Prop
  | .call (env, .changeLobby c req) => s.moves env c req → Clear g c
  | .call (_, .removePlayer c) => ∀ l, (s.block.client c).curLobby = some l →
      (s.block.lobby l).type = .game ∧ s.trackKills c ∨ Clear g c
  | .call _ => True
  | .mhit c pkt => ∀ l m, (s.block.client c).curLobby = some l →
      (s.block.lobby l).type ≠ .default → pkt.pktLen = 0x0010 ∧ pkt.size = 0x03 →
      s.mapEnemies l = some m → pkt.enemyId ≠ m.count ∧
        ∀ enemy, s.killed c pkt = some (l, enemy) → s.enemyKills c enemy + 1 < 2 ^ 32
  | .quest c _ configured _ => ∀ l, (s.block.client c).curLobby = some l →
      (s.block.lobby l).flags.bursting = false → configured →
      ∀ d, (s.block.client d).curLobby = some l →
        if s.trackKills d then
          (s.block.lobby l).type ≠ .default ∨ ∀ e < 0x60, s.enemyKills d e = 0
        else Clear g d
  | .track _ _ => True

/-! ## The invariant -/

/-- A report counts the kills that it posts, and says where they happened. -/
def Settles (p : Mkill) (b : List Kill) : Prop :=
  (∀ e < 0x60, Bounded.load p.counts e = some (b.countP fun k => k.enemy = e)) ∧
    ∀ k ∈ b, k.tracked → k.heading = p.heading

/-- The server and the ledger agree. -/
structure Kept (s : Server) (g : KillLedger) : Prop where
  seated : Seated s.block
  /-- An election may change the episode of such a game, to the first. -/
  low : ∀ l, (s.block.lobby l).version.code < Version.gc.code → (s.block.lobby l).episode ≤ 1
  balanced : g.Balanced Kill.client (·.tracked = true)
  serials : ∀ k ∈ g.entries, k.serial < g.entries.length
  settled : List.Forall₂ Settles s.sent g.posted
  here : ∀ c, ∀ k ∈ g.pending c, (s.block.client c).curLobby = some k.lobby ∧
    (s.block.lobby k.lobby).type ≠ .default ∧ (k.tracked → k.heading = s.heading c k.lobby)
  counters : ∀ c l, (s.block.client c).curLobby = some l → (s.block.lobby l).type ≠ .default →
    ∀ e < 0x60, s.enemyKills c e = (g.pending c).countP fun k => k.enemy = e

/-- Every report counts kills of the game that it says, and every kill that was counted for a
client with kill tracking is reported once at most, and exactly once when the client is not in
that game any more. -/
def Accounted (s : Server) (g : KillLedger) : Prop :=
  List.Forall₂ Settles s.sent g.posted ∧
    ∀ k ∈ g.entries, k.tracked → g.times k ≤ 1 ∧
      ((s.block.client k.client).curLobby ≠ some k.lobby → g.times k = 1)

section Invariant

variable {s s' : Server} {g g' : KillLedger} {c : ClientRef} {l : LobbyRef} {env : Env}
  {old new : Option LobbyRef}

theorem Kept.accounted (h : Kept s g) : Accounted s g := by
  refine ⟨h.settled, fun k hk htracked => ⟨h.balanced.times_le_one hk htracked, fun hgone => ?_⟩⟩
  refine h.balanced.times_eq_one hk htracked fun hwaits => hgone ?_
  exact (h.here k.client k hwaits).1

/-- Nothing waits with a client that is in no game. -/
theorem Kept.pending_eq_nil (h : Kept s g)
    (hgame : ∀ l, (s.block.client c).curLobby = some l → (s.block.lobby l).type = .default) :
    g.pending c = [] := by
  rw [List.eq_nil_iff_forall_not_mem]
  intro k hk
  obtain ⟨hcur, htype, -⟩ := h.here c k hk
  exact htype (hgame k.lobby hcur)

/-- Dropping what waits with a client that is nowhere changes nothing. -/
theorem Kept.update_pending (h : Kept s g) (hcur : (s.block.client c).curLobby = none) :
    g.pending = update g.pending c [] := by
  have hnone : g.pending c = [] := h.pending_eq_nil fun m hm => by
    rw [hcur] at hm
    cases hm
  rw [← hnone, Function.update_eq_self]

/-! ## Lobbies that a call does not change for the reports -/

/-- What the headings say of a lobby, and what its episode depends on. -/
structure SameGame (x y : Lobby) : Prop where
  type : y.type = x.type
  battle : y.battle = x.battle
  challenge : y.challenge = x.challenge
  episode : reportEpisode y = reportEpisode x
  low : y.version.code < Version.gc.code → y.episode ≤ 1

theorem SameGame.of_core {x y : Lobby} (hcore : y.core = x.core)
    (hlow : x.version.code < Version.gc.code → x.episode ≤ 1) : SameGame x y where
  type := Lobby.eq_of_core Lobby.type (fun _ => rfl) hcore
  battle := Lobby.eq_of_core Lobby.battle (fun _ => rfl) hcore
  challenge := Lobby.eq_of_core Lobby.challenge (fun _ => rfl) hcore
  episode := Lobby.eq_of_core reportEpisode (fun _ => rfl) hcore
  low := by
    rw [Lobby.eq_of_core Lobby.version (fun _ => rfl) hcore,
      Lobby.eq_of_core Lobby.episode (fun _ => rfl) hcore]
    exact hlow

theorem SameGame.trans {x y z : Lobby} (h : SameGame x y) (h' : SameGame y z) : SameGame x z where
  type := h'.type.trans h.type
  battle := h'.battle.trans h.battle
  challenge := h'.challenge.trans h.challenge
  episode := h'.episode.trans h.episode
  low := h'.low

theorem SameGame.fillSlot {x : Lobby} {clev i : Nat}
    (hlow : x.version.code < Version.gc.code → x.episode ≤ 1) :
    SameGame x (fillSlot x c clev i) where
  type := rfl
  battle := rfl
  challenge := rfl
  episode := rfl
  low := hlow

/-- An election changes the episode from none to the first at most. -/
theorem SameGame.replaceLeader {x : Lobby} {now : Nat} {b : Block}
    (hlow : x.version.code < Version.gc.code → x.episode ≤ 1) :
    SameGame x (replaceLeader now b x) where
  type := replaceLeader_field Lobby.type fun _ _ _ _ _ => rfl
  battle := replaceLeader_field Lobby.battle fun _ _ _ _ _ => rfl
  challenge := replaceLeader_field Lobby.challenge fun _ _ _ _ _ => rfl
  episode := by
    simp only [Ship.replaceLeader, lobbyElectLeaderCrossLocked]
    split_ifs with hcross
    · have hepisode := hlow hcross.1
      show (if 1 ≠ 0 then 1 else 1) = if x.episode ≠ 0 then x.episode else 1
      rw [if_pos (by decide)]
      split_ifs
      · omega
      · rfl
    · rfl
    · rfl
  low := by
    simp only [Ship.replaceLeader, lobbyElectLeaderCrossLocked]
    split_ifs
    · exact fun _ => Nat.le_refl 1
    · exact hlow
    · exact hlow

theorem SameGame.dropSlot {x : Lobby} {now i : Nat} {b : Block}
    (hlow : x.version.code < Version.gc.code → x.episode ≤ 1) :
    SameGame x (dropSlot now b x i) where
  type := dropSlot_type
  battle := dropSlot_field Lobby.battle fun _ _ _ _ _ _ _ _ => rfl
  challenge := dropSlot_field Lobby.challenge fun _ _ _ _ _ _ _ _ => rfl
  episode := by
    rw [dropSlot_elected reportEpisode fun _ _ _ _ => rfl]
    split_ifs
    · exact (SameGame.replaceLeader hlow).episode
    · rfl
  low := by
    rw [dropSlot_elected Lobby.version fun _ _ _ _ => rfl,
      dropSlot_elected Lobby.episode fun _ _ _ _ => rfl]
    split_ifs
    · exact (SameGame.replaceLeader hlow).low
    · exact hlow

/-- Transfers change nothing of a lobby that the headings say. -/
theorem sameGame_transfer {b b' : Block} (h : Transfer env b b' c old new)
    (hlow : ∀ l, (b.lobby l).version.code < Version.gc.code → (b.lobby l).episode ≤ 1)
    (m : LobbyRef) : SameGame (b.lobby m) (b'.lobby m) := by
  by_cases hold : old = some m <;> by_cases hnew : new = some m
  · exact .of_core (h.kept m ⟨fun _ => hnew, fun _ => hold⟩) (hlow m)
  · have hdrop : SameGame (b.lobby m)
        (Ship.dropSlot env.later b (b.lobby m) (b.client c).clientId) := .dropSlot (hlow m)
    exact hdrop.trans (.of_core (h.left m hold hnew) hdrop.low)
  · obtain ⟨-, -, -, -, clev, hcore⟩ := h.joined m hold hnew
    have hfill : SameGame (b.lobby m)
        (Ship.fillSlot (b.lobby m) c clev (b'.client c).clientId) := .fillSlot (hlow m)
    exact hfill.trans (.of_core hcore hfill.low)
  · exact .of_core (h.kept m ⟨fun heq => absurd heq hold, fun heq => absurd heq hnew⟩) (hlow m)

/-- What the headings say besides the block. -/
structure SameData (s s' : Server) : Prop where
  number : s'.number = s.number
  guildcard : s'.guildcard = s.guildcard
  difficulty : s'.difficulty = s.difficulty
  qid : s'.qid = s.qid

theorem heading_congr (hdata : SameData s s')
    (hgame : SameGame (s.block.lobby l) (s'.block.lobby l))
    (hversion : (s'.block.client c).version = (s.block.client c).version) :
    s'.heading c l = s.heading c l := by
  simp only [Server.heading, hdata.number, hdata.guildcard, hdata.difficulty, hdata.qid,
    hgame.battle, hgame.challenge, hgame.episode, hversion]

/-! ## Steps -/

/-- A client stays where it is, and nothing is done about kills. -/
theorem Kept.still {b : Block} (h : Kept s g) (hstill : Still s.block b c)
    (hversion : (b.client c).version = (s.block.client c).version) (hseated : Seated b) :
    Kept { s with block := b } g := by
  have hgame : ∀ m, SameGame (s.block.lobby m) (b.lobby m) := fun m =>
    .of_core (hstill.core m) (h.low m)
  have hclient : ∀ d, (b.client d).curLobby = (s.block.client d).curLobby ∧
      (b.client d).version = (s.block.client d).version := by
    intro d
    by_cases hd : d = c
    · exact hd ▸ ⟨hstill.curLobby, hversion⟩
    · rw [hstill.others d hd]
      exact ⟨rfl, rfl⟩
  refine ⟨hseated, fun m => (hgame m).low, h.balanced, h.serials, h.settled, fun d k hk => ?_,
    fun d l hd htype => ?_⟩
  · obtain ⟨hcur, htype, hheading⟩ := h.here d k hk
    refine ⟨(hclient d).1.trans hcur, fun heq => htype ((hgame _).type.symm.trans heq), ?_⟩
    intro htracked
    have hsame : ({ s with block := b } : Server).heading d k.lobby = s.heading d k.lobby :=
      heading_congr ⟨rfl, rfl, rfl, rfl⟩ (hgame k.lobby) (hclient d).2
    exact (hheading htracked).trans hsame.symm
  · exact h.counters d l ((hclient d).1.symm.trans hd) fun heq => htype ((hgame l).type.trans heq)

/-- A client moves, with nothing waiting any more and its counters cleared if it is in a game
then. -/
theorem Kept.moved {t : Server} (h : Kept s g) (htransfer : Transfer env s.block t.block c old new)
    (hseated : Seated t.block) (hdata : SameData s t)
    (hbalanced : g'.Balanced Kill.client (·.tracked = true)) (hentries : g'.entries = g.entries)
    (hpending : g'.pending = update g.pending c [])
    (hsettled : List.Forall₂ Settles t.sent g'.posted)
    (hothers : ∀ d, d ≠ c → t.enemyKills d = s.enemyKills d)
    (hcleared : ∀ l, new = some l → (s.block.lobby l).type ≠ .default →
      ∀ e < 0x60, t.enemyKills c e = 0) : Kept t g' := by
  have hgame := sameGame_transfer htransfer h.low
  refine ⟨hseated, fun m => (hgame m).low, hbalanced, hentries ▸ h.serials, hsettled,
    fun d k hk => ?_, fun d l hd htype e he => ?_⟩
  · rw [hpending] at hk
    by_cases hdc : d = c
    · rw [hdc, Function.update_self] at hk
      exact absurd hk List.not_mem_nil
    · rw [Function.update_of_ne hdc] at hk
      obtain ⟨hcur, htype, hheading⟩ := h.here d k hk
      have hsame := htransfer.others d hdc
      refine ⟨by rw [hsame]; exact hcur, fun heq => htype ((hgame _).type.symm.trans heq), ?_⟩
      intro htracked
      rw [heading_congr hdata (hgame _) (by rw [hsame])]
      exact hheading htracked
  · have htype' : (s.block.lobby l).type ≠ .default := fun heq =>
      htype ((hgame l).type.trans heq)
    rw [hpending]
    by_cases hdc : d = c
    · subst hdc
      rw [Function.update_self]
      exact hcleared l (htransfer.after.symm.trans hd) htype' e he
    · rw [Function.update_of_ne hdc, hothers d hdc]
      rw [htransfer.others d hdc] at hd
      exact h.counters d l hd htype' e he

/-- What a report says of the kills that wait with a client. -/
theorem Kept.settles (h : Kept s g) (hcur : (s.block.client c).curLobby = some l)
    (hzero : (s.block.lobby l).type = .default → ∀ e < 0x60, s.enemyKills c e = 0) :
    List.Forall₂ Settles (s.sendMkill c l).sent (g.post c).posted := by
  refine List.rel_append h.settled (.cons ⟨fun e he => ?_, fun k hk htracked => ?_⟩ .nil)
  · have hload : Bounded.load (⟨(List.range 0x60).map (s.enemyKills c), by simp⟩ :
        Bounded.Buf Nat 0x60) e = some (s.enemyKills c e) := by
      rw [Bounded.load, List.getElem?_map, List.getElem?_range he, Option.map_some]
    refine hload.trans (congrArg some ?_)
    by_cases htype : (s.block.lobby l).type = .default
    · have hnone : g.pending c = [] := h.pending_eq_nil fun m hm => by
        rw [hcur] at hm
        cases hm
        exact htype
      rw [hzero htype e he, hnone, List.countP_nil]
    · exact h.counters c l hcur htype e he
  · obtain ⟨hcur', -, hheading⟩ := h.here c k hk
    rw [hcur] at hcur'
    cases hcur'
    exact hheading htracked

/-- A report that clears the counters. -/
theorem Kept.flush (h : Kept s g) (hcur : (s.block.client c).curLobby = some l)
    (hzero : (s.block.lobby l).type = .default → ∀ e < 0x60, s.enemyKills c e = 0) :
    Kept (s.flush c l) (g.post c) where
  seated := h.seated
  low := h.low
  balanced := h.balanced.post
  serials := h.serials
  settled := h.settles hcur hzero
  here d k hk := h.here d k ((Ledger.mem_pending_drop d).mp hk).2
  counters d m hd htype e he := by
    show update s.enemyKills c (fun _ => 0) d e = _
    rw [Ledger.pending_post]
    by_cases hdc : d = c
    · rw [hdc, Function.update_self, Function.update_self]
      rfl
    · rw [Function.update_of_ne hdc, Function.update_of_ne hdc]
      exact h.counters d m hd htype e he

/-! ## Calls -/

/-- A client that is in a lobby is let into another, or stays with its counters cleared, exactly if
`lobby_change_lobby` returns zero. -/
theorem moves_iff (hseated : Seated s.block) (hcur : (s.block.client c).curLobby = some l)
    {req : LobbyRef} (hreq : req ∈ s.block.lobbies) :
    s.moves env c req ↔ (Ship.lobbyChangeLobby env s.block c req).2 = 0 := by
  have hcleared : (clearOverride s.block c).client c = { s.block.client c with
      flags := { (s.block.client c).flags with overrideGame := false } } :=
    client_modifyClient_self s.block c _
  have hcur' : ((clearOverride s.block c).client c).curLobby = some l := by
    rw [hcleared]
    exact hcur
  have hmoves : s.moves env c req ↔
      policyError env.legit (s.block.client c).flags.overrideGame
          ((clearOverride s.block c).client c) ((clearOverride s.block c).lobby req) = none ∧
        (l ≠ req → ((clearOverride s.block c).lobby req).roomFor
          ((clearOverride s.block c).client c)) := by
    simp only [Server.moves, hcur]
    rw [hcleared]
    exact Iff.rfl
  rw [hmoves]
  simp only [Ship.lobbyChangeLobby, hcur]
  obtain ⟨hnot, rv, hrv, hfail⟩ | ⟨rfl, hpolicy, hsame⟩ | ⟨hadmits, -, -, -, s', -, hmove, -⟩ :=
    moveToLobby_cases env (s.block.client c).flags.overrideGame (seated_clearOverride hseated) hcur'
      hreq
  · refine iff_of_false (fun hmay => ?_) (by rw [hfail]; exact hrv)
    obtain ⟨hpolicy, hroom⟩ := hmay
    by_cases hl : l = req
    · simp only [moveToLobby, hpolicy, if_pos hl] at hfail
      exact hrv (congrArg Prod.snd hfail).symm
    · exact hnot ⟨hl, hpolicy, hroom hl⟩
  · exact iff_of_true ⟨hpolicy, fun hne => absurd rfl hne⟩ (by rw [hsame])
  · exact iff_of_true ⟨hadmits.2.1, fun _ => hadmits.2.2⟩ (by rw [hmove])

/-- A client that asks for a lobby gets there from another one, or from none into a default lobby,
or nothing happens but that its override flag is cleared. -/
theorem changeLobby_cases (hseated : Seated s.block) {req : LobbyRef}
    (hreq : req ∈ s.block.lobbies) :
    (¬s.moves env c req ∧
      s.changeLobby c env req = { s with block := clearOverride s.block c }) ∨
    (¬s.moves env c req ∧ (s.block.client c).curLobby = none ∧
      ∃ b new, Transfer env s.block b c none (some new) ∧ (s.block.lobby new).type = .default ∧
        s.changeLobby c env req = { s with block := b }) ∨
    (s.moves env c req ∧ ∃ l b, Transfer env s.block b c (some l) (some req) ∧
      s.changeLobby c env req =
        if (b.lobby req).type ≠ .default then ({ s with block := b } : Server).clearKills c
        else { s with block := b }) := by
  cases hcur : (s.block.client c).curLobby with
  | none =>
      have hnot : ¬s.moves env c req := by
        simp only [Server.moves, hcur, not_false_eq_true]
      have hresult : s.changeLobby c env req =
          { s with block := (Ship.lobbyChangeLobby env s.block c req).1 } := by
        simp only [Server.changeLobby, hcur]
      rw [hresult]
      obtain ⟨-, rv, -, hfail⟩ | ⟨b, new, rv, hmove, hkind, htransfer, -⟩ :=
        lobbyChangeLobby_cases env c hseated hreq
      · exact .inl ⟨hnot, by rw [hfail]⟩
      · rw [hcur] at hkind htransfer
        obtain ⟨-, htype, -⟩ | ⟨hsome, -⟩ := hkind
        · exact .inr (.inl ⟨hnot, rfl, b, new, htransfer, htype, by rw [hmove]⟩)
        · exact absurd rfl hsome
  | some l =>
      have hmoves := @moves_iff s c l env hseated hcur req hreq
      obtain ⟨-, rv, hrv, hfail⟩ | ⟨b, new, rv, hmove, hkind, htransfer, -⟩ :=
        lobbyChangeLobby_cases env c hseated hreq
      · refine .inl ⟨fun h => hrv ?_, ?_⟩
        · exact (congrArg Prod.snd hfail).symm.trans (hmoves.mp h)
        · have hstill : ((clearOverride s.block c).client c).curLobby = some l :=
            (still_clearOverride s.block c).curLobby.trans hcur
          simp only [Server.changeLobby, hcur, hfail, hstill]
          rw [if_neg fun h => hrv h.1]
      · rw [hcur] at hkind htransfer
        obtain ⟨hnone, -⟩ | ⟨-, rfl, rfl⟩ := hkind
        · exact nomatch hnone
        · refine .inr (.inr ⟨hmoves.mpr (by rw [hmove]), l, b, htransfer, ?_⟩)
          simp only [Server.changeLobby, hcur, hmove, htransfer.after, true_and]

theorem Kept.changeLobby (h : Kept s g) {req : LobbyRef} (hreq : req ∈ s.block.lobbies)
    (hclear : s.moves env c req → Clear g c) :
    Kept (s.changeLobby c env req) (if s.moves env c req then g.drop c else g) := by
  have hseated := seated_step s.block (env, .changeLobby c req) h.seated hreq
  have hblock : (s.changeLobby c env req).block = step s.block (env, .changeLobby c req) := by
    rw [Server.changeLobby]
    split
    · split_ifs <;> rfl
    · rfl
  rw [← hblock] at hseated
  obtain ⟨hnot, hresult⟩ | ⟨hnot, hcur, b, new, htransfer, htype, hresult⟩ |
      ⟨hmoves, l, b, htransfer, hresult⟩ := @changeLobby_cases s c env h.seated req hreq
  · rw [hresult] at hseated ⊢
    rw [if_neg hnot]
    exact h.still (still_clearOverride s.block c)
      (apply_client_modifyClient s.block c c _ Client.version rfl) hseated
  · rw [hresult] at hseated ⊢
    rw [if_neg hnot]
    refine h.moved (t := { s with block := b }) htransfer hseated ⟨rfl, rfl, rfl, rfl⟩ h.balanced
      rfl (h.update_pending hcur) h.settled (fun _ _ => rfl) ?_
    intro m hm hgame
    cases hm
    exact absurd htype hgame
  · rw [if_pos hmoves]
    have hbalanced := h.balanced.drop (o := c) fun k hk htracked => by
      rw [hclear hmoves k hk] at htracked
      cases htracked
    have hafter := (sameGame_transfer htransfer h.low req).type
    rw [hresult] at hseated ⊢
    split_ifs at hseated ⊢ with hgame
    · refine h.moved (t := ({ s with block := b } : Server).clearKills c) htransfer hseated
        ⟨rfl, rfl, rfl, rfl⟩ hbalanced rfl rfl h.settled (fun d hd => ?_) fun m _ _ e _ => ?_
      · exact Function.update_of_ne hd _ _
      · show update s.enemyKills c (fun _ => 0) c e = 0
        rw [Function.update_self]
    · refine h.moved (t := { s with block := b }) htransfer hseated ⟨rfl, rfl, rfl, rfl⟩ hbalanced
        rfl rfl h.settled (fun _ _ => rfl) fun m hm htype => ?_
      cases hm
      exact absurd (fun heq => htype (hafter.symm.trans heq)) hgame

theorem Kept.removePlayer (h : Kept s g)
    (hclear : ∀ l, (s.block.client c).curLobby = some l →
      (s.block.lobby l).type = .game ∧ s.trackKills c ∨ Clear g c) :
    Kept (s.removePlayer c env) (note s g (.call (env, .removePlayer c))) := by
  have htransfer := @lobbyRemovePlayer_transfer env s.block c h.seated
  have hseated := seated_step s.block (env, .removePlayer c) h.seated trivial
  simp only [Server.removePlayer, note]
  cases hcur : (s.block.client c).curLobby with
  | none =>
      rw [hcur] at htransfer
      exact h.moved (t := { s with block := _ }) htransfer hseated ⟨rfl, rfl, rfl, rfl⟩ h.balanced
        rfl (h.update_pending hcur) h.settled (fun _ _ => rfl)
        fun m hm => absurd hm.symm (Option.some_ne_none m)
  | some l =>
      rw [hcur] at htransfer
      by_cases hreport : (s.block.lobby l).type = LobbyType.game ∧ s.trackKills c
      · simp only [if_pos hreport]
        refine h.moved (t := { s.sendMkill c l with block := _ }) htransfer hseated
          ⟨rfl, rfl, rfl, rfl⟩ h.balanced.post rfl rfl (h.settles hcur fun htype => ?_)
          (fun _ _ => rfl) fun m hm => absurd hm.symm (Option.some_ne_none m)
        rw [hreport.1] at htype
        cases htype
      · simp only [if_neg hreport]
        refine h.moved (t := { s with block := _ }) htransfer hseated ⟨rfl, rfl, rfl, rfl⟩
          (h.balanced.drop fun k hk htracked => ?_) rfl rfl h.settled (fun _ _ => rfl)
          fun m hm => absurd hm.symm (Option.some_ne_none m)
        have hclear := (hclear l hcur).resolve_left hreport
        rw [hclear k hk] at htracked
        cases htracked

theorem Kept.call (h : Kept s g) {e : Event} (hproper : Proper s (.call e))
    (hcareful : Careful s g (.call e)) : Kept (s.call e) (note s g (.call e)) := by
  obtain ⟨env, call⟩ := e
  obtain ⟨hpromised, hversion⟩ := hproper
  have hseated := seated_step s.block (env, call) h.seated hpromised
  cases call with
  | changeLobby c req => exact h.changeLobby hpromised hcareful
  | removePlayer c => exact h.removePlayer hcareful
  | addToAny c req =>
      obtain ⟨hcur, hreq⟩ := hpromised
      show Kept { s with block := Ship.step s.block (env, .addToAny c req) } g
      revert hseated
      simp only [Ship.step, Ship.call]
      cases hadd : lobbyAddToAny env s.block c req with
      | none => exact fun _ => h
      | some b =>
          intro hseated
          obtain ⟨l, hl, hadded⟩ := added_lobbyAddToAny hreq hadd
          refine h.moved (t := { s with block := b }) (hadded.transfer hcur hl) hseated
            ⟨rfl, rfl, rfl, rfl⟩ h.balanced rfl (h.update_pending hcur) h.settled
            (fun _ _ => rfl) ?_
          intro m hm hgame
          cases hm
          exact absurd hadded.1 hgame
  | doneBurst c =>
      show Kept { s with block := Ship.step s.block (env, .doneBurst c) } g
      revert hseated
      simp only [Ship.step, Ship.call, dcProcessDoneBurst]
      split
      · exact fun _ => h
      · rename_i l hcur
        split
        · exact fun _ => h
        · exact fun hseated => h.still (still_setBursting s.block c l false)
            (apply_client_modifyClient (clearBursting s.block l) c c (fun y => y.setBursting false)
              Client.version rfl) hseated
  | setFlags l flags => exact h.still (c := 0) (still_setFlags s.block 0 l flags) rfl hseated
  | setClient c version flags level chClass times =>
      refine h.still (still_setClient s.block c version flags level chClass times) ?_ hseated
      rw [Ship.step, Ship.call, setClient, client_modifyClient_self]
      exact hversion

/-! ## Hits -/

/-- A hit on an enemy that is in the array. -/
theorem saveHit_cases {pkt : MhitPkt} {m : GameEnemies}
    (hcur : (s.block.client c).curLobby = some l) (htype : (s.block.lobby l).type ≠ .default)
    (hsize : pkt.pktLen = 0x0010 ∧ pkt.size = 0x03) (hm : s.mapEnemies l = some m)
    (hlt : pkt.enemyId < m.count) :
    (s.killed c pkt = none ∧ ∃ me, s.saveHit c l m pkt = { s with mapEnemies := me }) ∨
      ∃ enemy me, s.killed c pkt = some (l, enemy) ∧
        s.saveHit c l m pkt = ({ s with mapEnemies := me } : Server).countKill c enemy := by
  simp only [Server.killed, hcur, hm, Server.saveHit]
  by_cases hdead : (m.enemies pkt.enemyId).clientsHit &&& 0x80#8 = 0#8
  · rw [if_neg (not_not.mpr hdead)]
    by_cases hkills : kills (s.block.client c).version pkt
    · rw [if_pos hkills]
      by_cases hentry : (m.enemies pkt.enemyId).bpEntry.toNat < 0x60
      · rw [if_pos hentry, if_pos ⟨htype, hsize, hlt, hdead, hkills, hentry⟩]
        exact .inr ⟨_, _, rfl, rfl⟩
      · rw [if_neg hentry]
        exact .inl ⟨if_neg fun h => hentry h.2.2.2.2.2, _, rfl⟩
    · rw [if_neg hkills]
      exact .inl ⟨if_neg fun h => hkills h.2.2.2.2.1, _, rfl⟩
  · rw [if_pos hdead]
    exact .inl ⟨if_neg fun h => hdead h.2.2.2.1, s.mapEnemies, rfl⟩

/-- A hit counts a kill, or changes the enemies at most. -/
theorem handleMhit_cases {pkt : MhitPkt}
    (hinside : ∀ l m, (s.block.client c).curLobby = some l →
      (s.block.lobby l).type ≠ .default → pkt.pktLen = 0x0010 ∧ pkt.size = 0x03 →
      s.mapEnemies l = some m → pkt.enemyId ≠ m.count) :
    (s.killed c pkt = none ∧ ∃ me, (s.handleMhit c pkt).1 = { s with mapEnemies := me }) ∨
      ∃ l enemy me, s.killed c pkt = some (l, enemy) ∧ (s.block.client c).curLobby = some l ∧
        (s.block.lobby l).type ≠ .default ∧
        (s.handleMhit c pkt).1 = ({ s with mapEnemies := me } : Server).countKill c enemy := by
  rw [Server.handleMhit]
  cases hcur : (s.block.client c).curLobby with
  | none => exact .inl ⟨by simp only [Server.killed, hcur], s.mapEnemies, rfl⟩
  | some l =>
      simp only
      cases hm : s.mapEnemies l with
      | none =>
          refine .inl ⟨by simp only [Server.killed, hcur, hm], s.mapEnemies, ?_⟩
          split_ifs <;> rfl
      | some m =>
          have hnone (hnot : ¬((s.block.lobby l).type ≠ .default ∧
              (pkt.pktLen = 0x0010 ∧ pkt.size = 0x03) ∧ pkt.enemyId < m.count)) :
              s.killed c pkt = none := by
            simp only [Server.killed, hcur, hm]
            exact if_neg fun h => hnot ⟨h.1, h.2.1, h.2.2.1⟩
          by_cases htype : (s.block.lobby l).type = .default
          · rw [if_pos htype]
            exact .inl ⟨hnone fun h => h.1 htype, s.mapEnemies, rfl⟩
          rw [if_neg htype]
          by_cases hsize : pkt.pktLen = 0x0010 ∧ pkt.size = 0x03
          · rw [if_neg (by omega)]
            have hne := hinside l m hcur htype hsize hm
            by_cases hrange : m.count < pkt.enemyId
            · simp only [if_pos hrange]
              exact .inl ⟨hnone fun h => by omega, s.mapEnemies, rfl⟩
            · simp only [if_neg hrange]
              obtain hsame | ⟨enemy, me, hkilled, hresult⟩ :=
                saveHit_cases hcur htype hsize hm (by omega)
              · exact .inl hsame
              · exact .inr ⟨l, enemy, me, hkilled, rfl, htype, hresult⟩
          · rw [if_pos (by omega)]
            exact .inl ⟨hnone fun h => hsize h.2.1, s.mapEnemies, rfl⟩

/-- A kill is counted. -/
theorem Kept.countKill (h : Kept s g) (hcur : (s.block.client c).curLobby = some l)
    (htype : (s.block.lobby l).type ≠ .default) {enemy : Nat}
    (hsmall : s.enemyKills c enemy + 1 < 2 ^ 32) :
    Kept (s.countKill c enemy) (g.record c (s.kill g.entries.length c l enemy)) where
  seated := h.seated
  low := h.low
  balanced := h.balanced.record (fun hmem => absurd (h.serials _ hmem) (Nat.lt_irrefl _)) rfl
  serials k hk := by
    rw [Ledger.entries_record, List.length_append, List.length_singleton]
    rw [Ledger.entries_record, List.mem_append, List.mem_singleton] at hk
    rcases hk with hk | rfl
    · exact Nat.lt_succ_of_lt (h.serials k hk)
    · exact Nat.lt_succ_self _
  settled := h.settled
  here d k hk := by
    obtain hk | ⟨rfl, rfl⟩ := (Ledger.mem_pending_record d).mp hk
    · exact h.here d k hk
    · exact ⟨hcur, htype, fun _ => rfl⟩
  counters d m hd htype e he := by
    show update s.enemyKills c (update (s.enemyKills c) enemy _) d e = _
    rw [Ledger.pending_record]
    by_cases hdc : d = c
    · subst hdc
      have hold := h.counters d m hd htype e he
      rw [Function.update_self, Function.update_self, List.countP_append, ← hold,
        List.countP_singleton]
      by_cases hee : e = enemy
      · rw [hee, Function.update_self, Nat.mod_eq_of_lt hsmall]
        simp only [Server.kill, decide_true, if_true]
      · rw [Function.update_of_ne hee]
        have hother : (s.kill g.entries.length d l enemy).enemy ≠ e := Ne.symm hee
        rw [if_neg (by simpa using hother), Nat.add_zero]
    · rw [Function.update_of_ne hdc, Function.update_of_ne hdc]
      exact h.counters d m hd htype e he

theorem Kept.mhit (h : Kept s g) {pkt : MhitPkt} (hcareful : Careful s g (.mhit c pkt)) :
    Kept (s.step (.mhit c pkt)) (note s g (.mhit c pkt)) := by
  obtain ⟨hnone, me, hresult⟩ | ⟨l, enemy, me, hkilled, hcur, htype, hresult⟩ :=
    @handleMhit_cases s c pkt fun l m hcur htype hsize hm => (hcareful l m hcur htype hsize hm).1
  · simp only [Server.step, note, hnone, hresult]
    exact ⟨h.seated, h.low, h.balanced, h.serials, h.settled, h.here, h.counters⟩
  · simp only [Server.step, note, hkilled, hresult]
    have hsmall : s.enemyKills c enemy + 1 < 2 ^ 32 := by
      have hready : ∃ m, s.mapEnemies l = some m ∧ pkt.pktLen = 0x0010 ∧ pkt.size = 0x03 := by
        simp only [Server.killed, hcur] at hkilled
        cases hm : s.mapEnemies l with
        | none => simp only [hm, reduceCtorEq] at hkilled
        | some m =>
            simp only [hm] at hkilled
            split_ifs at hkilled with hall
            exact ⟨m, rfl, hall.2.1⟩
      obtain ⟨m, hm, hsize⟩ := hready
      exact (hcareful l m hcur htype hsize hm).2 enemy hkilled
    have hkept : Kept ({ s with mapEnemies := me } : Server) g :=
      ⟨h.seated, h.low, h.balanced, h.serials, h.settled, h.here, h.counters⟩
    exact hkept.countKill hcur htype hsmall

/-! ## Quests -/

theorem sendSlot_block (i : Nat) : (s.sendSlot l i).block = s.block ∧
    (s.sendSlot l i).trackKills = s.trackKills := by
  rw [Server.sendSlot]
  split
  · exact ⟨rfl, rfl⟩
  · split_ifs
    · exact ⟨rfl, rfl⟩
    · exact ⟨rfl, rfl⟩

/-- A member that the loop in `lobby_send_kill_counts` has not come to has its counters yet. -/
theorem Kept.sendSlot (h : Kept s g) {i : Nat}
    (hzero : (s.block.lobby l).type = .default → ∀ d, (s.block.client d).curLobby = some l →
      s.trackKills d → ∀ e < 0x60, s.enemyKills d e = 0) :
    Kept (s.sendSlot l i) (noteSlot s l g i) ∧
      ((s.block.lobby l).type = .default → ∀ d, (s.block.client d).curLobby = some l →
        s.trackKills d → ∀ e < 0x60, (s.sendSlot l i).enemyKills d e = 0) := by
  rw [Server.sendSlot, noteSlot]
  cases hslot : (s.block.lobby l).clients i with
  | none => exact ⟨h, hzero⟩
  | some c =>
      have hcur := (h.seated.clients_iff.mp hslot).1
      by_cases htrack : s.trackKills c
      · simp only [if_pos htrack]
        refine ⟨h.flush hcur fun htype => hzero htype c hcur htrack, ?_⟩
        intro htype d hd htrack' e he
        show update s.enemyKills c (fun _ => 0) d e = 0
        by_cases hdc : d = c
        · rw [hdc, Function.update_self]
        · rw [Function.update_of_ne hdc]
          exact hzero htype d hd htrack' e he
      · simp only [if_neg htrack]
        exact ⟨h, hzero⟩

theorem noteSlot_congr (hblock : s'.block = s.block) (htrack : s'.trackKills = s.trackKills) :
    noteSlot s' l = noteSlot s l := by
  funext g i
  rw [noteSlot, noteSlot, hblock, htrack]

/-- The whole loop. -/
theorem Kept.sendSlots (h : Kept s g) (slots : List Nat)
    (hzero : (s.block.lobby l).type = .default → ∀ d, (s.block.client d).curLobby = some l →
      s.trackKills d → ∀ e < 0x60, s.enemyKills d e = 0) :
    Kept (slots.foldl (fun s i => s.sendSlot l i) s) (slots.foldl (noteSlot s l) g) ∧
      (slots.foldl (fun s i => s.sendSlot l i) s).block = s.block := by
  induction slots generalizing s g with
  | nil => exact ⟨h, rfl⟩
  | cons i slots ih =>
      obtain ⟨hkept, hnext⟩ := h.sendSlot (l := l) (i := i) hzero
      obtain ⟨hblock, htrack⟩ := @sendSlot_block s l i
      have hrest := ih hkept (by rw [hblock, htrack]; exact hnext)
      rw [noteSlot_congr hblock htrack] at hrest
      exact ⟨hrest.1, hrest.2.trans hblock⟩

/-- The loop posts what waits with the members that have kill tracking. -/
theorem pending_noteSlots {slots : List Nat} {d : ClientRef} {k : Kill}
    (hk : k ∈ (slots.foldl (noteSlot s l) g).pending d) :
    k ∈ g.pending d ∧
      ∀ i ∈ slots, (s.block.lobby l).clients i = some d → s.trackKills d = false := by
  induction slots generalizing g with
  | nil => exact ⟨hk, fun i hi => absurd hi List.not_mem_nil⟩
  | cons i slots ih =>
      obtain ⟨hrest, hall⟩ := ih hk
      have hhead : k ∈ g.pending d ∧
          ((s.block.lobby l).clients i = some d → s.trackKills d = false) := by
        rw [noteSlot] at hrest
        cases hslot : (s.block.lobby l).clients i with
        | none =>
            rw [hslot] at hrest
            exact ⟨hrest, nofun⟩
        | some c =>
            simp only [hslot] at hrest
            split_ifs at hrest with htrack
            · obtain ⟨hdc, hmem⟩ := (Ledger.mem_pending_drop d).mp hrest
              exact ⟨hmem, fun heq => absurd (Option.some.inj heq).symm hdc⟩
            · refine ⟨hrest, fun heq => ?_⟩
              rw [← Option.some.inj heq]
              exact Bool.eq_false_iff.mpr htrack
      refine ⟨hhead.1, fun j hj hslot => ?_⟩
      rcases List.mem_cons.mp hj with rfl | hj
      · exact hhead.2 hslot
      · exact hall j hj hslot

/-- Another quest in a lobby in which no kill waits that has to be reported. -/
theorem Kept.setQid (h : Kept s g) {itemId : Nat} {me : LobbyRef → Option GameEnemies}
    (hclear : ∀ d, (s.block.client d).curLobby = some l → Clear g d) :
    Kept { s with qid := update s.qid l itemId, mapEnemies := me } g where
  seated := h.seated
  low := h.low
  balanced := h.balanced
  serials := h.serials
  settled := h.settled
  here d k hk := by
    obtain ⟨hcur, htype, hheading⟩ := h.here d k hk
    refine ⟨hcur, htype, fun htracked => ?_⟩
    have hne : k.lobby ≠ l := by
      rintro hl
      rw [hclear d (hl ▸ hcur) k hk] at htracked
      cases htracked
    simp only [Server.heading, Function.update_of_ne hne]
    exact hheading htracked
  counters := h.counters

theorem Kept.quest (h : Kept s g) {itemId : Nat} {configured : Bool}
    {enemies : Option GameEnemies} (hcareful : Careful s g (.quest c itemId configured enemies)) :
    Kept (s.step (.quest c itemId configured enemies))
      (note s g (.quest c itemId configured enemies)) := by
  simp only [Server.step, Server.beginQuest, note]
  cases hcur : (s.block.client c).curLobby with
  | none => exact h
  | some l =>
      simp only
      by_cases hbursting : (s.block.lobby l).flags.bursting
      · rw [if_pos hbursting, if_pos hbursting]
        exact h
      rw [if_neg hbursting, if_neg hbursting]
      by_cases hconfigured : configured
      · have hmembers := hcareful l hcur (Bool.eq_false_iff.mpr hbursting) hconfigured
        rw [hconfigured, if_neg (by decide), if_neg (by decide)]
        have hquesting : Kept (s.setQuesting l) g := h.still (still_setFlags s.block 0 l _) rfl
          (seated_step s.block ({ now := 0 }, .setFlags l _) h.seated trivial)
        have hcore : ((s.setQuesting l).block.lobby l).core = (s.block.lobby l).core :=
          (still_setFlags s.block 0 l _).core l
        have hmax := Lobby.eq_of_core Lobby.maxClients (fun _ => rfl) hcore
        have hslots := Lobby.eq_of_core Lobby.clients (fun _ => rfl) hcore
        have htype := Lobby.eq_of_core Lobby.type (fun _ => rfl) hcore
        have hnote : noteSlot (s.setQuesting l) l = noteSlot s l := by
          funext g i
          rw [noteSlot, noteSlot, hslots]
          rfl
        obtain ⟨hkept, hblock⟩ := hquesting.sendSlots (l := l)
          (List.range (s.block.lobby l).maxClients) fun hdefault d hd htrack => by
            have hmember := hmembers d hd
            have htracked : s.trackKills d = true := htrack
            rw [if_pos htracked] at hmember
            exact hmember.resolve_left fun hgame => hgame (htype.symm.trans hdefault)
        rw [hnote] at hkept
        rw [Server.lobbySendKillCounts, hmax]
        refine hkept.setQid fun d hd k hk => ?_
        rw [hblock] at hd
        obtain ⟨hmem, hseen⟩ := pending_noteSlots hk
        have hslot := h.seated.clients_iff.mpr ⟨hd, rfl⟩
        have huntracked := hseen _ (List.mem_range.mpr ((h.seated.counted l).slot_lt _ d hslot))
          hslot
        have hmember := hmembers d hd
        rw [huntracked, if_neg (by decide)] at hmember
        exact hmember k hmem
      · rw [Bool.eq_false_iff.mpr hconfigured, if_pos (by decide), if_pos (by decide)]
        exact h

/-! ## Steps -/

theorem Kept.step (h : Kept s g) {d : Deed} (hproper : Proper s d) (hcareful : Careful s g d) :
    Kept (s.step d) (note s g d) := by
  cases d with
  | call e => exact h.call hproper hcareful
  | mhit c pkt => exact h.mhit hcareful
  | quest c itemId configured enemies => exact h.quest hcareful
  | track c on =>
      exact ⟨h.seated, h.low, h.balanced, h.serials, h.settled, h.here, h.counters⟩

/-- Nobody is in a lobby yet, and nothing was counted. The counters may say anything. -/
structure Server.Fresh (s : Server) : Prop where
  empty : s.block.Empty
  low : ∀ l, (s.block.lobby l).version.code < Version.gc.code → (s.block.lobby l).episode ≤ 1
  sent : s.sent = []

theorem Server.Fresh.kept (h : s.Fresh) : Kept s {} where
  seated := h.empty.seated
  low := h.low
  balanced := Ledger.balanced_empty
  serials _ hk := absurd hk List.not_mem_nil
  settled := by
    rw [h.sent]
    exact .nil
  here _ _ hk := absurd hk List.not_mem_nil
  counters c l hl := by
    rw [h.empty.curLobby] at hl
    cases hl

end Invariant

end Sylverant.Ship.Kills
