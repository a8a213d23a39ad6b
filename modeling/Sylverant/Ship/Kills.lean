/-
# Counting kills

The members of a game hit and kill enemies. The ship counts the kills of each client, and sends
the counts to the shipgate when the client leaves the game and when a quest begins. The counters
of a client are cleared when it joins a game.

Sending a packet to the shipgate does not fail here, and `load_quest_enemies` may leave any
enemies in the game.
-/

import Sylverant.Library.Bounded
import Sylverant.Ship.Lobby
import Sylverant.Ship.MapData

namespace Sylverant.Ship.Kills

open Function (update)
open Bounded (Buf)

/-! ## Packets -/

/-- What a report says besides the counts. -/
structure Heading where
  guildcard : Nat
  block : Nat
  episode : Nat
  difficulty : Nat
  version : Nat
  deriving DecidableEq

/-- `shipgate_mkill_pkt`, with the version of its header. -/
structure Mkill where
  hdrVersion : Nat
  heading : Heading
  counts : Buf Nat 0x60

/-- `subcmd_mhit_pkt_t`, with the length in its header. -/
structure MhitPkt where
  pktLen : Nat
  size : Nat
  enemyId : Nat
  flags : BitVec 32

/-- `SWAP32` -/
def swap32 (x : BitVec 32) : BitVec 32 :=
  ((x >>> 24) &&& 0x00FF#32) ||| ((x >>> 8) &&& 0xFF00#32) |||
    ((x &&& 0xFF00#32) <<< 8) ||| ((x &&& 0x00FF#32) <<< 24)

/-- Whether the hit kills the enemy. A Gamecube has the flags the other way round. -/
def kills (version : Version) (pkt : MhitPkt) : Bool :=
  (if version = .gc then swap32 pkt.flags else pkt.flags) &&& 0x00000800#32 ≠ 0#32

/-! ## The server -/

/-- The block, and what else is read when kills are counted. -/
structure Server where
  block : Block
  /-- `cur_block->b` -/
  number : Nat
  guildcard : ClientRef → Nat
  /-- `CLIENT_FLAG_TRACK_KILLS` -/
  trackKills : ClientRef → Bool
  /-- The arrays `enemy_kills`, which `client_create_connection` does not clear. -/
  enemyKills : ClientRef → Nat → Nat
  mapEnemies : LobbyRef → Option GameEnemies
  difficulty : LobbyRef → Nat
  qid : LobbyRef → Nat
  /-- `LOBBY_FLAG_SERVER_DROPS` -/
  serverDrops : LobbyRef → Bool
  /-- The packets that were sent to the shipgate. -/
  sent : List Mkill

/-- The bits of a report's version for the mode of the game. -/
def modeBits (battle challenge qid : Nat) : Nat :=
  (if battle ≠ 0 then 0x80 else if challenge ≠ 0 then 0x40 else 0) |||
    (if qid ≠ 0 then 0x20 else 0)

/-- The episode in a report, where none counts as the first. -/
def reportEpisode (x : Lobby) : Nat := if x.episode ≠ 0 then x.episode else 1

namespace Server

variable (s : Server) (c : ClientRef) (l : LobbyRef)

/-- What a report of a client in a lobby says. -/
def heading : Heading where
  guildcard := s.guildcard c
  block := s.number
  episode := reportEpisode (s.block.lobby l)
  difficulty := s.difficulty l
  version := (s.block.client c).version.code |||
    modeBits (s.block.lobby l).battle (s.block.lobby l).challenge (s.qid l)

/-- `shipgate_send_mkill` -/
def sendMkill : Server :=
  { s with sent := s.sent ++ [{
      hdrVersion := 1
      heading := s.heading c l
      counts := ⟨(List.range 0x60).map (s.enemyKills c), by simp⟩ }] }

/-- The `memset` of `enemy_kills`. -/
def clearKills : Server := { s with enemyKills := update s.enemyKills c fun _ => 0 }

/-- Count a kill, in 32 bits. -/
def countKill (bp : Nat) : Server :=
  { s with enemyKills :=
      update s.enemyKills c (update (s.enemyKills c) bp ((s.enemyKills c bp + 1) % 2 ^ 32)) }

/-- Write to `map_enemies->enemies[mid]`. -/
def setEnemy (m : GameEnemies) (mid : Nat) (en : GameEnemy) : Server :=
  { s with mapEnemies :=
      update s.mapEnemies l (some { m with enemies := update m.enemies mid en }) }

/-- Save a hit. -/
def saveHit (m : GameEnemies) (pkt : MhitPkt) : Server :=
  let en := m.enemies pkt.enemyId
  let slot := (s.block.client c).clientId
  let hit : GameEnemy :=
    { en with clientsHit := en.clientsHit ||| 1#8 <<< slot, lastClient := slot.toUInt8 }
  if en.clientsHit &&& 0x80#8 ≠ 0#8 then s
  else if kills (s.block.client c).version pkt then
    let s := s.setEnemy l m pkt.enemyId { hit with clientsHit := hit.clientsHit ||| 0x80#8 }
    if en.bpEntry.toNat < 0x60 then s.countKill c en.bpEntry.toNat else s
  else s.setEnemy l m pkt.enemyId hit

/-- `handle_mhit`. A client in no lobby does not get there. -/
def handleMhit (pkt : MhitPkt) : Server × Int :=
  match (s.block.client c).curLobby with
  | none => (s, 0)
  | some l =>
      if (s.block.lobby l).type = .default then (s, -1)
      else if pkt.pktLen ≠ 0x0010 ∨ pkt.size ≠ 0x03 then (s, -1)
      else
        match s.mapEnemies l with
        | none => (s, 0)
        | some m =>
            if m.count < pkt.enemyId then (s, if s.serverDrops l then -1 else 0)
            else (s.saveHit c l m pkt, 0)

/-- `lobby_change_lobby`. The counters are cleared where the client is told of its new game,
which a client that was in no lobby does not get to. -/
def changeLobby (env : Env) (req : LobbyRef) : Server :=
  let result := Ship.lobbyChangeLobby env s.block c req
  let t := { s with block := result.1 }
  match (s.block.client c).curLobby, (result.1.client c).curLobby with
  | some _, some cur =>
      if result.2 = 0 ∧ (result.1.lobby cur).type ≠ .default then t.clearKills c else t
  | _, _ => t

/-- `lobby_remove_player`, for a client that leaves a game with the packet for that as well as for
one that is disconnected. -/
def removePlayer (env : Env) : Server :=
  let s :=
    match (s.block.client c).curLobby with
    | none => s
    | some l =>
        if (s.block.lobby l).type = LobbyType.game ∧ s.trackKills c then s.sendMkill c l else s
  { s with block := (Ship.lobbyRemovePlayer env s.block c).1 }

/-- The counts of a client, and a new start. -/
def flush : Server := (s.sendMkill c l).clearKills c

/-- A round of the loop in `lobby_send_kill_counts`. -/
def sendSlot (i : Nat) : Server :=
  match (s.block.lobby l).clients i with
  | none => s
  | some c => if s.trackKills c then s.flush c l else s

/-- `lobby_send_kill_counts` -/
def lobbySendKillCounts : Server :=
  (List.range (s.block.lobby l).maxClients).foldl (fun s i => s.sendSlot l i) s

/-- Set `LOBBY_FLAG_QUESTING`. -/
def setQuesting : Server :=
  { s with block := setFlags s.block l { (s.block.lobby l).flags with questing := true } }

/-- The choice of a quest in `process_menu`, for a client that is in a lobby. -/
def beginQuest (itemId : Nat) (configured : Bool) (enemies : Option GameEnemies) : Server :=
  match (s.block.client c).curLobby with
  | none => s
  | some l =>
      if (s.block.lobby l).flags.bursting then s
      else if !configured then s
      else
        let s := (s.setQuesting l).lobbySendKillCounts l
        { s with qid := update s.qid l itemId, mapEnemies := update s.mapEnemies l enemies }

end Server

/-! ## Runs -/

/-- What may happen on the block. -/
inductive Deed
  /-- A call that concerns the lobbies. -/
  | call (e : Event)
  /-- A client hits an enemy. -/
  | mhit (c : ClientRef) (pkt : MhitPkt)
  /-- A client chooses a quest. -/
  | quest (c : ClientRef) (itemId : Nat) (configured : Bool) (enemies : Option GameEnemies)
  /-- A client, or the shipgate for it, turns kill tracking on or off. -/
  | track (c : ClientRef) (on : Bool)

/-- A call, with what it does about kills. -/
def Server.call (s : Server) (e : Event) : Server :=
  match e.2 with
  | .changeLobby c req => s.changeLobby c e.1 req
  | .removePlayer c => s.removePlayer c e.1
  | _ => { s with block := Ship.step s.block e }

/-- The server after a deed. -/
def Server.step (s : Server) : Deed → Server
  | .call e => s.call e
  | .mhit c pkt => (s.handleMhit c pkt).1
  | .quest c itemId configured enemies => s.beginQuest c itemId configured enemies
  | .track c on => { s with trackKills := update s.trackKills c on }

end Sylverant.Ship.Kills
