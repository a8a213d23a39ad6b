/-
# Blocks

A block of a ship server, with its lobbies, the games among them, and its clients.
Lobbies and clients are structures in memory that refer to each other; a reference
is the number of an allocation and is not used again. The thread of the block
handles one packet at a time, so that the locks are left out.

The records hold the fields that joining, leaving and creating games read or write.
Packets to the clients and to the shipgate change nothing here. Where a branch
depends on whether one of them was sent, and wherever the clock is read, what was
found is part of the environment of a call.
-/

import Mathlib.Logic.Function.Basic
import Sylverant.Ship.Version

namespace Sylverant.Ship

open Function (update)

abbrev LobbyRef := Nat

abbrev ClientRef := Nat

/-- The constants `LOBBY_TYPE_*`. -/
inductive LobbyType
  | default
  | game
  | ep3Game
  deriving DecidableEq, Repr

/-- The constants `LOBBY_FLAG_*` that the code below reads. -/
structure LobbyFlags where
  bursting : Bool := false
  questing : Bool := false
  questsel : Bool := false
  tempUnavail : Bool := false
  legitMode : Bool := false
  dconly : Bool := false
  pconly : Bool := false
  v1only : Bool := false
  gcAllowed : Bool := false
  singleplayer : Bool := false
  deriving DecidableEq

/-- `lobby_t`. -/
structure Lobby where
  lobbyId : Nat
  type : LobbyType
  flags : LobbyFlags := {}
  maxClients : Nat
  numClients : Nat := 0
  version : Version
  leaderId : Nat := 0
  battle : Nat := 0
  challenge : Nat := 0
  v2 : Nat := 0
  episode : Nat := 0
  maxChal : Nat := 0
  minLevel : Nat
  maxLevel : Nat
  passwd : String := ""
  /-- The array `clients`; what lies behind `max_clients` is `NULL`. -/
  clients : Nat → Option ClientRef := fun _ => none

/-- The constants `CLIENT_FLAG_*` that the code below reads. -/
structure ClientFlags where
  bursting : Bool := false
  overrideGame : Bool := false
  gcProtect : Bool := false
  isDcnte : Bool := false
  deriving DecidableEq

/-- `ship_client_t`, with what the code below reads of the player's data. -/
structure Client where
  version : Version
  flags : ClientFlags := {}
  clientId : Nat := 0
  curLobby : Option LobbyRef := none
  createLobby : Option LobbyRef := none
  joinTime : Nat := 0
  arrow : Nat := 1
  lobbyId : Nat := 0
  /-- `pl->v1.level` -/
  level : Nat
  /-- `pl->v1.ch_class` -/
  chClass : Nat
  /-- The field `c_rank.part.times` of the record for the client's version. -/
  times : Nat → Nat

/-- `block_t`, and the memory that the lobbies and the clients are in. -/
structure Block where
  /-- The list `lobbies`. -/
  lobbies : List LobbyRef
  numGames : Int
  /-- The list `clients`. -/
  clients : List ClientRef
  lobby : LobbyRef → Lobby
  client : ClientRef → Client
  /-- The reference that the next allocation returns. -/
  fresh : LobbyRef
  /-- The lobbies that were freed, once for each time. -/
  freed : List LobbyRef

/-- What a call finds outside the block. -/
structure Env where
  /-- The clock when a client is added to a lobby. -/
  now : Nat
  /-- The clock when a leader is elected. -/
  later : Nat := now
  /-- What `lobby_check_client_legit` finds. -/
  legit : Bool := true
  /-- Whether `send_lobby_join` and `send_lobby_add_player` succeed for a client
  that was in no lobby. -/
  sent : Bool := true
  /-- Whether the data of the enemies can be loaded for a game. -/
  loaded : Bool := true

/-! ## Writing to memory -/

/-- Write to a lobby. -/
def Block.modifyLobby (s : Block) (l : LobbyRef) (f : Lobby → Lobby) : Block :=
  { s with lobby := update s.lobby l (f (s.lobby l)) }

/-- Write to a client. -/
def Block.modifyClient (s : Block) (c : ClientRef) (f : Client → Client) : Block :=
  { s with client := update s.client c (f (s.client c)) }

section Memory

variable (s : Block) (l m : LobbyRef) (c d : ClientRef) (f : Lobby → Lobby) (g : Client → Client)

@[simp] theorem lobbies_modifyLobby : (s.modifyLobby l f).lobbies = s.lobbies := rfl

@[simp] theorem lobbies_modifyClient : (s.modifyClient c g).lobbies = s.lobbies := rfl

@[simp] theorem numGames_modifyLobby : (s.modifyLobby l f).numGames = s.numGames := rfl

@[simp] theorem numGames_modifyClient : (s.modifyClient c g).numGames = s.numGames := rfl

@[simp] theorem clients_modifyLobby : (s.modifyLobby l f).clients = s.clients := rfl

@[simp] theorem clients_modifyClient : (s.modifyClient c g).clients = s.clients := rfl

@[simp] theorem fresh_modifyLobby : (s.modifyLobby l f).fresh = s.fresh := rfl

@[simp] theorem fresh_modifyClient : (s.modifyClient c g).fresh = s.fresh := rfl

@[simp] theorem freed_modifyLobby : (s.modifyLobby l f).freed = s.freed := rfl

@[simp] theorem freed_modifyClient : (s.modifyClient c g).freed = s.freed := rfl

@[simp] theorem client_modifyLobby : (s.modifyLobby l f).client = s.client := rfl

@[simp] theorem lobby_modifyClient : (s.modifyClient c g).lobby = s.lobby := rfl

@[simp]
theorem lobby_modifyLobby_self : (s.modifyLobby l f).lobby l = f (s.lobby l) :=
  Function.update_self ..

theorem lobby_modifyLobby_of_ne {l m : LobbyRef} (h : m ≠ l) :
    (s.modifyLobby l f).lobby m = s.lobby m :=
  Function.update_of_ne h ..

@[simp]
theorem client_modifyClient_self : (s.modifyClient c g).client c = g (s.client c) :=
  Function.update_self ..

theorem client_modifyClient_of_ne {c d : ClientRef} (h : d ≠ c) :
    (s.modifyClient c g).client d = s.client d :=
  Function.update_of_ne h ..

/-- A field of the lobbies that the write does not change. -/
theorem apply_lobby_modifyLobby {α : Type} (field : Lobby → α)
    (h : field (f (s.lobby l)) = field (s.lobby l)) :
    field ((s.modifyLobby l f).lobby m) = field (s.lobby m) := by
  by_cases hm : m = l
  · rw [hm, lobby_modifyLobby_self, h]
  · rw [lobby_modifyLobby_of_ne s f hm]

/-- A field of the clients that the write does not change. -/
theorem apply_client_modifyClient {α : Type} (field : Client → α)
    (h : field (g (s.client c)) = field (s.client c)) :
    field ((s.modifyClient c g).client d) = field (s.client d) := by
  by_cases hd : d = c
  · rw [hd, client_modifyClient_self, h]
  · rw [client_modifyClient_of_ne s g hd]

end Memory

end Sylverant.Ship
