/-
# Games

How games come into being, and the packets that lead to it. A game is allocated, put in
the list of the block and joined by its creator, all while one packet is handled. For PC
this may take two packets: the game then waits outside the list until the client has
answered which versions may join.
-/

import Sylverant.Library.Counting
import Sylverant.Ship.Lobby

namespace Sylverant.Ship

open Function (update)

/-! ## The block at the start -/

/-- `lobby_create_default`. -/
def lobbyCreateDefault (lobbyId : Nat) : Lobby where
  lobbyId := lobbyId
  type := .default
  maxClients := 12
  version := .dcv1
  minLevel := 0
  maxLevel := 9001

/-- `client_create_connection`. -/
def clientCreateConnection (version : Version) : Client where
  version := version
  level := 0
  chClass := 0
  times _ := 0

/-- The block that `block_server_start` sets up, with the first 20 lobbies. -/
def blockServerStart : Block where
  lobbies := List.range 20
  numGames := 0
  clients := []
  lobby l := lobbyCreateDefault (l + 1)
  client _ := clientCreateConnection .dcv1
  fresh := 20
  freed := []

/-! ## Creating a game -/

/-- The table `game_required_level`. There are no other difficulties. -/
def gameRequiredLevel (difficulty : Nat) : Nat := [1, 20, 40, 80].getD difficulty 0

/-- `block_get_lobby`. -/
def blockGetLobby (s : Block) (lobbyId : Nat) : Option LobbyRef :=
  s.lobbies.find? fun l => (s.lobby l).lobbyId = lobbyId

/-- The loop that selects an unused id, starting after `0x20`. -/
def selectId (s : Block) : Nat :=
  Unused.firstUnused (fun id => (blockGetLobby s id).isSome) s.lobbies.length 0x21

/-- The arguments of `lobby_create_game`. -/
structure GameArgs where
  passwd : String
  difficulty : Nat
  battle : Nat
  chal : Nat
  v2 : Nat
  version : Version
  episode : Nat
  singlePlayer : Bool

/-- Whether the data of the enemies is loaded. -/
def GameArgs.needsEnemies (a : GameArgs) : Prop :=
  a.version = .bb ∨ a.version.code ≤ Version.gc.code ∧ a.battle = 0 ∧ a.chal = 0

instance (a : GameArgs) : Decidable a.needsEnemies :=
  inferInstanceAs (Decidable (_ ∨ _ ∧ _ ∧ _))

/-- Whether the game is put in the list at once. -/
def GameArgs.listed (a : GameArgs) : Prop :=
  a.version ≠ .pc ∨ a.battle ≠ 0 ∨ a.chal ≠ 0 ∨ a.difficulty = 3

instance (a : GameArgs) : Decidable a.listed :=
  inferInstanceAs (Decidable (_ ∨ _ ∨ _ ∨ _))

/-- The game that `lobby_create_game` sets up. -/
def newGame (id : Nat) (a : GameArgs) : Lobby where
  lobbyId := id
  type := .game
  maxClients := if a.singlePlayer then 1 else 4
  leaderId := 1
  battle := a.battle
  challenge := a.chal
  v2 := a.v2
  episode := a.episode
  version := if a.version = .dcv2 ∧ a.v2 = 0 then .dcv1 else a.version
  minLevel := gameRequiredLevel a.difficulty
  maxLevel := 200
  maxChal := 0xFF
  flags := { singleplayer := a.singlePlayer }
  passwd := a.passwd

/-- The game that `lobby_create_ep3_game` sets up. -/
def newEp3Game (id : Nat) (passwd : String) (viewBattle : Nat) : Lobby where
  lobbyId := id
  type := .ep3Game
  maxClients := 4
  leaderId := 0
  battle := viewBattle
  episode := 3
  version := .ep3
  minLevel := 1
  maxLevel := 200
  passwd := passwd

/-- Allocate a lobby. -/
def Block.alloc (s : Block) (x : Lobby) : Block :=
  { s with lobby := update s.lobby s.fresh x, fresh := s.fresh + 1 }

/-- Put a game in the list, and count it. -/
def insertGame (s : Block) (l : LobbyRef) : Block :=
  { s with lobbies := s.lobbies ++ [l], numGames := s.numGames + 1 }

/-- `lobby_create_game`. Nothing is returned when the enemies cannot be loaded. -/
def lobbyCreateGame (env : Env) (s : Block) (a : GameArgs) : Block × Option LobbyRef :=
  let l := s.fresh
  let s := s.alloc (newGame (selectId s) a)
  if a.needsEnemies ∧ !env.loaded then ({ s with freed := l :: s.freed }, none)
  else (if a.listed then insertGame s l else s, some l)

/-- `lobby_create_ep3_game`. -/
def lobbyCreateEp3Game (s : Block) (passwd : String) (viewBattle : Nat) : Block × LobbyRef :=
  let l := s.fresh
  (insertGame (s.alloc (newEp3Game (selectId s) passwd viewBattle)) l, l)

/-! ## Joining a game -/

/-- `join_game`. -/
def joinGame (env : Env) (s : Block) (c : ClientRef) (l : LobbyRef) : Block × Int :=
  if (s.client c).flags.gcProtect then (s, -1) else lobbyChangeLobby env s c l

/-- Put the creator in a game, and destroy the game if that fails. -/
def joinCreated (env : Env) (s : Block) (c : ClientRef) (l : LobbyRef) : Block :=
  let result := joinGame env s c l
  if result.2 ≠ 0 then lobbyDestroyLocked result.1 l true else result.1

/-! ## The packets for creating a game -/

/-- What the packets for creating a game say, for all versions. -/
structure GameCreatePkt where
  passwd : String
  difficulty : Nat
  battle : Nat
  challenge : Nat
  version : Nat
  episode : Nat
  singlePlayer : Bool

/-- Whether the client may not create a game of this difficulty. -/
def Client.tooLow (y : Client) (difficulty : Nat) : Prop :=
  ¬y.flags.overrideGame ∧ (y.level + 1) % 2 ^ 32 < gameRequiredLevel difficulty

instance (y : Client) (difficulty : Nat) : Decidable (y.tooLow difficulty) :=
  inferInstanceAs (Decidable (¬_ ∧ _))

section Handlers

variable (y : Client) (pkt : GameCreatePkt)

def dcnteGame : GameArgs where
  passwd := pkt.passwd
  difficulty := 0
  battle := 0
  chal := 0
  v2 := 0
  version := y.version
  episode := 0
  singlePlayer := false

def dcGame : GameArgs where
  passwd := pkt.passwd
  difficulty := pkt.difficulty
  battle := pkt.battle
  chal := pkt.challenge
  v2 := pkt.version
  version := y.version
  episode := 0
  singlePlayer := false

def pcGame : GameArgs := { dcGame y pkt with v2 := 1 }

def gcGame : GameArgs := { dcGame y pkt with v2 := 0, episode := pkt.episode }

def bbGame : GameArgs :=
  { dcGame y pkt with v2 := 0, episode := pkt.episode, singlePlayer := pkt.singlePlayer }

/-- Create a game, and put the creator in it. -/
def createAndJoin (env : Env) (s : Block) (c : ClientRef) (a : GameArgs) : Block :=
  match lobbyCreateGame env s a with
  | (s, none) => s
  | (s, some l) => joinCreated env s c l

/-- `dcnte_process_game_create`. -/
def dcnteProcessGameCreate (env : Env) (s : Block) (c : ClientRef) : Block :=
  createAndJoin env s c (dcnteGame (s.client c) pkt)

/-- `dc_process_game_create`. -/
def dcProcessGameCreate (env : Env) (s : Block) (c : ClientRef) : Block :=
  if (s.client c).tooLow pkt.difficulty then s
  else createAndJoin env s c (dcGame (s.client c) pkt)

/-- `pc_process_game_create`. The client is asked which versions may join, unless the mode
or the difficulty decides that. -/
def pcProcessGameCreate (env : Env) (s : Block) (c : ClientRef) : Block :=
  if (s.client c).tooLow pkt.difficulty then s
  else
    match lobbyCreateGame env s (pcGame (s.client c) pkt) with
    | (s, none) => s
    | (s, some l) =>
        if pkt.battle = 0 ∧ pkt.challenge = 0 ∧ pkt.difficulty ≠ 3 then
          s.modifyClient c fun y => { y with createLobby := some l }
        else joinCreated env s c l

/-- `gc_process_game_create`. -/
def gcProcessGameCreate (env : Env) (s : Block) (c : ClientRef) : Block :=
  if (s.client c).tooLow pkt.difficulty then s
  else createAndJoin env s c (gcGame (s.client c) pkt)

/-- `bb_process_game_create`. -/
def bbProcessGameCreate (env : Env) (s : Block) (c : ClientRef) : Block :=
  if pkt.battle ≠ 0 ∨ pkt.challenge ≠ 0 then s
  else if (s.client c).tooLow pkt.difficulty then s
  else createAndJoin env s c (bbGame (s.client c) pkt)

/-- The handler for a packet that creates a game. -/
def processGameCreate (env : Env) (s : Block) (c : ClientRef) : Block :=
  if (s.client c).version = .bb then bbProcessGameCreate pkt env s c
  else if (s.client c).flags.isDcnte then dcnteProcessGameCreate pkt env s c
  else if (s.client c).version ≠ .pc ∧ (s.client c).version ≠ .gc then
    dcProcessGameCreate pkt env s c
  else if (s.client c).version = .pc then pcProcessGameCreate pkt env s c
  else gcProcessGameCreate pkt env s c

end Handlers

/-- `ep3_process_game_create`, which is not there for Blue Burst. -/
def ep3ProcessGameCreate (env : Env) (s : Block) (c : ClientRef) (passwd : String)
    (viewBattle : Nat) : Block :=
  if (s.client c).version = .bb then s
  else
    let result := lobbyCreateEp3Game s passwd viewBattle
    joinCreated env result.1 c result.2

/-! ## The other packets -/

/-- A waiting game after the answer which versions may join. -/
def answerGame (itemId : Nat) (x : Lobby) : Lobby :=
  if itemId = 0 then { x with v2 := 0, version := .dcv1 }
  else if itemId = 2 then { x with flags := { x.flags with pconly := true } }
  else x

/-- The choice of the game type in `process_menu`. -/
def processGameType (env : Env) (s : Block) (c : ClientRef) (itemId : Nat) : Block :=
  match (s.client c).createLobby with
  | none => s
  | some l =>
      let s := insertGame (s.modifyLobby l (answerGame itemId)) l
      joinCreated env (s.modifyClient c fun y => { y with createLobby := none }) c l

/-- The choice of a game in `process_menu`. -/
def processGameSelect (env : Env) (s : Block) (c : ClientRef) (itemId : Nat) (passwd : String) :
    Block :=
  match blockGetLobby s itemId with
  | none => s
  | some l =>
      if !(s.client c).flags.overrideGame ∧ (s.lobby l).passwd ≠ "" ∧ passwd ≠ (s.lobby l).passwd
      then s
      else (joinGame env s c l).1

/-- `process_change_lobby`. -/
def processChangeLobby (env : Env) (s : Block) (c : ClientRef) (itemId : Nat) : Block :=
  if (s.client c).flags.gcProtect then s
  else
    match blockGetLobby s itemId with
    | none => s
    | some req => (lobbyChangeLobby env s c req).1

/-- What `dc_process_char` and `bb_process_char` do about lobbies. -/
def processChar (env : Env) (s : Block) (c : ClientRef) (leaving : Bool) : Block :=
  if leaving then (lobbyRemovePlayer env s c).1
  else if (s.client c).curLobby = none then (lobbyAddToAny env s c none).getD s
  else s

/-- What the thread of the block does about a new connection. -/
def connect (s : Block) (c : ClientRef) (version : Version) : Block :=
  { s with
    clients := s.clients ++ [c], client := update s.client c (clientCreateConnection version) }

/-- `client_destroy_connection`. A game that waits for the client is in no list. -/
def clientDestroyConnection (s : Block) (c : ClientRef) : Block :=
  let s := { s with clients := s.clients.erase c }
  match (s.client c).createLobby with
  | none => s
  | some l => lobbyDestroyLocked s l false

/-- What the thread of the block does about a client that is disconnected. -/
def disconnect (env : Env) (s : Block) (c : ClientRef) : Block :=
  clientDestroyConnection (lobbyRemovePlayer env s c).1 c

/-- A packet of a client, or the beginning or the end of its connection, or a change that
other code makes to flags and to the player's data. -/
inductive Packet
  | connect (version : Version)
  | char (leaving : Bool)
  | gameCreate (pkt : GameCreatePkt)
  | ep3GameCreate (passwd : String) (viewBattle : Nat)
  | gameType (itemId : Nat)
  | gameSelect (itemId : Nat) (passwd : String)
  | changeLobby (itemId : Nat)
  | doneBurst
  | disconnect
  | setFlags (l : LobbyRef) (flags : LobbyFlags)
  | setClient (version : Version) (flags : ClientFlags) (level chClass : Nat) (times : Nat → Nat)

/-- A packet of a client in its environment. -/
abbrev Arrival := Env × ClientRef × Packet

/-- The block after a packet. -/
def process (s : Block) (e : Arrival) : Block :=
  let (env, c, packet) := e
  match packet with
  | .connect version => connect s c version
  | .char leaving => processChar env s c leaving
  | .gameCreate pkt => processGameCreate pkt env s c
  | .ep3GameCreate passwd viewBattle => ep3ProcessGameCreate env s c passwd viewBattle
  | .gameType itemId => processGameType env s c itemId
  | .gameSelect itemId passwd => processGameSelect env s c itemId passwd
  | .changeLobby itemId => processChangeLobby env s c itemId
  | .doneBurst => (dcProcessDoneBurst s c).1
  | .disconnect => disconnect env s c
  | .setFlags l flags => setFlags s l flags
  | .setClient version flags level chClass times =>
      setClient s c version flags level chClass times

/-- Packets come from clients that are connected, and a new connection has a new client. -/
def Arrives (s : Block) (e : Arrival) : Prop :=
  match e.2.2 with
  | .connect _ => e.2.1 ∉ s.clients
  | _ => e.2.1 ∈ s.clients

instance : (s : Block) → (e : Arrival) → Decidable (Arrives s e)
  | s, (_, c, .connect _) => inferInstanceAs (Decidable (c ∉ s.clients))
  | s, (_, c, .char _) => inferInstanceAs (Decidable (c ∈ s.clients))
  | s, (_, c, .gameCreate _) => inferInstanceAs (Decidable (c ∈ s.clients))
  | s, (_, c, .ep3GameCreate _ _) => inferInstanceAs (Decidable (c ∈ s.clients))
  | s, (_, c, .gameType _) => inferInstanceAs (Decidable (c ∈ s.clients))
  | s, (_, c, .gameSelect _ _) => inferInstanceAs (Decidable (c ∈ s.clients))
  | s, (_, c, .changeLobby _) => inferInstanceAs (Decidable (c ∈ s.clients))
  | s, (_, c, .doneBurst) => inferInstanceAs (Decidable (c ∈ s.clients))
  | s, (_, c, .disconnect) => inferInstanceAs (Decidable (c ∈ s.clients))
  | s, (_, c, .setFlags _ _) => inferInstanceAs (Decidable (c ∈ s.clients))
  | s, (_, c, .setClient _ _ _ _ _) => inferInstanceAs (Decidable (c ∈ s.clients))

end Sylverant.Ship
