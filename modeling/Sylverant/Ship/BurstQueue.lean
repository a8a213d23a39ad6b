/-
# Packets for members of a lobby, and those that wait for a burst

Packets with the types `0x62` and `0x6D` name the slot of the member that they are for,
in the flags of their header, and so does a packet that starts a trade, in its first
byte. While a member of a game bursts most packets of a game wait in a queue, with the
client that sent them, and are handled again when the burst is done.

Packets are the bytes that came in. What is read of a lobby by its handlers is recorded,
along with what they do. Locks are left out.
-/

import Sylverant.Ship.Block

namespace Sylverant.Ship.Targets

open Function (update)

/-! ## Packets -/

/-- A byte of a packet. -/
def byteAt (pkt : List UInt8) (i : Nat) : Nat := (pkt.getD i 0).toNat

/-- `pkt_type` in a `dc_pkt_hdr_t`. -/
def dcType (pkt : List UInt8) : Nat := byteAt pkt 0

/-- `flags` in a `dc_pkt_hdr_t`. -/
def dcFlags (pkt : List UInt8) : Nat := byteAt pkt 1

/-- `pkt_len` in a `dc_pkt_hdr_t`. -/
def dcLen (pkt : List UInt8) : Nat := byteAt pkt 2 + 256 * byteAt pkt 3

/-- `type` in a `subcmd_pkt_t`. -/
def dcSubcmd (pkt : List UInt8) : Nat := byteAt pkt 4

/-- `who` in a `gc_trade_pkt`. -/
def tradeWho (pkt : List UInt8) : Nat := byteAt pkt 4

/-- `pkt_type` in a `bb_pkt_hdr_t`. -/
def bbType (pkt : List UInt8) : Nat := byteAt pkt 2 + 256 * byteAt pkt 3

/-- `flags` in a `bb_pkt_hdr_t`. -/
def bbFlags (pkt : List UInt8) : Nat :=
  byteAt pkt 4 + 256 * (byteAt pkt 5 + 256 * (byteAt pkt 6 + 256 * byteAt pkt 7))

/-- The header of a packet as `dc_process_pkt` leaves it: that of a client for the PC is
put into the order of the others. -/
def toDcHeader (version : Version) : List UInt8 → List UInt8
  | lenLow :: lenHigh :: type :: flags :: pkt =>
      if version = .pc then type :: flags :: lenLow :: lenHigh :: pkt
      else lenLow :: lenHigh :: type :: flags :: pkt
  | pkt => pkt

/-- The constants `GAME_COMMAND0_TYPE`, `GAME_COMMAND2_TYPE`, `GAME_COMMANDD_TYPE` and
`TRADE_0_TYPE`. -/
def gameCommand0Type : Nat := 0x60

def gameCommand2Type : Nat := 0x62

def gameCommandDType : Nat := 0x6D

def trade0Type : Nat := 0xD0

/-- Whether a packet has one of the types that name a member. -/
def IsTargeted (type : Nat) : Prop := type = gameCommand2Type ∨ type = gameCommandDType

instance (type : Nat) : Decidable (IsTargeted type) := inferInstanceAs (Decidable (_ ∨ _))

/-- The subcommands for one member that are let through during a burst, from
`SUBCMD_BURST1` to `SUBCMD_BURST7`. -/
def burstSubcmds : List Nat := [0x6D, 0x6B, 0x6C, 0x6E, 0x6F, 0x71, 0x70]

/-- The subcommands for all members that are let through: `SUBCMD_LOAD_3B`,
`SUBCMD_BURST_DONE`, `SUBCMD_SET_AREA`, `SUBCMD_SET_POS_3F` and `SUBCMD_CMODE_GRAVE`. -/
def bcastBurstSubcmds : List Nat := [0x3B, 0x72, 0x1F, 0x3F, 0x7C]

/-! ## Lobbies -/

/-- What is read of the clients and the lobbies. The array of the members of a lobby has
`maxLobbyClients` slots, and what is behind it can be read as well. -/
structure Lobbies where
  curLobby : ClientRef → Option LobbyRef
  version : ClientRef → Version
  /-- `CLIENT_FLAG_IS_DCNTE` -/
  dcnte : ClientRef → Bool
  clients : LobbyRef → Nat → Option ClientRef
  /-- `LOBBY_FLAG_BURSTING` -/
  bursting : LobbyRef → Bool

/-- `LOBBY_MAX_CLIENTS`, the length of the array `clients`. -/
def maxLobbyClients : Nat := 12

/-- `lobby_pkt_t`. -/
structure Entry where
  src : ClientRef
  pkt : List UInt8

/-- The lobbies, and the queue `pkt_queue` of each of them. -/
structure State where
  lobbies : Lobbies
  queue : LobbyRef → List Entry := fun _ => []

/-- What a handler does. -/
inductive Action
  /-- An entry of `clients` is read, in the lobby that a client is in. -/
  | index (l : Option LobbyRef) (i : Nat)
  /-- A packet is sent to a member. -/
  | send (dest : ClientRef) (pkt : List UInt8)
  /-- A packet for a member is handled, as its subcommand says. -/
  | one (l : LobbyRef) (c dest : ClientRef) (pkt : List UInt8)
  /-- A packet for all members is handled, as its subcommand says. -/
  | bcast (l : LobbyRef) (c : ClientRef) (pkt : List UInt8)
  /-- A trade is passed on. -/
  | trade (c : ClientRef) (dest : Option ClientRef) (pkt : List UInt8)
  deriving DecidableEq

/-- The state after a call, what was done, and what was returned. -/
abbrev Outcome := State × List Action × Int

/-! ## The handlers

What comes of an action, such as sending a packet, is left to `rv`. -/

section Handlers

variable (rv : Action → Int)

/-- An action, with what it returns. -/
def act (s : State) (before : List Action) (a : Action) : Outcome := (s, before ++ [a], rv a)

/-- `lobby_enqueue_pkt`. -/
def lobbyEnqueuePkt (s : State) (l : LobbyRef) (c : ClientRef) (pkt : List UInt8) : State × Int :=
  if ¬s.lobbies.bursting l then (s, -1)
  else if ¬(dcType pkt = gameCommand0Type ∨ IsTargeted (dcType pkt)) then (s, -2)
  else
    ({ s with
        queue := update s.queue l (s.queue l ++ [{ src := c, pkt := pkt.take (dcLen pkt) }]) },
      0)

/-- `subcmd_handle_one`. -/
def subcmdHandleOne (s : State) (c : ClientRef) (pkt : List UInt8) : Outcome :=
  match s.lobbies.curLobby c with
  | none => (s, [], 0)
  | some l =>
      let find := [Action.index (some l) (dcFlags pkt)]
      match s.lobbies.clients l (dcFlags pkt) with
      | none => (s, find, 0)
      | some dest =>
          if s.lobbies.bursting l then
            if dcSubcmd pkt ∈ burstSubcmds then act rv s find (.send dest pkt)
            else
              let r := lobbyEnqueuePkt s l c pkt
              (r.1, find, r.2)
          else act rv s find (.one l c dest pkt)

/-- `subcmd_bb_handle_one`. -/
def subcmdBbHandleOne (s : State) (c : ClientRef) (pkt : List UInt8) : Outcome :=
  match s.lobbies.curLobby c with
  | none => (s, [], 0)
  | some l =>
      let find := [Action.index (some l) (bbFlags pkt)]
      match s.lobbies.clients l (bbFlags pkt) with
      | none => (s, find, 0)
      | some dest => act rv s find (.one l c dest pkt)

/-- `subcmd_handle_bcast`. What comes from the network test edition does not wait. -/
def subcmdHandleBcast (s : State) (c : ClientRef) (pkt : List UInt8) : Outcome :=
  match s.lobbies.curLobby c with
  | none => (s, [], 0)
  | some l =>
      if s.lobbies.dcnte c then act rv s [] (.bcast l c pkt)
      else if s.lobbies.bursting l then
        if dcSubcmd pkt ∈ bcastBurstSubcmds then act rv s [] (.bcast l c pkt)
        else
          let r := lobbyEnqueuePkt s l c pkt
          (r.1, [], r.2)
      else act rv s [] (.bcast l c pkt)

/-- `process_trade`. It does not check that the client is in a lobby. -/
def processTrade (s : State) (c : ClientRef) (pkt : List UInt8) : Outcome :=
  let l := s.lobbies.curLobby c
  let dest := l.bind fun l => s.lobbies.clients l (tradeWho pkt)
  act rv s [.index l (tradeWho pkt)] (.trade c dest pkt)

/-- `dc_process_pkt`, for the packets that are looked at here. -/
def dcProcessPkt (s : State) (c : ClientRef) (pkt : List UInt8) : Outcome :=
  let pkt := toDcHeader (s.lobbies.version c) pkt
  if dcType pkt = gameCommand0Type then subcmdHandleBcast rv s c pkt
  else if IsTargeted (dcType pkt) then subcmdHandleOne rv s c pkt
  else if dcType pkt = trade0Type then processTrade rv s c pkt
  else (s, [], 0)

/-- `bb_process_pkt`, for the packets that are looked at here. -/
def bbProcessPkt (s : State) (c : ClientRef) (pkt : List UInt8) : Outcome :=
  if IsTargeted (bbType pkt) then subcmdBbHandleOne rv s c pkt else (s, [], 0)

/-- A packet from a client of any version. -/
def processPkt (s : State) (c : ClientRef) (pkt : List UInt8) : Outcome :=
  if s.lobbies.version c = .bb then bbProcessPkt rv s c pkt else dcProcessPkt rv s c pkt

/-! ## The end of a burst -/

/-- What `lobby_handle_done_burst` does with a packet of the queue. -/
def replayEntry (s : State) (e : Entry) : Outcome :=
  if dcType e.pkt = gameCommand0Type then subcmdHandleBcast rv s e.src e.pkt
  else if IsTargeted (dcType e.pkt) then subcmdHandleOne rv s e.src e.pkt
  else (s, [], -1)

/-- The loop of `lobby_handle_done_burst` over the packets of the queue. Once one of them
has failed the others are only freed. -/
def replay : State → List Entry → Outcome
  | s, [] => (s, [], 0)
  | s, e :: es =>
      let r := replayEntry rv s e
      if r.2.2 ≠ 0 then (r.1, r.2.1, -1)
      else
        let rest := replay r.1 es
        (rest.1, r.2.1 ++ rest.2.1, rest.2.2)

/-- `lobby_handle_done_burst`, where the lobby does not burst any more. -/
def lobbyHandleDoneBurst (s : State) (l : LobbyRef) : Outcome :=
  replay rv { s with queue := update s.queue l [] } (s.queue l)

end Handlers

/-! ## Runs -/

/-- What happens to the lobbies. -/
inductive Event
  /-- Clients join, leave or change lobbies, or start to burst. -/
  | change (lobbies : Lobbies)
  | packet (c : ClientRef) (pkt : List UInt8)
  /-- The flag for a burst is taken from a lobby, and its queue is handled: a client is
  done, or leaves during its burst. -/
  | endBurst (l : LobbyRef)
  /-- A lobby is freed with its queue. -/
  | destroy (l : LobbyRef)

/-- The state after an event, and what was done. -/
def handle (rv : Action → Int) (s : State) : Event → Outcome
  | .change lobbies => ({ s with lobbies }, [], 0)
  | .packet c pkt => processPkt rv s c pkt
  | .endBurst l =>
      let lobbies := { s.lobbies with bursting := update s.lobbies.bursting l false }
      lobbyHandleDoneBurst rv { s with lobbies } l
  | .destroy l => ({ s with queue := update s.queue l [] }, [], 0)

/-- The state after an event. -/
def step (rv : Action → Int) (s : State) (e : Event) : State := (handle rv s e).1

end Sylverant.Ship.Targets
