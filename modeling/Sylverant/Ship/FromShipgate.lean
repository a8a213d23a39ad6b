/-
# Packets of the shipgate that name a block

The handlers of a ship for the packets of the shipgate in which the block of a client is
given by its number, as lists of what they do: which entries of the array of blocks they look
at, which blocks they lock, which bytes their loops read from the packet, and what they change
of a client.

The packet is what is in memory from its header on, with anything behind it. A handler gets
the number of rounds that its loop may take. Texts are left out, as is the log file.
-/

import Sylverant.Library.TracedLoop
import Sylverant.Ship.ShipList
import Sylverant.Shipgate.Packets

namespace Sylverant.Ship.FromShipgate

open Shipgate

/-! ## The ship -/

/-- A client of a block, by its socket. -/
structure BlockClient where
  sock : Nat
  guildcard : Nat
deriving DecidableEq, Repr

/-- The blocks of a ship, as many as are configured: some may not have been started. -/
structure ShipState where
  blocks : Nat
  blocks_lt : blocks < 2 ^ 31
  started : Nat → Bool
  clients : Nat → List BlockClient
  ships : List MiniShip
  hasKey : Bool

def CLIENT_FLAG_DISCONNECTED : Nat := 0x00000010
def CLIENT_FLAG_LOGGED_IN : Nat := 0x00000100
def CLIENT_FLAG_AUTO_BACKUP : Nat := 0x00002000
def CLIENT_FLAG_GC_PROTECT : Nat := 0x00008000
def CLIENT_FLAG_TRACK_KILLS : Nat := 0x00040000

inductive Act
  /-- Look up an entry of the array of blocks. -/
  | index (i : Nat)
  /-- Lock a block, to go through its clients. -/
  | block (i : Nat)
  /-- Read bytes of the packet in a loop. -/
  | read (offset size : Nat)
  /-- Read a string of the packet in a loop, with the zero at its end. -/
  | string (offset : Nat)
  | addPrivilege (c : BlockClient) (priv : Nat)
  | setFlags (c : BlockClient) (flags : Nat)
  | clearFlags (c : BlockClient) (flags : Nat)
  | setQLang (c : BlockClient) (lang : Nat)
  | setJoinTime (c : BlockClient)
  | setBbOpts (c : BlockClient) (opts : List UInt8)
  /-- Send the client something. -/
  | send (c : BlockClient)
deriving DecidableEq, Repr

/-- `blocks[block - 1]`, with a number of 32 bits. -/
def blockIndex (block : Nat) : Nat := (block + (2 ^ 32 - 1)) % 2 ^ 32

/-- The check that most handlers make before they use a block. -/
def withBlock (s : ShipState) (block : Nat) (use : Nat → Option (List Act)) :
    Option (List Act) :=
  if block > s.blocks then some []
  else (use (blockIndex block)).map (.index (blockIndex block) :: ·)

/-- The check of the handlers that also look whether the block is there. -/
def withStarted (s : ShipState) (block : Nat) (use : Nat → Option (List Act)) :
    Option (List Act) :=
  if block > s.blocks then some []
  else if s.started (blockIndex block) then
    (use (blockIndex block)).map (.index (blockIndex block) :: ·)
  else some [.index (blockIndex block)]

/-- Lock the block, and do something for its first client with the guildcard. -/
def forClient (s : ShipState) (i gc : Nat) (use : BlockClient → Option (List Act)) :
    Option (List Act) :=
  match (s.clients i).find? fun c => c.guildcard == gc with
  | none => some [.block i]
  | some c => (use c).map (.block i :: ·)

/-! ## Handlers -/

def handleGmlogin (s : ShipState) (pkt : Mem) : Option (List Act) :=
  if pkt.net16 6 &&& SHDR_RESPONSE = 0 then some []
  else
    withBlock s (pkt.net32 12) fun i => forClient s i (pkt.net32 8) fun c =>
      some [.addPrivilege c (pkt 16).toNat, .setFlags c CLIENT_FLAG_LOGGED_IN,
        .clearFlags c CLIENT_FLAG_GC_PROTECT, .send c]

def handleGmloginErr (s : ShipState) (pkt : Mem) : Option (List Act) :=
  if pkt.net16 6 &&& SHDR_RESPONSE = 0 then some []
  else withBlock s (pkt.net32 20) fun i => forClient s i (pkt.net32 16) fun c => some [.send c]

/-- All clients with the guildcard are disconnected. -/
def handleBloginErr (s : ShipState) (pkt : Mem) : Option (List Act) :=
  withStarted s (pkt.net32 20) fun i =>
    let all := (s.clients i).filter fun c => c.guildcard == pkt.net32 16
    some (.block i :: all.map fun c => .setFlags c CLIENT_FLAG_DISCONNECTED)

def shipFindShip (s : ShipState) (sid : Nat) : Option MiniShip :=
  s.ships.find? fun i => i.shipId == sid

def handleFriend (s : ShipState) (pkt : Mem) : Option (List Act) :=
  withStarted s (pkt.net32 12) fun i =>
    match shipFindShip s (pkt.net32 20) with
    | none => some []
    | some _ => forClient s i (pkt.net32 8) fun c => some [.send c]

def handleKick (s : ShipState) (pkt : Mem) : Option (List Act) :=
  withBlock s (pkt.net32 20) fun i => forClient s i (pkt.net32 16) fun c =>
    some [.send c, .setFlags c CLIENT_FLAG_DISCONNECTED]

/-- A name is put into the message, unless the friend is on a ship that is not known. -/
def entryShown (s : ShipState) (pkt : Mem) (j : Nat) : Bool :=
  let ship := pkt.net32 (16 + 48 * j + 4)
  ship == 0 || pkt.net32 12 == 0 || (shipFindShip s ship).isSome

/-- One pass of the loop over the entries of a friend list, with the entry and what is left of
the packet. -/
def frlistPass (s : ShipState) (pkt : Mem) (loop : Nat × Int) : List Act × Option (Nat × Int) :=
  let (j, total) := loop
  if total = 0 then ([], none)
  else
    let entry := 16 + 48 * j
    let name : List Act := if entryShown s pkt j then [.string (entry + 16)] else []
    ([.read (entry + 4) 4, .read (entry + 8) 4, .read entry 4] ++ name, some (j + 1, total - 48))

def handleFrlist (rounds : Nat) (s : ShipState) (pkt : Mem) : Option (List Act) :=
  let total : Int := pkt.net16 0 - 16
  withBlock s (pkt.net32 12) fun i => forClient s i (pkt.net32 8) fun c =>
    (TracedLoop.run (frlistPass s pkt) rounds (0, total)).map (· ++ [.send c])

/-- What is done for an option at a place in the packet. -/
def useOption (pkt : Mem) (c : BlockClient) (opt : Nat) : List Act :=
  if pkt.net32 (opt + 4) ≠ 16 then []
  else
    let data := pkt (opt + 8)
    let read : Act := .read (opt + 8) 1
    match pkt.net32 opt with
    | 1 => [read, .setQLang c data.toNat]
    | 2 => if data ≠ 0 then [read, .setFlags c CLIENT_FLAG_AUTO_BACKUP] else [read]
    | 3 =>
        if data ≠ 0 then [read, .setFlags c CLIENT_FLAG_GC_PROTECT, .send c, .setJoinTime c]
        else [read]
    | 4 => if data ≠ 0 then [read, .setFlags c CLIENT_FLAG_TRACK_KILLS] else [read]
    | _ => []

/-- One pass of the loop over the options, of which the next one is at a place in the packet. -/
def useroptPass (pkt : Mem) (c : BlockClient) (opt : Nat) : List Act × Option Nat :=
  if opt < pkt.net16 0 then
    if pkt.net32 opt = 0 then ([.read opt 4], none)
    else
      ([.read opt 4, .read (opt + 4) 4] ++ useOption pkt c opt,
        some (opt + pkt.net32 (opt + 4)))
  else ([], none)

def handleUseropt (rounds : Nat) (s : ShipState) (pkt : Mem) : Option (List Act) :=
  withBlock s (pkt.net32 12) fun i => forClient s i (pkt.net32 8) fun c =>
    TracedLoop.run (useroptPass pkt c) rounds 24

/-- `sizeof(sylverant_bb_db_opts_t)` -/
def bbOptsSize : Nat := 4448

def handleBbopts (s : ShipState) (pkt : Mem) : Option (List Act) :=
  withBlock s (pkt.net32 12) fun i => forClient s i (pkt.net32 8) fun c =>
    some [.setBbOpts c (pkt.bytes 16 bbOptsSize), .send c]

/-- The field `gc_search` of the game packet, which starts behind 24 bytes of header and is in
the byte order of the games. -/
def gcSearch (pkt : Mem) : Nat := pkt.le16 (24 + 12) + 65536 * pkt.le16 (24 + 14)

def handleBbGreply (s : ShipState) (pkt : Mem) : Option (List Act) :=
  withStarted s (pkt.net32 20) fun i => forClient s i (gcSearch pkt) fun c => some [.send c]

/-! ## Which packet goes where -/

/-- The handlers that take the number of a block. -/
inductive Handler
  | gmlogin
  | gmloginErr
  | bloginErr
  | friend
  | kick
  | frlist
  | useropt
  | bbopts
  | bbGreply
deriving DecidableEq, Repr

def GUILD_REPLY_TYPE : Nat := 0x0041

/-- `handle_pkt` and `handle_bb`, which has only eight bits of the type. The packets of the
other types name no block. -/
def dispatch (s : ShipState) (pkt : Mem) : Option Handler :=
  let type := pkt.net16 2
  let flags := pkt.net16 6
  if !s.hasKey then none
  else if flags &&& SHDR_FAILURE ≠ 0 then
    if type = SHDR_TYPE_GMLOGIN then some .gmloginErr
    else if type = SHDR_TYPE_BLKLOGIN then some .bloginErr
    else none
  else if type = SHDR_TYPE_BB then
    if pkt.le16 (24 + 2) % 256 = GUILD_REPLY_TYPE then some .bbGreply else none
  else if type = SHDR_TYPE_GMLOGIN then some .gmlogin
  else if type = SHDR_TYPE_FRLOGIN ∨ type = SHDR_TYPE_FRLOGOUT then some .friend
  else if type = SHDR_TYPE_KICK then some .kick
  else if type = SHDR_TYPE_FRLIST then some .frlist
  else if type = SHDR_TYPE_USEROPT then
    if flags &&& (SHDR_RESPONSE ||| SHDR_FAILURE) ≠ 0 then none else some .useropt
  else if type = SHDR_TYPE_BBOPTS then some .bbopts
  else none

def Handler.handle (rounds : Nat) (s : ShipState) (pkt : Mem) : Handler → Option (List Act)
  | .gmlogin => handleGmlogin s pkt
  | .gmloginErr => handleGmloginErr s pkt
  | .bloginErr => handleBloginErr s pkt
  | .friend => handleFriend s pkt
  | .kick => handleKick s pkt
  | .frlist => handleFrlist rounds s pkt
  | .useropt => handleUseropt rounds s pkt
  | .bbopts => handleBbopts s pkt
  | .bbGreply => handleBbGreply s pkt

/-- Handle a packet, with at most so many rounds of a loop. -/
def handlePkt (rounds : Nat) (s : ShipState) (pkt : Mem) : Option (List Act) :=
  match dispatch s pkt with
  | none => some []
  | some h => h.handle rounds s pkt

end Sylverant.Ship.FromShipgate
