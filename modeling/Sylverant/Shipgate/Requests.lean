/-
# The requests of the ships

What the shipgate sends when a request of a ship comes in: to that ship, to another one, or to
all of them. What the database answers is an argument of each handler, and may be anything, as
may the request and what is behind it in memory.

Left out are the queries, the log file, and what the handlers change besides sending.
-/

import Sylverant.Shipgate.Packets

namespace Sylverant.Shipgate

/-- A packet, with the connection that it is written to. -/
abbrev Sent := Nat × List UInt8

/-- Write packets to a connection. -/
def sendTo (conn : Nat) (pkts : List (List UInt8)) : List Sent := pkts.map (conn, ·)

/-- A ship with its connection. -/
structure OnlineShip extends ShipInfo where
  conn : Nat

/-- How a request ends: nothing is said of it, or an error packet tells of the failure, or
there is something to send. -/
inductive Answer (α : Type)
  | silent
  | failure (err : Nat)
  | success (a : α)

/-- Answer with an error packet, which repeats a field behind the header of the request. -/
def answer (type failed size : Nat) (pkt : Mem) : Answer Unit → List (List UInt8)
  | .silent => []
  | .failure err => sendError type failed err (pkt.bytes 8 size)
  | .success () => sendError type SHDR_RESPONSE ERR_NO_ERROR (pkt.bytes 8 size)

/-- Answer a success with packets of its own. -/
def answerWith {α : Type} (type failed : Nat) (pkt : Mem) (send : α → List (List UInt8)) :
    Answer α → List (List UInt8)
  | .silent => []
  | .failure err => sendError type failed err (pkt.bytes 8 8)
  | .success a => send a

/-! ## Forwarded packets -/

/-- The game packet behind the header of a forwarded packet. -/
def Mem.inner (pkt : Mem) : Mem := fun i => pkt (24 + i)

/-- What the database has for a forwarded packet: whether a query fails, the ship that the
user is on who gets mail, and the ship that a guild search finds, with the rest of the reply. -/
structure Found where
  fails : Bool
  mailTo : Option Nat
  ip6Hi : Nat
  reply : Option (List UInt8)

/-- Mail goes to the ship of its recipient, if that is online. -/
def handleMail (forwardMail : Mem → Nat → Nat → Nat → List (List UInt8)) (c : OnlineShip)
    (pkt : Mem) (db : Found) : List Sent :=
  match db.mailTo with
  | none => []
  | some conn => sendTo conn (forwardMail pkt c.keyIdx 0 0)

def handleDcMail : OnlineShip → Mem → Found → List Sent := handleMail forwardDreamcast

def handlePcMail : OnlineShip → Mem → Found → List Sent := handleMail forwardPc

def handleBbMail : OnlineShip → Mem → Found → List Sent := handleMail forwardBb

def handleGuildSearch (c : OnlineShip) (db : Found) (flags : Nat) : List Sent :=
  match db.reply with
  | none => []
  | some rest =>
      let reply :=
        if flags &&& 0x00000001 ≠ 0 ∧ db.ip6Hi ≠ 0 then [0x41, 6, 0xD0, 0] ++ rest
        else [0x41, 0, 0xC4, 0] ++ rest
      sendTo c.conn (forwardDreamcast (.ofList reply) c.keyIdx 0 0)

def handleBbGuildSearch (c : OnlineShip) (pkt : Mem) (db : Found) : List Sent :=
  match db.reply with
  | none => []
  | some rest =>
      sendTo c.conn (forwardBb (.ofList ([0x30, 0x01, 0x41, 0] ++ rest)) c.keyIdx (pkt.net32 16)
        (pkt.net32 20))

/-- A handler of a Blue Burst packet of one length only, which is repeated when the query
fails. -/
def handleBbSized (size : Nat) (c : OnlineShip) (pkt : Mem) (fails : Bool) : List Sent :=
  let len := pkt.inner.le16 0
  if len ≠ size then []
  else if fails then
    sendTo c.conn (sendError SHDR_TYPE_BB (SHDR_RESPONSE ||| SHDR_FAILURE) ERR_BAD_ERROR
      (pkt.inner.bytes 0 len))
  else []

def handleBbGcadd : OnlineShip → Mem → Bool → List Sent := handleBbSized 0x0110

def handleBbGcdel : OnlineShip → Mem → Bool → List Sent := handleBbSized 0x000C

def handleBbGcsort : OnlineShip → Mem → Bool → List Sent := handleBbSized 0x0010

def handleBbBlacklistadd : OnlineShip → Mem → Bool → List Sent := handleBbSized 0x0110

def handleBbBlacklistdel : OnlineShip → Mem → Bool → List Sent := handleBbSized 0x000C

/-- The length of a comment, which is looked for past the end of the packet. -/
def commentLen (gc : Mem) : Nat :=
  ((List.range 0x88).takeWhile fun i => decide (gc.le16 (12 + 2 * i) ≠ 0)).length

/-- Of this packet, as many bytes are repeated as the comment has. They are in front of those
that the handler clears. -/
def handleBbSetComment (c : OnlineShip) (pkt : Mem) (fails : Bool) : List Sent :=
  if pkt.inner.le16 0 ≠ 0x00BC then []
  else if fails then
    sendTo c.conn (sendError SHDR_TYPE_BB (SHDR_RESPONSE ||| SHDR_FAILURE) ERR_BAD_ERROR
      (pkt.inner.bytes 0 ((commentLen pkt.inner + 1) * 2)))
  else []

/-- Warn the ship that sent the packet. -/
def unknownPacket (c : OnlineShip) (type : Nat) (pkt : Mem) (len : Nat) : List Sent :=
  sendTo c.conn (sendError type SHDR_FAILURE ERR_GAME_UNK_PACKET (pkt.bytes 0 len))

def GUILD_SEARCH_TYPE : Nat := 0x0040
def SIMPLE_MAIL_TYPE : Nat := 0x0081

def handleDreamcast (c : OnlineShip) (pkt : Mem) (db : Found) : List Sent :=
  let type := (pkt.inner 0).toNat
  if type = GUILD_SEARCH_TYPE then handleGuildSearch c db (pkt.net32 12)
  else if type = SIMPLE_MAIL_TYPE then handleDcMail c pkt.inner db
  else unknownPacket c SHDR_TYPE_DC pkt (pkt.net16 0)

/-- The type is looked for where a Dreamcast packet has it. -/
def handlePc (c : OnlineShip) (pkt : Mem) (db : Found) : List Sent :=
  let type := (pkt.inner 0).toNat
  if type = SIMPLE_MAIL_TYPE then handlePcMail c pkt.inner db
  else unknownPacket c SHDR_TYPE_PC pkt (pkt.net16 0)

/-- An unknown packet is repeated as far as the game packet is long, from the header in front
of it on. -/
def handleBb (c : OnlineShip) (pkt : Mem) (db : Found) : List Sent :=
  let type := pkt.inner.le16 2
  if type = 0x04E8 then handleBbGcadd c pkt db.fails
  else if type = 0x05E8 then handleBbGcdel c pkt db.fails
  else if type = 0x0AE8 then handleBbGcsort c pkt db.fails
  else if type = 0x07E8 then handleBbBlacklistadd c pkt db.fails
  else if type = 0x08E8 then handleBbBlacklistdel c pkt db.fails
  else if type = SIMPLE_MAIL_TYPE then handleBbMail c pkt.inner db
  else if type = GUILD_SEARCH_TYPE then handleBbGuildSearch c pkt db
  else if type = 0x09E8 then handleBbSetComment c pkt db.fails
  else unknownPacket c SHDR_TYPE_BB pkt (pkt.inner.le16 0)

/-! ## Other requests -/

/-- The new ship is told whether its login is accepted, and the ships are told of each
other. -/
def handleShipgateLogin6t (c : OnlineShip) (ships : List OnlineShip) : Answer Unit → List Sent
  | .silent => []
  | .failure err =>
      sendTo c.conn (sendError SHDR_TYPE_LOGIN6 (SHDR_RESPONSE ||| SHDR_FAILURE) err [])
  | .success () =>
      sendTo c.conn (sendError SHDR_TYPE_LOGIN6 SHDR_RESPONSE ERR_NO_ERROR []) ++
        ships.flatMap fun j =>
          sendTo j.conn (sendShipStatus c.toShipInfo 1) ++
            if j.conn ≠ c.conn then sendTo c.conn (sendShipStatus j.toShipInfo 1) else []

def handleCount (c : OnlineShip) (ships : List OnlineShip) (pkt : Mem) : List Sent :=
  ships.flatMap fun j => sendTo j.conn (sendCounts c.keyIdx (pkt.net16 8) (pkt.net16 10))

def handleCdata (c : OnlineShip) (pkt : Mem) (a : Answer Unit) : List Sent :=
  sendTo c.conn (answer SHDR_TYPE_CDATA (SHDR_RESPONSE ||| SHDR_FAILURE) 8 pkt a)

def handleCbkupReq (c : OnlineShip) (pkt : Mem) (a : Answer (List UInt8)) : List Sent :=
  sendTo c.conn (answerWith SHDR_TYPE_CBKUP (SHDR_RESPONSE ||| SHDR_FAILURE) pkt
    (fun data => sendCdata (pkt.net32 8) 0xFFFFFFFF data (pkt.net32 12)) a)

/-- Without data, this is a request for the backup. -/
def handleCbkup (c : OnlineShip) (pkt : Mem) (restored : Answer (List UInt8))
    (saved : Answer Unit) :
    List Sent :=
  if pkt.net16 0 = 48 then handleCbkupReq c pkt restored
  else sendTo c.conn (answer SHDR_TYPE_CBKUP (SHDR_RESPONSE ||| SHDR_FAILURE) 8 pkt saved)

def handleCreq (c : OnlineShip) (pkt : Mem) (a : Answer (List UInt8)) : List Sent :=
  sendTo c.conn (answerWith SHDR_TYPE_CREQ (SHDR_RESPONSE ||| SHDR_FAILURE) pkt
    (fun data => sendCdata (pkt.net32 8) (pkt.net32 12) data 0) a)

def handleGmlogin (c : OnlineShip) (pkt : Mem) (a : Answer UInt8) : List Sent :=
  sendTo c.conn (answerWith SHDR_TYPE_GMLOGIN SHDR_FAILURE pkt
    (fun priv => sendGmreply (pkt.net32 8) (pkt.net32 12) true priv) a)

def handleBan (c : OnlineShip) (pkt : Mem) (type : Nat) (a : Answer Unit) : List Sent :=
  sendTo c.conn (answer type SHDR_FAILURE 16 pkt a)

/-- A user who has someone in the friend list, and the ship that the user is on. -/
structure FriendRow where
  conn : Nat
  guildcard : Nat
  block : Nat
  nickname : List UInt8

/-- Tell the ships of those who have the user as a friend. -/
def tellFriends (on : Bool) (c : OnlineShip) (pkt : Mem) (name : List UInt8)
    (rows : List FriendRow) :
    List Sent :=
  rows.flatMap fun row =>
    sendTo row.conn (sendFriendMessage on {
      destGc := row.guildcard
      destBlock := row.block
      friendGc := pkt.net32 8
      friendBlock := pkt.net32 12
      friendShip := c.keyIdx
      friendName := name
      nickname := row.nickname })

/-- What the database has of a user who logs into a block. -/
structure BlockUser where
  name : List UInt8
  friends : List FriendRow
  options : List (Nat × List UInt8)
  mail : Option (List UInt8)

def handleBlocklogin (c : OnlineShip) (pkt : Mem) : Answer BlockUser → List Sent
  | .silent => []
  | .failure err =>
      sendTo c.conn (sendError SHDR_TYPE_BLKLOGIN SHDR_FAILURE err (pkt.bytes 8 8))
  | .success user =>
      tellFriends true c pkt user.name user.friends ++
        sendTo c.conn (sendUserOptions (pkt.net32 8) (pkt.net32 12) user.options) ++
        match user.mail with
        | none => []
        | some text =>
            sendTo c.conn (sendSimpleMail c.keyIdx (pkt.net32 8) (pkt.net32 12) 2
              [0x53, 0x79, 0x73, 0x2E, 0x4D, 0x65, 0x73, 0x73, 0x61, 0x67, 0x65] text)

def handleBlocklogout (c : OnlineShip) (pkt : Mem) (name : List UInt8) (rows : List FriendRow) :
    List Sent :=
  tellFriends false c pkt name rows

def handleFriendlistAdd (c : OnlineShip) (pkt : Mem) (a : Answer Unit) : List Sent :=
  sendTo c.conn (answer SHDR_TYPE_ADDFRIEND SHDR_FAILURE 8 pkt a)

def handleFriendlistDel (c : OnlineShip) (pkt : Mem) (a : Answer Unit) : List Sent :=
  sendTo c.conn (answer SHDR_TYPE_DELFRIEND SHDR_FAILURE 8 pkt a)

/-- The user is kicked from the ship and the block where the database has the user. -/
def handleKick (pkt : Mem) (reason : List UInt8) : Option (Nat × Nat) → List Sent
  | none => []
  | some (conn, block) => sendTo conn (sendKick (pkt.net32 8) (pkt.net32 16) block reason)

/-- At most five entries are fetched. -/
def handleFrlistReq (c : OnlineShip) (pkt : Mem) : Option (List FriendlistData) → List Sent
  | none => []
  | some rows => sendTo c.conn (sendFriendlist (pkt.net32 8) (pkt.net32 12) (rows.take 5))

/-- The text is terminated, and sent to all the ships if the requester is a GM. -/
def handleGlobalmsg (ships : List OnlineShip) (pkt : Mem) (isGm : Bool) : List Sent :=
  let textLen := (pkt.net16 0 + 0x10000 - 16) % 0x10000
  if pkt (16 + textLen - 1) ≠ 0 then []
  else if isGm then
    ships.flatMap fun i =>
      sendTo i.conn (sendGlobalMsg (pkt.net32 8) (fun k => pkt (16 + k)) textLen)
  else []

def handleUseropt (c : OnlineShip) (pkt : Mem) (a : Answer Unit) : List Sent :=
  sendTo c.conn (answer SHDR_TYPE_USEROPT SHDR_FAILURE 24 pkt a)

def handleBboptReq (c : OnlineShip) (pkt : Mem) (a : Answer (List UInt8)) : List Sent :=
  sendTo c.conn (answerWith SHDR_TYPE_BBOPTS SHDR_FAILURE pkt
    (fun opts => sendBbOpts (pkt.net32 8) (pkt.net32 12) opts) a)

/-- Nothing is said of a success. -/
def handleBbopts (c : OnlineShip) (pkt : Mem) (a : Answer Unit) : List Sent :=
  sendTo c.conn (answerWith SHDR_TYPE_BBOPTS SHDR_FAILURE pkt (fun _ => []) a)

/-- Which of its queries fails, if one does: only the first repeats 16 bytes. -/
def handleMkill (c : OnlineShip) (pkt : Mem) : Option Nat → List Sent
  | none => []
  | some query =>
      sendTo c.conn (sendError SHDR_TYPE_MKILL SHDR_FAILURE ERR_BAD_ERROR
        (pkt.bytes 8 (if query = 0 then 16 else 8)))

/-! ## Events -/

/-- A request, with what the database has for it. -/
inductive Request
  | login6 (a : Answer Unit)
  | count (pkt : Mem)
  | dc (pkt : Mem) (db : Found)
  | pc (pkt : Mem) (db : Found)
  | bb (pkt : Mem) (db : Found)
  | ping (pkt : Mem)
  | cdata (pkt : Mem) (a : Answer Unit)
  | creq (pkt : Mem) (a : Answer (List UInt8))
  | gmlogin (pkt : Mem) (a : Answer UInt8)
  | gcban (pkt : Mem) (a : Answer Unit)
  | ipban (pkt : Mem) (a : Answer Unit)
  | blklogin (pkt : Mem) (a : Answer BlockUser)
  | blklogout (pkt : Mem) (name : List UInt8) (rows : List FriendRow)
  | addfriend (pkt : Mem) (a : Answer Unit)
  | delfriend (pkt : Mem) (a : Answer Unit)
  | kick (pkt : Mem) (reason : List UInt8) (place : Option (Nat × Nat))
  | frlist (pkt : Mem) (rows : Option (List FriendlistData))
  | globalmsg (pkt : Mem) (isGm : Bool)
  | useropt (pkt : Mem) (a : Answer Unit)
  | bbopts (pkt : Mem) (a : Answer Unit)
  | bboptReq (pkt : Mem) (a : Answer (List UInt8))
  | cbkup (pkt : Mem) (restored : Answer (List UInt8)) (saved : Answer Unit)
  | mkill (pkt : Mem) (query : Option Nat)

/-- `process_ship_pkt`, for the types of packets to which the shipgate answers. -/
def processShipPkt (c : OnlineShip) (ships : List OnlineShip) : Request → List Sent
  | .login6 a => handleShipgateLogin6t c ships a
  | .count pkt => handleCount c ships pkt
  | .dc pkt db => handleDreamcast c pkt db
  | .pc pkt db => handlePc c pkt db
  | .bb pkt db => handleBb c pkt db
  | .ping pkt => if pkt.net16 6 &&& SHDR_RESPONSE = 0 then sendTo c.conn (sendPing true) else []
  | .cdata pkt a => handleCdata c pkt a
  | .creq pkt a => handleCreq c pkt a
  | .gmlogin pkt a => handleGmlogin c pkt a
  | .gcban pkt a => handleBan c pkt SHDR_TYPE_GCBAN a
  | .ipban pkt a => handleBan c pkt SHDR_TYPE_IPBAN a
  | .blklogin pkt a => handleBlocklogin c pkt a
  | .blklogout pkt name rows => handleBlocklogout c pkt name rows
  | .addfriend pkt a => handleFriendlistAdd c pkt a
  | .delfriend pkt a => handleFriendlistDel c pkt a
  | .kick pkt reason place => handleKick pkt reason place
  | .frlist pkt rows => handleFrlistReq c pkt rows
  | .globalmsg pkt isGm => handleGlobalmsg ships pkt isGm
  | .useropt pkt a => handleUseropt c pkt a
  | .bbopts pkt a => handleBbopts c pkt a
  | .bboptReq pkt a => handleBboptReq c pkt a
  | .cbkup pkt restored saved => handleCbkup c pkt restored saved
  | .mkill pkt query => handleMkill c pkt query

/-- What makes the shipgate send something: a ship connects, a ship is asked whether it is
still there, a connection is destroyed, or a request comes in. -/
inductive Event
  | connect (conn : Nat) (loginMsg version gateNonce shipNonce : List UInt8)
  | quiet (conn : Nat)
  | gone (c : OnlineShip) (ships : List OnlineShip)
  | request (c : OnlineShip) (ships : List OnlineShip) (r : Request)

/-- What is sent at an event. -/
def Event.sent : Event → List Sent
  | .connect conn loginMsg version gateNonce shipNonce =>
      sendTo conn (sendWelcome loginMsg version gateNonce shipNonce)
  | .quiet conn => sendTo conn (sendPing false)
  | .gone c ships =>
      if c.keyIdx ≠ 0 then
        ships.flatMap fun i => sendTo i.conn (sendShipStatus c.toShipInfo 0)
      else []
  | .request c ships r => processShipPkt c ships r

/-- The packets that are written to a connection. -/
def emitted (conn : Nat) (events : List Event) : List (List UInt8) :=
  ((events.flatMap Event.sent).filter fun s => decide (s.1 = conn)).map Prod.snd

end Sylverant.Shipgate
