/-
# The packets of the shipgate

The functions with which the shipgate sends packets to a ship, each as the list of packets
that it writes: one, or none where the function gives up first. A packet is what is passed to
the connection, as many bytes as are sent and not as many as its header tells.

The connection is blocking and takes all of a packet. What comes from the database, the names
and the texts are arguments, as is the message of the login packet.
-/

import Sylverant.Shipgate.Link

namespace Sylverant.Shipgate

/-! ## Bytes -/

/-- The bytes from an address on. What is behind a packet is there, too. -/
abbrev Mem := Nat → UInt8

/-- The memory that starts with the bytes. -/
def Mem.ofList (bytes : List UInt8) : Mem := fun i => bytes.getD i 0

def Mem.bytes (m : Mem) (offset len : Nat) : List UInt8 :=
  (List.range len).map fun i => m (offset + i)

/-- A field of 16 bits, in the byte order of the network. -/
def Mem.net16 (m : Mem) (offset : Nat) : Nat := 256 * (m offset).toNat + (m (offset + 1)).toNat

def Mem.net32 (m : Mem) (offset : Nat) : Nat := 65536 * m.net16 offset + m.net16 (offset + 2)

/-- A field of 16 bits, in the byte order of the games. -/
def Mem.le16 (m : Mem) (offset : Nat) : Nat := (m offset).toNat + 256 * (m (offset + 1)).toNat

/-- A number of 16 bits, in the byte order of the network. -/
def htons (n : Nat) : List UInt8 := [.ofNat (n / 256), .ofNat n]

def htonl (n : Nat) : List UInt8 := htons (n / 65536) ++ htons n

/-- A field of a size, with zeros behind what it holds. -/
def field (size : Nat) (bytes : List UInt8) : List UInt8 :=
  (bytes ++ List.replicate size 0).take size

theorem length_field (size : Nat) (bytes : List UInt8) : (field size bytes).length = size := by
  rw [field, List.length_take, List.length_append, List.length_replicate]
  omega

/-! ## Types of packets -/

def SHDR_RESPONSE : Nat := 0x8000
def SHDR_FAILURE : Nat := 0x4000

def SHDR_TYPE_DC : Nat := 0x0001
def SHDR_TYPE_BB : Nat := 0x0002
def SHDR_TYPE_PC : Nat := 0x0003
def SHDR_TYPE_LOGIN : Nat := 0x0010
def SHDR_TYPE_COUNT : Nat := 0x0011
def SHDR_TYPE_SSTATUS : Nat := 0x0012
def SHDR_TYPE_PING : Nat := 0x0013
def SHDR_TYPE_CDATA : Nat := 0x0014
def SHDR_TYPE_CREQ : Nat := 0x0015
def SHDR_TYPE_GMLOGIN : Nat := 0x0016
def SHDR_TYPE_GCBAN : Nat := 0x0017
def SHDR_TYPE_IPBAN : Nat := 0x0018
def SHDR_TYPE_BLKLOGIN : Nat := 0x0019
def SHDR_TYPE_FRLOGIN : Nat := 0x001B
def SHDR_TYPE_FRLOGOUT : Nat := 0x001C
def SHDR_TYPE_ADDFRIEND : Nat := 0x001D
def SHDR_TYPE_DELFRIEND : Nat := 0x001E
def SHDR_TYPE_KICK : Nat := 0x0021
def SHDR_TYPE_FRLIST : Nat := 0x0022
def SHDR_TYPE_GLOBALMSG : Nat := 0x0023
def SHDR_TYPE_USEROPT : Nat := 0x0024
def SHDR_TYPE_LOGIN6 : Nat := 0x0025
def SHDR_TYPE_BBOPTS : Nat := 0x0026
def SHDR_TYPE_CBKUP : Nat := 0x0028
def SHDR_TYPE_MKILL : Nat := 0x0029

def ERR_NO_ERROR : Nat := 0x00000000
def ERR_BAD_ERROR : Nat := 0x80000001
def ERR_GAME_UNK_PACKET : Nat := 0x00000001

/-! ## Sending -/

/-- The packet in the buffer: `len` bytes of it are sent. -/
def packet (len type flags : Nat) (body : List UInt8) : List UInt8 :=
  field len (htons len ++ htons type ++ [0, 0] ++ htons flags ++ body)

theorem length_packet (len type flags : Nat) (body : List UInt8) :
    (packet len type flags body).length = len := length_field ..

/-- Send a packet of a length that is at least a header (`send_crypt`). -/
def sendCrypt (len type flags : Nat) (body : List UInt8) : List (List UInt8) :=
  if len < 8 then [] else [packet len type flags body]

/-- The common part of the functions that forward a packet of a game, whose length is in its
header. -/
def forward (type : Nat) (innerLen : Nat) (inner : Mem) (sender gc block : Nat) :
    List (List UInt8) :=
  let fullLen := 24 + innerLen
  let fullLen := if fullLen &&& 0x07 ≠ 0 then (fullLen + 8) &&& 0xFFF8 else fullLen
  sendCrypt fullLen type 0
    (htonl sender ++ htonl 0 ++ htonl gc ++ htonl block ++ inner.bytes 0 innerLen)

def forwardDreamcast (dc : Mem) (sender gc block : Nat) : List (List UInt8) :=
  forward SHDR_TYPE_DC (dc.le16 2) dc sender gc block

/-- The length is looked for where a Dreamcast packet has it. -/
def forwardPc (pc : Mem) (sender gc block : Nat) : List (List UInt8) :=
  forward SHDR_TYPE_PC (pc.le16 2) pc sender gc block

def forwardBb (bb : Mem) (sender gc block : Nat) : List (List UInt8) :=
  forward SHDR_TYPE_BB (bb.le16 0) bb sender gc block

/-- Unlike the others, this one does not check for the size of a header. -/
def sendWelcome (loginMsg version gateNonce shipNonce : List UInt8) : List (List UInt8) :=
  [packet 64 SHDR_TYPE_LOGIN 0
    (field 45 loginMsg ++ field 3 version ++ field 4 gateNonce ++ field 4 shipNonce)]

/-- What others are told of a ship. -/
structure ShipInfo where
  name : List UInt8
  keyIdx : Nat
  flags : Nat
  remoteAddr : List UInt8
  remoteAddr6 : List UInt8
  port : Nat
  clients : Nat
  games : Nat
  menuCode : Nat
  shipNumber : UInt8

/-- A ship that has not finished logging in has no name yet. -/
def sendShipStatus (o : ShipInfo) (status : Nat) : List (List UInt8) :=
  if o.name.getD 0 0 = 0 then []
  else
    sendCrypt 64 SHDR_TYPE_SSTATUS 0
      (field 12 o.name ++ htonl o.keyIdx ++ htonl o.flags ++ field 4 o.remoteAddr ++
        field 16 o.remoteAddr6 ++ htons o.port ++ htons status ++ htons o.clients ++
        htons o.games ++ htons o.menuCode ++ [o.shipNumber])

def sendPing (reply : Bool) : List (List UInt8) :=
  sendCrypt 8 SHDR_TYPE_PING (if reply then SHDR_RESPONSE else 0) []

/-- The block stays in the byte order of the host. -/
def sendCdata (gc slot : Nat) (cdata : List UInt8) (block : Nat) : List (List UInt8) :=
  sendCrypt (20 + cdata.length) SHDR_TYPE_CREQ SHDR_RESPONSE
    (htonl gc ++ htonl slot ++ (htonl block).reverse ++ cdata)

def sendGmreply (gc block : Nat) (good : Bool) (p : UInt8) : List (List UInt8) :=
  sendCrypt 24 SHDR_TYPE_GMLOGIN (if good then SHDR_RESPONSE else SHDR_FAILURE)
    (htonl gc ++ htonl block ++ [p])

def sendCounts (shipId clients games : Nat) : List (List UInt8) :=
  sendCrypt 16 SHDR_TYPE_COUNT 0 (htons clients ++ htons games ++ htonl shipId)

/-- The size is kept in 16 bits, which are too few for the largest data that is let through. -/
def sendError (type flags err : Nat) (data : List UInt8) : List (List UInt8) :=
  if data.length > 65536 - 16 then []
  else sendCrypt ((16 + data.length) % 0x10000) type flags (htonl err ++ htonl 0 ++ data)

/-- Who has logged on or off, and who is told of it. -/
structure FriendMessage where
  destGc : Nat
  destBlock : Nat
  friendGc : Nat
  friendBlock : Nat
  friendShip : Nat
  friendName : List UInt8
  nickname : List UInt8

def sendFriendMessage (on : Bool) (m : FriendMessage) : List (List UInt8) :=
  sendCrypt 96 (if on then SHDR_TYPE_FRLOGIN else SHDR_TYPE_FRLOGOUT) 0
    (htonl m.destGc ++ htonl m.destBlock ++ htonl m.friendGc ++ htonl m.friendShip ++
      htonl m.friendBlock ++ htonl 0 ++ field 32 m.friendName ++ field 31 m.nickname)

def sendKick (requester user block : Nat) (reason : List UInt8) : List (List UInt8) :=
  sendCrypt 88 SHDR_TYPE_KICK 0
    (htonl requester ++ htonl 0 ++ htonl user ++ htonl block ++ field 64 reason)

/-- An entry of a friend list. -/
structure FriendlistData where
  guildcard : Nat
  ship : Nat
  block : Nat
  name : List UInt8

def FriendlistData.bytes (f : FriendlistData) : List UInt8 :=
  htonl f.guildcard ++ htonl f.ship ++ htonl f.block ++ htonl 0 ++ field 32 (f.name.take 31)

def sendFriendlist (requester block : Nat) (entries : List FriendlistData) : List (List UInt8) :=
  sendCrypt ((16 + 48 * entries.length) % 0x10000) SHDR_TYPE_FRLIST SHDR_RESPONSE
    (htonl requester ++ htonl block ++ (entries.map FriendlistData.bytes).flatten)

/-- More of the text is copied than its length. -/
def sendGlobalMsg (requester : Nat) (text : Mem) (textLen : Nat) : List (List UInt8) :=
  let len := (16 + textLen) % 0x10000
  sendCrypt len SHDR_TYPE_GLOBALMSG 0 (htonl requester ++ htonl 0 ++ text.bytes 0 len)

/-- An option, with padding to whole blocks of 8 bytes (`user_options_append`). -/
def userOption (opt : Nat) (data : List UInt8) : List UInt8 :=
  let padding := 8 - data.length % 8
  htonl opt ++ htonl (data.length + padding + 8) ++ data ++ List.replicate padding 0

/-- The options packet that was begun, appended to and finished. The number of options and
the length of the packet are counted on the way. -/
def sendUserOptions (gc block : Nat) (opts : List (Nat × List UInt8)) : List (List UInt8) :=
  let options := (opts.map fun o => userOption o.1 o.2).flatten
  if opts.length % 2 ^ 32 = 0 then []
  else
    sendCrypt ((24 + options.length) % 0x10000) SHDR_TYPE_USEROPT 0
      (htonl gc ++ htonl block ++ htonl opts.length ++ htonl 0 ++ options)

def sendBbOpts (gc block : Nat) (opts : List UInt8) : List (List UInt8) :=
  sendCrypt 4464 SHDR_TYPE_BBOPTS SHDR_RESPONSE (htonl gc ++ htonl block ++ field 4448 opts)

/-- A number of 32 bits, in the byte order of the games. -/
def le32 (n : Nat) : List UInt8 := (htonl n).reverse

def sendSimpleMail (keyIdx gc block sender : Nat) (name msg : List UInt8) : List (List UInt8) :=
  let pkt := [0x81, 0, 0x20, 0x02] ++ le32 0x00010000 ++ le32 sender ++ field 16 name ++
    le32 gc ++ field 0x200 (msg.take 0x90)
  forwardDreamcast (.ofList pkt) keyIdx gc block

end Sylverant.Shipgate
