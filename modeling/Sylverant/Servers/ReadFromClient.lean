/-
# Reading from clients of the patch and the login server

`read_from_client` reads one packet over several calls: a header first, then the body of
the size that the decrypted header tells. The functions of the two servers are the same but
for the header, the length that is kept, and the handlers, and are one definition here.

A call that would touch memory outside of a buffer ends in a fault. What `malloc` leaves in
a buffer is not specified; it is zero here. A failed allocation and the log file are left
out.
-/

import Sylverant.Library.Run
import Sylverant.Ship.Delivery

namespace Sylverant.Servers

open Ship (le16 roundUp)

/-! ## The code -/

/-- What a call of `recv` returns: it fails, or it returns bytes, at most as many as were
asked for. There are none when the client has closed the connection. -/
inductive Recv
  | fail
  | bytes (data : List UInt8)

/-- The bytes that are returned when `n` are asked for. -/
def Recv.ask (r : Recv) (n : Nat) : Option (List UInt8) :=
  match r with
  | .fail => none
  | .bytes data => some (data.take n)

/-- The ciphers, over the states of `CRYPT_SETUP`. They work in place. -/
structure Ciphers (γ : Type) where
  cryptData : γ → List UInt8 → γ × List UInt8
  length_cryptData : ∀ k data, (cryptData k data).2.length = data.length

/-- What the two servers do in their own way, over the fields `κ` of a client that are not
about buffers. -/
structure Receiver (κ : Type) where
  /-- The size of a header. -/
  hs : κ → Nat
  /-- Decrypt a header. -/
  readHeader : κ → List UInt8 → κ × List UInt8
  /-- The length field of a decrypted header. -/
  pktLen : κ → List UInt8 → Nat
  /-- Whether the length is kept as it is. Otherwise it is rounded up. -/
  exact : κ → Bool
  /-- Decrypt a body. -/
  cryptBody : κ → List UInt8 → κ × List UInt8
  /-- Pass a packet onto the correct handler. -/
  processPacket : κ → List UInt8 → κ × Int
  hs_eq : ∀ conn, hs conn = 4 ∨ hs conn = 8
  hs_readHeader : ∀ conn hdr, hs (readHeader conn hdr).1 = hs conn
  hs_cryptBody : ∀ conn data, hs (cryptBody conn data).1 = hs conn
  length_readHeader : ∀ conn hdr, (readHeader conn hdr).2.length = hdr.length
  length_cryptBody : ∀ conn data, (cryptBody conn data).2.length = data.length
  pktLen_lt : ∀ conn hdr, pktLen conn hdr < 0x10000

/-- A packet that a handler was given, the size of a header, and how many bytes were received
for it. -/
structure Handed where
  pkt : List UInt8
  hdr : Nat
  taken : Nat

/-- The fields of a client that reading uses. -/
structure ReadClient (κ : Type) where
  conn : κ
  recvbuf : Option (List UInt8)
  pktCur : Nat
  pktSz : Nat
  handed : List Handed
  /-- The number of bytes that were received since the last packet. -/
  taken : Nat

/-- How a call ends: it returns zero, it tells its caller to disconnect the client, or it
touches memory outside of the buffers. -/
inductive Reading (κ : Type)
  | go (c : ReadClient κ)
  | error (c : ReadClient κ)
  | fault

/-- Store bytes in a buffer, if there are none or they fit. -/
def store (buf : List UInt8) (pos : Nat) (data : List UInt8) : Option (List UInt8) :=
  if data = [] ∨ pos + data.length ≤ buf.length then
    some (buf.take pos ++ data ++ buf.drop (pos + data.length))
  else none

theorem le16_lt (low high : UInt8) : le16 low high < 0x10000 := by
  have hlow := low.toNat_lt
  have hhigh := high.toNat_lt
  rw [le16]
  omega

section Read

variable {κ : Type} (R : Receiver κ)

/-- Process the packet in the buffer, and free it. -/
def process (c : ReadClient κ) (buf : List UInt8) : Reading κ :=
  let result := R.processPacket c.conn buf
  let c : ReadClient κ :=
    { conn := result.1, recvbuf := none, pktCur := 0, pktSz := 0,
      handed := c.handed ++ [⟨buf, R.hs c.conn, c.taken⟩], taken := 0 }
  if result.2 = 0 then .go c else .error c

/-- The size of the buffer for a packet: the length, rounded up. -/
def allocSz (hs pktSz : Nat) : Nat :=
  if pktSz &&& (hs - 1) ≠ 0 then (pktSz &&& (0x10000 - hs)) + hs else pktSz

/-- The whole header is there: decrypt it, and allocate space for the packet. -/
def readHeader (c : ReadClient κ) (hdr : List UInt8) : Reading κ :=
  let hs := R.hs c.conn
  let conn := (R.readHeader c.conn hdr).1
  let hdr := (R.readHeader c.conn hdr).2
  let pktSz := R.pktLen conn hdr
  let sz := allocSz hs pktSz
  -- the header is copied into the buffer, which must not be smaller
  if sz < hs then .fault
  else
    let buf := hdr ++ List.replicate (sz - hs) 0
    let c : ReadClient κ :=
      { c with
        conn, recvbuf := some buf, pktCur := hs, pktSz := if R.exact conn then pktSz else sz }
    if pktSz = hs then process R c buf else .go c

/-- See if the rest of the packet is here. -/
def readBody (c : ReadClient κ) (buf : List UInt8) (r : Recv) : Reading κ :=
  let hs := R.hs c.conn
  -- a negative number of bytes is asked for and decrypted, as an unsigned one
  if c.pktSz < c.pktCur then .fault
  else
    match r.ask (c.pktSz - c.pktCur) with
    | none => .error c
    | some data =>
        match store buf c.pktCur data with
        | none => .fault
        | some buf =>
            if data.length < c.pktSz - c.pktCur then
              if data = [] then .error c
              else
                .go { c with
                  recvbuf := some buf, pktCur := c.pktCur + data.length,
                  taken := c.taken + data.length }
            else
              -- the ciphers work on whole blocks, of the size of a header
              let n := roundUp hs (c.pktSz - hs)
              if c.pktSz < hs ∨ buf.length < hs + n then .fault
              else
                let result := R.cryptBody c.conn ((buf.drop hs).take n)
                process R { c with conn := result.1, taken := c.taken + data.length }
                  (buf.take hs ++ result.2 ++ buf.drop (hs + n))

/-- `read_from_client`. -/
def readFromClient (c : ReadClient κ) (r : Recv) : Reading κ :=
  let hs := R.hs c.conn
  match c.recvbuf with
  | none =>
      -- read in a new header
      match r.ask hs with
      | none => .error c
      | some data =>
          if data.length < hs then
            if data = [] then .error c
            else
              .go { c with
                recvbuf := some (data ++ List.replicate (hs - data.length) 0),
                pktCur := data.length, taken := c.taken + data.length }
          else if c.pktSz = 0 then readHeader R { c with taken := c.taken + data.length } data
          else .fault
  | some buf =>
      if c.pktSz = 0 then
        -- try to finish reading the header
        match r.ask (hs - c.pktCur) with
        | none => .error c
        | some data =>
            match store buf c.pktCur data with
            | none => .fault
            | some buf =>
                if data.length < hs - c.pktCur then
                  if data = [] then .error c
                  else
                    .go { c with
                      recvbuf := some buf, pktCur := c.pktCur + data.length,
                      taken := c.taken + data.length }
                else if buf.length < hs then .fault
                else readHeader R { c with taken := c.taken + data.length } (buf.take hs)
      else readBody R c buf r

/-- The calls for one client, until it is disconnected. -/
def readStep (s : Reading κ) (r : Recv) : Reading κ :=
  match s with
  | .go c => readFromClient R c r
  | s => s

/-- A client that was just connected. -/
def ReadClient.new (conn : κ) : ReadClient κ where
  conn := conn
  recvbuf := none
  pktCur := 0
  pktSz := 0
  handed := []
  taken := 0

end Read

/-! ## The patch server -/

/-- The types of client that connect to the patch server to get packets. -/
inductive PatchType
  | pcPatch
  | pcData
  | bbPatch
  | bbData
  deriving DecidableEq

/-- `patch_client_t` without the buffers, and what the handlers use. -/
structure PatchConn (γ σ : Type) where
  type : PatchType
  clientCipher : γ
  handler : σ

/-- The packet handlers of the patch server. -/
structure PatchHandlers (σ : Type) where
  processPatchPacket : σ → List UInt8 → σ × Int
  processDataPacket : σ → List UInt8 → σ × Int

section Patch

variable {γ σ : Type} (ciphers : Ciphers γ)

/-- Decrypt with the cipher of a client. -/
def PatchConn.crypt (conn : PatchConn γ σ) (data : List UInt8) : PatchConn γ σ × List UInt8 :=
  let result := ciphers.cryptData conn.clientCipher data
  ({ conn with clientCipher := result.1 }, result.2)

/-- What `read_from_client` of the patch server does in its own way. -/
def patchReceiver (handlers : PatchHandlers σ) : Receiver (PatchConn γ σ) where
  hs _ := 4
  readHeader := PatchConn.crypt ciphers
  pktLen _ hdr := le16 (hdr.getD 0 0) (hdr.getD 1 0)
  exact _ := true
  cryptBody := PatchConn.crypt ciphers
  processPacket conn pkt :=
    let result :=
      match conn.type with
      | .pcPatch | .bbPatch => handlers.processPatchPacket conn.handler pkt
      | .pcData | .bbData => handlers.processDataPacket conn.handler pkt
    ({ conn with handler := result.1 }, result.2)
  hs_eq _ := .inl rfl
  hs_readHeader _ _ := rfl
  hs_cryptBody _ _ := rfl
  length_readHeader _ _ := ciphers.length_cryptData _ _
  length_cryptBody _ _ := ciphers.length_cryptData _ _
  pktLen_lt _ _ := le16_lt _ _

/-- `read_from_client` of the patch server. -/
def patchReadFromClient (handlers : PatchHandlers σ) :
    ReadClient (PatchConn γ σ) → Recv → Reading (PatchConn γ σ) :=
  readFromClient (patchReceiver ciphers handlers)

end Patch

/-! ## The login server -/

/-- The types of client of the login server. -/
inductive LoginType
  | dc
  | pc
  | gc
  | ep3
  | bbLogin
  | bbCharacter
  | dcnte
  deriving DecidableEq

/-- `hdr_sizes`. -/
def hdrSizes : LoginType → Nat
  | .bbLogin | .bbCharacter => 8
  | _ => 4

/-- `login_client_t` without the buffers, and what the handlers use. -/
structure LoginConn (γ σ : Type) where
  type : LoginType
  gotFirst : Bool
  clientCipher : γ
  /-- What `CRYPT_CreateKeys` makes of `client_key` for a Gamecube client. -/
  gamecubeKeys : γ
  handler : σ

/-- The packet handlers of the login server. They may change the type of a client, and with
it its cipher. -/
structure LoginHandlers (γ σ : Type) where
  processDcloginPacket : LoginConn γ σ → List UInt8 → LoginConn γ σ × Int
  processBbloginPacket : LoginConn γ σ → List UInt8 → LoginConn γ σ × Int
  processBbcharacterPacket : LoginConn γ σ → List UInt8 → LoginConn γ σ × Int

section Login

variable {γ σ : Type} (ciphers : Ciphers γ)

/-- Decrypt with the cipher of a client. -/
def LoginConn.crypt (conn : LoginConn γ σ) (data : List UInt8) : LoginConn γ σ × List UInt8 :=
  let result := ciphers.cryptData conn.clientCipher data
  ({ conn with clientCipher := result.1 }, result.2)

/-- The three packets that are expected from a Dreamcast client at first. -/
def expectedFirst (dc : List UInt8) : Bool :=
  let pktType := dc.getD 0 0
  let flags := dc.getD 1 0
  let len := le16 (dc.getD 2 0) (dc.getD 3 0)
  (pktType = 0x90 && flags = 0 && (len = 0x0028 || len = 0x0026)) ||
    (pktType = 0x9A && flags = 0 && len = 0x00E0) ||
    (pktType = 0x88 && flags = 0 && len = 0x0026)

/-- Decrypt a header. If a client says that it is a Dreamcast, make sure that it is. -/
def LoginConn.readHeader (conn : LoginConn γ σ) (hdr : List UInt8) :
    LoginConn γ σ × List UInt8 :=
  if (conn.type = .dc ∨ conn.type = .dcnte) ∧ conn.gotFirst = false then
    let tried := conn.crypt ciphers hdr
    if expectedFirst tried.2 then ({ tried.1 with gotFirst := true }, tried.2)
    else { conn with type := .gc, clientCipher := conn.gamecubeKeys }.crypt ciphers hdr
  else conn.crypt ciphers hdr

/-- A client of the Dreamcast and one of the Gamecube have headers of the same size. -/
theorem hdrSizes_readHeader (conn : LoginConn γ σ) (hdr : List UInt8) :
    hdrSizes (conn.readHeader ciphers hdr).1.type = hdrSizes conn.type := by
  rw [LoginConn.readHeader]
  split
  · rename_i hdc
    have hsize : hdrSizes conn.type = 4 := by
      rcases hdc.1 with htype | htype <;> rw [htype] <;> rfl
    dsimp only
    split
    · rfl
    · exact hsize.symm
  · rfl

theorem length_readHeader (conn : LoginConn γ σ) (hdr : List UInt8) :
    (conn.readHeader ciphers hdr).2.length = hdr.length := by
  rw [LoginConn.readHeader]
  split
  · dsimp only
    split
    · exact ciphers.length_cryptData _ _
    · exact ciphers.length_cryptData _ _
  · exact ciphers.length_cryptData _ _

/-- What `read_from_client` of the login server does in its own way. -/
def loginReceiver (handlers : LoginHandlers γ σ) : Receiver (LoginConn γ σ) where
  hs conn := hdrSizes conn.type
  readHeader := LoginConn.readHeader ciphers
  pktLen conn hdr :=
    match conn.type with
    | .dcnte | .dc | .gc | .ep3 => le16 (hdr.getD 2 0) (hdr.getD 3 0)
    | .pc | .bbLogin | .bbCharacter => le16 (hdr.getD 0 0) (hdr.getD 1 0)
  exact conn := conn.type = .dc || conn.type = .dcnte
  cryptBody := LoginConn.crypt ciphers
  processPacket conn pkt :=
    match conn.type with
    | .dcnte | .dc | .pc | .gc | .ep3 => handlers.processDcloginPacket conn pkt
    | .bbLogin => handlers.processBbloginPacket conn pkt
    | .bbCharacter => handlers.processBbcharacterPacket conn pkt
  hs_eq conn := by
    show hdrSizes conn.type = 4 ∨ hdrSizes conn.type = 8
    cases conn.type <;> decide
  hs_readHeader := hdrSizes_readHeader ciphers
  hs_cryptBody _ _ := rfl
  length_readHeader := length_readHeader ciphers
  length_cryptBody _ _ := ciphers.length_cryptData _ _
  pktLen_lt conn hdr := by
    cases conn.type with
    | pc | bbLogin | bbCharacter => exact le16_lt _ _
    | dc | gc | ep3 | dcnte => exact le16_lt _ _

/-- `read_from_client` of the login server. -/
def loginReadFromClient (handlers : LoginHandlers γ σ) :
    ReadClient (LoginConn γ σ) → Recv → Reading (LoginConn γ σ) :=
  readFromClient (loginReceiver ciphers handlers)

end Login

end Sylverant.Servers
