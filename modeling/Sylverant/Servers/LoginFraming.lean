/-
# Packets of clients of the login server

The clients of the login server send their packets as one encrypted stream. A header is one word
of the cipher, and a packet takes whole words of it; the clients of the Dreamcast do not send
what is left of the last word. Whether a client that connects as a Dreamcast is one is told from
its first header: if that is not one of those that are expected, it is a Gamecube.

The ciphers are keystreams: a byte permutation for each position. The handlers accept all
packets; of what they do to a client only the change of its type has to do with reading.
-/

import Mathlib.Algebra.GroupWithZero.Nat
import Mathlib.Data.List.GetD
import Sylverant.Servers.Framing

namespace Sylverant.Servers

open Ship (le16 roundUp complete length_cryptData take_cryptData drop_cryptData cryptData_cancel)
open Socket (drain)

/-! ## The code -/

/-- `CRYPT_PC`, `CRYPT_GAMECUBE` and `CRYPT_BLUEBURST` -/
inductive CryptType
  | pc
  | gamecube
  | blueburst
deriving DecidableEq

/-- A cipher, and how much of it is used up. -/
structure Keystream where
  key : Nat → UInt8 → UInt8
  pos : Nat

/-- The fields `client_cipher` and `server_cipher`. -/
structure BothCiphers where
  client : Keystream
  server : Keystream

/-- What is received is decrypted with the cipher of the client. -/
def loginCiphers : Ciphers BothCiphers where
  cryptData k data :=
    ({ k with client := ⟨k.client.key, k.client.pos + data.length⟩ },
      Ship.cryptData k.client.key k.client.pos data)
  length_cryptData _ _ := length_cryptData ..

/-- The cipher of a type of client. -/
def cryptType : LoginType → CryptType
  | .dcnte | .dc | .pc => .pc
  | .gc | .ep3 => .gamecube
  | .bbLogin | .bbCharacter => .blueburst

variable {Seed σ : Type}

/-- The fields that `create_connection` sets, with what `CRYPT_CreateKeys` makes of the seeds. -/
def createConnection (createKeys : CryptType → Seed → Nat → UInt8 → UInt8) (type : LoginType)
    (clientSeed serverSeed : Seed) (handler : σ) : LoginConn BothCiphers σ where
  type := type
  gotFirst := false
  clientCipher :=
    ⟨⟨createKeys (cryptType type) clientSeed, 0⟩, ⟨createKeys (cryptType type) serverSeed, 0⟩⟩
  gamecubeKeys := ⟨⟨createKeys .gamecube clientSeed, 0⟩, ⟨createKeys .gamecube serverSeed, 0⟩⟩
  handler := handler

/-- The type of a client after a packet was accepted: that of the first login of a network trial
edition, and the one with which a Gamecube checks its license, tell the type. -/
def retype (type : LoginType) (pkt : List UInt8) : LoginType :=
  match type with
  | .bbLogin | .bbCharacter => type
  | .dcnte | .dc | .pc | .gc | .ep3 =>
      let pktType := if type = .pc then pkt.getD 2 0 else pkt.getD 0 0
      if pktType = 0x88 then .dcnte
      else if pktType = 0xDB then
        let version := pkt.getD 76 0
        if version ∈ [0x30, 0x31, 0x33, 0x34, 0x32, 0x35, 0x36, 0x39] then .gc
        else if version ∈ [0x40, 0x41, 0x42, 0x43] then .ep3
        else type
      else type

/-- Handlers that accept each packet. -/
def acceptingHandlers (handle : LoginType → σ → List UInt8 → σ) : LoginHandlers BothCiphers σ :=
  let accept := fun (conn : LoginConn BothCiphers σ) pkt =>
    ({ conn with
        type := retype conn.type pkt, handler := handle conn.type conn.handler pkt }, (0 : Int))
  ⟨accept, accept, accept⟩

/-- `read_from_client` with these handlers. -/
def acceptingReceiver (handle : LoginType → σ → List UInt8 → σ) :
    Receiver (LoginConn BothCiphers σ) :=
  loginReceiver loginCiphers (acceptingHandlers handle)

/-! ## What clients send -/

/-- The ways in which packets are framed. -/
inductive LoginFraming
  | dreamcast
  | pc
  | gamecube
  | blueburst
deriving DecidableEq

def framing : LoginType → LoginFraming
  | .dcnte | .dc => .dreamcast
  | .pc => .pc
  | .gc | .ep3 => .gamecube
  | .bbLogin | .bbCharacter => .blueburst

/-- The length field of a packet. -/
def loginLen (type : LoginType) (pkt : List UInt8) : Nat :=
  match framing type with
  | .dreamcast | .gamecube => le16 (pkt.getD 2 0) (pkt.getD 3 0)
  | .pc | .blueburst => le16 (pkt.getD 0 0) (pkt.getD 1 0)

/-- A packet as it is sent, before it is encrypted: it is at least a header, and padded to whole
headers but for a Dreamcast. -/
structure LoginPacket (type : LoginType) (pkt : List UInt8) : Prop where
  hdr_le : hdrSizes type ≤ loginLen type pkt
  length_eq : pkt.length =
    if framing type = .dreamcast then loginLen type pkt
    else roundUp (hdrSizes type) (loginLen type pkt)

/-- A packet that does not make the client one that frames its packets in another way. -/
def Native (type : LoginType) (pkt : List UInt8) : Prop := framing (retype type pkt) = framing type

/-- The packets as they are encrypted, one after the other. Each takes whole words. -/
def sent (enc : Nat → UInt8 → UInt8) (hs : Nat) : Nat → List (List UInt8) → List (List UInt8)
  | _, [] => []
  | pos, pkt :: pkts => Ship.cryptData enc pos pkt :: sent enc hs (pos + roundUp hs pkt.length) pkts

/-- How much of the cipher the packets take. -/
def words (hs : Nat) (pkts : List (List UInt8)) : Nat :=
  (pkts.map fun pkt => roundUp hs pkt.length).sum

/-- How a client speaks that connects as one of a type: a Dreamcast starts with one of the headers
that are expected, and a Gamecube that connects as a Dreamcast with one that looks like none of
them. -/
def Detected (createKeys : CryptType → Seed → Nat → UInt8 → UInt8) (enc : Nat → UInt8 → UInt8)
    (clientSeed : Seed) (type speaks : LoginType) (pkts : List (List UInt8)) : Prop :=
  if framing type = .dreamcast then
    (speaks = type ∧ ∀ pkt ∈ pkts.head?, expectedFirst (pkt.take 4) = true) ∨
      (speaks = .gc ∧ ∀ pkt ∈ pkts.head?,
        expectedFirst (Ship.cryptData (createKeys .pc clientSeed) 0
          (Ship.cryptData enc 0 (pkt.take 4))) = false)
  else speaks = type

/-- What the handlers were given, as much of it as was received. -/
def loginDelivered : Reading (LoginConn BothCiphers σ) → List (List UInt8)
  | .go c => c.handed.map fun h => h.pkt.take h.taken
  | .error c => c.handed.map fun h => h.pkt.take h.taken
  | .fault => []

/-- After the first header, both ciphers are those of the client, and what was read is taken from
the one for receiving. -/
def InStep (createKeys : CryptType → Seed → Nat → UInt8 → UInt8) (clientSeed serverSeed : Seed)
    (speaks : LoginType) (s : Reading (LoginConn BothCiphers σ)) : Prop :=
  match s with
  | .go c =>
      loginDelivered s ≠ [] ∨ c.pktSz ≠ 0 →
        c.conn.clientCipher.client =
          ⟨createKeys (cryptType speaks) clientSeed,
            words (hdrSizes speaks) (loginDelivered s) +
              if c.pktSz = 0 then 0 else hdrSizes speaks⟩ ∧
        c.conn.clientCipher.server = ⟨createKeys (cryptType speaks) serverSeed, 0⟩
  | _ => False

/-! ## Framings -/

section Framings

variable {type type' : LoginType} {pkt junk : List UInt8}

theorem hdrSizes_of_framing (h : framing type = framing type') :
    hdrSizes type = hdrSizes type' := by
  revert h
  cases type <;> cases type' <;> decide

theorem hdrSizes_eq (type : LoginType) : hdrSizes type = 4 ∨ hdrSizes type = 8 := by
  cases type <;> decide

theorem loginLen_of_framing (h : framing type = framing type') (pkt : List UInt8) :
    loginLen type pkt = loginLen type' pkt := by
  rw [loginLen, loginLen, h]

/-- The length is in the header. -/
theorem loginLen_take (type : LoginType) (pkt : List UInt8) :
    loginLen type (pkt.take (hdrSizes type)) = loginLen type pkt := by
  have hfront : ∀ i, i < 4 → (pkt.take (hdrSizes type)).getD i 0 = pkt.getD i 0 := by
    intro i hi
    have hlt : i < hdrSizes type := by
      rcases hdrSizes_eq type with hhs | hhs <;> omega
    rw [List.getD_eq_getElem?_getD, List.getD_eq_getElem?_getD, List.getElem?_take_of_lt hlt]
  unfold loginLen
  rw [hfront 0 (by decide), hfront 1 (by decide), hfront 2 (by decide), hfront 3 (by decide)]

theorem LoginPacket.hs_le (h : LoginPacket type pkt) : hdrSizes type ≤ pkt.length := by
  rw [h.length_eq]
  split
  · exact h.hdr_le
  · exact Nat.le_trans h.hdr_le (le_roundUp (hdrSizes_eq type))

/-- Types of one framing change to types of one framing. -/
theorem framing_retype_congr (h : framing type = framing type') (pkt : List UInt8) :
    framing (retype type pkt) = framing (retype type' pkt) := by
  cases type <;> cases type' <;> first
    | rfl
    | exact absurd h (by decide)
    | simp only [retype, reduceCtorEq, if_false]
      split_ifs <;> rfl

theorem Native.framing_retype (h : Native type' pkt) (hframing : framing type = framing type') :
    framing (retype type pkt) = framing type' := (framing_retype_congr hframing pkt).trans h

/-- What is behind a packet in its last word does not tell the type. -/
theorem retype_append (hle : 4 ≤ pkt.length)
    (hlen : pkt.length + junk.length ≤ (pkt.length + 3) / 4 * 4) (type : LoginType) :
    retype type (pkt ++ junk) = retype type pkt := by
  have hfront : ∀ i, i < pkt.length → (pkt ++ junk).getD i 0 = pkt.getD i 0 := by
    intro i hi
    rw [List.getD_eq_getElem?_getD, List.getD_eq_getElem?_getD, List.getElem?_append_left hi]
  have hversion : (pkt ++ junk).getD 76 0 = pkt.getD 76 0 := by
    by_cases hlong : 76 < pkt.length
    · exact hfront 76 hlong
    · rw [List.getD_eq_default _ _ (by rw [List.length_append]; omega),
        List.getD_eq_default _ _ (by omega)]
  unfold retype
  rw [hfront 0 (by omega), hfront 2 (by omega), hversion]

/-- A packet is native whatever is behind it in its last word. -/
theorem framing_retype_junk (h : Native type' pkt) (hframing : framing type = framing type')
    (hle : hdrSizes type' ≤ pkt.length)
    (hjunk : pkt.length + junk.length = roundUp (hdrSizes type') pkt.length) :
    framing (retype type (pkt ++ junk)) = framing type' := by
  by_cases hblueburst : framing type' = .blueburst
  · rw [← hframing] at hblueburst ⊢
    cases type with
    | bbLogin | bbCharacter => rfl
    | dcnte | dc | pc | gc | ep3 => cases hblueburst
  · have hhs : hdrSizes type' = 4 := by
      cases type' with
      | bbLogin | bbCharacter => exact absurd rfl hblueburst
      | dcnte | dc | pc | gc | ep3 => rfl
    rw [hhs] at hle hjunk
    rw [retype_append hle (Nat.le_of_eq hjunk)]
    exact h.framing_retype hframing

end Framings

/-! ## One packet -/

section Packet

variable {handle : LoginType → σ → List UInt8 → σ} {conn conn' : LoginConn BothCiphers σ}
  {K enc : Nat → UInt8 → UInt8} {S : Keystream} {speaks : LoginType} {pos : Nat}
  {pkt : List UInt8}

/-- A connection that has read a first header, and the ciphers of its client. -/
structure Ready (K : Nat → UInt8 → UInt8) (S : Keystream) (speaks : LoginType)
    (conn : LoginConn BothCiphers σ) (pos : Nat) : Prop where
  framing_eq : framing conn.type = framing speaks
  got : framing speaks = .dreamcast → conn.gotFirst = true
  ciphers : conn.clientCipher = ⟨⟨K, pos⟩, S⟩

theorem dreamcast_iff (type : LoginType) :
    type = .dc ∨ type = .dcnte ↔ framing type = .dreamcast := by
  cases type <;> decide

theorem pktLen_accepting (conn : LoginConn BothCiphers σ) (hdr : List UInt8) :
    (acceptingReceiver handle).pktLen conn hdr = loginLen conn.type hdr := by
  rw [loginLen, acceptingReceiver, loginReceiver]
  dsimp only
  cases conn.type <;> rfl

theorem exact_accepting (conn : LoginConn BothCiphers σ) :
    (acceptingReceiver handle).exact conn = decide (framing conn.type = .dreamcast) := by
  show (conn.type = .dc || conn.type = .dcnte) = _
  cases conn.type <;> rfl

theorem processPacket_accepting (conn : LoginConn BothCiphers σ) (pkt : List UInt8) :
    (acceptingReceiver handle).processPacket conn pkt =
      ({ conn with
          type := retype conn.type pkt, handler := handle conn.type conn.handler pkt }, 0) := by
  show (match conn.type with
    | .dcnte | .dc | .pc | .gc | .ep3 => (acceptingHandlers handle).processDcloginPacket conn pkt
    | .bbLogin => (acceptingHandlers handle).processBbloginPacket conn pkt
    | .bbCharacter => (acceptingHandlers handle).processBbcharacterPacket conn pkt) = _
  rcases conn with ⟨type, gotFirst, clientCipher, gamecubeKeys, handler⟩
  cases type <;> rfl

/-- A later header is decrypted where the stream is. -/
theorem Ready.readHeader (hkey : ∀ i b, K i (enc i b) = b) (h : Ready K S speaks conn pos)
    (hle : hdrSizes speaks ≤ pkt.length) :
    (acceptingReceiver handle).readHeader conn
        ((Ship.cryptData enc pos pkt).take (hdrSizes speaks)) =
      ({ conn with clientCipher := ⟨⟨K, pos + hdrSizes speaks⟩, S⟩ },
        pkt.take (hdrSizes speaks)) := by
  have hlater : ¬((conn.type = .dc ∨ conn.type = .dcnte) ∧ conn.gotFirst = false) := by
    rw [dreamcast_iff, h.framing_eq]
    rintro ⟨hdc, hfirst⟩
    rw [h.got hdc] at hfirst
    cases hfirst
  show conn.readHeader loginCiphers _ = _
  rw [LoginConn.readHeader, if_neg hlater, LoginConn.crypt]
  unfold loginCiphers
  dsimp only
  rw [h.ciphers, take_cryptData, cryptData_cancel hkey, length_cryptData,
    List.length_take_of_le hle]

/-- A packet is decrypted in two steps. Behind it is what is left of its last word. -/
theorem whole_packet (hkey : ∀ i b, K i (enc i b) = b) (hpkt : LoginPacket speaks pkt)
    (hhs : hdrSizes conn.type = hdrSizes speaks)
    (hheader : (acceptingReceiver handle).readHeader conn
      ((Ship.cryptData enc pos pkt).take (hdrSizes speaks)) = (conn', pkt.take (hdrSizes speaks)))
    (hready : Ready K S speaks conn' (pos + hdrSizes speaks)) :
    ∃ junk, pkt.length + junk.length = roundUp (hdrSizes speaks) pkt.length ∧
      whole (acceptingReceiver handle) conn (Ship.cryptData enc pos pkt) =
        ({ conn' with
            clientCipher := ⟨⟨K, pos + roundUp (hdrSizes speaks) pkt.length⟩, S⟩ },
          pkt ++ junk) := by
  have hle := hpkt.hs_le
  have hround : pkt.length ≤ roundUp (hdrSizes speaks) pkt.length := le_roundUp (hdrSizes_eq _)
  have hsize : (acceptingReceiver handle).hs conn = hdrSizes speaks := hhs
  unfold whole
  dsimp only
  rw [hsize, hheader, length_cryptData]
  by_cases hsmall : pkt.length = hdrSizes speaks
  · have hword : roundUp (hdrSizes speaks) pkt.length = hdrSizes speaks := by
      rw [hsmall, roundUp]
      rcases hdrSizes_eq speaks with hhs | hhs <;> rw [hhs]
    refine ⟨[], ?_, ?_⟩
    · rw [List.length_nil, hword, hsmall, Nat.add_zero]
    · rw [if_pos hsmall, hword, List.append_nil, ← hready.ciphers, ← hsmall, List.take_length]
  · rw [if_neg hsmall]
    refine ⟨Ship.cryptData K (pos + hdrSizes speaks + (pkt.length - hdrSizes speaks))
      (List.replicate (roundUp (hdrSizes speaks) pkt.length - pkt.length) 0), ?_, ?_⟩
    · rw [length_cryptData, List.length_replicate, Nat.add_sub_cancel' hround]
    · show ((conn'.crypt loginCiphers _).1, pkt.take (hdrSizes speaks) ++
        (conn'.crypt loginCiphers _).2) = _
      rw [LoginConn.crypt]
      unfold loginCiphers
      dsimp only
      rw [hready.ciphers, drop_cryptData, Ship.cryptData_append, cryptData_cancel hkey,
        List.length_append, length_cryptData, List.length_drop, List.length_replicate,
        ← List.append_assoc, List.take_append_drop]
      have hpos : pos + hdrSizes speaks + (pkt.length - hdrSizes speaks +
          (roundUp (hdrSizes speaks) pkt.length - pkt.length)) =
          pos + roundUp (hdrSizes speaks) pkt.length := by
        omega
      rw [hpos]

/-- A packet fits, and is passed on; the client goes on behind it. -/
theorem serve_packet (hkey : ∀ i b, K i (enc i b) = b) (hpkt : LoginPacket speaks pkt)
    (hnative : Native speaks pkt) (hhs : hdrSizes conn.type = hdrSizes speaks)
    (hheader : (acceptingReceiver handle).readHeader conn
      ((Ship.cryptData enc pos pkt).take (hdrSizes speaks)) = (conn', pkt.take (hdrSizes speaks)))
    (hready : Ready K S speaks conn' (pos + hdrSizes speaks)) :
    Fits (acceptingReceiver handle) conn (Ship.cryptData enc pos pkt) ∧
      (serve (acceptingReceiver handle) conn (Ship.cryptData enc pos pkt)).2 = 0 ∧
      Ready K S speaks (serve (acceptingReceiver handle) conn (Ship.cryptData enc pos pkt)).1
        (pos + roundUp (hdrSizes speaks) pkt.length) ∧
      (whole (acceptingReceiver handle) conn (Ship.cryptData enc pos pkt)).2.take pkt.length =
        pkt := by
  rcases whole_packet hkey hpkt hhs hheader hready with ⟨junk, hjunk, hwhole⟩
  have hsize : (acceptingReceiver handle).hs conn = hdrSizes speaks := hhs
  have hle := hpkt.hs_le
  have hlen : headerLen (acceptingReceiver handle) conn (Ship.cryptData enc pos pkt) =
      loginLen speaks pkt := by
    rw [headerLen, hsize, hheader]
    dsimp only
    rw [pktLen_accepting, loginLen_of_framing hready.framing_eq, loginLen_take]
  refine ⟨⟨?_, ?_⟩, ?_, ?_, ?_⟩
  · rw [hsize, hlen]
    exact hpkt.hdr_le
  · rw [hsize, hlen, hheader, length_cryptData]
    dsimp only
    rw [exact_accepting, hready.framing_eq, hpkt.length_eq]
    split <;> rename_i hdc <;> simp only [hdc, decide_true, decide_false, if_true, if_false,
      Bool.false_eq_true]
  · rw [serve, processPacket_accepting]
  · rw [serve, processPacket_accepting, hwhole]
    dsimp only
    constructor
    · exact framing_retype_junk hnative hready.framing_eq hle hjunk
    · exact hready.got
    · rfl
  · rw [hwhole]
    exact List.take_left' rfl

/-- The next header is read at a position of the stream, and makes a client that goes on. -/
def ReadsHeader (handle : LoginType → σ → List UInt8 → σ) (K enc : Nat → UInt8 → UInt8)
    (S : Keystream) (speaks : LoginType) (conn : LoginConn BothCiphers σ) (pos : Nat)
    (pkt : List UInt8) : Prop :=
  hdrSizes conn.type = hdrSizes speaks ∧
    ∃ conn', (acceptingReceiver handle).readHeader conn
        ((Ship.cryptData enc pos pkt).take (hdrSizes speaks)) =
          (conn', pkt.take (hdrSizes speaks)) ∧
      Ready K S speaks conn' (pos + hdrSizes speaks)

theorem Ready.readsHeader (hkey : ∀ i b, K i (enc i b) = b) (h : Ready K S speaks conn pos)
    (hle : hdrSizes speaks ≤ pkt.length) : ReadsHeader handle K enc S speaks conn pos pkt :=
  ⟨hdrSizes_of_framing h.framing_eq, _, h.readHeader hkey hle, h.framing_eq, h.got, rfl⟩

end Packet

/-! ## The first header -/

section First

variable {handle : LoginType → σ → List UInt8 → σ}
  {createKeys : CryptType → Seed → Nat → UInt8 → UInt8} {enc : Nat → UInt8 → UInt8}
  {type speaks : LoginType} {clientSeed serverSeed : Seed} {handler : σ}
  {pkt : List UInt8} {pkts : List (List UInt8)}

theorem hdrSizes_of_detected (h : Detected createKeys enc clientSeed type speaks pkts) :
    hdrSizes type = hdrSizes speaks := by
  unfold Detected at h
  split at h
  · rename_i hdc
    rcases h with ⟨rfl, -⟩ | ⟨rfl, -⟩
    · rfl
    · cases type <;> first | rfl | cases hdc
  · rw [h]

/-- The first header is read with the cipher of the client, whatever it connected as. -/
theorem readsHeader_first (hkey : ∀ i b, createKeys (cryptType speaks) clientSeed i (enc i b) = b)
    (h : Detected createKeys enc clientSeed type speaks (pkt :: pkts))
    (hle : hdrSizes speaks ≤ pkt.length) :
    ReadsHeader handle (createKeys (cryptType speaks) clientSeed) enc
      ⟨createKeys (cryptType speaks) serverSeed, 0⟩ speaks
      (createConnection createKeys type clientSeed serverSeed handler) 0 pkt := by
  have hhs := hdrSizes_of_detected h
  unfold Detected at h
  split at h
  · rename_i hdc
    have hfirst : ((createConnection createKeys type clientSeed serverSeed handler).type = .dc ∨
        (createConnection createKeys type clientSeed serverSeed handler).type = .dcnte) ∧
        (createConnection createKeys type clientSeed serverSeed handler).gotFirst = false :=
      ⟨(dreamcast_iff type).mpr hdc, rfl⟩
    have hpc : cryptType type = .pc := by
      cases type <;> first | rfl | cases hdc
    rcases h with ⟨rfl, haccepted⟩ | ⟨rfl, hstrange⟩
    · -- a Dreamcast: the header that is tried is kept
      have hsize : hdrSizes speaks = 4 := by
        cases speaks <;> first | rfl | cases hdc
      have htried : Ship.cryptData (createKeys (cryptType speaks) clientSeed) 0
          ((Ship.cryptData enc 0 pkt).take (hdrSizes speaks)) = pkt.take (hdrSizes speaks) := by
        rw [take_cryptData, cryptData_cancel hkey]
      refine ⟨hhs, { createConnection createKeys speaks clientSeed serverSeed handler with
        gotFirst := true
        clientCipher := ⟨⟨createKeys (cryptType speaks) clientSeed, 0 + hdrSizes speaks⟩,
          ⟨createKeys (cryptType speaks) serverSeed, 0⟩⟩ }, ?_, rfl, fun _ => rfl, rfl⟩
      show LoginConn.readHeader loginCiphers _ _ = _
      rw [LoginConn.readHeader, if_pos hfirst, LoginConn.crypt]
      unfold loginCiphers createConnection
      dsimp only
      rw [htried, if_pos (by rw [hsize]; exact haccepted pkt rfl), take_cryptData,
        length_cryptData, List.length_take_of_le hle]
    · -- a Gamecube: the header is read again with new keys
      refine ⟨hhs, { createConnection createKeys type clientSeed serverSeed handler with
        type := .gc
        clientCipher := ⟨⟨createKeys .gamecube clientSeed, 0 + hdrSizes .gc⟩,
          ⟨createKeys .gamecube serverSeed, 0⟩⟩ }, ?_, rfl, fun hdc => ?_, rfl⟩
      show LoginConn.readHeader loginCiphers _ _ = _
      rw [LoginConn.readHeader, if_pos hfirst, LoginConn.crypt, LoginConn.crypt]
      unfold loginCiphers createConnection
      dsimp only
      rw [take_cryptData, hpc]
      have hagain : expectedFirst (Ship.cryptData (createKeys .pc clientSeed) 0
          (Ship.cryptData enc 0 (pkt.take (hdrSizes .gc)))) = false := hstrange pkt rfl
      have hgamecube : ∀ i b, createKeys .gamecube clientSeed i (enc i b) = b := hkey
      rw [hagain, if_neg Bool.false_ne_true, cryptData_cancel hgamecube, length_cryptData,
        List.length_take_of_le hle]
      cases hdc
  · rename_i hother
    subst h
    apply Ready.readsHeader hkey _ hle
    exact ⟨rfl, fun hdc => absurd hdc hother, rfl⟩

end First

/-! ## Streams -/

section Streams

variable {handle : LoginType → σ → List UInt8 → σ} {conn : LoginConn BothCiphers σ}
  {K enc : Nat → UInt8 → UInt8} {S : Keystream} {speaks : LoginType} {pos : Nat}
  {pkts : List (List UInt8)}

/-- What is sent up to a packet is what the packets before it are sent as. -/
theorem sent_split {hs : Nat} {done next : List (List UInt8)}
    (h : sent enc hs pos pkts = done ++ next) :
    ∃ front back, pkts = front ++ back ∧ done = sent enc hs pos front ∧
      next = sent enc hs (pos + words hs front) back := by
  induction done generalizing pos pkts with
  | nil => exact ⟨[], pkts, rfl, rfl, h.symm⟩
  | cons w done ih =>
      cases pkts with
      | nil => cases h
      | cons pkt pkts =>
          rcases List.cons.inj h with ⟨hw, hrest⟩
          rcases ih hrest with ⟨front, back, rfl, hdone, hnext⟩
          refine ⟨pkt :: front, back, rfl, ?_, ?_⟩
          · rw [sent, hw, hdone]
          · rw [hnext, words, words, List.map_cons, List.sum_cons, Nat.add_assoc]

theorem length_flatten_sent (hs : Nat) (pkts : List (List UInt8)) :
    (sent enc hs pos pkts).flatten.length = pkts.flatten.length := by
  induction pkts generalizing pos with
  | nil => rfl
  | cons pkt pkts ih =>
      rw [sent, List.flatten_cons, List.flatten_cons, List.length_append, List.length_append, ih,
        length_cryptData]

/-- The packets of a client fit, are passed on as they were before they were encrypted, and leave
a client behind that goes on. -/
theorem frames_sent (hkey : ∀ i b, K i (enc i b) = b)
    (hpkts : ∀ pkt ∈ pkts, LoginPacket speaks pkt ∧ Native speaks pkt)
    (hfirst : ∀ pkt ∈ pkts.head?, ReadsHeader handle K enc S speaks conn pos pkt) :
    Frames (acceptingReceiver handle) conn (sent enc (hdrSizes speaks) pos pkts) ∧
      (served (acceptingReceiver handle) conn (sent enc (hdrSizes speaks) pos pkts)).map
        (fun h => h.pkt.take h.taken) = pkts ∧
      (pkts ≠ [] →
        Ready K S speaks
          (after (acceptingReceiver handle) conn (sent enc (hdrSizes speaks) pos pkts))
          (pos + words (hdrSizes speaks) pkts)) := by
  induction pkts generalizing conn pos with
  | nil => exact ⟨trivial, rfl, fun h => absurd rfl h⟩
  | cons pkt pkts ih =>
      rcases hpkts pkt List.mem_cons_self with ⟨hpkt, hnative⟩
      rcases hfirst pkt rfl with ⟨hhs, conn', hheader, hready⟩
      rcases serve_packet hkey hpkt hnative hhs hheader hready with ⟨hfits, hok, hon, htake⟩
      have hnext : ∀ next ∈ pkts.head?, ReadsHeader handle K enc S speaks
          (serve (acceptingReceiver handle) conn (Ship.cryptData enc pos pkt)).1
          (pos + roundUp (hdrSizes speaks) pkt.length) next := by
        intro next hnext
        have hmem : next ∈ pkts := List.mem_of_mem_head? hnext
        exact hon.readsHeader hkey (hpkts next (List.mem_cons_of_mem _ hmem)).1.hs_le
      rcases ih (fun next hmem => hpkts next (List.mem_cons_of_mem _ hmem)) hnext with
        ⟨hframes, hserved, hafter⟩
      refine ⟨⟨hfits, hok, hframes⟩, ?_, fun _ => ?_⟩
      · rw [sent, served, List.map_cons, hserved]
        dsimp only
        rw [length_cryptData, htake]
      · show Ready K S speaks (after _ (serve _ conn _).1 (sent enc _ _ pkts)) _
        rw [words, List.map_cons, List.sum_cons, ← Nat.add_assoc]
        by_cases hnil : pkts = []
        · rw [hnil]
          exact hon
        · exact hafter hnil

/-- The next header of a client is read where the packets before it end. -/
theorem readsHeader_next {front back : List (List UInt8)} (hkey : ∀ i b, K i (enc i b) = b)
    (hpkts : ∀ pkt ∈ front ++ back, LoginPacket speaks pkt ∧ Native speaks pkt)
    (hfirst : ∀ pkt ∈ (front ++ back).head?, ReadsHeader handle K enc S speaks conn pos pkt) :
    ∀ pkt ∈ back.head?, ReadsHeader handle K enc S speaks
      (after (acceptingReceiver handle) conn (sent enc (hdrSizes speaks) pos front))
      (pos + words (hdrSizes speaks) front) pkt := by
  intro pkt hhead
  cases front with
  | nil => exact hfirst pkt hhead
  | cons first front =>
      have hfront : ∀ pkt ∈ first :: front, LoginPacket speaks pkt ∧ Native speaks pkt :=
        fun pkt hmem => hpkts pkt (List.mem_append_left _ hmem)
      have hready := (frames_sent hkey hfront hfirst).2.2 (List.cons_ne_nil _ _)
      have hmem : pkt ∈ back := List.mem_of_mem_head? hhead
      exact hready.readsHeader hkey (hpkts pkt (List.mem_append_right _ hmem)).1.hs_le

end Streams

/-! ## Clients -/

section Clients

variable {handle : LoginType → σ → List UInt8 → σ}
  {createKeys : CryptType → Seed → Nat → UInt8 → UInt8} {enc : Nat → UInt8 → UInt8}
  {type speaks : LoginType} {clientSeed serverSeed : Seed} {handler : σ}
  {pkts front back : List (List UInt8)} {part rest : List UInt8}
  {c : ReadClient (LoginConn BothCiphers σ)}

theorem LoginPacket.ne_nil {pkt : List UInt8} (h : LoginPacket speaks pkt) : pkt ≠ [] := by
  rintro rfl
  have hle := h.hs_le
  rw [List.length_nil] at hle
  rcases hdrSizes_eq speaks with hhs | hhs <;> omega

/-- The first header of a client is read as it should be. -/
theorem readsHeader_start (hkey : ∀ i b, createKeys (cryptType speaks) clientSeed i (enc i b) = b)
    (hdetected : Detected createKeys enc clientSeed type speaks pkts)
    (hpkts : ∀ pkt ∈ pkts, LoginPacket speaks pkt ∧ Native speaks pkt) :
    ∀ pkt ∈ pkts.head?, ReadsHeader handle (createKeys (cryptType speaks) clientSeed) enc
      ⟨createKeys (cryptType speaks) serverSeed, 0⟩ speaks
      (createConnection createKeys type clientSeed serverSeed handler) 0 pkt := by
  intro pkt hhead
  cases pkts with
  | nil => cases hhead
  | cons first pkts =>
      obtain rfl : first = pkt := Option.some.inj hhead
      exact readsHeader_first hkey hdetected (hpkts first List.mem_cons_self).1.hs_le

/-- What holds of the first packet of a stream holds of the first of a front of it. -/
theorem head_front {P : List UInt8 → Prop} (h : ∀ pkt ∈ (front ++ back).head?, P pkt) :
    ∀ pkt ∈ front.head?, P pkt := by
  intro pkt hhead
  apply h pkt
  rw [List.head?_append, hhead]
  rfl

/-- The ciphers of a client in the middle of its stream are in step. -/
theorem inStep_of_inStream
    (hkey : ∀ i b, createKeys (cryptType speaks) clientSeed i (enc i b) = b)
    (hdetected : Detected createKeys enc clientSeed type speaks (front ++ back))
    (hpkts : ∀ pkt ∈ front ++ back, LoginPacket speaks pkt ∧ Native speaks pkt)
    (h : InStream (acceptingReceiver handle)
      (createConnection createKeys type clientSeed serverSeed handler) c
      (sent enc (hdrSizes speaks) 0 front)
      (sent enc (hdrSizes speaks) (0 + words (hdrSizes speaks) front) back) part rest)
    (hdelivered : loginDelivered (.go c) = front) :
    InStep createKeys clientSeed serverSeed speaks (.go c) := by
  have hfirst : ∀ pkt ∈ (front ++ back).head?,
      ReadsHeader handle (createKeys (cryptType speaks) clientSeed) enc
        ⟨createKeys (cryptType speaks) serverSeed, 0⟩ speaks
        (createConnection createKeys type clientSeed serverSeed handler) 0 pkt :=
    readsHeader_start hkey hdetected hpkts
  have hnext := readsHeader_next hkey hpkts hfirst
  intro hread
  rw [hdelivered] at hread ⊢
  -- between two packets, and in a header, the ciphers are where the last packet left them
  have hbetween : c.pktSz = 0 → c.conn = after (acceptingReceiver handle)
      (createConnection createKeys type clientSeed serverSeed handler)
      (sent enc (hdrSizes speaks) 0 front) →
      c.conn.clientCipher.client =
          ⟨createKeys (cryptType speaks) clientSeed,
            words (hdrSizes speaks) front + if c.pktSz = 0 then 0 else hdrSizes speaks⟩ ∧
        c.conn.clientCipher.server = ⟨createKeys (cryptType speaks) serverSeed, 0⟩ := by
    intro hsz hconn
    have hsome : front ≠ [] := hread.resolve_right fun hne => hne hsz
    have hfronts : ∀ pkt ∈ front, LoginPacket speaks pkt ∧ Native speaks pkt :=
      fun pkt hmem => hpkts pkt (List.mem_append_left _ hmem)
    have hready := (frames_sent hkey hfronts (head_front hfirst)).2.2 hsome
    rw [hconn, hready.ciphers, if_pos hsz, Nat.zero_add]
    exact ⟨rfl, rfl⟩
  cases h.holds with
  | idle hbuf hcur hsz hconn => exact hbetween hsz hconn
  | header buf hbuf hsz hcur hlen hsome hlt hfront hconn => exact hbetween hsz hconn
  | body w later heq hbuf hsz hcur hle hlt hconn =>
      cases back with
      | nil => cases heq
      | cons pkt back =>
          rcases List.cons.inj heq with ⟨rfl, -⟩
          rcases hnext pkt rfl with ⟨hhs, conn', hheader, hready⟩
          have hsome : c.pktSz ≠ 0 := by omega
          have hsize : (acceptingReceiver handle).hs (after (acceptingReceiver handle)
              (createConnection createKeys type clientSeed serverSeed handler)
              (sent enc (hdrSizes speaks) 0 front)) = hdrSizes speaks := hhs
          rw [hsize, hheader] at hconn
          rw [hconn, hready.ciphers, if_neg hsome, Nat.zero_add]
          exact ⟨rfl, rfl⟩

/-- However the stream of a client is received, the handlers are given its packets, each once and
in order, and the ciphers stay in step. A client that frames its packets as a Gamecube is told
from a Dreamcast before any of its bytes are used up. -/
theorem login_delivers (handle : LoginType → σ → List UInt8 → σ)
    (createKeys : CryptType → Seed → Nat → UInt8 → UInt8) (enc : Nat → UInt8 → UInt8)
    (type speaks : LoginType) (clientSeed serverSeed : Seed) (handler : σ)
    (pkts : List (List UInt8)) (stream later : List UInt8) (ns : List Nat)
    (hkey : ∀ i b, createKeys (cryptType speaks) clientSeed i (enc i b) = b)
    (hdetected : Detected createKeys enc clientSeed type speaks pkts)
    (hpkts : ∀ pkt ∈ pkts, LoginPacket speaks pkt ∧ Native speaks pkt)
    (hstream : stream ++ later = (sent enc (hdrSizes speaks) 0 pkts).flatten) :
    let R := acceptingReceiver handle
    let out := drain (frameAsk R) (frameNext R)
      (.go (.new (createConnection createKeys type clientSeed serverSeed handler))) stream ns
    Delivers pkts (stream.length - out.2.length) (loginDelivered out.1) (FrameIdle out.1) ∧
      InStep createKeys clientSeed serverSeed speaks out.1 ∧
      (stream.length ≤ ns.length → out.2 = []) := by
  have hfirst : ∀ pkt ∈ pkts.head?,
      ReadsHeader handle (createKeys (cryptType speaks) clientSeed) enc
        ⟨createKeys (cryptType speaks) serverSeed, 0⟩ speaks
        (createConnection createKeys type clientSeed serverSeed handler) 0 pkt :=
    readsHeader_start hkey hdetected hpkts
  have hframes := (frames_sent hkey hpkts hfirst).1
  intro R out
  rcases frames_deliver hframes hstream ns with
    ⟨⟨c, done, next, part, hs, hsplit, htaken, hin⟩, hall⟩
  rcases sent_split hsplit with ⟨front, back, rfl, rfl, rfl⟩
  have hfronts : ∀ pkt ∈ front, LoginPacket speaks pkt ∧ Native speaks pkt :=
    fun pkt hmem => hpkts pkt (List.mem_append_left _ hmem)
  have hdelivered : loginDelivered (.go c) = front := by
    show c.handed.map _ = front
    rw [hin.handed]
    exact (frames_sent hkey hfronts (head_front hfirst)).2.1
  have hstep : InStep createKeys clientSeed serverSeed speaks (.go c) :=
    inStep_of_inStream hkey hdetected hpkts hin hdelivered
  have hsome : ∀ pkt ∈ front ++ back, pkt ≠ [] := fun pkt hmem => (hpkts pkt hmem).1.ne_nil
  have hshort : ∀ pkt ∈ back.head?, part.length < pkt.length := by
    intro pkt hhead
    cases back with
    | nil => cases hhead
    | cons first back =>
        obtain rfl : first = pkt := Option.some.inj hhead
        have hlt := hin.holds.short hin.frames _ rfl
        rw [length_cryptData] at hlt
        exact hlt
  have hidle : FrameIdle (.go c) ↔ part.length = 0 := by
    constructor
    · rintro ⟨-, hcur, hsz⟩
      cases hin.holds with
      | idle hbuf hcur' hsz' hconn => rfl
      | header buf hbuf hsz' hcur' hlen hpart hlt hfront hconn => exact hcur'.symm.trans hcur
      | body w later heq hbuf hsz' hcur' hle hlt hconn => exact hcur'.symm.trans hcur
    · intro hpart
      cases hin.holds with
      | idle hbuf hcur hsz hconn => exact ⟨hbuf, hcur, hsz⟩
      | header buf hbuf hsz hcur hlen hsome' hlt hfront hconn =>
          exact absurd (List.length_eq_zero_iff.mp hpart) hsome'
      | body w later heq hbuf hsz hcur hle hlt hconn =>
          have hpos := (acceptingReceiver handle).hs_eq (after (acceptingReceiver handle)
            (createConnection createKeys type clientSeed serverSeed handler)
            (sent enc (hdrSizes speaks) 0 front))
          omega
  refine ⟨?_, ?_, hall⟩
  · rw [htaken, hs, hdelivered, length_flatten_sent]
    exact Delivers.of_part hsome hshort hidle
  · rw [hs]
    exact hstep

end Clients

/-! ## Examples -/

/-- Keys that leave the length of a packet as it is: a Gamecube turns its type and flags over. -/
def flipKeys (type : CryptType) (_ : Unit) (pos : Nat) (b : UInt8) : UInt8 :=
  if type = .gamecube then (if pos = 0 then b ^^^ 1 else b) else b ^^^ 2

theorem flipKeys_cancel (type : CryptType) (pos : Nat) (b : UInt8) :
    flipKeys type () pos (flipKeys type () pos b) = b := by
  have hflip : ∀ k : UInt8, b ^^^ k ^^^ k = b := fun k => by
    rw [UInt8.xor_assoc, UInt8.xor_self, UInt8.xor_zero]
  unfold flipKeys
  split_ifs
  · exact hflip 1
  · rfl
  · exact hflip 2

theorem loginPacket_of {type : LoginType} {pkt : List UInt8} (hdr_le : hdrSizes type ≤ pkt.length)
    (len_eq : loginLen type pkt = pkt.length)
    (whole : roundUp (hdrSizes type) pkt.length = pkt.length) :
    LoginPacket type pkt := by
  constructor
  · rw [len_eq]
    exact hdr_le
  · rw [len_eq, whole, ite_self]

/-- A Gamecube that connects as a Dreamcast, and sends two packets that arrive in pieces. -/
theorem login_delivers_gamecube :
    let pkts : List (List UInt8) := [[5, 0, 4, 0], [6, 0, 8, 0, 1, 2, 3, 4]]
    let out := drain (frameAsk (acceptingReceiver fun _ (_ : Unit) _ => ()))
      (frameNext (acceptingReceiver fun _ (_ : Unit) _ => ()))
      (.go (.new (createConnection flipKeys .dc () () ())))
      (sent (flipKeys .gamecube ()) 4 0 pkts).flatten [2, 0, 1, 3, 0]
    out.2.length = 3 ∧
      Delivers pkts (12 - out.2.length) (loginDelivered out.1) (FrameIdle out.1) ∧
      loginDelivered out.1 = [[5, 0, 4, 0]] := by
  have hpkts : ∀ pkt ∈ ([[5, 0, 4, 0], [6, 0, 8, 0, 1, 2, 3, 4]] : List (List UInt8)),
      LoginPacket .gc pkt ∧ Native .gc pkt := by
    intro pkt hmem
    rcases List.mem_cons.mp hmem with rfl | hmem
    · exact ⟨loginPacket_of (by decide) (by decide) (by decide), rfl⟩
    · obtain rfl := List.mem_singleton.mp hmem
      exact ⟨loginPacket_of (by decide) (by decide) (by decide), rfl⟩
  have hdetected : Detected flipKeys (flipKeys .gamecube ()) () .dc .gc
      [[5, 0, 4, 0], [6, 0, 8, 0, 1, 2, 3, 4]] :=
    .inr ⟨rfl, fun pkt hhead => by obtain rfl := Option.some.inj hhead; decide⟩
  have h := login_delivers (fun _ (_ : Unit) _ => ()) flipKeys (flipKeys .gamecube ()) .dc .gc
    () () () _ _ [] [2, 0, 1, 3, 0] (flipKeys_cancel .gamecube) hdetected hpkts (List.append_nil _)
  exact ⟨by decide, h.1, by decide⟩

/-- The first packet of a Dreamcast that none of the accepted headers starts is not delivered. -/
theorem not_login_delivers : ¬∀ (pkts : List (List UInt8)) (ns : List Nat),
    (∀ pkt ∈ pkts, LoginPacket .dc pkt) →
    let stream := (sent (flipKeys .pc ()) 4 0 pkts).flatten
    let out := drain (frameAsk (acceptingReceiver fun _ (_ : Unit) _ => ()))
      (frameNext (acceptingReceiver fun _ (_ : Unit) _ => ()))
      (.go (.new (createConnection flipKeys .dc () () ()))) stream ns
    Delivers pkts (stream.length - out.2.length) (loginDelivered out.1) (FrameIdle out.1) := by
  intro hall
  have hpkts : ∀ pkt ∈ ([[5, 0, 4, 0]] : List (List UInt8)), LoginPacket .dc pkt := by
    intro pkt hmem
    obtain rfl := List.mem_singleton.mp hmem
    exact loginPacket_of (by decide) (by decide) (by decide)
  have hdelivered := (hall [[5, 0, 4, 0]] [3] hpkts).delivered_eq
  exact absurd hdelivered (by decide)

end Sylverant.Servers
