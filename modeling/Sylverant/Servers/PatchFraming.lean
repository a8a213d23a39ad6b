/-
# Packets of patch clients

However the stream of a patch client arrives, its packets are decrypted once and handed to
their handlers each once and in order. The cipher is a keystream: a byte permutation for each
position. It is consumed in whole blocks, as all packets are made of them.
-/

import Sylverant.Servers.ClientHeaders
import Sylverant.Servers.PacketStream

namespace Sylverant.Servers

open Ship (le16 roundUp length_cryptData cryptData_append take_cryptData drop_cryptData
  cryptData_cancel)
open Socket (drain)

/-- A packet as a patch client sends it: at least a header, and whole blocks of 4 bytes. -/
structure PatchPacket (pkt : List UInt8) : Prop where
  hdr_le : 4 ≤ pkt.length
  blocks : pkt.length % 4 = 0
  length_eq : le16 (pkt.getD 0 0) (pkt.getD 1 0) = pkt.length

/-- A keystream. Its state is the position. -/
def keystream (key : Nat → UInt8 → UInt8) : Ciphers Nat where
  cryptData pos data := (pos + data.length, Ship.cryptData key pos data)
  length_cryptData := length_cryptData key

/-- The handler for the packets of a type of client. -/
def PatchHandlers.process {σ : Type} (handlers : PatchHandlers σ) (type : PatchType) :
    σ → List UInt8 → σ × Int :=
  match type with
  | .pcPatch | .bbPatch => handlers.processPatchPacket
  | .pcData | .bbData => handlers.processDataPacket

section Framing

variable {σ : Type} (key : Nat → UInt8 → UInt8) (handlers : PatchHandlers σ)

/-- How much a call asks for. -/
def patchAsk : Reading (PatchConn Nat σ) → Nat
  | .go c =>
      match c.recvbuf with
      | none => 4
      | some _ => if c.pktSz = 0 then 4 - c.pktCur else c.pktSz - c.pktCur
  | _ => 0

/-- A call for the bytes that arrive. -/
def patchNext (s : Reading (PatchConn Nat σ)) (data : List UInt8) : Reading (PatchConn Nat σ) :=
  match s with
  | .go c => patchReadFromClient (keystream key) handlers c (.bytes data)
  | s => s

/-- Nothing is left over. -/
def PatchIdle : Reading (PatchConn Nat σ) → Prop
  | .go c => c.recvbuf = none ∧ c.pktCur = 0 ∧ c.pktSz = 0
  | _ => False

/-- The packets that were delivered. -/
def patchDelivered : Reading (PatchConn Nat σ) → List (List UInt8)
  | .go c => c.handed.map Handed.pkt
  | .error c => c.handed.map Handed.pkt
  | .fault => []

variable {key handlers}

/-- The part of a packet that a client keeps, by how far it got. -/
inductive Keeps (pos : Nat) (next : List (List UInt8)) (c : ReadClient (PatchConn Nat σ)) :
    List UInt8 → Prop
  | idle (hbuf : c.recvbuf = none) (hcur : c.pktCur = 0) (hsz : c.pktSz = 0)
      (hpos : c.conn.clientCipher = pos) : Keeps pos next c []
  | header {part : List UInt8} (buf : List UInt8) (hbuf : c.recvbuf = some buf) (hsz : c.pktSz = 0)
      (hcur : c.pktCur = part.length) (hlen : buf.length = 4) (hpos' : part ≠ [])
      (hlt : part.length < 4) (hfront : buf.take part.length = part)
      (hpos : c.conn.clientCipher = pos) : Keeps pos next c part
  | body {part : List UInt8} (buf pkt : List UInt8) (later : List (List UInt8))
      (hnext : next = pkt :: later) (hbuf : c.recvbuf = some buf)
      (hsz : c.pktSz = pkt.length) (hcur : c.pktCur = part.length)
      (hlen : buf.length = pkt.length) (hle : 4 ≤ part.length) (hlt : part.length < pkt.length)
      (hfront : buf.take part.length = pkt.take 4 ++ part.drop 4)
      (hpos : c.conn.clientCipher = pos + 4) : Keeps pos next c part

/-- Where the calls are in the stream of a client: the packets that were delivered, those that
are still to come, and the part of the next one that is kept. -/
structure Follows (key enc : Nat → UInt8 → UInt8) (handlers : PatchHandlers σ) (type : PatchType)
    (c : ReadClient (PatchConn Nat σ)) (pos : Nat) (whole next : List (List UInt8))
    (part rest : List UInt8) : Prop where
  delivered : c.handed.map Handed.pkt = whole
  type_eq : c.conn.type = type
  accepts : Accepts (handlers.process type) c.conn.handler next
  packets : ∀ pkt ∈ next, PatchPacket pkt
  stream : part ++ rest = Ship.cryptData enc pos next.flatten
  keeps : Keeps pos next c part

/-- A client is at a position of its stream, where `rest` is still to come. -/
def Reads (key enc : Nat → UInt8 → UInt8) (handlers : PatchHandlers σ) (type : PatchType)
    (pkts : List (List UInt8)) (s : Reading (PatchConn Nat σ)) (rest : List UInt8) : Prop :=
  ∃ c pos whole next part, s = .go c ∧ pkts = whole ++ next ∧
    Follows key enc handlers type c pos whole next part rest

variable {enc : Nat → UInt8 → UInt8} {type : PatchType} {c : ReadClient (PatchConn Nat σ)}
  {pos : Nat} {whole next : List (List UInt8)} {pkt part data rest : List UInt8}

/-- Less than a packet is kept. -/
theorem Keeps.short (h : Keeps pos next c part) (hpackets : ∀ pkt ∈ next, PatchPacket pkt) :
    ∀ pkt ∈ next.head?, part.length < pkt.length := by
  intro pkt hpkt
  have hhdr := (hpackets pkt (List.mem_of_mem_head? hpkt)).hdr_le
  cases h with
  | idle hbuf hcur hsz hpos =>
      rw [List.length_nil]
      omega
  | header buf hbuf hsz hcur hlen hpos' hlt hfront hpos => omega
  | body buf first later hnext hbuf hsz hcur hlen hle hlt hfront hpos =>
      rw [hnext] at hpkt
      obtain rfl : first = pkt := Option.some.inj hpkt
      exact hlt

/-- What is in front of a stream is the front of its first packet. -/
theorem front_eq {a b : List UInt8}
    (hstream : a ++ b = Ship.cryptData enc pos (pkt :: next).flatten)
    (hle : a.length ≤ pkt.length) : a = (Ship.cryptData enc pos pkt).take a.length := by
  rw [List.flatten_cons, cryptData_append] at hstream
  have htake := congrArg (List.take a.length) hstream
  rw [List.take_left' rfl,
    List.take_append_of_le_length (by rw [length_cryptData]; exact hle)] at htake
  exact htake

/-- Behind the first packet of a stream is the rest of it. -/
theorem rest_eq {a b : List UInt8} (hstream : a ++ b = Ship.cryptData enc pos (pkt :: next).flatten)
    (hlen : a.length = pkt.length) : b = Ship.cryptData enc (pos + pkt.length) next.flatten := by
  rw [List.flatten_cons, cryptData_append] at hstream
  exact (List.append_inj hstream (by rw [length_cryptData, hlen])).2

/-- A packet that its handler accepts leaves nothing over. -/
theorem follows_process (hdelivered : c.handed.map Handed.pkt = whole) (htype : c.conn.type = type)
    (haccepts : Accepts (handlers.process type) c.conn.handler (pkt :: next))
    (hpackets : ∀ p ∈ next, PatchPacket p) (hpos : c.conn.clientCipher = pos)
    (hstream : rest = Ship.cryptData enc pos next.flatten) :
    ∃ c', process (patchReceiver (keystream key) handlers) c pkt = .go c' ∧
      Follows key enc handlers type c' pos (whole ++ [pkt]) next [] rest := by
  obtain ⟨hok, hmore⟩ := haccepts
  have hresult : (patchReceiver (keystream key) handlers).processPacket c.conn pkt =
      ({ c.conn with handler := (handlers.process type c.conn.handler pkt).1 },
        (handlers.process type c.conn.handler pkt).2) := by
    show (let result := match c.conn.type with
        | .pcPatch | .bbPatch => handlers.processPatchPacket c.conn.handler pkt
        | .pcData | .bbData => handlers.processDataPacket c.conn.handler pkt
      (({ c.conn with handler := result.1 } : PatchConn Nat σ), result.2)) = _
    rw [htype]
    cases type <;> rfl
  refine ⟨{
    conn := { c.conn with handler := (handlers.process type c.conn.handler pkt).1 },
    recvbuf := none, pktCur := 0, pktSz := 0, handed := c.handed ++ [⟨pkt, 4, c.taken⟩],
    taken := 0 }, ?_, ?_, ?_, ?_, hpackets, hstream, ?_⟩
  · unfold process
    rw [hresult]
    exact if_pos hok
  · rw [← hdelivered]
    exact List.map_append
  · exact htype
  · exact hmore
  · exact .idle rfl rfl rfl hpos

variable (handlers) in
/-- A header that is complete starts its packet, or is all of it. -/
theorem readHeader_packet (hkey : ∀ i b, key i (enc i b) = b) (hpkt : PatchPacket pkt)
    (hpos : c.conn.clientCipher = pos) :
    readHeader (patchReceiver (keystream key) handlers) c
        ((Ship.cryptData enc pos pkt).take 4) =
      let c' : ReadClient (PatchConn Nat σ) :=
        { c with
          conn := { c.conn with clientCipher := pos + 4 },
          recvbuf := some (pkt.take 4 ++ List.replicate (pkt.length - 4) 0), pktCur := 4,
          pktSz := pkt.length }
      if pkt.length = 4 then
        process (patchReceiver (keystream key) handlers) c'
          (pkt.take 4 ++ List.replicate (pkt.length - 4) 0)
      else .go c' := by
  have hhdr := hpkt.hdr_le
  have hblocks := hpkt.blocks
  have hdecrypt : (patchReceiver (keystream key) handlers).readHeader c.conn
      ((Ship.cryptData enc pos pkt).take 4) =
      ({ c.conn with clientCipher := pos + 4 }, pkt.take 4) := by
    show (({ c.conn with clientCipher := c.conn.clientCipher +
      ((Ship.cryptData enc pos pkt).take 4).length } : PatchConn Nat σ),
      Ship.cryptData key c.conn.clientCipher ((Ship.cryptData enc pos pkt).take 4)) = _
    have hlen : ((Ship.cryptData enc pos pkt).take 4).length = 4 := by
      rw [List.length_take, length_cryptData]
      omega
    rw [hlen, hpos, take_cryptData, cryptData_cancel hkey]
  have hlen : (patchReceiver (keystream key) handlers).pktLen
      { c.conn with clientCipher := pos + 4 } (pkt.take 4) = pkt.length := by
    rw [← hpkt.length_eq]
    show le16 ((pkt.take 4).getD 0 0) ((pkt.take 4).getD 1 0) = _
    simp [List.getD_eq_getElem?_getD]
  have hlt : pkt.length < 0x10000 := by
    rw [← hpkt.length_eq]
    exact le16_lt _ _
  have hround : allocSz 4 pkt.length = pkt.length := by
    rw [allocSz_eq (.inl rfl) hlt, roundUp]
    omega
  unfold readHeader
  dsimp only
  rw [hdecrypt]
  dsimp only
  have hhs : (patchReceiver (keystream key) handlers).hs c.conn = 4 := rfl
  rw [hlen, hhs, hround, if_neg (by omega)]
  rfl

/-- A client goes on in its stream when a header is complete. -/
theorem reads_readHeader (hkey : ∀ i b, key i (enc i b) = b) {hdr : List UInt8}
    (hdelivered : c.handed.map Handed.pkt = whole) (htype : c.conn.type = type)
    (haccepts : Accepts (handlers.process type) c.conn.handler (pkt :: next))
    (hpackets : ∀ p ∈ pkt :: next, PatchPacket p) (hpos : c.conn.clientCipher = pos)
    (hstream : hdr ++ rest = Ship.cryptData enc pos (pkt :: next).flatten) (hlen : hdr.length = 4) :
    Reads key enc handlers type (whole ++ pkt :: next)
      (readHeader (patchReceiver (keystream key) handlers) c hdr) rest := by
  have hpkt := hpackets pkt (List.mem_cons_self ..)
  have hhdr := hpkt.hdr_le
  have hfront : hdr = (Ship.cryptData enc pos pkt).take 4 := by
    rw [← hlen]
    exact front_eq hstream (by omega)
  have hread := readHeader_packet handlers hkey hpkt hpos
  rw [← hfront] at hread
  by_cases hsmall : pkt.length = 4
  · have hall : pkt.take 4 ++ List.replicate (pkt.length - 4) 0 = pkt := by
      rw [hsmall, Nat.sub_self, List.replicate_zero, List.append_nil, ← hsmall, List.take_length]
    rw [hread]
    dsimp only
    rw [if_pos hsmall, hall]
    have hrest := rest_eq hstream (hlen.trans hsmall.symm)
    rw [hsmall] at hrest
    obtain ⟨c', hprocess, hfollows⟩ :
        ∃ c', process (patchReceiver (keystream key) handlers)
            { c with
              conn := { c.conn with clientCipher := pos + 4 }, recvbuf := some pkt, pktCur := 4,
              pktSz := pkt.length } pkt = .go c' ∧
          Follows key enc handlers type c' (pos + 4) (whole ++ [pkt]) next [] rest :=
      follows_process hdelivered htype haccepts
        (fun p hp => hpackets p (List.mem_cons_of_mem _ hp)) rfl hrest
    exact ⟨c', _, _, _, _, hprocess, by rw [List.append_assoc, List.singleton_append], hfollows⟩
  · rw [hread]
    dsimp only
    rw [if_neg hsmall]
    refine ⟨_, pos, whole, pkt :: next, hdr, rfl, rfl, hdelivered, htype, haccepts, hpackets,
      hstream, ?_⟩
    refine .body _ pkt next rfl rfl rfl hlen.symm ?_ (Nat.le_of_eq hlen.symm) (by omega) ?_ rfl
    · rw [List.length_append, List.length_take, List.length_replicate]
      omega
    · have htake : (pkt.take 4).length = 4 := by
        rw [List.length_take]
        omega
      rw [hlen, List.take_left' htake, List.drop_eq_nil_of_le (Nat.le_of_eq hlen),
        List.append_nil]

/-- A client goes on in its stream when more of a body arrives. -/
theorem reads_readBody (hkey : ∀ i b, key i (enc i b) = b) {buf : List UInt8}
    (hdelivered : c.handed.map Handed.pkt = whole) (htype : c.conn.type = type)
    (haccepts : Accepts (handlers.process type) c.conn.handler (pkt :: next))
    (hpackets : ∀ p ∈ pkt :: next, PatchPacket p)
    (hstream : part ++ (data ++ rest) = Ship.cryptData enc pos (pkt :: next).flatten)
    (hsz : c.pktSz = pkt.length) (hcur : c.pktCur = part.length) (hlen : buf.length = pkt.length)
    (hle : 4 ≤ part.length) (hlt : part.length < pkt.length)
    (hfront : buf.take part.length = pkt.take 4 ++ part.drop 4)
    (hpos : c.conn.clientCipher = pos + 4) (hsome : data ≠ [])
    (hroom : data.length ≤ pkt.length - part.length) :
    Reads key enc handlers type (whole ++ pkt :: next)
      (readBody (patchReceiver (keystream key) handlers) c buf (.bytes data)) rest := by
  have hpkt := hpackets pkt (List.mem_cons_self ..)
  have hblocks := hpkt.blocks
  have hhdr := hpkt.hdr_le
  have hfit : part.length + data.length ≤ buf.length := by omega
  have hstored := length_store hfit
  have hfront' := take_store hfit
  have hhs : (patchReceiver (keystream key) handlers).hs c.conn = 4 := rfl
  have hcut : (part ++ data).length = part.length + data.length := List.length_append
  have hstream' : (part ++ data) ++ rest = Ship.cryptData enc pos (pkt :: next).flatten := by
    rw [List.append_assoc]
    exact hstream
  unfold readBody
  dsimp only
  rw [hsz, hcur, hhs, if_neg (by omega), Recv.ask, List.take_of_length_le hroom]
  dsimp only
  rw [store_eq hfit]
  dsimp only
  generalize buf.take part.length ++ data ++ buf.drop (part.length + data.length) = stored
    at hstored hfront'
  rw [hfront, List.append_assoc, ← List.drop_append_of_le_length hle] at hfront'
  by_cases hmore : data.length < pkt.length - part.length
  · rw [if_pos hmore, if_neg hsome]
    refine ⟨_, pos, whole, pkt :: next, part ++ data, rfl, rfl, hdelivered, htype, haccepts,
      hpackets, hstream', ?_⟩
    refine .body stored pkt next rfl rfl rfl ?_ (hstored.trans hlen) ?_ ?_ ?_ hpos
    · exact hcut.symm
    · omega
    · omega
    · rw [hcut]
      exact hfront'
  · -- the body is complete, and is decrypted behind the header
    have hall : (part ++ data).length = pkt.length := by omega
    have hcrypt := front_eq hstream' (Nat.le_of_eq hall)
    rw [hall, List.take_of_length_le (Nat.le_of_eq (length_cryptData ..))] at hcrypt
    have hstoredEq : stored = pkt.take 4 ++ (Ship.cryptData enc pos pkt).drop 4 := by
      rw [← hcrypt, ← hfront', ← hcut, hall, ← hlen, ← hstored, List.take_length]
    have hbody : roundUp 4 (pkt.length - 4) = pkt.length - 4 := by
      rw [roundUp]
      omega
    have htake : (pkt.take 4).length = 4 := by
      rw [List.length_take]
      omega
    have hdrop : (stored.drop 4).take (pkt.length - 4) = (Ship.cryptData enc pos pkt).drop 4 := by
      rw [hstoredEq, List.drop_left' htake]
      apply List.take_of_length_le
      exact Nat.le_of_eq (by rw [List.length_drop, length_cryptData])
    have hdecrypt : (patchReceiver (keystream key) handlers).cryptBody c.conn
        ((stored.drop 4).take (pkt.length - 4)) =
        ({ c.conn with clientCipher := pos + pkt.length }, pkt.drop 4) := by
      show (({ c.conn with clientCipher := c.conn.clientCipher +
        ((stored.drop 4).take (pkt.length - 4)).length } : PatchConn Nat σ),
        Ship.cryptData key c.conn.clientCipher ((stored.drop 4).take (pkt.length - 4))) = _
      have hsum : pos + 4 + (pkt.length - 4) = pos + pkt.length := by omega
      rw [hdrop, hpos, drop_cryptData, cryptData_cancel hkey, length_cryptData, List.length_drop,
        hsum]
    have hwhole : stored.take 4 ++ pkt.drop 4 ++ stored.drop (4 + (pkt.length - 4)) = pkt := by
      have hnone : stored.drop (4 + (pkt.length - 4)) = [] := List.drop_eq_nil_of_le (by omega)
      rw [hnone, List.append_nil, hstoredEq, List.take_left' htake, List.take_append_drop]
    rw [if_neg hmore, hbody, if_neg (by omega), hdecrypt]
    dsimp only
    rw [hwhole]
    obtain ⟨c', hprocess, hfollows⟩ :
        ∃ c', process (patchReceiver (keystream key) handlers)
            { c with
              conn := { c.conn with clientCipher := pos + pkt.length },
              pktCur := part.length, pktSz := pkt.length,
              taken := c.taken + data.length } pkt = .go c' ∧
          Follows key enc handlers type c' (pos + pkt.length) (whole ++ [pkt]) next [] rest :=
      follows_process hdelivered htype haccepts
        (fun p hp => hpackets p (List.mem_cons_of_mem _ hp)) rfl (rest_eq hstream' hall)
    exact ⟨c', _, _, _, _, hprocess, by rw [List.append_assoc, List.singleton_append], hfollows⟩

/-- A call for the bytes that arrive goes on in the stream. -/
theorem Reads.call (hkey : ∀ i b, key i (enc i b) = b) {pkts : List (List UInt8)}
    {s : Reading (PatchConn Nat σ)} (h : Reads key enc handlers type pkts s (data ++ rest))
    (hsome : data ≠ []) (hroom : data.length ≤ patchAsk s) :
    Reads key enc handlers type pkts (patchNext key handlers s data) rest := by
  obtain ⟨c, pos, whole, next, part, rfl, rfl, hdelivered, htype, haccepts, hpackets, hstream,
    hkeeps⟩ := h
  obtain ⟨pkt, next, rfl⟩ : ∃ pkt later, next = pkt :: later := by
    cases next with
    | nil =>
        obtain ⟨-, hdata⟩ := List.append_eq_nil_iff.mp hstream
        exact absurd (List.append_eq_nil_iff.mp hdata).1 hsome
    | cons pkt next => exact ⟨pkt, next, rfl⟩
  have hhs : (patchReceiver (keystream key) handlers).hs c.conn = 4 := rfl
  show Reads key enc handlers type _ (readFromClient (patchReceiver (keystream key) handlers) c
    (.bytes data)) rest
  unfold readFromClient
  dsimp only
  rw [hhs]
  cases hkeeps with
  | idle hbuf hcur hsz hpos =>
      rw [patchAsk, hbuf] at hroom
      dsimp only at hroom
      rw [hbuf]
      dsimp only
      rw [Recv.ask, List.take_of_length_le hroom]
      dsimp only
      rw [List.nil_append] at hstream
      by_cases hshort : data.length < 4
      · rw [if_pos hshort, if_neg hsome]
        refine ⟨_, pos, whole, pkt :: next, data, rfl, rfl, hdelivered, htype, haccepts, hpackets,
          hstream, ?_⟩
        refine .header _ rfl hsz rfl ?_ hsome hshort (List.take_left' rfl) hpos
        rw [List.length_append, List.length_replicate]
        omega
      · rw [if_neg hshort, if_pos hsz]
        exact reads_readHeader hkey hdelivered htype haccepts hpackets hpos hstream (by omega)
  | header buf hbuf hsz hcur hlen hpart hlt hfront hpos =>
      rw [patchAsk, hbuf] at hroom
      dsimp only at hroom
      rw [if_pos hsz, hcur] at hroom
      have hfit : part.length + data.length ≤ buf.length := by omega
      have hstored := length_store hfit
      have hfront' := take_store hfit
      have hcut : (part ++ data).length = part.length + data.length := List.length_append
      rw [hbuf]
      dsimp only
      rw [if_pos hsz, hcur, Recv.ask, List.take_of_length_le hroom]
      dsimp only
      rw [store_eq hfit]
      dsimp only
      generalize buf.take part.length ++ data ++ buf.drop (part.length + data.length) = stored
        at hstored hfront'
      rw [hfront] at hfront'
      rw [← List.append_assoc] at hstream
      by_cases hshort : data.length < 4 - part.length
      · rw [if_pos hshort, if_neg hsome]
        refine ⟨_, pos, whole, pkt :: next, part ++ data, rfl, rfl, hdelivered, htype, haccepts,
          hpackets, hstream, ?_⟩
        refine .header stored rfl hsz hcut.symm (hstored.trans hlen) ?_ (by omega) ?_ hpos
        · exact fun hnil => hpart (List.append_eq_nil_iff.mp hnil).1
        · rw [hcut]
          exact hfront'
      · have hfour : part.length + data.length = 4 := by omega
        rw [hfour] at hfront'
        rw [if_neg hshort, if_neg (by omega), hfront']
        exact reads_readHeader hkey hdelivered htype haccepts hpackets hpos hstream (by omega)
  | body buf first later hnext hbuf hsz hcur hlen hle hlt hfront hpos =>
      obtain ⟨rfl, rfl⟩ := List.cons.inj hnext
      have hne : c.pktSz ≠ 0 := by omega
      rw [patchAsk, hbuf] at hroom
      dsimp only at hroom
      rw [if_neg hne, hsz, hcur] at hroom
      rw [hbuf]
      dsimp only
      rw [if_neg hne]
      exact reads_readBody hkey hdelivered htype haccepts hpackets hstream hsz hcur hlen hle hlt
        hfront hpos hsome hroom

/-- However the stream of a client arrives, the packets that are complete are delivered, each
once and in order, and nothing is left over on the boundaries between packets only. -/
theorem patch_delivers (hkey : ∀ i b, key i (enc i b) = b) {pkts : List (List UInt8)}
    {stream later : List UInt8} {conn : PatchConn Nat σ} (hpackets : ∀ pkt ∈ pkts, PatchPacket pkt)
    (haccepts : Accepts (handlers.process conn.type) conn.handler pkts)
    (hstream : stream ++ later = Ship.cryptData enc conn.clientCipher pkts.flatten)
    (ns : List Nat) :
    let out := drain patchAsk (patchNext key handlers) (.go (.new conn)) stream ns
    Delivers pkts (stream.length - out.2.length) (patchDelivered out.1) (PatchIdle out.1) ∧
      (stream.length ≤ ns.length → out.2 = []) := by
  have hask : ∀ s rest, Reads key enc handlers conn.type pkts s (rest ++ later) →
      0 < patchAsk s := by
    rintro s rest ⟨c, pos, whole, next, part, rfl, -, hfollows⟩
    have hshort := hfollows.keeps.short hfollows.packets
    rw [patchAsk]
    cases hfollows.keeps with
    | idle hbuf hcur hsz hpos =>
        rw [hbuf]
        exact Nat.zero_lt_succ _
    | header buf hbuf hsz hcur hlen hpart hlt hfront hpos =>
        rw [hbuf]
        dsimp only
        rw [if_pos hsz]
        omega
    | body buf pkt later hnext hbuf hsz hcur hlen hle hlt hfront hpos =>
        rw [hbuf]
        dsimp only
        rw [if_neg (by omega)]
        omega
  have hcall : ∀ s data rest, Reads key enc handlers conn.type pkts s ((data ++ rest) ++ later) →
      data ≠ [] → data.length ≤ patchAsk s →
      Reads key enc handlers conn.type pkts (patchNext key handlers s data) (rest ++ later) := by
    intro s data rest h
    rw [List.append_assoc] at h
    exact h.call hkey
  have hsome : ∀ pkt ∈ pkts, pkt ≠ [] := by
    intro pkt hmem hnil
    have hhdr := (hpackets pkt hmem).hdr_le
    rw [hnil, List.length_nil] at hhdr
    omega
  have hstart : Reads key enc handlers conn.type pkts (.go (.new conn)) (stream ++ later) :=
    ⟨_, conn.clientCipher, [], pkts, [], rfl, rfl, rfl, rfl, haccepts, hpackets, hstream,
      .idle rfl rfl rfl rfl⟩
  intro out
  refine ⟨?_, Socket.drain_all (P := fun s rest => Reads key enc handlers conn.type pkts s
    (rest ++ later)) hask hcall hstart⟩
  obtain ⟨c, pos, whole, next, part, hs, rfl, hfollows⟩ :=
    Socket.drain_invariant (P := fun s rest => Reads key enc handlers conn.type pkts s
      (rest ++ later)) hask hcall hstart ns
  have hread : stream.length - out.2.length = whole.flatten.length + part.length := by
    have htotal := congrArg List.length hstream
    have hmore := congrArg List.length hfollows.stream
    rw [length_cryptData, List.flatten_append] at htotal
    rw [length_cryptData] at hmore
    simp only [List.length_append] at htotal hmore
    show stream.length - (drain patchAsk (patchNext key handlers) _ stream ns).2.length = _
    omega
  have hs : out.1 = .go c := hs
  rw [hread, hs, patchDelivered, hfollows.delivered]
  apply Delivers.of_part hsome (hfollows.keeps.short hfollows.packets)
  rw [PatchIdle]
  cases hfollows.keeps with
  | idle hbuf hcur hsz hpos => exact ⟨fun _ => rfl, fun _ => ⟨hbuf, hcur, hsz⟩⟩
  | header buf hbuf hsz hcur hlen hpart hlt hfront hpos =>
      rw [hbuf]
      constructor
      · exact fun h => nomatch h.1
      · exact fun h => absurd (List.length_eq_zero_iff.mp h) hpart
  | body buf pkt later hnext hbuf hsz hcur hlen hle hlt hfront hpos =>
      rw [hbuf]
      constructor
      · exact fun h => nomatch h.1
      · intro h
        omega

end Framing

end Sylverant.Servers
