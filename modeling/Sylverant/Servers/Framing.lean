/-
# Packets in pieces

A packet that is there as a whole is read in two steps: its header is decrypted, and tells how
long it is, then the rest of it is. However the packets of a stream arrive, the calls of
`read_from_client` do the same to each of them, once and in order.
-/

import Sylverant.Servers.ClientHeaders
import Sylverant.Servers.PacketStream

namespace Sylverant.Servers

open Ship (roundUp complete)
open Socket (drain)

section Whole

variable {κ : Type} (R : Receiver κ)

/-- The fields of the client and the buffer, when a packet is there that was sent as `w`. Behind
a packet that does not end with a block, the buffer goes on to the end of it. -/
def whole (conn : κ) (w : List UInt8) : κ × List UInt8 :=
  let hs := R.hs conn
  let header := R.readHeader conn (w.take hs)
  if w.length = hs then header
  else
    let body := R.cryptBody header.1
      (w.drop hs ++ List.replicate (roundUp hs w.length - w.length) 0)
    (body.1, header.2 ++ body.2)

/-- Read a packet, and pass it on. -/
def serve (conn : κ) (w : List UInt8) : κ × Int :=
  R.processPacket (whole R conn w).1 (whole R conn w).2

/-- The length in the header of a packet. -/
def headerLen (conn : κ) (w : List UInt8) : Nat :=
  let header := R.readHeader conn (w.take (R.hs conn))
  R.pktLen header.1 header.2

/-- The header tells how long the packet is. -/
structure Fits (conn : κ) (w : List UInt8) : Prop where
  hdr_le : R.hs conn ≤ headerLen R conn w
  length_eq : w.length =
    if R.exact (R.readHeader conn (w.take (R.hs conn))).1 then headerLen R conn w
    else roundUp (R.hs conn) (headerLen R conn w)

/-- The packets that are sent one after the other are as long as their headers tell, and are
accepted. -/
def Frames : κ → List (List UInt8) → Prop
  | _, [] => True
  | conn, w :: ws => Fits R conn w ∧ (serve R conn w).2 = 0 ∧ Frames (serve R conn w).1 ws

/-- What the handlers are given for the packets. -/
def served : κ → List (List UInt8) → List Handed
  | _, [] => []
  | conn, w :: ws => ⟨(whole R conn w).2, R.hs conn, w.length⟩ :: served (serve R conn w).1 ws

/-- The fields of the client after the packets. -/
def after (conn : κ) (ws : List (List UInt8)) : κ :=
  ws.foldl (fun conn w => (serve R conn w).1) conn

/-- How much a call asks for. -/
def frameAsk : Reading κ → Nat
  | .go c =>
      match c.recvbuf with
      | none => R.hs c.conn
      | some _ => if c.pktSz = 0 then R.hs c.conn - c.pktCur else c.pktSz - c.pktCur
  | _ => 0

/-- A call for the bytes that arrive. -/
def frameNext (s : Reading κ) (data : List UInt8) : Reading κ :=
  match s with
  | .go c => readFromClient R c (.bytes data)
  | s => s

/-- Nothing is left over. -/
def FrameIdle : Reading κ → Prop
  | .go c => c.recvbuf = none ∧ c.pktCur = 0 ∧ c.pktSz = 0
  | _ => False

end Whole

variable {κ : Type} {R : Receiver κ}

/-! ## Packets that are there -/

section Packet

variable {conn : κ} {w : List UInt8}

theorem headerLen_lt : headerLen R conn w < 0x10000 := R.pktLen_lt _ _

theorem Fits.hs_le (h : Fits R conn w) : R.hs conn ≤ w.length := by
  rw [h.length_eq]
  split
  · exact h.hdr_le
  · exact Nat.le_trans h.hdr_le (le_roundUp (R.hs_eq conn))

/-- The buffer for a packet ends with the block that the packet ends in. -/
theorem Fits.roundUp_eq (h : Fits R conn w) :
    roundUp (R.hs conn) (headerLen R conn w) = roundUp (R.hs conn) w.length := by
  rw [h.length_eq]
  split
  · rfl
  · exact (roundUp_roundUp (R.hs_eq conn)).symm

/-- A packet is a header only when its length says so. -/
theorem Fits.eq_hs_iff (h : Fits R conn w) :
    headerLen R conn w = R.hs conn ↔ w.length = R.hs conn := by
  have hle := h.hdr_le
  rw [h.length_eq]
  split
  · exact Iff.rfl
  · have hblocks := @le_roundUp (R.hs conn) (headerLen R conn w) (R.hs_eq conn)
    rw [roundUp]
    rcases R.hs_eq conn with hhs | hhs <;> rw [hhs] at hle ⊢ <;> omega

theorem Fits.ne_nil (h : Fits R conn w) : w ≠ [] := by
  rintro rfl
  have hle := h.hs_le
  rw [List.length_nil] at hle
  rcases R.hs_eq conn with hhs | hhs <;> omega

theorem hs_whole (conn : κ) (w : List UInt8) : R.hs (whole R conn w).1 = R.hs conn := by
  unfold whole
  dsimp only
  split
  · exact R.hs_readHeader conn _
  · exact (R.hs_cryptBody _ _).trans (R.hs_readHeader conn _)

theorem length_header (hle : R.hs conn ≤ w.length) :
    (R.readHeader conn (w.take (R.hs conn))).2.length = R.hs conn := by
  rw [R.length_readHeader, List.length_take_of_le hle]

theorem Frames.ne_nil {ws : List (List UInt8)} (h : Frames R conn ws) : ∀ w ∈ ws, w ≠ [] := by
  induction ws generalizing conn with
  | nil => exact fun w hw => (List.not_mem_nil hw).elim
  | cons w ws ih =>
      intro v hv
      rcases List.mem_cons.mp hv with rfl | hv
      · exact h.1.ne_nil
      · exact ih h.2.2 v hv

theorem served_append (conn : κ) (ws vs : List (List UInt8)) :
    served R conn (ws ++ vs) = served R conn ws ++ served R (after R conn ws) vs := by
  induction ws generalizing conn with
  | nil => rfl
  | cons w ws ih =>
      rw [List.cons_append, served, served, ih, List.cons_append]
      rfl

theorem after_snoc (conn : κ) (ws : List (List UInt8)) (w : List UInt8) :
    after R conn (ws ++ [w]) = (serve R (after R conn ws) w).1 := by
  rw [after, List.foldl_append, List.foldl_cons, List.foldl_nil, after]

end Packet

/-! ## A call in the middle of a stream -/

/-- The part of a packet that a client keeps, by how far it got. -/
inductive Holds (R : Receiver κ) (conn : κ) (next : List (List UInt8)) (c : ReadClient κ) :
    List UInt8 → Prop
  | idle (hbuf : c.recvbuf = none) (hcur : c.pktCur = 0) (hsz : c.pktSz = 0)
      (hconn : c.conn = conn) : Holds R conn next c []
  | header {part : List UInt8} (buf : List UInt8) (hbuf : c.recvbuf = some buf) (hsz : c.pktSz = 0)
      (hcur : c.pktCur = part.length) (hlen : buf.length = R.hs conn) (hsome : part ≠ [])
      (hlt : part.length < R.hs conn) (hfront : buf.take part.length = part)
      (hconn : c.conn = conn) : Holds R conn next c part
  | body {part : List UInt8} (w : List UInt8) (later : List (List UInt8))
      (hnext : next = w :: later)
      (hbuf : c.recvbuf = some ((R.readHeader conn (w.take (R.hs conn))).2 ++
        part.drop (R.hs conn) ++
        List.replicate (roundUp (R.hs conn) w.length - part.length) 0))
      (hsz : c.pktSz = w.length) (hcur : c.pktCur = part.length) (hle : R.hs conn ≤ part.length)
      (hlt : part.length < w.length)
      (hconn : c.conn = (R.readHeader conn (w.take (R.hs conn))).1) : Holds R conn next c part

/-- Where the calls are in a stream: the packets that were passed on, those that are still to
come, and the part of the next one that is kept. -/
structure InStream (R : Receiver κ) (conn : κ) (c : ReadClient κ) (done next : List (List UInt8))
    (part rest : List UInt8) : Prop where
  handed : c.handed = served R conn done
  taken : c.taken = part.length
  frames : Frames R (after R conn done) next
  stream : part ++ rest = next.flatten
  holds : Holds R (after R conn done) next c part

/-- A client is at a position of its stream, where `rest` is still to come. -/
def At (R : Receiver κ) (conn : κ) (ws : List (List UInt8)) (s : Reading κ) (rest : List UInt8) :
    Prop :=
  ∃ c done next part, s = .go c ∧ ws = done ++ next ∧ InStream R conn c done next part rest

section Call

variable {conn cur : κ} {c : ReadClient κ} {done later : List (List UInt8)}
  {w part data rest : List UInt8}

/-- Less than a packet is kept. -/
theorem Holds.short {next : List (List UInt8)} (h : Holds R cur next c part)
    (hframes : Frames R cur next) : ∀ w ∈ next.head?, part.length < w.length := by
  intro w hw
  cases next with
  | nil => cases hw
  | cons first later =>
      obtain rfl : first = w := Option.some.inj hw
      have hle := hframes.1.hs_le
      cases h with
      | idle hbuf hcur hsz hconn => exact List.length_pos_iff.mpr hframes.1.ne_nil
      | header buf hbuf hsz hcur hlen hsome hlt hfront hconn => exact Nat.lt_of_lt_of_le hlt hle
      | body v later' hnext hbuf hsz hcur hle' hlt hconn =>
          cases hnext
          exact hlt

/-- The front of a stream is the front of its first packet. -/
theorem front_of_stream {a b : List UInt8} (hstream : a ++ b = (w :: later).flatten)
    (hle : a.length ≤ w.length) : a = w.take a.length := by
  rw [List.flatten_cons] at hstream
  have htake := congrArg (List.take a.length) hstream
  rw [List.take_left' rfl, List.take_append_of_le_length hle] at htake
  exact htake

theorem rest_of_stream {a b : List UInt8} (hstream : a ++ b = (w :: later).flatten)
    (hlen : a.length = w.length) : a = w ∧ b = later.flatten := by
  rw [List.flatten_cons] at hstream
  exact List.append_inj hstream hlen

/-- A packet that is passed on leaves nothing over. -/
theorem process_inStream (hhanded : c.handed = served R conn done)
    (htaken : c.taken = w.length) (hframes : Frames R (after R conn done) (w :: later))
    (hconn : c.conn = (whole R (after R conn done) w).1) :
    ∃ c', process R c (whole R (after R conn done) w).2 = .go c' ∧
      InStream R conn c' (done ++ [w]) later [] later.flatten := by
  have hserve : R.processPacket c.conn (whole R (after R conn done) w).2 =
      serve R (after R conn done) w := by
    rw [hconn, serve]
  refine ⟨{
    conn := (serve R (after R conn done) w).1, recvbuf := none, pktCur := 0, pktSz := 0,
    handed := c.handed ++ [⟨(whole R (after R conn done) w).2, R.hs c.conn, c.taken⟩],
    taken := 0 }, ?_, ?_, rfl, ?_, rfl, .idle rfl rfl rfl ?_⟩
  · unfold process
    rw [hserve]
    exact if_pos hframes.2.1
  · rw [served_append, hhanded, hconn, hs_whole, htaken]
    rfl
  · rw [after_snoc]
    exact hframes.2.2
  · rw [after_snoc]

/-- A client goes on in the stream when a header is complete. -/
theorem at_readHeader {hdr : List UInt8} (hhanded : c.handed = served R conn done)
    (htaken : c.taken = hdr.length) (hframes : Frames R (after R conn done) (w :: later))
    (hstream : hdr ++ rest = (w :: later).flatten) (hconn : c.conn = after R conn done)
    (hlen : hdr.length = R.hs (after R conn done)) :
    At R conn (done ++ w :: later) (readHeader R c hdr) rest := by
  have hfits := hframes.1
  have hle := hfits.hs_le
  have hhdr : hdr = w.take (R.hs (after R conn done)) := by
    rw [← hlen]
    exact front_of_stream hstream (hlen ▸ hle)
  have hlong : ¬ roundUp (R.hs (after R conn done)) w.length < R.hs (after R conn done) :=
    Nat.not_lt_of_le (Nat.le_trans hle (le_roundUp (R.hs_eq _)))
  have hkept : (if R.exact (R.readHeader (after R conn done) hdr).1 then
      R.pktLen (R.readHeader (after R conn done) hdr).1 (R.readHeader (after R conn done) hdr).2
      else roundUp (R.hs (after R conn done)) w.length) = w.length := by
    rw [← hfits.roundUp_eq, hhdr]
    exact hfits.length_eq.symm
  have hheaderLen : R.pktLen (R.readHeader (after R conn done) hdr).1
      (R.readHeader (after R conn done) hdr).2 = headerLen R (after R conn done) w := by
    rw [hhdr, headerLen]
  unfold readHeader
  dsimp only
  rw [hconn, hheaderLen, allocSz_eq (R.hs_eq _) headerLen_lt, hfits.roundUp_eq, if_neg hlong]
  rw [hheaderLen] at hkept
  rw [hkept]
  by_cases hsmall : headerLen R (after R conn done) w = R.hs (after R conn done)
  · have hwhole : w.length = R.hs (after R conn done) := hfits.eq_hs_iff.mp hsmall
    rcases rest_of_stream hstream (hlen.trans hwhole.symm) with ⟨rfl, rfl⟩
    have hround : roundUp (R.hs (after R conn done)) hdr.length - R.hs (after R conn done) = 0 := by
      rw [← hfits.roundUp_eq, hsmall, roundUp]
      rcases R.hs_eq (after R conn done) with hhs | hhs <;> rw [hhs]
    have hbuf : (whole R (after R conn done) hdr) = R.readHeader (after R conn done) hdr := by
      unfold whole
      dsimp only
      rw [if_pos hwhole, ← hhdr]
    rw [if_pos hsmall, hround, List.replicate_zero, List.append_nil, ← hbuf]
    rcases @process_inStream _ R conn
      { c with
        conn := (whole R (after R conn done) hdr).1
        recvbuf := some (whole R (after R conn done) hdr).2
        pktCur := R.hs (after R conn done)
        pktSz := hdr.length } done later hdr hhanded htaken hframes rfl with
      ⟨c', hprocess, hin⟩
    refine ⟨c', done ++ [hdr], later, [], hprocess, ?_, hin⟩
    rw [List.append_assoc, List.singleton_append]
  · rw [if_neg hsmall]
    have hlt : R.hs (after R conn done) < w.length :=
      Nat.lt_of_le_of_ne hle fun heq => hsmall (hfits.eq_hs_iff.mpr heq.symm)
    refine ⟨_, done, w :: later, hdr, rfl, rfl, hhanded, htaken, hframes, hstream, ?_⟩
    refine .body w later rfl ?_ rfl hlen.symm (Nat.le_of_eq hlen.symm) (hlen ▸ hlt) ?_
    · rw [hlen, List.drop_eq_nil_of_le (Nat.le_of_eq hlen), List.append_nil, hhdr]
    · rw [hhdr]

/-- What is stored goes behind the part of a packet that is there, and zeros are left behind it. -/
theorem store_part {front part buf : List UInt8} (data : List UInt8) {hs room : Nat}
    (hfront : (front ++ part.drop hs).length = part.length) (hle : hs ≤ part.length)
    (hbuf : buf = front ++ part.drop hs ++ List.replicate (room - part.length) 0) :
    buf.take part.length ++ data ++ buf.drop (part.length + data.length) =
      front ++ (part ++ data).drop hs ++ List.replicate (room - (part ++ data).length) 0 := by
  have htake : buf.take part.length = front ++ part.drop hs := by
    rw [hbuf]
    exact List.take_left' hfront
  have hdrop : buf.drop (part.length + data.length) =
      List.replicate (room - (part ++ data).length) 0 := by
    rw [hbuf, List.drop_append, List.drop_eq_nil_of_le (by omega), List.nil_append, hfront,
      List.drop_replicate, List.length_append]
    congr 1
    omega
  rw [htake, hdrop, List.append_assoc front, ← List.drop_append_of_le_length hle]

/-- The header and the body of a packet that is complete, with the zeros that fill its last
block. -/
theorem parts_of_whole {front w : List UInt8} {hs : Nat} (hfront : front.length = hs)
    (hle : hs ≤ w.length) (hblocks : w.length ≤ roundUp hs w.length)
    (hbody : hs + roundUp hs (w.length - hs) = roundUp hs w.length) :
    let body := w.drop hs ++ List.replicate (roundUp hs w.length - w.length) (0 : UInt8)
    body.length = roundUp hs (w.length - hs) ∧ (front ++ body).take hs = front ∧
      (front ++ body).drop hs = body ∧
      (front ++ body).drop (hs + roundUp hs (w.length - hs)) = [] := by
  intro body
  have hlength : body.length = roundUp hs (w.length - hs) := by
    rw [List.length_append, List.length_drop, List.length_replicate]
    omega
  refine ⟨hlength, List.take_left' hfront, List.drop_left' hfront, ?_⟩
  apply List.drop_eq_nil_of_le
  exact Nat.le_of_eq (by rw [List.length_append, hfront, hlength])

/-- A client goes on in the stream when more of a body arrives. -/
theorem at_readBody {buf : List UInt8} (hhanded : c.handed = served R conn done)
    (htaken : c.taken = part.length) (hframes : Frames R (after R conn done) (w :: later))
    (hstream : part ++ (data ++ rest) = (w :: later).flatten)
    (hbuf : buf = (R.readHeader (after R conn done) (w.take (R.hs (after R conn done)))).2 ++
      part.drop (R.hs (after R conn done)) ++
      List.replicate (roundUp (R.hs (after R conn done)) w.length - part.length) 0)
    (hsz : c.pktSz = w.length) (hcur : c.pktCur = part.length)
    (hle : R.hs (after R conn done) ≤ part.length) (hlt : part.length < w.length)
    (hconn : c.conn = (R.readHeader (after R conn done) (w.take (R.hs (after R conn done)))).1)
    (hsome : data ≠ []) (hroom : data.length ≤ w.length - part.length) :
    At R conn (done ++ w :: later) (readBody R c buf (.bytes data)) rest := by
  have hfits := hframes.1
  have hhs : R.hs c.conn = R.hs (after R conn done) := by
    rw [hconn]
    exact R.hs_readHeader _ _
  have hhdr := length_header hfits.hs_le
  have hblocks : w.length ≤ roundUp (R.hs (after R conn done)) w.length := le_roundUp (R.hs_eq _)
  have hbody := roundUp_body (R.hs_eq (after R conn done)) hfits.hs_le
  have hwhole : whole R (after R conn done) w =
      let header := R.readHeader (after R conn done) (w.take (R.hs (after R conn done)))
      let body := R.cryptBody header.1 (w.drop (R.hs (after R conn done)) ++
        List.replicate (roundUp (R.hs (after R conn done)) w.length - w.length) 0)
      (body.1, header.2 ++ body.2) := by
    unfold whole
    dsimp only
    exact if_neg (Nat.ne_of_gt (Nat.lt_of_le_of_lt hle hlt))
  generalize hheader : R.readHeader (after R conn done) (w.take (R.hs (after R conn done))) = header
    at hbuf hconn hhdr hwhole
  generalize hdef : R.hs (after R conn done) = hs at *
  have hfront : (header.2 ++ part.drop hs).length = part.length := by
    rw [List.length_append, hhdr, List.length_drop, Nat.add_sub_cancel' hle]
  have hbuflen : buf.length = roundUp hs w.length := by
    rw [hbuf, List.length_append, hfront, List.length_replicate]
    omega
  have hfit : part.length + data.length ≤ buf.length := by omega
  have hstored := store_part data hfront hle hbuf
  have hstream' : (part ++ data) ++ rest = (w :: later).flatten := by
    rw [List.append_assoc]
    exact hstream
  have hcut : (part ++ data).length = part.length + data.length := List.length_append
  unfold readBody
  dsimp only
  rw [hsz, hcur, hhs, if_neg (Nat.not_lt_of_gt hlt), Recv.ask, List.take_of_length_le hroom]
  dsimp only
  rw [store_eq hfit, hstored]
  dsimp only
  by_cases hmore : data.length < w.length - part.length
  · rw [if_pos hmore, if_neg hsome]
    refine ⟨_, done, w :: later, part ++ data, rfl, rfl, hhanded, ?_, hframes, hstream', ?_⟩
    · rw [hcut, htaken]
    · have hlonger : (part ++ data).length < w.length := by omega
      have hlefter : hs ≤ (part ++ data).length := by omega
      refine .body w later rfl ?_ rfl hcut.symm ?_ hlonger ?_
      · rw [hdef, hheader]
      · rw [hdef]
        exact hlefter
      · rw [hdef, hheader]
        exact hconn
  · -- the body is complete, and is decrypted behind the header
    have hall : (part ++ data).length = w.length := by omega
    rcases rest_of_stream hstream' hall with ⟨hw, rfl⟩
    rw [hw]
    obtain ⟨hrest, htake, hdrop, hend⟩ := parts_of_whole hhdr (Nat.le_trans hle (by omega)) hblocks
      hbody
    have hlength : (header.2 ++ (w.drop hs ++
        List.replicate (roundUp hs w.length - w.length) 0)).length =
        hs + roundUp hs (w.length - hs) := by
      rw [List.length_append, hhdr, hrest]
    rw [List.append_assoc, if_neg hmore, if_neg (by omega), hdrop,
      List.take_of_length_le (Nat.le_of_eq hrest), htake,
      hend, List.append_nil, hconn]
    have hbuffer := congrArg Prod.snd hwhole
    have hcrypted := congrArg Prod.fst hwhole
    dsimp only at hbuffer hcrypted
    rw [← hbuffer]
    rcases @process_inStream _ R conn
      { c with
        conn := (R.cryptBody header.1 (w.drop hs ++
          List.replicate (roundUp hs w.length - w.length) 0)).1
        taken := c.taken + data.length } done later w hhanded (by dsimp only; omega) hframes
      hcrypted.symm with ⟨c', hprocess, hin⟩
    refine ⟨c', done ++ [w], later, [], hprocess, ?_, hin⟩
    rw [List.append_assoc, List.singleton_append]

/-- A call for the bytes that arrive goes on in the stream. -/
theorem At.call {ws : List (List UInt8)} {s : Reading κ} (h : At R conn ws s (data ++ rest))
    (hsome : data ≠ []) (hroom : data.length ≤ frameAsk R s) :
    At R conn ws (frameNext R s data) rest := by
  rcases h with ⟨c, done, next, part, rfl, rfl, hhanded, htaken, hframes, hstream, hholds⟩
  obtain ⟨w, later, rfl⟩ : ∃ w later, next = w :: later := by
    cases next with
    | nil =>
        rcases List.append_eq_nil_iff.mp hstream with ⟨-, hdata⟩
        exact absurd (List.append_eq_nil_iff.mp hdata).1 hsome
    | cons w later => exact ⟨w, later, rfl⟩
  show At R conn _ (readFromClient R c (.bytes data)) rest
  unfold readFromClient
  dsimp only
  cases hholds with
  | idle hbuf hcur hsz hconn =>
      rw [frameAsk, hbuf] at hroom
      dsimp only at hroom
      rw [hbuf]
      dsimp only
      rw [Recv.ask, List.take_of_length_le hroom]
      dsimp only
      rw [List.nil_append] at hstream
      rw [List.length_nil] at htaken
      by_cases hshort : data.length < R.hs c.conn
      · rw [if_pos hshort, if_neg hsome]
        refine ⟨_, done, w :: later, data, rfl, rfl, hhanded, ?_, hframes, hstream, ?_⟩
        · dsimp only
          rw [htaken, Nat.zero_add]
        · refine .header _ rfl hsz rfl ?_ hsome ?_ (List.take_left' rfl) hconn
          · rw [List.length_append, List.length_replicate, ← hconn]
            omega
          · rw [← hconn]
            exact hshort
      · rw [if_neg hshort, if_pos hsz]
        apply at_readHeader
        · exact hhanded
        · dsimp only
          rw [htaken, Nat.zero_add]
        · exact hframes
        · exact hstream
        · exact hconn
        · rw [← hconn]
          omega
  | header buf hbuf hsz hcur hlen hpart hlt hfront hconn =>
      rw [frameAsk, hbuf] at hroom
      dsimp only at hroom
      rw [if_pos hsz, hcur, hconn] at hroom
      have hfit : part.length + data.length ≤ buf.length := by omega
      have hstored := length_store hfit
      have hfront' := take_store hfit
      have hcut : (part ++ data).length = part.length + data.length := List.length_append
      rw [hbuf]
      dsimp only
      rw [if_pos hsz, hcur, hconn, Recv.ask, List.take_of_length_le hroom]
      dsimp only
      rw [store_eq hfit]
      dsimp only
      generalize buf.take part.length ++ data ++ buf.drop (part.length + data.length) = stored
        at hstored hfront'
      rw [hfront] at hfront'
      rw [← List.append_assoc] at hstream
      by_cases hshort : data.length < R.hs (after R conn done) - part.length
      · rw [if_pos hshort, if_neg hsome]
        refine ⟨_, done, w :: later, part ++ data, rfl, rfl, hhanded, ?_, hframes, hstream, ?_⟩
        · dsimp only
          rw [htaken, hcut]
        · refine .header stored rfl hsz hcut.symm (hstored.trans hlen) ?_ ?_ ?_ rfl
          · exact fun hnil => hpart (List.append_eq_nil_iff.mp hnil).1
          · omega
          · rw [hcut]
            exact hfront'
      · have hwhole : part.length + data.length = R.hs (after R conn done) := by omega
        rw [hwhole] at hfront'
        rw [if_neg hshort, if_neg (by omega), hfront']
        apply at_readHeader
        · exact hhanded
        · dsimp only
          rw [htaken, hcut]
        · exact hframes
        · exact hstream
        · rfl
        · rw [hcut, hwhole]
  | body first later' hnext hbuf hsz hcur hle hlt hconn =>
      cases hnext
      have hne : c.pktSz ≠ 0 := by omega
      rw [frameAsk, hbuf] at hroom
      dsimp only at hroom
      rw [if_neg hne, hsz, hcur] at hroom
      rw [hbuf]
      dsimp only
      rw [if_neg hne]
      exact at_readBody hhanded htaken hframes hstream rfl hsz hcur hle hlt hconn hsome hroom

end Call

/-! ## Streams -/

/-- Where the calls end: the packets that are complete were passed on as if each had been there
as a whole, and what is kept is part of the next one. -/
theorem frames_deliver {conn : κ} {ws : List (List UInt8)} {stream later : List UInt8}
    (hframes : Frames R conn ws) (hstream : stream ++ later = ws.flatten) (ns : List Nat) :
    let out := drain (frameAsk R) (frameNext R) (.go (.new conn)) stream ns
    (∃ c done next part, out.1 = .go c ∧ ws = done ++ next ∧
      stream.length - out.2.length = done.flatten.length + part.length ∧
      InStream R conn c done next part (out.2 ++ later)) ∧
      (stream.length ≤ ns.length → out.2 = []) := by
  have hask : ∀ s rest, At R conn ws s (rest ++ later) → 0 < frameAsk R s := by
    rintro s rest ⟨c, done, next, part, rfl, -, hin⟩
    have hshort := hin.holds.short hin.frames
    rw [frameAsk]
    cases hin.holds with
    | idle hbuf hcur hsz hconn =>
        rw [hbuf]
        dsimp only
        rcases R.hs_eq c.conn with hhs | hhs <;> omega
    | header buf hbuf hsz hcur hlen hsome hlt hfront hconn =>
        rw [hbuf]
        dsimp only
        rw [if_pos hsz, hconn]
        omega
    | body w later hnext hbuf hsz hcur hle hlt hconn =>
        rw [hbuf]
        dsimp only
        rw [if_neg (by omega)]
        omega
  have hcall : ∀ s data rest, At R conn ws s ((data ++ rest) ++ later) → data ≠ [] →
      data.length ≤ frameAsk R s → At R conn ws (frameNext R s data) (rest ++ later) := by
    intro s data rest h
    rw [List.append_assoc] at h
    exact h.call
  have hstart : At R conn ws (.go (.new conn)) (stream ++ later) :=
    ⟨_, [], ws, [], rfl, rfl, rfl, rfl, hframes, hstream, .idle rfl rfl rfl rfl⟩
  intro out
  refine ⟨?_, Socket.drain_all (P := fun s rest => At R conn ws s (rest ++ later)) hask hcall
    hstart⟩
  obtain ⟨c, done, next, part, hs, rfl, hin⟩ :=
    Socket.drain_invariant (P := fun s rest => At R conn ws s (rest ++ later)) hask hcall hstart ns
  refine ⟨c, done, next, part, hs, rfl, ?_, hin⟩
  have htotal := congrArg List.length hstream
  have hmore := congrArg List.length hin.stream
  rw [List.flatten_append] at htotal
  simp only [List.length_append] at htotal hmore
  show stream.length - (drain (frameAsk R) (frameNext R) _ stream ns).2.length = _
  omega

end Sylverant.Servers
