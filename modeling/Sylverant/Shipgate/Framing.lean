/-
# Packets on the link between ship and shipgate

However the stream of one end arrives at the other, the packets are handed to their handlers
each once and in order. What is kept between two calls is a part of the next packet.
-/

import Sylverant.Servers.PacketStream
import Sylverant.Shipgate.Link

namespace Sylverant.Shipgate

open ChunkedInput (Step Outcome)
open Servers (Accepts Delivers OnBoundary)
open Ship (RecvBuf saveRest)
open Socket (drain)

/-- A packet as both ends send it: at least a header, and whole blocks of 8 bytes. -/
structure WellFormed (pkt : List UInt8) : Prop where
  hdr_le : 8 ≤ pktLen pkt
  blocks : pktLen pkt % 8 = 0
  length_eq : pkt.length = pktLen pkt

/-- A packet whose header tells its size. -/
structure Framed (size : List UInt8 → Nat) (pkt : List UInt8) : Prop where
  hdr_le : 8 ≤ pkt.length
  length_lt : pkt.length < 0x10000
  size_eq : size (pkt.take 8) = pkt.length

theorem WellFormed.framed {pkt : List UInt8} (h : WellFormed pkt) : Framed pktLen pkt where
  hdr_le := h.length_eq ▸ h.hdr_le
  length_lt := h.length_eq ▸ pktLen_lt pkt
  size_eq := (pktLen_take pkt).trans h.length_eq.symm

/-- Whole blocks are not rounded up. -/
theorem WellFormed.framed8 {pkt : List UInt8} (h : WellFormed pkt) : Framed pktLen8 pkt where
  hdr_le := h.length_eq ▸ h.hdr_le
  length_lt := h.length_eq ▸ pktLen_lt pkt
  size_eq := by
    have hlen := pktLen_lt pkt
    have hblocks := h.blocks
    rw [pktLen8_take, pktLen8_eq, h.length_eq]
    omega

/-- A header that was saved is the one in front of the data. -/
def Link.Reads {σ : Type} (c : Link σ) (data : List UInt8) : Prop :=
  c.hdrRead = true → 8 ≤ data.length ∧ c.pkt = data.take 8

section Stream

variable {σ : Type} {size : List UInt8 → Nat} {process : σ → List UInt8 → σ × Int}

theorem pkt_readHeader {c : Link σ} {data : List UInt8} (hreads : c.Reads data) :
    (c.readHeader data).pkt = data.take 8 := by
  rw [Link.readHeader]
  split
  · rename_i hread
    exact (hreads hread).2
  · rfl

theorem pass_readHeader (c : Link σ) (data pkt : List UInt8) :
    (c.readHeader data).pass process pkt =
      { c.pass process pkt with pkt := (c.readHeader data).pkt } := by
  rw [Link.readHeader]
  split <;> rfl

/-- A packet that is in front and complete is taken, if its handler accepts it. -/
theorem linkPass_take {c : Link σ} {pkt data : List UInt8} (later : List UInt8)
    (hpkt : Framed size pkt) (hdata : data = pkt ++ later) (hreads : c.Reads data)
    (hok : (process c.handler pkt).2 = 0) :
    linkPass size process c data =
      .take ((c.readHeader data).pass process pkt) pkt.length := by
  have hhdr := hpkt.hdr_le
  have hlen : data.length = pkt.length + later.length := by rw [hdata, List.length_append]
  have hsize : size (data.take 8) = pkt.length := by
    rw [hdata, List.take_append_of_le_length hhdr, hpkt.size_eq]
  have hwhole : (data.take 8 ++ data.drop 8).take pkt.length = pkt := by
    rw [List.take_append_drop, hdata, List.take_left' rfl]
  have hgoes : ((c.readHeader data).pass process pkt).rv = 0 := by
    rw [pass_readHeader]
    exact hok
  unfold linkPass
  dsimp only
  rw [if_neg (by omega), pkt_readHeader hreads, hsize, hwhole, if_pos (by omega), if_pos hgoes]

variable (process) in
/-- Part of a packet waits for the rest. -/
theorem linkPass_wait {c : Link σ} {pkt data : List UInt8} (hpkt : Framed size pkt)
    (hpart : data <+: pkt) (hlt : data.length < pkt.length) (hreads : c.Reads data) :
    ∃ c', linkPass size process c data = .wait c' ∧ c'.Reads data ∧ c'.handler = c.handler ∧
      c'.delivered = c.delivered ∧ c'.rv = c.rv := by
  unfold linkPass
  dsimp only
  by_cases hshort : data.length < 8
  · exact ⟨c, if_pos hshort, hreads, rfl, rfl, rfl⟩
  · have hhdr : 8 ≤ data.length := by omega
    have hfront : data.take 8 = pkt.take 8 := by
      obtain ⟨tail, rfl⟩ := hpart
      rw [List.take_append_of_le_length hhdr]
    refine ⟨c.readHeader data, ?_, ?_, ?_⟩
    · rw [if_neg hshort, pkt_readHeader hreads, hfront, hpkt.size_eq, if_neg (by omega)]
    · exact fun _ => ⟨hhdr, pkt_readHeader hreads⟩
    · rw [Link.readHeader]
      split <;> exact ⟨rfl, rfl, rfl⟩

/-- Where a link is in a stream: what it has delivered, what is still to come, of which it
has kept a part. -/
structure Follows (size : List UInt8 → Nat) (process : σ → List UInt8 → σ × Int) (c : Link σ)
    (whole next : List (List UInt8)) (kept : List UInt8) : Prop where
  delivered : c.delivered = whole
  framed : ∀ pkt ∈ next, Framed size pkt
  accepts : Accepts process c.handler next
  rv : c.rv = 0
  reads : c.Reads kept
  part : ∀ pkt ∈ next.head?, kept.length < pkt.length

/-- The loop delivers the packets that are complete. -/
theorem loop_stream {next : List (List UInt8)} (hframed : ∀ pkt ∈ next, Framed size pkt)
    {c : Link σ} {whole : List (List UInt8)} {data later : List UInt8} {fuel : Nat}
    (hfuel : data.length < fuel) (hdelivered : c.delivered = whole)
    (haccepts : Accepts process c.handler next) (hrv : c.rv = 0) (hreads : c.Reads data)
    (hstream : data ++ later = next.flatten) :
    ∃ c' more next' rest, next = more ++ next' ∧ data = more.flatten ++ rest ∧
      ChunkedInput.loop (linkPass size process) fuel c data = .waiting c' rest ∧
      Follows size process c' (whole ++ more) next' rest := by
  induction next generalizing c whole data fuel with
  | nil =>
      obtain ⟨rfl, -⟩ := List.append_eq_nil_iff.mp hstream
      obtain ⟨fuel, rfl⟩ : ∃ k, fuel = k + 1 := ⟨fuel - 1, by omega⟩
      refine ⟨c, [], [], [], rfl, rfl, rfl, ?_⟩
      exact ⟨by rw [hdelivered, List.append_nil], hframed, haccepts, hrv, hreads,
        fun pkt hpkt => nomatch hpkt⟩
  | cons pkt next ih =>
      obtain ⟨fuel, rfl⟩ : ∃ k, fuel = k + 1 := ⟨fuel - 1, by omega⟩
      have hpkt := hframed pkt (List.mem_cons_self ..)
      rw [List.flatten_cons] at hstream
      by_cases hwhole : pkt.length ≤ data.length
      · obtain ⟨rest, hdata⟩ : ∃ rest, data = pkt ++ rest := by
          obtain ⟨rest, hrest⟩ := List.prefix_of_prefix_length_le (List.prefix_append pkt _)
            ⟨later, hstream⟩ hwhole
          exact ⟨rest, hrest.symm⟩
        obtain ⟨hok, hmore⟩ := haccepts
        have hpass := linkPass_take rest hpkt hdata hreads hok
        have hhdr := hpkt.hdr_le
        have hdrop : data.drop pkt.length = rest := by rw [hdata, List.drop_left' rfl]
        have hlen : data.length = pkt.length + rest.length := by rw [hdata, List.length_append]
        have hnew : (c.readHeader data).pass process pkt =
            { c.pass process pkt with pkt := (c.readHeader data).pkt } := pass_readHeader ..
        obtain ⟨c', more, next', rest', hnext, hrest, hloop, hfollows⟩ :=
          @ih (fun p hp => hframed p (List.mem_cons_of_mem _ hp))
            ((c.readHeader data).pass process pkt) (whole ++ [pkt]) rest fuel (by omega)
            (by rw [hnew, ← hdelivered]; rfl) (by rw [hnew]; exact hmore)
            (by rw [hnew]; exact hok) (by rw [hnew]; exact fun h => nomatch h)
            (by
              rw [hdata, List.append_assoc] at hstream
              exact List.append_cancel_left hstream)
        refine ⟨c', pkt :: more, next', rest', by rw [hnext, List.cons_append], ?_, ?_, ?_⟩
        · rw [hdata, hrest, List.flatten_cons, List.append_assoc]
        · rw [ChunkedInput.loop, hpass]
          show ChunkedInput.loop (linkPass size process) fuel _ (data.drop pkt.length) = _
          rw [hdrop, hloop]
        · rw [List.append_assoc, List.singleton_append] at hfollows
          exact hfollows
      · have hpart : data <+: pkt := List.prefix_of_prefix_length_le ⟨later, hstream⟩
          (List.prefix_append ..) (by omega)
        obtain ⟨c', hpass, hreads', hhandler, hdelivered', hrv'⟩ :=
          linkPass_wait process hpkt hpart (by omega) hreads
        refine ⟨c', [], pkt :: next, data, rfl, rfl, ?_, ?_⟩
        · rw [ChunkedInput.loop, hpass]
        · refine ⟨?_, hframed, by rw [hhandler]; exact haccepts, by rw [hrv', hrv], hreads', ?_⟩
          · rw [hdelivered', hdelivered, List.append_nil]
          · intro p hp
            obtain rfl : pkt = p := Option.some.inj hp
            omega

end Stream

/-! ## Calls -/

section Calls

variable {σ : Type} {size : List UInt8 → Nat} {process : σ → List UInt8 → σ × Int}

/-- A connection and what it keeps, until a call does not end. -/
abbrev LinkState (σ : Type) := Option (Link σ × RecvBuf)

/-- How much a call asks for. -/
def linkAsk : LinkState σ → Nat
  | some (_, buf) => linkRoom buf
  | none => 0

/-- A call for the bytes that arrive. -/
def linkNext (call : Link σ → RecvBuf → List UInt8 → Option (Link σ × RecvBuf)) (s : LinkState σ)
    (data : List UInt8) : LinkState σ :=
  s.bind fun (c, buf) => call c buf data

/-- Nothing is left over. -/
def LinkIdle : LinkState σ → Prop
  | some (c, buf) => c.hdrRead = false ∧ buf.saved = []
  | none => False

/-- The packets that were delivered. -/
def linkDelivered : LinkState σ → List (List UInt8)
  | some (c, _) => c.delivered
  | none => []

/-- A connection that was just made. -/
def LinkState.new (handler : σ) : LinkState σ := some (.new handler, .empty)

/-- Where the calls are in a stream of packets, of which some bytes are still to be read. -/
def Calls (size : List UInt8 → Nat) (process : σ → List UInt8 → σ × Int)
    (pkts : List (List UInt8)) (later : List UInt8) (s : LinkState σ) (rest : List UInt8) : Prop :=
  ∃ c buf whole next, s = some (c, buf) ∧ pkts = whole ++ next ∧
    buf.saved ++ (rest ++ later) = next.flatten ∧
    Follows size process c whole next buf.saved

theorem length_saved (buf : RecvBuf) : buf.saved.length = buf.recvbufCur := by
  have hcur := buf.cur_le
  rw [RecvBuf.saved, List.length_take, buf.length_recvbuf]
  omega

/-- There is room for more than what is kept. -/
theorem Follows.room {c : Link σ} {whole next : List (List UInt8)} {buf : RecvBuf}
    {more : List UInt8} (h : Follows size process c whole next buf.saved)
    (hstream : buf.saved ++ more = next.flatten) : 0 < linkRoom buf := by
  have hlen := length_saved buf
  rw [linkRoom]
  cases next with
  | nil =>
      obtain ⟨hnil, -⟩ := List.append_eq_nil_iff.mp hstream
      rw [hnil, List.length_nil] at hlen
      omega
  | cons pkt next =>
      have hpart := h.part pkt rfl
      have hlt := (h.framed pkt (List.mem_cons_self ..)).length_lt
      omega

/-- A call goes on in the stream. -/
theorem Calls.call {pkts : List (List UInt8)} {later : List UInt8} {s : LinkState σ}
    {data rest : List UInt8} (h : Calls size process pkts later s (data ++ rest))
    (hsome : data ≠ []) (hroom : data.length ≤ linkAsk s) :
    Calls size process pkts later (linkNext (linkCall size process) s data) rest := by
  obtain ⟨c, buf, whole, next, rfl, rfl, hstream, hfollows⟩ := h
  have hrv : ({ c with rv := 0 } : Link σ) = c := by rw [← hfollows.rv]
  have hreads : c.Reads (buf.saved ++ data) := by
    intro hread
    obtain ⟨hle, hpkt⟩ := hfollows.reads hread
    refine ⟨?_, ?_⟩
    · rw [List.length_append]
      omega
    · rw [hpkt, List.take_append_of_le_length hle]
  obtain ⟨c', more, next', kept, rfl, hdata, hloop, hfollows'⟩ :=
    @loop_stream σ size process next hfollows.framed c whole (buf.saved ++ data) (rest ++ later)
      ((buf.saved ++ data).length + 1) (Nat.lt_succ_self _) hfollows.delivered hfollows.accepts
      hfollows.rv hreads (by rw [← hstream, List.append_assoc, List.append_assoc])
  refine ⟨c', saveRest buf kept, whole ++ more, next', ?_, (List.append_assoc ..).symm, ?_, ?_⟩
  · show linkCall size process c buf data = _
    unfold linkCall
    rw [if_neg hsome, List.take_of_length_le (show data.length ≤ linkRoom buf from hroom), hrv]
    dsimp only
    rw [hloop]
  · rw [Ship.saved_saveRest]
    rw [List.append_assoc, ← List.append_assoc, hdata, List.flatten_append,
      List.append_assoc] at hstream
    exact List.append_cancel_left hstream
  · rw [Ship.saved_saveRest]
    exact hfollows'

/-- However the stream arrives, the packets that are complete are delivered, each once and in
order, and nothing is left over on the boundaries between packets only. -/
theorem link_delivers {pkts : List (List UInt8)} {stream later : List UInt8} {handler : σ}
    (hframed : ∀ pkt ∈ pkts, Framed size pkt) (haccepts : Accepts process handler pkts)
    (hstream : stream ++ later = pkts.flatten) (ns : List Nat) :
    let out := drain linkAsk (linkNext (linkCall size process)) (.new handler) stream ns
    Delivers pkts (stream.length - out.2.length) (linkDelivered out.1) (LinkIdle out.1) ∧
      (stream.length ≤ ns.length → out.2 = []) := by
  have hask : ∀ s rest, Calls size process pkts later s rest → 0 < linkAsk s := by
    rintro s rest ⟨c, buf, whole, next, rfl, -, hnext, hfollows⟩
    exact hfollows.room hnext
  have hcall : ∀ s data rest, Calls size process pkts later s (data ++ rest) → data ≠ [] →
      data.length ≤ linkAsk s →
        Calls size process pkts later (linkNext (linkCall size process) s data) rest :=
    fun s data rest h => h.call
  have hsome : ∀ pkt ∈ pkts, pkt ≠ [] := by
    intro pkt hmem hnil
    have hhdr := (hframed pkt hmem).hdr_le
    rw [hnil, List.length_nil] at hhdr
    omega
  have hstart : Calls size process pkts later (.new handler) stream := by
    refine ⟨_, _, [], pkts, rfl, rfl, hstream, rfl, hframed, haccepts, rfl, ?_, ?_⟩
    · exact fun h => nomatch h
    · intro pkt hpkt
      exact List.length_pos_iff.mpr (hsome pkt (List.mem_of_mem_head? hpkt))
  intro out
  refine ⟨?_, Socket.drain_all hask hcall hstart⟩
  obtain ⟨c, buf, whole, next, hs, rfl, hnext, hfollows⟩ :=
    Socket.drain_invariant hask hcall hstart ns
  have hread : stream.length - out.2.length = whole.flatten.length + buf.saved.length := by
    have htotal := congrArg List.length hstream
    have hmore := congrArg List.length hnext
    rw [List.flatten_append] at htotal
    simp only [List.length_append] at htotal hmore
    show stream.length - (drain linkAsk (linkNext (linkCall size process)) _ stream ns).2.length = _
    omega
  rw [hread]
  have hs : out.1 = some (c, buf) := hs
  rw [hs, linkDelivered, hfollows.delivered]
  apply Delivers.of_part hsome hfollows.part
  rw [LinkIdle, List.length_eq_zero_iff]
  constructor
  · exact fun h => h.2
  · intro hnone
    refine ⟨?_, hnone⟩
    by_contra hread'
    obtain ⟨hle, -⟩ := hfollows.reads ((Bool.not_eq_false _).mp hread')
    rw [hnone, List.length_nil] at hle
    omega

end Calls

end Sylverant.Shipgate
