/-
# Delivering packets

A client encrypts its packets as one stream. However `recv` cuts the stream into
pieces, the handlers are given the packets, each once and in order, until one of
them ends the connection, and the client is left as one call for all the bytes
leaves it.
-/

import Mathlib.Algebra.Group.Nat.Defs
import Sylverant.Ship.Framing

namespace Sylverant.Ship

open ChunkedInput (Reader)

/-! ## Packets -/

/-- The smallest multiple of the header's size that holds `len` bytes. -/
def roundUp (hsz len : Nat) : Nat := (len + hsz - 1) / hsz * hsz

/-- A packet as clients send it: the length field is at least the header and is
not so large that rounding up overflows, and the packet is padded. -/
structure WellFormed (version : Version) (pkt : List UInt8) : Prop where
  hdr_le : version.hdrSize ≤ pktLen version pkt
  le_max : pktLen version pkt ≤ 65528
  length_eq : pkt.length = roundUp version.hdrSize (pktLen version pkt)

/-- Clear the low bits of a number of 16 bits. -/
theorem and_clearLow {k n : Nat} (hk : k ≤ 16) (hn : n < 0x10000) :
    n &&& (0x10000 - 2 ^ k) = n / 2 ^ k * 2 ^ k := by
  have hmask : 0x10000 - 2 ^ k = (2 ^ (16 - k) - 1) * 2 ^ k := by
    rw [Nat.sub_mul, ← Nat.pow_add, Nat.sub_add_cancel hk, Nat.one_mul]
  rw [hmask, ← Nat.shiftLeft_eq, ← Nat.shiftLeft_eq, ← Nat.shiftRight_eq_div_pow]
  apply Nat.eq_of_testBit_eq
  intro i
  rw [Nat.testBit_and, Nat.testBit_shiftLeft, Nat.testBit_shiftLeft, Nat.testBit_two_pow_sub_one,
    Nat.testBit_shiftRight]
  by_cases hi : k ≤ i
  · by_cases hlt : i - k < 16 - k
    · simp [hi, hlt]
    · have hbig : n.testBit i = false :=
        Nat.testBit_lt_two_pow (Nat.lt_of_lt_of_le hn
          (Nat.pow_le_pow_right Nat.zero_lt_two (show 16 ≤ i by omega)))
      simp [hi, hlt, hbig]
  · simp [hi]

/-- The size of a packet is its length, rounded up. -/
theorem pktSz_eq {version : Version} {pkt : List UInt8} (hle : pktLen version pkt ≤ 65528) :
    pktSz version pkt = roundUp version.hdrSize (pktLen version pkt) := by
  obtain ⟨k, hk, hhdr⟩ : ∃ k, (k = 2 ∨ k = 3) ∧ version.hdrSize = 2 ^ k := by
    cases version <;> first | exact ⟨2, .inl rfl, rfl⟩ | exact ⟨3, .inr rfl, rfl⟩
  simp only [pktSz, roundUp]
  generalize pktLen version pkt = len at hle ⊢
  rw [hhdr, Nat.and_two_pow_sub_one_eq_mod, and_clearLow (by omega) (by omega)]
  obtain rfl | rfl := hk
  · split <;> omega
  · split <;> omega

/-- The length field is in the header. -/
theorem pktLen_take (version : Version) (pkt : List UInt8) :
    pktLen version (pkt.take version.hdrSize) = pktLen version pkt := by
  cases version <;>
    simp [pktLen, Version.hdrSize, List.getD_eq_getElem?_getD]

namespace WellFormed

variable {version : Version} {pkt : List UInt8}

theorem hdr_le_length (h : WellFormed version pkt) : version.hdrSize ≤ pkt.length := by
  have hle := h.hdr_le
  rw [h.length_eq, roundUp]
  cases version <;> simp only [Version.hdrSize] at hle ⊢ <;> omega

/-- The header tells the size of the packet. -/
theorem pktSz_header (h : WellFormed version pkt) :
    pktSz version (pkt.take version.hdrSize) = pkt.length := by
  have hlen := pktLen_take version pkt
  rw [pktSz_eq (by rw [hlen]; exact h.le_max), hlen, h.length_eq]

end WellFormed

theorem pktLen_lt (version : Version) (pkt : List UInt8) : pktLen version pkt < 0x10000 := by
  have hbyte (b : UInt8) : b.toNat < 256 := b.toNat_lt
  have h₀ := hbyte (pkt.getD 0 0)
  have h₁ := hbyte (pkt.getD 1 0)
  have h₂ := hbyte (pkt.getD 2 0)
  have h₃ := hbyte (pkt.getD 3 0)
  cases version <;> simp only [pktLen, le16] <;> omega

/-- Sizes fit in 16 bits. -/
theorem pktSz_lt (version : Version) (pkt : List UInt8) : pktSz version pkt < 0x10000 := by
  have hlen := pktLen_lt version pkt
  rw [pktSz]
  split
  · exact Nat.mod_lt _ (by decide)
  · exact hlen

/-- What is kept leaves room for `recv` in the buffer of 65536 bytes. -/
theorem length_rest_lt {σ : Type} {key : Nat → UInt8 → UInt8} {handlers : Handlers σ}
    {r r' : Reception σ} {data rest : List UInt8}
    (h : (pktReader key handlers).run r data = .waiting r' rest) : rest.length < 0x10000 := by
  obtain ⟨t, hstep⟩ := Reader.exists_step_of_waiting h
  have hbound := pktSz_lt t.c.version (readHeader key t.c rest).pkt
  have hstep : processPass key handlers t rest = .wait r' := hstep
  rw [processPass_eq] at hstep
  split_ifs at hstep with hshort hwhole
  · have hhdr : t.c.version.hdrSize ≤ 8 := by cases t.c.version <;> decide
    omega
  · omega

/-! ## Delivery -/

section Delivery

variable {σ : Type} (handlers : Handlers σ)

/-- Give one packet to its handler. The header stays in `pkt`, and the cipher has
moved on by the packet. -/
def deliver (r : Reception σ) (pkt : List UInt8) : Reception σ :=
  handlePkt handlers
    { r with
      c := { r.c with
        pkt := pkt.take r.c.version.hdrSize, ckey := r.c.ckey + pkt.length, hdrRead := false } }
    pkt

/-- Give the handlers one packet after the other, until one of them refuses. -/
def deliverAll (r : Reception σ) : List (List UInt8) → Reception σ
  | [] => r
  | pkt :: pkts =>
      if (deliver handlers r pkt).rv = 0 then deliverAll (deliver handlers r pkt) pkts
      else deliver handlers r pkt

variable {handlers}

@[simp]
theorem version_deliver (r : Reception σ) (pkt : List UInt8) :
    (deliver handlers r pkt).c.version = r.c.version := rfl

@[simp]
theorem hdrRead_deliver (r : Reception σ) (pkt : List UInt8) :
    (deliver handlers r pkt).c.hdrRead = false := rfl

@[simp]
theorem ckey_deliver (r : Reception σ) (pkt : List UInt8) :
    (deliver handlers r pkt).c.ckey = r.c.ckey + pkt.length := rfl

@[simp]
theorem delivered_deliver (r : Reception σ) (pkt : List UInt8) :
    (deliver handlers r pkt).delivered = r.delivered ++ [pkt] := rfl

/-- When no handler refuses, all packets are delivered, and decrypted once. -/
theorem deliverAll_of_rv {r : Reception σ} {pkts : List (List UInt8)}
    (hread : r.c.hdrRead = false) (h : (deliverAll handlers r pkts).rv = 0) :
    (deliverAll handlers r pkts).delivered = r.delivered ++ pkts ∧
      (deliverAll handlers r pkts).c.hdrRead = false ∧
      (deliverAll handlers r pkts).c.ckey = r.c.ckey + pkts.flatten.length := by
  induction pkts generalizing r with
  | nil => exact ⟨(List.append_nil _).symm, hread, rfl⟩
  | cons pkt pkts ih =>
      rw [deliverAll] at h ⊢
      split at h
      · rename_i hgoes
        obtain ⟨hdel, hhdr, hkey⟩ := ih (hdrRead_deliver r pkt) h
        rw [if_pos hgoes]
        refine ⟨?_, hhdr, ?_⟩
        · rw [hdel, delivered_deliver, List.append_assoc, List.singleton_append]
        · rw [hkey, ckey_deliver, List.flatten_cons, List.length_append, Nat.add_assoc]
      · rename_i hrefuse
        exact absurd h hrefuse

end Delivery

/-! ## The stream -/

/-- The client when `rest` waits for more: a header that is there is decrypted. -/
def pendingHeader (key : Nat → UInt8 → UInt8) (c : RecvClient) (rest : List UInt8) : RecvClient :=
  if rest.length < c.version.hdrSize then c else readHeader key c rest

section Stream

variable {σ : Type} {key enc : Nat → UInt8 → UInt8} {handlers : Handlers σ}

/-- The header of a packet in front is decrypted. -/
theorem readHeader_packet (hkey : ∀ i b, key i (enc i b) = b) {c : RecvClient}
    {pkt : List UInt8} (later : List UInt8) (hread : c.hdrRead = false)
    (hwf : WellFormed c.version pkt) :
    readHeader key c (cryptData enc c.ckey pkt ++ later) =
      { c with
        pkt := pkt.take c.version.hdrSize, ckey := c.ckey + c.version.hdrSize,
        hdrRead := true } := by
  have hle := hwf.hdr_le_length
  rw [readHeader, if_neg (by rw [hread]; decide),
    List.take_append_of_le_length (by rw [length_cryptData]; exact hle), take_cryptData,
    cryptData_cancel hkey]

/-- Taking a packet that is in front delivers it. -/
theorem takePkt_packet (hkey : ∀ i b, key i (enc i b) = b) {r : Reception σ}
    {pkt : List UInt8} (later : List UInt8) (hwf : WellFormed r.c.version pkt) :
    takePkt key handlers r
      { r.c with
        pkt := pkt.take r.c.version.hdrSize, ckey := r.c.ckey + r.c.version.hdrSize,
        hdrRead := true }
      (cryptData enc r.c.ckey pkt ++ later) = deliver handlers r pkt := by
  have hle := hwf.hdr_le_length
  have hbody : cryptData key (r.c.ckey + r.c.version.hdrSize)
      (((cryptData enc r.c.ckey pkt ++ later).drop r.c.version.hdrSize).take
        (pkt.length - r.c.version.hdrSize)) = pkt.drop r.c.version.hdrSize := by
    rw [List.drop_append_of_le_length (by rw [length_cryptData]; exact hle), drop_cryptData,
      List.take_left' (by rw [length_cryptData, List.length_drop]), cryptData_cancel hkey]
  have hpos : r.c.ckey + r.c.version.hdrSize + (pkt.length - r.c.version.hdrSize) =
      r.c.ckey + pkt.length := by omega
  simp only [takePkt, hwf.pktSz_header, hbody, hpos, List.take_append_drop]
  rfl

variable (handlers) in
/-- One pass over a stream with a packet in front. -/
theorem processPass_packet (hkey : ∀ i b, key i (enc i b) = b) {r : Reception σ}
    {pkt : List UInt8} (later : List UInt8) (hread : r.c.hdrRead = false)
    (hwf : WellFormed r.c.version pkt) :
    processPass key handlers r (cryptData enc r.c.ckey pkt ++ later) =
      if (deliver handlers r pkt).rv = 0 then .take (deliver handlers r pkt) pkt.length
      else .stop (deliver handlers r pkt) := by
  have hle := hwf.hdr_le_length
  rw [processPass_eq, readHeader_packet hkey later hread hwf, takePkt_packet hkey later hwf]
  simp only [hwf.pktSz_header, List.length_append, length_cryptData]
  rw [if_neg (by omega), if_pos (by omega), if_neg (by omega)]

/-- Less than a packet is kept. Its header is decrypted when it is there. -/
theorem run_short (hkey : ∀ i b, key i (enc i b) = b) {r : Reception σ} {pkt rest : List UInt8}
    (hread : r.c.hdrRead = false) (hwf : WellFormed r.c.version pkt)
    (hrest : rest <+: cryptData enc r.c.ckey pkt) (hshort : rest.length < pkt.length) :
    (pktReader key handlers).run r rest =
      .waiting { r with c := pendingHeader key r.c rest } rest := by
  apply Reader.run_wait
  show processPass key handlers r rest = _
  rw [processPass_eq, pendingHeader]
  split
  · rfl
  · rename_i hlong
    obtain ⟨tail, htail⟩ := hrest
    have hheader := readHeader_packet hkey [] hread hwf
    rw [List.append_nil, ← htail, readHeader_append r.c tail (by omega)] at hheader
    rw [hheader]
    simp only [hwf.pktSz_header]
    rw [if_neg (by omega)]

/-- The packets that lie in the first `n` bytes of the stream. -/
def complete : List (List UInt8) → Nat → List (List UInt8)
  | [], _ => []
  | pkt :: pkts, n => if pkt.length ≤ n then pkt :: complete pkts (n - pkt.length) else []

theorem complete_of_length_le {pkts : List (List UInt8)} {n : Nat}
    (h : pkts.flatten.length ≤ n) : complete pkts n = pkts := by
  induction pkts generalizing n with
  | nil => rfl
  | cons pkt pkts ih =>
      rw [List.flatten_cons, List.length_append] at h
      rw [complete, if_pos (by omega), ih (by omega)]

/-- Reading a part of the stream delivers the packets that are complete. -/
theorem run_stream (hkey : ∀ i b, key i (enc i b) = b) {r : Reception σ}
    {pkts : List (List UInt8)} {data later : List UInt8} (hread : r.c.hdrRead = false)
    (hrv : r.rv = 0) (hwf : ∀ pkt ∈ pkts, WellFormed r.c.version pkt)
    (hstream : data ++ later = cryptData enc r.c.ckey pkts.flatten) :
    (pktReader key handlers).run r data =
      let done := deliverAll handlers r (complete pkts data.length)
      let rest := data.drop (complete pkts data.length).flatten.length
      if done.rv = 0 then .waiting { done with c := pendingHeader key done.c rest } rest
      else .stopped done := by
  induction pkts generalizing r data with
  | nil =>
      obtain ⟨rfl, -⟩ := List.append_eq_nil_iff.mp hstream
      simp only [complete, deliverAll, if_pos hrv, List.drop_nil]
      apply Reader.run_wait
      show processPass key handlers r [] = _
      have hshort : ([] : List UInt8).length < r.c.version.hdrSize := hdrSize_pos _
      rw [processPass_eq, pendingHeader, if_pos hshort, if_pos hshort]
  | cons pkt pkts ih =>
      have hpkt := hwf pkt (List.mem_cons_self ..)
      rw [List.flatten_cons, cryptData_append] at hstream
      by_cases hwhole : pkt.length ≤ data.length
      · obtain ⟨rest, rfl, hrest⟩ :
            ∃ rest, data = cryptData enc r.c.ckey pkt ++ rest ∧
              rest ++ later = cryptData enc (r.c.ckey + pkt.length) pkts.flatten := by
          obtain ⟨rest, hdata⟩ := List.prefix_of_prefix_length_le
            (List.prefix_append (cryptData enc r.c.ckey pkt) _)
            ⟨later, hstream⟩ (by rw [length_cryptData]; exact hwhole)
          refine ⟨rest, hdata.symm, ?_⟩
          rw [← hdata, List.append_assoc] at hstream
          exact List.append_cancel_left hstream
        have hpass := processPass_packet handlers hkey rest hread hpkt
        have hsub : (cryptData enc r.c.ckey pkt ++ rest).length - pkt.length = rest.length := by
          rw [List.length_append, length_cryptData]
          omega
        rw [complete, if_pos hwhole, hsub, deliverAll, List.flatten_cons, List.length_append]
        by_cases hgoes : (deliver handlers r pkt).rv = 0
        · rw [if_pos hgoes] at hpass
          rw [Reader.run_take hpass, List.drop_left' (length_cryptData ..), if_pos hgoes,
            ih (hdrRead_deliver r pkt) hgoes (fun p hp => hwf p (List.mem_cons_of_mem _ hp))
              hrest, ← List.drop_drop, List.drop_left' (length_cryptData ..)]
        · rw [if_neg hgoes] at hpass
          rw [if_neg hgoes]
          simp only [if_neg hgoes]
          exact Reader.run_stop hpass
      · rw [complete, if_neg hwhole, deliverAll]
        simp only [if_pos hrv, List.flatten_nil, List.length_nil, List.drop_zero]
        refine run_short hkey hread hpkt ?_ (by omega)
        exact List.prefix_of_prefix_length_le ⟨later, hstream⟩ (List.prefix_append ..)
          (by rw [length_cryptData]; omega)

end Stream

/-! ## Framing -/

section Framing

variable {σ : Type} {key enc : Nat → UInt8 → UInt8} {handlers : Handlers σ}

/-- The client after the first bytes of a stream of packets, and the bytes that
are kept: the packets that are complete are delivered, up to one that is refused. -/
def afterStream (key : Nat → UInt8 → UInt8) (handlers : Handlers σ) (r : Reception σ)
    (pkts : List (List UInt8)) (data : List UInt8) : Reception σ × List UInt8 :=
  let done := deliverAll handlers r (complete pkts data.length)
  let rest := data.drop (complete pkts data.length).flatten.length
  if done.rv = 0 then ({ done with c := pendingHeader key done.c rest }, rest) else (done, [])

/-- After the whole stream nothing is kept. -/
theorem afterStream_all (key : Nat → UInt8 → UInt8) (handlers : Handlers σ) (r : Reception σ)
    {pkts : List (List UInt8)} {data : List UInt8}
    (hlen : data.length = pkts.flatten.length) :
    afterStream key handlers r pkts data = (deliverAll handlers r pkts, []) := by
  have hrest : data.drop pkts.flatten.length = [] := List.drop_eq_nil_of_le (by omega)
  have hpending (c : RecvClient) : pendingHeader key c [] = c := if_pos (hdrSize_pos _)
  simp only [afterStream, complete_of_length_le (Nat.le_of_eq hlen.symm), hrest, hpending]
  split <;> rfl

/-- Whatever reads the stream, the caller sees `afterStream`. -/
theorem Ends.afterStream (hkey : ∀ i b, key i (enc i b) = b) {r : Reception σ}
    {pkts : List (List UInt8)} {data later : List UInt8} (hread : r.c.hdrRead = false)
    (hrv : r.rv = 0) (hwf : ∀ pkt ∈ pkts, WellFormed r.c.version pkt)
    (hstream : data ++ later = cryptData enc r.c.ckey pkts.flatten)
    {result : Option (Reception σ × RecvBuf)}
    (hends : Ends ((pktReader key handlers).run r data) result) :
    ∃ buf, result = some ((afterStream key handlers r pkts data).1, buf) ∧
      buf.saved = (afterStream key handlers r pkts data).2 := by
  rw [run_stream hkey hread hrv hwf hstream] at hends
  rw [Sylverant.Ship.afterStream]
  by_cases hgoes : (deliverAll handlers r (complete pkts data.length)).rv = 0
  · simp only [if_pos hgoes] at hends ⊢
    cases result with
    | none => exact hends.elim
    | some pair =>
        obtain ⟨r', buf⟩ := pair
        obtain ⟨rfl, hsaved, -⟩ := hends
        exact ⟨buf, rfl, hsaved⟩
  · simp only [if_neg hgoes] at hends ⊢
    cases result with
    | none => exact hends.elim
    | some pair =>
        obtain ⟨r', buf⟩ := pair
        obtain ⟨rfl, hsaved, -⟩ := hends
        exact ⟨buf, rfl, hsaved⟩

/-- Two packets of a PC client, the first with padding. -/
def twoPackets : List (List UInt8) := [[6, 0, 0x84, 1, 2, 3, 0, 0], [4, 0, 0x81, 5]]

/-- A client before its first packet. -/
def freshClient : Reception Unit where
  c := { version := .pc, typeShip := false, hdrRead := false, pkt := [], ckey := 0 }
  handler := ()
  delivered := []
  rv := 0

end Framing

end Sylverant.Ship
