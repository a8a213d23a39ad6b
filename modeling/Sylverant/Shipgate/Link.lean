/-
# The link between ship and shipgate

Both ends read the stream of the other with a loop over what has arrived: `handle_pkt` of the
shipgate, and `shipgate_process_pkt` of the ship, which rounds the length of a packet up to
whole blocks of eight bytes. The loops are the same otherwise, and one definition here.

TLS hands over the bytes as they were sent. The handlers act on a state of their own and
return zero to go on. When one does not, the connection is closed, so that what is kept then
is left out, as are failed allocations, the log file and the time of the last message. A loop
that takes nothing from the stream again and again does not end, and fails here.
-/

import Sylverant.Library.ChunkedInput
import Sylverant.Ship.Delivery

namespace Sylverant.Shipgate

open ChunkedInput (Step Outcome)
open Ship (RecvBuf saveRest)

/-! ## The code -/

/-- The fields of `ship_t` and of `shipgate_conn_t` that reading uses, the state of the packet
handlers, and the packets they were given. -/
structure Link (σ : Type) where
  hdrRead : Bool
  /-- The header that was saved. -/
  pkt : List UInt8
  handler : σ
  delivered : List (List UInt8)
  rv : Int

/-- The field `pkt_len` of a header, in network byte order. -/
def pktLen (pkt : List UInt8) : Nat := 256 * (pkt.getD 0 0).toNat + (pkt.getD 1 0).toNat

/-- The length, rounded up to a multiple of 8 bytes in 16 bits. -/
def pktLen8 (pkt : List UInt8) : Nat :=
  if pktLen pkt &&& 0x07 ≠ 0 then ((pktLen pkt &&& 0xFFF8) + 8) % 0x10000 else pktLen pkt

section Link

variable {σ : Type} (size : List UInt8 → Nat) (process : σ → List UInt8 → σ × Int)

/-- Copy out the packet header, unless that was done before. -/
def Link.readHeader (c : Link σ) (rbp : List UInt8) : Link σ :=
  if c.hdrRead then c else { c with pkt := rbp.take 8, hdrRead := true }

/-- Pass a packet on. -/
def Link.pass (c : Link σ) (pkt : List UInt8) : Link σ :=
  let result := process c.handler pkt
  { c with
    hdrRead := false, handler := result.1, delivered := c.delivered ++ [pkt], rv := result.2 }

/-- One pass of the loop over the bytes from `rbp` on. -/
def linkPass (c : Link σ) (rbp : List UInt8) : Step (Link σ) :=
  if rbp.length < 8 then .wait c
  else
    let c := c.readHeader rbp
    let pktSz := size c.pkt
    if pktSz ≤ rbp.length then
      let c := c.pass process ((c.pkt ++ rbp.drop 8).take pktSz)
      if c.rv = 0 then .take c pktSz else .stop c
    else .wait c

/-- How much is asked for: what is free in the main buffer. -/
def linkRoom (buf : RecvBuf) : Nat := 65536 - buf.recvbufCur

/-- A call, for the bytes that were received. Nothing is returned when the loop does not
end. -/
def linkCall (c : Link σ) (buf : RecvBuf) (received : List UInt8) : Option (Link σ × RecvBuf) :=
  if received = [] then some ({ c with rv := -1 }, buf)
  else
    let data := buf.saved ++ received.take (linkRoom buf)
    match ChunkedInput.loop (linkPass size process) (data.length + 1) { c with rv := 0 } data with
    | .waiting c rest => some (c, saveRest buf rest)
    | .stopped c => some (c, .empty)
    | .failed => none

/-- `handle_pkt` of the shipgate. -/
def handlePkt : Link σ → RecvBuf → List UInt8 → Option (Link σ × RecvBuf) :=
  linkCall pktLen process

/-- `shipgate_process_pkt` of the ship. -/
def shipgateProcessPkt : Link σ → RecvBuf → List UInt8 → Option (Link σ × RecvBuf) :=
  linkCall pktLen8 process

/-- A connection that was just made. -/
def Link.new (handler : σ) : Link σ where
  hdrRead := false
  pkt := []
  handler := handler
  delivered := []
  rv := 0

end Link

/-! ## Sizes -/

theorem pktLen_lt (pkt : List UInt8) : pktLen pkt < 0x10000 := by
  have hhigh := (pkt.getD 0 0).toNat_lt
  have hlow := (pkt.getD 1 0).toNat_lt
  rw [pktLen]
  omega

/-- The length is in the header. -/
theorem pktLen_take (pkt : List UInt8) : pktLen (pkt.take 8) = pktLen pkt := by
  simp [pktLen, List.getD_eq_getElem?_getD]

theorem pktLen8_take (pkt : List UInt8) : pktLen8 (pkt.take 8) = pktLen8 pkt := by
  rw [pktLen8, pktLen8, pktLen_take]

/-- Rounding up makes a multiple of 8, unless it carries over 16 bits. -/
theorem pktLen8_eq (pkt : List UInt8) : pktLen8 pkt = (pktLen pkt + 7) / 8 * 8 % 0x10000 := by
  have hlen := pktLen_lt pkt
  rw [pktLen8, show (0x07 : Nat) = 2 ^ 3 - 1 from rfl, Nat.and_two_pow_sub_one_eq_mod,
    show (0xFFF8 : Nat) = 0x10000 - 2 ^ 3 from rfl, Ship.and_clearLow (by decide) hlen]
  split <;> omega

theorem pktLen8_lt (pkt : List UInt8) : pktLen8 pkt < 0x10000 := by
  rw [pktLen8_eq]
  exact Nat.mod_lt _ (by decide)

end Sylverant.Shipgate
