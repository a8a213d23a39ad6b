/-
# Output of a ship to the shipgate

A ship sends packets to the shipgate from several threads. They are queued while the
connection is not keyed, that is until the shipgate has accepted the login, and while there is
none, and written at once otherwise. The login itself is written without a key, but not if
packets are queued in front of it: they wait for the key, and so does the login, for which the
shipgate waits.

A call of `gnutls_record_send` takes some bytes, or fails with a negative code. Those that ask
for another try are not expected when the queued packets are flushed.

Each call is one step. A failed allocation is left out, and so is what reconnecting changes
besides the output. A call that is tried again for ever is no step.
-/

import Sylverant.Library.Run
import Sylverant.Shipgate.Packets

namespace Sylverant.Shipgate

/-! ## The code -/

/-- The fields of `shipgate_conn_t` that sending uses. -/
structure ShipConn where
  sock : Int
  hasKey : Bool
  sendbuf : List UInt8
  sendbufCur : Nat
  sendbufSize : Nat
  sendbufStart : Nat

def GNUTLS_E_AGAIN : Int := -28
def GNUTLS_E_INTERRUPTED : Int := -52

/-- The loop of `send_raw` over a packet of a length, for the results of the calls of
`gnutls_record_send`. When there are no more of them, the rest is taken. It ends with the
number of bytes that were taken, and tells whether no call failed. -/
def sgLoop (len : Nat) : List Int → Nat → Nat × Bool
  | [], _ => (len, true)
  | rv :: results, total =>
      if total < len then
        if rv = GNUTLS_E_AGAIN ∨ rv = GNUTLS_E_INTERRUPTED then sgLoop len results total
        else if rv ≤ 0 then (total, false)
        else sgLoop len results (total + min rv.toNat (len - total))
      else (total, true)

/-- What a call does: the connection after it, the bytes that TLS took, the result, and whether
bytes were read from before the buffer. -/
structure Sending where
  conn : ShipConn
  bytes : List UInt8
  rv : Int
  outside : Bool

namespace ShipConn

/-- Move out any already transferred data. -/
def moveDown (c : ShipConn) : ShipConn :=
  if c.sendbufStart ≠ 0 then
    { c with
      sendbuf := (c.sendbuf.drop c.sendbufStart).take (c.sendbufCur - c.sendbufStart) ++
        c.sendbuf.drop (c.sendbufCur - c.sendbufStart),
      sendbufCur := c.sendbufCur - c.sendbufStart, sendbufStart := 0 }
  else c

/-- See if we need to reallocate the buffer. -/
def enlarge (c : ShipConn) (rv : Nat) : ShipConn :=
  if c.sendbufCur + rv > c.sendbufSize then
    { c with
      sendbufSize := c.sendbufCur + rv,
      sendbuf := c.sendbuf ++ List.replicate (c.sendbufCur + rv - c.sendbufSize) 0 }
  else c

/-- Copy what's left of the packet into the output buffer. -/
def copyIn (c : ShipConn) (data : List UInt8) : ShipConn :=
  { c with
    sendbuf := c.sendbuf.take c.sendbufCur ++ data ++ c.sendbuf.drop (c.sendbufCur + data.length),
    sendbufCur := c.sendbufCur + data.length }

/-- A packet goes out at once. -/
def Direct (c : ShipConn) (crypt : Bool) : Prop :=
  (crypt = false ∨ c.hasKey = true) ∧ 0 ≤ c.sock ∧ c.sendbufCur = 0

instance (c : ShipConn) (crypt : Bool) : Decidable (c.Direct crypt) :=
  inferInstanceAs (Decidable (_ ∧ _))

def sendRaw (c : ShipConn) (sendbuf : List UInt8) (crypt : Bool) (results : List Int) : Sending :=
  let loop := if c.Direct crypt then sgLoop sendbuf.length results 0 else (0, true)
  let total := loop.1
  if loop.2 then
    let rv := sendbuf.length - total
    let c := if rv ≠ 0 then (c.moveDown.enlarge rv).copyIn (sendbuf.drop total) else c
    ⟨c, sendbuf.take total, 0, false⟩
  else ⟨c, sendbuf.take total, -1, false⟩

def sendCrypt (c : ShipConn) (sendbuf : List UInt8) (results : List Int) : Sending :=
  if sendbuf.length < 8 then ⟨c, [], -1, false⟩ else c.sendRaw sendbuf true results

/-- `memmove` of what is behind the position `amt` to the front. Before the buffer there are
other bytes, which are read if the position is negative. -/
def moveFront (c : ShipConn) (amt : Int) (before : List UInt8) : ShipConn :=
  let moved :=
    if amt < 0 then field amt.natAbs before ++ c.sendbuf.take c.sendbufCur
    else (c.sendbuf.take c.sendbufCur).drop amt.toNat
  { c with
    sendbuf := moved ++ c.sendbuf.drop moved.length
    sendbufCur := (c.sendbufCur - amt).toNat }

/-- Send any piled up data (`shipgate_send_pkts`), where `gnutls_record_send` has a result, or
takes all. -/
def sendPkts (c : ShipConn) (result : Int) (before : List UInt8) : Sending :=
  if c.hasKey = false ∨ c.sock < 0 then ⟨c, [], 0, false⟩
  else
    let amt := min result c.sendbufCur
    if amt = -1 then ⟨c, [], -1, false⟩
    else if amt = c.sendbufCur then
      ⟨{ c with sendbufCur := 0 }, c.sendbuf.take c.sendbufCur, 0, false⟩
    else ⟨c.moveFront amt before, c.sendbuf.take amt.toNat, 0, decide (amt < 0)⟩

/-- `shipgate_send_ship_info`, for what it tells of the ship. -/
def sendShipInfo (c : ShipConn) (info : List UInt8) (results : List Int) : Sending :=
  c.sendRaw (packet 64 SHDR_TYPE_LOGIN6 SHDR_RESPONSE info) false results

/-- `shipgate_conn`, when it starts to reconnect. -/
def reconnect (c : ShipConn) : ShipConn :=
  { c with hasKey := false, sendbuf := [], sendbufCur := 0, sendbufSize := 0 }

/-- A ship that has just connected. -/
def new (fd : Nat) : ShipConn where
  sock := fd
  hasKey := false
  sendbuf := []
  sendbufCur := 0
  sendbufSize := 0
  sendbufStart := 0

/-- The bytes that are queued. -/
def pending (c : ShipConn) : List UInt8 := c.sendbuf.take c.sendbufCur

end ShipConn

/-! ## Events -/

/-- What happens to the connection: a thread sends a packet, the login request of the shipgate
is handled, or its reply to the login, the buffer is flushed, the connection is lost, and a new
one is begun and made. -/
inductive TrafficEvent
  | send (pkt : List UInt8) (results : List Int)
  | login (info : List UInt8) (results : List Int)
  | keyed
  | flush (result : Int) (before : List UInt8)
  | lost
  | reconnect
  | connected (fd : Nat)

/-- The connection and what went over it. -/
structure Traffic where
  conn : ShipConn
  /-- A new connection was begun, and is not there yet. -/
  connecting : Bool
  /-- The bytes that were written to the connection. -/
  wire : List UInt8
  /-- How many of them there were when the login had been handled. -/
  loginEnd : Nat
  /-- The bytes after the login on earlier connections. -/
  past : List UInt8
  /-- The packets that were sent, one after the other. -/
  queued : List UInt8
  /-- Bytes were read from before the buffer. -/
  outside : Bool

namespace Traffic

/-- A ship that has just connected. -/
def new (fd : Nat) : Traffic := ⟨.new fd, false, [], 0, [], [], false⟩

/-- One event. The login request is handled only until there is a key. A lost connection is
made again by the loop that has noticed it. -/
def next (t : Traffic) : TrafficEvent → Traffic
  | .send pkt results =>
      if pkt.length < 8 then t
      else
        let out := t.conn.sendCrypt pkt results
        { t with conn := out.conn, wire := t.wire ++ out.bytes, queued := t.queued ++ pkt }
  | .login info results =>
      if t.conn.hasKey = true ∨ t.conn.sock < 0 then t
      else
        let out := t.conn.sendShipInfo info results
        { t with
          conn := out.conn, wire := t.wire ++ out.bytes,
          loginEnd := (t.wire ++ out.bytes).length }
  | .keyed =>
      if t.conn.hasKey = true ∨ t.conn.sock < 0 then t
      else { t with conn := { t.conn with hasKey := true } }
  | .flush result before =>
      let out := t.conn.sendPkts result before
      { t with
        conn := out.conn, wire := t.wire ++ out.bytes,
        outside := t.outside || out.outside }
  | .lost => { t with conn := { t.conn with sock := -1 } }
  | .reconnect =>
      if 0 ≤ t.conn.sock then t
      else
        { t with
          conn := t.conn.reconnect, connecting := true, wire := [], loginEnd := 0,
          past := t.past ++ t.wire.drop t.loginEnd }
  | .connected fd =>
      if t.connecting then { t with conn := { t.conn with sock := fd }, connecting := false }
      else t

/-! ## What should hold -/

/-- What was written after the login, followed by what is queued, are the packets in order, and
nothing was read from before the buffer. -/
structure InOrder (t : Traffic) : Prop where
  bytes : t.past ++ t.wire.drop t.loginEnd ++ t.conn.pending = t.queued
  inside : t.outside = false

/-- A login request that is handled is answered at once: all of the login is written. -/
def LoginWritten (t : Traffic) : TrafficEvent → Prop
  | .login info results =>
      t.conn.hasKey = false → 0 ≤ t.conn.sock →
        (t.next (.login info results)).wire =
          t.wire ++ packet 64 SHDR_TYPE_LOGIN6 SHDR_RESPONSE info
  | _ => True

/-- An event does what it should. -/
def Holds (t : Traffic) (e : TrafficEvent) : Prop := t.LoginWritten e ∧ (t.next e).InOrder

/-- The calls of `gnutls_record_send` let so many bytes through: none of those that are made
fails. -/
def Goes : List Int → Nat → Prop
  | [], _ => True
  | rv :: results, left =>
      left = 0 ∨ (rv = GNUTLS_E_AGAIN ∨ rv = GNUTLS_E_INTERRUPTED) ∧ Goes results left ∨
        0 < rv ∧ Goes results (left - min rv.toNat left)

/-- What is written at once goes through, nothing is queued when the login request is handled
or a new connection is begun, and a flush gets no error but -1. -/
def Fine (t : Traffic) : TrafficEvent → Prop
  | .send pkt results => 8 ≤ pkt.length → t.conn.Direct true → Goes results pkt.length
  | .login _ results =>
      t.conn.hasKey = false → 0 ≤ t.conn.sock → t.conn.sendbufCur = 0 ∧ Goes results 64
  | .flush result _ => t.conn.hasKey = true → 0 ≤ t.conn.sock → -1 ≤ result
  | .reconnect => t.conn.sock < 0 → t.conn.sendbufCur = 0
  | .keyed => True
  | .lost => True
  | .connected _ => True

end Traffic

/-! ## Calls -/

section Calls

open Traffic (Goes)

theorem sgLoop_spec {len : Nat} (results : List Int) {total : Nat} (hle : total ≤ len) :
    (sgLoop len results total).1 ≤ len ∧
      ((sgLoop len results total).2 = true ↔ Goes results (len - total)) ∧
      ((sgLoop len results total).2 = true ↔ (sgLoop len results total).1 = len) := by
  induction results generalizing total with
  | nil => exact ⟨Nat.le_refl _, ⟨fun _ => trivial, fun _ => rfl⟩, ⟨fun _ => rfl, fun _ => rfl⟩⟩
  | cons rv results ih =>
      rw [sgLoop, Goes]
      by_cases hmore : total < len
      · rw [if_pos hmore]
        by_cases hagain : rv = GNUTLS_E_AGAIN ∨ rv = GNUTLS_E_INTERRUPTED
        · rw [if_pos hagain]
          obtain ⟨hlen, hgoes, hall⟩ := ih hle
          refine ⟨hlen, hgoes.trans ⟨fun h => .inr (.inl ⟨hagain, h⟩), ?_⟩, hall⟩
          rintro (hnone | ⟨-, h⟩ | ⟨hpos, -⟩)
          · omega
          · exact h
          · rw [GNUTLS_E_AGAIN, GNUTLS_E_INTERRUPTED] at hagain
            omega
        · rw [if_neg hagain]
          by_cases hfail : rv ≤ 0
          · rw [if_pos hfail]
            refine ⟨hle, ⟨fun h => (nomatch h), ?_⟩, ⟨fun h => (nomatch h), ?_⟩⟩
            · rintro (hnone | ⟨hagain', -⟩ | ⟨hpos, -⟩)
              · omega
              · exact absurd hagain' hagain
              · omega
            · intro hall
              exact absurd hall (Nat.ne_of_lt hmore)
          · rw [if_neg hfail]
            have hrest : len - (total + min rv.toNat (len - total)) =
                len - total - min rv.toNat (len - total) := by omega
            obtain ⟨hlen, hgoes, hall⟩ :=
              @ih (total + min rv.toNat (len - total)) (by omega)
            rw [hrest] at hgoes
            refine ⟨hlen, hgoes.trans ⟨fun h => .inr (.inr ⟨by omega, h⟩), ?_⟩, hall⟩
            rintro (hnone | ⟨hagain', -⟩ | ⟨-, h⟩)
            · omega
            · exact absurd hagain' hagain
            · exact h
      · rw [if_neg hmore]
        have hdone : total = len := by omega
        exact ⟨hle, ⟨fun _ => .inl (by omega), fun _ => rfl⟩, ⟨fun _ => hdone, fun _ => rfl⟩⟩

/-- The bounds of the buffer, of which nothing is ever sent in part. -/
structure ShipConn.Valid (c : ShipConn) : Prop where
  length_sendbuf : c.sendbuf.length = c.sendbufSize
  cur_le : c.sendbufCur ≤ c.sendbufSize
  start : c.sendbufStart = 0

variable {c : ShipConn}

theorem ShipConn.Valid.length_pending (hc : c.Valid) : c.pending.length = c.sendbufCur := by
  have hlen := hc.length_sendbuf
  have hle := hc.cur_le
  rw [ShipConn.pending, List.length_take]
  omega

/-- What is copied behind the queued bytes is queued. -/
theorem ShipConn.Valid.queue (hc : c.Valid) (data : List UInt8) :
    ((c.moveDown.enlarge data.length).copyIn data).Valid ∧
      ((c.moveDown.enlarge data.length).copyIn data).pending = c.pending ++ data ∧
      ((c.moveDown.enlarge data.length).copyIn data).hasKey = c.hasKey ∧
      ((c.moveDown.enlarge data.length).copyIn data).sock = c.sock := by
  have hdown : c.moveDown = c := if_neg (not_not_intro hc.start)
  have hlen := hc.length_sendbuf
  have hle := hc.cur_le
  obtain ⟨buf, size, henlarge, hsize, hroom, hfront⟩ : ∃ buf size, c.enlarge data.length =
      { c with sendbuf := buf, sendbufSize := size } ∧ buf.length = size ∧
      c.sendbufCur + data.length ≤ size ∧ buf.take c.sendbufCur = c.pending := by
    rw [ShipConn.enlarge]
    split
    · refine ⟨_, _, rfl, ?_, Nat.le_refl _, ?_⟩
      · rw [List.length_append, List.length_replicate]
        omega
      · rw [List.take_append_of_le_length (by omega), ShipConn.pending]
    · exact ⟨c.sendbuf, c.sendbufSize, rfl, hlen, by omega, rfl⟩
  have hcur : (buf.take c.sendbufCur).length = c.sendbufCur := by
    rw [List.length_take]
    omega
  rw [hdown, henlarge, ShipConn.copyIn]
  refine ⟨⟨?_, hroom, hc.start⟩, ?_, rfl, rfl⟩
  · show (buf.take c.sendbufCur ++ data ++ buf.drop (c.sendbufCur + data.length)).length = size
    rw [List.length_append, List.length_append, hcur, List.length_drop]
    omega
  · show (buf.take c.sendbufCur ++ data ++ buf.drop (c.sendbufCur + data.length)).take
      (c.sendbufCur + data.length) = _
    rw [List.take_left' (by rw [List.length_append, hcur]), hfront]

/-- A packet that does not go out at once is queued. -/
theorem ShipConn.Valid.sendRaw_queued (hc : c.Valid) {crypt : Bool} (hdirect : ¬c.Direct crypt)
    (sendbuf : List UInt8) (results : List Int) :
    ∃ c', c.sendRaw sendbuf crypt results = ⟨c', [], 0, false⟩ ∧ c'.Valid ∧
      c'.pending = c.pending ++ sendbuf ∧ c'.hasKey = c.hasKey ∧ c'.sock = c.sock := by
  unfold ShipConn.sendRaw
  rw [if_neg hdirect]
  dsimp only
  rw [if_pos rfl, Nat.sub_zero, List.drop_zero, List.take_zero]
  by_cases hnil : sendbuf.length = 0
  · rw [if_neg (not_not_intro hnil)]
    refine ⟨c, rfl, hc, ?_, rfl, rfl⟩
    rw [List.length_eq_zero_iff.mp hnil, List.append_nil]
  · rw [if_pos hnil]
    exact ⟨_, rfl, hc.queue sendbuf⟩

/-- A packet that goes out at once is written as far as TLS takes it, and what is not is
dropped. -/
theorem sendRaw_direct {crypt : Bool} (hdirect : c.Direct crypt) (sendbuf : List UInt8)
    (results : List Int) :
    ∃ total rv, c.sendRaw sendbuf crypt results = ⟨c, sendbuf.take total, rv, false⟩ ∧
      total ≤ sendbuf.length ∧ (Goes results sendbuf.length ↔ total = sendbuf.length) := by
  obtain ⟨hle, hgoes, hall⟩ := @sgLoop_spec sendbuf.length results 0 (Nat.zero_le _)
  rw [Nat.sub_zero] at hgoes
  have hiff := hgoes.symm.trans hall
  unfold ShipConn.sendRaw
  rw [if_pos hdirect]
  dsimp only
  by_cases hok : (sgLoop sendbuf.length results 0).2 = true
  · rw [if_pos hok, if_neg (by rw [hall.mp hok]; omega)]
    exact ⟨_, _, rfl, hle, hiff⟩
  · rw [if_neg hok]
    exact ⟨_, _, rfl, hle, hiff⟩

theorem Direct.pending_eq_nil {crypt : Bool} (h : c.Direct crypt) : c.pending = [] := by
  rw [ShipConn.pending, h.2.2, List.take_zero]

/-- Moving the rest to the front leaves it queued. -/
theorem ShipConn.Valid.moveFront (hc : c.Valid) (before : List UInt8) {amt : Nat}
    (hlt : amt < c.sendbufCur) :
    (c.moveFront amt before).Valid ∧
      c.sendbuf.take (amt : Int).toNat ++ (c.moveFront amt before).pending = c.pending ∧
      (c.moveFront amt before).hasKey = c.hasKey ∧ (c.moveFront amt before).sock = c.sock := by
  have hlen := hc.length_sendbuf
  have hle := hc.cur_le
  have hmoved : ((c.sendbuf.take c.sendbufCur).drop amt).length = c.sendbufCur - amt := by
    rw [List.length_drop, List.length_take]
    omega
  have hfront : c.moveFront amt before =
      { c with
        sendbuf := (c.sendbuf.take c.sendbufCur).drop amt ++ c.sendbuf.drop (c.sendbufCur - amt)
        sendbufCur := c.sendbufCur - amt } := by
    unfold ShipConn.moveFront
    rw [if_neg (Int.not_lt.mpr (Int.natCast_nonneg amt)), Int.toNat_natCast]
    dsimp only
    rw [hmoved, show (c.sendbufCur - (amt : Int)).toNat = c.sendbufCur - amt by omega]
  rw [hfront]
  refine ⟨⟨?_, ?_, hc.start⟩, ?_, rfl, rfl⟩
  · show (_ ++ c.sendbuf.drop (c.sendbufCur - amt)).length = c.sendbufSize
    rw [List.length_append, hmoved, List.length_drop]
    omega
  · show c.sendbufCur - amt ≤ c.sendbufSize
    omega
  · show c.sendbuf.take (amt : Int).toNat ++
      (_ ++ c.sendbuf.drop (c.sendbufCur - amt)).take (c.sendbufCur - amt) = c.pending
    have htake : c.sendbuf.take amt = (c.sendbuf.take c.sendbufCur).take amt := by
      rw [List.take_take, Nat.min_eq_left (Nat.le_of_lt hlt)]
    rw [List.take_left' hmoved, Int.toNat_natCast, ShipConn.pending, htake, List.take_append_drop]

/-- A flush without another error than -1 writes the front of what is queued. -/
theorem ShipConn.Valid.sendPkts (hc : c.Valid) {result : Int} (before : List UInt8)
    (hresult : c.hasKey = true → 0 ≤ c.sock → -1 ≤ result) :
    ∃ c' bytes rv, c.sendPkts result before = ⟨c', bytes, rv, false⟩ ∧ c'.Valid ∧
      bytes ++ c'.pending = c.pending ∧ c'.hasKey = c.hasKey ∧ c'.sock = c.sock ∧
      (c.hasKey = false → bytes = []) := by
  unfold ShipConn.sendPkts
  by_cases hidle : c.hasKey = false ∨ c.sock < 0
  · rw [if_pos hidle]
    exact ⟨c, [], 0, rfl, hc, rfl, rfl, rfl, fun _ => rfl⟩
  · rw [if_neg hidle]
    have hkey : c.hasKey = true := by
      cases h : c.hasKey
      · exact absurd (.inl h) hidle
      · rfl
    have hlow := hresult hkey (by omega)
    have hnokey {bytes : List UInt8} : c.hasKey = false → bytes = [] := by
      intro h
      rw [hkey] at h
      exact nomatch h
    dsimp only
    by_cases hfail : min result c.sendbufCur = -1
    · rw [if_pos hfail]
      exact ⟨c, [], -1, rfl, hc, rfl, rfl, rfl, fun _ => rfl⟩
    · rw [if_neg hfail]
      by_cases hall : min result c.sendbufCur = c.sendbufCur
      · rw [if_pos hall]
        refine ⟨_, _, _, rfl, ⟨hc.length_sendbuf, Nat.zero_le _, hc.start⟩, ?_, rfl, rfl, hnokey⟩
        show c.sendbuf.take c.sendbufCur ++ c.sendbuf.take 0 = c.pending
        rw [List.take_zero, List.append_nil, ShipConn.pending]
      · rw [if_neg hall]
        have hpos : 0 ≤ min result c.sendbufCur := by omega
        obtain ⟨amt, hamt⟩ := Int.eq_ofNat_of_zero_le hpos
        have hlt : amt < c.sendbufCur := by omega
        obtain ⟨hvalid, hbytes, hkey', hsock⟩ := hc.moveFront before hlt
        rw [hamt, decide_eq_false (Int.not_lt.mpr (Int.natCast_nonneg amt))]
        exact ⟨_, _, _, rfl, hvalid, hbytes, hkey', hsock, hnokey⟩

end Calls

/-! ## One event -/

namespace Traffic

/-- The states that are reached while all goes well. Without a key, nothing was written after
the login. -/
structure Keeping (t : Traffic) : Prop where
  valid : t.conn.Valid
  inOrder : t.InOrder
  loginEnd_le : t.loginEnd ≤ t.wire.length
  unkeyed : t.conn.hasKey = false → t.wire.drop t.loginEnd = []

theorem Keeping.new (fd : Nat) : Keeping (.new fd) where
  valid := ⟨rfl, Nat.le_refl _, rfl⟩
  inOrder := ⟨rfl, rfl⟩
  loginEnd_le := Nat.le_refl _
  unkeyed := fun _ => rfl

variable {t : Traffic}

/-- What is written behind the login is written in order. -/
theorem Keeping.drop_wire (h : Keeping t) (bytes : List UInt8) :
    (t.wire ++ bytes).drop t.loginEnd = t.wire.drop t.loginEnd ++ bytes :=
  List.drop_append_of_le_length h.loginEnd_le

theorem next_send {pkt : List UInt8} (hlen : 8 ≤ pkt.length) (results : List Int) :
    t.next (.send pkt results) =
      { t with
        conn := (t.conn.sendRaw pkt true results).conn
        wire := t.wire ++ (t.conn.sendRaw pkt true results).bytes
        queued := t.queued ++ pkt } := by
  unfold next
  dsimp only
  rw [if_neg (Nat.not_lt_of_le hlen), ShipConn.sendCrypt, if_neg (Nat.not_lt_of_le hlen)]

theorem Keeping.send (h : Keeping t) (pkt : List UInt8) (results : List Int) :
    (Fine t (.send pkt results) → Keeping (t.next (.send pkt results))) ∧
      ((t.next (.send pkt results)).InOrder → Fine t (.send pkt results)) := by
  by_cases hshort : pkt.length < 8
  · have hsame : t.next (.send pkt results) = t := if_pos hshort
    rw [hsame]
    exact ⟨fun _ => h, fun _ hlen => absurd hlen (Nat.not_le_of_lt hshort)⟩
  · have hlen := Nat.le_of_not_lt hshort
    rw [next_send hlen results]
    by_cases hdirect : t.conn.Direct true
    · obtain ⟨total, rv, hsent, hle, hgoes⟩ := sendRaw_direct hdirect pkt results
      rw [hsent]
      have hnone := Direct.pending_eq_nil hdirect
      have hbytes := h.inOrder.bytes
      rw [hnone, List.append_nil] at hbytes
      constructor
      · intro hfine
        have hall : total = pkt.length := hgoes.mp (hfine hlen hdirect)
        have htake : pkt.take total = pkt := by rw [hall, List.take_length]
        refine ⟨h.valid, ⟨?_, h.inOrder.inside⟩, ?_, ?_⟩
        · show t.past ++ (t.wire ++ pkt.take total).drop t.loginEnd ++ t.conn.pending = _
          rw [h.drop_wire, hnone, htake, List.append_nil, ← List.append_assoc, hbytes]
        · show t.loginEnd ≤ (t.wire ++ pkt.take total).length
          rw [List.length_append]
          exact Nat.le_trans h.loginEnd_le (Nat.le_add_right ..)
        · intro hkey
          rcases hdirect.1 with hcrypt | hkey'
          · exact nomatch hcrypt
          · exact absurd (hkey.symm.trans hkey') (by decide)
      · intro horder _ _
        apply hgoes.mpr
        have hnew : t.past ++ (t.wire ++ pkt.take total).drop t.loginEnd ++ t.conn.pending =
            t.queued ++ pkt := horder.bytes
        rw [h.drop_wire, hnone, List.append_nil, ← List.append_assoc, hbytes] at hnew
        have hpkt := congrArg List.length (List.append_cancel_left hnew)
        rw [List.length_take] at hpkt
        omega
    · obtain ⟨c', hsent, hvalid, hpending, hkey, -⟩ :=
        h.valid.sendRaw_queued hdirect pkt results
      rw [hsent]
      refine ⟨fun _ => ?_, fun _ _ hdirect' => absurd hdirect' hdirect⟩
      refine ⟨hvalid, ⟨?_, h.inOrder.inside⟩, ?_, ?_⟩
      · show t.past ++ (t.wire ++ []).drop t.loginEnd ++ c'.pending = t.queued ++ pkt
        rw [List.append_nil, hpending, ← List.append_assoc, h.inOrder.bytes]
      · show t.loginEnd ≤ (t.wire ++ []).length
        rw [List.append_nil]
        exact h.loginEnd_le
      · intro hkey'
        show (t.wire ++ []).drop t.loginEnd = []
        rw [List.append_nil]
        exact h.unkeyed (hkey.symm.trans hkey')

/-- A login request that is handled is answered at once if and only if nothing is queued, and
what is written goes through. -/
theorem Keeping.login (h : Keeping t) (info : List UInt8) (results : List Int) :
    (Fine t (.login info results) →
      LoginWritten t (.login info results) ∧ Keeping (t.next (.login info results))) ∧
      (LoginWritten t (.login info results) → Fine t (.login info results)) := by
  have hreply := length_packet 64 SHDR_TYPE_LOGIN6 SHDR_RESPONSE info
  by_cases hidle : t.conn.hasKey = true ∨ t.conn.sock < 0
  · have hsame : t.next (.login info results) = t := if_pos hidle
    have hnot {p : Prop} (hkey : t.conn.hasKey = false) (hsock : 0 ≤ t.conn.sock) : p := by
      rcases hidle with hkey' | hsock'
      · exact absurd (hkey.symm.trans hkey') (by decide)
      · omega
    refine ⟨fun _ => ⟨hnot, ?_⟩, fun _ => hnot⟩
    rw [hsame]
    exact h
  · have hkey : t.conn.hasKey = false := by
      cases hcase : t.conn.hasKey
      · rfl
      · exact absurd (.inl hcase) hidle
    have hsock : 0 ≤ t.conn.sock := by omega
    have hnext : t.next (.login info results) =
        { t with
          conn := (t.conn.sendShipInfo info results).conn
          wire := t.wire ++ (t.conn.sendShipInfo info results).bytes
          loginEnd := (t.wire ++ (t.conn.sendShipInfo info results).bytes).length } :=
      if_neg hidle
    by_cases hcur : t.conn.sendbufCur = 0
    · have hdirect : t.conn.Direct false := ⟨.inl rfl, hsock, hcur⟩
      obtain ⟨total, rv, hsent, hle, hgoes⟩ := sendRaw_direct hdirect
        (packet 64 SHDR_TYPE_LOGIN6 SHDR_RESPONSE info) results
      rw [hreply] at hgoes hle
      have hinfo : t.conn.sendShipInfo info results = _ := hsent
      constructor
      · intro hfine
        have hall := hgoes.mp (hfine hkey hsock).2
        have htake : (packet 64 SHDR_TYPE_LOGIN6 SHDR_RESPONSE info).take total =
            packet 64 SHDR_TYPE_LOGIN6 SHDR_RESPONSE info :=
          List.take_of_length_le (Nat.le_of_eq (hreply.trans hall.symm))
        rw [hinfo, htake] at hnext
        refine ⟨fun _ _ => by rw [hnext], ?_⟩
        have hbytes := h.inOrder.bytes
        rw [h.unkeyed hkey] at hbytes
        rw [hnext]
        refine ⟨h.valid, ⟨?_, h.inOrder.inside⟩, Nat.le_refl _, fun _ => List.drop_length⟩
        show t.past ++ List.drop _ _ ++ t.conn.pending = t.queued
        rw [List.drop_length, hbytes]
      · intro hwritten _ _
        refine ⟨hcur, hgoes.mpr ?_⟩
        have hwire := hwritten hkey hsock
        rw [hnext, hinfo] at hwire
        have hlen := congrArg List.length (List.append_cancel_left hwire)
        rw [List.length_take, hreply] at hlen
        omega
    · have hdirect : ¬t.conn.Direct false := fun hdirect => hcur hdirect.2.2
      obtain ⟨c', hsent, -⟩ := h.valid.sendRaw_queued hdirect
        (packet 64 SHDR_TYPE_LOGIN6 SHDR_RESPONSE info) results
      have hinfo : t.conn.sendShipInfo info results = _ := hsent
      refine ⟨fun hfine => absurd (hfine hkey hsock).1 hcur, ?_⟩
      intro hwritten
      have hwire := hwritten hkey hsock
      rw [hnext, hinfo] at hwire
      have hlen := congrArg List.length (List.append_cancel_left hwire)
      rw [hreply] at hlen
      exact nomatch hlen

theorem Keeping.flush (h : Keeping t) (result : Int) (before : List UInt8) :
    (Fine t (.flush result before) → Keeping (t.next (.flush result before))) ∧
      ((t.next (.flush result before)).InOrder → Fine t (.flush result before)) := by
  constructor
  · intro hfine
    obtain ⟨c', bytes, rv, hsent, hvalid, hpending, hkey, -, hnone⟩ :=
      h.valid.sendPkts before hfine
    have hnext : t.next (.flush result before) =
        { t with conn := c', wire := t.wire ++ bytes, outside := t.outside || false } := by
      unfold next
      dsimp only
      rw [hsent]
    rw [hnext]
    refine ⟨hvalid, ⟨?_, ?_⟩, ?_, ?_⟩
    · show t.past ++ (t.wire ++ bytes).drop t.loginEnd ++ c'.pending = t.queued
      rw [h.drop_wire, ← List.append_assoc, List.append_assoc, hpending, h.inOrder.bytes]
    · show (t.outside || false) = false
      rw [h.inOrder.inside]
      rfl
    · show t.loginEnd ≤ (t.wire ++ bytes).length
      rw [List.length_append]
      exact Nat.le_trans h.loginEnd_le (Nat.le_add_right ..)
    · intro hkey'
      have hnokey := hkey.symm.trans hkey'
      show (t.wire ++ bytes).drop t.loginEnd = []
      rw [hnone hnokey, List.append_nil]
      exact h.unkeyed hnokey
  · intro horder hkey hsock
    by_contra hlow
    have hmin : min result t.conn.sendbufCur = result := by omega
    have hopen : ¬(t.conn.hasKey = false ∨ t.conn.sock < 0) := by
      rintro (hnokey | hlost)
      · exact absurd (hkey.symm.trans hnokey) (by decide)
      · omega
    have hout : (t.conn.sendPkts result before).outside = true := by
      unfold ShipConn.sendPkts
      rw [if_neg hopen]
      dsimp only
      rw [hmin, if_neg (by omega), if_neg (by omega)]
      exact decide_eq_true (by omega)
    have hinside : (t.outside || (t.conn.sendPkts result before).outside) = false :=
      horder.inside
    rw [hout, Bool.or_true] at hinside
    exact nomatch hinside

/-- A new connection drops what is queued. -/
theorem Keeping.reconnect (h : Keeping t) :
    (Fine t .reconnect → Keeping (t.next .reconnect)) ∧
      ((t.next .reconnect).InOrder → Fine t .reconnect) := by
  by_cases hsock : 0 ≤ t.conn.sock
  · have hsame : t.next .reconnect = t := if_pos hsock
    rw [hsame]
    exact ⟨fun _ => h, fun _ hlost => absurd hlost (Int.not_lt.mpr hsock)⟩
  · have hnext : t.next .reconnect =
        { t with
          conn := t.conn.reconnect, connecting := true, wire := [], loginEnd := 0,
          past := t.past ++ t.wire.drop t.loginEnd } := if_neg hsock
    rw [hnext]
    have hpending := h.valid.length_pending
    constructor
    · intro hfine
      have hnone : t.conn.pending = [] := by
        rw [← List.length_eq_zero_iff, hpending, hfine (Int.not_le.mp hsock)]
      refine ⟨⟨rfl, Nat.le_refl _, h.valid.start⟩, ⟨?_, h.inOrder.inside⟩, Nat.le_refl _,
        fun _ => rfl⟩
      show t.past ++ t.wire.drop t.loginEnd ++ [] ++ [] = t.queued
      rw [← h.inOrder.bytes, hnone, List.append_nil]
    · intro horder _
      have hbytes : t.past ++ t.wire.drop t.loginEnd ++ [] ++ [] = t.queued := horder.bytes
      rw [List.append_nil, ← h.inOrder.bytes] at hbytes
      have hlen := congrArg List.length (List.append_cancel_left hbytes)
      rw [hpending] at hlen
      exact hlen.symm

/-- In a state where all goes well, an event does what it should if and only if it is fine, and
all goes well after it. -/
theorem Keeping.holds_iff (h : Keeping t) (e : TrafficEvent) :
    (Holds t e ↔ Fine t e) ∧ (Fine t e → Keeping (t.next e)) := by
  have hkept (hnext : Fine t e → Keeping (t.next e)) (hwritten : Fine t e → LoginWritten t e)
      (hfine : Holds t e → Fine t e) :
      (Holds t e ↔ Fine t e) ∧ (Fine t e → Keeping (t.next e)) :=
    ⟨⟨hfine, fun he => ⟨hwritten he, (hnext he).inOrder⟩⟩, hnext⟩
  cases e with
  | send pkt results =>
      obtain ⟨hnext, hfine⟩ := h.send pkt results
      exact hkept hnext (fun _ => trivial) fun hholds => hfine hholds.2
  | login info results =>
      obtain ⟨hnext, hfine⟩ := h.login info results
      exact hkept (fun he => (hnext he).2) (fun he => (hnext he).1) fun hholds => hfine hholds.1
  | flush result before =>
      obtain ⟨hnext, hfine⟩ := h.flush result before
      exact hkept hnext (fun _ => trivial) fun hholds => hfine hholds.2
  | reconnect =>
      obtain ⟨hnext, hfine⟩ := h.reconnect
      exact hkept hnext (fun _ => trivial) fun hholds => hfine hholds.2
  | keyed =>
      refine hkept (fun _ => ?_) (fun _ => trivial) fun _ => trivial
      rw [next]
      split
      · exact h
      · exact ⟨⟨h.valid.length_sendbuf, h.valid.cur_le, h.valid.start⟩,
          ⟨h.inOrder.bytes, h.inOrder.inside⟩, h.loginEnd_le, fun hkey => nomatch hkey⟩
  | lost =>
      refine hkept (fun _ => ?_) (fun _ => trivial) fun _ => trivial
      exact ⟨⟨h.valid.length_sendbuf, h.valid.cur_le, h.valid.start⟩,
        ⟨h.inOrder.bytes, h.inOrder.inside⟩, h.loginEnd_le, h.unkeyed⟩
  | connected fd =>
      refine hkept (fun _ => ?_) (fun _ => trivial) fun _ => trivial
      rw [next]
      split
      · exact ⟨⟨h.valid.length_sendbuf, h.valid.cur_le, h.valid.start⟩,
          ⟨h.inOrder.bytes, h.inOrder.inside⟩, h.loginEnd_le, h.unkeyed⟩
      · exact h

/-- A ping. -/
def ping : TrafficEvent := .send [0, 8, 0, 0x13, 0, 0, 0, 0] []

end Traffic

end Sylverant.Shipgate
