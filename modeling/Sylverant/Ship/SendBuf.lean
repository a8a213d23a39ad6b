/-
# Sending packets

A packet goes to the socket at once as long as nothing is queued; what the socket
does not take is queued in `sendbuf` between `sendbuf_start` and `sendbuf_cur`,
and the loop of the block passes it on when the socket is ready. A client with its
buffer and its socket is a queue of bytes, and every step of either code path is a
step of that queue.

A failed allocation is left out, and so is the log file. What `realloc` adds to a
buffer is not specified; it is zero here and is overwritten before it is read.
-/

import Sylverant.Library.Channels
import Sylverant.Ship.Delivery

namespace Sylverant.Ship

open Fifo (Queue Op)

/-- The fields of `ship_client_t` that sending uses, and the bytes that `send` has
handed to the socket. -/
structure SendClient where
  version : Version
  /-- The position of `skey` in its stream. -/
  skey : Nat
  sendbuf : List UInt8
  sendbufCur : Nat
  sendbufSize : Nat
  sendbufStart : Nat
  socket : List UInt8

/-- What `send` returns: the socket takes `n + 1` bytes or all if there are fewer,
takes none for now, or fails. -/
inductive SendResult
  | sent (n : Nat)
  | eagain
  | fail
  deriving DecidableEq

/-! ## The code -/

/-- The loop of `send_raw`, from the call `i` of `send` on. It ends with the bytes
at the socket and the number of bytes sent. -/
def sendLoop (results : Nat → SendResult) (sendbuf : List UInt8) (i total : Nat)
    (socket : List UInt8) : Option (List UInt8 × Nat) :=
  if total < sendbuf.length then
    match results i with
    | .fail => none
    | .eagain => some (socket, total)
    | .sent n =>
        let rv := min (n + 1) (sendbuf.length - total)
        sendLoop results sendbuf (i + 1) (total + rv) (socket ++ (sendbuf.drop total).take rv)
  else some (socket, total)
termination_by sendbuf.length - total

/-- Move out any already transferred data. -/
def SendClient.moveDown (c : SendClient) : SendClient :=
  if c.sendbufStart ≠ 0 then
    { c with
      sendbuf := (c.sendbuf.drop c.sendbufStart).take (c.sendbufCur - c.sendbufStart) ++
        c.sendbuf.drop (c.sendbufCur - c.sendbufStart),
      sendbufCur := c.sendbufCur - c.sendbufStart, sendbufStart := 0 }
  else c

/-- See if we need to reallocate the buffer. -/
def SendClient.enlarge (c : SendClient) (rv : Nat) : SendClient :=
  if c.sendbufCur + rv > c.sendbufSize then
    { c with
      sendbufSize := c.sendbufCur + rv,
      sendbuf := c.sendbuf ++ List.replicate (c.sendbufCur + rv - c.sendbufSize) 0 }
  else c

/-- Copy what's left of the packet into the output buffer. -/
def SendClient.copyIn (c : SendClient) (data : List UInt8) : SendClient :=
  { c with
    sendbuf := c.sendbuf.take c.sendbufCur ++ data ++ c.sendbuf.drop (c.sendbufCur + data.length),
    sendbufCur := c.sendbufCur + data.length }

/-- `send_raw`. Nothing is returned when `send` fails. -/
def sendRaw (results : Nat → SendResult) (c : SendClient) (sendbuf : List UInt8) :
    Option SendClient :=
  match (if c.sendbufCur = 0 then sendLoop results sendbuf 0 0 c.socket
    else some (c.socket, 0)) with
  | none => none
  | some (socket, total) =>
      let rv := sendbuf.length - total
      let c := { c with socket }
      if rv ≠ 0 then some ((c.moveDown.enlarge rv).copyIn (sendbuf.drop total)) else some c

/-- Expand a packet to be a multiple of 8 or 4 bytes long. -/
def expand (hsz : Nat) : Nat → List UInt8 → List UInt8
  | 0, sendbuf => sendbuf
  | fuel + 1, sendbuf =>
      if sendbuf.length &&& (hsz - 1) ≠ 0 then expand hsz fuel (sendbuf ++ [0]) else sendbuf

/-- `crypt_send`. -/
def cryptSend (enc : Nat → UInt8 → UInt8) (results : Nat → SendResult) (c : SendClient)
    (sendbuf : List UInt8) : Option SendClient :=
  let hsz := c.version.hdrSize
  let pkt := expand hsz hsz sendbuf
  sendRaw results { c with skey := c.skey + pkt.length } (cryptData enc c.skey pkt)

/-- What the loop of `block_thd` does when the socket can be written. -/
def writeReady (result : SendResult) (c : SendClient) : Option SendClient :=
  if c.sendbufCur ≠ 0 then
    match result with
    | .fail => none
    | .eagain => some c
    | .sent n =>
        let sent := min (n + 1) (c.sendbufCur - c.sendbufStart)
        let c :=
          { c with
            socket := c.socket ++ (c.sendbuf.drop c.sendbufStart).take sent,
            sendbufStart := c.sendbufStart + sent }
        if c.sendbufStart = c.sendbufCur then
          some { c with sendbuf := [], sendbufCur := 0, sendbufSize := 0, sendbufStart := 0 }
        else some c
  else some c

/-- What happens to a client, with the results of the calls of `send`. -/
inductive SendEvent
  | sendRaw (sendbuf : List UInt8) (results : Nat → SendResult)
  | cryptSend (sendbuf : List UInt8) (results : Nat → SendResult)
  | writeReady (result : SendResult)

/-- One event. -/
def sendStep (enc : Nat → UInt8 → UInt8) (c : SendClient) : SendEvent → Option SendClient
  | .sendRaw sendbuf results => Ship.sendRaw results c sendbuf
  | .cryptSend sendbuf results => Ship.cryptSend enc results c sendbuf
  | .writeReady result => Ship.writeReady result c

/-- A run of events. -/
def sendRun (enc : Nat → UInt8 → UInt8) (c : SendClient) : List SendEvent → Option SendClient
  | [] => some c
  | event :: events =>
      match sendStep enc c event with
      | none => none
      | some c => sendRun enc c events

/-- A client that was just created. -/
def SendClient.new (version : Version) : SendClient where
  version := version
  skey := 0
  sendbuf := []
  sendbufCur := 0
  sendbufSize := 0
  sendbufStart := 0
  socket := []

/-! ## The queue -/

/-- The bytes in `sendbuf[sendbuf_start..sendbuf_cur)`. -/
def SendClient.pending (c : SendClient) : List UInt8 :=
  (c.sendbuf.drop c.sendbufStart).take (c.sendbufCur - c.sendbufStart)

/-- A client as a queue of bytes. -/
def SendClient.queue (c : SendClient) : Queue UInt8 where
  taken := c.socket
  pending := c.pending

/-- The bounds of the buffer, and that it is freed when all of it was sent. -/
structure SendClient.Valid (c : SendClient) : Prop where
  length_sendbuf : c.sendbuf.length = c.sendbufSize
  start_le : c.sendbufStart ≤ c.sendbufCur
  cur_le : c.sendbufCur ≤ c.sendbufSize
  freed : c.sendbufStart = c.sendbufCur → c.sendbufCur = 0

theorem SendClient.valid_new (version : Version) : (SendClient.new version).Valid :=
  ⟨rfl, Nat.le_refl 0, Nat.le_refl 0, fun _ => rfl⟩

section Code

variable {c : SendClient}

theorem SendClient.pending_eq_nil (h : c.sendbufCur = 0) : c.pending = [] := by
  rw [pending, h, Nat.zero_sub, List.take_zero]

theorem SendClient.Valid.length_pending (hc : c.Valid) :
    c.pending.length = c.sendbufCur - c.sendbufStart := by
  have := hc.cur_le
  rw [SendClient.pending, List.length_take, List.length_drop, hc.length_sendbuf]
  omega

/-- Compaction keeps what is pending, at the front. -/
theorem SendClient.Valid.moveDown (hc : c.Valid) :
    c.moveDown.Valid ∧ c.moveDown.sendbufStart = 0 ∧ c.moveDown.queue = c.queue ∧
      c.moveDown.version = c.version ∧ c.moveDown.skey = c.skey := by
  have hlen := hc.length_pending
  have hsize := hc.length_sendbuf
  have hstart := hc.start_le
  have hcur := hc.cur_le
  have hfreed := hc.freed
  rw [SendClient.moveDown]
  split
  · refine ⟨⟨?_, ?_, ?_, ?_⟩, rfl, ?_, rfl, rfl⟩
    · show (c.pending ++ c.sendbuf.drop (c.sendbufCur - c.sendbufStart)).length = c.sendbufSize
      rw [List.length_append, hlen, List.length_drop]
      omega
    · exact Nat.zero_le _
    · show c.sendbufCur - c.sendbufStart ≤ c.sendbufSize
      omega
    · intro (hzero : 0 = c.sendbufCur - c.sendbufStart)
      exact hzero.symm
    · show Queue.mk c.socket (((c.pending ++ c.sendbuf.drop (c.sendbufCur - c.sendbufStart)).drop
        0).take (c.sendbufCur - c.sendbufStart - 0)) = Queue.mk c.socket c.pending
      rw [List.drop_zero, Nat.sub_zero, List.take_left' hlen]
  · rename_i hzero
    exact ⟨hc, by omega, rfl, rfl, rfl⟩

/-- A larger buffer holds the same. -/
theorem SendClient.Valid.enlarge (hc : c.Valid) (rv : Nat) :
    (c.enlarge rv).Valid ∧ (c.enlarge rv).queue = c.queue ∧
      (c.enlarge rv).sendbufCur + rv ≤ (c.enlarge rv).sendbufSize ∧
      (c.enlarge rv).sendbufStart = c.sendbufStart ∧
      (c.enlarge rv).version = c.version ∧ (c.enlarge rv).skey = c.skey := by
  have hsize := hc.length_sendbuf
  have hstart := hc.start_le
  have hcur := hc.cur_le
  rw [SendClient.enlarge]
  split
  · rename_i hsmall
    refine ⟨⟨?_, hstart, ?_, hc.freed⟩, ?_, ?_, rfl, rfl, rfl⟩
    · show (c.sendbuf ++ List.replicate (c.sendbufCur + rv - c.sendbufSize) 0).length =
        c.sendbufCur + rv
      rw [List.length_append, List.length_replicate]
      omega
    · show c.sendbufCur ≤ c.sendbufCur + rv
      omega
    · show Queue.mk c.socket (((c.sendbuf ++ _).drop c.sendbufStart).take
        (c.sendbufCur - c.sendbufStart)) = Queue.mk c.socket c.pending
      rw [List.drop_append_of_le_length (by omega),
        List.take_append_of_le_length (by rw [List.length_drop]; omega), SendClient.pending]
    · exact Nat.le_refl _
  · rename_i hlarge
    exact ⟨hc, rfl, by omega, rfl, rfl, rfl⟩

/-- Copying into a buffer that is large enough queues the bytes. -/
theorem SendClient.Valid.copyIn (hc : c.Valid) {data : List UInt8} (hdata : data ≠ [])
    (hroom : c.sendbufCur + data.length ≤ c.sendbufSize) :
    (c.copyIn data).Valid ∧ (c.copyIn data).queue = c.queue.push data := by
  have hsize := hc.length_sendbuf
  have hstart := hc.start_le
  have hpos := List.length_pos_iff.mpr hdata
  refine ⟨⟨?_, ?_, hroom, ?_⟩, ?_⟩
  · show (c.sendbuf.take c.sendbufCur ++ data ++
      c.sendbuf.drop (c.sendbufCur + data.length)).length = c.sendbufSize
    simp only [List.length_append, List.length_take, List.length_drop]
    omega
  · show c.sendbufStart ≤ c.sendbufCur + data.length
    omega
  · intro (hfull : c.sendbufStart = c.sendbufCur + data.length)
    omega
  · have hfront : (c.sendbuf.take c.sendbufCur).length = c.sendbufCur := by
      rw [List.length_take]
      omega
    show Queue.mk c.socket _ = Queue.mk c.socket (c.pending ++ data)
    congr 1
    show ((c.sendbuf.take c.sendbufCur ++ data ++ _).drop c.sendbufStart).take
      (c.sendbufCur + data.length - c.sendbufStart) = _
    rw [List.append_assoc, List.drop_append_of_le_length (by omega), ← List.append_assoc,
      List.take_left' (by rw [List.length_append, List.length_drop]; omega), List.drop_take]
    rfl

end Code

/-! ## Steps of the queue -/

/-- The socket may be slow, but does not fail. -/
def Healthy (results : Nat → SendResult) : Prop := ∀ i, results i ≠ .fail

section Steps

variable {c : SendClient} {results : Nat → SendResult}

/-- The loop hands the packet over from the front, as far as it gets. -/
theorem sendLoop_spec (hok : Healthy results) (sendbuf : List UInt8) (i total : Nat)
    (socket : List UInt8) (htotal : total ≤ sendbuf.length) :
    ∃ total', total ≤ total' ∧ total' ≤ sendbuf.length ∧
      sendLoop results sendbuf i total socket =
        some (socket ++ (sendbuf.drop total).take (total' - total), total') := by
  induction hk : sendbuf.length - total using Nat.strongRecOn generalizing i total socket with
  | ind k ih =>
      have hstop : some (socket, total) =
          some (socket ++ (sendbuf.drop total).take (total - total), total) := by
        rw [Nat.sub_self, List.take_zero, List.append_nil]
      rw [sendLoop]
      split
      · rename_i hmore
        cases hresult : results i with
        | fail => exact absurd hresult (hok i)
        | eagain => exact ⟨total, Nat.le_refl _, htotal, hstop⟩
        | sent n =>
            have hrv : min (n + 1) (sendbuf.length - total) ≤ sendbuf.length - total :=
              Nat.min_le_right ..
            have hrv' : 0 < min (n + 1) (sendbuf.length - total) := by omega
            dsimp only
            generalize min (n + 1) (sendbuf.length - total) = rv at hrv hrv'
            obtain ⟨total', hle, hle', hloop⟩ := ih (sendbuf.length - (total + rv)) (by omega)
              (i + 1) (total + rv) (socket ++ (sendbuf.drop total).take rv) (by omega) rfl
            refine ⟨total', by omega, hle', hloop.trans ?_⟩
            have hsplit : total' - total = rv + (total' - (total + rv)) := by omega
            rw [hsplit, List.take_add, List.drop_drop, List.append_assoc]
      · exact ⟨total, Nat.le_refl _, htotal, hstop⟩

/-- `send_raw` queues the packet, and the consumer takes some bytes. -/
theorem sendRaw_spec (hok : Healthy results) (hc : c.Valid) (sendbuf : List UInt8) :
    ∃ c' k, sendRaw results c sendbuf = some c' ∧ c'.Valid ∧
      c'.queue = (c.queue.push sendbuf).pop k ∧
      c'.version = c.version ∧ c'.skey = c.skey := by
  -- the fast path hands over a front of the packet, if nothing is queued
  obtain ⟨socket, total, hle, hfast, htaken, hall⟩ :
      ∃ socket total, total ≤ sendbuf.length ∧
        (if c.sendbufCur = 0 then sendLoop results sendbuf 0 0 c.socket
          else some (c.socket, 0)) = some (socket, total) ∧
        socket = c.socket ++ sendbuf.take total ∧ (c.sendbufCur ≠ 0 → total = 0) := by
    by_cases hidle : c.sendbufCur = 0
    · obtain ⟨total, -, hle, hloop⟩ := sendLoop_spec hok sendbuf 0 0 c.socket (Nat.zero_le _)
      rw [Nat.sub_zero, List.drop_zero] at hloop
      exact ⟨_, total, hle, by rw [if_pos hidle, hloop], rfl, fun h => absurd hidle h⟩
    · exact ⟨c.socket, 0, Nat.zero_le _, if_neg hidle, (List.append_nil _).symm, fun _ => rfl⟩
  have hc₁ : ({ c with socket } : SendClient).Valid :=
    ⟨hc.length_sendbuf, hc.start_le, hc.cur_le, hc.freed⟩
  have hqueue : ({ c with socket } : SendClient).queue.push (sendbuf.drop total) =
      (c.queue.push sendbuf).pop total := by
    show Queue.mk socket (c.pending ++ sendbuf.drop total) =
      Queue.mk (c.socket ++ (c.pending ++ sendbuf).take total) ((c.pending ++ sendbuf).drop total)
    by_cases hidle : c.sendbufCur = 0
    · rw [SendClient.pending_eq_nil hidle, htaken]
      rfl
    · rw [htaken, hall hidle]
      rfl
  unfold sendRaw
  rw [hfast]
  dsimp only
  split
  · rename_i hrv
    obtain ⟨hdown, hstart, hdownQueue, hdownVersion, hdownKey⟩ := hc₁.moveDown
    obtain ⟨hlarge, hlargeQueue, hroom, -, hlargeVersion, hlargeKey⟩ :=
      hdown.enlarge (sendbuf.length - total)
    rw [← List.length_drop] at hrv hroom hlarge hlargeQueue hlargeVersion hlargeKey
    obtain ⟨hcopy, hcopyQueue⟩ := hlarge.copyIn (fun hnil => hrv (by rw [hnil]; rfl)) hroom
    rw [← List.length_drop]
    refine ⟨_, total, rfl, hcopy, ?_, hlargeVersion.trans hdownVersion,
      hlargeKey.trans hdownKey⟩
    rw [hcopyQueue, hlargeQueue, hdownQueue, hqueue]
  · rename_i hrv
    refine ⟨_, total, rfl, hc₁, ?_, rfl, rfl⟩
    rw [← hqueue, List.drop_eq_nil_of_le (by omega)]
    exact congrArg (Queue.mk socket) (List.append_nil _).symm

/-- The write loop of the block takes some bytes off the queue. -/
theorem writeReady_spec {result : SendResult} (hok : result ≠ .fail) (hc : c.Valid) :
    ∃ c' k, writeReady result c = some c' ∧ c'.Valid ∧ c'.queue = c.queue.pop k ∧
      c'.version = c.version ∧ c'.skey = c.skey := by
  have hstart := hc.start_le
  unfold writeReady
  split
  · cases result with
    | fail => exact absurd rfl hok
    | eagain => exact ⟨c, 0, rfl, hc, (Queue.pop_zero _).symm, rfl, rfl⟩
    | sent n =>
        have hsent : min (n + 1) (c.sendbufCur - c.sendbufStart) ≤
            c.sendbufCur - c.sendbufStart := Nat.min_le_right ..
        have htake : (c.sendbuf.drop c.sendbufStart).take
            (min (n + 1) (c.sendbufCur - c.sendbufStart)) =
            c.pending.take (min (n + 1) (c.sendbufCur - c.sendbufStart)) := by
          rw [SendClient.pending, List.take_take, Nat.min_eq_left hsent]
        dsimp only
        rw [htake]
        generalize min (n + 1) (c.sendbufCur - c.sendbufStart) = sent at hsent
        have hrest : (c.sendbuf.drop (c.sendbufStart + sent)).take
            (c.sendbufCur - (c.sendbufStart + sent)) = c.pending.drop sent := by
          rw [SendClient.pending, List.drop_take, List.drop_drop]
          congr 1
          omega
        split
        · rename_i hall
          refine ⟨_, sent, rfl, ⟨rfl, Nat.le_refl 0, Nat.le_refl 0, fun _ => rfl⟩, ?_, rfl, rfl⟩
          show Queue.mk _ _ = Queue.mk (c.socket ++ c.pending.take sent) (c.pending.drop sent)
          rw [← hrest, hall, Nat.sub_self, List.take_zero]
          rfl
        · rename_i hmore
          refine ⟨_, sent, rfl, ⟨hc.length_sendbuf, ?_, hc.cur_le, fun h => absurd h hmore⟩, ?_,
            rfl, rfl⟩
          · show c.sendbufStart + sent ≤ c.sendbufCur
            omega
          · show Queue.mk _ _ = Queue.mk (c.socket ++ c.pending.take sent) (c.pending.drop sent)
            rw [← hrest]
            rfl
  · exact ⟨c, 0, rfl, hc, (Queue.pop_zero _).symm, rfl, rfl⟩

end Steps

/-! ## Runs -/

/-- A packet with zeros up to a multiple of the header's size. -/
def padded (version : Version) (sendbuf : List UInt8) : List UInt8 :=
  sendbuf ++ List.replicate (roundUp version.hdrSize sendbuf.length - sendbuf.length) 0

/-- The loop that expands a packet pads it. -/
theorem expand_eq (version : Version) (sendbuf : List UInt8) :
    expand version.hdrSize version.hdrSize sendbuf = padded version sendbuf := by
  obtain ⟨k, hk, hhdr⟩ : ∃ k, (k = 2 ∨ k = 3) ∧ version.hdrSize = 2 ^ k := by
    cases version <;> first | exact ⟨2, .inl rfl, rfl⟩ | exact ⟨3, .inr rfl, rfl⟩
  have hloop (fuel : Nat) (buf : List UInt8)
      (hfuel : roundUp (2 ^ k) buf.length - buf.length ≤ fuel) :
      expand (2 ^ k) fuel buf =
        buf ++ List.replicate (roundUp (2 ^ k) buf.length - buf.length) 0 := by
    induction fuel generalizing buf with
    | zero => rw [expand, Nat.le_zero.mp hfuel, List.replicate_zero, List.append_nil]
    | succ fuel ih =>
        rw [expand, Nat.and_two_pow_sub_one_eq_mod]
        split
        · have hlen : (buf ++ [(0 : UInt8)]).length = buf.length + 1 := List.length_append
          have hround : roundUp (2 ^ k) (buf.length + 1) = roundUp (2 ^ k) buf.length ∧
              buf.length + 1 ≤ roundUp (2 ^ k) buf.length := by
            simp only [roundUp]
            obtain rfl | rfl := hk <;> omega
          rw [ih _ (by rw [hlen, hround.1]; omega), hlen, hround.1, List.append_assoc,
            List.singleton_append, ← List.replicate_succ]
          congr 2
          omega
        · have hround : roundUp (2 ^ k) buf.length = buf.length := by
            simp only [roundUp]
            obtain rfl | rfl := hk <;> omega
          rw [hround, Nat.sub_self, List.replicate_zero, List.append_nil]
  rw [padded, hhdr]
  refine hloop _ _ ?_
  simp only [roundUp]
  obtain rfl | rfl := hk <;> omega

/-- The bytes of the packets of a run, in the order of the calls. -/
def packetStream (enc : Nat → UInt8 → UInt8) (version : Version) : Nat → List SendEvent →
    List UInt8
  | _, [] => []
  | pos, .sendRaw sendbuf _ :: events => sendbuf ++ packetStream enc version pos events
  | pos, .cryptSend sendbuf _ :: events =>
      cryptData enc pos (padded version sendbuf) ++
        packetStream enc version (pos + (padded version sendbuf).length) events
  | pos, .writeReady _ :: events => packetStream enc version pos events

/-- No call of `send` in the event fails. -/
def SendEvent.Healthy : SendEvent → Prop
  | .sendRaw _ results => Ship.Healthy results
  | .cryptSend _ results => Ship.Healthy results
  | .writeReady result => result ≠ .fail

section Runs

variable (enc : Nat → UInt8 → UInt8)

/-- A client with its buffer and its socket is a queue: every event is a write, for a
packet, and a delivery. -/
theorem sendStep_refines {c : SendClient} (hc : c.Valid) {event : SendEvent}
    (hok : event.Healthy) (events : List SendEvent) :
    ∃ c' written k, sendStep enc c event = some c' ∧ c'.Valid ∧ c'.version = c.version ∧
      c'.queue = [Op.push written, Op.pop k].foldl Queue.apply c.queue ∧
      packetStream enc c.version c.skey (event :: events) =
        written ++ packetStream enc c.version c'.skey events := by
  cases event with
  | sendRaw sendbuf results =>
      obtain ⟨c', k, hstep, hvalid, hqueue, hversion, hkey⟩ := sendRaw_spec hok hc sendbuf
      exact ⟨c', sendbuf, k, hstep, hvalid, hversion, hqueue, by rw [hkey]; rfl⟩
  | cryptSend sendbuf results =>
      have hc₁ : ({ c with skey := c.skey + (padded c.version sendbuf).length } :
          SendClient).Valid := ⟨hc.length_sendbuf, hc.start_le, hc.cur_le, hc.freed⟩
      obtain ⟨c', k, hstep, hvalid, hqueue, hversion, hkey⟩ :=
        sendRaw_spec hok hc₁ (cryptData enc c.skey (padded c.version sendbuf))
      refine ⟨c', _, k, ?_, hvalid, hversion, hqueue, by rw [hkey]; rfl⟩
      rw [sendStep, cryptSend, expand_eq]
      exact hstep
  | writeReady result =>
      obtain ⟨c', k, hstep, hvalid, hqueue, hversion, hkey⟩ := writeReady_spec hok hc
      refine ⟨c', [], k, hstep, hvalid, hversion, ?_, by rw [hkey]; rfl⟩
      rw [hqueue]
      show c.queue.pop k = (c.queue.push []).pop k
      rw [Queue.push, List.append_nil]

/-- A run is a run of the queue that writes the packets in order. -/
theorem sendRun_refines {c : SendClient} (hc : c.Valid) {events : List SendEvent}
    (hok : ∀ event ∈ events, event.Healthy) :
    ∃ (c' : SendClient) (ops : List (Op UInt8)), sendRun enc c events = some c' ∧ c'.Valid ∧
      c'.queue = ops.foldl Queue.apply c.queue ∧
      ops.flatMap Op.written = packetStream enc c.version c.skey events := by
  induction events generalizing c with
  | nil => exact ⟨c, [], rfl, hc, rfl, rfl⟩
  | cons event events ih =>
      obtain ⟨c₁, written, k, hstep, hvalid₁, hversion, hqueue₁, hstream⟩ :=
        sendStep_refines enc hc (hok event (List.mem_cons_self ..)) events
      obtain ⟨c', ops, hrun, hvalid, hqueue, hops⟩ :=
        ih hvalid₁ fun e he => hok e (List.mem_cons_of_mem _ he)
      refine ⟨c', .push written :: .pop k :: ops, ?_, hvalid, ?_, ?_⟩
      · rw [sendRun, hstep]
        exact hrun
      · rw [hqueue, hqueue₁]
        rfl
      · rw [hstream, ← hversion, ← hops]
        rfl

end Runs

end Sylverant.Ship
