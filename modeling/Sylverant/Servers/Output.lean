/-
# Output of the patch and the login server

Both servers send packets as the ship does, and pass on what is queued in the same way.
Their `send_raw`, though, leaves `sendbuf_start` as it is when it moves the queued bytes to
the front of the buffer. A packet that is queued behind a partial flush makes the flush
skip bytes.

As for the ship, a failed allocation is left out.
-/

import Sylverant.Library.Run
import Sylverant.Ship.SendBuf

namespace Sylverant.Servers

open Fifo (Queue)
open Ship (SendClient SendResult sendLoop writeReady)

/-! ## The code -/

/-- `send_raw`, for a way to move out any already transferred data. Nothing is returned
when `send` fails. -/
def sendRawWith (move : SendClient → SendClient) (results : Nat → SendResult) (c : SendClient)
    (sendbuf : List UInt8) : Option SendClient :=
  match (if c.sendbufCur = 0 then sendLoop results sendbuf 0 0 c.socket
    else some (c.socket, 0)) with
  | none => none
  | some (socket, total) =>
      let rv := sendbuf.length - total
      let c := { c with socket }
      if rv ≠ 0 then some (((move c).enlarge rv).copyIn (sendbuf.drop total)) else some c

/-- The ship resets `sendbuf_start` when it moves the data. -/
theorem sendRawWith_moveDown : sendRawWith SendClient.moveDown = Ship.sendRaw := rfl

/-- Move out any already transferred data, as `memmove` does it: `sendbuf_start` stays. -/
def moveOut (c : SendClient) : SendClient :=
  if c.sendbufStart ≠ 0 then
    { c with
      sendbuf := (c.sendbuf.drop c.sendbufStart).take (c.sendbufCur - c.sendbufStart) ++
        c.sendbuf.drop (c.sendbufCur - c.sendbufStart),
      sendbufCur := c.sendbufCur - c.sendbufStart }
  else c

/-- `send_raw` of the patch server. -/
def patchSendRaw : (Nat → SendResult) → SendClient → List UInt8 → Option SendClient :=
  sendRawWith moveOut

/-- `send_raw` of the login server. -/
def loginSendRaw : (Nat → SendResult) → SendClient → List UInt8 → Option SendClient :=
  sendRawWith moveOut

/-- The two servers. -/
inductive Server
  | patch
  | login
  deriving DecidableEq

/-- `send_raw` of a server. -/
def Server.sendRaw : Server → (Nat → SendResult) → SendClient → List UInt8 → Option SendClient
  | .patch => patchSendRaw
  | .login => loginSendRaw

theorem Server.sendRaw_eq (server : Server) : server.sendRaw = sendRawWith moveOut := by
  cases server with
  | patch => rfl
  | login => rfl

/-- What happens to a client, with the results of the calls of `send`: a packet is passed
to `send_raw`, or the main loop finds that its socket can be written. -/
inductive Event
  | sendRaw (sendbuf : List UInt8) (results : Nat → SendResult)
  | writeReady (result : SendResult)

/-- A client, and the bytes of the packets that were passed to `send_raw`. -/
structure Output where
  client : SendClient
  written : List UInt8

/-- One event, if no call of `send` fails. -/
def Server.step (server : Server) (s : Output) : Event → Option Output
  | .sendRaw sendbuf results =>
      (server.sendRaw results s.client sendbuf).map fun c => ⟨c, s.written ++ sendbuf⟩
  | .writeReady result => (writeReady result s.client).map fun c => ⟨c, s.written⟩

/-- The state after an event. A client whose socket failed is left as it is. -/
def Server.next (server : Server) (s : Output) (event : Event) : Output :=
  (server.step s event).getD s

/-- A client that was just created. -/
def Output.new : Output := ⟨SendClient.new .dcv1, []⟩

/-! ## The order of the bytes -/

/-- The bytes at the socket and the pending ones are the packets in order, and the
positions are in the buffer. -/
structure InOrder (s : Output) : Prop where
  bytes : s.client.socket ++ s.client.pending = s.written
  start_le : s.client.sendbufStart ≤ s.client.sendbufCur
  cur_le : s.client.sendbufCur ≤ s.client.sendbufSize

/-- No call of `send` in the event fails. -/
def Event.Healthy : Event → Prop
  | .sendRaw _ results => Ship.Healthy results
  | .writeReady result => result ≠ .fail

/-- No packet is passed on behind a part of the queued bytes: if bytes are queued, then
none of them was sent yet. -/
def Unsent (s : Output) : Event → Prop
  | .sendRaw sendbuf _ =>
      sendbuf ≠ [] → s.client.sendbufCur ≠ 0 → s.client.sendbufStart = 0
  | .writeReady _ => True

/-- The states that are reached while all goes well. -/
structure Keeping (s : Output) : Prop where
  valid : s.client.Valid
  bytes : s.client.socket ++ s.client.pending = s.written

theorem Keeping.inOrder {s : Output} (hs : Keeping s) : InOrder s :=
  ⟨hs.bytes, hs.valid.start_le, hs.valid.cur_le⟩

theorem Keeping.new : Keeping Output.new := ⟨SendClient.valid_new _, rfl⟩

section Steps

variable {s : Output} {results : Nat → SendResult}

/-- Without sent bytes in the buffer the servers send as the ship does. -/
theorem sendRawWith_moveOut (hs : s.client.Valid)
    (hstart : s.client.sendbufCur ≠ 0 → s.client.sendbufStart = 0) (sendbuf : List UInt8) :
    sendRawWith moveOut results s.client sendbuf = Ship.sendRaw results s.client sendbuf := by
  have hzero : s.client.sendbufStart = 0 := by
    by_cases hcur : s.client.sendbufCur = 0
    · exact Nat.le_zero.mp (hcur ▸ hs.start_le)
    · exact hstart hcur
  have hmove (socket : List UInt8) :
      moveOut { s.client with socket } = SendClient.moveDown { s.client with socket } := by
    rw [moveOut, SendClient.moveDown, if_neg (not_not_intro hzero),
      if_neg (not_not_intro hzero)]
  unfold sendRawWith Ship.sendRaw
  rcases (if s.client.sendbufCur = 0 then sendLoop results sendbuf 0 0 s.client.socket
    else some (s.client.socket, 0)) with _ | ⟨socket, total⟩
  · rfl
  · dsimp only
    rw [hmove socket]

/-- A packet is queued in order if none of the queued bytes was sent. -/
theorem Keeping.sendRaw (hs : Keeping s) (hok : Ship.Healthy results) (server : Server)
    {sendbuf : List UInt8} (hunsent : Unsent s (.sendRaw sendbuf results)) :
    ∃ s', server.step s (.sendRaw sendbuf results) = some s' ∧ Keeping s' := by
  by_cases hnil : sendbuf = []
  · -- nothing is sent, and the buffer is not touched
    have hloop : (if s.client.sendbufCur = 0 then sendLoop results [] 0 0 s.client.socket
        else some (s.client.socket, 0)) = some (s.client.socket, 0) := by
      rw [sendLoop, if_neg (show ¬0 < ([] : List UInt8).length from Nat.lt_irrefl _), ite_self]
    refine ⟨⟨s.client, s.written ++ []⟩, ?_, hs.valid, ?_⟩
    · rw [hnil, Server.step, Server.sendRaw_eq, sendRawWith, hloop]
      rfl
    · rw [List.append_nil]
      exact hs.bytes
  · obtain ⟨c, k, hstep, hvalid, hqueue, -, -⟩ := Ship.sendRaw_spec hok hs.valid sendbuf
    refine ⟨⟨c, s.written ++ sendbuf⟩, ?_, hvalid, ?_⟩
    · rw [Server.step, Server.sendRaw_eq, sendRawWith_moveOut hs.valid (hunsent hnil), hstep]
      rfl
    · calc c.socket ++ c.pending
        _ = c.queue.history := rfl
        _ = s.client.queue.history ++ sendbuf := by
            rw [hqueue, Queue.history_pop, Queue.history_push]
        _ = s.written ++ sendbuf := congrArg (· ++ sendbuf) hs.bytes

/-- A flush keeps the order. -/
theorem Keeping.writeReady (hs : Keeping s) {result : SendResult} (hok : result ≠ .fail)
    (server : Server) : ∃ s', server.step s (.writeReady result) = some s' ∧ Keeping s' := by
  obtain ⟨c, k, hstep, hvalid, hqueue, -, -⟩ := Ship.writeReady_spec hok hs.valid
  refine ⟨⟨c, s.written⟩, ?_, hvalid, ?_⟩
  · rw [Server.step, hstep]
    rfl
  · calc c.socket ++ c.pending
      _ = c.queue.history := rfl
      _ = s.client.queue.history := by rw [hqueue, Queue.history_pop]
      _ = s.written := hs.bytes

variable (results) in
/-- Behind a partial flush fewer bytes are pending than were passed on. -/
theorem Keeping.broken (hs : Keeping s) (server : Server) {sendbuf : List UInt8}
    (hnil : sendbuf ≠ []) (hcur : s.client.sendbufCur ≠ 0) (hstart : s.client.sendbufStart ≠ 0) :
    ∃ s', server.step s (.sendRaw sendbuf results) = some s' ∧ ¬InOrder s' := by
  have hlen := List.length_pos_iff.mpr hnil
  have hle := hs.valid.start_le
  have hpending := hs.valid.length_pending
  refine ⟨⟨((moveOut s.client).enlarge sendbuf.length).copyIn sendbuf, s.written ++ sendbuf⟩,
    ?_, ?_⟩
  · rw [Server.step, Server.sendRaw_eq, sendRawWith, if_neg hcur]
    dsimp only
    rw [Nat.sub_zero, if_pos (Nat.pos_iff_ne_zero.mp hlen), List.drop_zero]
    rfl
  · intro horder
    have hfields (c : SendClient) : ((c.enlarge sendbuf.length).copyIn sendbuf).socket =
        c.socket ∧ ((c.enlarge sendbuf.length).copyIn sendbuf).sendbufStart = c.sendbufStart ∧
        ((c.enlarge sendbuf.length).copyIn sendbuf).sendbufCur =
          c.sendbufCur + sendbuf.length := by
      unfold SendClient.enlarge SendClient.copyIn
      split <;> exact ⟨rfl, rfl, rfl⟩
    obtain ⟨hsocket, hstart', hcur'⟩ := hfields (moveOut s.client)
    have hbytes := congrArg List.length horder.bytes
    rw [← hs.bytes] at hbytes
    simp only [List.length_append, SendClient.pending, List.length_take, List.length_drop,
      hsocket, hstart', hcur'] at hbytes
    rw [SendClient.pending, List.length_take, List.length_drop] at hpending
    have hmove : moveOut s.client = { s.client with
        sendbuf := s.client.pending ++
          s.client.sendbuf.drop (s.client.sendbufCur - s.client.sendbufStart),
        sendbufCur := s.client.sendbufCur - s.client.sendbufStart } := if_pos hstart
    rw [hmove] at hbytes
    dsimp only at hbytes
    omega

/-- An event leads to a state in order exactly if it is not a packet behind a partial
flush. -/
theorem Keeping.inOrder_next_iff (hs : Keeping s) (server : Server) {event : Event}
    (hok : event.Healthy) : InOrder (server.next s event) ↔ Unsent s event := by
  cases event with
  | writeReady result =>
      obtain ⟨s', hstep, hs'⟩ := hs.writeReady hok server
      rw [Server.next, hstep]
      exact ⟨fun _ => trivial, fun _ => hs'.inOrder⟩
  | sendRaw sendbuf results =>
      constructor
      · intro horder hnil hcur
        by_contra hstart
        obtain ⟨s', hstep, hnot⟩ := hs.broken results server hnil hcur hstart
        rw [Server.next, hstep] at horder
        exact hnot horder
      · intro hunsent
        obtain ⟨s', hstep, hs'⟩ := hs.sendRaw hok server hunsent
        rw [Server.next, hstep]
        exact hs'.inOrder

/-- An event that is not a packet behind a partial flush keeps all well. -/
theorem Keeping.next (hs : Keeping s) (server : Server) {event : Event} (hok : event.Healthy)
    (hunsent : Unsent s event) : Keeping (server.next s event) := by
  cases event with
  | writeReady result =>
      obtain ⟨s', hstep, hs'⟩ := hs.writeReady hok server
      rw [Server.next, hstep]
      exact hs'
  | sendRaw sendbuf results =>
      obtain ⟨s', hstep, hs'⟩ := hs.sendRaw hok server hunsent
      rw [Server.next, hstep]
      exact hs'

end Steps

/-! ## Runs -/

end Sylverant.Servers
