/-
# Saves of Blue Burst characters

A connection to a block has a buffer for a Blue Burst character from its start on. The login
asks the shipgate for the character, whose reply is copied into the buffer of the first
connection with the guildcard, whenever it comes; and when the connection is closed, what the
buffer has is sent back to be saved. Which closed connections save a character that they had
received.

The ship and the shipgate exchange packets over a stream in each direction. Left out are the
texts that are sent, the rest of what a login does, and failures of sending.
-/

import Mathlib.Data.List.Induction
import Mathlib.Logic.Function.Basic
import Sylverant.Library.Bounded
import Sylverant.Library.Run
import Sylverant.Shipgate.CharacterStore

namespace Sylverant.Ship.CharacterSaves

open Buffer (memcpy)
open Function (update)
open Shipgate (bbDbCharSize htonl)

/-! ## Records -/

/-- A buffer for a character: `sylverant_bb_db_char_t`. -/
@[ext]
structure Record where
  bytes : List UInt8
  length_bytes : bytes.length = bbDbCharSize

/-- The buffer after a copy that is inside. The shipgate stores no character that is not. -/
def Record.write (r : Record) (offset : Nat) (src : List UInt8) : Record :=
  if h : offset + src.length ≤ r.bytes.length then
    ⟨memcpy r.bytes offset src, (Buffer.length_memcpy h).trans r.length_bytes⟩
  else r

def Record.zeros : Record := ⟨List.replicate bbDbCharSize 0, List.length_replicate⟩

/-- The field `item_id` of the items in the inventory is set to 0xFFFFFFFF. -/
def Record.clearItemIds (r : Record) : Record :=
  (List.range 30).foldl (fun r i => r.write (4 + 28 * i + 20) [0xFF, 0xFF, 0xFF, 0xFF]) r

/-- The field `character.play_time`, in the byte order of the games. -/
def Record.playTime (r : Record) : Nat :=
  (List.range 4).foldr (fun i n => (r.bytes.getD (844 + 76 + i) 0).toNat + 256 * n) 0

def Record.addPlayTime (r : Record) (seconds : Nat) : Record :=
  r.write (844 + 76) (htonl ((r.playTime + seconds) % 2 ^ 32)).reverse

/-- Copy a reply into the buffer, and clear the item ids. -/
def Record.load (r : Record) (data : List UInt8) : Record := (r.write 0 data).clearItemIds

/-! ## The ship and the shipgate -/

/-- What was done to the buffer of a connection: a reply with a guildcard and a slot was copied
into it, or the game changed the character. -/
inductive Change
  | loaded (gc slot : Nat) (data : List UInt8)
  | operated (f : Record → Record)

/-- The fields of `ship_client_t`, and what was done to the buffer so far. -/
structure Connection where
  bb : Bool
  block : Nat
  guildcard : Nat
  slot : Nat
  bbPl : Record
  bbOpts : List UInt8
  history : List Change

/-- What the ship sends to the shipgate. -/
inductive Request
  | creq (gc slot : Nat)
  | cdata (gc slot : Nat) (record : Record)
  | bbOptReq (gc block : Nat)
  | bbOpts (gc : Nat) (opts : List UInt8)

/-- What the shipgate sends to the ship. -/
inductive Reply
  | character (gc slot : Nat) (data : List UInt8)
  | error
  | bbOpts (gc block : Nat) (opts : List UInt8)

/-- The connections in the order in which they are looked through, block by block; what is sent
but did not arrive; what is stored; and the characters that were sent to the ship so far. -/
structure World where
  clients : List Connection
  toGate : List Request
  toShip : List Reply
  characters : Nat × Nat → Option (List UInt8)
  options : Nat → Option (List UInt8)
  sent : List (Nat × Nat × List UInt8)

/-- How the shipgate deals with a request. -/
inductive Dealing
  | answers
  | fails
  | silent

/-- A new connection may come anywhere in the order, and the handling of packets is mixed in any
way. The login has the guildcard and the slot of the packet, and whether its security data is
in order. -/
inductive Event
  | connect (i : Nat) (bb : Bool) (block : Nat)
  | login (i gc slot : Nat) (magic : Bool)
  | operate (i : Nat) (f : Record → Record)
  | disconnect (i seconds : Nat)
  | gate (dealing : Dealing)
  | ship

/-- `sizeof(sylverant_bb_db_opts_t)` -/
def bbOptsSize : Nat := 4448

def clientCreateConnection (bb : Bool) (block : Nat) : Connection where
  bb := bb
  block := block
  guildcard := 0
  slot := 0
  bbPl := .zeros
  bbOpts := List.replicate bbOptsSize 0
  history := []

/-- `bb_process_login`, on a ship that allows Blue Burst or not. The logins of the other versions
have a guildcard, too. -/
def processLogin (noBb : Bool) (c : Connection) (gc slot : Nat) (magic : Bool) :
    Connection × List Request :=
  if !c.bb then ({ c with guildcard := gc }, [])
  else if noBb then (c, [])
  else if !magic then ({ c with guildcard := gc, slot := slot }, [])
  else ({ c with guildcard := gc, slot := slot }, [.creq gc slot, .bbOptReq gc c.block])

/-- What `client_destroy_connection` sends. -/
def clientDestroyConnection (c : Connection) (seconds : Nat) : List Request :=
  if c.bb then
    [.cdata c.guildcard c.slot (c.bbPl.addPlayTime seconds), .bbOpts c.guildcard c.bbOpts]
  else []

def Connection.load (c : Connection) (gc slot : Nat) (data : List UInt8) : Connection :=
  if c.bb then
    { c with bbPl := c.bbPl.load data, history := c.history ++ [.loaded gc slot data] }
  else c

def Connection.operate (c : Connection) (f : Record → Record) : Connection :=
  { c with bbPl := f c.bbPl, history := c.history ++ [.operated f] }

/-- The first connection with the guildcard gets the character, whatever the slot. -/
def handleCreq (gc slot : Nat) (data : List UInt8) : List Connection → List Connection
  | [] => []
  | c :: rest =>
      if c.guildcard = gc then c.load gc slot data :: rest
      else c :: handleCreq gc slot data rest

/-- The first connection on the block with the guildcard gets the options. -/
def handleBbopts (gc block : Nat) (opts : List UInt8) : List Connection → List Connection
  | [] => []
  | c :: rest =>
      if c.block = block ∧ c.guildcard = gc then { c with bbOpts := opts } :: rest
      else c :: handleBbopts gc block opts rest

namespace World

/-- The shipgate deals with the next request. -/
def gate (w : World) (dealing : Dealing) : World :=
  match w.toGate with
  | [] => w
  | request :: rest =>
      let w := { w with toGate := rest }
      match dealing with
      | .silent => w
      | .fails => { w with toShip := w.toShip ++ [.error] }
      | .answers =>
          match request with
          | .creq gc slot =>
              match w.characters (gc, slot) with
              | none => { w with toShip := w.toShip ++ [.error] }
              | some data =>
                  { w with
                    toShip := w.toShip ++ [.character gc slot data]
                    sent := w.sent ++ [(gc, slot, data)] }
          | .cdata gc slot record =>
              { w with characters := update w.characters (gc, slot) (some record.bytes) }
          | .bbOptReq gc block =>
              match w.options gc with
              | none => { w with toShip := w.toShip ++ [.error] }
              | some opts => { w with toShip := w.toShip ++ [.bbOpts gc block opts] }
          | .bbOpts gc opts =>
              -- only a row that is there is updated
              match w.options gc with
              | none => w
              | some _ => { w with options := update w.options gc (some opts) }

/-- The ship handles the next reply. -/
def ship (w : World) : World :=
  match w.toShip with
  | [] => w
  | reply :: rest =>
      let w := { w with toShip := rest }
      match reply with
      | .character gc slot data => { w with clients := handleCreq gc slot data w.clients }
      | .error => w
      | .bbOpts gc block opts => { w with clients := handleBbopts gc block opts w.clients }

def next (noBb : Bool) (w : World) : Event → World
  | .connect i bb block =>
      { w with clients := w.clients.insertIdx i (clientCreateConnection bb block) }
  | .login i gc slot magic =>
      match w.clients[i]? with
      | none => w
      | some c =>
          { w with
            clients := w.clients.set i (processLogin noBb c gc slot magic).1
            toGate := w.toGate ++ (processLogin noBb c gc slot magic).2 }
  | .operate i f =>
      match w.clients[i]? with
      | none => w
      | some c => { w with clients := w.clients.set i (c.operate f) }
  | .disconnect i seconds =>
      match w.clients[i]? with
      | none => w
      | some c =>
          { w with
            clients := w.clients.eraseIdx i
            toGate := w.toGate ++ clientDestroyConnection c seconds }
  | .gate dealing => w.gate dealing
  | .ship => w.ship

/-- At the start there are no connections, and something is stored. -/
def start (characters : Nat × Nat → Option (List UInt8)) (options : Nat → Option (List UInt8)) :
    World where
  clients := []
  toGate := []
  toShip := []
  characters := characters
  options := options
  sent := []

end World

/-! ## What should hold -/

/-- The shipgate had sent the connection a whole character for its guildcard and slot, and with
the operations since then, and the time that was played, it is the record. -/
def Justified (w : World) (c : Connection) (seconds : Nat) (record : Record) : Prop :=
  ∃ (before : List Change) (data : List UInt8) (operations : List (Record → Record)),
    c.history = before ++ .loaded c.guildcard c.slot data :: operations.map .operated ∧
      (c.guildcard, c.slot, data) ∈ w.sent ∧
      ∃ h : data.length = bbDbCharSize,
        record = (operations.foldl (fun r f => f r)
          (Record.clearItemIds ⟨data, h⟩)).addPlayTime seconds

/-- A request that is sent for a connection that is closed saves a justified record for its
guildcard and slot, or comes with one. -/
def Request.Fine (w : World) (c : Connection) (seconds : Nat) : Request → Prop
  | .cdata gc slot record =>
      gc = c.guildcard ∧ slot = c.slot ∧ Justified w c seconds record
  | .bbOpts gc _ => gc = c.guildcard ∧ ∃ record, Justified w c seconds record
  | .creq _ _ | .bbOptReq _ _ => True

/-- What a closed connection sends is fine. -/
def SavesLoaded (w : World) : Event → Prop
  | .disconnect i seconds =>
      ∀ c, w.clients[i]? = some c →
        ∀ request ∈ clientDestroyConnection c seconds, request.Fine w c seconds
  | _ => True

/-- The reply that was last copied into a buffer. -/
def lastLoaded (history : List Change) : Option (Nat × Nat × List UInt8) :=
  history.foldl (fun last change =>
    match change with
    | .loaded gc slot data => some (gc, slot, data)
    | .operated _ => last) none

/-- A Blue Burst connection is closed when the last reply that was copied into its buffer was for
the guildcard and the slot that it has, and filled the buffer. -/
def ClosedLoaded (w : World) : Event → Prop
  | .disconnect i _ =>
      ∀ c, w.clients[i]? = some c → c.bb = true →
        ∃ data, lastLoaded c.history = some (c.guildcard, c.slot, data) ∧
          data.length = bbDbCharSize
  | _ => True

/-! ## Buffers and what was done to them -/

/-- What a change makes of a buffer. -/
def Change.apply (r : Record) : Change → Record
  | .loaded _ _ data => r.load data
  | .operated f => f r

/-- What the changes make of a buffer. -/
def replay (history : List Change) : Record := history.foldl Change.apply .zeros

theorem write_full (r : Record) {data : List UInt8} (h : data.length = bbDbCharSize) :
    r.write 0 data = ⟨data, h⟩ := by
  have hlength : r.bytes.length = data.length := r.length_bytes.trans h.symm
  have hfits : 0 + data.length ≤ r.bytes.length :=
    Nat.le_of_eq ((Nat.zero_add _).trans hlength.symm)
  apply Record.ext
  rw [Record.write, dif_pos hfits]
  exact Buffer.memcpy_zero hlength

theorem load_full (r : Record) {data : List UInt8} (h : data.length = bbDbCharSize) :
    r.load data = Record.clearItemIds ⟨data, h⟩ := congrArg Record.clearItemIds (write_full r h)

theorem replay_snoc (history : List Change) (change : Change) :
    replay (history ++ [change]) = Change.apply (replay history) change := by
  rw [replay, List.foldl_append, List.foldl_cons, List.foldl_nil, replay]

theorem replay_operated (start : List Change) (operations : List (Record → Record)) :
    replay (start ++ operations.map .operated) =
      operations.foldl (fun r f => f r) (replay start) := by
  rw [replay, List.foldl_append, List.foldl_map, replay]
  rfl

/-- After a whole character was copied, what was there before does not matter. -/
theorem replay_loaded (before : List Change) (gc slot : Nat) {data : List UInt8}
    (h : data.length = bbDbCharSize) (operations : List (Record → Record)) :
    replay (before ++ .loaded gc slot data :: operations.map .operated) =
      operations.foldl (fun r f => f r) (Record.clearItemIds ⟨data, h⟩) := by
  have hload : replay (before ++ [.loaded gc slot data]) = Record.clearItemIds ⟨data, h⟩ :=
    (replay_snoc before _).trans (load_full _ h)
  rw [List.append_cons, replay_operated, hload]

theorem lastLoaded_operated (start : List Change) (operations : List (Record → Record)) :
    lastLoaded (start ++ operations.map .operated) = lastLoaded start := by
  rw [lastLoaded, List.foldl_append, List.foldl_map, lastLoaded]
  generalize start.foldl _ none = last
  induction operations with
  | nil => rfl
  | cons f operations ih => exact ih

/-- Behind the reply that was copied last there are operations only. -/
theorem lastLoaded_eq_some_iff (history : List Change) (gc slot : Nat) (data : List UInt8) :
    lastLoaded history = some (gc, slot, data) ↔
      ∃ (before : List Change) (operations : List (Record → Record)),
        history = before ++ .loaded gc slot data :: operations.map .operated := by
  constructor
  · intro h
    induction history using List.reverseRecOn with
    | nil => cases h
    | append_singleton history change ih =>
        rw [lastLoaded, List.foldl_append] at h
        cases change with
        | loaded gc' slot' data' =>
            cases h
            exact ⟨history, [], rfl⟩
        | operated f =>
            rcases ih h with ⟨before, operations, rfl⟩
            refine ⟨before, operations ++ [f], ?_⟩
            rw [List.map_append, List.append_assoc]
            rfl
  · rintro ⟨before, operations, rfl⟩
    have hlast : lastLoaded (before ++ [.loaded gc slot data]) = some (gc, slot, data) := by
      rw [lastLoaded, List.foldl_append]
      rfl
    rw [List.append_cons, lastLoaded_operated, hlast]

/-! ## What holds of every state -/

/-- The buffer is what the changes made of it, and the replies that were copied had been sent. -/
structure Connection.Sound (sent : List (Nat × Nat × List UInt8)) (c : Connection) : Prop where
  replayed : c.bbPl = replay c.history
  received : ∀ gc slot data, .loaded gc slot data ∈ c.history → (gc, slot, data) ∈ sent

structure World.Sound (w : World) : Prop where
  clients : ∀ c ∈ w.clients, c.Sound w.sent
  replies : ∀ gc slot data, .character gc slot data ∈ w.toShip → (gc, slot, data) ∈ w.sent

namespace Connection

variable {sent sent' : List (Nat × Nat × List UInt8)} {c : Connection}

theorem Sound.mono (h : c.Sound sent) (hsent : ∀ entry ∈ sent, entry ∈ sent') :
    c.Sound sent' :=
  ⟨h.replayed, fun gc slot data hmem => hsent _ (h.received gc slot data hmem)⟩

theorem sound_create (bb : Bool) (block : Nat) : (clientCreateConnection bb block).Sound sent :=
  ⟨rfl, fun _ _ _ h => (List.not_mem_nil h).elim⟩

theorem Sound.processLogin (h : c.Sound sent) (noBb : Bool) (gc slot : Nat) (magic : Bool) :
    (processLogin noBb c gc slot magic).1.Sound sent := by
  unfold CharacterSaves.processLogin
  split
  · exact ⟨h.replayed, h.received⟩
  split
  · exact h
  split <;> exact ⟨h.replayed, h.received⟩

theorem Sound.operate (h : c.Sound sent) (f : Record → Record) : (c.operate f).Sound sent where
  replayed := by
    rw [Connection.operate, replay_snoc, ← h.replayed, Change.apply]
  received gc slot data hmem := by
    rcases List.mem_append.mp hmem with hmem | hmem
    · exact h.received gc slot data hmem
    · cases List.mem_singleton.mp hmem

theorem Sound.load (h : c.Sound sent) {gc slot : Nat} {data : List UInt8}
    (hsent : (gc, slot, data) ∈ sent) : (c.load gc slot data).Sound sent := by
  unfold Connection.load
  split
  · constructor
    · rw [replay_snoc, ← h.replayed, Change.apply]
    · intro gc' slot' data' hmem
      rcases List.mem_append.mp hmem with hmem | hmem
      · exact h.received gc' slot' data' hmem
      · cases List.mem_singleton.mp hmem
        exact hsent
  · exact h

theorem Sound.withOpts (h : c.Sound sent) (opts : List UInt8) :
    Connection.Sound sent { c with bbOpts := opts } := ⟨h.replayed, h.received⟩

end Connection

section Replies

variable {sent : List (Nat × Nat × List UInt8)} {clients : List Connection} {gc : Nat}

theorem sound_handleCreq {slot : Nat} {data : List UInt8} (hsent : (gc, slot, data) ∈ sent)
    (h : ∀ c ∈ clients, c.Sound sent) : ∀ c ∈ handleCreq gc slot data clients, c.Sound sent := by
  induction clients with
  | nil => exact h
  | cons c clients ih =>
      rcases List.forall_mem_cons.mp h with ⟨hc, hrest⟩
      rw [handleCreq]
      split
      · exact List.forall_mem_cons.mpr ⟨hc.load hsent, hrest⟩
      · exact List.forall_mem_cons.mpr ⟨hc, ih hrest⟩

theorem sound_handleBbopts (block : Nat) (opts : List UInt8) (h : ∀ c ∈ clients, c.Sound sent) :
    ∀ c ∈ handleBbopts gc block opts clients, c.Sound sent := by
  induction clients with
  | nil => exact h
  | cons c clients ih =>
      rcases List.forall_mem_cons.mp h with ⟨hc, hrest⟩
      rw [handleBbopts]
      split
      · exact List.forall_mem_cons.mpr ⟨hc.withOpts opts, hrest⟩
      · exact List.forall_mem_cons.mpr ⟨hc, ih hrest⟩

end Replies

namespace World

variable {w : World}

theorem sound_start (characters : Nat × Nat → Option (List UInt8))
    (options : Nat → Option (List UInt8)) : (start characters options).Sound :=
  ⟨fun _ h => (List.not_mem_nil h).elim, fun _ _ _ h => (List.not_mem_nil h).elim⟩

/-- Only a character counts of what is sent to the ship. -/
theorem Sound.reply (h : w.Sound) {reply : Reply} (hreply : ∀ gc slot data,
    reply ≠ .character gc slot data) : Sound { w with toShip := w.toShip ++ [reply] } where
  clients := h.clients
  replies gc slot data hmem := by
    rcases List.mem_append.mp hmem with hmem | hmem
    · exact h.replies gc slot data hmem
    · exact (hreply gc slot data (List.mem_singleton.mp hmem).symm).elim

/-- A character that is sent to the ship is noted. -/
theorem Sound.character (h : w.Sound) (gc slot : Nat) (data : List UInt8) :
    Sound { w with
      toShip := w.toShip ++ [.character gc slot data]
      sent := w.sent ++ [(gc, slot, data)] } where
  clients c hc := (h.clients c hc).mono fun _ hmem => List.mem_append_left _ hmem
  replies gc' slot' data' hmem := by
    rcases List.mem_append.mp hmem with hmem | hmem
    · exact List.mem_append_left _ (h.replies gc' slot' data' hmem)
    · cases List.mem_singleton.mp hmem
      exact List.mem_append_right _ (List.mem_singleton.mpr rfl)

/-- What the shipgate is sent, and what it stores, does not count. -/
theorem Sound.tables (h : w.Sound) (toGate : List Request)
    (characters : Nat × Nat → Option (List UInt8)) (options : Nat → Option (List UInt8)) :
    Sound { w with toGate := toGate, characters := characters, options := options } :=
  ⟨h.clients, h.replies⟩

theorem Sound.set (h : w.Sound) (i : Nat) {c : Connection} (hc : c.Sound w.sent)
    (toGate : List Request) :
    Sound { w with clients := w.clients.set i c, toGate := toGate } where
  clients c' hmem := by
    rcases List.mem_or_eq_of_mem_set hmem with hmem | rfl
    · exact h.clients c' hmem
    · exact hc
  replies := h.replies

theorem Sound.gate (h : w.Sound) (dealing : Dealing) : (w.gate dealing).Sound := by
  unfold World.gate
  cases w.toGate with
  | nil => exact h
  | cons request rest =>
      have hrest : Sound { w with toGate := rest } := h.tables rest _ _
      cases dealing with
      | silent => exact hrest
      | fails => exact hrest.reply fun _ _ _ => nofun
      | answers =>
          cases request with
          | creq gc slot =>
              dsimp only
              cases w.characters (gc, slot) with
              | none => exact hrest.reply fun _ _ _ => nofun
              | some data => exact hrest.character gc slot data
          | cdata gc slot record => exact hrest.tables _ _ _
          | bbOptReq gc block =>
              dsimp only
              cases w.options gc with
              | none => exact hrest.reply fun _ _ _ => nofun
              | some opts => exact hrest.reply fun _ _ _ => nofun
          | bbOpts gc opts =>
              dsimp only
              cases w.options gc with
              | none => exact hrest
              | some _ => exact hrest.tables _ _ _

theorem Sound.ship (h : w.Sound) : w.ship.Sound := by
  unfold World.ship
  cases htoShip : w.toShip with
  | nil => exact h
  | cons reply rest =>
      have hreplies : ∀ gc slot data, .character gc slot data ∈ rest → (gc, slot, data) ∈ w.sent :=
        fun gc slot data hmem =>
          h.replies gc slot data (htoShip ▸ List.mem_cons_of_mem reply hmem)
      cases reply with
      | character gc slot data =>
          have hsent : (gc, slot, data) ∈ w.sent :=
            h.replies gc slot data (htoShip ▸ List.mem_cons_self)
          exact ⟨sound_handleCreq hsent h.clients, hreplies⟩
      | error => exact ⟨h.clients, hreplies⟩
      | bbOpts gc block opts => exact ⟨sound_handleBbopts block opts h.clients, hreplies⟩

theorem Sound.next (h : w.Sound) (noBb : Bool) (e : Event) : (w.next noBb e).Sound := by
  cases e with
  | connect i bb block =>
      constructor
      · intro c hmem
        by_cases hi : i ≤ w.clients.length
        · rcases (List.mem_insertIdx hi).mp hmem with rfl | hmem
          · exact Connection.sound_create bb block
          · exact h.clients c hmem
        · dsimp only [World.next] at hmem
          rw [List.insertIdx_of_length_lt (Nat.lt_of_not_le hi)] at hmem
          exact h.clients c hmem
      · exact h.replies
  | login i gc slot magic =>
      unfold World.next
      dsimp only
      cases hc : w.clients[i]? with
      | none => exact h
      | some c =>
          have hsound := h.clients c (List.mem_of_getElem? hc)
          exact h.set i (hsound.processLogin noBb gc slot magic) _
  | operate i f =>
      unfold World.next
      dsimp only
      cases hc : w.clients[i]? with
      | none => exact h
      | some c => exact h.set i ((h.clients c (List.mem_of_getElem? hc)).operate f) _
  | disconnect i seconds =>
      unfold World.next
      dsimp only
      cases w.clients[i]? with
      | none => exact h
      | some c => exact ⟨fun c hmem => h.clients c (List.mem_of_mem_eraseIdx hmem), h.replies⟩
  | gate dealing => exact h.gate dealing
  | ship => exact h.ship

/-- The tables of the shipgate change only when it deals with a save. -/
theorem tables_gate (w : World) (dealing : Dealing)
    (h : ∀ request ∈ w.toGate.head?, ∀ gc,
      (∀ slot record, request ≠ .cdata gc slot record) ∧ ∀ opts, request ≠ .bbOpts gc opts) :
    (w.gate dealing).characters = w.characters ∧ (w.gate dealing).options = w.options := by
  unfold World.gate
  cases htoGate : w.toGate with
  | nil => exact ⟨rfl, rfl⟩
  | cons request rest =>
      have hrequest := h request (by rw [htoGate]; rfl)
      cases dealing with
      | silent => exact ⟨rfl, rfl⟩
      | fails => exact ⟨rfl, rfl⟩
      | answers =>
          cases request with
          | creq gc slot =>
              dsimp only
              cases w.characters (gc, slot) <;> exact ⟨rfl, rfl⟩
          | cdata gc slot record => exact ((hrequest gc).1 slot record rfl).elim
          | bbOptReq gc block =>
              dsimp only
              cases w.options gc <;> exact ⟨rfl, rfl⟩
          | bbOpts gc opts => exact ((hrequest gc).2 opts rfl).elim

end World

/-! ## Connections that are closed -/

theorem justified_iff {w : World} {c : Connection} (hc : c.Sound w.sent) (seconds : Nat) :
    Justified w c seconds (c.bbPl.addPlayTime seconds) ↔
      ∃ data, lastLoaded c.history = some (c.guildcard, c.slot, data) ∧
        data.length = bbDbCharSize := by
  constructor
  · rintro ⟨before, data, operations, hhistory, -, hlength, -⟩
    refine ⟨data, ?_, hlength⟩
    exact (lastLoaded_eq_some_iff _ _ _ _).mpr ⟨before, operations, hhistory⟩
  · rintro ⟨data, hlast, hlength⟩
    rcases (lastLoaded_eq_some_iff _ _ _ _).mp hlast with ⟨before, operations, hhistory⟩
    refine ⟨before, data, operations, hhistory, ?_, hlength, ?_⟩
    · apply hc.received
      rw [hhistory]
      exact List.mem_append_right _ List.mem_cons_self
    · rw [hc.replayed, hhistory, replay_loaded before _ _ hlength]

theorem savesLoaded_iff {w : World} (h : w.Sound) (e : Event) :
    SavesLoaded w e ↔ ClosedLoaded w e := by
  cases e with
  | disconnect i seconds =>
      constructor
      · intro hsaves c hc hbb
        have hsent : .cdata c.guildcard c.slot (c.bbPl.addPlayTime seconds) ∈
            clientDestroyConnection c seconds := by
          rw [clientDestroyConnection, if_pos hbb]
          exact List.mem_cons_self
        have hfine := hsaves c hc _ hsent
        exact (justified_iff (h.clients c (List.mem_of_getElem? hc)) seconds).mp hfine.2.2
      · intro hclosed c hc request hrequest
        unfold clientDestroyConnection at hrequest
        split at hrequest
        next hbb =>
          have hjustified := (justified_iff (h.clients c (List.mem_of_getElem? hc)) seconds).mpr
            (hclosed c hc hbb)
          rcases List.mem_cons.mp hrequest with rfl | hrequest
          · exact ⟨rfl, rfl, hjustified⟩
          · cases List.mem_singleton.mp hrequest
            exact ⟨rfl, _, hjustified⟩
        next => exact (List.not_mem_nil hrequest).elim
  | connect i bb block => exact Iff.rfl
  | login i gc slot magic => exact Iff.rfl
  | operate i f => exact Iff.rfl
  | gate dealing => exact Iff.rfl
  | ship => exact Iff.rfl

/-- In a run, the connections that are closed save characters that they received if and only if
each Blue Burst connection is closed when the last reply in its buffer is for its guildcard and
slot. -/
theorem saves_runs_iff (noBb : Bool) (characters : Nat × Nat → Option (List UInt8))
    (options : Nat → Option (List UInt8)) (events : List Event) :
    Run.Guarded (World.next noBb) SavesLoaded (.start characters options) events ↔
      Run.Guarded (World.next noBb) ClosedLoaded (.start characters options) events :=
  Run.Guarded.congr (fun _ e hsound => savesLoaded_iff hsound e)
    (fun _ e hsound _ => hsound.next noBb e) (World.sound_start characters options)

/-- A connection that is closed before the reply comes saves a buffer that has never been
written. -/
theorem not_saves_runs : ¬ ∀ (noBb : Bool) (characters : Nat × Nat → Option (List UInt8))
    (options : Nat → Option (List UInt8)) (events : List Event),
    Run.Guarded (World.next noBb) SavesLoaded (.start characters options) events := by
  intro h
  have hrun := h false (fun _ => none) (fun _ => none)
    [.connect 0 true 1, .login 0 1 0 true, .disconnect 0 5]
  have hsaved := hrun.2.2.1 _ rfl _ List.mem_cons_self
  rcases hsaved.2.2 with ⟨before, _, operations, hhistory, -⟩
  cases before <;> cases hhistory

end Sylverant.Ship.CharacterSaves
