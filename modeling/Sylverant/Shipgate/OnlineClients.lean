/-
# The clients that are online

A ship tells the shipgate when a client has come to a lobby on one of its blocks, and when the
connection of a client is closed. The shipgate has a table of the clients that are online, with
the guildcard as its key; a login for a guildcard that it has is refused, and the ship then ends
every connection with that guildcard on the block. The packets have a guildcard, a block and a
name, which do not tell two connections with one guildcard apart.

The packets of a ship arrive in order, and so do the answers. The queries succeed, but for the
insertion of a guildcard that is there. Left out are the messages to friends, the options and
the mail of a client, the change of lobbies, and the list of clients that a ship sends when its
connection to the shipgate is made again: a ship that was closed stays closed.
-/

import Mathlib.Logic.Function.Basic
import Sylverant.Library.Run
import Sylverant.Ship.Version

namespace Sylverant.Shipgate.OnlineClients

open Function (update)
open Sylverant.Ship (Version)

/-! ## The code -/

def ERR_BLOGIN_INVAL_NAME : Nat := 0x00000001
def ERR_BLOGIN_ONLINE : Nat := 0x00000002

/-- Where a session is and which guildcard it has. Not in the code is whether its login was
accepted, and neither its logout nor the end of the connection of its ship was processed since. -/
structure Seat where
  ship : Nat
  block : Nat
  guildcard : Nat
  accepted : Bool

/-- The fields of `ship_client_t` for a client on a block. The name has the bytes that are put
into a packet, of the data of the player or, for Blue Burst, of the character. -/
structure Session extends Seat where
  version : Version
  isDcnte : Bool
  name : List UInt8
  inLobby : Bool
  sentMotd : Bool
  disconnected : Bool
  alive : Bool

/-- `shipgate_block_login_pkt`, with its type, and, not in the code, the session it is from. -/
structure BlockLoginPkt where
  on : Bool
  session : Nat
  guildcard : Nat
  blocknum : Nat
  chName : List UInt8

/-- `shipgate_blogin_err_pkt` -/
structure BloginErrPkt where
  error : Nat
  guildcard : Nat
  blocknum : Nat

/-- The sessions that there were so far, what is sent between each ship and the shipgate and did
not arrive, the ships whose connection is closed, and the table, with the ship and the block of
each guildcard in it. -/
structure World where
  sessions : Nat → Option Session
  toGate : Nat → List BlockLoginPkt
  toShip : Nat → List BloginErrPkt
  closed : Nat → Bool
  onlineClients : Nat → Option (Nat × Nat)

/-- The data of a character may come, or be of a client that leaves a game, and it may fail to
join a lobby. -/
inductive Event
  | connect (i ship block guildcard : Nat) (version : Version) (isDcnte : Bool)
  | processChar (i : Nat) (name : List UInt8) (leave joins : Bool)
  | bbName (i : Nat) (name : List UInt8)
  | leaveLobby (i : Nat)
  | sentMotd (i : Nat)
  | disconnect (i : Nat)
  | gate (ship : Nat)
  | reply (ship : Nat)
  | close (ship : Nat)

/-- A name that starts with a tab is one of Blue Burst; the others have to be terminated. -/
def readable (chName : List UInt8) : Bool := chName.getD 0 0 == 9 || chName.getD 31 0 == 0

/-- `dc_process_char` and `bb_process_char`: the client, and whether a login is sent. -/
def processChar (c : Session) (name : List UInt8) (leave joins : Bool) : Session × Bool :=
  let c := if c.version = .bb then c else { c with name := name }
  if leave then ({ c with inLobby := false }, false)
  else if c.inLobby || !joins then (c, false)
  else if c.sentMotd then ({ c with inLobby := true }, false)
  else
    let atOnce := c.version = .bb ∨ c.version = .gc ∨ c.version = .ep3 ∨ c.isDcnte
    ({ c with inLobby := true, sentMotd := decide atOnce }, true)

/-- The packet of a session. -/
def blockLogin (on : Bool) (i : Nat) (c : Session) : BlockLoginPkt where
  on := on
  session := i
  guildcard := c.guildcard
  blocknum := c.block
  chName := c.name

/-- What `client_destroy_connection` sends: a logout for a client that has a name, and for any
client of Blue Burst. -/
def logoutPkts (i : Nat) (c : Session) : List BlockLoginPkt :=
  if c.version = .bb ∨ c.name.getD 0 0 ≠ 0 then [blockLogin false i c] else []

/-- A client that `handle_blogin_err` finds. -/
def Session.Found (c : Session) (ship : Nat) (pkt : BloginErrPkt) : Prop :=
  c.alive = true ∧ c.ship = ship ∧ c.block = pkt.blocknum ∧ c.guildcard = pkt.guildcard

instance (c : Session) (ship : Nat) (pkt : BloginErrPkt) : Decidable (c.Found ship pkt) :=
  inferInstanceAs (Decidable (_ ∧ _))

namespace World

/-- Packets to the shipgate are lost when the connection of the ship is closed. -/
def send (w : World) (ship : Nat) (pkts : List BlockLoginPkt) : World :=
  if w.closed ship then w
  else { w with toGate := update w.toGate ship (w.toGate ship ++ pkts) }

def setSession (w : World) (i : Nat) (c : Session) : World :=
  { w with sessions := update w.sessions i (some c) }

/-- Whether the session counts as logged in from now on. -/
def setAccepted (w : World) (i : Nat) (accepted : Bool) : World :=
  match w.sessions i with
  | none => w
  | some c => w.setSession i { c with accepted := accepted }

def refuse (w : World) (ship error : Nat) (pkt : BlockLoginPkt) : World :=
  let err : BloginErrPkt := ⟨error, pkt.guildcard, pkt.blocknum⟩
  { w with toShip := update w.toShip ship (w.toShip ship ++ [err]) }

def handleBlocklogin (w : World) (ship : Nat) (pkt : BlockLoginPkt) : World :=
  if !readable pkt.chName then w.refuse ship ERR_BLOGIN_INVAL_NAME pkt
  else
    match w.onlineClients pkt.guildcard with
    | some _ => w.refuse ship ERR_BLOGIN_ONLINE pkt
    | none =>
        let row := some (ship, pkt.blocknum)
        setAccepted { w with onlineClients := update w.onlineClients pkt.guildcard row }
          pkt.session true

/-- The row of the guildcard goes if it has the ship, on whatever block. -/
def deleteRow (w : World) (ship guildcard : Nat) : World :=
  match w.onlineClients guildcard with
  | none => w
  | some row =>
      if row.1 = ship then
        { w with onlineClients := update w.onlineClients guildcard none }
      else w

def handleBlocklogout (w : World) (ship : Nat) (pkt : BlockLoginPkt) : World :=
  setAccepted (if readable pkt.chName then w.deleteRow ship pkt.guildcard else w)
    pkt.session false

/-- Everyone with the guildcard on the block is to be disconnected. -/
def handleBloginErr (w : World) (ship : Nat) (pkt : BloginErrPkt) : World :=
  { w with
    sessions := fun i => (w.sessions i).map fun c =>
      if c.Found ship pkt then { c with disconnected := true } else c }

/-- The connection of a ship ends: its rows go (`destroy_connection`). -/
def closeShip (w : World) (ship : Nat) : World where
  sessions i := (w.sessions i).map fun c =>
    if c.ship = ship then { c with accepted := false } else c
  toGate := update w.toGate ship []
  toShip := update w.toShip ship []
  closed := update w.closed ship true
  onlineClients g := (w.onlineClients g).filter fun row => row.1 != ship

/-- A client on a block does something. -/
def client (w : World) (i : Nat) (f : Session → Session × List BlockLoginPkt) : World :=
  match w.sessions i with
  | none => w
  | some c => if c.alive then (w.setSession i (f c).1).send c.ship (f c).2 else w

def next (w : World) : Event → World
  | .connect i ship block guildcard version isDcnte =>
      match w.sessions i with
      | some _ => w
      | none =>
          w.setSession i
            { ship := ship, block := block, guildcard := guildcard, accepted := false,
              version := version, isDcnte := isDcnte, name := [], inLobby := false,
              sentMotd := false, disconnected := false, alive := true }
  | .processChar i name leave joins => w.client i fun c =>
      let (c, login) := OnlineClients.processChar c name leave joins
      (c, if login then [blockLogin true i c] else [])
  | .bbName i name => w.client i fun c => ({ c with name := name }, [])
  | .leaveLobby i => w.client i fun c => ({ c with inLobby := false }, [])
  | .sentMotd i => w.client i fun c => ({ c with sentMotd := true }, [])
  | .disconnect i => w.client i fun c => ({ c with alive := false }, logoutPkts i c)
  | .gate ship =>
      match w.toGate ship with
      | [] => w
      | pkt :: rest =>
          let w := { w with toGate := update w.toGate ship rest }
          if pkt.on then w.handleBlocklogin ship pkt else w.handleBlocklogout ship pkt
  | .reply ship =>
      match w.toShip ship with
      | [] => w
      | pkt :: rest =>
          handleBloginErr { w with toShip := update w.toShip ship rest } ship pkt
  | .close ship => w.closeShip ship

def start : World where
  sessions _ := none
  toGate _ := []
  toShip _ := []
  closed _ := false
  onlineClients _ := none

def seats (w : World) (i : Nat) : Option Seat := (w.sessions i).map Session.toSeat

end World

/-! ## What should hold -/

/-- There is a row for a guildcard, a ship and a block just if there is a session that is logged
in with them. -/
def Present (w : World) : Prop :=
  ∀ guildcard ship block, w.onlineClients guildcard = some (ship, block) ↔
    ∃ i, w.seats i = some ⟨ship, block, guildcard, true⟩

/-- A refused login does not touch the sessions that are logged in. -/
def Untouched (w : World) : Event → Prop
  | .reply ship =>
      ∀ i c, w.sessions i = some c → c.accepted = true → (w.next (.reply ship)).sessions i = some c
  | _ => True

/-- After the event the table is right, and it is no refusal that touches such a session. -/
def Keeps (w : World) (e : Event) : Prop := Present (w.next e) ∧ Untouched w e

/-- When the shipgate comes to a logout, its session is logged in if the name can be read, or else
no row of the guildcard has the ship; if the name cannot be read, it is not logged in. When a
ship comes to a refusal, the sessions with the guildcard on the block are not logged in, or are
to be disconnected anyway. -/
def Orderly (w : World) : Event → Prop
  | .gate ship =>
      ∀ pkt rest c, w.toGate ship = pkt :: rest → pkt.on = false →
        w.sessions pkt.session = some c →
        if readable pkt.chName then
          c.accepted = true ∨ ∀ block, w.onlineClients pkt.guildcard ≠ some (ship, block)
        else c.accepted = false
  | .reply ship =>
      ∀ pkt rest, w.toShip ship = pkt :: rest →
        ∀ i c, w.sessions i = some c → c.Found ship pkt →
          c.accepted = false ∨ c.disconnected = true
  | _ => True

/-! ## What holds of every state -/

/-- Beside a table that is right, no two sessions with one guildcard are logged in, and a packet
has the guildcard and the block of its session, which is on the ship that sent it. -/
structure World.Sound (w : World) : Prop where
  present : Present w
  unique : ∀ i j a b, w.seats i = some a → w.seats j = some b → a.accepted = true →
    b.accepted = true → a.guildcard = b.guildcard → i = j
  packets : ∀ ship, ∀ pkt ∈ w.toGate ship,
    ∃ accepted, w.seats pkt.session = some ⟨ship, pkt.blocknum, pkt.guildcard, accepted⟩

namespace World

variable {w w' : World} {i : Nat}

/-- Where the seats and the table stay as they are, the packets count only. -/
theorem Sound.of_seats (h : w.Sound) (hseats : ∀ i, w'.seats i = w.seats i)
    (htable : w'.onlineClients = w.onlineClients)
    (hpackets : ∀ ship, ∀ pkt ∈ w'.toGate ship,
      ∃ accepted, w.seats pkt.session = some ⟨ship, pkt.blocknum, pkt.guildcard, accepted⟩) :
    w'.Sound where
  present guildcard ship block := by
    rw [htable, h.present]
    simp only [hseats]
  unique i j a b ha hb := by
    rw [hseats] at ha hb
    exact h.unique i j a b ha hb
  packets ship pkt hpkt := by
    rw [hseats]
    exact hpackets ship pkt hpkt

theorem seats_setSession (w : World) (i : Nat) (c : Session) (j : Nat) :
    (w.setSession i c).seats j = if j = i then some c.toSeat else w.seats j := by
  unfold seats setSession
  dsimp only
  rw [Function.update_apply]
  split <;> rfl

theorem Sound.send (h : w.Sound) (ship : Nat) (pkts : List BlockLoginPkt)
    (hpkts : ∀ pkt ∈ pkts,
      ∃ accepted, w.seats pkt.session = some ⟨ship, pkt.blocknum, pkt.guildcard, accepted⟩) :
    (w.send ship pkts).Sound := by
  unfold World.send
  split
  · exact h
  · refine h.of_seats (fun _ => rfl) rfl fun s pkt hpkt => ?_
    dsimp only at hpkt
    rw [Function.update_apply] at hpkt
    split at hpkt
    next hs =>
      subst hs
      rcases List.mem_append.mp hpkt with hpkt | hpkt
      · exact h.packets s pkt hpkt
      · exact hpkts pkt hpkt
    next => exact h.packets s pkt hpkt

/-- A client that stays in its seat, and sends packets of its own. -/
theorem Sound.client (h : w.Sound) (i : Nat) (f : Session → Session × List BlockLoginPkt)
    (hseat : ∀ c, (f c).1.toSeat = c.toSeat)
    (hpkts : ∀ c, ∀ pkt ∈ (f c).2, ∃ on c', c'.toSeat = c.toSeat ∧ pkt = blockLogin on i c') :
    (w.client i f).Sound := by
  unfold World.client
  cases hc : w.sessions i with
  | none => exact h
  | some c =>
      dsimp only
      split
      · have hi : w.seats i = some c.toSeat := by
          rw [seats, hc, Option.map_some]
        have hseats : ∀ j, (w.setSession i (f c).1).seats j = w.seats j := by
          intro j
          rw [seats_setSession, hseat]
          split
          next hj => rw [hj, hi]
          next => rfl
        apply Sound.send (h.of_seats hseats rfl h.packets)
        intro pkt hpkt
        rcases hpkts c pkt hpkt with ⟨on, c', hc', rfl⟩
        refine ⟨c.accepted, (hseats i).trans (hi.trans (congrArg some ?_))⟩
        rw [blockLogin, hc']
      · exact h

theorem processChar_seat (c : Session) (name : List UInt8) (leave joins : Bool) :
    (OnlineClients.processChar c name leave joins).1.toSeat = c.toSeat := by
  have hnamed : (if c.version = .bb then c else { c with name := name }).toSeat = c.toSeat := by
    split <;> rfl
  unfold OnlineClients.processChar
  dsimp only
  generalize (if c.version = .bb then c else { c with name := name }) = d at hnamed
  split
  · exact hnamed
  split
  · exact hnamed
  split <;> exact hnamed

theorem Sound.connect (h : w.Sound) (i ship block guildcard : Nat) (version : Version)
    (isDcnte : Bool) : (w.next (.connect i ship block guildcard version isDcnte)).Sound := by
  unfold next
  dsimp only
  cases hc : w.sessions i with
  | some c => exact h
  | none =>
      have hnone : w.seats i = none := by
        rw [seats, hc, Option.map_none]
      have hold : ∀ j a, w.seats j = some a → j ≠ i := by
        rintro j a hj rfl
        rw [hnone] at hj
        cases hj
      dsimp only
      constructor
      · intro g s b
        refine (h.present g s b).trans (exists_congr fun j => ?_)
        rw [seats_setSession]
        by_cases hj : j = i
        · rw [if_pos hj, hj, hnone]
          refine iff_of_false (fun heq => ?_) (fun heq => ?_)
          · cases heq
          · cases heq
        · rw [if_neg hj]
      · intro j k a b ha hb haacc hbacc hgc
        rw [seats_setSession] at ha hb
        split at ha
        next =>
          cases ha
          cases haacc
        next =>
          split at hb
          next =>
            cases hb
            cases hbacc
          next => exact h.unique j k a b ha hb haacc hbacc hgc
      · intro s pkt hpkt
        rcases h.packets s pkt hpkt with ⟨accepted, hseat⟩
        refine ⟨accepted, ?_⟩
        rw [seats_setSession, if_neg (hold _ _ hseat)]
        exact hseat

/-! ## The shipgate -/

theorem seats_setAccepted (w : World) (i : Nat) (accepted : Bool) (j : Nat) :
    (w.setAccepted i accepted).seats j =
      if j = i then (w.seats i).map fun s => { s with accepted := accepted } else w.seats j := by
  unfold setAccepted
  cases hc : w.sessions i with
  | none =>
      dsimp only
      by_cases hj : j = i
      · rw [if_pos hj, hj, seats, hc, Option.map_none, Option.map_none]
      · rw [if_neg hj]
  | some c =>
      dsimp only
      have hi : w.seats i = some c.toSeat := by
        rw [seats, hc, Option.map_some]
      rw [seats_setSession, hi, Option.map_some]

theorem onlineClients_setAccepted (w : World) (i : Nat) (accepted : Bool) :
    (w.setAccepted i accepted).onlineClients = w.onlineClients := by
  unfold setAccepted
  cases w.sessions i <;> rfl

theorem toGate_setAccepted (w : World) (i : Nat) (accepted : Bool) :
    (w.setAccepted i accepted).toGate = w.toGate := by
  unfold setAccepted
  cases w.sessions i <;> rfl

/-- Packets stay those of their sessions when only logins change. -/
theorem packets_setAccepted (i : Nat) (accepted : Bool)
    (h : ∀ ship, ∀ pkt ∈ w.toGate ship,
      ∃ acc, w.seats pkt.session = some ⟨ship, pkt.blocknum, pkt.guildcard, acc⟩) :
    ∀ ship, ∀ pkt ∈ (w.setAccepted i accepted).toGate ship,
      ∃ acc, (w.setAccepted i accepted).seats pkt.session =
        some ⟨ship, pkt.blocknum, pkt.guildcard, acc⟩ := by
  intro ship pkt hpkt
  rw [toGate_setAccepted] at hpkt
  rcases h ship pkt hpkt with ⟨acc, hseat⟩
  rw [seats_setAccepted]
  split
  next heq =>
    refine ⟨accepted, ?_⟩
    rw [← heq, hseat, Option.map_some]
  next => exact ⟨acc, hseat⟩

theorem Sound.refuse (h : w.Sound) (ship error : Nat) (pkt : BlockLoginPkt) :
    (w.refuse ship error pkt).Sound :=
  h.of_seats (fun _ => rfl) rfl h.packets

/-- Only the session of the packet gets in or out, whatever happens to the table. -/
theorem seats_of_packet {ship : Nat} {pkt : BlockLoginPkt} {accepted : Bool}
    (hpkt : w.seats pkt.session = some ⟨ship, pkt.blocknum, pkt.guildcard, accepted⟩)
    (table : Nat → Option (Nat × Nat)) (acc : Bool) (j : Nat) :
    (setAccepted { w with onlineClients := table } pkt.session acc).seats j =
      if j = pkt.session then some ⟨ship, pkt.blocknum, pkt.guildcard, acc⟩ else w.seats j := by
  refine (seats_setAccepted _ _ _ _).trans ?_
  split
  · exact congrArg (Option.map _) hpkt
  · rfl

/-- The sessions that are logged in after a logout. -/
theorem seats_logout {ship : Nat} {pkt : BlockLoginPkt} {accepted : Bool}
    (hpkt : w.seats pkt.session = some ⟨ship, pkt.blocknum, pkt.guildcard, accepted⟩)
    (table : Nat → Option (Nat × Nat)) (j s b g : Nat) :
    (setAccepted { w with onlineClients := table } pkt.session false).seats j =
      some ⟨s, b, g, true⟩ ↔ w.seats j = some ⟨s, b, g, true⟩ ∧ j ≠ pkt.session := by
  rw [seats_of_packet hpkt]
  split
  next hj =>
    refine iff_of_false (fun heq => ?_) (fun hboth => hboth.2 hj)
    cases heq
  next hj => exact (and_iff_left hj).symm

section Gate

variable (h : w.Sound) {ship : Nat} {pkt : BlockLoginPkt} {accepted : Bool}
  (hpkt : w.seats pkt.session = some ⟨ship, pkt.blocknum, pkt.guildcard, accepted⟩)

include h hpkt

/-- A login for a guildcard that no row has. -/
theorem Sound.accept (hnone : w.onlineClients pkt.guildcard = none) :
    (setAccepted { w with
      onlineClients := update w.onlineClients pkt.guildcard (some (ship, pkt.blocknum)) }
      pkt.session true).Sound := by
  have hfree : ∀ j s, w.seats j = some s → s.accepted = true → s.guildcard ≠ pkt.guildcard := by
    rintro j ⟨s, b, g, acc⟩ hj rfl rfl
    have hrow := (h.present pkt.guildcard s b).mpr ⟨j, hj⟩
    rw [hnone] at hrow
    cases hrow
  constructor
  · intro g s b
    rw [onlineClients_setAccepted]
    dsimp only
    rw [Function.update_apply]
    split
    next hg =>
      constructor
      · intro hrow
        cases hrow
        refine ⟨pkt.session, ?_⟩
        rw [seats_of_packet hpkt, if_pos rfl, hg]
      · rintro ⟨j, hj⟩
        rw [seats_of_packet hpkt] at hj
        split at hj
        next =>
          cases hj
          rfl
        next => exact (hfree j _ hj rfl hg).elim
    next hg =>
      refine (h.present g s b).trans (exists_congr fun j => ?_)
      rw [seats_of_packet hpkt]
      by_cases hj : j = pkt.session
      · rw [if_pos hj, hj, hpkt]
        refine iff_of_false (fun heq => ?_) (fun heq => ?_)
        · cases heq
          exact hg rfl
        · cases heq
          exact hg rfl
      · rw [if_neg hj]
  · intro j k a b ha hb haacc hbacc hgc
    rw [seats_of_packet hpkt] at ha hb
    split at ha
    next hj =>
      split at hb
      next hk => rw [hj, hk]
      next =>
        cases ha
        exact (hfree k b hb hbacc hgc.symm).elim
    next =>
      split at hb
      next =>
        cases hb
        exact (hfree j a ha haacc hgc).elim
      next => exact h.unique j k a b ha hb haacc hbacc hgc
  · exact packets_setAccepted pkt.session true h.packets

/-- A logout whose name cannot be read. -/
theorem Sound.present_ignored_iff :
    Present (w.setAccepted pkt.session false) ↔ accepted = false := by
  constructor
  · intro hnew
    apply Bool.eq_false_iff.mpr
    rintro rfl
    have hrow := (h.present _ _ _).mpr ⟨pkt.session, hpkt⟩
    rw [← onlineClients_setAccepted w pkt.session false] at hrow
    rcases (hnew _ _ _).mp hrow with ⟨j, hj⟩
    rcases (seats_logout hpkt w.onlineClients j _ _ _).mp hj with ⟨hj, hne⟩
    exact hne (h.unique j pkt.session _ _ hj hpkt rfl rfl rfl)
  · rintro rfl g s b
    rw [onlineClients_setAccepted]
    refine (h.present g s b).trans (exists_congr fun j => ?_)
    refine Iff.trans ?_ (seats_logout hpkt w.onlineClients j s b g).symm
    constructor
    · intro hj
      refine ⟨hj, ?_⟩
      rintro rfl
      rw [hpkt] at hj
      cases hj
    · exact And.left

/-- A logout whose name can be read, where a row goes. -/
theorem Sound.present_deleted_iff {block : Nat}
    (hrow : w.onlineClients pkt.guildcard = some (ship, block)) :
    Present (setAccepted { w with onlineClients := update w.onlineClients pkt.guildcard none }
      pkt.session false) ↔ accepted = true := by
  have hseats := seats_logout hpkt (update w.onlineClients pkt.guildcard none)
  rcases (h.present _ _ _).mp hrow with ⟨j, hj⟩
  constructor
  · intro hnew
    by_cases heq : j = pkt.session
    · rw [heq, hpkt] at hj
      cases hj
      rfl
    · have hgone := (hnew pkt.guildcard ship block).mpr ⟨j, (hseats _ _ _ _).mpr ⟨hj, heq⟩⟩
      rw [onlineClients_setAccepted] at hgone
      dsimp only at hgone
      rw [Function.update_apply, if_pos rfl] at hgone
      cases hgone
  · rintro rfl g s b
    rw [onlineClients_setAccepted]
    dsimp only
    rw [Function.update_apply]
    split
    next hg =>
      refine iff_of_false (fun hnone => ?_) ?_
      · cases hnone
      · rintro ⟨k, hk⟩
        rcases (hseats _ _ _ _).mp hk with ⟨hk, hne⟩
        exact hne (h.unique k pkt.session _ _ hk hpkt rfl rfl hg)
    next hg =>
      refine (h.present g s b).trans (exists_congr fun k => ?_)
      rw [hseats]
      constructor
      · intro hk
        refine ⟨hk, ?_⟩
        rintro rfl
        rw [hpkt] at hk
        cases hk
        exact hg rfl
      · exact And.left

theorem Sound.logout_iff :
    Present (w.handleBlocklogout ship pkt) ↔
      if readable pkt.chName then
        accepted = true ∨ ∀ block, w.onlineClients pkt.guildcard ≠ some (ship, block)
      else accepted = false := by
  unfold handleBlocklogout
  cases hread : readable pkt.chName with
  | false => exact h.present_ignored_iff hpkt
  | true =>
      rw [if_pos rfl, if_pos rfl, deleteRow]
      -- with no row on the ship nothing is deleted, and there is none of the session
      have hnothing : (∀ block, w.onlineClients pkt.guildcard ≠ some (ship, block)) →
          accepted = false := by
        intro hnone
        apply Bool.eq_false_iff.mpr
        rintro rfl
        exact hnone _ ((h.present _ _ _).mpr ⟨pkt.session, hpkt⟩)
      cases hrow : w.onlineClients pkt.guildcard with
      | none =>
          dsimp only
          rw [h.present_ignored_iff hpkt]
          refine iff_of_true (hnothing fun block heq => ?_) (Or.inr fun block heq => ?_)
          · rw [hrow] at heq
            cases heq
          · cases heq
      | some row =>
          rcases row with ⟨s, block⟩
          dsimp only
          split
          next hs =>
            subst hs
            rw [h.present_deleted_iff hpkt hrow]
            constructor
            · exact Or.inl
            · rintro (hacc | hnone)
              · exact hacc
              · exact (hnone block rfl).elim
          next hs =>
            have hnone : ∀ b, some (s, block) ≠ some (ship, b) := by
              rintro b heq
              cases heq
              exact hs rfl
            rw [h.present_ignored_iff hpkt]
            refine iff_of_true (hnothing fun b heq => ?_) (Or.inr hnone)
            rw [hrow] at heq
            exact hnone b heq

end Gate

/-- Fewer logins keep the sessions apart. -/
theorem Sound.unique_of_seats (h : w.Sound) (hseats : ∀ j s b g,
    w'.seats j = some ⟨s, b, g, true⟩ → w.seats j = some ⟨s, b, g, true⟩) :
    ∀ i j a b, w'.seats i = some a → w'.seats j = some b → a.accepted = true →
      b.accepted = true → a.guildcard = b.guildcard → i = j := by
  rintro i j ⟨s, b, g, acc⟩ ⟨s', b', g', acc'⟩ hi hj rfl rfl hg
  exact h.unique i j _ _ (hseats i _ _ _ hi) (hseats j _ _ _ hj) rfl rfl hg

theorem seats_handleBlocklogout {ship : Nat} {pkt : BlockLoginPkt} {accepted : Bool}
    (hpkt : w.seats pkt.session = some ⟨ship, pkt.blocknum, pkt.guildcard, accepted⟩)
    {j s b g : Nat} (hj : (w.handleBlocklogout ship pkt).seats j = some ⟨s, b, g, true⟩) :
    w.seats j = some ⟨s, b, g, true⟩ := by
  revert hj
  unfold handleBlocklogout deleteRow
  split
  · cases w.onlineClients pkt.guildcard with
    | none => exact fun hj => ((seats_logout hpkt w.onlineClients j s b g).mp hj).1
    | some row =>
        dsimp only
        split
        · exact fun hj => ((seats_logout hpkt _ j s b g).mp hj).1
        · exact fun hj => ((seats_logout hpkt w.onlineClients j s b g).mp hj).1
  · exact fun hj => ((seats_logout hpkt w.onlineClients j s b g).mp hj).1

theorem Sound.packets_logout (h : w.Sound) (ship : Nat) (pkt : BlockLoginPkt) :
    ∀ s, ∀ p ∈ (w.handleBlocklogout ship pkt).toGate s,
      ∃ acc, (w.handleBlocklogout ship pkt).seats p.session =
        some ⟨s, p.blocknum, p.guildcard, acc⟩ := by
  unfold handleBlocklogout
  apply packets_setAccepted
  have hdelete : ∀ s, ∀ p ∈ (w.deleteRow ship pkt.guildcard).toGate s,
      ∃ acc, (w.deleteRow ship pkt.guildcard).seats p.session =
        some ⟨s, p.blocknum, p.guildcard, acc⟩ := by
    unfold deleteRow
    cases w.onlineClients pkt.guildcard with
    | none => exact h.packets
    | some row =>
        dsimp only
        split <;> exact h.packets
  split
  · exact hdelete
  · exact h.packets

theorem Sound.handleBlocklogin (h : w.Sound) {ship : Nat} {pkt : BlockLoginPkt} {accepted : Bool}
    (hpkt : w.seats pkt.session = some ⟨ship, pkt.blocknum, pkt.guildcard, accepted⟩) :
    (w.handleBlocklogin ship pkt).Sound := by
  unfold World.handleBlocklogin
  split
  · exact h.refuse ship _ pkt
  · cases hrow : w.onlineClients pkt.guildcard with
    | some row => exact h.refuse ship _ pkt
    | none => exact h.accept hpkt hrow

/-- The shipgate takes the next packet of a ship. -/
theorem Sound.take (h : w.Sound) {ship : Nat} {pkt : BlockLoginPkt} {rest : List BlockLoginPkt}
    (hqueue : w.toGate ship = pkt :: rest) :
    Sound { w with toGate := update w.toGate ship rest } ∧
      ∃ accepted, w.seats pkt.session = some ⟨ship, pkt.blocknum, pkt.guildcard, accepted⟩ := by
  constructor
  · refine h.of_seats (fun _ => rfl) rfl fun s p hp => ?_
    dsimp only at hp
    rw [Function.update_apply] at hp
    split at hp
    next hs =>
      subst hs
      exact h.packets s p (hqueue ▸ List.mem_cons_of_mem pkt hp)
    next => exact h.packets s p hp
  · exact h.packets ship pkt (hqueue ▸ List.mem_cons_self)

theorem Sound.keeps_gate_iff (h : w.Sound) (ship : Nat) :
    Keeps w (.gate ship) ↔ Orderly w (.gate ship) := by
  refine (and_iff_left trivial).trans ?_
  unfold next
  dsimp only
  cases hqueue : w.toGate ship with
  | nil =>
      refine iff_of_true h.present fun pkt rest c hqueue' => ?_
      rw [hqueue] at hqueue'
      cases hqueue'
  | cons pkt rest =>
      rcases h.take hqueue with ⟨htaken, accepted, hpkt⟩
      rcases Option.map_eq_some_iff.mp hpkt with ⟨c, hc, hseat⟩
      have hacc : c.accepted = accepted := congrArg Seat.accepted hseat
      dsimp only
      cases hon : pkt.on with
      | true =>
          refine iff_of_true (htaken.handleBlocklogin hpkt).present ?_
          intro pkt' rest' c' hqueue' hoff
          rw [hqueue] at hqueue'
          cases hqueue'
          rw [hon] at hoff
          cases hoff
      | false =>
          refine (htaken.logout_iff hpkt).trans ?_
          rw [← hacc]
          constructor
          · intro hlogout pkt' rest' c' hqueue' _ hc'
            rw [hqueue] at hqueue'
            cases hqueue'
            rw [hc] at hc'
            cases hc'
            exact hlogout
          · intro horderly
            exact horderly pkt rest c hqueue hon hc

theorem Sound.gate (h : w.Sound) (ship : Nat) (hpresent : Present (w.next (.gate ship))) :
    (w.next (.gate ship)).Sound := by
  revert hpresent
  unfold next
  dsimp only
  cases hqueue : w.toGate ship with
  | nil => exact fun _ => h
  | cons pkt rest =>
      rcases h.take hqueue with ⟨htaken, accepted, hpkt⟩
      dsimp only
      cases pkt.on with
      | true => exact fun _ => htaken.handleBlocklogin hpkt
      | false =>
          intro hpresent
          refine ⟨hpresent, htaken.unique_of_seats ?_, htaken.packets_logout ship pkt⟩
          intro j s b g hj
          exact @seats_handleBlocklogout { w with toGate := update w.toGate ship rest }
            _ _ _ hpkt _ _ _ _ hj

/-! ## The ships -/

theorem Sound.reply (h : w.Sound) (ship : Nat) : (w.next (.reply ship)).Sound := by
  unfold next
  dsimp only
  cases w.toShip ship with
  | nil => exact h
  | cons pkt rest =>
      have hseats : ∀ i, (handleBloginErr { w with toShip := update w.toShip ship rest }
          ship pkt).seats i = w.seats i := by
        intro i
        unfold seats handleBloginErr
        dsimp only
        cases w.sessions i with
        | none => rfl
        | some c =>
            dsimp only [Option.map_some]
            split <;> rfl
      exact h.of_seats hseats rfl h.packets

theorem Sound.keeps_reply_iff (h : w.Sound) (ship : Nat) :
    Keeps w (.reply ship) ↔ Orderly w (.reply ship) := by
  refine (and_iff_right (h.reply ship).present).trans ?_
  unfold Untouched Orderly next
  dsimp only
  cases hqueue : w.toShip ship with
  | nil =>
      refine iff_of_true (fun i c hc _ => hc) fun pkt rest hqueue' => ?_
      cases hqueue'
  | cons pkt rest =>
      dsimp only
      constructor
      · intro hsame pkt' rest' hqueue' i c hc hfound
        cases hqueue'
        cases hacc : c.accepted with
        | false => exact Or.inl rfl
        | true =>
            right
            have hkept := hsame i c hc hacc
            unfold handleBloginErr at hkept
            dsimp only at hkept
            rw [hc, Option.map_some, if_pos hfound] at hkept
            exact congrArg Session.disconnected (Option.some.inj hkept).symm
      · intro horderly i c hc hacc
        unfold handleBloginErr
        dsimp only
        rw [hc, Option.map_some]
        split
        next hfound =>
          rcases horderly pkt rest rfl i c hc hfound with hout | hdisconnected
          · rw [hacc] at hout
            cases hout
          · rw [← hdisconnected]
        next => rfl

theorem Sound.close (h : w.Sound) (ship : Nat) : (w.closeShip ship).Sound := by
  have hseats : ∀ i s, (w.closeShip ship).seats i = some s ↔ ∃ old, w.seats i = some old ∧
      s = if old.ship = ship then { old with accepted := false } else old := by
    intro i s
    unfold seats closeShip
    dsimp only
    cases w.sessions i with
    | none =>
        refine iff_of_false (fun heq => ?_) fun ⟨_, heq, _⟩ => ?_
        · cases heq
        · cases heq
    | some c =>
        simp only [Option.map_some, Option.some.injEq, exists_eq_left']
        split
        · exact eq_comm
        · exact eq_comm
  have hin : ∀ i s b g, (w.closeShip ship).seats i = some ⟨s, b, g, true⟩ ↔
      w.seats i = some ⟨s, b, g, true⟩ ∧ s ≠ ship := by
    intro i s b g
    rw [hseats]
    constructor
    · rintro ⟨old, hold, heq⟩
      split at heq
      · cases heq
      next hne =>
        subst heq
        exact ⟨hold, hne⟩
    · rintro ⟨hold, hne⟩
      exact ⟨_, hold, (if_neg hne).symm⟩
  constructor
  · intro g s b
    simp only [hin, exists_and_right]
    rw [← h.present]
    unfold closeShip
    simp only [Option.filter_eq_some_iff, bne_iff_ne]
  · exact h.unique_of_seats fun j s b g hj => ((hin j s b g).mp hj).1
  · intro s pkt hpkt
    unfold closeShip at hpkt
    dsimp only at hpkt
    rw [Function.update_apply] at hpkt
    split at hpkt
    next => exact (List.not_mem_nil hpkt).elim
    next hne =>
      rcases h.packets s pkt hpkt with ⟨acc, hseat⟩
      refine ⟨acc, (hseats _ _).mpr ⟨_, hseat, ?_⟩⟩
      exact (if_neg hne).symm

/-! ## Runs -/

/-- Only a logout at the shipgate and a refusal at a ship may go wrong. -/
theorem Sound.other (h : w.Sound) (e : Event) (hgate : ∀ ship, e ≠ .gate ship)
    (hreply : ∀ ship, e ≠ .reply ship) : (w.next e).Sound := by
  cases e with
  | connect i ship block guildcard version isDcnte =>
      exact h.connect i ship block guildcard version isDcnte
  | processChar i name leave joins =>
      refine h.client i _ (fun c => processChar_seat c name leave joins) fun c pkt hpkt => ?_
      dsimp only at hpkt
      split at hpkt
      · exact ⟨true, _, processChar_seat c name leave joins, List.mem_singleton.mp hpkt⟩
      · exact (List.not_mem_nil hpkt).elim
  | bbName i name =>
      exact h.client i _ (fun _ => rfl) fun _ _ hpkt => (List.not_mem_nil hpkt).elim
  | leaveLobby i =>
      exact h.client i _ (fun _ => rfl) fun _ _ hpkt => (List.not_mem_nil hpkt).elim
  | sentMotd i =>
      exact h.client i _ (fun _ => rfl) fun _ _ hpkt => (List.not_mem_nil hpkt).elim
  | disconnect i =>
      refine h.client i _ (fun _ => rfl) fun c pkt hpkt => ?_
      dsimp only at hpkt
      unfold logoutPkts at hpkt
      split at hpkt
      · exact ⟨false, c, rfl, List.mem_singleton.mp hpkt⟩
      · exact (List.not_mem_nil hpkt).elim
  | gate ship => exact (hgate ship rfl).elim
  | reply ship => exact (hreply ship rfl).elim
  | close ship => exact h.close ship

theorem Sound.keeps_iff (h : w.Sound) (e : Event) : Keeps w e ↔ Orderly w e := by
  cases e with
  | gate ship => exact h.keeps_gate_iff ship
  | reply ship => exact h.keeps_reply_iff ship
  | _ =>
      refine iff_of_true ⟨Sound.present ?_, trivial⟩ trivial
      apply h.other <;> nofun

theorem Sound.next (h : w.Sound) (e : Event) (hkeeps : Keeps w e) : (w.next e).Sound := by
  cases e with
  | gate ship => exact h.gate ship hkeeps.1
  | reply ship => exact h.reply ship
  | _ => apply h.other <;> nofun

theorem sound_start : start.Sound where
  present _ _ _ := by
    refine iff_of_false (fun heq => ?_) fun ⟨_, heq⟩ => ?_
    · cases heq
    · cases heq
  unique _ _ _ _ ha := by cases ha
  packets _ _ hpkt := (List.not_mem_nil hpkt).elim

end World

end Sylverant.Shipgate.OnlineClients
