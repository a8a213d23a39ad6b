/-
# The ships that are online

A ship that connects to the shipgate is known by its certificate, and so it has an id from the
start; it is online when its login was accepted. The shipgate has a table with a row for each
ship that is online, and tells each ship of the others: what the table has, and what the ships
were last told, while connections come, log in and are closed, several with one id among them.

The queries succeed, but for the insertion of an id that the table has. Left out are the counts
of clients and games, which change without a login, failures of sending, and the log file.
-/

import Mathlib.Data.List.Nodup
import Mathlib.Data.List.Perm.Basic
import Sylverant.Library.Run
import Sylverant.Ship.ShipList
import Sylverant.Shipgate.Packets

namespace Sylverant.Shipgate.OnlineShips

open Sylverant.Ship (ShipStatusPkt)

/-! ## The code -/

def SHIPGATE_MINIMUM_PROTO_VER : Nat := 10
def SHIPGATE_MAXIMUM_PROTO_VER : Nat := 13

def ERR_LOGIN_BAD_KEY : Nat := 0x00000001
def ERR_LOGIN_BAD_PROTO : Nat := 0x00000002
def ERR_LOGIN_BAD_MENU : Nat := 0x00000003
def ERR_LOGIN_INVAL_MENU : Nat := 0x00000004

/-- `shipgate_login6_reply_pkt`, with its numbers in the order of the host. -/
structure Login6ReplyPkt where
  protoVer : Nat
  flags : Nat
  name : List UInt8
  shipAddr4 : Nat
  shipAddr6 : List UInt8
  shipPort : Nat
  clients : Nat
  games : Nat
  menuCode : Nat

/-- The fields of `ship_t` that have to do with the login. Not in the code are whether a login was
accepted, and the statuses that were sent to the ship, the newest first. -/
structure Ship where
  keyIdx : Nat
  protoVer : Nat
  flags : Nat
  remoteAddr : Nat
  remoteAddr6 : List UInt8
  port : Nat
  clients : Nat
  games : Nat
  menuCode : Nat
  shipNumber : Nat
  name : List UInt8
  accepted : Bool
  sent : List ShipStatusPkt
deriving DecidableEq

/-- A row of the table `online_ships`. -/
structure OnlineShip where
  name : List UInt8
  players : Nat
  ip : Nat
  port : Nat
  intIp : Nat
  shipId : Nat
  gmOnly : Bool
  games : Nat
  menuCode : Nat
  flags : Nat
  shipNumber : Nat
  shipIp6 : Nat × Nat
  protocolVer : Nat
deriving DecidableEq

/-- The connections, the oldest first, and the table. -/
structure World where
  ships : List Ship
  onlineShips : List OnlineShip
deriving DecidableEq

/-- A new connection, with the id of its certificate: there are 16 bits for it. -/
def createConnectionTls (idx : Nat) : Ship where
  keyIdx := idx % 2 ^ 16
  protoVer := 0
  flags := 0
  remoteAddr := 0
  remoteAddr6 := List.replicate 16 0
  port := 0
  clients := 0
  games := 0
  menuCode := 0
  shipNumber := 0
  name := List.replicate 12 0
  accepted := false
  sent := []

/-- The first byte of the name tells whether the ship has one. -/
def Ship.Named (o : Ship) : Prop := o.name.getD 0 0 ≠ 0

instance (o : Ship) : Decidable o.Named := inferInstanceAs (Decidable (_ ≠ _))

def statusPkt (o : Ship) (status : Nat) : ShipStatusPkt where
  name := o.name
  shipId := o.keyIdx
  flags := o.flags
  shipAddr4 := o.remoteAddr
  shipAddr6 := o.remoteAddr6
  shipPort := o.port
  status := status
  clients := o.clients
  games := o.games
  menuCode := o.menuCode
  shipNumber := o.shipNumber % 256

/-- Send the status of a ship to another. Nothing is sent of a ship without a name. -/
def sendShipStatus (c o : Ship) (status : Nat) : Ship :=
  if o.Named then { c with sent := statusPkt o status :: c.sent } else c

/-- `isalpha`, for the characters of the C locale. -/
def isalpha (b : Nat) : Bool := (65 ≤ b && b ≤ 90) || (97 ≤ b && b ≤ 122)

/-- The checks of a login, up to the number of the ship, or what is sent if one fails. The row has
`main_menu` and `ship_number`. -/
def checkLogin (row : Option (Nat × Nat)) (pkt : Login6ReplyPkt) : Except Nat Nat :=
  if pkt.protoVer < SHIPGATE_MINIMUM_PROTO_VER ∨ SHIPGATE_MAXIMUM_PROTO_VER < pkt.protoVer then
    .error ERR_LOGIN_BAD_PROTO
  else
    match row with
    | none => .error ERR_LOGIN_BAD_KEY
    | some (mainMenu, shipNumber) =>
        if pkt.menuCode ≠ 0 ∧ (!isalpha (pkt.menuCode % 256) || !isalpha (pkt.menuCode / 256)) then
          .error ERR_LOGIN_BAD_MENU
        else if pkt.menuCode = 0 ∧ mainMenu = 0 then .error ERR_LOGIN_INVAL_MENU
        else .ok shipNumber

/-- Fill in the structure of the ship. -/
def Ship.fill (c : Ship) (pkt : Login6ReplyPkt) (shipNumber : Nat) : Ship :=
  { c with
    remoteAddr := pkt.shipAddr4
    remoteAddr6 := pkt.shipAddr6
    port := pkt.shipPort
    clients := pkt.clients
    games := pkt.games
    flags := pkt.flags
    menuCode := pkt.menuCode
    name := pkt.name
    shipNumber := shipNumber }

/-- The high and the low half of an address. -/
def packIpv6 (addr : List UInt8) : Nat × Nat :=
  let number := fun bytes : List UInt8 => bytes.foldl (fun n b => 256 * n + b.toNat) 0
  (number (addr.take 8), number ((addr.drop 8).take 8))

/-- The row that is inserted for a ship. -/
def onlineShip (c : Ship) : OnlineShip where
  name := c.name
  players := c.clients
  ip := c.remoteAddr
  port := c.port
  intIp := 0
  shipId := c.keyIdx
  gmOnly := c.flags % 2 = 1
  games := c.games
  menuCode := c.menuCode
  flags := c.flags
  shipNumber := c.shipNumber
  shipIp6 := packIpv6 c.remoteAddr6
  protocolVer := c.protoVer

/-- A ship is told of all the ships in the list, one after the other. -/
def greet (ships : List Ship) (c : Ship) : Ship := ships.foldl (fun c j => sendShipStatus c j 1) c

/-- The new state, and the code that is sent to the ship. Every ship is sent the status of the new
one, itself among them, and it is sent theirs. -/
def handleShipgateLogin6t (w : World) (i : Nat) (c : Ship) (row : Option (Nat × Nat))
    (pkt : Login6ReplyPkt) : World × Nat :=
  let c := { c with protoVer := pkt.protoVer }
  match checkLogin row pkt with
  | .error code => ({ w with ships := w.ships.set i c }, code)
  | .ok shipNumber =>
      let c := c.fill pkt shipNumber
      let ships := w.ships.set i c
      if c.keyIdx ∈ w.onlineShips.map OnlineShip.shipId then
        ({ w with ships := ships }, ERR_BAD_ERROR)
      else
        let told := ships.map fun j => sendShipStatus j c 1
        ({ ships := told.set i (greet ships { c with accepted := true })
           onlineShips := w.onlineShips ++ [onlineShip c] }, ERR_NO_ERROR)

/-- The connection goes away, and with it all that has its id. -/
def destroyConnection (w : World) (i : Nat) (c : Ship) : World :=
  if c.keyIdx = 0 then { w with ships := w.ships.eraseIdx i }
  else
    { ships := (w.ships.eraseIdx i).map fun j => sendShipStatus j c 0
      onlineShips := w.onlineShips.filter fun row => row.shipId != c.keyIdx }

/-- A ship connects with a certificate, sends a login, for which the database has a row or not, or
is disconnected, which may be for the time since it was last heard of. -/
inductive Event
  | connect (idx : Nat)
  | login (i : Nat) (row : Option (Nat × Nat)) (pkt : Login6ReplyPkt)
  | close (i : Nat)

namespace World

def next (w : World) : Event → World
  | .connect idx => { w with ships := w.ships ++ [createConnectionTls idx] }
  | .login i row pkt =>
      match w.ships[i]? with
      | none => w
      | some c => (handleShipgateLogin6t w i c row pkt).1
  | .close i =>
      match w.ships[i]? with
      | none => w
      | some c => destroyConnection w i c

def start : World where
  ships := []
  onlineShips := []

def ids (w : World) : List Nat := w.onlineShips.map OnlineShip.shipId

end World

/-! ## What should hold -/

/-- The last status that the ship was sent about an id. -/
def Ship.last (c : Ship) (id : Nat) : Option Nat :=
  (c.sent.find? fun s => s.shipId == id).map ShipStatusPkt.status

/-- A connection with the id is logged in. -/
def Up (ships : List Ship) (id : Nat) : Prop := ∃ c ∈ ships, c.accepted = true ∧ c.keyIdx = id

/-- There is one row for each id that is logged in, and no others; and every ship that is logged
in was last told of just the other ids that are that they are up. -/
structure Consistent (ids : List Nat) (ships : List Ship) : Prop where
  nodup : ids.Nodup
  rows : ∀ id, id ∈ ids ↔ Up ships id
  statuses : ∀ c ∈ ships, c.accepted = true →
    ∀ id, id ≠ c.keyIdx → (c.last id = some 1 ↔ Up ships id)

/-- The end of a connection that is not logged in removes no row and is not told of. -/
def Quiet (w : World) : Event → Prop
  | .close i => ∀ c, w.ships[i]? = some c → c.accepted = false →
      (w.next (.close i)).onlineShips = w.onlineShips ∧
        (w.next (.close i)).ships = w.ships.eraseIdx i
  | _ => True

/-- After the event all is consistent, and it is no end of a connection that should be quiet. -/
def Keeps (w : World) (e : Event) : Prop :=
  Consistent (w.next e).ids (w.next e).ships ∧ Quiet w e

/-- For a ship that logs in among others: it has a name, or no other ship is logged in; of the
others, those that have a name have an id that is logged in, or that of the ship; those that are
logged in have a name, or the ship was told of them; and it was not last told that one is up that
is not. -/
structure Greeted (others : List Ship) (c : Ship) (pkt : Login6ReplyPkt) : Prop where
  named : pkt.name.getD 0 0 ≠ 0 ∨ ∀ j ∈ others, j.accepted = false
  sound : ∀ j ∈ others, j.Named → j.keyIdx ≠ c.keyIdx → Up others j.keyIdx
  complete : ∀ j ∈ others, j.accepted = true →
    (∃ o ∈ others, o.Named ∧ o.keyIdx = j.keyIdx) ∨ c.last j.keyIdx = some 1
  current : ∀ id, id ≠ c.keyIdx → c.last id = some 1 → Up others id

/-- When a login is accepted, the ship is told of the right ships. A connection that is closed has
an id that is not 0 and still a name, if it is logged in and others are; and if it is not logged
in, then it has the id 0, or else no row has its id, and it has no name or nobody is there. -/
def Orderly (w : World) : Event → Prop
  | .connect _ => True
  | .login i row pkt => ∀ c shipNumber, w.ships[i]? = some c →
      checkLogin row pkt = .ok shipNumber → c.keyIdx ∉ w.ids → Greeted (w.ships.eraseIdx i) c pkt
  | .close i => ∀ c, w.ships[i]? = some c →
      if c.accepted then
        c.keyIdx ≠ 0 ∧ (c.Named ∨ ∀ j ∈ w.ships.eraseIdx i, j.accepted = false)
      else c.keyIdx = 0 ∨ (c.keyIdx ∉ w.ids ∧ (¬ c.Named ∨ w.ships.eraseIdx i = []))

/-! ## Statuses that are sent -/

section Sending

variable (c o : Ship) (status : Nat)

@[simp]
theorem keyIdx_send : (sendShipStatus c o status).keyIdx = c.keyIdx := by
  rw [sendShipStatus]
  split <;> rfl

@[simp]
theorem accepted_send : (sendShipStatus c o status).accepted = c.accepted := by
  rw [sendShipStatus]
  split <;> rfl

theorem send_unnamed (h : ¬ o.Named) : sendShipStatus c o status = c := if_neg h

theorem last_send (id : Nat) : (sendShipStatus c o status).last id =
    if o.Named ∧ o.keyIdx = id then some status else c.last id := by
  by_cases hnamed : o.Named
  · rw [sendShipStatus, if_pos hnamed, Ship.last, List.find?_cons]
    by_cases hid : o.keyIdx = id
    · have hfound : ((statusPkt o status).shipId == id) = true := beq_iff_eq.mpr hid
      rw [hfound, if_pos ⟨hnamed, hid⟩]
      rfl
    · have hskipped : ((statusPkt o status).shipId == id) = false := beq_eq_false_iff_ne.mpr hid
      rw [hskipped, if_neg fun h => hid h.2]
      rfl
  · rw [send_unnamed c o status hnamed, if_neg fun h => hnamed h.1]

theorem send_ne_self (h : o.Named) : sendShipStatus c o status ≠ c := by
  intro heq
  have hlength : (sendShipStatus c o status).sent.length = c.sent.length := by rw [heq]
  rw [sendShipStatus, if_pos h] at hlength
  exact Nat.succ_ne_self _ hlength

end Sending

section Greeting

variable (ships : List Ship) (c : Ship)

@[simp]
theorem keyIdx_greet : (greet ships c).keyIdx = c.keyIdx := by
  unfold greet
  induction ships generalizing c with
  | nil => rfl
  | cons j ships ih => rw [List.foldl_cons, ih, keyIdx_send]

@[simp]
theorem accepted_greet : (greet ships c).accepted = c.accepted := by
  unfold greet
  induction ships generalizing c with
  | nil => rfl
  | cons j ships ih => rw [List.foldl_cons, ih, accepted_send]

/-- After the statuses of all ships, those with a name are up, and the others as before. -/
theorem last_greet (id : Nat) : (greet ships c).last id = some 1 ↔
    (∃ j ∈ ships, j.Named ∧ j.keyIdx = id) ∨ c.last id = some 1 := by
  unfold greet
  induction ships generalizing c with
  | nil =>
      constructor
      · exact Or.inr
      · rintro (⟨j, hj, -⟩ | h)
        · exact (List.not_mem_nil hj).elim
        · exact h
  | cons j ships ih =>
      rw [List.foldl_cons, ih, last_send]
      by_cases hj : j.Named ∧ j.keyIdx = id
      · rw [if_pos hj]
        exact iff_of_true (Or.inr rfl) (Or.inl ⟨j, List.mem_cons_self, hj⟩)
      · rw [if_neg hj]
        constructor
        · rintro (⟨o, ho, hnamed⟩ | h)
          · exact Or.inl ⟨o, List.mem_cons_of_mem j ho, hnamed⟩
          · exact Or.inr h
        · rintro (⟨o, ho, hnamed⟩ | h)
          · rcases List.mem_cons.mp ho with rfl | ho
            · exact (hj hnamed).elim
            · exact Or.inl ⟨o, ho, hnamed⟩
          · exact Or.inr h

end Greeting

/-! ## Ids that are logged in -/

section Up

variable {ships ships' : List Ship} {id : Nat}

theorem Up.mono (hmem : ∀ c ∈ ships, c ∈ ships') : Up ships id → Up ships' id := by
  rintro ⟨c, hc, hup⟩
  exact ⟨c, hmem c hc, hup⟩

theorem up_perm (h : ships.Perm ships') : Up ships id ↔ Up ships' id :=
  ⟨Up.mono fun _ hc => h.mem_iff.mp hc, Up.mono fun _ hc => h.mem_iff.mpr hc⟩

theorem up_cons (c : Ship) (ships : List Ship) :
    Up (c :: ships) id ↔ (c.accepted = true ∧ c.keyIdx = id) ∨ Up ships id := by
  constructor
  · rintro ⟨j, hj, hup⟩
    rcases List.mem_cons.mp hj with rfl | hj
    · exact Or.inl hup
    · exact Or.inr ⟨j, hj, hup⟩
  · rintro (hup | hup)
    · exact ⟨c, List.mem_cons_self, hup⟩
    · exact hup.mono fun _ => List.mem_cons_of_mem c

/-- Being told of a ship does not change what is logged in. -/
theorem up_told (o : Ship) (status : Nat) :
    Up (ships.map fun j => sendShipStatus j o status) id ↔ Up ships id := by
  constructor
  · rintro ⟨c, hc, hup⟩
    rcases List.mem_map.mp hc with ⟨j, hj, rfl⟩
    rw [accepted_send, keyIdx_send] at hup
    exact ⟨j, hj, hup⟩
  · rintro ⟨j, hj, hup⟩
    refine ⟨sendShipStatus j o status, List.mem_map_of_mem hj, ?_⟩
    rw [accepted_send, keyIdx_send]
    exact hup

end Up

/-! ## One connection and the others -/

theorem Consistent.perm {ids : List Nat} {ships ships' : List Ship} (h : Consistent ids ships)
    (hperm : ships.Perm ships') : Consistent ids ships' where
  nodup := h.nodup
  rows id := (h.rows id).trans (up_perm hperm)
  statuses c hc hacc id hid :=
    (h.statuses c (hperm.mem_iff.mpr hc) hacc id hid).trans (up_perm hperm)

section Others

variable {ids : List Nat} {c : Ship} {others : List Ship}

theorem up_others_of_accepted (hacc : c.accepted = false) (id : Nat) :
    Up (c :: others) id ↔ Up others id := by
  rw [up_cons, hacc]
  constructor
  · rintro (⟨hfalse, -⟩ | h)
    · cases hfalse
    · exact h
  · exact Or.inr

/-- A connection whose id is in no row is not logged in, nor is any other with the id. -/
theorem not_up_of_not_mem (h : Consistent ids (c :: others)) (hid : c.keyIdx ∉ ids) :
    c.accepted = false ∧ ¬ Up others c.keyIdx := by
  have hdown : ¬ Up (c :: others) c.keyIdx := fun hup => hid ((h.rows _).mpr hup)
  rw [up_cons] at hdown
  constructor
  · apply Bool.eq_false_iff.mpr
    intro hacc
    exact hdown (Or.inl ⟨hacc, rfl⟩)
  · intro hup
    exact hdown (Or.inr hup)

/-- A login that is refused leaves all as it was. -/
theorem Consistent.refuse {d : Ship} (h : Consistent ids (c :: others))
    (hkey : d.keyIdx = c.keyIdx) (hacc : d.accepted = c.accepted) (hsent : d.sent = c.sent) :
    Consistent ids (d :: others) := by
  have hup : ∀ id, Up (d :: others) id ↔ Up (c :: others) id := by
    intro id
    rw [up_cons, up_cons, hacc, hkey]
  have hlast : ∀ id, d.last id = c.last id := by
    intro id
    rw [Ship.last, Ship.last, hsent]
  constructor
  · exact h.nodup
  · intro id
    exact (h.rows id).trans (hup id).symm
  · intro j hj hjacc id hid
    rw [hup]
    rcases List.mem_cons.mp hj with rfl | hj
    · rw [hlast]
      exact h.statuses c List.mem_cons_self (hacc ▸ hjacc) id (hkey ▸ hid)
    · exact h.statuses j (List.mem_cons_of_mem c hj) hjacc id hid

/-- A login that is accepted. The others are told of `n`, and `d` is the new ship after it was
told of them. -/
theorem consistent_accept_iff {n d : Ship} {pkt : Login6ReplyPkt}
    (h : Consistent ids (c :: others)) (hid : c.keyIdx ∉ ids) (hn : n.keyIdx = c.keyIdx)
    (hname : n.name = pkt.name) (hd : d.keyIdx = c.keyIdx) (hacc : d.accepted = true)
    (hlast : ∀ id, id ≠ c.keyIdx → (d.last id = some 1 ↔
      (∃ j ∈ others, j.Named ∧ j.keyIdx = id) ∨ c.last id = some 1)) :
    Consistent (ids ++ [c.keyIdx]) (d :: others.map fun j => sendShipStatus j n 1) ↔
      Greeted others c pkt := by
  rcases not_up_of_not_mem h hid with ⟨hcacc, hdown⟩
  have hbefore : ∀ id, Up (c :: others) id ↔ Up others id := up_others_of_accepted hcacc
  have hup : ∀ id, Up (d :: others.map fun j => sendShipStatus j n 1) id ↔
      c.keyIdx = id ∨ Up others id := by
    intro id
    rw [up_cons, up_told, hacc, hd]
    simp only [true_and]
  have hother : ∀ j ∈ others, j.accepted = true → j.keyIdx ≠ c.keyIdx :=
    fun j hj hjacc heq => hdown ⟨j, hj, hjacc, heq⟩
  have hnamed : n.Named ↔ pkt.name.getD 0 0 ≠ 0 := by
    rw [Ship.Named, hname]
  constructor
  · intro hnew
    have hnewship : ∀ id, id ≠ c.keyIdx → (d.last id = some 1 ↔ Up others id) := by
      intro id hne
      rw [hnew.statuses d List.mem_cons_self hacc id (hd ▸ hne), hup]
      exact or_iff_right hne.symm
    constructor
    · by_cases hn' : n.Named
      · exact Or.inl (hnamed.mp hn')
      · right
        intro j hj
        apply Bool.eq_false_iff.mpr
        intro hjacc
        have htold := hnew.statuses (sendShipStatus j n 1)
          (List.mem_cons_of_mem d (List.mem_map_of_mem hj)) (by rw [accepted_send]; exact hjacc)
          c.keyIdx (by rw [keyIdx_send]; exact (hother j hj hjacc).symm)
        rw [send_unnamed j n 1 hn', hup,
          h.statuses j (List.mem_cons_of_mem c hj) hjacc c.keyIdx (hother j hj hjacc).symm,
          hbefore] at htold
        exact hdown (htold.mpr (Or.inl rfl))
    · intro j hj hjnamed hne
      exact (hnewship _ hne).mp ((hlast _ hne).mpr (Or.inl ⟨j, hj, hjnamed, rfl⟩))
    · intro j hj hjacc
      have hne := hother j hj hjacc
      exact (hlast _ hne).mp ((hnewship _ hne).mpr ⟨j, hj, hjacc, rfl⟩)
    · intro id hne htold
      exact (hnewship id hne).mp ((hlast id hne).mpr (Or.inr htold))
  · intro hgreeted
    constructor
    · exact List.nodup_append.mpr ⟨h.nodup, List.nodup_singleton _, fun a ha b hb heq =>
        hid (List.mem_singleton.mp hb ▸ heq ▸ ha)⟩
    · intro id
      rw [List.mem_append, List.mem_singleton, h.rows, hbefore, hup, or_comm, eq_comm]
    · intro j hj hjacc id hne
      rw [hup]
      rcases List.mem_cons.mp hj with rfl | hj
      · rw [hd] at hne
        rw [hlast id hne, or_iff_right hne.symm]
        constructor
        · rintro (⟨o, ho, honamed, rfl⟩ | htold)
          · exact hgreeted.sound o ho honamed hne
          · exact hgreeted.current id hne htold
        · rintro ⟨o, ho, hoacc, rfl⟩
          exact hgreeted.complete o ho hoacc
      · rcases List.mem_map.mp hj with ⟨o, ho, rfl⟩
        rw [accepted_send] at hjacc
        rw [keyIdx_send] at hne
        have hold := h.statuses o (List.mem_cons_of_mem c ho) hjacc id hne
        rw [hbefore] at hold
        rw [last_send, hn]
        by_cases hkey : c.keyIdx = id
        · have hsent : n.Named := by
            rcases hgreeted.named with hname' | hnone
            · exact hnamed.mpr hname'
            · rw [hnone o ho] at hjacc
              cases hjacc
          rw [if_pos ⟨hsent, hkey⟩]
          exact iff_of_true rfl (Or.inl hkey)
        · rw [if_neg fun hboth => hkey hboth.2, hold]
          exact (or_iff_right hkey).symm

/-- The end of a connection that is logged in. -/
theorem consistent_close_iff (h : Consistent ids (c :: others)) (hacc : c.accepted = true)
    (hdown : ¬ Up others c.keyIdx) :
    Consistent (ids.filter (· != c.keyIdx)) (others.map fun j => sendShipStatus j c 0) ↔
      (c.Named ∨ ∀ j ∈ others, j.accepted = false) := by
  have hother : ∀ j ∈ others, j.accepted = true → j.keyIdx ≠ c.keyIdx :=
    fun j hj hjacc heq => hdown ⟨j, hj, hjacc, heq⟩
  have hbefore : ∀ id, id ≠ c.keyIdx → (Up (c :: others) id ↔ Up others id) := by
    intro id hne
    rw [up_cons]
    exact or_iff_right fun heq => hne heq.2.symm
  constructor
  · intro hnew
    by_cases hnamed : c.Named
    · exact Or.inl hnamed
    · right
      intro j hj
      apply Bool.eq_false_iff.mpr
      intro hjacc
      have htold := hnew.statuses (sendShipStatus j c 0) (List.mem_map_of_mem hj)
        (by rw [accepted_send]; exact hjacc) c.keyIdx
        (by rw [keyIdx_send]; exact (hother j hj hjacc).symm)
      rw [send_unnamed j c 0 hnamed, up_told,
        h.statuses j (List.mem_cons_of_mem c hj) hjacc c.keyIdx (hother j hj hjacc).symm] at htold
      exact hdown (htold.mp ((up_cons c others).mpr (Or.inl ⟨hacc, rfl⟩)))
  · intro hnamed
    constructor
    · exact h.nodup.filter _
    · intro id
      rw [List.mem_filter, bne_iff_ne, h.rows, up_told]
      constructor
      · rintro ⟨hup, hne⟩
        exact (hbefore id hne).mp hup
      · intro hup
        have hne : id ≠ c.keyIdx := fun heq => hdown (heq ▸ hup)
        exact ⟨(hbefore id hne).mpr hup, hne⟩
    · intro j hj hjacc id hne
      rw [up_told]
      rcases List.mem_map.mp hj with ⟨o, ho, rfl⟩
      rw [accepted_send] at hjacc
      rw [keyIdx_send] at hne
      rw [last_send]
      by_cases hkey : c.keyIdx = id
      · have hsent : c.Named := by
          rcases hnamed with hname | hnone
          · exact hname
          · rw [hnone o ho] at hjacc
            cases hjacc
        rw [if_pos ⟨hsent, hkey⟩]
        refine iff_of_false (fun heq => ?_) (hkey ▸ hdown)
        cases heq
      · rw [if_neg fun hboth => hkey hboth.2,
          h.statuses o (List.mem_cons_of_mem c ho) hjacc id hne, hbefore id (Ne.symm hkey)]

/-- The end of a connection that is not logged in, when nothing is done. -/
theorem Consistent.drop (h : Consistent ids (c :: others)) (hacc : c.accepted = false) :
    Consistent ids others where
  nodup := h.nodup
  rows id := (h.rows id).trans (up_others_of_accepted hacc id)
  statuses j hj hjacc id hne :=
    (h.statuses j (List.mem_cons_of_mem c hj) hjacc id hne).trans (up_others_of_accepted hacc id)

end Others

/-! ## Steps -/

/-- Two ships that are logged in have different ids. -/
def Apart (a b : Ship) : Prop := a.accepted = true → b.accepted = true → a.keyIdx ≠ b.keyIdx

structure World.Sound (w : World) : Prop where
  consistent : Consistent w.ids w.ships
  apart : w.ships.Pairwise Apart

section Apart

variable {c d : Ship} {ships others : List Ship}

theorem apart_perm (h : ships.Perm others) : ships.Pairwise Apart ↔ others.Pairwise Apart :=
  h.pairwise_iff fun hab hb ha heq => hab ha hb heq.symm

theorem not_up_of_apart (h : (c :: others).Pairwise Apart) (hacc : c.accepted = true) :
    ¬ Up others c.keyIdx := by
  rintro ⟨j, hj, hjacc, hkey⟩
  exact (List.pairwise_cons.mp h).1 j hj hacc hjacc hkey.symm

theorem apart_cons_of_not_up (h : others.Pairwise Apart) (hdown : ¬ Up others d.keyIdx) :
    (d :: others).Pairwise Apart :=
  List.pairwise_cons.mpr ⟨fun j hj _ hjacc hkey => hdown ⟨j, hj, hjacc, hkey.symm⟩, h⟩

theorem apart_replace (h : (c :: others).Pairwise Apart) (hkey : d.keyIdx = c.keyIdx)
    (hacc : d.accepted = c.accepted) : (d :: others).Pairwise Apart := by
  rw [List.pairwise_cons] at h
  refine List.pairwise_cons.mpr ⟨fun j hj hdacc hjacc => ?_, h.2⟩
  rw [hkey]
  exact h.1 j hj (hacc ▸ hdacc) hjacc

theorem apart_told (h : others.Pairwise Apart) (o : Ship) (status : Nat) :
    (others.map fun j => sendShipStatus j o status).Pairwise Apart := by
  rw [List.pairwise_map]
  refine h.imp fun hab => ?_
  intro ha hb
  rw [accepted_send] at ha hb
  rw [keyIdx_send, keyIdx_send]
  exact hab ha hb

end Apart

namespace World

variable {w : World} {i : Nat} {c : Ship}

/-- One connection of the list comes first. -/
theorem perm_of_getElem? (hc : w.ships[i]? = some c) :
    w.ships.Perm (c :: w.ships.eraseIdx i) := by
  rcases List.getElem?_eq_some_iff.mp hc with ⟨hi, rfl⟩
  exact (List.getElem_cons_eraseIdx_perm hi).symm

theorem set_perm (hc : w.ships[i]? = some c) (d : Ship) :
    (w.ships.set i d).Perm (d :: w.ships.eraseIdx i) :=
  List.set_perm_cons_eraseIdx (List.getElem?_eq_some_iff.mp hc).1 d

theorem next_login (hc : w.ships[i]? = some c) (row : Option (Nat × Nat)) (pkt : Login6ReplyPkt) :
    w.next (.login i row pkt) = (handleShipgateLogin6t w i c row pkt).1 := by
  rw [next, hc]

theorem next_close (hc : w.ships[i]? = some c) :
    w.next (.close i) = destroyConnection w i c := by
  rw [next, hc]

/-- A login that is refused changes the fields of one connection at most. -/
theorem login_refused {row : Option (Nat × Nat)} {pkt : Login6ReplyPkt}
    (hc : w.ships[i]? = some c)
    (h : ∀ shipNumber, checkLogin row pkt = .ok shipNumber → c.keyIdx ∈ w.ids) :
    ∃ d : Ship, d.keyIdx = c.keyIdx ∧ d.accepted = c.accepted ∧ d.sent = c.sent ∧
      w.next (.login i row pkt) = { w with ships := w.ships.set i d } := by
  rw [next_login hc, handleShipgateLogin6t]
  dsimp only
  cases hcheck : checkLogin row pkt with
  | error code => exact ⟨{ c with protoVer := pkt.protoVer }, rfl, rfl, rfl, rfl⟩
  | ok shipNumber =>
      refine ⟨Ship.fill { c with protoVer := pkt.protoVer } pkt shipNumber, rfl, rfl, rfl, ?_⟩
      exact congrArg Prod.fst (if_pos (h shipNumber hcheck))

/-- What is left of a login that is accepted: the others are told of the ship, and the ship of
them. -/
theorem login_accepted {row : Option (Nat × Nat)} {pkt : Login6ReplyPkt} {shipNumber : Nat}
    (hc : w.ships[i]? = some c) (hcheck : checkLogin row pkt = .ok shipNumber)
    (hid : c.keyIdx ∉ w.ids) :
    ∃ n d : Ship, n.keyIdx = c.keyIdx ∧ n.name = pkt.name ∧ d.keyIdx = c.keyIdx ∧
      d.accepted = true ∧
      (∀ id, id ≠ c.keyIdx → (d.last id = some 1 ↔
        (∃ j ∈ w.ships.eraseIdx i, j.Named ∧ j.keyIdx = id) ∨ c.last id = some 1)) ∧
      (w.next (.login i row pkt)).ids = w.ids ++ [c.keyIdx] ∧
      (w.next (.login i row pkt)).ships.Perm
        (d :: (w.ships.eraseIdx i).map fun j => sendShipStatus j n 1) := by
  let n := Ship.fill { c with protoVer := pkt.protoVer } pkt shipNumber
  have hnext : w.next (.login i row pkt) =
      { ships := ((w.ships.set i n).map fun j => sendShipStatus j n 1).set i
          (greet (w.ships.set i n) { n with accepted := true })
        onlineShips := w.onlineShips ++ [onlineShip n] } := by
    rw [next_login hc, handleShipgateLogin6t]
    dsimp only
    rw [hcheck]
    exact congrArg Prod.fst (if_neg hid)
  refine ⟨n, greet (w.ships.set i n) { n with accepted := true }, rfl, rfl, ?_, ?_, ?_, ?_, ?_⟩
  · rw [keyIdx_greet]
    rfl
  · rw [accepted_greet]
  · intro id hne
    rw [last_greet]
    apply or_congr_left
    constructor
    · rintro ⟨j, hj, hnamed, hkey⟩
      rcases List.mem_cons.mp ((set_perm hc n).mem_iff.mp hj) with rfl | hj
      · exact (hne hkey.symm).elim
      · exact ⟨j, hj, hnamed, hkey⟩
    · rintro ⟨j, hj, hnamed⟩
      exact ⟨j, (set_perm hc n).mem_iff.mpr (List.mem_cons_of_mem n hj), hnamed⟩
  · rw [hnext, ids, List.map_append]
    rfl
  · rw [hnext]
    have hi : i < ((w.ships.set i n).map fun j => sendShipStatus j n 1).length := by
      rw [List.length_map, List.length_set]
      exact (List.getElem?_eq_some_iff.mp hc).1
    have hrest : ((w.ships.set i n).map fun j => sendShipStatus j n 1).eraseIdx i =
        (w.ships.eraseIdx i).map fun j => sendShipStatus j n 1 := by
      rw [List.map_set, List.eraseIdx_set_eq, List.eraseIdx_map]
    rw [← hrest]
    exact List.set_perm_cons_eraseIdx hi _

/-- The end of a connection whose id is not 0. -/
theorem close_told (hc : w.ships[i]? = some c) (hkey : c.keyIdx ≠ 0) :
    (w.next (.close i)).ships = ((w.ships.eraseIdx i).map fun j => sendShipStatus j c 0) ∧
      (w.next (.close i)).onlineShips = w.onlineShips.filter (fun row => row.shipId != c.keyIdx) ∧
      (w.next (.close i)).ids = w.ids.filter (· != c.keyIdx) := by
  rw [next_close hc, destroyConnection, if_neg hkey]
  refine ⟨rfl, rfl, ?_⟩
  rw [ids, ids, List.filter_map]
  rfl

/-- The end of a connection with the id 0. -/
theorem close_zero (hc : w.ships[i]? = some c) (hkey : c.keyIdx = 0) :
    w.next (.close i) = { w with ships := w.ships.eraseIdx i } := by
  rw [next_close hc, destroyConnection, if_pos hkey]

theorem next_none_login (hc : w.ships[i]? = none) (row : Option (Nat × Nat))
    (pkt : Login6ReplyPkt) : w.next (.login i row pkt) = w := by
  rw [next, hc]

theorem next_none_close (hc : w.ships[i]? = none) : w.next (.close i) = w := by
  rw [next, hc]

theorem sound_start : start.Sound where
  consistent :=
    ⟨List.nodup_nil, fun _ => iff_of_false List.not_mem_nil fun ⟨_, hc, _⟩ =>
      List.not_mem_nil hc, fun _ hc => (List.not_mem_nil hc).elim⟩
  apart := List.Pairwise.nil

variable (h : w.Sound)

include h

theorem Sound.consistent_cons (hc : w.ships[i]? = some c) :
    Consistent w.ids (c :: w.ships.eraseIdx i) := h.consistent.perm (perm_of_getElem? hc)

theorem Sound.apart_cons (hc : w.ships[i]? = some c) :
    (c :: w.ships.eraseIdx i).Pairwise Apart := (apart_perm (perm_of_getElem? hc)).mp h.apart

theorem Sound.connect (idx : Nat) : (w.next (.connect idx)).Sound := by
  have hperm : (w.ships ++ [createConnectionTls idx]).Perm (createConnectionTls idx :: w.ships) :=
    List.perm_append_comm
  constructor
  · refine Consistent.perm ⟨h.consistent.nodup, ?_, ?_⟩ hperm.symm
    · intro id
      rw [up_others_of_accepted rfl]
      exact h.consistent.rows id
    · intro j hj hjacc id hne
      rw [up_others_of_accepted rfl]
      rcases List.mem_cons.mp hj with rfl | hj
      · cases hjacc
      · exact h.consistent.statuses j hj hjacc id hne
  · apply (apart_perm hperm).mpr
    exact List.pairwise_cons.mpr ⟨fun _ _ hacc => (nomatch hacc), h.apart⟩

theorem Sound.login_refused {row : Option (Nat × Nat)} {pkt : Login6ReplyPkt}
    (hc : w.ships[i]? = some c)
    (hrefused : ∀ shipNumber, checkLogin row pkt = .ok shipNumber → c.keyIdx ∈ w.ids) :
    (w.next (.login i row pkt)).Sound := by
  rcases World.login_refused hc hrefused with ⟨d, hkey, hacc, hsent, hnext⟩
  rw [hnext]
  constructor
  · exact ((h.consistent_cons hc).refuse hkey hacc hsent).perm (set_perm hc d).symm
  · exact (apart_perm (set_perm hc d)).mpr (apart_replace (h.apart_cons hc) hkey hacc)

theorem Sound.login_accepted_iff {row : Option (Nat × Nat)} {pkt : Login6ReplyPkt}
    {shipNumber : Nat} (hc : w.ships[i]? = some c) (hcheck : checkLogin row pkt = .ok shipNumber)
    (hid : c.keyIdx ∉ w.ids) :
    (Consistent (w.next (.login i row pkt)).ids (w.next (.login i row pkt)).ships ↔
      Greeted (w.ships.eraseIdx i) c pkt) ∧ (w.next (.login i row pkt)).ships.Pairwise Apart := by
  rcases World.login_accepted hc hcheck hid with ⟨n, d, hn, hname, hd, hacc, hlast, hids, hperm⟩
  have hold := h.consistent_cons hc
  constructor
  · rw [hids, ← consistent_accept_iff hold hid hn hname hd hacc hlast]
    exact ⟨fun hnew => hnew.perm hperm, fun hnew => hnew.perm hperm.symm⟩
  · apply (apart_perm hperm).mpr
    apply apart_cons_of_not_up
    · exact apart_told (List.pairwise_cons.mp (h.apart_cons hc)).2 n 1
    · rw [up_told, hd]
      exact (not_up_of_not_mem hold hid).2

theorem Sound.apart_close (hc : w.ships[i]? = some c) :
    (w.next (.close i)).ships.Pairwise Apart := by
  have hothers := (List.pairwise_cons.mp (h.apart_cons hc)).2
  by_cases hkey : c.keyIdx = 0
  · rw [close_zero hc hkey]
    exact hothers
  · rw [(close_told hc hkey).1]
    exact apart_told hothers c 0

/-- The end of a connection that is logged in. -/
theorem Sound.keeps_close_iff (hc : w.ships[i]? = some c) (hacc : c.accepted = true) :
    Keeps w (.close i) ↔
      c.keyIdx ≠ 0 ∧ (c.Named ∨ ∀ j ∈ w.ships.eraseIdx i, j.accepted = false) := by
  have hold := h.consistent_cons hc
  have hdown := not_up_of_apart (h.apart_cons hc) hacc
  have hquiet : Quiet w (.close i) := by
    intro c' hc' hacc'
    rw [hc] at hc'
    cases hc'
    rw [hacc] at hacc'
    cases hacc'
  by_cases hkey : c.keyIdx = 0
  · refine iff_of_false (fun hkeeps => ?_) fun hne => hne.1 hkey
    have hrow : c.keyIdx ∈ w.ids :=
      (hold.rows _).mpr ((up_cons c _).mpr (Or.inl ⟨hacc, rfl⟩))
    have hnew := hkeeps.1
    rw [close_zero hc hkey] at hnew
    exact hdown ((hnew.rows _).mp hrow)
  · rw [Keeps, (close_told hc hkey).1, (close_told hc hkey).2.2,
      consistent_close_iff hold hacc hdown]
    constructor
    · rintro ⟨hnamed, -⟩
      exact ⟨hkey, hnamed⟩
    · rintro ⟨-, hnamed⟩
      exact ⟨hnamed, hquiet⟩

/-- The end of a connection that is not. -/
theorem Sound.keeps_drop_iff (hc : w.ships[i]? = some c) (hacc : c.accepted = false) :
    Keeps w (.close i) ↔
      c.keyIdx = 0 ∨ (c.keyIdx ∉ w.ids ∧ (¬ c.Named ∨ w.ships.eraseIdx i = [])) := by
  have hdrop := (h.consistent_cons hc).drop hacc
  have hquiet : Quiet w (.close i) ↔ (w.next (.close i)).onlineShips = w.onlineShips ∧
      (w.next (.close i)).ships = w.ships.eraseIdx i := by
    constructor
    · intro hq
      exact hq c hc hacc
    · intro hq c' hc' _
      exact hq
  have hkeeps : Keeps w (.close i) ↔ Quiet w (.close i) := by
    constructor
    · exact And.right
    · intro hq
      have hsame := hquiet.mp hq
      refine ⟨?_, hq⟩
      rw [ids, hsame.1, hsame.2]
      exact hdrop
  rw [hkeeps, hquiet]
  by_cases hkey : c.keyIdx = 0
  · rw [close_zero hc hkey]
    exact iff_of_true ⟨rfl, rfl⟩ (Or.inl hkey)
  · rw [(close_told hc hkey).1, (close_told hc hkey).2.1, or_iff_right hkey]
    apply and_congr
    · rw [List.filter_eq_self, ids, List.mem_map]
      constructor
      · rintro hall ⟨row, hrow, heq⟩
        exact bne_iff_ne.mp (hall row hrow) heq
      · intro hnone row hrow
        exact bne_iff_ne.mpr fun heq => hnone ⟨row, hrow, heq⟩
    · constructor
      · intro hsame
        by_cases hnamed : c.Named
        · right
          cases hothers : w.ships.eraseIdx i with
          | nil => rfl
          | cons j others =>
              rw [hothers, List.map_cons] at hsame
              exact (send_ne_self j c 0 hnamed (List.cons.inj hsame).1).elim
        · exact Or.inl hnamed
      · rintro (hunnamed | hnone)
        · rw [List.map_congr_left fun j _ => send_unnamed j c 0 hunnamed, List.map_id']
        · rw [hnone, List.map_nil]

theorem Sound.keeps_iff (e : Event) : Keeps w e ↔ Orderly w e := by
  cases e with
  | connect idx => exact iff_of_true ⟨(h.connect idx).consistent, trivial⟩ trivial
  | login i row pkt =>
      have hkeeps : Keeps w (.login i row pkt) ↔
          Consistent (w.next (.login i row pkt)).ids (w.next (.login i row pkt)).ships :=
        and_iff_left trivial
      rw [hkeeps]
      cases hc : w.ships[i]? with
      | none =>
          rw [next_none_login hc]
          refine iff_of_true h.consistent fun c _ hc' => ?_
          rw [hc] at hc'
          cases hc'
      | some c =>
          by_cases hrefused : ∀ n, checkLogin row pkt = .ok n → c.keyIdx ∈ w.ids
          · apply iff_of_true (h.login_refused hc hrefused).consistent
            intro c' n hc' hcheck hid
            rw [hc] at hc'
            cases hc'
            exact (hid (hrefused n hcheck)).elim
          · rcases Classical.not_forall.mp hrefused with ⟨n, hn⟩
            rcases Classical.not_imp.mp hn with ⟨hcheck, hid⟩
            rw [(h.login_accepted_iff hc hcheck hid).1]
            constructor
            · intro hgreeted c' n' hc' _ _
              rw [hc] at hc'
              cases hc'
              exact hgreeted
            · intro horderly
              exact horderly c n hc hcheck hid
  | close i =>
      cases hc : w.ships[i]? with
      | none =>
          refine iff_of_true ⟨?_, fun c hc' => ?_⟩ fun c hc' => ?_
          · rw [next_none_close hc]
            exact h.consistent
          · rw [hc] at hc'
            cases hc'
          · rw [hc] at hc'
            cases hc'
      | some c =>
          have horderly : Orderly w (.close i) ↔ if c.accepted then
              c.keyIdx ≠ 0 ∧ (c.Named ∨ ∀ j ∈ w.ships.eraseIdx i, j.accepted = false)
            else c.keyIdx = 0 ∨ (c.keyIdx ∉ w.ids ∧ (¬ c.Named ∨ w.ships.eraseIdx i = [])) := by
            constructor
            · intro ho
              exact ho c hc
            · intro ho c' hc'
              rw [hc] at hc'
              cases hc'
              exact ho
          rw [horderly]
          cases hacc : c.accepted with
          | true => exact h.keeps_close_iff hc hacc
          | false => exact h.keeps_drop_iff hc hacc

/-- Two ships with one id are never logged in. -/
theorem Sound.next (e : Event) (hkeeps : Keeps w e) : (w.next e).Sound := by
  refine ⟨hkeeps.1, ?_⟩
  cases e with
  | connect idx => exact (h.connect idx).apart
  | login i row pkt =>
      cases hc : w.ships[i]? with
      | none =>
          rw [next_none_login hc]
          exact h.apart
      | some c =>
          by_cases hrefused : ∀ n, checkLogin row pkt = .ok n → c.keyIdx ∈ w.ids
          · exact (h.login_refused hc hrefused).apart
          · rcases Classical.not_forall.mp hrefused with ⟨n, hn⟩
            rcases Classical.not_imp.mp hn with ⟨hcheck, hid⟩
            exact (h.login_accepted_iff hc hcheck hid).2
  | close i =>
      cases hc : w.ships[i]? with
      | none =>
          rw [next_none_close hc]
          exact h.apart
      | some c => exact h.apart_close hc

end World

/-- In a run, the table and the statuses are consistent all the time, and no end of a connection
that is not logged in is noticed, if and only if its events are orderly. -/
theorem keeps_runs_iff (events : List Event) :
    Run.Guarded World.next Keeps .start events ↔ Run.Guarded World.next Orderly .start events :=
  Run.Guarded.congr (fun _ e h => h.keeps_iff e) (fun _ e h hkeeps => h.next e hkeeps)
    World.sound_start

/-- The ship with the id is logged in while a second connection with its certificate is closed
before it logs in. -/
theorem not_keeps_runs : ¬ ∀ events : List Event, Run.Guarded World.next Keeps .start events := by
  intro h
  have hrun := h [.connect 1, .connect 1,
    .login 0 (some (1, 1)) ⟨13, 0, [65], 0, [], 0, 0, 0, 0⟩, .close 1]
  have hrow := (hrun.2.2.2.1.2 _ rfl rfl).1
  revert hrow
  decide

end Sylverant.Shipgate.OnlineShips
