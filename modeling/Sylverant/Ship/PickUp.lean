/-
# Picking up an item

An item on the floor of a Blue Burst game is unlinked and freed before it is known
whether the inventory of the client that asked for it takes it. A pick-up that goes
through moves the whole item, but a full inventory, an id that is there already and a
stack that does not fit into its byte all cost the item.
-/

import Sylverant.Ship.BbHandlers
import Sylverant.Ship.Quantities

namespace Sylverant.Ship.Bb

open Function (update)

/-! ## What a pick-up should do -/

/-- The item as it is carried. -/
def Item.carried (it : Item) : Item := { it with flags := 0, equipped := 1, tech := 0 }

/-- A client has all of an item that it did not have before: as meseta, in the first
stack of its kind, or at the end of the inventory. -/
def Received (c c' : Client) (it : Item) : Prop :=
  if it.data.l0 = itemMeseta then
    c'.inv = c.inv ∧ c'.meseta.toNat = min 999999 (c.meseta.toNat + it.data2L.toNat)
  else
    c'.meseta = c.meseta ∧
      (c'.inv = c.inv ++ [it.carried] ∨
      itemIsStackable it.data.l0 ∧
        ∃ front x back n, c.inv = front ++ x :: back ∧ (∀ y ∈ front, y.data.l0 ≠ it.data.l0) ∧
          x.data.l0 = it.data.l0 ∧ n.toNat = x.data.b5.toNat + it.data.b5.toNat ∧
          c'.inv = front ++ { x with data := x.data.setB5 n } :: back)

/-- A request moved the item that lies between `front` and `back` on the floor to the
client, and was answered. -/
structure MovesTo (l : Game) (c : Client) (front : List Item) (it : Item) (back : List Item)
    (r : Outcome) : Prop where
  onFloor : l.itemQueue = front ++ it :: back
  first : ∀ x ∈ front, x.itemId ≠ it.itemId
  offFloor : r.1.itemQueue = front ++ back
  received : Received c r.2.1 it
  answered : r.2.2 = 0

/-- A request left the floor and what the client has as they were. -/
structure LeavesAll (l : Game) (c : Client) (r : Outcome) : Prop where
  floor : r.1.itemQueue = l.itemQueue
  inv : r.2.1.inv = c.inv
  meseta : r.2.1.meseta = c.meseta

/-- A pick-up moves the item with the id that it names, or nothing happens. -/
def Atomic (l : Game) (c : Client) (pkt : PickUpPkt) : Prop :=
  (∃ front it back, it.itemId = pkt.itemId ∧ MovesTo l c front it back (handleBbPickUp l c pkt)) ∨
    LeavesAll l c (handleBbPickUp l c pkt)

/-! ## What can be taken -/

/-- A client has room for an item: there is no limit for meseta, and any other item
needs a free place, a new id and, if it goes to a stack, a stack that does not get too
large. -/
def HasRoom (c : Client) (it : Item) : Prop :=
  it.data.l0 = itemMeseta ∨
    c.inv.length < 30 ∧ (∀ x ∈ c.inv, x.itemId ≠ it.itemId) ∧
    (itemIsStackable it.data.l0 →
      ∀ x ∈ c.inv.find? (fun x => x.data.l0 = it.data.l0),
        x.data.b5.toNat + it.data.b5.toNat < 256)

/-- The sum of what there is and of the meseta that is picked up ends up at the cap
even if it does not fit into a word. -/
def SumFits (c : Client) (it : Item) : Prop :=
  it.data.l0 = itemMeseta →
    ¬(2 ^ 32 ≤ c.meseta.toNat + it.data2L.toNat ∧
      c.meseta.toNat + it.data2L.toNat < 2 ^ 32 + 999999)

/-- The client can be given all of the item. -/
def Fits (c : Client) (it : Item) : Prop := HasRoom c it ∧ SumFits c it

/-- A request that the handler does not reject, with the item that it finds. -/
structure Finds (l : Game) (c : Client) (pkt : PickUpPkt) (it : Item) : Prop where
  notLobby : l.type ≠ .default
  len : pkt.pktLen = 0x14
  size : pkt.size = 0x03
  client : pkt.clientId = c.clientId
  version : l.version = .bb
  found : l.itemQueue.find? (fun x => x.itemId = pkt.itemId) = some it

/-! ## What the handler does -/

/-- Meseta that does not overflow is added up to the cap. -/
theorem capped_sum_iff (a b : UInt32) :
    (if a + b > 999999 then (999999 : UInt32) else a + b).toNat = min 999999 (b.toNat + a.toNat) ↔
      ¬(2 ^ 32 ≤ b.toNat + a.toNat ∧ b.toNat + a.toNat < 2 ^ 32 + 999999) := by
  have ha := a.toNat_lt
  have hb := b.toNat_lt
  have hsum : (a + b).toNat = (a.toNat + b.toNat) % 2 ^ 32 := UInt32.toNat_add a b
  have hcap : a + b > 999999 ↔ 999999 < (a.toNat + b.toNat) % 2 ^ 32 := by
    rw [← hsum]
    exact Iff.rfl
  have hconst : (999999 : UInt32).toNat = 999999 := rfl
  by_cases hlarge : 999999 < (a.toNat + b.toNat) % 2 ^ 32
  · rw [if_pos (hcap.mpr hlarge), hconst]
    omega
  · rw [if_neg fun h => hlarge (hcap.mp h), hsum]
    omega

/-- Of the items with an id, the one that is found first is taken out. -/
theorem removeFirst_eq_find (itemId : UInt32) (queue : List Item) :
    (removeFirst itemId queue).map (·.2) = queue.find? (fun x => x.itemId = itemId) := by
  induction queue with
  | nil => rfl
  | cons x queue ih =>
      rw [removeFirst, List.find?_cons]
      by_cases hid : x.itemId = itemId
      · rw [if_pos hid, decide_eq_true hid]
        rfl
      · rw [if_neg hid, decide_eq_false hid, Option.map_map]
        exact ih

theorem removeFirst_append {front back : List Item} {it : Item}
    (hfirst : ∀ x ∈ front, x.itemId ≠ it.itemId) :
    removeFirst it.itemId (front ++ it :: back) = some (front ++ back, it) := by
  induction front with
  | nil => rw [List.nil_append, removeFirst, if_pos rfl, List.nil_append]
  | cons x front ih =>
      rw [List.cons_append, removeFirst, if_neg (hfirst x List.mem_cons_self),
        ih fun y hy => hfirst y (List.mem_cons_of_mem x hy)]
      rfl

/-- A request that finds nothing changes nothing. -/
theorem handleBbPickUp_of_not_finds {l : Game} {c : Client} {pkt : PickUpPkt}
    (h : ∀ it, ¬Finds l c pkt it) : LeavesAll l c (handleBbPickUp l c pkt) := by
  unfold handleBbPickUp
  split
  · exact ⟨rfl, rfl, rfl⟩
  split
  · exact ⟨rfl, rfl, rfl⟩
  rename_i htype hchecks
  cases hfound : lobbyRemoveItemLocked l pkt.itemId with
  | mk l' r =>
      obtain ⟨rv, _ | it⟩ := r
      · rw [lobbyRemoveItemLocked_eq_none hfound]
        exact ⟨rfl, rfl, rfl⟩
      · refine absurd ?_ (h it)
        have hversion : l.version = .bb := by
          by_contra hversion
          rw [lobbyRemoveItemLocked, if_pos hversion] at hfound
          cases hfound
        refine ⟨htype, ?_, ?_, ?_, hversion, ?_⟩
        · exact by_contra fun hlen => hchecks (.inl hlen)
        · exact by_contra fun hsize => hchecks (.inr (.inl hsize))
        · exact by_contra fun hclient => hchecks (.inr (.inr hclient))
        · rw [lobbyRemoveItemLocked, if_neg (fun hne => hne hversion)] at hfound
          rw [← removeFirst_eq_find]
          cases hremove : removeFirst pkt.itemId l.itemQueue with
          | none =>
              rw [hremove] at hfound
              cases hfound
          | some found =>
              rw [hremove] at hfound
              cases hfound
              rfl

/-- What is done with an item that was taken off the floor. -/
def pickUp (l : Game) (c : Client) (it : Item) : Outcome :=
  if it.data.l0 = itemMeseta then
    let tmp := it.data2L + c.meseta
    let meseta := if tmp > 999999 then 999999 else tmp
    (l, { c with meseta, plMeseta := meseta }, 0)
  else
    let r := itemAddToInv c.inv it.carried
    (l, { c with inv := r.1 }, if r.2 = -1 then -1 else 0)

/-- A request takes the item that it finds off the floor, whatever comes of it. -/
theorem handleBbPickUp_of_finds {l : Game} {c : Client} {pkt : PickUpPkt} {it : Item}
    {front back : List Item} (h : Finds l c pkt it) (hqueue : l.itemQueue = front ++ it :: back)
    (hfirst : ∀ x ∈ front, x.itemId ≠ it.itemId) :
    handleBbPickUp l c pkt = pickUp { l with itemQueue := front ++ back } c it := by
  have hid : it.itemId = pkt.itemId := by
    have hfound := List.find?_some h.found
    exact of_decide_eq_true hfound
  unfold handleBbPickUp
  rw [if_neg h.notLobby, if_neg, lobbyRemoveItemLocked, if_neg fun hne => hne h.version, hqueue,
    ← hid, removeFirst_append hfirst]
  · rfl
  · rintro (hlen | hsize | hclient)
    · exact hlen h.len
    · exact hsize h.size
    · exact hclient h.client

/-! ## Adding it to the inventory -/

/-- An item goes to the first stack of its kind. -/
theorem addToStack_append {front back : List Item} {x it : Item}
    (hfirst : ∀ y ∈ front, y.data.l0 ≠ it.data.l0) (hkind : x.data.l0 = it.data.l0) :
    addToStack it (front ++ x :: back) =
      some (front ++ { x with data := x.data.setB5 (x.data.b5 + it.data.b5) } :: back) := by
  induction front with
  | nil => rw [List.nil_append, addToStack, if_pos hkind, List.nil_append]
  | cons y front ih =>
      rw [List.cons_append, addToStack, if_neg (hfirst y List.mem_cons_self),
        ih fun z hz => hfirst z (List.mem_cons_of_mem y hz)]
      rfl

theorem addToStack_eq_none {inv : List Item} {it : Item}
    (hnone : ∀ y ∈ inv, y.data.l0 ≠ it.data.l0) : addToStack it inv = none := by
  induction inv with
  | nil => rfl
  | cons y inv ih =>
      rw [addToStack, if_neg (hnone y List.mem_cons_self),
        ih fun z hz => hnone z (List.mem_cons_of_mem y hz)]
      rfl

/-- The first item of a kind, by where it lies. -/
theorem find_kind {front back : List Item} {x : Item} {code : UInt32}
    (hfirst : ∀ y ∈ front, y.data.l0 ≠ code) (hkind : x.data.l0 = code) :
    (front ++ x :: back).find? (fun y => y.data.l0 = code) = some x := by
  rw [List.find?_eq_some_iff_append]
  refine ⟨decide_eq_true hkind, front, back, rfl, fun y hy => ?_⟩
  rw [decide_eq_false (hfirst y hy)]
  rfl

/-- An inventory either has a first item of a kind, or none. -/
theorem kind_cases (inv : List Item) (code : UInt32) :
    (inv.find? (fun y => y.data.l0 = code) = none ∧ ∀ y ∈ inv, y.data.l0 ≠ code) ∨
    ∃ front x back, inv = front ++ x :: back ∧ (∀ y ∈ front, y.data.l0 ≠ code) ∧
      x.data.l0 = code ∧ inv.find? (fun y => y.data.l0 = code) = some x := by
  cases hfound : inv.find? (fun y => y.data.l0 = code) with
  | none =>
      left
      refine ⟨rfl, fun y hy hkind => ?_⟩
      exact List.find?_eq_none.mp hfound y hy (decide_eq_true hkind)
  | some x =>
      right
      obtain ⟨hkind, front, back, hinv, hfirst⟩ := List.find?_eq_some_iff_append.mp hfound
      refine ⟨front, x, back, hinv, fun y hy hcode => ?_, of_decide_eq_true hkind, rfl⟩
      have hnot := hfirst y hy
      rw [decide_eq_true hcode] at hnot
      cases hnot

/-- What the function for adding an item does where there is a place for it. -/
theorem itemAddToInv_of_place {inv : List Item} {it : Item} (hlen : inv.length < 30)
    (hnew : ∀ x ∈ inv, x.itemId ≠ it.itemId) :
    itemAddToInv inv it =
      match if itemIsStackable it.data.l0 then addToStack it inv else none with
      | some inv => (inv, 0)
      | none => (inv ++ [it], 1) := by
  have hany : ¬(inv.any fun x => x.itemId = it.itemId) := by
    intro hany
    obtain ⟨x, hx, hid⟩ := List.any_eq_true.mp hany
    exact hnew x hx (of_decide_eq_true hid)
  exact (if_neg (Nat.ne_of_lt hlen)).trans (if_neg hany)

/-- Without a place for it, the item is gone. -/
theorem itemAddToInv_of_no_place {inv : List Item} {it : Item} (hlen : inv.length ≤ 30)
    (h : ¬(inv.length < 30 ∧ ∀ x ∈ inv, x.itemId ≠ it.itemId)) :
    itemAddToInv inv it = (inv, -1) := by
  rw [itemAddToInv]
  by_cases hfull : inv.length = 30
  · rw [if_pos hfull]
  · rw [if_neg hfull, if_pos]
    by_contra hnew
    refine h ⟨Nat.lt_of_le_of_ne hlen hfull, fun x hx hid => hnew ?_⟩
    exact List.any_eq_true.mpr ⟨x, hx, decide_eq_true hid⟩

/-- A byte is the sum of two only if the sum is one. -/
theorem toNat_add_iff (a b : UInt8) :
    (a + b).toNat = a.toNat + b.toNat ↔ a.toNat + b.toNat < 256 := by
  rw [UInt8.toNat_add]
  omega

section Received

variable {l : Game} {c : Client} {it : Item}

/-- Meseta is received unless the sum overflows. -/
theorem pickUp_meseta (hmeseta : it.data.l0 = itemMeseta) :
    Received c (pickUp l c it).2.1 it ∧ (pickUp l c it).2.2 = 0 ↔ Fits c it := by
  have hresult : pickUp l c it =
      (l, { c with
        meseta := if it.data2L + c.meseta > 999999 then 999999 else it.data2L + c.meseta
        plMeseta := if it.data2L + c.meseta > 999999 then 999999 else it.data2L + c.meseta },
        0) := if_pos hmeseta
  rw [hresult, Received, if_pos hmeseta]
  constructor
  · rintro ⟨⟨-, hsum⟩, -⟩
    exact ⟨.inl hmeseta, fun _ => (capped_sum_iff _ _).mp hsum⟩
  · rintro ⟨-, hfits⟩
    exact ⟨⟨rfl, (capped_sum_iff _ _).mpr (hfits hmeseta)⟩, rfl⟩

/-- An item that does not go to a stack is put at the end. -/
theorem pickUp_end (hitem : it.data.l0 ≠ itemMeseta) (hlen : c.inv.length < 30)
    (hnew : ∀ x ∈ c.inv, x.itemId ≠ it.itemId)
    (hstack : itemIsStackable it.data.l0 → ∀ y ∈ c.inv, y.data.l0 ≠ it.data.l0) :
    pickUp l c it = (l, { c with inv := c.inv ++ [it.carried] }, 0) := by
  have hnone : (if itemIsStackable it.carried.data.l0 then addToStack it.carried c.inv else none)
      = none := by
    split
    · rename_i hstackable
      exact addToStack_eq_none (hstack hstackable)
    · rfl
  have hadd := @itemAddToInv_of_place c.inv it.carried hlen hnew
  rw [hnone] at hadd
  rw [pickUp, if_neg hitem, hadd]
  rfl

/-- An item that goes to a stack is added to the byte of the first of its kind. -/
theorem pickUp_stack {front back : List Item} {x : Item} (hitem : it.data.l0 ≠ itemMeseta)
    (hlen : c.inv.length < 30) (hnew : ∀ y ∈ c.inv, y.itemId ≠ it.itemId)
    (hstack : itemIsStackable it.data.l0) (hinv : c.inv = front ++ x :: back)
    (hfirst : ∀ y ∈ front, y.data.l0 ≠ it.data.l0) (hkind : x.data.l0 = it.data.l0) :
    pickUp l c it =
      (l, { c with
        inv := front ++ { x with data := x.data.setB5 (x.data.b5 + it.data.b5) } :: back }, 0) := by
  have hsome : (if itemIsStackable it.carried.data.l0 then addToStack it.carried c.inv else none) =
      some (front ++ { x with data := x.data.setB5 (x.data.b5 + it.data.b5) } :: back) := by
    refine (if_pos hstack).trans ?_
    rw [hinv]
    exact addToStack_append hfirst hkind
  have hadd := @itemAddToInv_of_place c.inv it.carried hlen hnew
  rw [hsome] at hadd
  rw [pickUp, if_neg hitem, hadd]
  rfl

/-- A client receives what it asked for just if it fits. -/
theorem received_iff (hlen : c.inv.length ≤ 30) :
    Received c (pickUp l c it).2.1 it ∧ (pickUp l c it).2.2 = 0 ↔ Fits c it := by
  by_cases hitem : it.data.l0 = itemMeseta
  · exact pickUp_meseta hitem
  have hsum : SumFits c it := fun hmeseta => absurd hmeseta hitem
  by_cases hplace : c.inv.length < 30 ∧ ∀ x ∈ c.inv, x.itemId ≠ it.itemId
  swap
  · have hlost : (pickUp l c it).2.2 = -1 := by
      have hgone := @itemAddToInv_of_no_place c.inv it.carried hlen hplace
      rw [pickUp, if_neg hitem, hgone]
      rfl
    constructor
    · rintro ⟨-, hanswered⟩
      rw [hlost] at hanswered
      cases hanswered
    · rintro ⟨hmeseta | ⟨hroom, hnew, -⟩, -⟩
      · exact absurd hmeseta hitem
      · exact absurd ⟨hroom, hnew⟩ hplace
  obtain ⟨hroom, hnew⟩ := hplace
  rw [Received, if_neg hitem]
  by_cases hstack : itemIsStackable it.data.l0
  swap
  · rw [pickUp_end hitem hroom hnew fun h => absurd h hstack]
    refine ⟨fun _ => ⟨.inr ⟨hroom, hnew, fun h => absurd h hstack⟩, hsum⟩, fun _ => ?_⟩
    exact ⟨⟨rfl, .inl rfl⟩, rfl⟩
  rcases kind_cases c.inv it.data.l0 with
    ⟨hnone, hkinds⟩ | ⟨front, x, back, hinv, hfirst, hkind, hfind⟩
  · rw [pickUp_end hitem hroom hnew fun _ => hkinds]
    refine ⟨fun _ => ⟨.inr ⟨hroom, hnew, fun _ x hx => ?_⟩, hsum⟩, fun _ => ?_⟩
    · rw [hnone] at hx
      cases hx
    · exact ⟨⟨rfl, .inl rfl⟩, rfl⟩
  · rw [pickUp_stack hitem hroom hnew hstack hinv hfirst hkind]
    constructor
    · rintro ⟨⟨-, hend | ⟨-, front', y, back', n, hinv', hfirst', hkind', hn, hchanged⟩⟩, -⟩
      · have hlength := congrArg List.length hend
        simp [hinv] at hlength
      · -- both name the first item of the kind, before and after
        have hy : y = x := by
          rw [hinv', find_kind hfirst' hkind'] at hfind
          exact Option.some.inj hfind
        subst hy
        dsimp only at hchanged
        have hafter := congrArg (List.find? fun z => z.data.l0 = it.data.l0) hchanged
        rw [@find_kind front _ { y with data := y.data.setB5 _ } _ hfirst hkind,
          @find_kind front' _ { y with data := y.data.setB5 n } _ hfirst' hkind'] at hafter
        have hbyte : y.data.b5 + it.data.b5 = n := by
          have hdata := congrArg (fun z : Item => z.data.b5) (Option.some.inj hafter)
          rwa [ItemData.b5_setB5, ItemData.b5_setB5] at hdata
        rw [← hbyte, toNat_add_iff] at hn
        refine ⟨.inr ⟨hroom, hnew, fun _ z hz => ?_⟩, hsum⟩
        rw [hfind] at hz
        obtain rfl := Option.some.inj hz
        exact hn
    · rintro ⟨hmeseta | ⟨-, -, hbyte⟩, -⟩
      · exact absurd hmeseta hitem
      · refine ⟨⟨rfl, .inr ⟨hstack, front, x, back, _, hinv, hfirst, hkind, ?_, rfl⟩⟩, rfl⟩
        rw [hfind] at hbyte
        exact (toNat_add_iff _ _).mpr (hbyte hstack x rfl)

end Received

/-! ## Requests -/

section Requests

variable {l : Game} {c : Client} {pkt : PickUpPkt} {it : Item} {front back : List Item}

/-- Where an item that is found lies on the floor. -/
theorem Finds.place (h : Finds l c pkt it) :
    it.itemId = pkt.itemId ∧ ∃ front back, l.itemQueue = front ++ it :: back ∧
      ∀ x ∈ front, x.itemId ≠ it.itemId := by
  obtain ⟨hid, front, back, hqueue, hfirst⟩ := List.find?_eq_some_iff_append.mp h.found
  have hid := of_decide_eq_true hid
  refine ⟨hid, front, back, hqueue, fun x hx hsame => ?_⟩
  have hnot := hfirst x hx
  rw [decide_eq_true (hsame.trans hid)] at hnot
  cases hnot

/-- A request cannot move an item that was not at its place. -/
theorem not_movesTo_of_length {r : Outcome}
    (h : l.itemQueue.length ≠ front.length + back.length + 1) :
    ¬MovesTo l c front it back r := by
  intro hmoves
  apply h
  rw [hmoves.onFloor, List.length_append, List.length_cons, Nat.add_assoc]

/-- A request that finds an item moves it just if it fits. -/
theorem movesTo_iff (hlen : c.inv.length ≤ 30) (h : Finds l c pkt it)
    (hqueue : l.itemQueue = front ++ it :: back) (hfirst : ∀ x ∈ front, x.itemId ≠ it.itemId) :
    MovesTo l c front it back (handleBbPickUp l c pkt) ↔ Fits c it := by
  have hreceived := @received_iff { l with itemQueue := front ++ back } c it hlen
  rw [handleBbPickUp_of_finds h hqueue hfirst, ← hreceived]
  constructor
  · intro hmoves
    exact ⟨hmoves.received, hmoves.answered⟩
  · rintro ⟨hgot, hanswered⟩
    refine ⟨hqueue, hfirst, ?_, hgot, hanswered⟩
    rw [pickUp]
    split <;> rfl

/-- The item is off the floor after a request that finds it, whether it fits or not. -/
theorem offFloor (h : Finds l c pkt it) (hqueue : l.itemQueue = front ++ it :: back)
    (hfirst : ∀ x ∈ front, x.itemId ≠ it.itemId) :
    (handleBbPickUp l c pkt).1.itemQueue = front ++ back := by
  rw [handleBbPickUp_of_finds h hqueue hfirst, pickUp]
  split <;> rfl

/-- A request is atomic just if the item that it finds fits. -/
theorem atomic_iff (hlen : c.inv.length ≤ 30) :
    Atomic l c pkt ↔ ∀ it, Finds l c pkt it → Fits c it := by
  constructor
  · rintro hatomic it hfinds
    obtain ⟨hid, front, back, hqueue, hfirst⟩ := hfinds.place
    rcases hatomic with ⟨front', it', back', hid', hmoves⟩ | huntouched
    · have hsame : some it' = some it := by
        rw [← hfinds.found, hmoves.onFloor, eq_comm, List.find?_eq_some_iff_append]
        refine ⟨decide_eq_true hid', front', back', rfl, fun x hx => ?_⟩
        rw [decide_eq_false (hid' ▸ hmoves.first x hx)]
        rfl
      obtain rfl := Option.some.inj hsame
      exact (movesTo_iff hlen hfinds hmoves.onFloor hmoves.first).mp hmoves
    · have hfloor := huntouched.floor
      rw [offFloor hfinds hqueue hfirst, hqueue] at hfloor
      have hlength := congrArg List.length hfloor
      simp at hlength
  · intro hfits
    by_cases hfound : ∃ it, Finds l c pkt it
    · obtain ⟨it, hfinds⟩ := hfound
      obtain ⟨hid, front, back, hqueue, hfirst⟩ := hfinds.place
      exact .inl ⟨front, it, back, hid,
        (movesTo_iff hlen hfinds hqueue hfirst).mpr (hfits it hfinds)⟩
    · exact .inr (handleBbPickUp_of_not_finds fun it h => hfound ⟨it, h⟩)

end Requests

/-! ## Two requests for one item -/

/-- Two members of a game ask for the same item, which lies between `front` and `back`
on the floor. -/
structure Contend (l : Game) (i j : Nat) (ci cj : Client) (p q : PickUpPkt) (front : List Item)
    (it : Item) (back : List Item) : Prop where
  ne : i ≠ j
  left : l.clients i = some ci
  right : l.clients j = some cj
  findsLeft : Finds l ci p it
  findsRight : Finds l cj q it
  floor : l.itemQueue = front ++ it :: back
  first : ∀ x ∈ front, x.itemId ≠ it.itemId

/-- Just one of two requests moves the item, where that of the member `i` is handled
first. -/
def OneReceives (l : Game) (i : Nat) (ci cj : Client) (p q : PickUpPkt) (front : List Item)
    (it : Item) (back : List Item) : Prop :=
  let l' := step l (.packet i (.pickUp p))
  MovesTo l ci front it back (handleBbPickUp l ci p) ↔
    ¬MovesTo l' cj front it back (handleBbPickUp l' cj q)

/-- The first request decides who receives the item, and it is lost if the item does
not fit there. -/
theorem oneReceives_iff {l : Game} {i j : Nat} {ci cj : Client} {p q : PickUpPkt}
    {front back : List Item} {it : Item} (h : Contend l i j ci cj p q front it back)
    (hlen : ci.inv.length ≤ 30) : OneReceives l i ci cj p q front it back ↔ Fits ci it := by
  have hfloor : (step l (.packet i (.pickUp p))).itemQueue = front ++ back := by
    rw [step, h.left]
    exact offFloor h.findsLeft h.floor h.first
  have hsecond : ¬MovesTo (step l (.packet i (.pickUp p))) cj front it back
      (handleBbPickUp (step l (.packet i (.pickUp p))) cj q) := by
    apply not_movesTo_of_length
    rw [hfloor, List.length_append]
    exact Nat.ne_of_lt (Nat.lt_succ_self _)
  rw [OneReceives, ← movesTo_iff hlen h.findsLeft h.floor h.first]
  exact ⟨fun hone => hone.mpr hsecond, fun hmoves => ⟨fun _ => hsecond, fun _ => hmoves⟩⟩

/-- A pick-up is atomic just if what it finds fits. Of two requests for an item that
one of the two has room for, just one receives it if it fits where it is asked for
first. -/
theorem pickUp_iff (l : Game) (c : Client) (pkt : PickUpPkt) (hlen : c.inv.length ≤ 30) :
    (Atomic l c pkt ↔ ∀ it, Finds l c pkt it → Fits c it) ∧
    ∀ (i j : Nat) (cj : Client) (q : PickUpPkt) (front : List Item) (it : Item)
      (back : List Item), Contend l i j c cj pkt q front it back → cj.inv.length ≤ 30 →
      ((HasRoom c it ∨ HasRoom cj it → OneReceives l i c cj pkt q front it back) ↔
        (HasRoom c it ∨ HasRoom cj it → Fits c it)) := by
  constructor
  · exact atomic_iff hlen
  · intro i j cj q front it back hcontend _
    rw [oneReceives_iff hcontend hlen]

/-- A tool on the floor, which is given to a client that has one of its kind. -/
def monomate : Item where
  data := ⟨0x00000003, 0x00000100, 0⟩
  itemId := 0x00810000

/-- The request for it. -/
def askMonomate (clientId : Nat) : PickUpPkt where
  pktLen := 0x14
  size := 0x03
  clientId := clientId
  itemId := monomate.itemId

/-- A game in which it lies on the floor, with two members. -/
def monomateGame (inv : List Item) : Game where
  maxClients := 4
  itemId := 0x00810001
  itemQueue := [monomate]
  clients i := if i = 0 then some { inv } else if i = 1 then some { clientId := 1 } else none

theorem pickUp_iff_empty :
    Atomic (monomateGame []) {} (askMonomate 0) ∧
    OneReceives (monomateGame []) 0 {} { clientId := 1 } (askMonomate 0) (askMonomate 1) []
      monomate [] := by
  have hroom : HasRoom {} monomate := by
    refine .inr ⟨by decide, fun x hx => ?_, fun _ x hx => ?_⟩
    · cases hx
    · cases hx
  have hfits : Fits {} monomate := ⟨hroom, fun hmeseta => absurd hmeseta (by decide)⟩
  obtain ⟨hatomic, hone⟩ := pickUp_iff (monomateGame []) {} (askMonomate 0) (by decide)
  constructor
  · apply hatomic.mpr
    intro it hfinds
    obtain rfl := Option.some.inj hfinds.found
    exact hfits
  · refine (hone 0 1 { clientId := 1 } (askMonomate 1) [] monomate [] ?_ (by decide)).mpr
      (fun _ => hfits) (.inl hroom)
    refine ⟨by decide, rfl, rfl, ?_, ?_, rfl, fun x hx => by cases hx⟩
    · exact ⟨by decide, rfl, rfl, rfl, rfl, rfl⟩
    · exact ⟨by decide, rfl, rfl, rfl, rfl, rfl⟩

/-- An inventory without a free place, as `join_game` numbers it. -/
def fullInventory : List Item := numberItems 0x00010000 (List.replicate 30 default)

/-- A client with 30 items asks for an item: it is gone, and nobody has it. -/
theorem pickUp_not_atomic :
    ¬Atomic (monomateGame fullInventory) { inv := fullInventory } (askMonomate 0) := by
  rintro (⟨front, it, back, -, hmoves⟩ | huntouched)
  · have hanswered := hmoves.answered
    revert hanswered
    decide
  · have hfloor := congrArg List.length huntouched.floor
    revert hfloor
    decide

end Sylverant.Ship.Bb
