/-
# Item ids in a Blue Burst game

The ids of the items in a game come from a counter of the lobby, and from one for each
of its slots, which numbers the inventory of whoever joins in that slot. Each counter
has a range of its own, so that ids can only meet where a counter gives one out again.
The counter of a slot does when a client joins: it starts with the last id that it
gave out before.
-/

import Mathlib.Algebra.Group.Nat.Defs
import Sylverant.Library.Counting
import Sylverant.Library.Run
import Sylverant.Ship.BbHandlers

namespace Sylverant.Ship.Bb

open Function (update)
open Slots (firstFree)

/-! ## The ids that are in use -/

/-- The ids in a list of items. -/
def idsOf (items : List Item) : List UInt32 := items.map (·.itemId)

/-- The ids of the items that the client in a slot carries. -/
def slotIds (l : Game) (i : Nat) : List UInt32 :=
  match l.clients i with
  | none => []
  | some c => idsOf c.inv

/-- The ids on the floor and in the inventories of the members. -/
def itemIds (l : Game) : List UInt32 :=
  idsOf l.itemQueue ++ (List.range l.maxClients).flatMap (slotIds l)

/-- The game without the client in a slot. -/
def vacate (l : Game) (i : Nat) : Game := { l with clients := update l.clients i none }

section Counts

variable {l l' : Game} {c : Client} {i : Nat}

theorem slotIds_of_some (h : l.clients i = some c) : slotIds l i = idsOf c.inv := by
  rw [slotIds, h]

theorem slotIds_of_none (h : l.clients i = none) : slotIds l i = [] := by
  rw [slotIds, h]

theorem vacate_of_none (h : l.clients i = none) : vacate l i = l := by
  rw [vacate, ← h, Function.update_eq_self]

/-- What changes on the floor and in one inventory is what changes of the ids. -/
theorem count_itemIds (hi : i < l.maxClients) (hmax : l'.maxClients = l.maxClients)
    (hothers : ∀ j, j ≠ i → l'.clients j = l.clients j) (a : UInt32) :
    (itemIds l').count a + (idsOf l.itemQueue).count a + (slotIds l i).count a =
      (itemIds l).count a + (idsOf l'.itemQueue).count a + (slotIds l' i).count a := by
  have hslots := Counting.count_flatMap_change (f := slotIds l) (g := slotIds l')
    (List.nodup_range (n := l.maxClients)) (List.mem_range.mpr hi)
    (fun j hj => by rw [slotIds, hothers j hj, slotIds]) a
  rw [itemIds, itemIds, hmax, List.count_append, List.count_append]
  omega

end Counts

/-! ## What the handlers do with ids -/

/-- The ids on the floor and with a client. -/
def carried (l : Game) (c : Client) : List UInt32 := idsOf l.itemQueue ++ idsOf c.inv

/-- What a handler may do with ids: it moves items between the floor and the client, and adds
at most one item, with the next id of a counter, if it uses that counter. -/
structure Moves (l : Game) (c : Client) (slot lobby : Prop) (r : Outcome) : Prop where
  clients : r.1.clients = l.clients
  maxClients : r.1.maxClients = l.maxClients
  clientId : r.2.1.clientId = c.clientId
  ids : ∃ new : List UInt32,
    (∀ a, (carried r.1 r.2.1).count a ≤ new.count a + (carried l c).count a) ∧
    (new = [] ∧ r.1.itemId = l.itemId ∧ r.1.highestItem = l.highestItem ∨
    slot ∧ new = [l.highestItem c.clientId + 1] ∧ r.1.itemId = l.itemId ∧
      r.1.highestItem = (l.countUp c.clientId).highestItem ∨
    lobby ∧ new = [l.itemId] ∧ r.1.itemId = l.itemId + 1 ∧ r.1.highestItem = l.highestItem)

section Handlers

variable {l : Game} {c : Client} {slot lobby : Prop}

/-- A handler that gives out no id. -/
theorem Moves.of_kept {queue : List Item} {c' : Client} {rv : Int} (hid : c'.clientId = c.clientId)
    (hcount : ∀ a, (idsOf queue).count a + (idsOf c'.inv).count a ≤
      (idsOf l.itemQueue).count a + (idsOf c.inv).count a) :
    Moves l c slot lobby ({ l with itemQueue := queue }, c', rv) where
  clients := rfl
  maxClients := rfl
  clientId := hid
  ids := by
    refine ⟨[], fun a => ?_, .inl ⟨rfl, rfl, rfl⟩⟩
    rw [carried, carried, List.count_append, List.count_append, List.count_nil, Nat.zero_add]
    exact hcount a

/-- A handler that changes no id. -/
theorem Moves.of_same {c' : Client} {rv : Int} (hid : c'.clientId = c.clientId)
    (hinv : idsOf c'.inv = idsOf c.inv) : Moves l c slot lobby (l, c', rv) :=
  @Moves.of_kept l c slot lobby l.itemQueue c' rv hid fun a =>
    Nat.le_of_eq (congrArg ((idsOf l.itemQueue).count a + List.count a ·) hinv)

theorem Moves.reject (l : Game) (c : Client) : Moves l c slot lobby (reject l c) :=
  Moves.of_same rfl rfl

/-- Removing from an inventory does not add an id. -/
theorem count_itemRemoveFromInv (inv : List Item) (itemId amt a : UInt32) :
    (idsOf (itemRemoveFromInv inv itemId amt).1).count a ≤ (idsOf inv).count a := by
  obtain ⟨hsame, -⟩ | herase := itemRemoveFromInv_ids inv itemId amt
  · exact Nat.le_of_eq (congrArg (List.count a) hsame)
  · rw [idsOf, herase, idsOf]
    exact List.Sublist.count_le a List.erase_sublist

/-- Adding to an inventory adds at most the id of the item. -/
theorem count_itemAddToInv (inv : List Item) (it : Item) (a : UInt32) :
    (idsOf (itemAddToInv inv it).1).count a ≤ [it.itemId].count a + (idsOf inv).count a := by
  obtain hsame | ⟨inv', hsame, hstack⟩ | ⟨-, hend⟩ := itemAddToInv_cases inv it
  · rw [hsame]
    exact Nat.le_add_left _ _
  · rw [hstack, idsOf, hsame, idsOf]
    exact Nat.le_add_left _ _
  · rw [hend, idsOf, List.map_append, List.count_append]
    exact Nat.le_of_eq (Nat.add_comm _ _)

/-- The item in the place that was found has the id that was looked for. -/
theorem findItem_eq_some {inv : List Item} {itemId : UInt32} {found : Nat}
    (h : findItem inv itemId = some found) : (idsOf inv)[found]? = some itemId := by
  obtain ⟨hlt, hid, -⟩ := List.findIdx?_eq_some_iff_getElem.mp h
  rw [idsOf, List.getElem?_map, List.getElem?_eq_getElem hlt]
  exact congrArg some (of_decide_eq_true hid)

theorem dropItem_moves (garbage : Bool) (pkt : DropItemPkt) :
    Moves l c slot lobby (handleBbDropItem garbage l c pkt) := by
  obtain ⟨inv, hsame, h⟩ | ⟨found, inv, rv, hfound, hsame, h⟩ :=
    handleBbDropItem_cases l c garbage pkt
  · rw [h]
    exact Moves.of_same rfl (hsame (·.itemId) fun _ => rfl)
  · rw [h]
    have hids : idsOf inv = idsOf c.inv := hsame (·.itemId) fun _ => rfl
    have hget : (idsOf inv)[found]? = some pkt.itemId := hids ▸ findItem_eq_some hfound
    have hitem : (inv.getD found default).itemId = pkt.itemId := by
      rw [idsOf, List.getElem?_map] at hget
      obtain ⟨it, hit, hid⟩ := Option.map_eq_some_iff.mp hget
      rw [List.getD_eq_getElem?_getD, hit]
      exact hid
    have hmem : pkt.itemId ∈ idsOf inv := List.mem_of_getElem? hget
    have herase : idsOf (itemRemoveFromInv inv pkt.itemId 0xFFFFFFFF).1 =
        (idsOf inv).erase pkt.itemId := by
      obtain ⟨-, hnot⟩ | herase := itemRemoveFromInv_ids inv pkt.itemId 0xFFFFFFFF
      · exact absurd hmem (hnot rfl)
      · exact herase
    refine Moves.of_kept rfl fun a => ?_
    have hcount := ((List.perm_cons_erase hmem).count_eq a).symm
    rw [herase, ← hids, idsOf, List.map_cons, hitem]
    rw [List.count_cons] at hcount ⊢
    rw [← idsOf]
    omega

theorem dropPos_moves (pkt : DropPosPkt) : Moves l c slot lobby (handleBbDropPos l c pkt) := by
  obtain h | ⟨-, h⟩ := handleBbDropPos_cases l c pkt
  · rw [h]
    exact Moves.reject l c
  · rw [h]
    exact Moves.of_same rfl rfl

/-- Dropping a part of a stack gives the part an id of its own. -/
theorem dropStack_moves (pkt : DestroyItemPkt) :
    Moves l c True lobby (handleBbDropStack l c pkt) := by
  have hcounted {queue : List Item} {c' : Client} {rv : Int} (hid : c'.clientId = c.clientId)
      (hcount : ∀ a, (idsOf queue).count a + (idsOf c'.inv).count a ≤
        [l.highestItem c.clientId + 1].count a + (idsOf l.itemQueue).count a +
          (idsOf c.inv).count a) :
      Moves l c True lobby ({ l.countUp c.clientId with itemQueue := queue }, c', rv) := by
    refine ⟨rfl, rfl, hid, [l.highestItem c.clientId + 1], fun a => ?_,
      .inr (.inl ⟨trivial, rfl, rfl, rfl⟩)⟩
    rw [carried, carried, List.count_append, List.count_append, ← Nat.add_assoc]
    exact hcount a
  obtain h | h | ⟨it, hit, -, -, h⟩ := handleBbDropStack_cases l c pkt
  · rw [h]
    exact Moves.reject l c
  · rw [h]
    refine @hcounted l.itemQueue c (-1) rfl fun a => ?_
    rw [Nat.add_assoc]
    exact Nat.le_add_left _ _
  · have hnew : it.itemId = l.highestItem c.clientId + 1 := by
      rw [stackItem] at hit
      split at hit
      · obtain ⟨found, -, rfl⟩ := Option.map_eq_some_iff.mp hit
        rfl
      · cases hit
        rfl
    have hqueue (a : UInt32) : (idsOf (it :: l.itemQueue)).count a =
        [l.highestItem c.clientId + 1].count a + (idsOf l.itemQueue).count a := by
      rw [idsOf, List.map_cons, hnew, ← List.singleton_append, List.count_append, idsOf]
    obtain ⟨-, rv, h⟩ | ⟨-, h | ⟨-, h⟩⟩ := h
    · rw [h]
      refine hcounted rfl fun a => ?_
      rw [hqueue]
      exact Nat.add_le_add_left (count_itemRemoveFromInv c.inv pkt.itemId pkt.amount a) _
    · rw [h]
      exact hcounted rfl fun a => Nat.le_of_eq (by rw [hqueue])
    · rw [h]
      exact hcounted rfl fun a => Nat.le_of_eq (by rw [hqueue])

theorem pickUp_moves (pkt : PickUpPkt) : Moves l c slot lobby (handleBbPickUp l c pkt) := by
  obtain ⟨rv, h⟩ | ⟨front, it, back, -, hqueue, h⟩ := handleBbPickUp_cases l c pkt
  · rw [h]
    exact Moves.of_same rfl rfl
  have hcount (a : UInt32) : (idsOf l.itemQueue).count a =
      (idsOf (front ++ back)).count a + [it.itemId].count a := by
    rw [hqueue, idsOf, idsOf, List.map_append, List.map_append, List.map_cons,
      ← List.singleton_append, List.count_append, List.count_append, List.count_append]
    omega
  obtain ⟨-, meseta, -, h⟩ | ⟨-, x, rv, hx, h⟩ := h
  · rw [h]
    refine Moves.of_kept rfl fun a => ?_
    rw [hcount]
    exact Nat.add_le_add_right (Nat.le_add_right _ _) _
  · rw [h]
    refine Moves.of_kept rfl fun a => ?_
    have hadd := count_itemAddToInv c.inv x a
    rw [hx] at hadd
    rw [hcount, Nat.add_assoc]
    exact Nat.add_le_add_left hadd _

/-- A bank action moves items that have no id in the game, apart from the new one of an item
that is taken out. -/
theorem bankAction_moves (pkt : BankActPkt) : Moves l c slot True (handleBbBankAction l c pkt) := by
  unfold handleBbBankAction
  split
  · exact Moves.reject l c
  split
  · exact Moves.reject l c
  split
  · exact Moves.of_same rfl rfl
  split
  · split
    · unfold depositMeseta
      split
      · exact Moves.reject l c
      split
      · exact Moves.reject l c
      · exact Moves.of_same rfl rfl
    · obtain h | ⟨inv, bank, rv, hinv, h⟩ := depositItem_cases l c pkt.itemId pkt.itemAmount
      · rw [h]
        exact Moves.reject l c
      · rw [h]
        refine @Moves.of_kept l c slot True l.itemQueue { c with inv, bank } rv rfl fun a => ?_
        refine Nat.add_le_add_left ?_ _
        have hle := count_itemRemoveFromInv c.inv pkt.itemId pkt.itemAmount.toUInt32 a
        rwa [idsOf, ← hinv] at hle
  split
  · split
    · unfold takeMeseta
      split
      · exact Moves.reject l c
      split
      · exact Moves.reject l c
      · exact Moves.of_same rfl rfl
    · obtain h | ⟨it, bank, rv, hit, h⟩ := takeItem_cases l c pkt.itemId pkt.itemAmount
      · rw [h]
        exact Moves.reject l c
      · rw [h]
        refine ⟨rfl, rfl, rfl, [l.itemId], fun a => ?_, .inr (.inr ⟨trivial, rfl, rfl, rfl⟩)⟩
        have hadd := count_itemAddToInv c.inv it a
        rw [hit] at hadd
        rw [carried, carried, List.count_append, List.count_append]
        dsimp only
        omega
  · exact Moves.reject l c

/-- The packets that use the counter of a slot. -/
def Packet.UsesSlot : Packet → Prop
  | .dropStack _ => True
  | _ => False

/-- The packets that use the counter of the lobby. -/
def Packet.UsesLobby : Packet → Prop
  | .bankAction _ => True
  | _ => False

theorem handle_moves (l : Game) (c : Client) (pkt : Packet) :
    Moves l c pkt.UsesSlot pkt.UsesLobby (handle l c pkt) := by
  cases pkt with
  | dropItem garbage pkt => exact dropItem_moves garbage pkt
  | dropPos pkt => exact dropPos_moves pkt
  | dropStack pkt => exact dropStack_moves pkt
  | pickUp pkt => exact pickUp_moves pkt
  | bank req =>
      rw [handle, handleBbBank]
      split
      · exact Moves.reject l c
      split
      · exact Moves.reject l c
      · exact Moves.of_same rfl rfl
  | bankAction pkt => exact bankAction_moves pkt
  | medic pkt =>
      rw [handle, handleBbMedic]
      split
      · exact Moves.reject l c
      split
      · exact Moves.reject l c
      · exact Moves.of_same rfl rfl
  | forward => exact Moves.of_same rfl rfl

end Handlers

/-! ## Ranges of ids -/

/-- The number of ids that each slot has. -/
def slotRange : Nat := 2 ^ 21

/-- The ids that the lobby has given out. -/
def FromLobby (l : Game) (a : UInt32) : Prop := 0x00810000 ≤ a.toNat ∧ a.toNat < l.itemId.toNat

/-- The ids that the counter of a slot has given out. -/
def FromSlot (l : Game) (i : Nat) (a : UInt32) : Prop :=
  i * slotRange ≤ a.toNat ∧ a.toNat ≤ (l.highestItem i).toNat

/-- All ids are different, and were given out by the counters. -/
structure Issued (l : Game) : Prop where
  few : l.maxClients ≤ 4
  seated : ∀ i c, l.clients i = some c → i < l.maxClients ∧ c.clientId = i
  lobbyStart : 0x00810000 ≤ l.itemId.toNat
  slotEnd : ∀ i, i < 4 → (l.highestItem i).toNat < (i + 1) * slotRange
  slotStart : ∀ i c, l.clients i = some c → i * slotRange ≤ (l.highestItem i).toNat
  issued : ∀ a ∈ itemIds l, FromLobby l a ∨ ∃ i, i < 4 ∧ FromSlot l i a
  nodup : (itemIds l).Nodup

section Ranges

variable {l l' : Game} {c : Client} {i n : Nat} {a : UInt32}

theorem slotRange_le (h : i < 4) : (i + 1) * slotRange ≤ 0x00810000 := by
  rw [slotRange]
  omega

/-- The ranges of the counters do not meet. -/
theorem Issued.not_fromLobby (h : i < 4) (ha : a.toNat < (i + 1) * slotRange) :
    ¬FromLobby l a := fun hlobby => by
  have hle := slotRange_le h
  have hlow := hlobby.1
  omega

theorem FromSlot.eq {j : Nat} (hend : (l.highestItem j).toNat < (j + 1) * slotRange)
    (hlow : i * slotRange ≤ a.toNat) (hhigh : a.toNat < (i + 1) * slotRange)
    (h : FromSlot l j a) : j = i := by
  obtain ⟨hstart, hle⟩ := h
  rw [slotRange] at *
  omega

/-- New ids that no item has leave all ids different. -/
theorem nodup_of_count {new : List UInt32} (hnodup : (itemIds l).Nodup) (hnew : new.Nodup)
    (hfresh : ∀ a ∈ new, a ∉ itemIds l)
    (hcount : ∀ a, (itemIds l').count a ≤ new.count a + (itemIds l).count a) :
    (itemIds l').Nodup := by
  refine List.nodup_iff_count_le_one.mpr fun a => Nat.le_trans (hcount a) ?_
  by_cases ha : a ∈ new
  · rw [List.count_eq_zero_of_not_mem (hfresh a ha), Nat.add_zero]
    exact List.nodup_iff_count_le_one.mp hnew a
  · rw [List.count_eq_zero_of_not_mem ha, Nat.zero_add]
    exact List.nodup_iff_count_le_one.mp hnodup a

/-- An id is new, or was there before. -/
theorem mem_of_count {new : List UInt32}
    (hcount : ∀ a, (itemIds l').count a ≤ new.count a + (itemIds l).count a)
    (ha : a ∈ itemIds l') : a ∈ new ∨ a ∈ itemIds l := by
  by_contra hnot
  obtain ⟨hnew, hold⟩ := not_or.mp hnot
  have hle := hcount a
  rw [List.count_eq_zero_of_not_mem hnew, List.count_eq_zero_of_not_mem hold] at hle
  exact absurd (List.count_pos_iff.mpr ha) (by omega)

end Ranges

/-! ## Joining -/

section Joining

variable {l : Game} {c : Client} {i : Nat} {a id : UInt32} {inv : List Item}

/-- The ids of an inventory that was numbered. -/
theorem mem_numberItems (h : id.toNat + inv.length < 2 ^ 32) (ha : a ∈ idsOf (numberItems id inv)) :
    id.toNat ≤ a.toNat ∧ a.toNat < id.toNat + inv.length := by
  induction inv generalizing id with
  | nil => cases ha
  | cons it inv ih =>
      rw [List.length_cons] at h ⊢
      have hnext : (id + 1).toNat = id.toNat + 1 := by
        rw [UInt32.toNat_add, UInt32.toNat_one, Nat.mod_eq_of_lt (by omega)]
      rw [numberItems, idsOf, List.map_cons] at ha
      obtain rfl | ha := List.mem_cons.mp ha
      · omega
      · obtain ⟨hlow, hhigh⟩ := ih (by omega) ha
        omega

theorem nodup_numberItems (h : id.toNat + inv.length < 2 ^ 32) :
    (idsOf (numberItems id inv)).Nodup := by
  induction inv generalizing id with
  | nil => exact List.nodup_nil
  | cons it inv ih =>
      rw [List.length_cons] at h
      have hnext : (id + 1).toNat = id.toNat + 1 := by
        rw [UInt32.toNat_add, UInt32.toNat_one, Nat.mod_eq_of_lt (by omega)]
      rw [numberItems, idsOf, List.map_cons]
      refine List.nodup_cons.mpr ⟨fun hmem => ?_, ih (by omega)⟩
      have hlow := (mem_numberItems (by omega) hmem).1
      dsimp only at hlow
      omega

/-- The id that an inventory starts with is in the range of the slot, and not below what was
given out. -/
theorem firstId_bounds (l : Game) (hi : i < 4) :
    i * slotRange + 0x00010000 ≤ (firstId l i).toNat ∧
      (l.highestItem i).toNat ≤ (firstId l i).toNat := by
  have hbase : ((0x00010000 : UInt32) ||| (i.toUInt32 <<< 21)).toNat =
      i * slotRange + 0x00010000 := by
    obtain rfl | rfl | rfl | rfl : i = 0 ∨ i = 1 ∨ i = 2 ∨ i = 3 := by omega
    all_goals rfl
  rw [firstId, UInt32.toNat_or, hbase]
  exact ⟨Nat.left_le_or, Nat.right_le_or⟩

/-- The ids for the items of a client that joins fit behind those that its slot has given out,
and the first is not in use. -/
structure RoomFor (l : Game) (i n : Nat) : Prop where
  fits : (firstId l i).toNat + n ≤ (i + 1) * slotRange
  unused : firstId l i ∉ itemIds (vacate l i)

theorem toNat_lastId (h : id.toNat + inv.length < 2 ^ 32) (hpos : 1 ≤ id.toNat) :
    (id + inv.length.toUInt32 - 1).toNat = id.toNat + inv.length - 1 := by
  have hsum : (id + inv.length.toUInt32).toNat = id.toNat + inv.length := by
    have hlen : inv.length.toUInt32.toNat = inv.length := Nat.mod_eq_of_lt (by omega)
    rw [UInt32.toNat_add, hlen, Nat.mod_eq_of_lt h]
  have hle : (1 : UInt32) ≤ id + inv.length.toUInt32 := by
    rw [UInt32.le_iff_toNat_le, hsum, UInt32.toNat_one]
    omega
  rw [UInt32.toNat_sub_of_le _ _ hle, hsum, UInt32.toNat_one]

@[simp]
theorem clients_fixInventory (l : Game) (c : Client) :
    (fixInventory l c).clients = update l.clients c.clientId
      (some { c with inv := numberItems (firstId l c.clientId) c.inv }) := rfl

@[simp]
theorem highestItem_fixInventory (l : Game) (c : Client) :
    (fixInventory l c).highestItem = update l.highestItem c.clientId
      (firstId l c.clientId + c.inv.length.toUInt32 - 1) := rfl

/-- The ids after a client took a free slot. -/
theorem count_fixInventory (hi : c.clientId < l.maxClients) (hfree : l.clients c.clientId = none)
    (a : UInt32) :
    (itemIds (fixInventory l c)).count a =
      (idsOf (numberItems (firstId l c.clientId) c.inv)).count a + (itemIds l).count a := by
  have hothers : ∀ j, j ≠ c.clientId → (fixInventory l c).clients j = l.clients j :=
    fun j hj => Function.update_of_ne hj _ _
  have hcount := @count_itemIds l (fixInventory l c) c.clientId hi rfl hothers a
  have hslot : (fixInventory l c).clients c.clientId =
      some { c with inv := numberItems (firstId l c.clientId) c.inv } := Function.update_self ..
  have hfloor : (fixInventory l c).itemQueue = l.itemQueue := rfl
  rw [slotIds_of_none hfree, slotIds_of_some hslot, hfloor, List.count_nil] at hcount
  dsimp only at hcount
  omega

/-- A client that takes a free slot gets new ids, if there is room for them. -/
theorem issued_fixInventory (h : Issued l) (hi : c.clientId < l.maxClients)
    (hfree : l.clients c.clientId = none) (hroom : RoomFor l c.clientId c.inv.length) :
    Issued (fixInventory l c) := by
  have hfour : c.clientId < 4 := Nat.lt_of_lt_of_le hi h.few
  obtain ⟨hbase, hhighest⟩ := firstId_bounds l hfour
  have hend := hroom.fits
  have hunused : firstId l c.clientId ∉ itemIds l := vacate_of_none hfree ▸ hroom.unused
  have hsmall := slotRange_le hfour
  have hlast : ((fixInventory l c).highestItem c.clientId).toNat =
      (firstId l c.clientId).toNat + c.inv.length - 1 := by
    rw [highestItem_fixInventory, Function.update_self]
    exact toNat_lastId (by omega) (by omega)
  have hkept {j : Nat} (hj : j ≠ c.clientId) :
      (fixInventory l c).highestItem j = l.highestItem j := Function.update_of_ne hj _ _
  have hcount := count_fixInventory hi hfree
  have hnew {a : UInt32} (ha : a ∈ idsOf (numberItems (firstId l c.clientId) c.inv)) :
      (firstId l c.clientId).toNat ≤ a.toNat ∧
        a.toNat < (firstId l c.clientId).toNat + c.inv.length :=
    mem_numberItems (by omega) ha
  have hold {a : UInt32} (ha : a ∈ itemIds l) (hslot : FromSlot l c.clientId a) :
      a.toNat < (firstId l c.clientId).toNat := by
    refine Nat.lt_of_le_of_ne (Nat.le_trans hslot.2 hhighest) fun heq => ?_
    exact hunused (UInt32.toNat_inj.mp heq ▸ ha)
  have hfresh : ∀ a ∈ idsOf (numberItems (firstId l c.clientId) c.inv), a ∉ itemIds l := by
    intro a ha hmem
    obtain ⟨hlow, hhigh⟩ := hnew ha
    obtain hlobby | ⟨j, hj, hslot⟩ := h.issued a hmem
    · exact Issued.not_fromLobby hfour (Nat.lt_of_lt_of_le hhigh hend) hlobby
    · obtain rfl := @FromSlot.eq l c.clientId a j (h.slotEnd j hj) (by omega) (by omega) hslot
      exact absurd (hold hmem hslot) (Nat.not_lt.mpr hlow)
  refine ⟨h.few, fun j d hd => ?_, h.lobbyStart, fun j hj => ?_, fun j d hd => ?_, fun a ha => ?_,
    nodup_of_count h.nodup (nodup_numberItems (by omega)) hfresh
      fun a => Nat.le_of_eq (hcount a)⟩
  · by_cases hj : j = c.clientId
    · subst hj
      rw [clients_fixInventory, Function.update_self] at hd
      cases hd
      exact ⟨hi, rfl⟩
    · rw [clients_fixInventory, Function.update_of_ne hj] at hd
      exact h.seated j d hd
  · by_cases hj' : j = c.clientId
    · subst hj'
      omega
    · rw [hkept hj']
      exact h.slotEnd j hj
  · by_cases hj : j = c.clientId
    · subst hj
      omega
    · rw [clients_fixInventory, Function.update_of_ne hj] at hd
      rw [hkept hj]
      exact h.slotStart j d hd
  · obtain ha | ha := mem_of_count (fun a => Nat.le_of_eq (hcount a)) ha
    · obtain ⟨hlow, hhigh⟩ := hnew ha
      exact .inr ⟨c.clientId, hfour, by omega, by omega⟩
    · refine (h.issued a ha).imp_right fun ⟨j, hj, hslot⟩ => ⟨j, hj, hslot.1, ?_⟩
      by_cases hj' : j = c.clientId
      · subst hj'
        have hlt := hold ha hslot
        omega
      · rw [hkept hj']
        exact hslot.2

end Joining

/-! ## Other events -/

section Steps

variable {l l' : Game} {i : Nat}

/-- New ids from the counters, which do not go back. -/
theorem Issued.of_new (h : Issued l) (new : List UInt32) (hmax : l'.maxClients = l.maxClients)
    (hseated : ∀ i c, l'.clients i = some c →
      ∃ c₀, l.clients i = some c₀ ∧ c.clientId = c₀.clientId)
    (hlobby : l.itemId.toNat ≤ l'.itemId.toNat)
    (hslots : ∀ i, (l.highestItem i).toNat ≤ (l'.highestItem i).toNat)
    (hend : ∀ i, i < 4 → (l'.highestItem i).toNat < (i + 1) * slotRange)
    (hcount : ∀ a, (itemIds l').count a ≤ new.count a + (itemIds l).count a)
    (hnodup : new.Nodup) (hfresh : ∀ a ∈ new, a ∉ itemIds l)
    (hfrom : ∀ a ∈ new, FromLobby l' a ∨ ∃ i, i < 4 ∧ FromSlot l' i a) : Issued l' where
  few := hmax ▸ h.few
  seated i c hc := by
    obtain ⟨c₀, hc₀, hid⟩ := hseated i c hc
    rw [hmax, hid]
    exact h.seated i c₀ hc₀
  lobbyStart := Nat.le_trans h.lobbyStart hlobby
  slotEnd := hend
  slotStart i c hc := by
    obtain ⟨c₀, hc₀, -⟩ := hseated i c hc
    exact Nat.le_trans (h.slotStart i c₀ hc₀) (hslots i)
  issued a ha := by
    obtain ha | ha := mem_of_count hcount ha
    · exact hfrom a ha
    · obtain ⟨hstart, hlt⟩ | ⟨j, hj, hstart, hle⟩ := h.issued a ha
      · exact .inl ⟨hstart, Nat.lt_of_lt_of_le hlt hlobby⟩
      · exact .inr ⟨j, hj, hstart, Nat.le_trans hle (hslots j)⟩
  nodup := nodup_of_count h.nodup hnodup hfresh hcount

/-- Events that give out no id. -/
theorem Issued.of_kept (h : Issued l) (hmax : l'.maxClients = l.maxClients)
    (hseated : ∀ i c, l'.clients i = some c →
      ∃ c₀, l.clients i = some c₀ ∧ c.clientId = c₀.clientId)
    (hlobby : l'.itemId = l.itemId) (hslots : l'.highestItem = l.highestItem)
    (hcount : ∀ a, (itemIds l').count a ≤ (itemIds l).count a) : Issued l' :=
  h.of_new [] hmax hseated (Nat.le_of_eq (by rw [hlobby])) (fun i => Nat.le_of_eq (by rw [hslots]))
    (hslots ▸ h.slotEnd) (fun a => Nat.le_trans (hcount a) (Nat.le_add_left _ _)) List.nodup_nil
    (fun _ ha => nomatch ha) fun _ ha => nomatch ha

@[simp]
theorem clients_vacate (l : Game) (i : Nat) : (vacate l i).clients = update l.clients i none := rfl

/-- A client that leaves takes its ids with it. -/
theorem issued_vacate (h : Issued l) (i : Nat) : Issued (vacate l i) := by
  cases hc : l.clients i with
  | none => rwa [vacate_of_none hc]
  | some c =>
      refine h.of_kept rfl (fun j d hd => ?_) rfl rfl fun a => ?_
      · by_cases hj : j = i
        · rw [clients_vacate, hj, Function.update_self] at hd
          cases hd
        · rw [clients_vacate, Function.update_of_ne hj] at hd
          exact ⟨d, hd, rfl⟩
      · have hcount := @count_itemIds l (vacate l i) i (h.seated i c hc).1 rfl
          (fun j hj => Function.update_of_ne hj _ _) a
        have hfree : (vacate l i).clients i = none := Function.update_self ..
        have hfloor : (vacate l i).itemQueue = l.itemQueue := rfl
        rw [slotIds_of_none hfree, List.count_nil, hfloor] at hcount
        omega

/-- The next id of the lobby. -/
theorem Issued.itemId_unused (h : Issued l) : l.itemId ∉ itemIds l := fun hmem => by
  have hstart := h.lobbyStart
  obtain ⟨-, hlt⟩ | ⟨j, hj, -, hle⟩ := h.issued _ hmem
  · exact Nat.lt_irrefl _ hlt
  · have hend := h.slotEnd j hj
    have hrange := slotRange_le hj
    omega

/-- The next id of a slot that is taken. -/
theorem Issued.highestItem_unused (h : Issued l) (hi : i < 4)
    (hstart : i * slotRange ≤ (l.highestItem i).toNat)
    (hroom : (l.highestItem i).toNat + 1 < (i + 1) * slotRange) :
    (l.highestItem i + 1).toNat = (l.highestItem i).toNat + 1 ∧
      l.highestItem i + 1 ∉ itemIds l := by
  have hrange := slotRange_le hi
  have hnext : (l.highestItem i + 1).toNat = (l.highestItem i).toNat + 1 := by
    rw [UInt32.toNat_add, UInt32.toNat_one, Nat.mod_eq_of_lt (by omega)]
  refine ⟨hnext, fun hmem => ?_⟩
  obtain hlobby | ⟨j, hj, hslot⟩ := h.issued _ hmem
  · exact Issued.not_fromLobby hi (by omega) hlobby
  · obtain rfl := @FromSlot.eq l i _ j (h.slotEnd j hj) (by omega) (by omega) hslot
    have hle := hslot.2
    omega

theorem toNat_succ {a : UInt32} (h : a ≠ 0xFFFFFFFF) : (a + 1).toNat = a.toNat + 1 := by
  have hne : a.toNat ≠ 4294967295 := fun heq => h (UInt32.toNat_inj.mp heq)
  have hlt := UInt32.toNat_lt a
  rw [UInt32.toNat_add, UInt32.toNat_one, Nat.mod_eq_of_lt (by omega)]

/-- What is put on the floor for an enemy or a box has the next id of the lobby. -/
theorem issued_drop (h : Issued l) (data : ItemData) (data2L : UInt32)
    (hroom : l.itemId ≠ 0xFFFFFFFF) : Issued (lobbyAddItemLocked l data data2L) := by
  have hnext := toNat_succ hroom
  have hstart := h.lobbyStart
  rw [lobbyAddItemLocked]
  split
  · exact h
  · refine h.of_new [l.itemId] rfl (fun j c hc => ⟨c, hc, rfl⟩) (by dsimp only; omega)
      (fun _ => Nat.le_refl _) h.slotEnd (fun a => Nat.le_of_eq ?_) (List.nodup_singleton _)
      (fun a ha => ?_) fun a ha => ?_
    · rw [itemIds, itemIds, idsOf, List.map_cons, List.cons_append, ← List.singleton_append,
        List.count_append]
      rfl
    · rw [List.mem_singleton.mp ha]
      exact h.itemId_unused
    · rw [List.mem_singleton.mp ha]
      exact .inl ⟨hstart, by dsimp only; omega⟩

/-- What a packet does to all ids is what its handler does to those on the floor and with the
client. -/
theorem count_packet {c c' : Client} {new : List UInt32} (hc : l.clients i = some c)
    (hi : i < l.maxClients) (hclients : l'.clients = l.clients)
    (hmax : l'.maxClients = l.maxClients)
    (hcount : ∀ a, (carried l' c').count a ≤ new.count a + (carried l c).count a) (a : UInt32) :
    (itemIds { l' with clients := update l'.clients i (some c') }).count a ≤
      new.count a + (itemIds l).count a := by
  have hothers : ∀ j, j ≠ i → update l'.clients i (some c') j = l.clients j :=
    fun j hj => by rw [Function.update_of_ne hj, hclients]
  have hall := @count_itemIds l { l' with clients := update l'.clients i (some c') } i hi hmax
    hothers a
  have hslot : { l' with clients := update l'.clients i (some c') }.clients i = some c' :=
    Function.update_self ..
  have hle := hcount a
  rw [slotIds_of_some hslot, slotIds_of_some hc] at hall
  rw [carried, carried, List.count_append, List.count_append] at hle
  dsimp only at hall
  omega

/-- Who is in the slots after one client changed. -/
theorem seated_update {c c' : Client} (hc : l.clients i = some c) (hid : c'.clientId = c.clientId) :
    ∀ j d, update l.clients i (some c') j = some d →
      ∃ c₀, l.clients j = some c₀ ∧ d.clientId = c₀.clientId := by
  intro j d hd
  by_cases hj : j = i
  · rw [hj, Function.update_self] at hd
    cases hd
    exact ⟨c, hj ▸ hc, hid⟩
  · rw [Function.update_of_ne hj] at hd
    exact ⟨d, hd, rfl⟩

/-- The counters that a packet may use have not run out. -/
def CountersOk (l : Game) (i : Nat) : Packet → Prop
  | .dropStack _ => (l.highestItem i).toNat + 1 < (i + 1) * slotRange
  | .bankAction _ => l.itemId ≠ 0xFFFFFFFF
  | _ => True

instance (l : Game) (i : Nat) : (pkt : Packet) → Decidable (CountersOk l i pkt)
  | .dropStack _ => inferInstanceAs (Decidable (_ < _))
  | .bankAction _ => inferInstanceAs (Decidable (_ ≠ _))
  | .dropItem _ _ | .dropPos _ | .pickUp _ | .bank _ | .medic _ | .forward =>
      inferInstanceAs (Decidable True)

theorem CountersOk.slot {pkt : Packet} (hok : CountersOk l i pkt) (huses : pkt.UsesSlot) :
    (l.highestItem i).toNat + 1 < (i + 1) * slotRange := by
  cases pkt with
  | dropStack pkt => exact hok
  | _ => exact huses.elim

theorem CountersOk.lobby {pkt : Packet} (hok : CountersOk l i pkt) (huses : pkt.UsesLobby) :
    l.itemId ≠ 0xFFFFFFFF := by
  cases pkt with
  | bankAction pkt => exact hok
  | _ => exact huses.elim

/-- A packet gives out at most one id, which is new. -/
theorem issued_packet (h : Issued l) {c : Client} (hc : l.clients i = some c) {pkt : Packet}
    (hok : CountersOk l i pkt) : Issued (step l (.packet i pkt)) := by
  obtain ⟨hi, hid⟩ := h.seated i c hc
  have hfour : i < 4 := Nat.lt_of_lt_of_le hi h.few
  obtain ⟨hclients, hmax, hclientId, new, hcount, hnew⟩ := handle_moves l c pkt
  rcases hr : handle l c pkt with ⟨l', c', rv⟩
  rw [hr] at hclients hmax hclientId hcount hnew
  dsimp only at hclients hmax hclientId hcount hnew
  have hstep : step l (.packet i pkt) = { l' with clients := update l'.clients i (some c') } := by
    rw [step, hc]
    dsimp only
    rw [hr]
  have hall := count_packet hc hi hclients hmax hcount
  have hseated : ∀ j d, update l'.clients i (some c') j = some d →
      ∃ c₀, l.clients j = some c₀ ∧ d.clientId = c₀.clientId := by
    rw [hclients]
    exact seated_update hc hclientId
  rw [hstep]
  obtain ⟨rfl, hlobby, hslots⟩ | ⟨huses, rfl, hlobby, hslots⟩ | ⟨huses, rfl, hlobby, hslots⟩ := hnew
  · exact h.of_kept hmax hseated hlobby hslots fun a => by simpa using hall a
  · obtain ⟨hnext, hunused⟩ := h.highestItem_unused hfour (h.slotStart i c hc) (hok.slot huses)
    have hslots' : l'.highestItem = update l.highestItem i (l.highestItem i + 1) := by
      rw [hslots, Game.countUp, hid]
    have hself : l'.highestItem i = l.highestItem i + 1 := by
      rw [hslots', Function.update_self]
    have hother {j : Nat} (hj : j ≠ i) : l'.highestItem j = l.highestItem j := by
      rw [hslots', Function.update_of_ne hj]
    refine h.of_new [l.highestItem c.clientId + 1] hmax hseated (Nat.le_of_eq (by rw [hlobby]))
      (fun j => ?_) (fun j hj => ?_) hall (List.nodup_singleton _) (fun a ha => ?_)
      fun a ha => ?_
    · by_cases hj : j = i
      · subst hj
        rw [hself]
        omega
      · exact Nat.le_of_eq (by rw [hother hj])
    · by_cases hj' : j = i
      · subst hj'
        rw [hself, hnext]
        exact hok.slot huses
      · rw [hother hj']
        exact h.slotEnd j hj
    · rw [List.mem_singleton.mp ha, hid]
      exact hunused
    · have hstart := h.slotStart i c hc
      rw [List.mem_singleton.mp ha, hid]
      exact .inr ⟨i, hfour, by omega, Nat.le_of_eq (by rw [hself])⟩
  · have hnext := toNat_succ (hok.lobby huses)
    have hstart := h.lobbyStart
    have hlobby' : l'.itemId.toNat = l.itemId.toNat + 1 := by rw [hlobby, hnext]
    refine h.of_new [l.itemId] hmax hseated (Nat.le_of_lt (Nat.lt_of_succ_le (Nat.le_of_eq
        hlobby'.symm))) (fun j => Nat.le_of_eq (by rw [hslots])) (hslots ▸ h.slotEnd) hall
        (List.nodup_singleton _) (fun a ha => ?_) fun a ha => ?_
    · rw [List.mem_singleton.mp ha]
      exact h.itemId_unused
    · rw [List.mem_singleton.mp ha]
      exact .inl ⟨hstart, Nat.lt_of_succ_le (Nat.le_of_eq hlobby'.symm)⟩

/-- What the client says of its inventory is not what the server has. -/
theorem issued_char (h : Issued l) (meseta : UInt32) (items : Nat → Item) (count : Nat) :
    Issued (step l (.char i meseta items count)) := by
  rw [step]
  split
  · exact h
  · rename_i c hc
    have hcount := @count_packet l l i c (processChar c meseta items count) [] hc
      (h.seated i c hc).1 rfl rfl fun a => Nat.le_of_eq (Nat.zero_add _).symm
    exact h.of_kept rfl (seated_update hc rfl) rfl rfl fun a => by simpa using hcount a

/-- Fixing up the inventory of a member is as if it had left and joined again. -/
theorem fixInventory_vacate (l : Game) (c : Client) :
    fixInventory (vacate l c.clientId) c = fixInventory l c := by
  rw [fixInventory, fixInventory, vacate, Function.update_idem]
  rfl

/-- What the events must meet: the first id for a client that joins, or selects the game that
it is in, is not in use, and no counter runs out. -/
def IdsOk (l : Game) : Event → Prop
  | .join c => ∀ i ∈ firstFree l.maxClients l.clients, RoomFor l i c.inv.length
  | .rejoin i => ∀ c ∈ l.clients i, RoomFor l i c.inv.length
  | .drop _ _ => l.itemId ≠ 0xFFFFFFFF
  | .packet i pkt => CountersOk l i pkt
  | .leave _ | .char _ _ _ _ => True

/-- An event leaves all ids different. -/
theorem issued_step (l : Game) (e : Event) (h : Issued l) (hok : Promised e ∧ IdsOk l e) :
    Issued (step l e) := by
  obtain ⟨-, hok⟩ := hok
  cases e with
  | join c =>
      rw [step, joinGame]
      split
      · exact h
      · rename_i i hi
        obtain ⟨hlt, hfree⟩ := Slots.firstFree_eq_some hi
        exact @issued_fixInventory l { c with clientId := i } h hlt hfree (hok i hi)
  | rejoin i =>
      rw [step]
      split
      · exact h
      · rename_i c hc
        obtain ⟨hlt, rfl⟩ := h.seated i c hc
        rw [← fixInventory_vacate]
        refine issued_fixInventory (issued_vacate h _) hlt (Function.update_self ..) ?_
        obtain ⟨hfits, hunused⟩ := hok c hc
        refine ⟨hfits, ?_⟩
        rwa [vacate_of_none (Function.update_self ..)]
  | leave i => exact issued_vacate h i
  | drop data data2L => exact issued_drop h data data2L hok
  | packet i pkt =>
      cases hc : l.clients i with
      | none =>
          rw [step, hc]
          exact h
      | some c => exact issued_packet h hc hok
  | char i meseta items count => exact issued_char h meseta items count

theorem issued_lobbyCreateGame (singlePlayer : Bool) : Issued (lobbyCreateGame singlePlayer) where
  few := by cases singlePlayer <;> decide
  seated _ _ h := nomatch h
  lobbyStart := Nat.le_refl _
  slotEnd i _ := by
    show 0 < (i + 1) * slotRange
    rw [slotRange]
    omega
  slotStart _ _ h := nomatch h
  issued a ha := by
    have hnone : itemIds (lobbyCreateGame singlePlayer) = [] := by cases singlePlayer <;> decide
    rw [hnone] at ha
    cases ha
  nodup := by cases singlePlayer <;> decide

end Steps

/-! ## Runs -/

section Runs

variable {es : List Event} {singlePlayer : Bool}

/-- In a run where the first id for a client that joins is never in use, and no counter runs
out, all items on the floor and in the inventories have different ids at all times. A client
with items that joins then gets a wrong id exactly if its first one is in use. -/
theorem itemIds_run
    (hrun : Run.Guarded step (fun l e => Promised e ∧ IdsOk l e)
      (lobbyCreateGame singlePlayer) es) :
    let l := es.foldl step (lobbyCreateGame singlePlayer)
    (itemIds l).Nodup ∧ ∀ c i, firstFree l.maxClients l.clients = some i → c.inv ≠ [] →
      (firstId l i).toNat + c.inv.length ≤ (i + 1) * slotRange →
        ((itemIds (joinGame l c)).Nodup ↔ firstId l i ∉ itemIds l) := by
  intro l
  have h : Issued l := hrun.invariant issued_step (issued_lobbyCreateGame singlePlayer)
  refine ⟨h.nodup, fun c i hi hinv hfits => ?_⟩
  obtain ⟨hlt, hfree⟩ := Slots.firstFree_eq_some hi
  have hjoin : joinGame l c = fixInventory l { c with clientId := i } := by rw [joinGame, hi]
  rw [hjoin]
  constructor
  · intro hnodup hused
    have hcount := @count_fixInventory l { c with clientId := i } hlt hfree (firstId l i)
    have hfirst : firstId l i ∈ idsOf (numberItems (firstId l i) c.inv) := by
      cases hc : c.inv with
      | nil => exact absurd hc hinv
      | cons it inv => exact List.mem_cons_self
    have hnew := List.count_pos_iff.mpr hfirst
    have hold := List.count_pos_iff.mpr hused
    have hone := List.nodup_iff_count_le_one.mp hnodup (firstId l i)
    dsimp only at hcount
    omega
  · intro hunused
    refine (@issued_fixInventory l { c with clientId := i } h hlt hfree ⟨hfits, ?_⟩).nodup
    rwa [vacate_of_none hfree]

instance (l : Game) (i n : Nat) : Decidable (RoomFor l i n) :=
  decidable_of_iff ((firstId l i).toNat + n ≤ (i + 1) * slotRange ∧
      firstId l i ∉ itemIds (vacate l i))
    ⟨fun ⟨hfits, hunused⟩ => ⟨hfits, hunused⟩, fun h => ⟨h.fits, h.unused⟩⟩

instance (l : Game) : (e : Event) → Decidable (IdsOk l e)
  | .join _ => inferInstanceAs (Decidable (∀ i ∈ _, _))
  | .rejoin _ => inferInstanceAs (Decidable (∀ c ∈ _, _))
  | .drop _ _ => inferInstanceAs (Decidable (_ ≠ _))
  | .packet i pkt => inferInstanceAs (Decidable (CountersOk l i pkt))
  | .leave _ | .char _ _ _ _ => inferInstanceAs (Decidable True)

/-- An inventory of some items, which have no ids yet. -/
def someItems (n : Nat) : List Item := List.replicate n { data := ⟨0, 0, 0⟩, itemId := 0 }

/-- A client joins as the second member with two items, drops the one with the id `itemId`,
leaves and comes back. -/
def dropsAndReturns (itemId : UInt32) : List Event :=
  [.join {}, .join { inv := someItems 2 }, .packet 1 (.dropItem false ⟨⟨0x20, 0x06, 1⟩, itemId⟩),
    .leave 1, .join { inv := someItems 1 }]

theorem itemIds_run_firstItem :
    (itemIds ((dropsAndReturns 0x00210000).foldl step (lobbyCreateGame false))).Nodup :=
  (itemIds_run (by decide)).1

theorem not_nodup_lastItem :
    (∀ e ∈ dropsAndReturns 0x00210001, Promised e) ∧
      ¬(itemIds ((dropsAndReturns 0x00210001).foldl step (lobbyCreateGame false))).Nodup := by
  decide

end Runs

end Sylverant.Ship.Bb
