/-
# What the handlers of a Blue Burst game do

For each of the functions that move items, and for each of the handlers that use
them, what can come of a call. What is proved of a game below looks at these cases
and not at the code.
-/

import Sylverant.Ship.BbGame

namespace Sylverant.Ship.Bb

open Function (update)

section Floor

variable {l l' : Game} {it : Item} {itemId : UInt32} {rv : Int}

theorem lobbyAddItem2Locked_eq_some (h : lobbyAddItem2Locked l it = some l') :
    l' = { l with itemQueue := it :: l.itemQueue } := by
  unfold lobbyAddItem2Locked at h
  split at h
  · cases h
  · exact (Option.some.inj h).symm

/-- Taking an item out of a list leaves the others in their places. -/
theorem removeFirst_eq_some {queue rest : List Item}
    (h : removeFirst itemId queue = some (rest, it)) :
    it.itemId = itemId ∧ ∃ front back, queue = front ++ it :: back ∧ rest = front ++ back := by
  induction queue generalizing rest with
  | nil => cases h
  | cons x queue ih =>
      rw [removeFirst] at h
      split at h
      · rename_i hid
        obtain ⟨rfl, rfl⟩ := Prod.mk.inj (Option.some.inj h)
        exact ⟨hid, [], queue, rfl, rfl⟩
      · obtain ⟨⟨rest', it'⟩, hrest, hr⟩ := Option.map_eq_some_iff.mp h
        obtain ⟨rfl, rfl⟩ := Prod.mk.inj hr
        obtain ⟨hid, front, back, rfl, rfl⟩ := ih hrest
        exact ⟨hid, x :: front, back, rfl, rfl⟩

theorem lobbyRemoveItemLocked_eq_some (h : lobbyRemoveItemLocked l itemId = (l', rv, some it)) :
    it.itemId = itemId ∧ ∃ front back, l.itemQueue = front ++ it :: back ∧
      l' = { l with itemQueue := front ++ back } := by
  unfold lobbyRemoveItemLocked at h
  split at h
  · cases h
  · split at h
    · cases h
    · rename_i rest it' hrest
      cases h
      obtain ⟨hid, front, back, hqueue, rfl⟩ := removeFirst_eq_some hrest
      exact ⟨hid, front, back, hqueue, rfl⟩

theorem lobbyRemoveItemLocked_eq_none (h : lobbyRemoveItemLocked l itemId = (l', rv, none)) :
    l' = l := by
  unfold lobbyRemoveItemLocked at h
  split at h
  · cases h
    rfl
  · split at h
    · cases h
      rfl
    · cases h

end Floor

section Inventory

variable {inv : List Item} {it : Item}

/-- An item that is added to a stack gives up its id. -/
theorem map_addToStack {inv' : List Item} (h : addToStack it inv = some inv') :
    inv'.map (·.itemId) = inv.map (·.itemId) := by
  induction inv generalizing inv' with
  | nil => cases h
  | cons x inv ih =>
      rw [addToStack] at h
      split at h
      · cases h
        rfl
      · obtain ⟨rest, hrest, rfl⟩ := Option.map_eq_some_iff.mp h
        rw [List.map_cons, List.map_cons, ih hrest]

/-- What can come of adding an item: the inventory stays as it is, or the item is put
into a stack, or it is put at the end, where none has its id. -/
theorem itemAddToInv_cases (inv : List Item) (it : Item) :
    itemAddToInv inv it = (inv, -1) ∨
    (∃ inv', inv'.map (·.itemId) = inv.map (·.itemId) ∧ itemAddToInv inv it = (inv', 0)) ∨
    (∀ x ∈ inv, x.itemId ≠ it.itemId) ∧ itemAddToInv inv it = (inv ++ [it], 1) := by
  unfold itemAddToInv
  split
  · exact .inl rfl
  split
  · exact .inl rfl
  rename_i hnew
  split
  · rename_i inv' hstack
    split at hstack
    · exact .inr (.inl ⟨inv', map_addToStack hstack, rfl⟩)
    · cases hstack
  · refine .inr (.inr ⟨fun x hx hid => hnew ?_, rfl⟩)
    exact List.any_eq_true.mpr ⟨x, hx, decide_eq_true hid⟩

theorem itemAddToInv_of_neg (h : (itemAddToInv inv it).2 < 0) : (itemAddToInv inv it).1 = inv := by
  obtain hsame | ⟨inv', -, hstack⟩ | ⟨-, hend⟩ := itemAddToInv_cases inv it
  · rw [hsame]
  · rw [hstack] at h
    exact absurd h (show ¬(0 : Int) < 0 by decide)
  · rw [hend] at h
    exact absurd h (show ¬(1 : Int) < 0 by decide)

/-- The ids after an item was removed, which may be as before. -/
theorem itemRemoveFromInv_ids (inv : List Item) (itemId amt : UInt32) :
    (itemRemoveFromInv inv itemId amt).1.map (·.itemId) = inv.map (·.itemId) ∧
      (amt = 0xFFFFFFFF → itemId ∉ inv.map (·.itemId)) ∨
    (itemRemoveFromInv inv itemId amt).1.map (·.itemId) =
      (inv.map (·.itemId)).erase itemId := by
  induction inv with
  | nil => exact .inl ⟨rfl, fun _ => List.not_mem_nil⟩
  | cons x inv ih =>
      rw [itemRemoveFromInv]
      by_cases hid : x.itemId = itemId
      · rw [if_pos hid]
        split
        · rename_i hpart
          exact .inl ⟨rfl, fun hall => absurd hall hpart.2.1⟩
        · right
          rw [List.map_cons, hid, List.erase_cons_head]
      · rw [if_neg hid]
        dsimp only
        rw [List.map_cons, List.map_cons,
          List.erase_cons_tail (by simpa using hid)]
        obtain ⟨hsame, hnot⟩ | herase := ih
        · refine .inl ⟨by rw [hsame], fun hall => ?_⟩
          exact fun hmem => (List.mem_cons.mp hmem).elim (fun h => hid h.symm) (hnot hall)
        · exact .inr (by rw [herase])

end Inventory

section Handlers

variable (l : Game) (c : Client)

/-- A field that does not depend on what is equipped. -/
theorem map_modify_unequip {β : Type} {f : Item → β} (hf : ∀ it, f it.unequip = f it)
    (inv : List Item) (i : Nat) : (inv.modify i Item.unequip).map f = inv.map f := by
  refine List.ext_getElem? fun k => ?_
  rw [List.getElem?_map, List.getElem?_map]
  by_cases hk : i = k
  · subst hk
    rw [List.getElem?_modify_eq]
    cases inv[i]? with
    | none => rfl
    | some it => exact congrArg some (hf it)
  · rw [List.getElem?_modify_ne _ _ hk]

theorem map_unequipUnits {β : Type} {f : Item → β} (hf : ∀ it, f it.unequip = f it)
    (inv : List Item) : (unequipUnits inv).map f = inv.map f := by
  rw [unequipUnits, List.map_map]
  refine List.map_congr_left fun it _ => ?_
  by_cases hunit : it.data.isUnit
  · rw [Function.comp, if_pos hunit, hf]
  · rw [Function.comp, if_neg hunit]

/-- What can come of dropping an item: it is put on the floor and taken out of the
inventory, or the packet is rejected. -/
theorem handleBbDropItem_cases (garbage : Bool) (pkt : DropItemPkt) :
    (∃ inv, (∀ f : Item → UInt32, (∀ it, f it.unequip = f it) → inv.map f = c.inv.map f) ∧
      handleBbDropItem garbage l c pkt = reject l { c with inv }) ∨
    ∃ found inv rv, findItem c.inv pkt.itemId = some found ∧
      (∀ f : Item → UInt32, (∀ it, f it.unequip = f it) → inv.map f = c.inv.map f) ∧
      handleBbDropItem garbage l c pkt =
        ({ l with itemQueue := inv.getD found default :: l.itemQueue },
          { c with inv := (itemRemoveFromInv inv pkt.itemId 0xFFFFFFFF).1 }, rv) := by
  unfold handleBbDropItem
  split
  · exact .inl ⟨c.inv, fun _ _ => rfl, rfl⟩
  split
  · exact .inl ⟨c.inv, fun _ _ => rfl, rfl⟩
  split
  · exact .inl ⟨c.inv, fun _ _ => rfl, rfl⟩
  · rename_i found hfound
    have hfield : ∀ f : Item → UInt32, (∀ it, f it.unequip = f it) → ∀ isframe : Prop,
        ∀ _ : Decidable isframe,
        (if isframe then unequipUnits (c.inv.modify found Item.unequip)
          else c.inv.modify found Item.unequip).map f = c.inv.map f := by
      intro f hf isframe _
      split
      · rw [map_unequipUnits hf, map_modify_unequip hf]
      · exact map_modify_unequip hf _ _
    dsimp only
    split
    · exact .inl ⟨_, fun f hf => hfield f hf _ _, rfl⟩
    · rename_i l' hl
      rw [lobbyAddItem2Locked_eq_some hl]
      exact .inr ⟨found, _, _, hfound, fun f hf => hfield f hf _ _, rfl⟩

/-- What can come of saying where something will be dropped. -/
theorem handleBbDropPos_cases (pkt : DropPosPkt) :
    handleBbDropPos l c pkt = reject l c ∨
      (pkt.itemId = 0xFFFFFFFF → ¬c.meseta < pkt.amount) ∧
        handleBbDropPos l c pkt =
          (l, { c with dropItem := pkt.itemId, dropAmt := pkt.amount }, 0) := by
  unfold handleBbDropPos
  split
  · exact .inl rfl
  split
  · exact .inl rfl
  split
  · exact .inl rfl
  split
  · exact .inl rfl
  · rename_i hmeseta
    exact .inr ⟨fun hitem hlt => hmeseta ⟨hitem, hlt⟩, rfl⟩

/-- The lobby after an id was given out for the client in a slot. -/
def Game.countUp (l : Game) (clientId : Nat) : Game :=
  { l with highestItem := update l.highestItem clientId (l.highestItem clientId + 1) }

/-- What can come of dropping a part of a stack, or meseta. Where the packet is
rejected late, what it drops is on the floor already. -/
theorem handleBbDropStack_cases (pkt : DestroyItemPkt) :
    handleBbDropStack l c pkt = reject l c ∨
    handleBbDropStack l c pkt = reject (l.countUp c.clientId) c ∨
    ∃ it, stackItem c pkt (l.highestItem c.clientId + 1) = some it ∧
      pkt.itemId = c.dropItem ∧ pkt.amount = c.dropAmt ∧
      let l' := { l.countUp c.clientId with itemQueue := it :: l.itemQueue }
      (pkt.itemId ≠ 0xFFFFFFFF ∧ ∃ rv, handleBbDropStack l c pkt =
        (l', { c with inv := (itemRemoveFromInv c.inv pkt.itemId pkt.amount).1 }, rv)) ∨
      pkt.itemId = 0xFFFFFFFF ∧
        (handleBbDropStack l c pkt = reject l' c ∨
        ¬pkt.amount > c.meseta ∧ handleBbDropStack l c pkt =
          (l', { c with meseta := c.meseta - pkt.amount, plMeseta := c.meseta - pkt.amount },
            0)) := by
  unfold handleBbDropStack
  split
  · exact .inl rfl
  split
  · exact .inl rfl
  dsimp only
  split
  · exact .inl rfl
  rename_i it hit
  split
  · exact .inr (.inl rfl)
  rename_i hsame
  split
  · exact .inr (.inl rfl)
  · rename_i l' hl
    rw [lobbyAddItem2Locked_eq_some hl]
    obtain ⟨hitemId, hamount⟩ := not_or.mp hsame
    refine .inr (.inr ⟨it, hit, not_not.mp hitemId, not_not.mp hamount, ?_⟩)
    split
    · rename_i hitem
      exact .inl ⟨hitem, _, rfl⟩
    · rename_i hitem
      refine .inr ⟨not_not.mp hitem, ?_⟩
      split
      · exact .inl rfl
      · rename_i hle
        exact .inr ⟨hle, rfl⟩

/-- What can come of picking something up: nothing, or it is taken off the floor, and
meseta is added to what the client has, and an item to its inventory. -/
theorem handleBbPickUp_cases (pkt : PickUpPkt) :
    (∃ rv, handleBbPickUp l c pkt = (l, c, rv)) ∨
    ∃ front it back, it.itemId = pkt.itemId ∧ l.itemQueue = front ++ it :: back ∧
      let l' := { l with itemQueue := front ++ back }
      it.data.l0 = itemMeseta ∧ (∃ meseta, meseta =
          (if it.data2L + c.meseta > 999999 then 999999 else it.data2L + c.meseta) ∧
        handleBbPickUp l c pkt = (l', { c with meseta, plMeseta := meseta }, 0)) ∨
      it.data.l0 ≠ itemMeseta ∧ (∃ x rv, x.itemId = it.itemId ∧ handleBbPickUp l c pkt =
        (l', { c with inv := (itemAddToInv c.inv x).1 }, rv)) := by
  unfold handleBbPickUp
  split
  · exact .inl ⟨-1, rfl⟩
  split
  · exact .inl ⟨-1, rfl⟩
  split
  · rename_i l' rv hnone
    rw [lobbyRemoveItemLocked_eq_none hnone]
    exact .inl ⟨_, rfl⟩
  · rename_i l' rv it hsome
    obtain ⟨hid, front, back, hqueue, rfl⟩ := lobbyRemoveItemLocked_eq_some hsome
    refine .inr ⟨front, it, back, hid, hqueue, ?_⟩
    by_cases hmeseta : it.data.l0 = itemMeseta
    · rw [if_pos hmeseta]
      exact .inl ⟨hmeseta, _, rfl, rfl⟩
    · rw [if_neg hmeseta]
      exact .inr ⟨hmeseta, { it with flags := 0, equipped := 1, tech := 0 }, _, rfl, rfl⟩

/-- What can come of a deposit of an item. -/
theorem depositItem_cases (itemId : UInt32) (amount : UInt8) :
    depositItem l c itemId amount = reject l c ∨
    ∃ inv bank rv, inv.map (·.itemId) =
        (itemRemoveFromInv c.inv itemId amount.toUInt32).1.map (·.itemId) ∧
      depositItem l c itemId amount = (l, { c with inv, bank }, rv) := by
  unfold depositItem
  split
  · exact .inl rfl
  dsimp only
  split
  · exact .inl rfl
  split
  · exact .inr ⟨_, c.bank, -1, rfl, rfl⟩
  · refine .inr ⟨_, _, _, ?_, rfl⟩
    split
    · exact map_unequipUnits (fun _ => rfl) _
    · rfl

/-- What can come of taking an item out of the bank: it gets the next id of the lobby,
also where there is no room for it. -/
theorem takeItem_cases (itemId : UInt32) (amount : UInt8) :
    takeItem l c itemId amount = reject l c ∨
    ∃ it bank rv, it.itemId = l.itemId ∧ takeItem l c itemId amount =
      ({ l with itemId := l.itemId + 1 }, { c with inv := (itemAddToInv c.inv it).1, bank },
        rv) := by
  unfold takeItem
  split
  · exact .inl rfl
  dsimp only
  split
  · rename_i bank bitem _ hfull
    refine .inr ⟨Item.mk 1 0 0 bitem.data l.itemId bitem.data2L,
      (itemDepositToBank bank bitem).1, -1, rfl, ?_⟩
    rw [itemAddToInv_of_neg hfull]
    rfl
  · rename_i bank bitem _ _
    exact .inr ⟨Item.mk 1 0 0 bitem.data l.itemId bitem.data2L, bank, 0, rfl, rfl⟩

end Handlers

end Sylverant.Ship.Bb
