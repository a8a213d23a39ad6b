/-
# Dropping a part of a stack

A client drops a part of a stack, or meseta, with two packets: one says where, and the
other one what. What the floor gains is put together from the copy of the inventory
that the client sent, and what the character loses is taken from the inventory itself.
-/

import Sylverant.Ship.BbHandlers
import Sylverant.Ship.Quantities

namespace Sylverant.Ship.Bb

/-! ## Conservation -/

/-- Two items have the same data, apart from the quantity if they stack. -/
def SameData (it x : Item) : Prop :=
  (if itemIsStackable x.data.l0 then it.data.setB5 0 = x.data.setB5 0 else it.data = x.data) ∧
    it.data2L = x.data2L

/-- No item lies on the floor that was not there, and the client has what it had. -/
def Untouched (l : Game) (c : Client) (l' : Game) (c' : Client) : Prop :=
  l'.itemQueue = l.itemQueue ∧ c'.inv = c.inv ∧ c'.meseta = c.meseta

/-- The floor gained an item with the data of that in the inventory, and as many of it
as the inventory lost. -/
def DroppedItem (l : Game) (c : Client) (l' : Game) (c' : Client) (itemId : UInt32) : Prop :=
  ∃ it found, l'.itemQueue = it :: l.itemQueue ∧ findItem c.inv itemId = some found ∧
    SameData it (c.inv.getD found default) ∧ c'.meseta = c.meseta ∧
    ∀ code, (Measure.quantity code).inv c'.inv +
      (Measure.quantity code).of it.data it.data2L = (Measure.quantity code).inv c.inv

/-- The floor gained the meseta that the character lost. -/
def DroppedMeseta (l : Game) (c : Client) (l' : Game) (c' : Client) : Prop :=
  ∃ it, l'.itemQueue = it :: l.itemQueue ∧ it.data.l0 = itemMeseta ∧ c'.inv = c.inv ∧
    c'.meseta.toNat + it.data2L.toNat = c.meseta.toNat

/-- What is dropped is conserved: nothing was touched, or the floor gained what the client
lost. -/
def DropConserves (l : Game) (c : Client) (l' : Game) (c' : Client) (itemId : UInt32) : Prop :=
  Untouched l c l' c' ∨
    if itemId ≠ 0xFFFFFFFF then DroppedItem l c l' c' itemId else DroppedMeseta l c l' c'

/-! ## The condition -/

/-- The place of the drop is recorded. -/
def PosAccepted (l : Game) (c : Client) (pos : DropPosPkt) : Prop :=
  l.type ≠ .default ∧ pos.pktLen = 0x20 ∧ pos.size = 0x06 ∧ pos.clientId = c.clientId ∧
    if pos.itemId ≠ 0xFFFFFFFF then findItem c.inv pos.itemId ≠ none else pos.amount ≤ c.meseta

instance (l : Game) (c : Client) (pos : DropPosPkt) : Decidable (PosAccepted l c pos) :=
  inferInstanceAs (Decidable (_ ∧ _ ∧ _ ∧ _ ∧ _))

/-- What the client dropped is what the packet before named. -/
def Announced (l : Game) (c : Client) (pos : DropPosPkt) (pkt : DestroyItemPkt) : Prop :=
  if PosAccepted l c pos then pkt.itemId = pos.itemId ∧ pkt.amount = pos.amount
  else pkt.itemId = c.dropItem ∧ pkt.amount = c.dropAmt

/-- What the client last said of the item in a place still holds, and the stack holds
what is asked for, or the amount happens to be that of the stack in its last byte. -/
def ItemSafe (c : Client) (amount : UInt32) (found : Nat) : Prop :=
  let x := c.inv.getD found default
  (c.items found).data.setB5 0 = x.data.setB5 0 ∧ (c.items found).data2L = x.data2L ∧
    (amount.toUInt8 = x.data.b5 ∨ itemIsStackable x.data.l0 ∧ amount < x.data.b5.toUInt32)

/-- The condition under which a drop conserves what is dropped. -/
def DropSafe (l : Game) (c : Client) (pos : DropPosPkt) (pkt : DestroyItemPkt) : Prop :=
  l.type ≠ .default → pkt.pktLen = 0x14 → pkt.size = 0x03 → pkt.clientId = c.clientId →
    l.version = .bb → Announced l c pos pkt →
      if pkt.itemId ≠ 0xFFFFFFFF then
        ∀ found, findItem c.inv pkt.itemId = some found → ItemSafe c pkt.amount found
      else pkt.amount ≤ c.meseta

/-! ## One packet after the other -/

section Handlers

variable {l : Game} {c : Client}

/-- The first packet only records what it says. -/
theorem handleBbDropPos_eq (l : Game) (c : Client) (pos : DropPosPkt) :
    handleBbDropPos l c pos =
      if PosAccepted l c pos then
        (l, { c with dropItem := pos.itemId, dropAmt := pos.amount }, 0)
      else reject l c := by
  rw [handleBbDropPos]
  by_cases htype : l.type = .default
  · rw [if_pos htype, if_neg fun h => h.1 htype]
  rw [if_neg htype]
  by_cases hform : pos.pktLen ≠ 0x20 ∨ pos.size ≠ 0x06 ∨ pos.clientId ≠ c.clientId
  · rw [if_pos hform, if_neg fun h => ?_]
    rcases hform with hlen | hsize | hclient
    · exact hlen h.2.1
    · exact hsize h.2.2.1
    · exact hclient h.2.2.2.1
  rw [if_neg hform]
  simp only [not_or, not_not] at hform
  have haccepted : PosAccepted l c pos ↔ if pos.itemId ≠ 0xFFFFFFFF then
      findItem c.inv pos.itemId ≠ none else pos.amount ≤ c.meseta :=
    ⟨fun h => h.2.2.2.2, fun h => ⟨htype, hform.1, hform.2.1, hform.2.2, h⟩⟩
  by_cases hitem : pos.itemId ≠ 0xFFFFFFFF
  · rw [if_pos hitem] at haccepted
    rw [if_congr haccepted rfl rfl, if_neg (c := pos.itemId = 0xFFFFFFFF ∧ _) fun h => hitem h.1]
    cases hfound : findItem c.inv pos.itemId with
    | none => rw [if_pos ⟨hitem, rfl⟩, if_neg (by simp)]
    | some found => rw [if_neg (by simp), if_pos (by simp)]
  · rw [if_neg hitem] at haccepted
    rw [if_congr haccepted rfl rfl, if_neg fun h => hitem h.1]
    by_cases hless : c.meseta < pos.amount
    · rw [if_pos ⟨not_not.mp hitem, hless⟩, if_neg (UInt32.not_le.mpr hless)]
    · rw [if_neg fun h => hless h.2, if_pos (UInt32.not_lt.mp hless)]

/-- The data of an item with another quantity. -/
theorem setB5_eq_iff (d e : ItemData) (n : UInt8) :
    d.setB5 n = e ↔ d.setB5 0 = e.setB5 0 ∧ n = e.b5 := by
  constructor
  · rintro rfl
    exact ⟨(d.setB5_setB5 n 0).symm, (d.b5_setB5 n).symm⟩
  · rintro ⟨hdata, rfl⟩
    rw [← d.setB5_setB5 0, hdata, ItemData.setB5_setB5, ItemData.setB5_b5]

theorem l0_eq_of_setB5 {d e : ItemData} (h : d.setB5 0 = e.setB5 0) : d.l0 = e.l0 := by
  rw [← d.l0_setB5 0, h, ItemData.l0_setB5]

/-- What the inventory loses when a number of items is taken out of it. -/
theorem inv_itemRemoveFromInv {front back : List Item} {x : Item} {itemId : UInt32}
    (hfirst : ∀ y ∈ front, y.itemId ≠ itemId) (hid : x.itemId = itemId) (amt : UInt32)
    (m : Measure) :
    m.inv (itemRemoveFromInv (front ++ x :: back) itemId amt).1 +
      (if itemIsStackable x.data.l0 ∧ amt < x.data.b5.toUInt32 then
        m.unit x.data.l0 * amt.toNat else m.of x.data x.data2L) =
      m.inv (front ++ x :: back) := by
  rw [itemRemoveFromInv_append hfirst hid]
  by_cases hpart : itemIsStackable x.data.l0 ∧ amt < x.data.b5.toUInt32
  · have hless := UInt32.lt_iff_toNat_lt.mp hpart.2
    have hbyte := x.data.b5.toNat_lt
    rw [UInt8.toNat_toUInt32] at hless
    have hall : amt ≠ 0xFFFFFFFF := by
      rintro rfl
      simp only [UInt32.reduceToNat] at hless
      omega
    have hleft : (x.data.b5.toUInt32 - amt).toUInt8.toNat = x.data.b5.toNat - amt.toNat := by
      rw [UInt32.toNat_toUInt8, UInt32.toNat_sub_of_le _ _ (UInt32.le_of_lt hpart.2),
        UInt8.toNat_toUInt32]
      omega
    rw [if_pos ⟨hpart.1, hall, hpart.2⟩, if_pos hpart]
    simp only [Measure.inv_append, Measure.inv_cons, m.of_setB5 hpart.1, m.of_stack _ _ hpart.1,
      hleft]
    have hsum := Nat.mul_add (m.unit x.data.l0) (x.data.b5.toNat - amt.toNat) amt.toNat
    rw [Nat.sub_add_cancel (Nat.le_of_lt hless)] at hsum
    omega
  · rw [if_neg fun h => hpart ⟨h.1, h.2.2⟩, if_neg hpart]
    simp only [Measure.inv_append, Measure.inv_cons]
    omega

/-- The item that is put on the floor. -/
def splitItem (c : Client) (amount itemId : UInt32) (found : Nat) : Item :=
  { c.items found with itemId, data := (c.items found).data.setB5 amount.toUInt8 }

/-- An item is dropped without loss where the copy of it holds. -/
theorem dropConserves_item_iff {l' : Game} {front back : List Item} {x : Item}
    {itemId amount id : UInt32} (hitem : itemId ≠ 0xFFFFFFFF) (hinv : c.inv = front ++ x :: back)
    (hid : x.itemId = itemId) (hfirst : ∀ y ∈ front, y.itemId ≠ itemId)
    (hfound : findItem c.inv itemId = some front.length)
    (hfloor : l'.itemQueue = splitItem c amount id front.length :: l.itemQueue) :
    DropConserves l c l' { c with inv := (itemRemoveFromInv c.inv itemId amount).1 } itemId ↔
      ItemSafe c amount front.length := by
  have hget : c.inv.getD front.length default = x := by
    rw [hinv, List.getD_eq_getElem?_getD, List.getElem?_append_right (Nat.le_refl _),
      Nat.sub_self]
    rfl
  have hlost := @inv_itemRemoveFromInv front back x itemId hfirst hid amount
  rw [← hinv] at hlost
  rw [ItemSafe, hget]
  constructor
  · intro h
    rcases h with ⟨hqueue, -⟩ | h
    · rw [hfloor] at hqueue
      exact absurd hqueue (List.cons_ne_self _ _)
    rw [if_pos hitem] at h
    obtain ⟨it, found, hqueue, hfound', ⟨hdata, hdata2L⟩, -, htotal⟩ := h
    rw [hfloor] at hqueue
    obtain ⟨rfl, -⟩ := List.cons.inj hqueue
    rw [hfound] at hfound'
    obtain rfl := Option.some.inj hfound'
    rw [hget] at hdata hdata2L
    by_cases hstack : itemIsStackable x.data.l0
    · rw [if_pos hstack, splitItem, ItemData.setB5_setB5] at hdata
      have hl0 : (c.items front.length).data.l0 = x.data.l0 := l0_eq_of_setB5 hdata
      have hgained := htotal x.data.l0
      have hlost := hlost (Measure.quantity x.data.l0)
      rw [splitItem, ← hl0, Measure.of_setB5 _ (hl0 ▸ hstack), Measure.unit_quantity,
        Nat.one_mul, hl0] at hgained
      dsimp only at hgained
      rw [Measure.unit_quantity, Nat.one_mul, Measure.of_quantity, ItemData.quantity,
        if_pos hstack] at hlost
      refine ⟨hdata, hdata2L, ?_⟩
      by_cases hless : amount < x.data.b5.toUInt32
      · exact .inr ⟨hstack, hless⟩
      · rw [if_neg fun h => hless h.2] at hlost
        exact .inl (UInt8.toNat_inj.mp (by omega))
    · rw [if_neg hstack, splitItem] at hdata
      obtain ⟨hsame, hamount⟩ := (setB5_eq_iff _ _ _).mp hdata
      exact ⟨hsame, hdata2L, .inl hamount⟩
  · rintro ⟨hdata, hdata2L, hamount⟩
    have hl0 : (c.items front.length).data.l0 = x.data.l0 := l0_eq_of_setB5 hdata
    right
    rw [if_pos hitem]
    refine ⟨_, front.length, hfloor, hfound, ⟨?_, ?_⟩, rfl, fun code => ?_⟩
    · rw [hget, splitItem]
      by_cases hstack : itemIsStackable x.data.l0
      · rw [if_pos hstack, ItemData.setB5_setB5, hdata]
      · rw [if_neg hstack]
        exact (setB5_eq_iff _ _ _).mpr ⟨hdata, hamount.resolve_right fun h => hstack h.1⟩
    · rw [hget]
      exact hdata2L
    · rw [← hlost (Measure.quantity code)]
      refine congrArg _ ?_
      by_cases hstack : itemIsStackable x.data.l0
      · rw [splitItem, Measure.of_setB5 _ (hl0.symm ▸ hstack), hl0]
        by_cases hless : amount < x.data.b5.toUInt32
        · have hbyte := x.data.b5.toNat_lt
          have hlt := UInt32.lt_iff_toNat_lt.mp hless
          rw [UInt8.toNat_toUInt32] at hlt
          rw [if_pos ⟨hstack, hless⟩, UInt32.toNat_toUInt8, Nat.mod_eq_of_lt (by omega)]
        · rw [if_neg fun h => hless h.2, Measure.of_stack _ _ _ hstack,
            hamount.resolve_right fun h => hless h.2]
      · have hsame := (setB5_eq_iff _ _ _).mpr
          ⟨hdata, hamount.resolve_right fun h => hstack h.1⟩
        rw [if_neg fun h => hstack h.1, splitItem, hsame]
        exact congrArg _ hdata2L

/-- Meseta on the floor that nobody lost. -/
theorem not_dropConserves_meseta {l' : Game} {it : Item} {itemId : UInt32}
    (hitem : ¬itemId ≠ 0xFFFFFFFF) (hfloor : l'.itemQueue = it :: l.itemQueue)
    (hsome : it.data2L ≠ 0) : ¬DropConserves l c l' c itemId := by
  intro h
  rcases h with ⟨hqueue, -⟩ | h
  · rw [hfloor] at hqueue
    exact List.cons_ne_self _ _ hqueue
  · rw [if_neg hitem] at h
    obtain ⟨it', hqueue, -, -, htotal⟩ := h
    rw [hfloor] at hqueue
    obtain ⟨rfl, -⟩ := List.cons.inj hqueue
    exact hsome (UInt32.toNat_inj.mp (Nat.left_eq_add.mp htotal.symm))

/-- What is done with what a packet drops, once it is known what that is. -/
theorem handleBbDropStack_eq {pkt : DestroyItemPkt} {it : Item} (htype : l.type ≠ .default)
    (hform : ¬(pkt.pktLen ≠ 0x14 ∨ pkt.size ≠ 0x03 ∨ pkt.clientId ≠ c.clientId))
    (hit : stackItem c pkt (l.highestItem c.clientId + 1) = some it) :
    handleBbDropStack l c pkt =
      if l.version = .bb ∧ pkt.itemId = c.dropItem ∧ pkt.amount = c.dropAmt then
        let l' := { l.countUp c.clientId with itemQueue := it :: l.itemQueue }
        if pkt.itemId ≠ 0xFFFFFFFF then
          let r := itemRemoveFromInv c.inv pkt.itemId pkt.amount
          (l', { c with inv := r.1 }, if r.2 < 0 then -1 else 0)
        else if pkt.amount > c.meseta then reject l' c
        else
          (l', { c with meseta := c.meseta - pkt.amount, plMeseta := c.meseta - pkt.amount }, 0)
      else reject (l.countUp c.clientId) c := by
  rw [handleBbDropStack, if_neg htype, if_neg hform]
  dsimp only
  rw [hit]
  dsimp only
  by_cases hother : pkt.itemId ≠ c.dropItem ∨ pkt.amount ≠ c.dropAmt
  · rw [if_pos hother, if_neg]
    · rfl
    · rintro ⟨-, hitem, hamount⟩
      exact hother.elim (fun h => h hitem) fun h => h hamount
  · rw [if_neg hother, lobbyAddItem2Locked]
    dsimp only
    simp only [not_or, not_not] at hother
    by_cases hversion : l.version = .bb
    · have hmeets : l.version = .bb ∧ pkt.itemId = c.dropItem ∧ pkt.amount = c.dropAmt :=
        ⟨hversion, hother⟩
      rw [if_neg (not_not.mpr hversion), if_pos hmeets]
      rfl
    · have hmeets : ¬(l.version = .bb ∧ pkt.itemId = c.dropItem ∧ pkt.amount = c.dropAmt) :=
        fun h => hversion h.1
      rw [if_pos hversion, if_neg hmeets]
      rfl

/-- When dropping what a packet names conserves it, after another packet may have
recorded what it is. -/
theorem handleBbDropStack_conserves_iff (l : Game) (c : Client) (pkt : DestroyItemPkt) :
    DropConserves l c (handleBbDropStack l c pkt).1 (handleBbDropStack l c pkt).2.1 pkt.itemId ↔
      (l.type ≠ .default → pkt.pktLen = 0x14 → pkt.size = 0x03 → pkt.clientId = c.clientId →
        l.version = .bb → pkt.itemId = c.dropItem ∧ pkt.amount = c.dropAmt →
          if pkt.itemId ≠ 0xFFFFFFFF then
            ∀ found, findItem c.inv pkt.itemId = some found → ItemSafe c pkt.amount found
          else pkt.amount ≤ c.meseta) := by
  have huntouched : ∀ {l' : Game}, l'.itemQueue = l.itemQueue →
      DropConserves l c l' c pkt.itemId := fun hqueue => .inl ⟨hqueue, rfl, rfl⟩
  by_cases htype : l.type = .default
  · rw [handleBbDropStack, if_pos htype]
    exact iff_of_true (huntouched rfl) fun h => absurd htype h
  by_cases hform : pkt.pktLen ≠ 0x14 ∨ pkt.size ≠ 0x03 ∨ pkt.clientId ≠ c.clientId
  · rw [handleBbDropStack, if_neg htype, if_pos hform]
    refine iff_of_true (huntouched rfl) fun _ hlen hsize hclient => ?_
    exact absurd hform (by simp [hlen, hsize, hclient])
  have hcond {p : Prop} : (l.type ≠ .default → pkt.pktLen = 0x14 → pkt.size = 0x03 →
      pkt.clientId = c.clientId → l.version = .bb →
      pkt.itemId = c.dropItem ∧ pkt.amount = c.dropAmt → p) ↔
      (l.version = .bb ∧ pkt.itemId = c.dropItem ∧ pkt.amount = c.dropAmt → p) := by
    simp only [not_or, not_not] at hform
    exact ⟨fun h hmeets => h htype hform.1 hform.2.1 hform.2.2 hmeets.1 hmeets.2,
      fun h _ _ _ _ hversion hsame => h ⟨hversion, hsame⟩⟩
  rw [hcond]
  by_cases hitem : pkt.itemId ≠ 0xFFFFFFFF
  · rw [if_pos hitem]
    rcases findItem_cases c.inv pkt.itemId with
      hnone | ⟨front, x, back, hinv, hid, hfirst, hfound⟩
    · have hstack : stackItem c pkt (l.highestItem c.clientId + 1) = none := by
        rw [stackItem, if_pos hitem, hnone]
        rfl
      rw [handleBbDropStack, if_neg htype, if_neg hform]
      dsimp only
      rw [hstack]
      refine iff_of_true (huntouched rfl) fun _ found hfound => ?_
      rw [hnone] at hfound
      cases hfound
    · have hstack : stackItem c pkt (l.highestItem c.clientId + 1) =
          some (splitItem c pkt.amount (l.highestItem c.clientId + 1) front.length) := by
        rw [stackItem, if_pos hitem, hfound]
        rfl
      rw [handleBbDropStack_eq htype hform hstack]
      split_ifs with hmeets
      · dsimp only
        rw [dropConserves_item_iff hitem hinv hid hfirst hfound rfl]
        constructor
        · intro h _ found hfound'
          rw [hfound] at hfound'
          exact Option.some.inj hfound' ▸ h
        · exact fun h => h hmeets _ hfound
      · exact iff_of_true (huntouched rfl) fun h => absurd h hmeets
  · rw [if_neg hitem]
    have hstack : stackItem c pkt (l.highestItem c.clientId + 1) =
        some { data := ⟨itemMeseta, 0, 0⟩, itemId := l.highestItem c.clientId + 1
               data2L := pkt.amount } := by
      rw [stackItem, if_neg hitem]
    rw [handleBbDropStack_eq htype hform hstack]
    split_ifs with hmeets hmore
    · refine iff_of_false ?_ fun h => absurd (h hmeets) (UInt32.not_le.mpr hmore)
      refine not_dropConserves_meseta hitem rfl ?_
      intro hnone
      have hzero : pkt.amount = 0 := hnone
      rw [hzero] at hmore
      exact UInt32.not_lt.mpr UInt32.zero_le hmore
    · have hle := UInt32.not_lt.mp hmore
      refine iff_of_true (.inr ?_) fun _ => hle
      rw [if_neg hitem]
      refine ⟨_, rfl, rfl, rfl, ?_⟩
      rw [UInt32.toNat_sub_of_le _ _ hle]
      exact Nat.sub_add_cancel (UInt32.le_iff_toNat_le.mp hle)
    · exact iff_of_true (huntouched rfl) fun h => absurd h hmeets
/-- What is left after both packets. -/
def dropBoth (l : Game) (c : Client) (pos : DropPosPkt) (pkt : DestroyItemPkt) : Game × Client :=
  let r := handleBbDropPos l c pos
  let r := handleBbDropStack r.1 r.2.1 pkt
  (r.1, r.2.1)

/-- When the two packets conserve what is dropped. -/
theorem dropBoth_conserves_iff (l : Game) (c : Client) (pos : DropPosPkt) (pkt : DestroyItemPkt) :
    DropConserves l c (dropBoth l c pos pkt).1 (dropBoth l c pos pkt).2 pkt.itemId ↔
      DropSafe l c pos pkt := by
  rw [dropBoth, handleBbDropPos_eq, DropSafe, Announced]
  by_cases haccepted : PosAccepted l c pos
  · rw [if_pos haccepted, if_pos haccepted]
    exact handleBbDropStack_conserves_iff l
      { c with dropItem := pos.itemId, dropAmt := pos.amount } pkt
  · rw [if_neg haccepted, if_neg haccepted]
    exact handleBbDropStack_conserves_iff l c pkt

end Handlers

/-- A client that carries two monomates, of which it told the ship. -/
def mateDropper : Client where
  inv := [{ data := ⟨0x000003, 0x00000200, 0⟩, itemId := 0x00010000 }]
  items _ := { data := ⟨0x000003, 0x00000200, 0⟩, itemId := 0x00010000 }

/-- Of two monomates five can be dropped. -/
theorem not_dropConserves : ¬∀ (l : Game) (c : Client) (pos : DropPosPkt) (pkt : DestroyItemPkt),
    DropConserves l c (dropBoth l c pos pkt).1 (dropBoth l c pos pkt).2 pkt.itemId := by
  intro h
  rcases h (lobbyCreateGame false) mateDropper
      { pktLen := 0x20, size := 0x06, itemId := 0x00010000, amount := 5 }
      { pktLen := 0x14, size := 0x03, itemId := 0x00010000, amount := 5 } with ⟨hqueue, -⟩ | h
  · exact absurd (congrArg List.length hqueue) (by decide)
  · obtain ⟨it, found, hqueue, -, -, -, htotal⟩ := h
    have htotal := htotal 0x000003
    rw [← (List.cons.inj hqueue).1] at htotal
    exact absurd htotal (by decide)

end Sylverant.Ship.Bb
