/-
# Items in the bank

An item that goes to the bank, or comes from it, is taken out at one place and put in at
the other. When that loses nothing and makes nothing up, and when it does: the amount
that a client asks for may be more than it has, and there may be no room on the other
side.
-/

import Sylverant.Ship.Quantities

namespace Sylverant.Ship.Bb

/-! ## What is sound -/

/-- The amount of an item in the bank is that of its stack. -/
def BankItem.Agrees (it : BankItem) : Prop :=
  itemIsStackable it.data.l0 → it.amount = it.data.b5.toUInt16

/-- A stack holds between 1 and 99 items. -/
def ItemData.Stacked (d : ItemData) : Prop :=
  itemIsStackable d.l0 → 1 ≤ d.b5.toNat ∧ d.b5.toNat ≤ 99

/-- The items of a client are as they should be. -/
structure Client.Sound (c : Client) : Prop where
  inv_room : c.inv.length ≤ 30
  bank_room : c.bank.length ≤ 200
  inv_stacked : ∀ it ∈ c.inv, it.data.Stacked
  bank_stacked : ∀ it ∈ c.bank, it.data.Stacked
  bank_agrees : ∀ it ∈ c.bank, it.Agrees

/-- The measure of what a client has, in its inventory and in the bank. -/
def Measure.total (m : Measure) (c : Client) : Nat := m.inv c.inv + m.bank c.bank

/-! ## What is destroyed -/

/-- The id that `subcmd_send_destroy_item` is called with after a deposit, if the deposit
gets that far. -/
def depositDestroys (l : Game) (c : Client) (itemId : UInt32) (amount : UInt8) :
    Option UInt32 :=
  if (depositItem l c itemId amount).2.2 < 0 then none
  else
    (findItem c.inv itemId).map fun found =>
      let it := c.inv.getD found default
      let inv := (itemRemoveFromInv c.inv itemId amount.toUInt32).1
      -- The loop that unequips the units reads each item into the variable of the
      -- item that is deposited.
      let item := if it.data.isFrame ∧ it.isEquipped then inv.getLast?.getD it else it
      item.itemId

/-- The id that `handle_bb_bank_action` announces as destroyed, if any. -/
def destroyedId (l : Game) (c : Client) (pkt : BankActPkt) : Option UInt32 :=
  if l.type = .default then none
  else if pkt.pktLen ≠ 0x18 ∨ pkt.size ≠ 0x04 then none
  else if pkt.action = 0 ∧ pkt.itemId ≠ 0xFFFFFFFF then
    depositDestroys l c pkt.itemId pkt.itemAmount
  else none

/-- The items are conserved from one state of a client to the next: as many of each code,
the same items that do not stack, amounts that agree, and counts within bounds. What is
announced as destroyed is what was deposited. -/
structure Conserves (c c' : Client) (destroyed : Option UInt32) (itemId : UInt32) : Prop where
  quantity : ∀ code, (Measure.quantity code).total c' = (Measure.quantity code).total c
  same : ∀ data data2L, (Measure.same data data2L).total c' = (Measure.same data data2L).total c
  agrees : ∀ it ∈ c'.bank, it.Agrees
  inv_room : c'.inv.length ≤ 30
  bank_room : c'.bank.length ≤ 200
  destroyed : ∀ id, destroyed = some id → id = itemId

/-- A deposit that is safe: the stack holds what is asked for, and there is room in the
bank. If the item is a frame that is equipped, what is left of the inventory does not end
with some other item. -/
def DepositSafe (c : Client) (itemId : UInt32) (amount : UInt8) : Prop :=
  ∀ found, findItem c.inv itemId = some found →
    let it := c.inv.getD found default
    if itemIsStackable it.data.l0 then
      amount ≤ it.data.b5 ∧ (c.bank.length < 200 ∨ amount = 0)
    else
      amount ≤ 1 → c.bank.length < 200 ∧
        (it.data.isFrame ∧ it.isEquipped →
          ∀ x, (c.inv.eraseIdx found).getLast? = some x → x.itemId = itemId)

/-- A withdrawal that is safe: no part of a stack is taken out of a bank that is full by a
client that has no room for it. -/
def TakeSafe (l : Game) (c : Client) (itemId : UInt32) (amount : UInt8) : Prop :=
  ∀ it, (c.bank.find? fun x => x.itemId = itemId) = some it → itemIsStackable it.data.l0 →
    0 < amount → amount < it.data.b5 → c.bank.length = 200 →
      c.inv.length ≠ 30 ∧ ∀ x ∈ c.inv, x.itemId ≠ l.itemId

/-- The condition under which a bank action conserves the items. -/
def BankSafe (l : Game) (c : Client) (pkt : BankActPkt) : Prop :=
  l.type ≠ .default → pkt.pktLen = 0x18 → pkt.size = 0x04 → pkt.itemId ≠ 0xFFFFFFFF →
    (pkt.action = 0 → DepositSafe c pkt.itemId pkt.itemAmount) ∧
    (pkt.action = 1 → TakeSafe l c pkt.itemId pkt.itemAmount)

/-! ## Putting items in -/

section Adding

/-- An item is put into the bank unless the bank is full. Where it goes to a stack, the
sum is cut off to a byte. -/
theorem itemDepositToBank_gains (bank : List BankItem) (it : BankItem) :
    bank.length = 200 ∧ itemDepositToBank bank it = (bank, -1) ∨
    bank.length ≠ 200 ∧ ∃ bank' rv, 0 ≤ rv ∧ itemDepositToBank bank it = (bank', rv) ∧
      bank'.length ≤ bank.length + 1 ∧
      ((∀ x ∈ bank, x.Agrees) → it.Agrees → ∀ x ∈ bank', x.Agrees) ∧
      ((∀ m : Measure, m.bank bank' = m.bank bank + m.of it.data it.data2L) ∨
        itemIsStackable it.data.l0 ∧ ∃ x ∈ bank, x.data.l0 = it.data.l0 ∧
          ∀ m : Measure, m.bank bank' + m.unit it.data.l0 * x.data.b5.toNat =
            m.bank bank + m.unit it.data.l0 * (x.data.b5 + it.data.b5).toNat) := by
  unfold itemDepositToBank
  by_cases hfull : bank.length = 200
  · rw [if_pos hfull]
    exact .inl ⟨hfull, rfl⟩
  rw [if_neg hfull]
  refine .inr ⟨hfull, ?_⟩
  have happend : ∀ m : Measure, m.bank (bank ++ [it]) = m.bank bank + m.of it.data it.data2L := by
    intro m
    rw [Measure.bank_append, Measure.bank_cons, Measure.bank_nil, Nat.add_zero]
  have hlength : (bank ++ [it]).length ≤ bank.length + 1 := by simp
  have hagree : (∀ x ∈ bank, x.Agrees) → it.Agrees → ∀ x ∈ bank ++ [it], x.Agrees := by
    intro hbank hit x hx
    rcases List.mem_append.mp hx with hx | hx
    · exact hbank x hx
    · exact List.mem_singleton.mp hx ▸ hit
  by_cases hstack : itemIsStackable it.data.l0
  · rw [if_pos hstack]
    rcases addToBankStack_cases it bank with hnone | ⟨front, x, back, rfl, hkind, hsome⟩
    · rw [hnone]
      exact ⟨_, _, by decide, rfl, hlength, hagree, .inl happend⟩
    · rw [hsome]
      have hx : itemIsStackable x.data.l0 := hkind ▸ hstack
      refine ⟨_, _, by decide, rfl, by simp, ?_, .inr ⟨hstack, x, by simp, hkind, fun m => ?_⟩⟩
      · intro hbank _ y hy
        rcases List.mem_append.mp hy with hy | hy
        · exact hbank y (List.mem_append_left _ hy)
        rcases List.mem_cons.mp hy with rfl | hy
        · intro _
          simp
        · exact hbank y (by simp [hy])
      · simp only [Measure.bank_append, Measure.bank_cons, m.of_setB5 hx, m.of_stack _ _ hx, hkind]
        omega
  · rw [if_neg hstack]
    exact ⟨_, _, by decide, rfl, hlength, hagree, .inl happend⟩

/-- Two stacks of no more than 99 items are put together without loss. -/
theorem add_stacks {x y : UInt8} (hx : x.toNat ≤ 99) (hy : y.toNat ≤ 99) :
    (x + y).toNat = x.toNat + y.toNat := by
  rw [UInt8.toNat_add]
  omega

/-- What the bank gains where all stacks are small. -/
theorem itemDepositToBank_adds {bank : List BankItem} {it : BankItem}
    (hroom : bank.length < 200) (hbank : ∀ x ∈ bank, x.data.Stacked)
    (hit : itemIsStackable it.data.l0 → it.data.b5.toNat ≤ 99)
    (hagrees : ∀ x ∈ bank, x.Agrees) (hagree : it.Agrees) :
    ∃ bank' rv, 0 ≤ rv ∧ itemDepositToBank bank it = (bank', rv) ∧ bank'.length ≤ 200 ∧
      (∀ x ∈ bank', x.Agrees) ∧
      ∀ m : Measure, m.bank bank' = m.bank bank + m.of it.data it.data2L := by
  rcases itemDepositToBank_gains bank it with
    ⟨hfull, -⟩ | ⟨-, bank', rv, hrv, heq, hlength, hall, hgain⟩
  · omega
  refine ⟨bank', rv, hrv, heq, by omega, hall hagrees hagree, fun m => ?_⟩
  rcases hgain with hgain | ⟨hstack, x, hx, hkind, hgain⟩
  · exact hgain m
  · have hsum := hgain m
    have hxle := (hbank x hx (hkind ▸ hstack)).2
    rw [add_stacks hxle (hit hstack), Nat.mul_add] at hsum
    rw [m.of_stack _ _ hstack]
    omega

/-- An item is put into the inventory unless it is full, or the id is there already. -/
theorem itemAddToInv_adds {inv : List Item} {it : Item} (hinv : ∀ x ∈ inv, x.data.Stacked)
    (hit : itemIsStackable it.data.l0 → it.data.b5.toNat ≤ 99) :
    (inv.length = 30 ∨ ∃ x ∈ inv, x.itemId = it.itemId) ∧ itemAddToInv inv it = (inv, -1) ∨
    inv.length ≠ 30 ∧ (∀ x ∈ inv, x.itemId ≠ it.itemId) ∧ ∃ inv' rv, 0 ≤ rv ∧
      itemAddToInv inv it = (inv', rv) ∧ inv'.length ≤ inv.length + 1 ∧
      ∀ m : Measure, m.inv inv' = m.inv inv + m.of it.data it.data2L := by
  unfold itemAddToInv
  by_cases hfull : inv.length = 30
  · rw [if_pos hfull]
    exact .inl ⟨.inl hfull, rfl⟩
  rw [if_neg hfull]
  by_cases hid : inv.any fun x => x.itemId = it.itemId
  · rw [if_pos hid]
    obtain ⟨x, hx, hxid⟩ := List.any_eq_true.mp hid
    exact .inl ⟨.inr ⟨x, hx, of_decide_eq_true hxid⟩, rfl⟩
  rw [if_neg hid]
  have hnew : ∀ x ∈ inv, x.itemId ≠ it.itemId := fun x hx hxid =>
    hid (List.any_eq_true.mpr ⟨x, hx, decide_eq_true hxid⟩)
  refine .inr ⟨hfull, hnew, ?_⟩
  have happend : ∀ m : Measure, m.inv (inv ++ [it]) = m.inv inv + m.of it.data it.data2L := by
    intro m
    rw [Measure.inv_append, Measure.inv_cons, Measure.inv_nil, Nat.add_zero]
  have hlength : (inv ++ [it]).length ≤ inv.length + 1 := by simp
  by_cases hstack : itemIsStackable it.data.l0
  · rw [if_pos hstack]
    rcases addToStack_cases it inv with hnone | ⟨front, x, back, rfl, hkind, hsome⟩
    · rw [hnone]
      exact ⟨_, _, by decide, rfl, hlength, happend⟩
    · rw [hsome]
      refine ⟨_, _, by decide, rfl, by simp, fun m => ?_⟩
      have hx : itemIsStackable x.data.l0 := hkind ▸ hstack
      have hxle := (hinv x (by simp) hx).2
      simp only [Measure.inv_append, Measure.inv_cons, m.of_setB5 hx, m.of_stack _ _ hx,
        m.of_stack _ _ hstack, hkind, add_stacks hxle (hit hstack), Nat.mul_add]
      omega
  · rw [if_neg hstack]
    exact ⟨_, _, by decide, rfl, hlength, happend⟩

end Adding

/-! ## Deposits -/

section Deposit

variable {l : Game} {c : Client} {front back : List Item} {it : Item} {itemId : UInt32}

/-- The item that a deposit puts into the bank. -/
def banked (it : Item) (amount : UInt8) : BankItem where
  data := if itemIsStackable it.data.l0 then it.data.setB5 amount else it.data
  itemId := it.itemId
  data2L := it.data2L
  amount := if itemIsStackable it.data.l0 then amount.toUInt16 else 1

/-- What a deposit leaves in the inventory. -/
def left (front : List Item) (it : Item) (back : List Item) (amount : UInt8) : List Item :=
  if itemIsStackable it.data.l0 ∧ amount < it.data.b5 then
    front ++ { it with data := it.data.setB5 (it.data.b5 - amount) } :: back
  else front ++ back

/-- What taking out a number of items that is a byte leaves. -/
theorem itemRemoveFromInv_byte (hfirst : ∀ x ∈ front, x.itemId ≠ itemId)
    (hid : it.itemId = itemId) (amount : UInt8) :
    ∃ rv, itemRemoveFromInv (front ++ it :: back) itemId amount.toUInt32 =
      (left front it back amount, rv) ∧ ¬(rv < 0 ∨ rv > 1) := by
  have hbyte : amount.toUInt32 ≠ 0xFFFFFFFF := by
    intro h
    have hlt := amount.toNat_lt
    have hnat := congrArg UInt32.toNat h
    rw [UInt8.toNat_toUInt32] at hnat
    simp only [UInt32.reduceToNat] at hnat
    omega
  have hless : amount.toUInt32 < it.data.b5.toUInt32 ↔ amount < it.data.b5 := by
    rw [UInt32.lt_iff_toNat_lt, UInt8.lt_iff_toNat_lt, UInt8.toNat_toUInt32, UInt8.toNat_toUInt32]
  rw [itemRemoveFromInv_append hfirst hid, left]
  by_cases hpart : itemIsStackable it.data.l0 ∧ amount < it.data.b5
  · have hsub : (it.data.b5.toUInt32 - amount.toUInt32).toUInt8 = it.data.b5 - amount := by
      simp
    rw [if_pos ⟨hpart.1, hbyte, hless.mpr hpart.2⟩, if_pos hpart, hsub]
    exact ⟨0, rfl, by decide⟩
  · rw [if_neg fun h => hpart ⟨h.1, hless.mp h.2.2⟩, if_neg hpart]
    exact ⟨1, rfl, by decide⟩

/-- The inventory and the bank after a deposit that is not rejected at once. -/
theorem depositItem_eq (hinv : c.inv = front ++ it :: back)
    (hfirst : ∀ x ∈ front, x.itemId ≠ itemId) (hid : it.itemId = itemId)
    (hfound : findItem c.inv itemId = some front.length) {amount : UInt8}
    (hone : itemIsStackable it.data.l0 ∨ amount ≤ 1) :
    depositItem l c itemId amount =
      (l, { c with
        inv := if it.data.isFrame ∧ it.isEquipped then unequipUnits (left front it back amount)
          else left front it back amount
        bank := (itemDepositToBank c.bank (banked it amount)).1 },
        if (itemDepositToBank c.bank (banked it amount)).2 < 0 then -1 else 0) := by
  have hget : c.inv.getD front.length default = it := by
    rw [hinv, List.getD_eq_getElem?_getD, List.getElem?_append_right (Nat.le_refl _),
      Nat.sub_self]
    rfl
  obtain ⟨rv, hremove, hrv⟩ := @itemRemoveFromInv_byte front back it itemId hfirst hid amount
  rw [← hinv] at hremove
  have hmulti : ¬(¬itemIsStackable it.data.l0 ∧ amount > 1) := by
    rintro ⟨hstack, hmore⟩
    exact hone.elim hstack (UInt8.not_le.mpr hmore)
  rw [depositItem, hfound]
  dsimp only
  rw [hget, if_neg hmulti, hremove, if_neg hrv]
  rfl

/-- The id that is announced after such a deposit. -/
theorem depositDestroys_eq (hinv : c.inv = front ++ it :: back)
    (hfirst : ∀ x ∈ front, x.itemId ≠ itemId) (hid : it.itemId = itemId)
    (hfound : findItem c.inv itemId = some front.length) {amount : UInt8}
    (hone : itemIsStackable it.data.l0 ∨ amount ≤ 1) :
    depositDestroys l c itemId amount =
      if (itemDepositToBank c.bank (banked it amount)).2 < 0 then none
      else if it.data.isFrame ∧ it.isEquipped then
        some ((left front it back amount).getLast?.getD it).itemId
      else some itemId := by
  have hget : c.inv.getD front.length default = it := by
    rw [hinv, List.getD_eq_getElem?_getD, List.getElem?_append_right (Nat.le_refl _),
      Nat.sub_self]
    rfl
  obtain ⟨rv, hremove, hrv⟩ := @itemRemoveFromInv_byte front back it itemId hfirst hid amount
  rw [← hinv] at hremove
  rw [depositDestroys, depositItem_eq hinv hfirst hid hfound hone, hfound, Option.map_some, hget,
    hremove]
  have hreject :
      (if (itemDepositToBank c.bank (banked it amount)).2 < 0 then (-1 : Int) else 0) < 0 ↔
      (itemDepositToBank c.bank (banked it amount)).2 < 0 := by
    split
    · exact iff_of_true (by decide) ‹_›
    · exact iff_of_false (by decide) ‹_›
  dsimp only
  rw [if_congr hreject rfl rfl]
  by_cases hfail : (itemDepositToBank c.bank (banked it amount)).2 < 0
  · rw [if_pos hfail, if_pos hfail]
  · rw [if_neg hfail, if_neg hfail]
    by_cases hframe : it.data.isFrame ∧ it.isEquipped
    · rw [if_pos hframe, if_pos hframe]
    · rw [if_neg hframe, if_neg hframe, hid]

/-- The inventory after a deposit measures as if nothing was unequipped. -/
theorem Measure.inv_unequipped (m : Measure) (frame : Prop) [Decidable frame] (inv : List Item) :
    m.inv (if frame then unequipUnits inv else inv) = m.inv inv := by
  split
  · exact m.inv_unequipUnits inv
  · rfl

theorem length_unequipped (frame : Prop) [Decidable frame] (inv : List Item) :
    (if frame then unequipUnits inv else inv).length = inv.length := by
  split
  · exact List.length_map _
  · rfl

theorem length_left_le (amount : UInt8) :
    (left front it back amount).length ≤ (front ++ it :: back).length := by
  rw [left]
  split
  · exact Nat.le_of_eq (by rw [List.length_append, List.length_append]; rfl)
  · rw [List.length_append, List.length_append, List.length_cons]
    omega

/-- What is banked is missing in the inventory, if the stack holds that many. -/
theorem Measure.inv_left (m : Measure) {amount : UInt8}
    (hle : itemIsStackable it.data.l0 → amount ≤ it.data.b5) :
    m.inv (left front it back amount) + m.of (banked it amount).data it.data2L =
      m.inv (front ++ it :: back) := by
  rw [left, banked]
  by_cases hstack : itemIsStackable it.data.l0
  · have hbanked := m.of_setB5 hstack amount it.data2L
    have hle := UInt8.le_iff_toNat_le.mp (hle hstack)
    by_cases hless : amount < it.data.b5
    · rw [if_pos ⟨hstack, hless⟩, if_pos hstack, hbanked]
      simp only [Measure.inv_append, Measure.inv_cons, m.of_setB5 hstack, m.of_stack _ _ hstack]
      rw [UInt8.toNat_sub_of_le _ _ (UInt8.le_of_lt hless)]
      have hsum := Nat.mul_add (m.unit it.data.l0) (it.data.b5.toNat - amount.toNat) amount.toNat
      rw [Nat.sub_add_cancel hle] at hsum
      omega
    · have hsame : amount.toNat = it.data.b5.toNat :=
        Nat.le_antisymm hle (UInt8.le_iff_toNat_le.mp (UInt8.not_lt.mp hless))
      rw [if_neg fun h => hless h.2, if_pos hstack, hbanked, hsame]
      simp only [Measure.inv_append, Measure.inv_cons, m.of_stack _ _ hstack]
      omega
  · rw [if_neg fun h => hstack h.1, if_neg hstack]
    simp only [Measure.inv_append, Measure.inv_cons]
    omega

theorem banked_agrees (amount : UInt8) : (banked it amount).Agrees := by
  intro hstack
  by_cases h : itemIsStackable it.data.l0
  · rw [banked, if_pos h, if_pos h, ItemData.b5_setB5]
  · rw [banked, if_neg h] at hstack
    exact absurd hstack h

/-- A frame does not stack. -/
theorem not_isFrame_of_stack {d : ItemData} (hstack : itemIsStackable d.l0) : ¬d.isFrame := by
  intro hframe
  have htool := (of_decide_eq_true hstack).1
  have hguard := (of_decide_eq_true hframe).1
  have hlow : d.l0 &&& 0x000000FF = d.b0.toUInt32 := by
    apply UInt32.toNat_inj.mp
    rw [UInt32.toNat_and, ItemData.b0, UInt8.toNat_toUInt32, UInt32.toNat_toUInt8]
    exact Nat.and_two_pow_sub_one_eq_mod _ 8
  rw [htool, hguard] at hlow
  cases hlow

/-- A request that leaves the items alone conserves them. -/
theorem Conserves.of_same (hs : c.Sound) {c' : Client} (hinv : c'.inv = c.inv)
    (hbank : c'.bank = c.bank) (itemId : UInt32) : Conserves c c' none itemId where
  quantity _ := by rw [Measure.total, hinv, hbank]; rfl
  same _ _ := by rw [Measure.total, hinv, hbank]; rfl
  agrees := hbank.symm ▸ hs.bank_agrees
  inv_room := hinv.symm ▸ hs.inv_room
  bank_room := hbank.symm ▸ hs.bank_room
  destroyed _ h := by cases h

theorem Conserves.refl (hs : c.Sound) (itemId : UInt32) : Conserves c c none itemId :=
  Conserves.of_same hs rfl rfl itemId

/-- A deposit of what is there, into a bank with room for it. -/
theorem deposit_adds (hs : c.Sound) (hinv : c.inv = front ++ it :: back)
    (hfirst : ∀ x ∈ front, x.itemId ≠ itemId) (hid : it.itemId = itemId)
    (hfound : findItem c.inv itemId = some front.length) {amount : UInt8}
    (hone : itemIsStackable it.data.l0 ∨ amount ≤ 1)
    (hle : itemIsStackable it.data.l0 → amount ≤ it.data.b5) (hroom : c.bank.length < 200)
    (hlast : it.data.isFrame ∧ it.isEquipped →
      ∀ x, (front ++ back).getLast? = some x → x.itemId = itemId) :
    Conserves c (depositItem l c itemId amount).2.1 (depositDestroys l c itemId amount) itemId := by
  have hmem : it ∈ c.inv := hinv ▸ by simp
  have hsmall : itemIsStackable (banked it amount).data.l0 →
      (banked it amount).data.b5.toNat ≤ 99 := by
    intro hbanked
    by_cases hstack : itemIsStackable it.data.l0
    · rw [banked, if_pos hstack, ItemData.b5_setB5]
      exact Nat.le_trans (UInt8.le_iff_toNat_le.mp (hle hstack)) (hs.inv_stacked it hmem hstack).2
    · rw [banked, if_neg hstack] at hbanked
      exact absurd hbanked hstack
  obtain ⟨bank', rv, hrv, hbank, hlength, hagrees, hgain⟩ :=
    itemDepositToBank_adds hroom hs.bank_stacked hsmall hs.bank_agrees (banked_agrees amount)
  have htotal : ∀ m : Measure, m.total (depositItem l c itemId amount).2.1 = m.total c := by
    intro m
    rw [depositItem_eq hinv hfirst hid hfound hone, hbank]
    have hmoved := @Measure.inv_left front back it m amount hle
    have hgained := hgain m
    rw [← hinv] at hmoved
    simp only [Measure.total, Measure.inv_unequipped]
    have hdata2L : (banked it amount).data2L = it.data2L := rfl
    rw [hdata2L] at hgained
    omega
  refine
    { quantity := fun code => htotal _
      same := fun data data2L => htotal _
      agrees := ?_, inv_room := ?_, bank_room := ?_, destroyed := ?_ }
  · rw [depositItem_eq hinv hfirst hid hfound hone, hbank]
    exact hagrees
  · rw [depositItem_eq hinv hfirst hid hfound hone]
    dsimp only
    rw [length_unequipped]
    exact Nat.le_trans (length_left_le amount) (hinv ▸ hs.inv_room)
  · rw [depositItem_eq hinv hfirst hid hfound hone, hbank]
    exact hlength
  · rw [depositDestroys_eq hinv hfirst hid hfound hone, hbank, if_neg (by omega)]
    intro id hdestroyed
    by_cases hframe : it.data.isFrame ∧ it.isEquipped
    · rw [if_pos hframe, left, if_neg fun h => not_isFrame_of_stack h.1 hframe.1] at hdestroyed
      cases hend : (front ++ back).getLast? with
      | none =>
          rw [hend] at hdestroyed
          exact (Option.some.inj hdestroyed).symm.trans hid
      | some x =>
          rw [hend] at hdestroyed
          exact (Option.some.inj hdestroyed).symm.trans (hlast hframe x hend)
    · rw [if_neg hframe] at hdestroyed
      exact (Option.some.inj hdestroyed).symm

/-- A deposit of no part of a stack, into a bank that is full. -/
theorem deposit_nothing (hs : c.Sound) (hinv : c.inv = front ++ it :: back)
    (hfirst : ∀ x ∈ front, x.itemId ≠ itemId) (hid : it.itemId = itemId)
    (hfound : findItem c.inv itemId = some front.length) (hstack : itemIsStackable it.data.l0)
    (hfull : c.bank.length = 200) :
    Conserves c (depositItem l c itemId 0).2.1 (depositDestroys l c itemId 0) itemId := by
  have hbank : itemDepositToBank c.bank (banked it 0) = (c.bank, -1) := by
    rw [itemDepositToBank, if_pos hfull]
  have hnone : ∀ m : Measure, m.of (banked it 0).data it.data2L = 0 := by
    intro m
    rw [banked, if_pos hstack, m.of_setB5 hstack]
    exact Nat.mul_zero _
  have htotal : ∀ m : Measure, m.total (depositItem l c itemId 0).2.1 = m.total c := by
    intro m
    have hmoved := @Measure.inv_left front back it m 0
      fun _ => UInt8.le_iff_toNat_le.mpr (Nat.zero_le _)
    rw [depositItem_eq hinv hfirst hid hfound (.inl hstack), hbank]
    simp only [Measure.total, Measure.inv_unequipped]
    rw [hinv, ← hmoved, hnone m, Nat.add_zero]
  refine
    { quantity := fun code => htotal _
      same := fun data data2L => htotal _
      agrees := ?_, inv_room := ?_, bank_room := ?_, destroyed := ?_ }
  · rw [depositItem_eq hinv hfirst hid hfound (.inl hstack), hbank]
    exact hs.bank_agrees
  · rw [depositItem_eq hinv hfirst hid hfound (.inl hstack)]
    dsimp only
    rw [length_unequipped]
    exact Nat.le_trans (length_left_le 0) (hinv ▸ hs.inv_room)
  · rw [depositItem_eq hinv hfirst hid hfound (.inl hstack), hbank]
    exact hs.bank_room
  · rw [depositDestroys_eq hinv hfirst hid hfound (.inl hstack), hbank]
    intro id hdestroyed
    cases hdestroyed

/-- What is deposited into a bank that is full is lost. -/
theorem not_conserves_of_full (hinv : c.inv = front ++ it :: back)
    (hfirst : ∀ x ∈ front, x.itemId ≠ itemId) (hid : it.itemId = itemId)
    (hfound : findItem c.inv itemId = some front.length) {amount : UInt8}
    (hone : itemIsStackable it.data.l0 ∨ amount ≤ 1)
    (hle : itemIsStackable it.data.l0 → amount ≤ it.data.b5 ∧ amount ≠ 0)
    (hfull : c.bank.length = 200) (destroyed : Option UInt32) :
    ¬Conserves c (depositItem l c itemId amount).2.1 destroyed itemId := by
  intro hconserves
  have hbank : itemDepositToBank c.bank (banked it amount) = (c.bank, -1) := by
    rw [itemDepositToBank, if_pos hfull]
  have htotal := hconserves.quantity it.data.l0
  have hmoved := @Measure.inv_left front back it (Measure.quantity it.data.l0) amount
    fun h => (hle h).1
  rw [depositItem_eq hinv hfirst hid hfound hone, hbank] at htotal
  simp only [Measure.total, Measure.inv_unequipped] at htotal
  rw [hinv] at htotal
  have hsome : 0 < (Measure.quantity it.data.l0).of (banked it amount).data it.data2L := by
    by_cases hstack : itemIsStackable it.data.l0
    · rw [banked, if_pos hstack, Measure.of_setB5 _ hstack, Measure.unit_quantity, Nat.one_mul]
      exact Nat.pos_of_ne_zero fun h => (hle hstack).2 (UInt8.toNat_inj.mp h)
    · rw [banked, if_neg hstack, Measure.of_quantity, ItemData.quantity, if_neg hstack]
      exact Nat.one_pos
  omega

/-- Where more is deposited than the stack holds, items come from nowhere, or the stack
is lost if the bank is full. -/
theorem not_conserves_of_more (hs : c.Sound) (hinv : c.inv = front ++ it :: back)
    (hfirst : ∀ x ∈ front, x.itemId ≠ itemId) (hid : it.itemId = itemId)
    (hfound : findItem c.inv itemId = some front.length) (hstack : itemIsStackable it.data.l0)
    {amount : UInt8} (hmore : it.data.b5 < amount) (destroyed : Option UInt32) :
    ¬Conserves c (depositItem l c itemId amount).2.1 destroyed itemId := by
  intro hconserves
  have htotal := hconserves.quantity it.data.l0
  rw [depositItem_eq hinv hfirst hid hfound (.inl hstack)] at htotal
  simp only [Measure.total, Measure.inv_unequipped] at htotal
  rw [left, if_neg fun h => UInt8.lt_asymm h.2 hmore, hinv] at htotal
  simp only [Measure.inv_append, Measure.inv_cons, Measure.of_stack _ _ _ hstack,
    Measure.unit_quantity] at htotal
  have hmem : it ∈ c.inv := hinv ▸ by simp
  have hit := hs.inv_stacked it hmem hstack
  have hmore := UInt8.lt_iff_toNat_lt.mp hmore
  have hbyte := amount.toNat_lt
  have hkind : (banked it amount).data = it.data.setB5 amount := if_pos hstack
  rcases itemDepositToBank_gains c.bank (banked it amount) with
    ⟨-, hbank⟩ | ⟨-, bank', rv, -, hbank, -, -, hgain⟩
  · simp only [hbank] at htotal
    omega
  simp only [hbank] at htotal
  rcases hgain with hgain | ⟨-, x, hx, hsame, hgain⟩
  · have hgained := hgain (Measure.quantity it.data.l0)
    rw [hkind, Measure.of_setB5 _ hstack, Measure.unit_quantity] at hgained
    omega
  · have hgained := hgain (Measure.quantity it.data.l0)
    rw [hkind] at hsame
    have hxle := (hs.bank_stacked x hx (hsame ▸ hstack)).2
    rw [hkind, ItemData.l0_setB5, ItemData.b5_setB5, Measure.unit_quantity, UInt8.toNat_add]
      at hgained
    omega

/-- When a deposit conserves the items. -/
theorem depositItem_conserves_iff (hs : c.Sound) (itemId : UInt32) (amount : UInt8) :
    Conserves c (depositItem l c itemId amount).2.1 (depositDestroys l c itemId amount) itemId ↔
      DepositSafe c itemId amount := by
  rcases findItem_cases c.inv itemId with hnone | ⟨front, it, back, hinv, hid, hfirst, hfound⟩
  · have hreject : depositItem l c itemId amount = reject l c := by
      rw [depositItem, hnone]
    have hquiet : depositDestroys l c itemId amount = none := by
      rw [depositDestroys, hreject]
      rfl
    rw [hreject, hquiet]
    refine iff_of_true (Conserves.refl hs itemId) fun found hfound => ?_
    rw [hnone] at hfound
    cases hfound
  have hget : c.inv.getD front.length default = it := by
    rw [hinv, List.getD_eq_getElem?_getD, List.getElem?_append_right (Nat.le_refl _),
      Nat.sub_self]
    rfl
  have herase : c.inv.eraseIdx front.length = front ++ back := by
    rw [hinv, List.eraseIdx_append_of_length_le (Nat.le_refl _), Nat.sub_self]
    rfl
  have hsafe : DepositSafe c itemId amount ↔
      if itemIsStackable it.data.l0 then
        amount ≤ it.data.b5 ∧ (c.bank.length < 200 ∨ amount = 0)
      else
        amount ≤ 1 → c.bank.length < 200 ∧ (it.data.isFrame ∧ it.isEquipped →
          ∀ x, (front ++ back).getLast? = some x → x.itemId = itemId) := by
    constructor
    · intro h
      have hthis := h front.length hfound
      rwa [hget, herase] at hthis
    · intro h found hother
      rw [hfound] at hother
      cases hother
      rwa [hget, herase]
  have hbank_room := hs.bank_room
  rw [hsafe]
  by_cases hstack : itemIsStackable it.data.l0
  · rw [if_pos hstack]
    have hframe : ¬(it.data.isFrame ∧ it.isEquipped) := fun h => not_isFrame_of_stack hstack h.1
    by_cases hle : amount ≤ it.data.b5
    · by_cases hroom : c.bank.length < 200
      · refine iff_of_true ?_ ⟨hle, .inl hroom⟩
        exact deposit_adds hs hinv hfirst hid hfound (.inl hstack) (fun _ => hle) hroom
          fun h => absurd h hframe
      · have hfull : c.bank.length = 200 := by omega
        by_cases hzero : amount = 0
        · subst hzero
          exact iff_of_true (deposit_nothing hs hinv hfirst hid hfound hstack hfull)
            ⟨hle, .inr rfl⟩
        · refine iff_of_false ?_ fun h => h.2.elim hroom hzero
          exact not_conserves_of_full hinv hfirst hid hfound (.inl hstack)
            (fun _ => ⟨hle, hzero⟩) hfull _
    · refine iff_of_false ?_ fun h => hle h.1
      exact not_conserves_of_more hs hinv hfirst hid hfound hstack (UInt8.not_le.mp hle) _
  · rw [if_neg hstack]
    by_cases hone : amount ≤ 1
    · by_cases hroom : c.bank.length < 200
      · constructor
        · refine fun h _ => ⟨hroom, fun hframe x hx => h.destroyed x.itemId ?_⟩
          have hfree : ¬(itemDepositToBank c.bank (banked it amount)).2 < 0 := by
            rcases itemDepositToBank_gains c.bank (banked it amount) with
              ⟨hfull, -⟩ | ⟨-, bank', rv, hrv, hbank, -⟩
            · omega
            · rw [hbank]
              exact Int.not_lt.mpr hrv
          rw [depositDestroys_eq hinv hfirst hid hfound (.inr hone), if_neg hfree, if_pos hframe,
            left, if_neg fun h => hstack h.1, hx]
          rfl
        · intro h
          exact deposit_adds hs hinv hfirst hid hfound (.inr hone)
            (fun h => absurd h hstack) hroom (h hone).2
      · have hfull : c.bank.length = 200 := by omega
        refine iff_of_false ?_ fun h => hroom (h hone).1
        exact not_conserves_of_full hinv hfirst hid hfound (.inr hone)
          (fun h => absurd h hstack) hfull _
    · have hreject : depositItem l c itemId amount = reject l c := by
        rw [depositItem, hfound]
        dsimp only
        rw [hget, if_pos ⟨hstack, UInt8.not_le.mp hone⟩]
      have hquiet : depositDestroys l c itemId amount = none := by
        rw [depositDestroys, hreject]
        rfl
      rw [hreject, hquiet]
      exact iff_of_true (Conserves.refl hs itemId) fun h => absurd h hone

end Deposit

/-! ## Withdrawals -/

section Take

variable {l : Game} {c : Client} {front back : List BankItem} {it : BankItem} {itemId : UInt32}

/-- What is taken out of the bank is the first item with the id, or a part of it, or
nothing where more is asked for than the stack holds. -/
theorem itemTakeFromBank_append (hfirst : ∀ x ∈ front, x.itemId ≠ itemId)
    (hid : it.itemId = itemId) (amt : UInt8) :
    itemTakeFromBank (front ++ it :: back) itemId amt =
      if itemIsStackable it.data.l0 ∧ amt < it.data.b5 then
        some (front ++ { it with data := it.data.setB5 (it.data.b5 - amt)
                                 amount := (it.data.b5 - amt).toUInt16 } :: back,
          { it with data := it.data.setB5 amt, amount := amt.toUInt16 })
      else if itemIsStackable it.data.l0 ∧ amt > it.data.b5 then none
      else some (front ++ back, it) := by
  induction front with
  | nil =>
      rw [List.nil_append, itemTakeFromBank, if_pos hid]
      rfl
  | cons x front ih =>
      rw [List.cons_append, itemTakeFromBank, if_neg (hfirst x List.mem_cons_self),
        ih fun y hy => hfirst y (List.mem_cons_of_mem x hy)]
      split
      · rfl
      · split <;> rfl

theorem itemTakeFromBank_none {bank : List BankItem} (hnone : ∀ x ∈ bank, x.itemId ≠ itemId)
    (amt : UInt8) : itemTakeFromBank bank itemId amt = none := by
  induction bank with
  | nil => rfl
  | cons x bank ih =>
      rw [itemTakeFromBank, if_neg (hnone x List.mem_cons_self),
        ih fun y hy => hnone y (List.mem_cons_of_mem x hy)]
      rfl

/-- What is taken out of a bank, and what is left in it. -/
structure Taken (bank rest : List BankItem) (bitem : BankItem) : Prop where
  total : ∀ m : Measure, m.bank rest + m.of bitem.data bitem.data2L = m.bank bank
  length : rest.length ≤ bank.length
  small : itemIsStackable bitem.data.l0 → bitem.data.b5.toNat ≤ 99
  agrees : bitem.Agrees
  rest_stacked : ∀ x ∈ rest, x.data.Stacked
  rest_agrees : ∀ x ∈ rest, x.Agrees

/-- A part of a stack is taken. -/
theorem taken_part (hs : c.Sound) (hbank : c.bank = front ++ it :: back) {amt : UInt8}
    (hstack : itemIsStackable it.data.l0) (hless : amt < it.data.b5) :
    Taken c.bank (front ++ { it with data := it.data.setB5 (it.data.b5 - amt)
                                     amount := (it.data.b5 - amt).toUInt16 } :: back)
      { it with data := it.data.setB5 amt, amount := amt.toUInt16 } := by
  have hmem : it ∈ c.bank := hbank ▸ by simp
  have hit := hs.bank_stacked it hmem hstack
  have hlt := UInt8.lt_iff_toNat_lt.mp hless
  have hsub := UInt8.toNat_sub_of_le _ _ (UInt8.le_of_lt hless)
  have hothers : ∀ x ∈ front ++ back, x ∈ c.bank := by
    intro x hx
    rw [hbank]
    rcases List.mem_append.mp hx with hx | hx
    · exact List.mem_append_left _ hx
    · exact List.mem_append_right _ (List.mem_cons_of_mem _ hx)
  refine
    { total := fun m => ?_, length := ?_, small := fun _ => ?_, agrees := fun _ => ?_
      rest_stacked := fun x hx => ?_, rest_agrees := fun x hx => ?_ }
  · rw [hbank]
    simp only [Measure.bank_append, Measure.bank_cons, m.of_setB5 hstack, m.of_stack _ _ hstack,
      hsub]
    have hsum := Nat.mul_add (m.unit it.data.l0) (it.data.b5.toNat - amt.toNat) amt.toNat
    rw [Nat.sub_add_cancel (Nat.le_of_lt hlt)] at hsum
    omega
  · rw [hbank, List.length_append, List.length_append]
    exact Nat.le_refl _
  · rw [ItemData.b5_setB5]
    omega
  · rw [ItemData.b5_setB5]
  · rcases List.mem_append.mp hx with hx | hx
    · exact hs.bank_stacked x (hothers x (List.mem_append_left _ hx))
    rcases List.mem_cons.mp hx with rfl | hx
    · intro _
      rw [ItemData.b5_setB5, hsub]
      omega
    · exact hs.bank_stacked x (hothers x (List.mem_append_right _ hx))
  · rcases List.mem_append.mp hx with hx | hx
    · exact hs.bank_agrees x (hothers x (List.mem_append_left _ hx))
    rcases List.mem_cons.mp hx with rfl | hx
    · intro _
      rw [ItemData.b5_setB5]
    · exact hs.bank_agrees x (hothers x (List.mem_append_right _ hx))

/-- All of an item is taken. -/
theorem taken_all (hs : c.Sound) (hbank : c.bank = front ++ it :: back) :
    Taken c.bank (front ++ back) it ∧ (front ++ back).length < 200 := by
  have hmem : it ∈ c.bank := hbank ▸ by simp
  have hroom := hs.bank_room
  have hothers : ∀ x ∈ front ++ back, x ∈ c.bank := by
    intro x hx
    rw [hbank]
    rcases List.mem_append.mp hx with hx | hx
    · exact List.mem_append_left _ hx
    · exact List.mem_append_right _ (List.mem_cons_of_mem _ hx)
  have hlength : c.bank.length = (front ++ back).length + 1 := by
    rw [hbank, List.length_append, List.length_append, List.length_cons, Nat.add_assoc]
  refine ⟨?_, by omega⟩
  exact
    { total := fun m => by
        rw [hbank, Measure.bank_append, Measure.bank_append, Measure.bank_cons]
        omega
      length := by omega
      small := fun hstack => (hs.bank_stacked it hmem hstack).2
      agrees := hs.bank_agrees it hmem
      rest_stacked := fun x hx => hs.bank_stacked x (hothers x hx)
      rest_agrees := fun x hx => hs.bank_agrees x (hothers x hx) }

/-- An item of which there is none measures nothing. -/
theorem Measure.of_none (m : Measure) {d : ItemData} (hnone : d.quantity = 0) (data2L : UInt32) :
    m.of d data2L = 0 := by
  rw [ItemData.quantity] at hnone
  by_cases hstack : itemIsStackable d.l0
  · rw [if_pos hstack] at hnone
    rw [m.of_stack d data2L hstack, hnone, Nat.mul_zero]
  · rw [if_neg hstack] at hnone
    cases hnone

/-- When taking something out of the bank conserves the items: there is room for it in
the inventory, or it can be put back, or it is nothing. -/
theorem takeItem_conserves_iff_of_taken (hs : c.Sound) {rest : List BankItem} {bitem : BankItem}
    {amount : UInt8} (htake : itemTakeFromBank c.bank itemId amount = some (rest, bitem))
    (htaken : Taken c.bank rest bitem) :
    Conserves c (takeItem l c itemId amount).2.1 none itemId ↔
      (rest.length = 200 → bitem.data.quantity ≠ 0 →
        c.inv.length ≠ 30 ∧ ∀ x ∈ c.inv, x.itemId ≠ l.itemId) := by
  have hbank_room := hs.bank_room
  have hrest := htaken.length
  rw [takeItem, htake]
  dsimp only
  rcases @itemAddToInv_adds c.inv (Item.mk 1 0 0 bitem.data l.itemId bitem.data2L)
    hs.inv_stacked htaken.small with
    ⟨hwhy, hfail⟩ | ⟨hroom, hnew, inv', rv, hrv, hadd, hlength, hgain⟩
  · rw [hfail, if_pos (show (-1 : Int) < 0 by decide)]
    by_cases hfull : rest.length = 200
    · have hdeposit : itemDepositToBank rest bitem = (rest, -1) := by
        rw [itemDepositToBank, if_pos hfull]
      rw [hdeposit]
      by_cases hzero : bitem.data.quantity = 0
      · refine iff_of_true ?_ fun _ hsome => absurd hzero hsome
        have hsame : ∀ m : Measure, m.inv c.inv + m.bank rest = m.total c := by
          intro m
          rw [Measure.total, ← htaken.total m, m.of_none hzero, Nat.add_zero]
        exact
          { quantity := fun code => hsame _
            same := fun data data2L => hsame _
            agrees := htaken.rest_agrees
            inv_room := hs.inv_room
            bank_room := Nat.le_of_eq hfull
            destroyed := fun _ h => by cases h }
      · refine iff_of_false (fun hconserves => ?_) fun hroom => ?_
        · have hlost := hconserves.quantity bitem.data.l0
          have htotal := htaken.total (Measure.quantity bitem.data.l0)
          simp only [reject, Measure.total] at hlost
          rw [Measure.of_quantity] at htotal
          omega
        · rcases hwhy with hfull | ⟨x, hx, hid⟩
          · exact (hroom ‹_› hzero).1 hfull
          · exact (hroom ‹_› hzero).2 x hx hid
    · refine iff_of_true ?_ fun h => absurd h hfull
      obtain ⟨bank', rv, -, hdeposit, hlength, hagrees, hgain⟩ :=
        itemDepositToBank_adds (by omega) htaken.rest_stacked htaken.small htaken.rest_agrees
          htaken.agrees
      rw [hdeposit]
      have hsame : ∀ m : Measure, m.inv c.inv + m.bank bank' = m.total c := by
        intro m
        rw [Measure.total, hgain m, htaken.total m]
      exact
        { quantity := fun code => hsame _
          same := fun data data2L => hsame _
          agrees := hagrees
          inv_room := hs.inv_room
          bank_room := hlength
          destroyed := fun _ h => by cases h }
  · refine iff_of_true ?_ fun _ _ => ⟨hroom, hnew⟩
    rw [hadd, if_neg (Int.not_lt.mpr hrv)]
    have hinv_room := hs.inv_room
    have htotal : ∀ m : Measure, m.inv inv' + m.bank rest = m.inv c.inv + m.bank c.bank := by
      intro m
      rw [hgain m, ← htaken.total m]
      dsimp only
      omega
    exact
      { quantity := fun code => htotal _
        same := fun data data2L => htotal _
        agrees := htaken.rest_agrees
        inv_room := by
          dsimp only
          omega
        bank_room := Nat.le_trans hrest hbank_room
        destroyed := fun _ h => by cases h }

/-- When a withdrawal conserves the items. -/
theorem takeItem_conserves_iff (hs : c.Sound) (itemId : UInt32) (amount : UInt8) :
    Conserves c (takeItem l c itemId amount).2.1 none itemId ↔ TakeSafe l c itemId amount := by
  have hreject : itemTakeFromBank c.bank itemId amount = none →
      Conserves c (takeItem l c itemId amount).2.1 none itemId := by
    intro hnone
    rw [takeItem, hnone]
    exact Conserves.refl hs itemId
  cases hfind : c.bank.find? fun x => x.itemId = itemId with
  | none =>
      refine iff_of_true (hreject (itemTakeFromBank_none ?_ amount)) fun it hit => ?_
      · intro x hx hid
        exact List.find?_eq_none.mp hfind x hx (decide_eq_true hid)
      · rw [hfind] at hit
        cases hit
  | some it =>
      obtain ⟨hid, front, back, hbank, hfront⟩ := List.find?_eq_some_iff_append.mp hfind
      have hid := of_decide_eq_true hid
      have hfirst : ∀ x ∈ front, x.itemId ≠ itemId := by
        intro x hx
        simpa using hfront x hx
      have hsafe : TakeSafe l c itemId amount ↔ (itemIsStackable it.data.l0 → 0 < amount →
          amount < it.data.b5 → c.bank.length = 200 →
            c.inv.length ≠ 30 ∧ ∀ x ∈ c.inv, x.itemId ≠ l.itemId) := by
        constructor
        · exact fun h => h it hfind
        · intro h x hx
          rw [hfind] at hx
          cases hx
          exact h
      have htake := @itemTakeFromBank_append front back it itemId hfirst hid amount
      rw [← hbank] at htake
      rw [hsafe]
      by_cases hpart : itemIsStackable it.data.l0 ∧ amount < it.data.b5
      · rw [if_pos hpart] at htake
        rw [takeItem_conserves_iff_of_taken hs htake (taken_part hs hbank hpart.1 hpart.2)]
        have hlength :
            (front ++ { it with
              data := it.data.setB5 (it.data.b5 - amount)
              amount := (it.data.b5 - amount).toUInt16 } :: back).length = c.bank.length := by
          rw [hbank, List.length_append, List.length_append]
          rfl
        have hquantity : (it.data.setB5 amount).quantity = amount.toNat := by
          rw [ItemData.quantity, ItemData.l0_setB5, if_pos hpart.1, ItemData.b5_setB5]
        rw [hlength, hquantity]
        constructor
        · exact fun h _ hpos _ hfull => h hfull (Nat.ne_of_gt (UInt8.lt_iff_toNat_lt.mp hpos))
        · intro h hfull hpos
          exact h hpart.1 (UInt8.lt_iff_toNat_lt.mpr (Nat.pos_of_ne_zero hpos)) hpart.2 hfull
      · rw [if_neg hpart] at htake
        by_cases hmore : itemIsStackable it.data.l0 ∧ amount > it.data.b5
        · rw [if_pos hmore] at htake
          exact iff_of_true (hreject htake) fun hstack _ hless => absurd ⟨hstack, hless⟩ hpart
        · rw [if_neg hmore] at htake
          obtain ⟨htaken, hroom⟩ := taken_all hs hbank
          rw [takeItem_conserves_iff_of_taken hs htake htaken]
          refine iff_of_true (fun hfull => ?_) fun hstack _ hless => absurd ⟨hstack, hless⟩ hpart
          exact absurd hfull (Nat.ne_of_lt hroom)

end Take

/-! ## Bank actions -/

/-- Meseta that goes to the bank or comes from it leaves the items alone. -/
theorem meseta_conserves {c : Client} (hs : c.Sound) (l : Game) (itemId amt : UInt32) :
    Conserves c (depositMeseta l c amt).2.1 none itemId ∧
      Conserves c (takeMeseta l c amt).2.1 none itemId := by
  constructor
  · apply Conserves.of_same hs
    · rw [depositMeseta]
      split
      · rfl
      · split <;> rfl
    · rw [depositMeseta]
      split
      · rfl
      · split <;> rfl
  · apply Conserves.of_same hs
    · rw [takeMeseta]
      split
      · rfl
      · split <;> rfl
    · rw [takeMeseta]
      split
      · rfl
      · split <;> rfl

/-- When a bank action conserves the items of a client. -/
theorem handleBbBankAction_conserves_iff (l : Game) (c : Client) (pkt : BankActPkt)
    (hs : c.Sound) :
    Conserves c (handleBbBankAction l c pkt).2.1 (destroyedId l c pkt) pkt.itemId ↔
      BankSafe l c pkt := by
  have hsame := Conserves.refl hs pkt.itemId
  rw [handleBbBankAction, destroyedId]
  by_cases htype : l.type = .default
  · rw [if_pos htype, if_pos htype]
    exact iff_of_true hsame fun h => absurd htype h
  rw [if_neg htype, if_neg htype]
  by_cases hform : pkt.pktLen ≠ 0x18 ∨ pkt.size ≠ 0x04
  · rw [if_pos hform, if_pos hform]
    exact iff_of_true hsame fun _ hlen hsize => absurd hform (by simp [hlen, hsize])
  rw [if_neg hform, if_neg hform]
  obtain ⟨hlen, hsize⟩ := not_or.mp hform
  have hsafe : BankSafe l c pkt ↔ (pkt.itemId ≠ 0xFFFFFFFF →
      (pkt.action = 0 → DepositSafe c pkt.itemId pkt.itemAmount) ∧
      (pkt.action = 1 → TakeSafe l c pkt.itemId pkt.itemAmount)) :=
    ⟨fun h => h htype (not_not.mp hlen) (not_not.mp hsize), fun h _ _ _ => h⟩
  rw [hsafe]
  by_cases hzero : pkt.action = 0
  · rw [if_neg (by rw [hzero]; decide), if_pos hzero]
    by_cases hitem : pkt.itemId = 0xFFFFFFFF
    · rw [if_pos hitem, if_neg fun h => h.2 hitem]
      exact iff_of_true (meseta_conserves hs l pkt.itemId pkt.mesetaAmount).1
        fun h => absurd hitem h
    · rw [if_neg hitem, if_pos ⟨hzero, hitem⟩, depositItem_conserves_iff hs]
      refine ⟨fun h _ => ⟨fun _ => h, fun hone => ?_⟩, fun h => (h hitem).1 hzero⟩
      rw [hzero] at hone
      cases hone
  · rw [if_neg (show ¬(pkt.action = 0 ∧ pkt.itemId ≠ 0xFFFFFFFF) from fun h => hzero h.1)]
    by_cases hclose : pkt.action = 3 ∨ pkt.action = 2
    · rw [if_pos hclose]
      refine iff_of_true hsame fun _ => ⟨fun h => absurd h hzero, fun hone => ?_⟩
      rw [hone] at hclose
      exact absurd hclose (by decide)
    rw [if_neg hclose, if_neg hzero]
    by_cases hone : pkt.action = 1
    · rw [if_pos hone]
      by_cases hitem : pkt.itemId = 0xFFFFFFFF
      · rw [if_pos hitem]
        exact iff_of_true (meseta_conserves hs l pkt.itemId pkt.mesetaAmount).2
          fun h => absurd hitem h
      · rw [if_neg hitem, takeItem_conserves_iff hs]
        exact ⟨fun h _ => ⟨fun h => absurd h hzero, fun _ => h⟩, fun h => (h hitem).2 hone⟩
    · rw [if_neg hone]
      exact iff_of_true hsame fun _ => ⟨fun h => absurd h hzero, fun h => absurd h hone⟩

/-- A client that carries two monomates, and nothing else. -/
def monomates : Client where
  inv := [{ data := ⟨0x000003, 0x00000200, 0⟩, itemId := 0x00010000 }]

theorem monomates_sound : monomates.Sound where
  inv_room := by decide
  bank_room := by decide
  inv_stacked it hit _ := by
    rw [List.mem_singleton.mp hit]
    decide
  bank_stacked _ hit := by cases hit
  bank_agrees _ hit := by cases hit

/-- Of two monomates one can be deposited. -/
theorem handleBbBankAction_conserves_one :
    Conserves monomates
      (handleBbBankAction (lobbyCreateGame false) monomates
        { pktLen := 0x18, size := 0x04, itemId := 0x00010000, mesetaAmount := 0, action := 0
          itemAmount := 1 }).2.1 (some 0x00010000) 0x00010000 := by
  refine (handleBbBankAction_conserves_iff (lobbyCreateGame false) monomates _
    monomates_sound).mpr fun _ _ _ _ => ⟨fun _ found hfound => ?_, fun h => absurd h (by decide)⟩
  cases hfound
  decide

/-- Of two monomates five can be deposited as well. -/
theorem not_conserves : ¬∀ (l : Game) (c : Client) (pkt : BankActPkt), c.Sound →
    Conserves c (handleBbBankAction l c pkt).2.1 (destroyedId l c pkt) pkt.itemId := by
  intro h
  have hfive := (h (lobbyCreateGame false) monomates
    { pktLen := 0x18, size := 0x04, itemId := 0x00010000, mesetaAmount := 0, action := 0
      itemAmount := 5 } monomates_sound).quantity 0x000003
  exact absurd hfive (by decide)

end Sylverant.Ship.Bb
