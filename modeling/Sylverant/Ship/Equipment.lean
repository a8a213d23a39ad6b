/-
# What is equipped

A frame carries units, so that a client that gives up its frame has to lose the units as
well. Three handlers look for an item, clear its flag and go on to the units: dropping an
item, putting it into the bank, and taking it off. They differ in when they take the item
to be a frame, and the first one does not say what it takes it to be otherwise.
-/

import Mathlib.Data.List.Forall2
import Sylverant.Ship.Bank

namespace Sylverant.Ship.Bb

/-- `subcmd_bb_equip_t` -/
structure EquipPkt extends Header where
  itemId : UInt32

/-- `handle_bb_unequip`. -/
def handleBbUnequip (l : Game) (c : Client) (pkt : EquipPkt) : Outcome :=
  if l.type = .default then reject l c
  else if pkt.pktLen ≠ 0x14 ∨ pkt.size ≠ 0x03 ∨ pkt.clientId ≠ c.clientId then reject l c
  else
    match findItem c.inv pkt.itemId with
    | none => reject l c
    | some i =>
        let inv := c.inv.modify i Item.unequip
        let isframe := (inv.getD i default).data.isFrame
        (l, { c with inv := if isframe then unequipUnits inv else inv }, 0)

/-- The requests that unequip an item. -/
inductive UnequipRequest
  | dropItem (pkt : DropItemPkt)
  /-- A deposit of an item, not of meseta. -/
  | deposit (pkt : BankActPkt) (item : pkt.action = 0 ∧ pkt.itemId ≠ 0xFFFFFFFF)
  | unequip (pkt : EquipPkt)

/-- The id of the item that a request names. -/
def UnequipRequest.itemId : UnequipRequest → UInt32
  | .dropItem pkt => pkt.itemId
  | .deposit pkt _ => pkt.itemId
  | .unequip pkt => pkt.itemId

/-- The handlers, with what is in the variable that is not initialised. -/
def UnequipRequest.handle (garbage : Bool) (l : Game) (c : Client) : UnequipRequest → Outcome
  | .dropItem pkt => handleBbDropItem garbage l c pkt
  | .deposit pkt _ => handleBbBankAction l c pkt
  | .unequip pkt => handleBbUnequip l c pkt

/-! ## What is intended -/

/-- The item that an id names, with the items before and behind it. -/
structure Named (inv : List Item) (itemId : UInt32) (front : List Item) (it : Item)
    (back : List Item) : Prop where
  inv_eq : inv = front ++ it :: back
  id : it.itemId = itemId
  first : ∀ x ∈ front, x.itemId ≠ itemId

/-- An item is a frame that is equipped. -/
def Item.Wears (it : Item) : Prop := it.data.isFrame ∧ it.isEquipped

instance (it : Item) : Decidable it.Wears := inferInstanceAs (Decidable (_ ∧ _))

/-- What may become of another item when `it` is named: it is the same but for the flag,
and loses the flag exactly when it is a unit of a frame that was equipped. -/
structure Item.Kept (it x x' : Item) : Prop where
  same : x' = { x with flags := x'.flags }
  flags : x'.flags &&& 0xFFFFFFF7 = x.flags &&& 0xFFFFFFF7
  changed : x'.isEquipped ≠ x.isEquipped → it.Wears ∧ x.data.isUnit
  unequipped : it.Wears → x.data.isUnit → ¬x'.isEquipped

/-- An inventory holds what may become of the items other than `it`, in the same order,
and at most one item in the place of that. -/
def OthersKept (front : List Item) (it : Item) (back inv' : List Item) : Prop :=
  ∃ front' rest back', inv' = front' ++ (rest ++ back') ∧
    rest.length ≤ 1 ∧ (∀ x ∈ rest, x.itemId = it.itemId) ∧
    List.Forall₂ it.Kept front front' ∧ List.Forall₂ it.Kept back back'

/-- If a request is accepted, what it does depends on the inventory and the packet alone,
and the other items are kept. -/
def UnequipRequest.AsIntended (l : Game) (c : Client) (req : UnequipRequest) : Prop :=
  ∀ garbage, (req.handle garbage l c).2.2 = 0 →
    (∀ garbage', req.handle garbage' l c = req.handle garbage l c) ∧
    ∀ front it back, Named c.inv req.itemId front it back →
      OthersKept front it back (req.handle garbage l c).2.1.inv

/-- None of some items is a unit that is equipped. -/
def NoUnits (inv : List Item) : Prop := ∀ x ∈ inv, x.data.isUnit → ¬x.isEquipped

/-- A request that has the right form does not name an item by which units that are
equipped would be taken for those of a frame that is. -/
def UnequipRequest.Safe (l : Game) (c : Client) : UnequipRequest → Prop
  | .dropItem pkt =>
      l.type ≠ .default → pkt.pktLen = 0x20 → pkt.size = 0x06 → pkt.clientId = c.clientId →
        l.version = .bb → ∀ front it back, Named c.inv pkt.itemId front it back →
          it.Wears ∨ NoUnits (front ++ back)
  | .deposit _ _ => True
  | .unequip pkt =>
      l.type ≠ .default → pkt.pktLen = 0x14 → pkt.size = 0x03 → pkt.clientId = c.clientId →
        ∀ front it back, Named c.inv pkt.itemId front it back → it.data.isFrame →
          it.Wears ∨ NoUnits (front ++ back)

/-! ## Unequipping units -/

/-- The units are unequipped on a condition. -/
def cascade (b : Bool) (inv : List Item) : List Item := if b then unequipUnits inv else inv

@[simp] theorem cascade_false (inv : List Item) : cascade false inv = inv := rfl

@[simp] theorem cascade_true (inv : List Item) : cascade true inv = unequipUnits inv := rfl

theorem isEquipped_unequip (it : Item) : it.unequip.isEquipped = false := by
  have hclear : it.flags &&& 0xFFFFFFF7 &&& 0x00000008 = 0 := by
    rw [UInt32.and_assoc]
    exact UInt32.and_zero
  simp [Item.isEquipped, Item.unequip, hclear]

theorem flags_unequip (it : Item) :
    it.unequip.flags &&& 0xFFFFFFF7 = it.flags &&& 0xFFFFFFF7 := by
  rw [Item.unequip, UInt32.and_assoc, UInt32.and_self]

/-- What is not equipped stays as it is. -/
theorem unequip_of_not {it : Item} (h : ¬it.isEquipped) : it.unequip = it := by
  have hclear : it.flags &&& 0x00000008 = 0 := by simpa [Item.isEquipped] using h
  have hflags : it.flags &&& 0xFFFFFFF7 = it.flags := by
    calc it.flags &&& 0xFFFFFFF7
        = (it.flags &&& 0xFFFFFFF7) ||| (it.flags &&& 0x00000008) := by rw [hclear, UInt32.or_zero]
      _ = it.flags &&& (0xFFFFFFF7 ||| 0x00000008) :=
          UInt32.toBitVec_inj.1 BitVec.and_or_distrib_left.symm
      _ = it.flags := UInt32.and_neg_one
  rw [Item.unequip, hflags]

theorem NoUnits.unequip {front back : List Item} (h : NoUnits (front ++ back)) (it : Item) :
    NoUnits (front ++ it.unequip :: back) := by
  intro x hx
  rcases List.mem_append.mp hx with hx | hx
  · exact h x (List.mem_append_left _ hx)
  rcases List.mem_cons.mp hx with rfl | hx
  · intro _
    rw [isEquipped_unequip]
    exact Bool.false_ne_true
  · exact h x (List.mem_append_right _ hx)

theorem unequipUnits_of_noUnits {inv : List Item} (h : NoUnits inv) : unequipUnits inv = inv := by
  have hid : ∀ x ∈ inv, (if x.data.isUnit then x.unequip else x) = x := by
    intro x hx
    by_cases hunit : x.data.isUnit
    · rw [if_pos hunit, unequip_of_not (h x hx hunit)]
    · rw [if_neg hunit]
  rw [unequipUnits, List.map_congr_left hid, List.map_id']

/-- The same units are unequipped whatever the condition, if there are none. -/
theorem cascade_of_noUnits {inv : List Item} (h : NoUnits inv) (b : Bool) :
    cascade b inv = inv := by
  cases b with
  | false => rfl
  | true => exact unequipUnits_of_noUnits h

theorem cascade_append (b : Bool) (inv inv' : List Item) :
    cascade b (inv ++ inv') = cascade b inv ++ cascade b inv' := by
  cases b with
  | false => rfl
  | true => exact List.map_append

/-- The ids of the items stay what they are. -/
theorem itemId_cascade {b : Bool} {id : UInt32} {inv : List Item}
    (h : ∀ x ∈ inv, x.itemId = id) : ∀ x ∈ cascade b inv, x.itemId = id := by
  intro x hx
  rw [cascade] at hx
  split at hx
  · obtain ⟨y, hy, rfl⟩ := List.mem_map.mp hx
    have hsame := h y hy
    split
    · exact hsame
    · exact hsame
  · exact h x hx

theorem length_cascade (b : Bool) (inv : List Item) : (cascade b inv).length = inv.length :=
  length_unequipped b inv

/-- An item may stay as it is, unless it is a unit of a frame that was equipped. -/
theorem Item.kept_self_iff (it x : Item) :
    it.Kept x x ↔ (it.Wears → x.data.isUnit → ¬x.isEquipped) :=
  ⟨fun h => h.unequipped, fun h => ⟨rfl, rfl, fun hne => absurd rfl hne, h⟩⟩

/-- An item may be unequipped if it is a unit of a frame that was equipped. -/
theorem Item.kept_unequip_iff {it x : Item} (hunit : x.data.isUnit) :
    it.Kept x x.unequip ↔ it.Wears ∨ ¬x.isEquipped := by
  constructor
  · intro h
    by_cases hequipped : x.isEquipped
    · refine .inl (h.changed ?_).1
      rw [isEquipped_unequip, hequipped]
      exact Bool.false_ne_true
    · exact .inr hequipped
  · intro h
    refine ⟨rfl, flags_unequip x, fun hne => ⟨h.resolve_right fun hnot => hne ?_, hunit⟩,
      fun _ _ => by simp [isEquipped_unequip]⟩
    rw [unequip_of_not hnot]

/-- Unequipping the units on a condition keeps the other items exactly if the condition is
that the item named is a frame that is equipped, or if there are no units to unequip. -/
theorem forall₂_kept_cascade_iff (it : Item) (b : Bool) (inv : List Item) :
    List.Forall₂ it.Kept inv (cascade b inv) ↔ ((b = true ↔ it.Wears) ∨ NoUnits inv) := by
  cases b with
  | false =>
      rw [cascade_false, List.forall₂_same]
      simp only [Item.kept_self_iff, Bool.false_eq_true, false_iff]
      constructor
      · intro h
        by_cases hwears : it.Wears
        · exact .inr fun x hx => h x hx hwears
        · exact .inl hwears
      · rintro (hnot | hnone) x hx hwears
        · exact absurd hwears hnot
        · exact hnone x hx
  | true =>
      rw [cascade_true, unequipUnits, List.forall₂_map_right_iff, List.forall₂_same]
      have hone : ∀ x, it.Kept x (if x.data.isUnit then x.unequip else x) ↔
          (x.data.isUnit → it.Wears ∨ ¬x.isEquipped) := by
        intro x
        by_cases hunit : x.data.isUnit
        · rw [if_pos hunit, Item.kept_unequip_iff hunit]
          exact ⟨fun h _ => h, fun h => h hunit⟩
        · rw [if_neg hunit, Item.kept_self_iff]
          exact iff_of_true (fun _ h => absurd h hunit) fun h => absurd h hunit
      simp only [hone, true_iff]
      constructor
      · intro h
        by_cases hwears : it.Wears
        · exact .inl hwears
        · exact .inr fun x hx hunit => (h x hx hunit).resolve_left hwears
      · rintro (hwears | hnone) x hx hunit
        · exact .inl hwears
        · exact .inr (hnone x hx hunit)

/-- What the handlers leave of an inventory, by what they take the item to be. -/
theorem othersKept_cascade_iff {front back rest : List Item} {it : Item} (b : Bool)
    (hone : rest.length ≤ 1) (hid : ∀ x ∈ rest, x.itemId = it.itemId) :
    OthersKept front it back (cascade b front ++ (rest ++ cascade b back)) ↔
      ((b = true ↔ it.Wears) ∨ NoUnits (front ++ back)) := by
  constructor
  · rintro ⟨front', rest', back', heq, -, -, hfront, hback⟩
    -- What became of the items before and behind is told apart by how many they are.
    have hlength : (cascade b front).length = front'.length := by
      rw [length_cascade, hfront.length_eq]
    obtain ⟨rfl, hrest⟩ := List.append_inj heq hlength
    have hbehind : (cascade b back).length = back'.length := by
      rw [length_cascade, hback.length_eq]
    obtain ⟨-, rfl⟩ := List.append_inj' hrest hbehind
    have hall : List.Forall₂ it.Kept (front ++ back) (cascade b (front ++ back)) := by
      rw [cascade_append]
      exact List.rel_append hfront hback
    exact (forall₂_kept_cascade_iff it b _).mp hall
  · intro h
    refine ⟨_, rest, _, rfl, hone, hid, (forall₂_kept_cascade_iff it b _).mpr ?_,
      (forall₂_kept_cascade_iff it b _).mpr ?_⟩
    · exact h.imp_right fun hnone x hx => hnone x (List.mem_append_left _ hx)
    · exact h.imp_right fun hnone x hx => hnone x (List.mem_append_right _ hx)

/-- What is left when the item itself is gone. -/
theorem othersKept_gone_iff (front : List Item) (it : Item) (back : List Item) (b : Bool) :
    OthersKept front it back (cascade b front ++ cascade b back) ↔
      ((b = true ↔ it.Wears) ∨ NoUnits (front ++ back)) := by
  have hnone : ([] : List Item).length ≤ 1 := Nat.zero_le 1
  exact othersKept_cascade_iff b hnone nofun

/-! ## The handlers -/

section Handlers

variable {l : Game} {c : Client} {itemId : UInt32} {front back : List Item} {it : Item}

/-- The item that is named is the one that is found. -/
theorem Named.found {inv : List Item} (h : Named inv itemId front it back) :
    findItem inv itemId = some front.length := by
  have hnone : front.findIdx? (fun x => x.itemId = itemId) = none :=
    List.findIdx?_eq_none_iff.mpr fun x hx => decide_eq_false (h.first x hx)
  rw [findItem, h.inv_eq, List.findIdx?_append, hnone, List.findIdx?_cons,
    if_pos (decide_eq_true h.id)]
  simp

/-- No item has an id, or one of them is named by it. -/
theorem findItem_named (inv : List Item) (itemId : UInt32) :
    findItem inv itemId = none ∧ (∀ front it back, ¬Named inv itemId front it back) ∨
    ∃ front it back, Named inv itemId front it back := by
  rcases findItem_cases inv itemId with hnone | ⟨front, it, back, heq, hid, hfirst, -⟩
  · refine .inl ⟨hnone, fun front it back h => ?_⟩
    exact nomatch hnone.symm.trans h.found
  · exact .inr ⟨front, it, back, heq, hid, hfirst⟩

/-- An id names one item. -/
theorem Named.unique {inv : List Item} {front' back' : List Item} {it' : Item}
    (h : Named inv itemId front it back) (h' : Named inv itemId front' it' back') :
    front' = front ∧ it' = it ∧ back' = back := by
  have hlength : front'.length = front.length :=
    Option.some.inj (h'.found.symm.trans h.found)
  obtain ⟨hfront, hcons⟩ := List.append_inj (h'.inv_eq.symm.trans h.inv_eq) hlength
  exact ⟨hfront, List.cons.inj hcons⟩

theorem Named.getD {inv : List Item} (h : Named inv itemId front it back) :
    inv.getD front.length default = it := by
  rw [h.inv_eq, List.getD_eq_getElem?_getD, List.getElem?_append_right (Nat.le_refl _),
    Nat.sub_self]
  rfl

/-- The flag of the item that is named is cleared. -/
theorem Named.modify {inv : List Item} (h : Named inv itemId front it back) :
    inv.modify front.length Item.unequip = front ++ it.unequip :: back := by
  have hclear : ∀ front : List Item, (front ++ it :: back).modify front.length Item.unequip =
      front ++ it.unequip :: back := by
    intro front
    induction front with
    | nil => rfl
    | cons x front ih =>
        rw [List.cons_append, List.length_cons, List.modify_succ_cons, ih]
        rfl
  rw [h.inv_eq, hclear]

/-- The item is still named by its id when its flag is cleared. -/
theorem Named.unequip {inv : List Item} (h : Named inv itemId front it back) :
    Named (front ++ it.unequip :: back) itemId front it.unequip back :=
  ⟨rfl, h.id, h.first⟩

/-- What an item is named by stays the same when units are unequipped. -/
theorem Named.unequipped {inv : List Item} (h : Named inv itemId front it back) (b : Bool) :
    Named (cascade b inv) itemId (cascade b front)
      (if b ∧ it.data.isUnit then it.unequip else it) (cascade b back) := by
  cases b with
  | false => simpa using h
  | true =>
      have hid : ∀ x : Item, (if x.data.isUnit then x.unequip else x).itemId = x.itemId := by
        intro x
        split <;> rfl
      refine ⟨?_, ?_, ?_⟩
      · rw [h.inv_eq, cascade_true, unequipUnits, List.map_append, List.map_cons]
        simp [unequipUnits]
      · simp only [true_and]
        rw [hid, h.id]
      · intro x hx
        rw [cascade_true, unequipUnits] at hx
        obtain ⟨y, hy, rfl⟩ := List.mem_map.mp hx
        rw [hid]
        exact h.first y hy

/-- All of an item is taken out. -/
theorem Named.remove {inv : List Item} (h : Named inv itemId front it back) :
    itemRemoveFromInv inv itemId 0xFFFFFFFF = (front ++ back, 1) := by
  rw [h.inv_eq, itemRemoveFromInv_append h.first h.id, if_neg fun hpart => hpart.2.1 rfl]

/-- Dropping an item takes it out, and unequips the units on a condition. -/
theorem handleBbDropItem_eq {pkt : DropItemPkt} (htype : l.type ≠ .default)
    (hlen : pkt.pktLen = 0x20) (hsize : pkt.size = 0x06) (hclient : pkt.clientId = c.clientId)
    (hversion : l.version = .bb) (h : Named c.inv pkt.itemId front it back) (garbage : Bool) :
    ∃ inv, handleBbDropItem garbage l c pkt =
      ({ l with itemQueue := inv.getD front.length default :: l.itemQueue },
        { c with
          inv := (cascade (it.Wears ∨ garbage) front ++ cascade (it.Wears ∨ garbage) back) },
        0) ∧ inv = cascade (it.Wears ∨ garbage) (front ++ it.unequip :: back) := by
  have hinv : (if (it.data.isFrame ∧ it.isEquipped) ∨ garbage then
        unequipUnits (c.inv.modify front.length Item.unequip)
      else c.inv.modify front.length Item.unequip) =
      cascade (it.Wears ∨ garbage) (front ++ it.unequip :: back) := by
    rw [h.modify, cascade]
    simp only [decide_eq_true_eq]
    rfl
  have hremove := (h.unequip.unequipped (it.Wears ∨ garbage)).remove
  refine ⟨_, ?_, rfl⟩
  unfold handleBbDropItem
  rw [if_neg htype, if_neg (by simp [hlen, hsize, hclient]), h.found]
  simp only [h.getD]
  rw [hinv, lobbyAddItem2Locked, if_neg (not_not.mpr hversion)]
  simp only [hremove]
  rw [if_neg (by decide)]

/-- A drop that is accepted has the right form, and names an item. -/
theorem handleBbDropItem_accepted {pkt : DropItemPkt} {garbage : Bool}
    (h : (handleBbDropItem garbage l c pkt).2.2 = 0) :
    l.type ≠ .default ∧ pkt.pktLen = 0x20 ∧ pkt.size = 0x06 ∧ pkt.clientId = c.clientId ∧
      l.version = .bb ∧ ∃ front it back, Named c.inv pkt.itemId front it back := by
  unfold handleBbDropItem at h
  by_cases htype : l.type = .default
  · rw [if_pos htype] at h
    exact nomatch h
  rw [if_neg htype] at h
  by_cases hform : pkt.pktLen ≠ 0x20 ∨ pkt.size ≠ 0x06 ∨ pkt.clientId ≠ c.clientId
  · rw [if_pos hform] at h
    exact nomatch h
  rw [if_neg hform] at h
  rcases findItem_named c.inv pkt.itemId with ⟨hnone, -⟩ | ⟨front, it, back, hnamed⟩
  · rw [hnone] at h
    exact nomatch h
  have hversion : l.version = .bb := by
    by_contra hother
    simp only [hnamed.found, lobbyAddItem2Locked, ne_eq, hother, not_false_eq_true, if_true] at h
    exact nomatch h
  obtain ⟨hlen, hrest⟩ := not_or.mp hform
  obtain ⟨hsize, hclient⟩ := not_or.mp hrest
  exact ⟨htype, not_not.mp hlen, not_not.mp hsize, not_not.mp hclient, hversion, front, it, back,
    hnamed⟩

/-- Taking off an item unequips the units if it is a frame. -/
theorem handleBbUnequip_eq {pkt : EquipPkt} (htype : l.type ≠ .default)
    (hlen : pkt.pktLen = 0x14) (hsize : pkt.size = 0x03) (hclient : pkt.clientId = c.clientId)
    (h : Named c.inv pkt.itemId front it back) :
    ∃ rest, rest.itemId = it.itemId ∧ handleBbUnequip l c pkt =
      (l, { c with
        inv := (cascade it.data.isFrame front ++ ([rest] ++ cascade it.data.isFrame back)) },
        0) := by
  have hnamed := h.unequip.unequipped it.data.isFrame
  have hget : (c.inv.modify front.length Item.unequip).getD front.length default = it.unequip := by
    rw [h.modify, h.unequip.getD]
  refine ⟨_, hnamed.id.trans h.id.symm, ?_⟩
  unfold handleBbUnequip
  rw [if_neg htype, if_neg (by simp [hlen, hsize, hclient]), h.found]
  simp only [hget]
  rw [h.modify, List.singleton_append, ← hnamed.inv_eq]
  rfl

/-- A request to take off an item that is accepted has the right form, and names an item. -/
theorem handleBbUnequip_accepted {pkt : EquipPkt} (h : (handleBbUnequip l c pkt).2.2 = 0) :
    l.type ≠ .default ∧ pkt.pktLen = 0x14 ∧ pkt.size = 0x03 ∧ pkt.clientId = c.clientId ∧
      ∃ front it back, Named c.inv pkt.itemId front it back := by
  unfold handleBbUnequip at h
  by_cases htype : l.type = .default
  · rw [if_pos htype] at h
    exact nomatch h
  rw [if_neg htype] at h
  by_cases hform : pkt.pktLen ≠ 0x14 ∨ pkt.size ≠ 0x03 ∨ pkt.clientId ≠ c.clientId
  · rw [if_pos hform] at h
    exact nomatch h
  rw [if_neg hform] at h
  rcases findItem_named c.inv pkt.itemId with ⟨hnone, -⟩ | hnamed
  · rw [hnone] at h
    exact nomatch h
  obtain ⟨hlen, hrest⟩ := not_or.mp hform
  obtain ⟨hsize, hclient⟩ := not_or.mp hrest
  exact ⟨htype, not_not.mp hlen, not_not.mp hsize, not_not.mp hclient, hnamed⟩

/-- A deposit that is accepted leaves at most a part of the item, and unequips the units of
a frame that is equipped. -/
theorem depositItem_left {amount : UInt8} (h : (depositItem l c itemId amount).2.2 = 0) :
    ∃ front it back rest, Named c.inv itemId front it back ∧ rest.length ≤ 1 ∧
      (∀ x ∈ rest, x.itemId = it.itemId) ∧
      (depositItem l c itemId amount).2.1.inv =
        cascade it.Wears front ++ (rest ++ cascade it.Wears back) := by
  rcases findItem_named c.inv itemId with ⟨hnone, -⟩ | ⟨front, it, back, hnamed⟩
  · rw [depositItem, hnone] at h
    cases h
  by_cases hone : itemIsStackable it.data.l0 ∨ amount ≤ 1
  · have hleft : ∃ rest, left front it back amount = front ++ (rest ++ back) ∧ rest.length ≤ 1 ∧
        ∀ x ∈ rest, x.itemId = it.itemId := by
      rw [left]
      split
      · exact ⟨[_], rfl, Nat.le_refl 1, fun x hx => List.mem_singleton.mp hx ▸ rfl⟩
      · exact ⟨[], rfl, Nat.zero_le 1, fun x hx => absurd hx List.not_mem_nil⟩
    obtain ⟨rest, hleft, hlength, hid⟩ := hleft
    refine ⟨front, it, back, cascade it.Wears rest, hnamed, ?_, itemId_cascade hid, ?_⟩
    · rw [length_cascade]
      exact hlength
    · rw [depositItem_eq hnamed.inv_eq hnamed.first hnamed.id hnamed.found hone, hleft,
        ← cascade_append, ← cascade_append, cascade]
      simp only [decide_eq_true_eq]
      rfl
  · -- More than one of an item that does not stack is rejected.
    have hmore : ¬itemIsStackable it.data.l0 ∧ amount > 1 :=
      ⟨fun hstack => hone (.inl hstack), UInt8.not_le.mp fun hle => hone (.inr hle)⟩
    rw [depositItem, hnamed.found] at h
    simp only [hnamed.getD] at h
    rw [if_pos hmore] at h
    cases h

/-! ## When the handlers do what is intended -/

theorem dropItem_asIntended_iff (l : Game) (c : Client) (pkt : DropItemPkt) :
    (UnequipRequest.dropItem pkt).AsIntended l c ↔ (UnequipRequest.dropItem pkt).Safe l c := by
  constructor
  · intro h htype hlen hsize hclient hversion front it back hnamed
    obtain ⟨inv, heq, -⟩ := handleBbDropItem_eq htype hlen hsize hclient hversion hnamed true
    have hkept := (h true (by rw [UnequipRequest.handle, heq])).2 front it back hnamed
    rw [UnequipRequest.handle, heq] at hkept
    -- Where the variable happens to be set, the units are unequipped in any case.
    rcases (othersKept_gone_iff _ _ _ _).mp hkept with hb | hnone
    · exact .inl (hb.mp (decide_eq_true (.inr rfl)))
    · exact .inr hnone
  · intro hsafe garbage haccepted
    obtain ⟨htype, hlen, hsize, hclient, hversion, front, it, back, hnamed⟩ :=
      handleBbDropItem_accepted haccepted
    have hcond := hsafe htype hlen hsize hclient hversion front it back hnamed
    have hdrop := handleBbDropItem_eq htype hlen hsize hclient hversion hnamed
    obtain ⟨inv, heq, hinv⟩ := hdrop garbage
    constructor
    · intro garbage'
      obtain ⟨inv', heq', hinv'⟩ := hdrop garbage'
      rw [UnequipRequest.handle, UnequipRequest.handle, heq, heq', hinv, hinv', ← cascade_append,
        ← cascade_append]
      rcases hcond with hwears | hnone
      · rw [decide_eq_true (.inl hwears : it.Wears ∨ garbage),
          decide_eq_true (.inl hwears : it.Wears ∨ garbage')]
      · have hall := hnone.unequip it
        rw [cascade_of_noUnits hall, cascade_of_noUnits hall, cascade_of_noUnits hnone,
          cascade_of_noUnits hnone]
    · intro front' it' back' hnamed'
      obtain ⟨rfl, rfl, rfl⟩ := hnamed.unique hnamed'
      rw [UnequipRequest.handle, heq]
      refine (othersKept_gone_iff _ _ _ _).mpr ?_
      refine hcond.imp_left fun hwears => ?_
      exact iff_of_true (decide_eq_true (.inl hwears)) hwears

theorem unequip_asIntended_iff (l : Game) (c : Client) (pkt : EquipPkt) :
    (UnequipRequest.unequip pkt).AsIntended l c ↔ (UnequipRequest.unequip pkt).Safe l c := by
  have hkept_iff : ∀ (front : List Item) (it : Item) (back : List Item) (rest : Item),
      rest.itemId = it.itemId →
      (OthersKept front it back
          (cascade it.data.isFrame front ++ ([rest] ++ cascade it.data.isFrame back)) ↔
        (it.data.isFrame → it.Wears ∨ NoUnits (front ++ back))) := by
    intro front it back rest hid
    have hids : ∀ x ∈ [rest], x.itemId = it.itemId := by
      intro x hx
      rw [List.mem_singleton.mp hx, hid]
    have hone : [rest].length ≤ 1 := Nat.le_refl 1
    rw [othersKept_cascade_iff _ hone hids]
    constructor
    · exact fun h hframe => h.imp_left fun hb => hb.mp hframe
    · intro h
      by_cases hframe : it.data.isFrame = true
      · exact (h hframe).imp_left fun hwears => iff_of_true hframe hwears
      · exact .inl (iff_of_false hframe fun hwears => hframe hwears.1)
  constructor
  · intro h htype hlen hsize hclient front it back hnamed
    obtain ⟨rest, hid, heq⟩ := handleBbUnequip_eq htype hlen hsize hclient hnamed
    have hkept := (h true (by rw [UnequipRequest.handle, heq])).2 front it back hnamed
    rw [UnequipRequest.handle, heq] at hkept
    exact (hkept_iff front it back rest hid).mp hkept
  · intro hsafe garbage haccepted
    refine ⟨fun _ => rfl, fun front it back hnamed => ?_⟩
    obtain ⟨htype, hlen, hsize, hclient, -⟩ := handleBbUnequip_accepted haccepted
    obtain ⟨rest, hid, heq⟩ := handleBbUnequip_eq htype hlen hsize hclient hnamed
    rw [UnequipRequest.handle, heq]
    exact (hkept_iff front it back rest hid).mpr
      (hsafe htype hlen hsize hclient front it back hnamed)

theorem deposit_asIntended (l : Game) (c : Client) (pkt : BankActPkt)
    (item : pkt.action = 0 ∧ pkt.itemId ≠ 0xFFFFFFFF) :
    (UnequipRequest.deposit pkt item).AsIntended l c := by
  intro garbage haccepted
  refine ⟨fun _ => rfl, fun front it back hnamed => ?_⟩
  have hitem : handleBbBankAction l c pkt = depositItem l c pkt.itemId pkt.itemAmount := by
    rw [UnequipRequest.handle, handleBbBankAction] at haccepted
    rw [handleBbBankAction]
    by_cases htype : l.type = .default
    · rw [if_pos htype] at haccepted
      cases haccepted
    rw [if_neg htype] at haccepted ⊢
    by_cases hform : pkt.pktLen ≠ 0x18 ∨ pkt.size ≠ 0x04
    · rw [if_pos hform] at haccepted
      cases haccepted
    rw [if_neg hform, if_neg (by simp [item.1]), if_pos item.1, if_neg item.2]
  rw [UnequipRequest.handle, hitem] at haccepted ⊢
  obtain ⟨front', it', back', rest, hnamed', hone, hid, heq⟩ := depositItem_left haccepted
  obtain ⟨rfl, rfl, rfl⟩ := hnamed.unique hnamed'
  rw [heq]
  exact (othersKept_cascade_iff _ hone hid).mpr (.inl decide_eq_true_iff)

end Handlers

/-- The handlers change the flags as intended exactly for requests that are safe. -/
theorem asIntended_iff_safe (l : Game) (c : Client) (req : UnequipRequest) :
    req.AsIntended l c ↔ req.Safe l c := by
  cases req with
  | dropItem pkt => exact dropItem_asIntended_iff l c pkt
  | deposit pkt item => exact iff_of_true (deposit_asIntended l c pkt item) trivial
  | unequip pkt => exact unequip_asIntended_iff l c pkt

/-- A frame that is not equipped. -/
def spareFrame : Item where
  data := ⟨0x00000101, 0, 0⟩
  itemId := 0x00010000

/-- A unit that is equipped. -/
def wornUnit : Item where
  data := ⟨0x00000301, 0, 0⟩
  itemId := 0x00010001
  flags := 0x00000008

/-- A client with these two. -/
def unitOnly : Client where
  inv := [spareFrame, wornUnit]

theorem unitOnly_named : Named unitOnly.inv 0x00010000 [] spareFrame [wornUnit] := ⟨rfl, rfl, nofun⟩

theorem unitOnly_not_safe : ¬(spareFrame.Wears ∨ NoUnits ([] ++ [wornUnit])) := by
  rintro (hwears | hnone)
  · exact absurd hwears (by decide)
  · exact hnone wornUnit List.mem_cons_self (by decide) (by decide)

/-- The spare frame takes the unit along when it is taken off, and, depending on what is on
the stack, when it is dropped. -/
theorem not_asIntended :
    ¬(UnequipRequest.dropItem { pktLen := 0x20, size := 0x06, itemId := 0x00010000 }).AsIntended
      (lobbyCreateGame false) unitOnly ∧
    ¬(UnequipRequest.unequip { pktLen := 0x14, size := 0x03, itemId := 0x00010000 }).AsIntended
      (lobbyCreateGame false) unitOnly := by
  rw [dropItem_asIntended_iff, unequip_asIntended_iff]
  constructor
  · intro hsafe
    exact unitOnly_not_safe (hsafe (by decide) rfl rfl rfl rfl _ _ _ unitOnly_named)
  · intro hsafe
    exact unitOnly_not_safe (hsafe (by decide) rfl rfl rfl _ _ _ unitOnly_named (by decide))

end Sylverant.Ship.Bb
