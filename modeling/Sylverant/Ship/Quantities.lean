/-
# Counting items

What is counted of the items that a character has: how many there are of a kind, in
the inventory and in the bank. A stack counts as many as it holds. Each of the
functions of `items.c` is described by what it does to a measure of this sort.
-/

import Mathlib.Algebra.GroupWithZero.Nat
import Sylverant.Ship.BbGame

namespace Sylverant.Ship.Bb

/-! ## The byte for the quantity -/

@[simp] theorem ItemData.l0_setB5 (d : ItemData) (n : UInt8) : (d.setB5 n).l0 = d.l0 := rfl

/-- The bits of a word that the assignment to its second byte keeps. -/
theorem mask_getLsbD : ∀ i < 32, (0xFFFF00FF#32).getLsbD i = decide (i < 8 ∨ 16 ≤ i) := by
  decide

@[simp] theorem ItemData.b5_setB5 (d : ItemData) (n : UInt8) : (d.setB5 n).b5 = n := by
  apply UInt8.eq_of_toBitVec_eq
  apply BitVec.eq_of_getLsbD_eq
  intro i hi
  have hmask := mask_getLsbD (8 + i) (by omega)
  rw [BitVec.getLsbD_eq_getElem (by omega), decide_eq_false (by omega)] at hmask
  simp [ItemData.b5, ItemData.setB5, hmask, hi, show 8 + i < 32 by omega]

@[simp] theorem ItemData.setB5_setB5 (d : ItemData) (m n : UInt8) :
    (d.setB5 m).setB5 n = d.setB5 n := by
  rw [ItemData.setB5, ItemData.setB5, ItemData.setB5]
  congr 1
  apply UInt32.eq_of_toBitVec_eq
  apply BitVec.eq_of_getLsbD_eq
  intro i hi
  have hmask := mask_getLsbD i hi
  rw [BitVec.getLsbD_eq_getElem hi] at hmask
  by_cases hlow : i < 8
  · simp [hi, hmask, hlow]
  by_cases hhigh : 16 ≤ i
  · simp [hi, hmask, hlow, hhigh, BitVec.getLsbD_of_ge m.toBitVec (i - 8) (by omega)]
  · simp [hi, hmask, hlow, hhigh]

/-- An item with the quantity that it has. -/
@[simp] theorem ItemData.setB5_b5 (d : ItemData) : d.setB5 d.b5 = d := by
  rw [ItemData.setB5, ItemData.b5]
  congr 1
  apply UInt32.eq_of_toBitVec_eq
  apply BitVec.eq_of_getLsbD_eq
  intro i hi
  have hmask := mask_getLsbD i hi
  rw [BitVec.getLsbD_eq_getElem hi] at hmask
  by_cases hlow : i < 8
  · simp [hi, hmask, hlow]
  by_cases hhigh : 16 ≤ i
  · simp [hi, hmask, hlow, hhigh, -UInt32.toUInt32_toUInt8, show ¬i - 8 < 8 by omega]
  · have hplace : 8 + (i - 8) = i := by omega
    simp [hi, hmask, hlow, hhigh, -UInt32.toUInt32_toUInt8, hplace, show i - 8 < 8 by omega]

/-! ## Measures -/

/-- How many an item stands for. -/
def ItemData.quantity (d : ItemData) : Nat := if itemIsStackable d.l0 then d.b5.toNat else 1

/-- Something that is counted of items. Those in a stack all count the same. -/
structure Measure where
  of : ItemData → UInt32 → Nat
  unit : UInt32 → Nat
  of_stack : ∀ d data2L, itemIsStackable d.l0 → of d data2L = unit d.l0 * d.b5.toNat

/-- The quantity of the items with a code. -/
def Measure.quantity (code : UInt32) : Measure where
  of d _ := if d.l0 = code then d.quantity else 0
  unit l0 := if l0 = code then 1 else 0
  of_stack d _ hstack := by
    rw [ItemData.quantity, if_pos hstack]
    split <;> omega

@[simp] theorem Measure.unit_quantity (code : UInt32) : (Measure.quantity code).unit code = 1 :=
  if_pos rfl

@[simp] theorem Measure.of_quantity (d : ItemData) (data2L : UInt32) :
    (Measure.quantity d.l0).of d data2L = d.quantity :=
  if_pos rfl

/-- The number of the items that do not stack and have just this data. -/
def Measure.same (data : ItemData) (data2L : UInt32) : Measure where
  of d d2 := if d = data ∧ d2 = data2L ∧ ¬itemIsStackable d.l0 then 1 else 0
  unit _ := 0
  of_stack d _ hstack := by
    rw [if_neg fun h => h.2.2 hstack, Nat.zero_mul]

namespace Measure

variable (m : Measure)

/-- The measure of an inventory. -/
def inv (inv : List Item) : Nat := (inv.map fun it => m.of it.data it.data2L).sum

/-- The measure of a bank. -/
def bank (bank : List BankItem) : Nat := (bank.map fun it => m.of it.data it.data2L).sum

/-- A part of a stack. -/
theorem of_setB5 {d : ItemData} (hstack : itemIsStackable d.l0) (n : UInt8) (data2L : UInt32) :
    m.of (d.setB5 n) data2L = m.unit d.l0 * n.toNat := by
  rw [m.of_stack (d.setB5 n) data2L hstack, ItemData.l0_setB5, ItemData.b5_setB5]

@[simp] theorem inv_append (inv inv' : List Item) :
    m.inv (inv ++ inv') = m.inv inv + m.inv inv' := by
  rw [Measure.inv, List.map_append, List.sum_append]
  rfl

@[simp] theorem inv_cons (it : Item) (inv : List Item) :
    m.inv (it :: inv) = m.of it.data it.data2L + m.inv inv := by
  rw [Measure.inv, List.map_cons, List.sum_cons]
  rfl

@[simp] theorem inv_nil : m.inv [] = 0 := rfl

@[simp] theorem bank_append (bank bank' : List BankItem) :
    m.bank (bank ++ bank') = m.bank bank + m.bank bank' := by
  rw [Measure.bank, List.map_append, List.sum_append]
  rfl

@[simp] theorem bank_cons (it : BankItem) (bank : List BankItem) :
    m.bank (it :: bank) = m.of it.data it.data2L + m.bank bank := by
  rw [Measure.bank, List.map_cons, List.sum_cons]
  rfl

@[simp] theorem bank_nil : m.bank [] = 0 := rfl

/-- What is equipped is not counted. -/
@[simp] theorem inv_unequipUnits (inv : List Item) : m.inv (unequipUnits inv) = m.inv inv := by
  rw [Measure.inv, unequipUnits, List.map_map]
  refine congrArg List.sum (List.map_congr_left fun it _ => ?_)
  by_cases hunit : it.data.isUnit
  · rw [Function.comp, if_pos hunit]
    rfl
  · rw [Function.comp, if_neg hunit]

end Measure

/-! ## Taking items out of an inventory -/

section Inventory

variable {front back : List Item} {it : Item} {itemId amt : UInt32}

/-- An item is found where it stands first. -/
theorem findItem_cases (inv : List Item) (itemId : UInt32) :
    findItem inv itemId = none ∨
    ∃ front it back, inv = front ++ it :: back ∧ it.itemId = itemId ∧
      (∀ x ∈ front, x.itemId ≠ itemId) ∧ findItem inv itemId = some front.length := by
  cases hfound : findItem inv itemId with
  | none => exact .inl rfl
  | some found =>
      obtain ⟨hlt, hid, hfirst⟩ := List.findIdx?_eq_some_iff_getElem.mp hfound
      refine .inr ⟨inv.take found, inv[found], inv.drop (found + 1), ?_,
        of_decide_eq_true hid, ?_, ?_⟩
      · rw [List.getElem_cons_drop, List.take_append_drop]
      · intro x hx
        obtain ⟨j, hj, rfl⟩ := List.mem_iff_getElem.mp hx
        rw [List.length_take] at hj
        rw [List.getElem_take]
        exact fun h => hfirst j (by omega) (decide_eq_true h)
      · rw [List.length_take, Nat.min_eq_left (Nat.le_of_lt hlt)]

/-- What is left of an inventory is a part of the stack, where it holds more than is
asked for, or all but the item. -/
theorem itemRemoveFromInv_append (hfirst : ∀ x ∈ front, x.itemId ≠ itemId)
    (hid : it.itemId = itemId) :
    itemRemoveFromInv (front ++ it :: back) itemId amt =
      if itemIsStackable it.data.l0 ∧ amt ≠ 0xFFFFFFFF ∧ amt < it.data.b5.toUInt32 then
        (front ++ { it with data := it.data.setB5 (it.data.b5.toUInt32 - amt).toUInt8 } :: back, 0)
      else (front ++ back, 1) := by
  induction front with
  | nil =>
      rw [List.nil_append, itemRemoveFromInv, if_pos hid]
      rfl
  | cons x front ih =>
      rw [List.cons_append, itemRemoveFromInv, if_neg (hfirst x List.mem_cons_self),
        ih fun y hy => hfirst y (List.mem_cons_of_mem x hy)]
      split <;> rfl

end Inventory

/-! ## Adding to a stack -/

/-- The stack that an item is added to is the first of its kind. -/
theorem addToStack_cases (it : Item) (inv : List Item) :
    addToStack it inv = none ∨
    ∃ front x back, inv = front ++ x :: back ∧ x.data.l0 = it.data.l0 ∧
      addToStack it inv =
        some (front ++ { x with data := x.data.setB5 (x.data.b5 + it.data.b5) } :: back) := by
  induction inv with
  | nil => exact .inl rfl
  | cons y inv ih =>
      rw [addToStack]
      by_cases hkind : y.data.l0 = it.data.l0
      · rw [if_pos hkind]
        exact .inr ⟨[], y, inv, rfl, hkind, rfl⟩
      · rw [if_neg hkind]
        rcases ih with hnone | ⟨front, x, back, rfl, hx, hsome⟩
        · left
          rw [hnone]
          rfl
        · refine .inr ⟨y :: front, x, back, rfl, hx, ?_⟩
          rw [hsome]
          rfl

theorem addToBankStack_cases (it : BankItem) (bank : List BankItem) :
    addToBankStack it bank = none ∨
    ∃ front x back, bank = front ++ x :: back ∧ x.data.l0 = it.data.l0 ∧
      addToBankStack it bank =
        some (front ++ { x with data := x.data.setB5 (x.data.b5 + it.data.b5)
                                amount := (x.data.b5 + it.data.b5).toUInt16 } :: back) := by
  induction bank with
  | nil => exact .inl rfl
  | cons y bank ih =>
      rw [addToBankStack]
      by_cases hkind : y.data.l0 = it.data.l0
      · rw [if_pos hkind]
        exact .inr ⟨[], y, bank, rfl, hkind, rfl⟩
      · rw [if_neg hkind]
        rcases ih with hnone | ⟨front, x, back, rfl, hx, hsome⟩
        · left
          rw [hnone]
          rfl
        · refine .inr ⟨y :: front, x, back, rfl, hx, ?_⟩
          rw [hsome]
          rfl

end Sylverant.Ship.Bb
