/-
# Items of Blue Burst characters

The items in an inventory and in the bank, and the functions of `items.c` that take
items out of one of the two and put them in. An array and its count are a list here,
and words are in the order of a little-endian machine.
-/

import Mathlib.Tactic.Common

namespace Sylverant.Ship.Bb

/-- The union of `data_b` and `data_l`. -/
structure ItemData where
  l0 : UInt32
  l1 : UInt32
  l2 : UInt32
  deriving DecidableEq, Inhabited

/-- `data_b[0]` -/
def ItemData.b0 (d : ItemData) : UInt8 := d.l0.toUInt8

/-- `data_b[1]` -/
def ItemData.b1 (d : ItemData) : UInt8 := (d.l0 >>> 8).toUInt8

/-- `data_b[5]`, which is how many of a kind are in a stack. -/
def ItemData.b5 (d : ItemData) : UInt8 := (d.l1 >>> 8).toUInt8

/-- The assignment to `data_b[5]`. -/
def ItemData.setB5 (d : ItemData) (n : UInt8) : ItemData :=
  { d with l1 := (d.l1 &&& (0xFFFF00FF : UInt32)) ||| (n.toUInt32 <<< 8) }

/-- `item_t`. -/
structure Item where
  equipped : UInt16 := 0
  tech : UInt16 := 0
  flags : UInt32 := 0
  data : ItemData
  itemId : UInt32
  data2L : UInt32 := 0
  deriving DecidableEq, Inhabited

/-- `sylverant_bitem_t`. -/
structure BankItem where
  data : ItemData
  itemId : UInt32
  data2L : UInt32 := 0
  amount : UInt16 := 1
  flags : UInt16 := 1
  deriving DecidableEq

/-- `Item_Meseta` -/
def itemMeseta : UInt32 := 0x000004

/-- Whether an item is a frame. -/
def ItemData.isFrame (d : ItemData) : Bool := d.b0 = 0x01 ∧ d.b1 = 0x01

/-- Whether an item is a unit. -/
def ItemData.isUnit (d : ItemData) : Bool := d.b0 = 0x01 ∧ d.b1 = 0x03

/-- Whether an item is equipped. -/
def Item.isEquipped (it : Item) : Bool := it.flags &&& 0x00000008 ≠ 0

/-- Clear the flag of an item that is equipped. -/
def Item.unequip (it : Item) : Item := { it with flags := it.flags &&& 0xFFFFFFF7 }

/-- Clear the flag of all units. -/
def unequipUnits (inv : List Item) : List Item :=
  inv.map fun it => if it.data.isUnit then it.unequip else it

/-- `item_is_stackable`. -/
def itemIsStackable (code : UInt32) : Bool :=
  code &&& 0x000000FF = 0x03 ∧ (code >>> 8) &&& 0xFF < 0x09 ∧ (code >>> 8) &&& 0xFF ≠ 0x02

/-! ## Inventories -/

/-- `item_remove_from_inv`, with what it returns. -/
def itemRemoveFromInv : List Item → UInt32 → UInt32 → List Item × Int
  | [], _, _ => ([], -1)
  | it :: inv, itemId, amt =>
      if it.itemId = itemId then
        if itemIsStackable it.data.l0 ∧ amt ≠ 0xFFFFFFFF ∧ amt < it.data.b5.toUInt32 then
          ({ it with data := it.data.setB5 (it.data.b5.toUInt32 - amt).toUInt8 } :: inv, 0)
        else (inv, 1)
      else
        let rest := itemRemoveFromInv inv itemId amt
        (it :: rest.1, rest.2)

/-- The inventory after an item was added to the first stack of its kind, if there is
one. -/
def addToStack (it : Item) : List Item → Option (List Item)
  | [] => none
  | x :: inv =>
      if x.data.l0 = it.data.l0 then
        some ({ x with data := x.data.setB5 (x.data.b5 + it.data.b5) } :: inv)
      else (addToStack it inv).map (x :: ·)

/-- `item_add_to_inv`, with what it returns. -/
def itemAddToInv (inv : List Item) (it : Item) : List Item × Int :=
  if inv.length = 30 then (inv, -1)
  else if inv.any fun x => x.itemId = it.itemId then (inv, -1)
  else
    match if itemIsStackable it.data.l0 then addToStack it inv else none with
    | some inv => (inv, 0)
    | none => (inv ++ [it], 1)

/-! ## Banks -/

/-- The loop of `cleanup_bb_bank` over the items, from the one with the id `itemId`. -/
def numberBank : UInt32 → List BankItem → List BankItem
  | _, [] => []
  | itemId, it :: bank => { it with itemId } :: numberBank (itemId + 1) bank

/-- `cleanup_bb_bank`. -/
def cleanupBbBank (clientId : Nat) (bank : List BankItem) : List BankItem :=
  numberBank ((0x80010000 : UInt32) ||| (clientId.toUInt32 <<< 21)) bank

/-- The bank after an item was added to the first stack of its kind, if there is one. -/
def addToBankStack (it : BankItem) : List BankItem → Option (List BankItem)
  | [] => none
  | x :: bank =>
      if x.data.l0 = it.data.l0 then
        let amount := x.data.b5 + it.data.b5
        some ({ x with data := x.data.setB5 amount, amount := amount.toUInt16 } :: bank)
      else (addToBankStack it bank).map (x :: ·)

/-- `item_deposit_to_bank`, with what it returns. -/
def itemDepositToBank (bank : List BankItem) (it : BankItem) : List BankItem × Int :=
  if bank.length = 200 then (bank, -1)
  else
    match if itemIsStackable it.data.l0 then addToBankStack it bank else none with
    | some bank => (bank, 0)
    | none => (bank ++ [it], 1)

/-- `item_take_from_bank`, with the item that it takes if it does not fail. -/
def itemTakeFromBank : List BankItem → UInt32 → UInt8 → Option (List BankItem × BankItem)
  | [], _, _ => none
  | it :: bank, itemId, amt =>
      if it.itemId = itemId then
        if itemIsStackable it.data.l0 ∧ amt < it.data.b5 then
          let left := it.data.b5 - amt
          some ({ it with data := it.data.setB5 left, amount := left.toUInt16 } :: bank,
            { it with data := it.data.setB5 amt, amount := amt.toUInt16 })
        else if itemIsStackable it.data.l0 ∧ amt > it.data.b5 then none
        else some (bank, it)
      else (itemTakeFromBank bank itemId amt).map fun r => (it :: r.1, r.2)

end Sylverant.Ship.Bb
