/-
# A Blue Burst game

The items and the meseta in a Blue Burst game: what lies on the floor, what its
members carry and have in the bank, and the counters that item ids come from. The
handlers of `subcmd.c` that move items and meseta take the lobby and the client that
sent the packet, and return both with the return value.

A client joins with any data, so that coming back to a game is joining it again. Of
the drops of enemies and boxes only what is put into the lobby is seen here. Sending
packets changes nothing.
-/

import Sylverant.Library.Slots
import Sylverant.Ship.Block
import Sylverant.Ship.Items

namespace Sylverant.Ship.Bb

open Function (update)
open Slots (firstFree)

/-- `ship_client_t`, with what the handlers read of the character and its bank. -/
structure Client where
  clientId : Nat := 0
  /-- `bb_pl->inv` -/
  inv : List Item := []
  /-- `bb_pl->character.meseta` -/
  meseta : UInt32 := 0
  /-- `bb_pl->bank` -/
  bank : List BankItem := []
  /-- `bb_pl->bank.meseta` -/
  bankMeseta : UInt32 := 0
  /-- `pl->bb.character.meseta` -/
  plMeseta : UInt32 := 0
  /-- The array `items`, which holds what the client last said of its inventory. -/
  items : Nat → Item := fun _ => default
  dropItem : UInt32 := 0
  dropAmt : UInt32 := 0

/-- `lobby_t`, with what the handlers read of a game. -/
structure Game where
  type : LobbyType := .game
  version : Version := .bb
  maxClients : Nat
  itemId : UInt32
  highestItem : Nat → UInt32 := fun _ => 0
  itemQueue : List Item := []
  /-- The array `clients`, with the clients themselves. -/
  clients : Nat → Option Client := fun _ => none

/-- `lobby_create_game` for Blue Burst. -/
def lobbyCreateGame (singlePlayer : Bool) : Game where
  maxClients := if singlePlayer then 1 else 4
  itemId := 0x00810000

/-! ## The items on the floor -/

/-- `lobby_add_item_locked`. Without room for the item the lobby stays as it is. -/
def lobbyAddItemLocked (l : Game) (data : ItemData) (data2L : UInt32) : Game :=
  if l.version ≠ .bb then l
  else
    { l with
      itemId := l.itemId + 1
      itemQueue := { data, itemId := l.itemId, data2L } :: l.itemQueue }

/-- `lobby_add_item2_locked`. -/
def lobbyAddItem2Locked (l : Game) (it : Item) : Option Game :=
  if l.version ≠ .bb then none else some { l with itemQueue := it :: l.itemQueue }

/-- The loop of `lobby_remove_item_locked`. -/
def removeFirst (itemId : UInt32) : List Item → Option (List Item × Item)
  | [] => none
  | it :: queue =>
      if it.itemId = itemId then some (queue, it)
      else (removeFirst itemId queue).map fun r => (it :: r.1, r.2)

/-- `lobby_remove_item_locked`, with what it returns and the item if there is one. -/
def lobbyRemoveItemLocked (l : Game) (itemId : UInt32) : Game × Int × Option Item :=
  if l.version ≠ .bb then (l, -1, none)
  else
    match removeFirst itemId l.itemQueue with
    | none => (l, 1, none)
    | some (queue, it) => ({ l with itemQueue := queue }, 0, some it)

/-! ## Joining -/

/-- The first id for the items of the client in a slot, as `join_game` puts it
together. -/
def firstId (l : Game) (clientId : Nat) : UInt32 :=
  (0x00010000 : UInt32) ||| (clientId.toUInt32 <<< 21) ||| l.highestItem clientId

/-- The items with consecutive ids. -/
def numberItems : UInt32 → List Item → List Item
  | _, [] => []
  | id, it :: inv => { it with itemId := id } :: numberItems (id + 1) inv

/-- The end of `join_game`: the inventory is fixed up for the new lobby. -/
def fixInventory (l : Game) (c : Client) : Game :=
  let id := firstId l c.clientId
  { l with
    highestItem := update l.highestItem c.clientId (id + c.inv.length.toUInt32 - 1)
    clients := update l.clients c.clientId (some { c with inv := numberItems id c.inv }) }

/-- `join_game` for a client that may join, and is not in the game yet. -/
def joinGame (l : Game) (c : Client) : Game :=
  match firstFree l.maxClients l.clients with
  | none => l
  | some i => fixInventory l { c with clientId := i }

/-! ## Packets -/

/-- What the handlers check of a packet. -/
structure Header where
  pktLen : Nat
  size : Nat
  clientId : Nat := 0

/-- `subcmd_bb_drop_item_t` -/
structure DropItemPkt extends Header where
  itemId : UInt32

/-- `subcmd_bb_drop_pos_t` -/
structure DropPosPkt extends Header where
  itemId : UInt32
  amount : UInt32

/-- `subcmd_bb_destroy_item_t` -/
structure DestroyItemPkt extends Header where
  itemId : UInt32
  amount : UInt32

/-- `subcmd_bb_pick_up_t` -/
structure PickUpPkt extends Header where
  itemId : UInt32

/-- `subcmd_bb_bank_act_t`, with a client id that is not there. -/
structure BankActPkt extends Header where
  itemId : UInt32
  mesetaAmount : UInt32
  action : UInt8
  itemAmount : UInt8

/-- The place in an inventory of the item with an id. -/
def findItem (inv : List Item) (itemId : UInt32) : Option Nat :=
  inv.findIdx? fun it => it.itemId = itemId

/-- What a handler returns when it rejects a packet. -/
def reject (l : Game) (c : Client) : Game × Client × Int := (l, c, -1)

/-- The lobby and the client after a packet was handled, and the return value. -/
abbrev Outcome := Game × Client × Int

/-- `handle_bb_drop_item`. The variable `isframe` has the value `garbage` before it is
assigned to. -/
def handleBbDropItem (garbage : Bool) (l : Game) (c : Client) (pkt : DropItemPkt) : Outcome :=
  if l.type = .default then reject l c
  else if pkt.pktLen ≠ 0x20 ∨ pkt.size ≠ 0x06 ∨ pkt.clientId ≠ c.clientId then reject l c
  else
    match findItem c.inv pkt.itemId with
    | none => reject l c
    | some found =>
        let it := c.inv.getD found default
        let isframe := (it.data.isFrame ∧ it.isEquipped) ∨ garbage
        let inv := c.inv.modify found Item.unequip
        let inv := if isframe then unequipUnits inv else inv
        match lobbyAddItem2Locked l (inv.getD found default) with
        | none => reject l { c with inv }
        | some l =>
            let r := itemRemoveFromInv inv pkt.itemId 0xFFFFFFFF
            (l, { c with inv := r.1 }, if r.2 < 1 then -1 else 0)

/-- `handle_bb_drop_pos`. -/
def handleBbDropPos (l : Game) (c : Client) (pkt : DropPosPkt) : Outcome :=
  if l.type = .default then reject l c
  else if pkt.pktLen ≠ 0x20 ∨ pkt.size ≠ 0x06 ∨ pkt.clientId ≠ c.clientId then reject l c
  else if pkt.itemId ≠ 0xFFFFFFFF ∧ findItem c.inv pkt.itemId = none then reject l c
  else if pkt.itemId = 0xFFFFFFFF ∧ c.meseta < pkt.amount then reject l c
  else (l, { c with dropItem := pkt.itemId, dropAmt := pkt.amount }, 0)

/-- The item that `handle_bb_drop_stack` puts on the floor, if there is one: meseta, or
what the client last said of the item in that place. -/
def stackItem (c : Client) (pkt : DestroyItemPkt) (itemId : UInt32) : Option Item :=
  if pkt.itemId ≠ 0xFFFFFFFF then
    (findItem c.inv pkt.itemId).map fun found =>
      { c.items found with itemId, data := (c.items found).data.setB5 pkt.amount.toUInt8 }
  else some { data := ⟨itemMeseta, 0, 0⟩, itemId, data2L := pkt.amount }

/-- `handle_bb_drop_stack`. -/
def handleBbDropStack (l : Game) (c : Client) (pkt : DestroyItemPkt) : Outcome :=
  if l.type = .default then reject l c
  else if pkt.pktLen ≠ 0x14 ∨ pkt.size ≠ 0x03 ∨ pkt.clientId ≠ c.clientId then reject l c
  else
    let itemId := l.highestItem c.clientId + 1
    match stackItem c pkt itemId with
    | none => reject l c
    | some it =>
        let l := { l with highestItem := update l.highestItem c.clientId itemId }
        if pkt.itemId ≠ c.dropItem ∨ pkt.amount ≠ c.dropAmt then reject l c
        else
          match lobbyAddItem2Locked l it with
          | none => reject l c
          | some l =>
              if pkt.itemId ≠ 0xFFFFFFFF then
                let r := itemRemoveFromInv c.inv pkt.itemId pkt.amount
                (l, { c with inv := r.1 }, if r.2 < 0 then -1 else 0)
              else if pkt.amount > c.meseta then reject l c
              else
                let meseta := c.meseta - pkt.amount
                (l, { c with meseta, plMeseta := meseta }, 0)

/-- `handle_bb_pick_up`. -/
def handleBbPickUp (l : Game) (c : Client) (pkt : PickUpPkt) : Outcome :=
  if l.type = .default then reject l c
  else if pkt.pktLen ≠ 0x14 ∨ pkt.size ≠ 0x03 ∨ pkt.clientId ≠ c.clientId then reject l c
  else
    match lobbyRemoveItemLocked l pkt.itemId with
    | (l, rv, none) => (l, c, if rv < 0 then -1 else 0)
    | (l, _, some it) =>
        if it.data.l0 = itemMeseta then
          let tmp := it.data2L + c.meseta
          let meseta := if tmp > 999999 then 999999 else tmp
          (l, { c with meseta, plMeseta := meseta }, 0)
        else
          let r := itemAddToInv c.inv { it with flags := 0, equipped := 1, tech := 0 }
          (l, { c with inv := r.1 }, if r.2 = -1 then -1 else 0)

/-- `handle_bb_bank`. -/
def handleBbBank (l : Game) (c : Client) (req : Header) : Outcome :=
  if l.type = .default then reject l c
  else if req.pktLen ≠ 0x10 ∨ req.size ≠ 0x02 then reject l c
  else (l, { c with bank := cleanupBbBank c.clientId c.bank }, 0)

/-- `handle_bb_bank_action`, for a deposit of meseta. -/
def depositMeseta (l : Game) (c : Client) (amt : UInt32) : Outcome :=
  if amt > c.meseta then reject l c
  else if amt + c.bankMeseta > 999999 then reject l c
  else
    let meseta := c.meseta - amt
    (l, { c with meseta, plMeseta := meseta, bankMeseta := c.bankMeseta + amt }, 0)

/-- `handle_bb_bank_action`, for a deposit of an item. -/
def depositItem (l : Game) (c : Client) (itemId : UInt32) (amount : UInt8) : Outcome :=
  match findItem c.inv itemId with
  | none => reject l c
  | some found =>
      let it := c.inv.getD found default
      let stack := itemIsStackable it.data.l0
      if ¬stack ∧ amount > 1 then reject l c
      else
        let r := itemRemoveFromInv c.inv itemId amount.toUInt32
        if r.2 < 0 ∨ r.2 > 1 then reject l { c with inv := r.1 }
        else
          let bitem : BankItem :=
            { data := if stack then it.data.setB5 amount else it.data
              itemId := it.itemId
              data2L := it.data2L
              amount := if stack then amount.toUInt16 else 1 }
          let inv := if it.data.isFrame ∧ it.isEquipped then unequipUnits r.1 else r.1
          let bank := itemDepositToBank c.bank bitem
          (l, { c with inv, bank := bank.1 }, if bank.2 < 0 then -1 else 0)

/-- `handle_bb_bank_action`, for taking meseta. -/
def takeMeseta (l : Game) (c : Client) (amt : UInt32) : Outcome :=
  if amt + c.meseta > 999999 then reject l c
  else if amt > c.bankMeseta then reject l c
  else
    let meseta := c.meseta + amt
    (l, { c with meseta, plMeseta := meseta, bankMeseta := c.bankMeseta - amt }, 0)

/-- `handle_bb_bank_action`, for taking an item. -/
def takeItem (l : Game) (c : Client) (itemId : UInt32) (amount : UInt8) : Outcome :=
  match itemTakeFromBank c.bank itemId amount with
  | none => reject l c
  | some (bank, bitem) =>
      let it : Item :=
        { equipped := 1, data := bitem.data, itemId := l.itemId, data2L := bitem.data2L }
      let l := { l with itemId := l.itemId + 1 }
      let r := itemAddToInv c.inv it
      if r.2 < 0 then reject l { c with bank := (itemDepositToBank bank bitem).1 }
      else (l, { c with bank, inv := r.1 }, 0)

/-- `handle_bb_bank_action`. -/
def handleBbBankAction (l : Game) (c : Client) (pkt : BankActPkt) : Outcome :=
  if l.type = .default then reject l c
  else if pkt.pktLen ≠ 0x18 ∨ pkt.size ≠ 0x04 then reject l c
  else if pkt.action = 3 ∨ pkt.action = 2 then (l, c, 0)
  else if pkt.action = 0 then
    if pkt.itemId = 0xFFFFFFFF then depositMeseta l c pkt.mesetaAmount
    else depositItem l c pkt.itemId pkt.itemAmount
  else if pkt.action = 1 then
    if pkt.itemId = 0xFFFFFFFF then takeMeseta l c pkt.mesetaAmount
    else takeItem l c pkt.itemId pkt.itemAmount
  else reject l c

/-- `handle_bb_medic`. -/
def handleBbMedic (l : Game) (c : Client) (pkt : Header) : Outcome :=
  if l.type = .default then reject l c
  else if pkt.pktLen ≠ 0x0C ∨ pkt.size ≠ 0x01 ∨ pkt.clientId ≠ c.clientId then reject l c
  else (l, { c with meseta := c.meseta - 10, plMeseta := c.plMeseta - 10 }, 0)

/-! ## Runs -/

/-- The packets that a member sends. -/
inductive Packet
  | dropItem (garbage : Bool) (pkt : DropItemPkt)
  | dropPos (pkt : DropPosPkt)
  | dropStack (pkt : DestroyItemPkt)
  | pickUp (pkt : PickUpPkt)
  | bank (req : Header)
  | bankAction (pkt : BankActPkt)
  | medic (pkt : Header)
  /-- A packet that is only passed on, as that for buying from a shop is. -/
  | forward

/-- `subcmd_bb_handle_bcast` and `subcmd_bb_handle_one`. -/
def handle (l : Game) (c : Client) : Packet → Outcome
  | .dropItem garbage pkt => handleBbDropItem garbage l c pkt
  | .dropPos pkt => handleBbDropPos l c pkt
  | .dropStack pkt => handleBbDropStack l c pkt
  | .pickUp pkt => handleBbPickUp l c pkt
  | .bank req => handleBbBank l c req
  | .bankAction pkt => handleBbBankAction l c pkt
  | .medic pkt => handleBbMedic l c pkt
  | .forward => (l, c, 0)

/-- The client after `bb_process_char` copied what it says of its character. -/
def processChar (c : Client) (meseta : UInt32) (items : Nat → Item) (count : Nat) : Client :=
  { c with
    plMeseta := meseta
    items := fun i =>
      if i < count then { items i with itemId := (0x00210000 : UInt32) ||| i.toUInt32 }
      else items i }

/-- What happens to a game. -/
inductive Event
  /-- A client that is not in the game joins it. -/
  | join (c : Client)
  /-- A member selects the game that it is in. -/
  | rejoin (i : Nat)
  | leave (i : Nat)
  /-- An enemy or a box drops something. -/
  | drop (data : ItemData) (data2L : UInt32)
  | packet (i : Nat) (pkt : Packet)
  | char (i : Nat) (meseta : UInt32) (items : Nat → Item) (count : Nat)

/-- The game after an event. -/
def step (l : Game) : Event → Game
  | .join c => joinGame l c
  | .rejoin i =>
      match l.clients i with
      | none => l
      | some c => fixInventory l c
  | .leave i => { l with clients := update l.clients i none }
  | .drop data data2L => lobbyAddItemLocked l data data2L
  | .packet i pkt =>
      match l.clients i with
      | none => l
      | some c =>
          let r := handle l c pkt
          { r.1 with clients := update r.1.clients i (some r.2.1) }
  | .char i meseta items count =>
      match l.clients i with
      | none => l
      | some c =>
          { l with clients := update l.clients i (some (processChar c meseta items count)) }

/-- What the callers promise: an inventory has room for 30 items. -/
def Promised : Event → Prop
  | .join c => c.inv.length ≤ 30
  | _ => True

instance : (e : Event) → Decidable (Promised e)
  | .join _ => inferInstanceAs (Decidable (_ ≤ _))
  | .rejoin _ | .leave _ | .drop _ _ | .packet _ _ | .char _ _ _ _ =>
      inferInstanceAs (Decidable True)

end Sylverant.Ship.Bb
