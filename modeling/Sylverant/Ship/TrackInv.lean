/-
# Tracked inventories

For clients that are not on Blue Burst the server has a copy of the inventory: an array
of 30 items in the client, and a count. Both come from the character data that the
client sends, and if the client is tracked they follow its packets in games. No handler
checks that there is room.

What a handler writes to the array, and the stacks that it adds to, are listed. Memory
behind the array is there to be written to.
-/

import Sylverant.Library.Run
import Sylverant.Ship.LegitCheck
import Sylverant.Ship.Quantities

namespace Sylverant.Ship.Track

open Bb (Item ItemData findItem itemIsStackable)
open Function (update)

/-- `ship_client_t`, with what is read of it here. -/
structure Client where
  version : Version
  clientId : Nat := 0
  /-- `CLIENT_FLAG_TRACK_INVENTORY` -/
  trackInventory : Bool := false
  itemCount : Nat := 0
  /-- The array `items`, and what is behind it. -/
  items : Nat → Item := fun _ => default

/-- The part of the array that the count is about. -/
def Client.inv (c : Client) : List Item := (List.range c.itemCount).map c.items

/-- `lobby_t`, with what is read of it here. -/
structure Lobby where
  type : LobbyType := .game
  legitMode : Bool := false
  legitCheck : Bool := false
  highestItem : Nat → UInt32 := fun _ => 0

/-- What a handler does to the array. -/
inductive Effect
  /-- The item at an index is written to. -/
  | write (i : Nat)
  /-- Some are added to the quantity of a stack. -/
  | merge (had added has : UInt8)

/-- What a handler leaves behind, and what it returns. -/
structure Result where
  lobby : Lobby
  client : Client
  effects : List Effect := []
  rv : Int := 0

/-- A packet that is passed on or rejected, and changes nothing. -/
def unchanged (l : Lobby) (c : Client) (rv : Int) : Result := { lobby := l, client := c, rv }

/-! ## Character data -/

/-- `sylverant_inventory_t`. -/
structure Inventory where
  itemCount : UInt8
  items : Nat → Item

/-- The items of an array with new ids, as far as the count goes. -/
def renumber (id : Nat → UInt32) (count : Nat) (items : Nat → Item) : Nat → Item := fun i =>
  if i < count then { items i with itemId := id i } else items i

/-- Copy the inventory out of the character data and renumber it. -/
def copyInventory (c : Client) (inv : Inventory) : Client where
  version := c.version
  clientId := c.clientId
  trackInventory := c.trackInventory
  itemCount := inv.itemCount.toNat
  items :=
    renumber (fun i => (0x00210000 : UInt32) ||| i.toUInt32) inv.itemCount.toNat fun i =>
      if i < 30 then inv.items i else c.items i

/-- What the copy writes. -/
def copyEffects (inv : Inventory) : List Effect :=
  (List.range 30).map Effect.write ++ (List.range inv.itemCount.toNat).map Effect.write

/-- Whether character data is for the legit check and not kept. -/
def forLegitCheck (l : Option Lobby) (leave : Bool) : Bool :=
  match l with
  | none => false
  | some l => ¬leave ∧ l.type = .game ∧ l.legitCheck

/-- `dc_process_char`, in the lobby that the client is in, if there is one. It says
whether the client just left a game. -/
def dcProcessChar (l : Option Lobby) (c : Client) (leave : Bool) (inv : Inventory) :
    Client × List Effect :=
  if forLegitCheck l leave then (c, [])
  else
    let c := copyInventory c inv
    ({ c with trackInventory := if leave then false else c.trackInventory }, copyEffects inv)

/-- `bb_process_char`. -/
def bbProcessChar (c : Client) (inv : Inventory) : Client × List Effect :=
  (copyInventory c inv, copyEffects inv)

/-- The end of `join_game`: the inventory is fixed up for the new lobby, in which the
client has the id `clientId`. -/
def joinGame (l : Lobby) (c : Client) (clientId : Nat) : Result :=
  let c := { c with clientId }
  if c.version = .bb then unchanged l c 0
  else
    let id := (0x00010000 : UInt32) ||| (clientId.toUInt32 <<< 21) ||| l.highestItem clientId
    { lobby :=
        { l with
          highestItem := update l.highestItem clientId (id + c.itemCount.toUInt32 - 1) }
      client := { c with items := renumber (fun i => id + i.toUInt32) c.itemCount c.items }
      effects := (List.range c.itemCount).map Effect.write }

/-! ## Packets -/

/-- `subcmd_take_item_t` -/
structure TakeItemPkt where
  size : Nat
  clientId : Nat
  data : ItemData
  itemId : UInt32
  data2L : UInt32

/-- `subcmd_destroy_item_t` -/
structure DestroyItemPkt where
  size : Nat
  itemId : UInt32
  amount : UInt32

/-- `subcmd_buy_t` -/
structure BuyPkt where
  size : Nat
  clientId : Nat
  item : ItemData
  itemId : UInt32

/-- `subcmd_use_item_t` -/
structure UseItemPkt where
  size : Nat
  itemId : UInt32

/-- The place of the stack that an item is added to, if there is one. -/
def stackOf (c : Client) (data : ItemData) : Option Nat :=
  if itemIsStackable data.l0 then c.inv.findIdx? fun it => it.data.l0 = data.l0 else none

/-- Add an item: to its stack as a whole word, or behind the last item. -/
def addItem (c : Client) (data : ItemData) (itemId data2L : UInt32) : Client × List Effect :=
  match stackOf c data with
  | some i =>
      let it := c.items i
      let sum := { it.data with l1 := it.data.l1 + data.l1 }
      ({ c with items := update c.items i { it with data := sum } },
        [.write i, .merge it.data.b5 data.b5 sum.b5])
  | none =>
      ({ c with
        items := update c.items c.itemCount { c.items c.itemCount with data, itemId, data2L }
        itemCount := c.itemCount + 1 },
        [.write c.itemCount])

/-- `item_remove_from_inv` on the array, with what it writes and what it returns. -/
def itemRemoveFromInv (c : Client) (itemId amt : UInt32) : Client × List Effect × Int :=
  let r := Bb.itemRemoveFromInv c.inv itemId amt
  let writes :=
    match findItem c.inv itemId with
    | none => []
    | some i => if r.2 = 0 then [i] else List.range' i (c.itemCount - i - 1)
  ({ c with items := fun i => r.1.getD i (c.items i) }, writes.map Effect.write, r.2)

/-- Whether an item may be taken in legit mode. -/
def legitToTake (limits : Option Limits) (l : Lobby) (c : Client) (pkt : TakeItemPkt) : Bool :=
  match l.legitMode, limits with
  | true, some checkItem =>
      match itemVersion c.version with
      | none => false
      | some v => checkItem { data := pkt.data, itemId := pkt.itemId, data2L := pkt.data2L } v
  | _, _ => true

/-- `handle_take_item`. -/
def handleTakeItem (limits : Option Limits) (l : Lobby) (c : Client) (pkt : TakeItemPkt) : Result :=
  if l.type = .default then unchanged l c (-1)
  else
    let size := if c.version = .dcv1 ∧ pkt.size = 0x06 then 0x07 else pkt.size
    if size ≠ 0x07 ∨ pkt.clientId ≠ c.clientId then unchanged l c (-1)
    else if ¬legitToTake limits l c pkt then unchanged l c (-1)
    else
      let l :=
        { l with highestItem := update l.highestItem c.clientId pkt.itemId.toUInt16.toUInt32 }
      if ¬c.trackInventory then unchanged l c 0
      else
        let r := addItem c pkt.data pkt.itemId pkt.data2L
        { lobby := l, client := r.1, effects := r.2 }

/-- `handle_delete_inv`. -/
def handleDeleteInv (l : Lobby) (c : Client) (pkt : DestroyItemPkt) : Result :=
  if l.type = .default then unchanged l c (-1)
  else if pkt.size ≠ 0x03 then unchanged l c (-1)
  else if ¬c.trackInventory then unchanged l c 0
  else if pkt.itemId = 0xFFFFFFFF then unchanged l c 0
  else
    let r := itemRemoveFromInv c pkt.itemId pkt.amount
    if r.2.2 < 0 then { lobby := l, client := r.1, effects := r.2.1 }
    else
      { lobby := l, client := { r.1 with itemCount := c.itemCount - r.2.2.toNat },
        effects := r.2.1 }

/-- `handle_buy`. -/
def handleBuy (l : Lobby) (c : Client) (pkt : BuyPkt) : Result :=
  if l.type = .default then unchanged l c (-1)
  else if pkt.size ≠ 0x06 ∨ pkt.clientId ≠ c.clientId then unchanged l c (-1)
  else
    let l := { l with highestItem := update l.highestItem c.clientId pkt.itemId }
    if ¬c.trackInventory then unchanged l c 0
    else
      let r := addItem c pkt.item pkt.itemId 0
      { lobby := l, client := r.1, effects := r.2 }

/-- `handle_use_item`. -/
def handleUseItem (l : Lobby) (c : Client) (pkt : UseItemPkt) : Result :=
  if l.type = .default then unchanged l c (-1)
  else if pkt.size ≠ 0x02 then unchanged l c (-1)
  else if ¬c.trackInventory then unchanged l c 0
  else
    let r := itemRemoveFromInv c pkt.itemId 1
    if r.2.2 < 0 then { lobby := l, client := r.1, effects := r.2.1 }
    else
      { lobby := l, client := { r.1 with itemCount := c.itemCount - r.2.2.toNat },
        effects := r.2.1 }

/-! ## Runs -/

/-- What happens to a client, each time in any lobby. -/
inductive Event
  | char (l : Option Lobby) (leave : Bool) (inv : Inventory)
  | bbChar (inv : Inventory)
  | join (l : Lobby) (clientId : Nat)
  /-- The command that sets the flag. -/
  | trackinv
  | takeItem (limits : Option Limits) (l : Lobby) (pkt : TakeItemPkt)
  | deleteInv (l : Lobby) (pkt : DestroyItemPkt)
  | buy (l : Lobby) (pkt : BuyPkt)
  | useItem (l : Lobby) (pkt : UseItemPkt)
  /-- A packet that is only passed on, as those for dropping an item are. -/
  | forward

/-- The client after an event, and what was done to the array. -/
def handle (c : Client) : Event → Client × List Effect
  | .char l leave inv => dcProcessChar l c leave inv
  | .bbChar inv => bbProcessChar c inv
  | .join l clientId => let r := joinGame l c clientId; (r.client, r.effects)
  | .trackinv => ({ c with trackInventory := true }, [])
  | .takeItem limits l pkt => let r := handleTakeItem limits l c pkt; (r.client, r.effects)
  | .deleteInv l pkt => let r := handleDeleteInv l c pkt; (r.client, r.effects)
  | .buy l pkt => let r := handleBuy l c pkt; (r.client, r.effects)
  | .useItem l pkt => let r := handleUseItem l c pkt; (r.client, r.effects)
  | .forward => (c, [])

/-- The client after an event. -/
def step (c : Client) (e : Event) : Client := (handle c e).1

/-- A client that just connected. -/
def newConnection (version : Version) : Client := { version }

/-! ## What should hold -/

/-- A write hits the array, and what is added to a stack is what it has more. -/
def Effect.Good : Effect → Prop
  | .write i => i < 30
  | .merge had added has => has.toNat = had.toNat + added.toNat

/-- The inventory is in its bounds after an event, and so is what was written. -/
structure Sound (c : Client) (e : Event) : Prop where
  count : (step c e).itemCount ≤ 30
  effects : ∀ x ∈ (handle c e).2, x.Good

/-- There is room for an item: in the two low bytes of the word that it is added to, or
behind the last item. -/
def Fits (c : Client) (data : ItemData) : Prop :=
  match stackOf c data with
  | some i =>
      (c.items i).data.l1.toNat % 256 + data.l1.toNat % 256 < 256 ∧
        (c.items i).data.b5.toNat + data.b5.toNat < 256
  | none => c.itemCount < 30

/-- The packet for taking an item reaches the inventory. -/
structure Takes (limits : Option Limits) (l : Lobby) (c : Client) (pkt : TakeItemPkt) : Prop where
  notLobby : l.type ≠ .default
  size : pkt.size = 0x07 ∨ c.version = .dcv1 ∧ pkt.size = 0x06
  client : pkt.clientId = c.clientId
  legit : legitToTake limits l c pkt
  tracked : c.trackInventory

/-- The packet for buying an item reaches the inventory. -/
structure Buys (l : Lobby) (c : Client) (pkt : BuyPkt) : Prop where
  notLobby : l.type ≠ .default
  size : pkt.size = 0x06
  client : pkt.clientId = c.clientId
  tracked : c.trackInventory

/-- Character data has at most 30 items, and an item that is added fits. -/
def Fine (c : Client) : Event → Prop
  | .char l leave inv => ¬forLegitCheck l leave → inv.itemCount.toNat ≤ 30
  | .bbChar inv => inv.itemCount.toNat ≤ 30
  | .takeItem limits l pkt => Takes limits l c pkt → Fits c pkt.data
  | .buy l pkt => Buys l c pkt → Fits c pkt.item
  | .join _ _ | .trackinv | .deleteInv _ _ | .useItem _ _ | .forward => True

/-! ## What one event does -/

/-- The byte for the quantity follows the word if nothing is carried into it or out of
it. -/
theorem b5_add_iff (d d' : ItemData) :
    ({ d with l1 := d.l1 + d'.l1 } : ItemData).b5.toNat = d.b5.toNat + d'.b5.toNat ↔
      d.l1.toNat % 256 + d'.l1.toNat % 256 < 256 ∧ d.b5.toNat + d'.b5.toNat < 256 := by
  have hbyte : ∀ e : ItemData, e.b5.toNat = e.l1.toNat / 256 % 256 := by
    intro e
    rw [ItemData.b5, UInt32.toNat_toUInt8, UInt32.toNat_shiftRight, Nat.shiftRight_eq_div_pow]
    rfl
  rw [hbyte, hbyte, hbyte, UInt32.toNat_add]
  omega

section Lemmas

variable {c : Client}

/-- The writes up to a count are good just if the count is. -/
theorem good_writes_iff (n : Nat) :
    (∀ x ∈ (List.range n).map Effect.write, x.Good) ↔ n ≤ 30 := by
  constructor
  · intro hgood
    by_contra hlarge
    have hlast := hgood (.write 30) (List.mem_map.mpr ⟨30, List.mem_range.mpr (by omega), rfl⟩)
    exact absurd hlast (Nat.lt_irrefl 30)
  · intro hn x hx
    obtain ⟨i, hi, rfl⟩ := List.mem_map.mp hx
    exact Nat.lt_of_lt_of_le (List.mem_range.mp hi) hn

/-- A stack that is found is one of the inventory. -/
theorem stackOf_lt {data : ItemData} {i : Nat} (h : stackOf c data = some i) : i < c.itemCount := by
  rw [stackOf] at h
  split at h
  · obtain ⟨hi, -⟩ := List.findIdx?_eq_some_iff_getElem.mp h
    rwa [Client.inv, List.length_map, List.length_range] at hi
  · cases h

/-- Adding an item is sound just if it fits. -/
theorem addItem_iff (hc : c.itemCount ≤ 30) (data : ItemData) (itemId data2L : UInt32) :
    ((addItem c data itemId data2L).1.itemCount ≤ 30 ∧
      ∀ x ∈ (addItem c data itemId data2L).2, x.Good) ↔ Fits c data := by
  rw [addItem, Fits]
  cases hstack : stackOf c data with
  | some i =>
      have hi := stackOf_lt hstack
      simp only [List.forall_mem_cons, Effect.Good, b5_add_iff]
      constructor
      · rintro ⟨-, -, hbytes, -⟩
        exact hbytes
      · intro hbytes
        exact ⟨hc, Nat.lt_of_lt_of_le hi hc, hbytes, fun x hx => nomatch hx⟩
  | none =>
      simp only [List.forall_mem_cons, Effect.Good]
      constructor
      · rintro ⟨hcount, -⟩
        exact hcount
      · intro hroom
        exact ⟨hroom, hroom, fun x hx => nomatch hx⟩

/-- Removing an item is always sound. -/
theorem itemRemoveFromInv_good (hc : c.itemCount ≤ 30) (itemId amt : UInt32) :
    ∀ x ∈ (itemRemoveFromInv c itemId amt).2.1, x.Good := by
  intro x hx
  rw [itemRemoveFromInv] at hx
  obtain ⟨i, hi, rfl⟩ := List.mem_map.mp hx
  cases hfound : findItem c.inv itemId with
  | none =>
      rw [hfound] at hi
      cases hi
  | some found =>
      obtain ⟨hlt, -⟩ := List.findIdx?_eq_some_iff_getElem.mp hfound
      rw [Client.inv, List.length_map, List.length_range] at hlt
      rw [hfound] at hi
      dsimp only at hi
      split at hi
      · rw [List.mem_singleton] at hi
        exact hi ▸ Nat.lt_of_lt_of_le hlt hc
      · rw [List.mem_range'_1] at hi
        exact Nat.lt_of_lt_of_le (show i < c.itemCount by omega) hc

/-- Copying an inventory is sound just if its count is in bounds. -/
theorem copy_iff (inv : Inventory) :
    (inv.itemCount.toNat ≤ 30 ∧ ∀ x ∈ copyEffects inv, x.Good) ↔ inv.itemCount.toNat ≤ 30 := by
  constructor
  · rintro ⟨hcount, -⟩
    exact hcount
  · intro hcount
    refine ⟨hcount, fun x hx => ?_⟩
    rcases List.mem_append.mp hx with hx | hx
    · exact (good_writes_iff 30).mpr (Nat.le_refl 30) x hx
    · exact (good_writes_iff _).mpr hcount x hx

/-- A handler that leaves the array alone is sound. -/
theorem unchanged_good (hc : c.itemCount ≤ 30) (l : Lobby) (rv : Int) :
    (unchanged l c rv).client.itemCount ≤ 30 ∧ ∀ x ∈ (unchanged l c rv).effects, x.Good :=
  ⟨hc, fun _ hx => nomatch hx⟩

theorem dcProcessChar_iff (hc : c.itemCount ≤ 30) (l : Option Lobby) (leave : Bool)
    (inv : Inventory) :
    ((dcProcessChar l c leave inv).1.itemCount ≤ 30 ∧
      ∀ x ∈ (dcProcessChar l c leave inv).2, x.Good) ↔
      (¬forLegitCheck l leave → inv.itemCount.toNat ≤ 30) := by
  rw [dcProcessChar]
  by_cases hcheck : forLegitCheck l leave
  · rw [if_pos hcheck]
    exact ⟨fun _ hnot => absurd hcheck hnot, fun _ => ⟨hc, fun x hx => nomatch hx⟩⟩
  · rw [if_neg hcheck]
    have hcopy := copy_iff inv
    exact ⟨fun h _ => hcopy.mp h, fun h => hcopy.mpr (h hcheck)⟩

theorem joinGame_good (hc : c.itemCount ≤ 30) (l : Lobby) (clientId : Nat) :
    (joinGame l c clientId).client.itemCount ≤ 30 ∧
      ∀ x ∈ (joinGame l c clientId).effects, x.Good := by
  unfold joinGame
  dsimp only
  split
  · exact ⟨hc, fun x hx => nomatch hx⟩
  · exact ⟨hc, (good_writes_iff _).mpr hc⟩

/-- A packet for taking an item that reaches the inventory adds the item. -/
theorem handleTakeItem_of_takes {limits : Option Limits} {l : Lobby} {pkt : TakeItemPkt}
    (h : Takes limits l c pkt) :
    (handleTakeItem limits l c pkt).client = (addItem c pkt.data pkt.itemId pkt.data2L).1 ∧
      (handleTakeItem limits l c pkt).effects = (addItem c pkt.data pkt.itemId pkt.data2L).2 := by
  have hsize : ¬((if c.version = .dcv1 ∧ pkt.size = 0x06 then 0x07 else pkt.size) ≠ 0x07 ∨
      pkt.clientId ≠ c.clientId) := by
    rintro (hsize | hclient)
    · apply hsize
      rcases h.size with hsize | hbuggy
      · rw [hsize, ite_self]
      · exact if_pos hbuggy
    · exact hclient h.client
  unfold handleTakeItem
  rw [if_neg h.notLobby]
  dsimp only
  rw [if_neg hsize, if_neg (not_not_intro h.legit), if_neg (not_not_intro h.tracked)]
  exact ⟨rfl, rfl⟩

/-- Any other packet for taking an item leaves the client as it is. -/
theorem handleTakeItem_of_not_takes {limits : Option Limits} {l : Lobby} {pkt : TakeItemPkt}
    (h : ¬Takes limits l c pkt) :
    ∃ l' rv, handleTakeItem limits l c pkt = unchanged l' c rv := by
  unfold handleTakeItem
  split
  · exact ⟨l, -1, rfl⟩
  rename_i htype
  dsimp only
  generalize hbuggy : (if c.version = .dcv1 ∧ pkt.size = 0x06 then 0x07 else pkt.size) = size
  split
  · exact ⟨l, -1, rfl⟩
  rename_i hsize
  split
  · exact ⟨l, -1, rfl⟩
  rename_i hlegit
  split
  · exact ⟨_, 0, rfl⟩
  rename_i htracked
  refine absurd ⟨htype, ?_, ?_, not_not.mp hlegit, not_not.mp htracked⟩ h
  · by_contra hnot
    apply hsize
    left
    rw [if_neg fun hbuggy => hnot (.inr hbuggy)] at hbuggy
    exact fun hseven => hnot (.inl (hbuggy.trans hseven))
  · exact by_contra fun hclient => hsize (.inr hclient)

theorem handleTakeItem_iff (hc : c.itemCount ≤ 30) (limits : Option Limits) (l : Lobby)
    (pkt : TakeItemPkt) :
    ((handleTakeItem limits l c pkt).client.itemCount ≤ 30 ∧
      ∀ x ∈ (handleTakeItem limits l c pkt).effects, x.Good) ↔
      (Takes limits l c pkt → Fits c pkt.data) := by
  by_cases htakes : Takes limits l c pkt
  · have hadd := addItem_iff hc pkt.data pkt.itemId pkt.data2L
    obtain ⟨hclient, heffects⟩ := handleTakeItem_of_takes htakes
    rw [hclient, heffects, hadd]
    exact ⟨fun hfits _ => hfits, fun hfits => hfits htakes⟩
  · obtain ⟨l', rv, hsame⟩ := handleTakeItem_of_not_takes htakes
    rw [hsame]
    exact ⟨fun _ htakes' => absurd htakes' htakes, fun _ => unchanged_good hc l' rv⟩

/-- A packet for buying an item that reaches the inventory adds the item. -/
theorem handleBuy_of_buys {l : Lobby} {pkt : BuyPkt} (h : Buys l c pkt) :
    (handleBuy l c pkt).client = (addItem c pkt.item pkt.itemId 0).1 ∧
      (handleBuy l c pkt).effects = (addItem c pkt.item pkt.itemId 0).2 := by
  have hsize : ¬(pkt.size ≠ 0x06 ∨ pkt.clientId ≠ c.clientId) := by
    rintro (hsize | hclient)
    · exact hsize h.size
    · exact hclient h.client
  unfold handleBuy
  rw [if_neg h.notLobby, if_neg hsize]
  dsimp only
  rw [if_neg (not_not_intro h.tracked)]
  exact ⟨rfl, rfl⟩

theorem handleBuy_of_not_buys {l : Lobby} {pkt : BuyPkt} (h : ¬Buys l c pkt) :
    ∃ l' rv, handleBuy l c pkt = unchanged l' c rv := by
  unfold handleBuy
  split
  · exact ⟨l, -1, rfl⟩
  rename_i htype
  split
  · exact ⟨l, -1, rfl⟩
  rename_i hsize
  dsimp only
  split
  · exact ⟨_, 0, rfl⟩
  rename_i htracked
  refine absurd ⟨htype, ?_, ?_, not_not.mp htracked⟩ h
  · exact by_contra fun hnot => hsize (.inl hnot)
  · exact by_contra fun hclient => hsize (.inr hclient)

theorem handleBuy_iff (hc : c.itemCount ≤ 30) (l : Lobby) (pkt : BuyPkt) :
    ((handleBuy l c pkt).client.itemCount ≤ 30 ∧ ∀ x ∈ (handleBuy l c pkt).effects, x.Good) ↔
      (Buys l c pkt → Fits c pkt.item) := by
  by_cases hbuys : Buys l c pkt
  · have hadd := addItem_iff hc pkt.item pkt.itemId 0
    obtain ⟨hclient, heffects⟩ := handleBuy_of_buys hbuys
    rw [hclient, heffects, hadd]
    exact ⟨fun hfits _ => hfits, fun hfits => hfits hbuys⟩
  · obtain ⟨l', rv, hsame⟩ := handleBuy_of_not_buys hbuys
    rw [hsame]
    exact ⟨fun _ hbuys' => absurd hbuys' hbuys, fun _ => unchanged_good hc l' rv⟩

/-- The count after an item was removed, as the two handlers set it. -/
theorem removed_good (hc : c.itemCount ≤ 30) (l : Lobby) (itemId amt : UInt32) :
    let r := itemRemoveFromInv c itemId amt
    let after : Result :=
      if r.2.2 < 0 then { lobby := l, client := r.1, effects := r.2.1 }
      else
        { lobby := l, client := { r.1 with itemCount := c.itemCount - r.2.2.toNat },
          effects := r.2.1 }
    after.client.itemCount ≤ 30 ∧ ∀ x ∈ after.effects, x.Good := by
  dsimp only
  split
  · exact ⟨hc, itemRemoveFromInv_good hc itemId amt⟩
  · exact ⟨Nat.le_trans (Nat.sub_le _ _) hc, itemRemoveFromInv_good hc itemId amt⟩

theorem handleDeleteInv_good (hc : c.itemCount ≤ 30) (l : Lobby) (pkt : DestroyItemPkt) :
    (handleDeleteInv l c pkt).client.itemCount ≤ 30 ∧
      ∀ x ∈ (handleDeleteInv l c pkt).effects, x.Good := by
  unfold handleDeleteInv
  split
  · exact unchanged_good hc l (-1)
  split
  · exact unchanged_good hc l (-1)
  split
  · exact unchanged_good hc l 0
  split
  · exact unchanged_good hc l 0
  · exact removed_good hc l pkt.itemId pkt.amount

theorem handleUseItem_good (hc : c.itemCount ≤ 30) (l : Lobby) (pkt : UseItemPkt) :
    (handleUseItem l c pkt).client.itemCount ≤ 30 ∧
      ∀ x ∈ (handleUseItem l c pkt).effects, x.Good := by
  unfold handleUseItem
  split
  · exact unchanged_good hc l (-1)
  split
  · exact unchanged_good hc l (-1)
  split
  · exact unchanged_good hc l 0
  · exact removed_good hc l pkt.itemId 1

/-- An event is sound just if character data is in bounds and what is added fits. -/
theorem sound_iff (hc : c.itemCount ≤ 30) (e : Event) : Sound c e ↔ Fine c e := by
  have hpair : Sound c e ↔
      ((handle c e).1.itemCount ≤ 30 ∧ ∀ x ∈ (handle c e).2, x.Good) :=
    ⟨fun h => ⟨h.count, h.effects⟩, fun h => ⟨h.1, h.2⟩⟩
  rw [hpair]
  cases e with
  | char l leave inv => exact dcProcessChar_iff hc l leave inv
  | bbChar inv => exact copy_iff inv
  | join l clientId => exact iff_of_true (joinGame_good hc l clientId) trivial
  | trackinv => exact iff_of_true ⟨hc, fun x hx => nomatch hx⟩ trivial
  | takeItem limits l pkt => exact handleTakeItem_iff hc limits l pkt
  | deleteInv l pkt => exact iff_of_true (handleDeleteInv_good hc l pkt) trivial
  | buy l pkt => exact handleBuy_iff hc l pkt
  | useItem l pkt => exact iff_of_true (handleUseItem_good hc l pkt) trivial
  | forward => exact iff_of_true ⟨hc, fun x hx => nomatch hx⟩ trivial

end Lemmas

/-! ## Whole runs -/

/-- From a new connection on the inventory stays in its bounds just as long as the
character data does and what is added fits. -/
theorem tracked_iff (version : Version) (es : List Event) :
    Run.Guarded step Sound (newConnection version) es ↔
      Run.Guarded step Fine (newConnection version) es := by
  have hnew : (newConnection version).itemCount ≤ 30 := Nat.zero_le 30
  refine Run.Guarded.congr (fun c e hc => sound_iff hc e) (fun c e _ hsound => hsound.count) hnew

/-- A client says that it has 31 items. -/
theorem not_sound_count :
    ¬Run.Guarded step Sound (newConnection .gc)
      [.char none false ⟨31, fun _ => default⟩] := by
  intro hrun
  have hcount := hrun.1.count
  revert hcount
  decide

end Sylverant.Ship.Track
