/-
# Meseta in a Blue Burst game

The amounts of meseta that the members of a game carry and have in the bank stay
between 0 and 999999, and so do the amounts on the floor, as long as the medical
center is only used by members that can pay for it.
-/

import Sylverant.Library.Run
import Sylverant.Ship.BbHandlers

namespace Sylverant.Ship.Bb

open Function (update)

/-! ## Amounts in range -/

/-- Every amount of meseta in a list of items is in range. -/
def FloorInRange (queue : List Item) : Prop :=
  ∀ it ∈ queue, it.data.l0 = itemMeseta → it.data2L ≤ 999999

/-- The amounts of a client are in range, with the one that it is about to drop. -/
structure Client.InRange (c : Client) : Prop where
  meseta : c.meseta ≤ 999999
  bank : c.bankMeseta ≤ 999999
  dropped : c.dropItem = 0xFFFFFFFF → c.dropAmt ≤ 999999

/-- All amounts in a game are in range. -/
structure Game.InRange (l : Game) : Prop where
  floor : FloorInRange l.itemQueue
  member : ∀ i c, l.clients i = some c → c.InRange

/-- What the character and the bank have together. -/
def Client.total (c : Client) : Nat := c.meseta.toNat + c.bankMeseta.toNat

/-! ## Sums and differences that do not wrap -/

section Amounts

variable {amt inv bank : UInt32}

/-- A deposit that passes the checks. -/
theorem deposit_amounts (hinv : inv ≤ 999999) (hbank : bank ≤ 999999) (hle : ¬amt > inv)
    (hsum : ¬amt + bank > 999999) :
    inv - amt ≤ 999999 ∧ bank + amt ≤ 999999 ∧
      (inv - amt).toNat + (bank + amt).toNat = inv.toNat + bank.toNat := by
  simp only [UInt32.le_iff_toNat_le, UInt32.lt_iff_toNat_lt, UInt32.toNat_add, UInt32.toNat_sub,
    gt_iff_lt, UInt32.reduceToNat] at *
  omega

/-- A withdrawal that passes the checks. -/
theorem take_amounts (hinv : inv ≤ 999999) (hbank : bank ≤ 999999) (hle : ¬amt > bank)
    (hsum : ¬amt + inv > 999999) :
    inv + amt ≤ 999999 ∧ bank - amt ≤ 999999 ∧
      (inv + amt).toNat + (bank - amt).toNat = inv.toNat + bank.toNat := by
  simp only [UInt32.le_iff_toNat_le, UInt32.lt_iff_toNat_lt, UInt32.toNat_add, UInt32.toNat_sub,
    gt_iff_lt, UInt32.reduceToNat] at *
  omega

/-- What is taken away from an amount, as far as it is there. -/
theorem sub_amounts (hinv : inv ≤ 999999) (hle : ¬amt > inv) : inv - amt ≤ 999999 := by
  simp only [UInt32.le_iff_toNat_le, UInt32.lt_iff_toNat_lt, UInt32.toNat_sub, gt_iff_lt,
    UInt32.reduceToNat] at *
  omega

/-- The amount after something was picked up. -/
theorem capped_toNat (hinv : inv ≤ 999999) (hamt : amt ≤ 999999) :
    (if amt + inv > 999999 then 999999 else amt + inv).toNat =
      inv.toNat + min amt.toNat (999999 - inv.toNat) := by
  simp only [UInt32.le_iff_toNat_le, UInt32.lt_iff_toNat_lt, UInt32.toNat_add, gt_iff_lt,
    UInt32.reduceToNat, apply_ite UInt32.toNat] at *
  split <;> omega

theorem capped_le : (if amt + inv > 999999 then 999999 else amt + inv) ≤ 999999 := by
  split
  · exact UInt32.le_refl _
  · exact UInt32.not_lt.mp ‹_›

end Amounts

/-! ## What the handlers do to the amounts -/

/-- What a handler may do: the amounts stay in range if the packet is one of those that
are allowed, and a packet that is rejected changes none that the client has. -/
structure Fair (l : Game) (c : Client) (ok : Prop) (r : Outcome) : Prop where
  clients : r.1.clients = l.clients
  floor : ok → FloorInRange l.itemQueue → c.InRange → FloorInRange r.1.itemQueue
  client : ok → c.InRange → r.2.1.InRange
  rejected : r.2.2 < 0 → r.2.1.meseta = c.meseta ∧ r.2.1.bankMeseta = c.bankMeseta

section Handlers

variable {l l' : Game} {c c' : Client} {ok : Prop} {r : Outcome} {rv : Int}

/-- A handler that leaves the amounts alone, and puts nothing on the floor. -/
theorem Fair.of_same (hclients : l'.clients = l.clients)
    (hfloor : ∀ it ∈ l'.itemQueue, it ∈ l.itemQueue) (hmeseta : c'.meseta = c.meseta)
    (hbank : c'.bankMeseta = c.bankMeseta) (hitem : c'.dropItem = c.dropItem)
    (hamt : c'.dropAmt = c.dropAmt) : Fair l c ok (l', c', rv) where
  clients := hclients
  floor _ h _ it hit := h it (hfloor it hit)
  client _ h :=
    { meseta := hmeseta.symm ▸ h.meseta
      bank := hbank.symm ▸ h.bank
      dropped := by rw [hitem, hamt]; exact h.dropped }
  rejected _ := ⟨hmeseta, hbank⟩

theorem Fair.reject (l : Game) (c : Client) : Fair l c ok (reject l c) :=
  Fair.of_same rfl (fun _ h => h) rfl rfl rfl rfl

/-- A handler that puts an item on the floor, which is no more meseta than there may
be. -/
theorem Fair.of_dropped {it : Item} (hclients : l'.clients = l.clients)
    (hfloor : l'.itemQueue = it :: l.itemQueue)
    (hit : ok → c.InRange → it.data.l0 = itemMeseta → it.data2L ≤ 999999)
    (hclient : ok → c.InRange → c'.InRange)
    (hrejected : rv < 0 → c'.meseta = c.meseta ∧ c'.bankMeseta = c.bankMeseta) :
    Fair l c ok (l', c', rv) where
  clients := hclients
  floor hok h hc x hx := by
    rw [show (l', c', rv).1.itemQueue = it :: l.itemQueue from hfloor] at hx
    obtain rfl | hx := List.mem_cons.mp hx
    · exact hit hok hc
    · exact h x hx
  client := hclient
  rejected := hrejected

/-- The checks of `handle_bb_medic`. -/
def MedicAccepted (l : Game) (c : Client) (pkt : Header) : Prop :=
  l.type ≠ .default ∧ pkt.pktLen = 0x0C ∧ pkt.size = 0x01 ∧ pkt.clientId = c.clientId

/-- What a packet must meet: who uses the medical center can pay for it. An item that is put
on the floor is not meseta, which is dropped in another way. -/
def PacketOk (l : Game) (c : Client) : Packet → Prop
  | .dropItem _ pkt =>
      ∀ found ∈ findItem c.inv pkt.itemId, (c.inv.getD found default).data.l0 ≠ itemMeseta
  | .dropStack pkt =>
      pkt.itemId ≠ 0xFFFFFFFF →
        ∀ found ∈ findItem c.inv pkt.itemId, (c.items found).data.l0 ≠ itemMeseta
  | .medic pkt => MedicAccepted l c pkt → 10 ≤ c.meseta
  | _ => True

theorem dropItem_fair {garbage : Bool} {pkt : DropItemPkt} :
    Fair l c (PacketOk l c (.dropItem garbage pkt)) (handleBbDropItem garbage l c pkt) := by
  obtain ⟨inv, -, h⟩ | ⟨found, inv, rv, hfound, hsame, h⟩ := handleBbDropItem_cases l c garbage pkt
  · rw [h]
    exact Fair.of_same rfl (fun _ h => h) rfl rfl rfl rfl
  · rw [h]
    have hcode : (inv.getD found default).data.l0 = (c.inv.getD found default).data.l0 := by
      have hmap := hsame (fun it => it.data.l0) fun _ => rfl
      have hget := congrArg (fun codes => codes.getD found (default : Item).data.l0) hmap
      simpa only [List.getD_eq_getElem?_getD, List.getElem?_map, Option.getD_map] using hget
    refine Fair.of_dropped rfl rfl (fun hok _ hmeseta => ?_)
      (fun _ hc => ⟨hc.meseta, hc.bank, hc.dropped⟩) fun _ => ⟨rfl, rfl⟩
    exact absurd (hcode.symm.trans hmeseta) (hok found hfound)

theorem dropPos_fair {pkt : DropPosPkt} : Fair l c ok (handleBbDropPos l c pkt) := by
  obtain h | ⟨hle, h⟩ := handleBbDropPos_cases l c pkt
  · rw [h]
    exact Fair.reject l c
  · rw [h]
    refine ⟨rfl, fun _ hfloor _ => hfloor, fun _ hc => ⟨hc.meseta, hc.bank, fun hitem => ?_⟩,
      fun _ => ⟨rfl, rfl⟩⟩
    exact UInt32.le_trans (UInt32.not_lt.mp (hle hitem)) hc.meseta

theorem dropStack_fair {pkt : DestroyItemPkt} :
    Fair l c (PacketOk l c (.dropStack pkt)) (handleBbDropStack l c pkt) := by
  obtain h | h | ⟨it, hit, hitem, hamt, h⟩ := handleBbDropStack_cases l c pkt
  · rw [h]
    exact Fair.reject l c
  · rw [h]
    exact Fair.of_same rfl (fun _ h => h) rfl rfl rfl rfl
  · have hrange : PacketOk l c (.dropStack pkt) → c.InRange → it.data.l0 = itemMeseta →
        it.data2L ≤ 999999 := by
      intro hok hc hmeseta
      rw [stackItem] at hit
      split at hit
      · rename_i hne
        obtain ⟨found, hfound, rfl⟩ := Option.map_eq_some_iff.mp hit
        exact absurd hmeseta (hok hne found hfound)
      · rename_i heq
        cases hit
        rw [hamt]
        exact hc.dropped (hitem.symm.trans (not_not.mp heq))
    obtain ⟨-, rv, h⟩ | ⟨-, h | ⟨hle, h⟩⟩ := h
    · rw [h]
      exact Fair.of_dropped rfl rfl hrange (fun _ hc => ⟨hc.meseta, hc.bank, hc.dropped⟩)
        fun _ => ⟨rfl, rfl⟩
    · rw [h]
      exact Fair.of_dropped rfl rfl hrange (fun _ hc => hc) fun _ => ⟨rfl, rfl⟩
    · rw [h]
      exact Fair.of_dropped rfl rfl hrange
        (fun _ hc => ⟨sub_amounts hc.meseta hle, hc.bank, hc.dropped⟩)
        fun hneg => absurd hneg (Int.lt_irrefl 0)

theorem pickUp_fair {pkt : PickUpPkt} : Fair l c ok (handleBbPickUp l c pkt) := by
  obtain ⟨rv, h⟩ | ⟨front, it, back, -, hqueue, h⟩ := handleBbPickUp_cases l c pkt
  · rw [h]
    exact Fair.of_same rfl (fun _ h => h) rfl rfl rfl rfl
  have hrest : ∀ x ∈ front ++ back, x ∈ l.itemQueue := by
    intro x hx
    rw [hqueue]
    exact List.mem_append.mpr ((List.mem_append.mp hx).imp_right (List.mem_cons_of_mem _))
  obtain ⟨-, meseta, hcap, h⟩ | ⟨-, x, rv, -, h⟩ := h
  · rw [h]
    exact ⟨rfl, fun _ hfloor _ x hx => hfloor x (hrest x hx),
      fun _ hc => ⟨hcap ▸ capped_le, hc.bank, hc.dropped⟩,
      fun hneg => absurd hneg (Int.lt_irrefl 0)⟩
  · rw [h]
    exact Fair.of_same rfl hrest rfl rfl rfl rfl

/-- A bank action is fair, and moves meseta between the character and the bank only. -/
theorem bankAction_fair {pkt : BankActPkt} :
    Fair l c ok (handleBbBankAction l c pkt) ∧
      (c.InRange → (handleBbBankAction l c pkt).2.1.total = c.total) := by
  have hreject : Fair l c ok (reject l c) ∧ (c.InRange → (reject l c).2.1.total = c.total) :=
    ⟨Fair.reject l c, fun _ => rfl⟩
  unfold handleBbBankAction
  split
  · exact hreject
  split
  · exact hreject
  split
  · exact ⟨Fair.of_same rfl (fun _ h => h) rfl rfl rfl rfl, fun _ => rfl⟩
  split
  · split
    · unfold depositMeseta
      split
      · exact hreject
      split
      · exact hreject
      · rename_i hle hsum
        refine ⟨⟨rfl, fun _ hfloor _ => hfloor, fun _ hc => ?_,
          fun hneg => absurd hneg (Int.lt_irrefl 0)⟩, fun hc => ?_⟩
        · obtain ⟨hinv, hbank, -⟩ := deposit_amounts hc.meseta hc.bank hle hsum
          exact ⟨hinv, hbank, hc.dropped⟩
        · exact (deposit_amounts hc.meseta hc.bank hle hsum).2.2
    · obtain h | ⟨inv, bank, rv, -, h⟩ := depositItem_cases l c pkt.itemId pkt.itemAmount
      · rw [h]
        exact hreject
      · rw [h]
        exact ⟨Fair.of_same rfl (fun _ h => h) rfl rfl rfl rfl, fun _ => rfl⟩
  split
  · split
    · unfold takeMeseta
      split
      · exact hreject
      split
      · exact hreject
      · rename_i hsum hle
        refine ⟨⟨rfl, fun _ hfloor _ => hfloor, fun _ hc => ?_,
          fun hneg => absurd hneg (Int.lt_irrefl 0)⟩, fun hc => ?_⟩
        · obtain ⟨hinv, hbank, -⟩ := take_amounts hc.meseta hc.bank hle hsum
          exact ⟨hinv, hbank, hc.dropped⟩
        · exact (take_amounts hc.meseta hc.bank hle hsum).2.2
    · obtain h | ⟨it, bank, rv, -, h⟩ := takeItem_cases l c pkt.itemId pkt.itemAmount
      · rw [h]
        exact hreject
      · rw [h]
        exact ⟨Fair.of_same rfl (fun _ h => h) rfl rfl rfl rfl, fun _ => rfl⟩
  · exact hreject

/-- What can come of using the medical center. -/
theorem handleBbMedic_cases (pkt : Header) :
    handleBbMedic l c pkt = reject l c ∨ MedicAccepted l c pkt ∧
      handleBbMedic l c pkt =
        (l, { c with meseta := c.meseta - 10, plMeseta := c.plMeseta - 10 }, 0) := by
  unfold handleBbMedic
  split
  · exact .inl rfl
  rename_i htype
  split
  · exact .inl rfl
  rename_i hpkt
  obtain ⟨hlen, hpkt⟩ := not_or.mp hpkt
  obtain ⟨hsize, hid⟩ := not_or.mp hpkt
  exact .inr ⟨⟨htype, not_not.mp hlen, not_not.mp hsize, not_not.mp hid⟩, rfl⟩

theorem medic_fair {pkt : Header} :
    Fair l c (PacketOk l c (.medic pkt)) (handleBbMedic l c pkt) := by
  obtain h | ⟨haccepted, h⟩ := @handleBbMedic_cases l c pkt
  · rw [h]
    exact Fair.reject l c
  · rw [h]
    refine ⟨rfl, fun _ hfloor _ => hfloor, fun hok hc => ⟨?_, hc.bank, hc.dropped⟩,
      fun hneg => absurd hneg (Int.lt_irrefl 0)⟩
    exact sub_amounts hc.meseta (UInt32.not_lt.mpr (hok haccepted))

theorem bank_fair {req : Header} : Fair l c ok (handleBbBank l c req) := by
  unfold handleBbBank
  split
  · exact Fair.reject l c
  split
  · exact Fair.reject l c
  · exact Fair.of_same rfl (fun _ h => h) rfl rfl rfl rfl

theorem handle_fair (l : Game) (c : Client) (pkt : Packet) :
    Fair l c (PacketOk l c pkt) (handle l c pkt) := by
  cases pkt with
  | dropItem garbage pkt => exact dropItem_fair
  | dropPos pkt => exact dropPos_fair
  | dropStack pkt => exact dropStack_fair
  | pickUp pkt => exact pickUp_fair
  | bank req => exact bank_fair
  | bankAction pkt => exact bankAction_fair.1
  | medic pkt => exact medic_fair
  | forward => exact Fair.of_same rfl (fun _ h => h) rfl rfl rfl rfl

/-- The checks of `handle_bb_pick_up`, for an item that is on the floor. -/
def PicksUp (l : Game) (c : Client) (pkt : PickUpPkt) (it : Item) : Prop :=
  l.type ≠ .default ∧ pkt.pktLen = 0x14 ∧ pkt.size = 0x03 ∧ pkt.clientId = c.clientId ∧
    (lobbyRemoveItemLocked l pkt.itemId).2.2 = some it

/-- Meseta that is picked up adds to what the character has, up to the limit. -/
theorem meseta_handleBbPickUp {pkt : PickUpPkt} {it : Item} (hpick : PicksUp l c pkt it)
    (hmeseta : it.data.l0 = itemMeseta) (hfloor : FloorInRange l.itemQueue) (hc : c.InRange) :
    (handleBbPickUp l c pkt).2.1.meseta.toNat =
      c.meseta.toNat + min it.data2L.toNat (999999 - c.meseta.toNat) := by
  obtain ⟨htype, hlen, hsize, hid, hfound⟩ := hpick
  have hpkt : ¬(pkt.pktLen ≠ 0x14 ∨ pkt.size ≠ 0x03 ∨ pkt.clientId ≠ c.clientId) := by
    simp only [hlen, hsize, hid, ne_eq, not_true_eq_false, or_self, not_false_eq_true]
  rcases hr : lobbyRemoveItemLocked l pkt.itemId with ⟨l', rv, found⟩
  obtain rfl : found = some it := by rw [hr] at hfound; exact hfound
  obtain ⟨-, front, back, hqueue, -⟩ := lobbyRemoveItemLocked_eq_some hr
  have hamt : it.data2L ≤ 999999 := hfloor it (by simp [hqueue]) hmeseta
  rw [handleBbPickUp, if_neg htype, if_neg hpkt, hr]
  simp only [hmeseta, if_true]
  exact capped_toNat hc.meseta hamt

/-- The fee is taken from less than it only by going below 0. -/
theorem medic_inRange_iff {pkt : Header} (haccepted : MedicAccepted l c pkt) (hc : c.InRange) :
    (handleBbMedic l c pkt).2.1.meseta ≤ 999999 ↔ 10 ≤ c.meseta := by
  have hmeseta := hc.meseta
  obtain ⟨htype, hlen, hsize, hid⟩ := haccepted
  have hpkt : ¬(pkt.pktLen ≠ 0x0C ∨ pkt.size ≠ 0x01 ∨ pkt.clientId ≠ c.clientId) := by
    simp only [hlen, hsize, hid, ne_eq, not_true_eq_false, or_self, not_false_eq_true]
  rw [handleBbMedic, if_neg htype, if_neg hpkt]
  simp only [UInt32.le_iff_toNat_le, UInt32.toNat_sub, UInt32.reduceToNat] at *
  omega

end Handlers

/-! ## Runs -/

section Runs

instance (c : Client) : Decidable c.InRange :=
  decidable_of_iff
    (c.meseta ≤ 999999 ∧ c.bankMeseta ≤ 999999 ∧ (c.dropItem = 0xFFFFFFFF → c.dropAmt ≤ 999999))
    ⟨fun ⟨hmeseta, hbank, hdropped⟩ => ⟨hmeseta, hbank, hdropped⟩,
      fun h => ⟨h.meseta, h.bank, h.dropped⟩⟩

/-- The amounts that come into a game: a client joins with amounts in range, and the meseta
that is generated for a drop is. -/
def AmountsPromised : Event → Prop
  | .join c => c.InRange
  | .drop data data2L => data.l0 = itemMeseta → data2L ≤ 999999
  | _ => True

instance : (e : Event) → Decidable (AmountsPromised e)
  | .join c => inferInstanceAs (Decidable c.InRange)
  | .drop _ _ => inferInstanceAs (Decidable (_ → _))
  | .rejoin _ | .leave _ | .packet _ _ | .char _ _ _ _ => inferInstanceAs (Decidable True)

/-- What the events must meet. -/
def MesetaOk (l : Game) : Event → Prop
  | .packet i pkt => ∀ c ∈ l.clients i, PacketOk l c pkt
  | _ => True

instance (l : Game) (c : Client) (pkt : Header) : Decidable (MedicAccepted l c pkt) :=
  inferInstanceAs (Decidable (_ ∧ _))

instance (l : Game) (c : Client) : (pkt : Packet) → Decidable (PacketOk l c pkt)
  | .dropItem _ _ => inferInstanceAs (Decidable (∀ found ∈ _, _))
  | .dropStack _ => inferInstanceAs (Decidable (_ → ∀ found ∈ _, _))
  | .medic _ => inferInstanceAs (Decidable (_ → _))
  | .dropPos _ | .pickUp _ | .bank _ | .bankAction _ | .forward => inferInstanceAs (Decidable True)

instance (l : Game) : (e : Event) → Decidable (MesetaOk l e)
  | .packet _ _ => inferInstanceAs (Decidable (∀ c ∈ _, _))
  | .join _ | .rejoin _ | .leave _ | .drop _ _ | .char _ _ _ _ => inferInstanceAs (Decidable True)

/-- What holds of all members still does when one of them changes. -/
theorem member_update {clients : Nat → Option Client} {P : Client → Prop} {i : Nat}
    {v : Option Client} (h : ∀ j c, clients j = some c → P c) (hv : ∀ c, v = some c → P c) :
    ∀ j c, update clients i v j = some c → P c := by
  intro j c hc
  by_cases hj : j = i
  · rw [hj, Function.update_self] at hc
    exact hv c hc
  · rw [Function.update_of_ne hj] at hc
    exact h j c hc

/-- Fixing up an inventory changes no amount. -/
theorem fixInventory_inRange {l : Game} {c : Client} (h : l.InRange) (hc : c.InRange) :
    (fixInventory l c).InRange where
  floor := h.floor
  member := member_update h.member fun _ hd =>
    Option.some.inj hd ▸ ⟨hc.meseta, hc.bank, hc.dropped⟩

/-- An event keeps the amounts in range. -/
theorem inRange_step (l : Game) (e : Event) (h : l.InRange)
    (hok : AmountsPromised e ∧ MesetaOk l e) : (step l e).InRange := by
  obtain ⟨hpromised, hok⟩ := hok
  cases e with
  | join c =>
      rw [step, joinGame]
      split
      · exact h
      · exact fixInventory_inRange h ⟨hpromised.meseta, hpromised.bank, hpromised.dropped⟩
  | rejoin i =>
      rw [step]
      split
      · exact h
      · exact fixInventory_inRange h (h.member _ _ ‹_›)
  | leave i => exact ⟨h.floor, member_update h.member fun _ hd => nomatch hd⟩
  | drop data data2L =>
      rw [step, lobbyAddItemLocked]
      split
      · exact h
      · refine ⟨fun it hit hmeseta => ?_, h.member⟩
        obtain rfl | hit := List.mem_cons.mp hit
        · exact hpromised hmeseta
        · exact h.floor it hit hmeseta
  | packet i pkt =>
      rw [step]
      split
      · exact h
      · rename_i c hc
        have hfair := handle_fair l c pkt
        have hpkt := hok c hc
        have hrange := h.member i c hc
        exact ⟨hfair.floor hpkt h.floor hrange, member_update (hfair.clients ▸ h.member)
          fun _ hd => Option.some.inj hd ▸ hfair.client hpkt hrange⟩
  | char i meseta items count =>
      rw [step]
      split
      · exact h
      · rename_i c hc
        have hrange := h.member i c hc
        exact ⟨h.floor, member_update h.member fun _ hd =>
          Option.some.inj hd ▸ ⟨hrange.meseta, hrange.bank, hrange.dropped⟩⟩

/-- In a run where nobody uses the medical center without the fee, all amounts are in range
at all times. Bank transfers that are accepted move meseta, packets that are rejected do not,
and picking meseta up gives as much of it as there is room for. -/
theorem meseta_run {l₀ : Game} {es : List Event} (hstart : l₀.InRange)
    (hrun : Run.Guarded step (fun l e => AmountsPromised e ∧ MesetaOk l e) l₀ es) :
    let l := es.foldl step l₀
    l.InRange ∧ ∀ i c, l.clients i = some c →
      (∀ pkt, 0 ≤ (handleBbBankAction l c pkt).2.2 →
        (handleBbBankAction l c pkt).2.1.total = c.total) ∧
      (∀ pkt, (handle l c pkt).2.2 < 0 → (handle l c pkt).2.1.meseta = c.meseta ∧
        (handle l c pkt).2.1.bankMeseta = c.bankMeseta) ∧
      (∀ pkt it, PicksUp l c pkt it → it.data.l0 = itemMeseta →
        (handleBbPickUp l c pkt).2.1.meseta.toNat =
          c.meseta.toNat + min it.data2L.toNat (999999 - c.meseta.toNat)) ∧
      ∀ pkt, MedicAccepted l c pkt →
        ((handleBbMedic l c pkt).2.1.meseta ≤ 999999 ↔ 10 ≤ c.meseta) := by
  intro l
  have hrange : l.InRange := hrun.invariant inRange_step hstart
  refine ⟨hrange, fun i c hc => ⟨fun pkt _ => ?_, fun pkt => ?_, fun pkt it hpick hmeseta => ?_,
    fun pkt haccepted => ?_⟩⟩
  · exact (@bankAction_fair l c True pkt).2 (hrange.member i c hc)
  · exact (handle_fair l c pkt).rejected
  · exact meseta_handleBbPickUp hpick hmeseta hrange.floor (hrange.member i c hc)
  · exact medic_inRange_iff haccepted (hrange.member i c hc)

theorem inRange_lobbyCreateGame (singlePlayer : Bool) : (lobbyCreateGame singlePlayer).InRange where
  floor _ h := nomatch h
  member _ _ h := nomatch h

/-- A client deposits meseta, drops some, picks it up again and uses the medical center. -/
def depositsAndDrops : List Event :=
  [.join { meseta := 100, bankMeseta := 50 },
    .packet 0 (.bankAction ⟨⟨0x18, 0x04, 0⟩, 0xFFFFFFFF, 30, 0, 0⟩),
    .packet 0 (.dropPos ⟨⟨0x20, 0x06, 0⟩, 0xFFFFFFFF, 20⟩),
    .packet 0 (.dropStack ⟨⟨0x14, 0x03, 0⟩, 0xFFFFFFFF, 20⟩),
    .packet 0 (.pickUp ⟨⟨0x14, 0x03, 0⟩, 0x00010000⟩),
    .packet 0 (.medic ⟨0x0C, 0x01, 0⟩)]

theorem meseta_run_depositsAndDrops :
    (depositsAndDrops.foldl step (lobbyCreateGame false)).InRange :=
  (meseta_run (inRange_lobbyCreateGame false) (by decide)).1

/-- A client with less than the fee uses the medical center. -/
def medicWithoutFee : List Event :=
  [.join { meseta := 5 }, .packet 0 (.medic ⟨0x0C, 0x01, 0⟩)]

theorem not_inRange_medicWithoutFee :
    (∀ e ∈ medicWithoutFee, AmountsPromised e) ∧
      ¬(medicWithoutFee.foldl step (lobbyCreateGame false)).InRange := by
  refine ⟨by decide, fun h => ?_⟩
  have hmember : ((medicWithoutFee.foldl step (lobbyCreateGame false)).clients 0).map
      (·.meseta) = some 4294967291 := by decide
  obtain ⟨c, hc, hmeseta⟩ := Option.map_eq_some_iff.mp hmember
  have hle := (h.member 0 c hc).meseta
  rw [hmeseta] at hle
  exact absurd hle (by decide)

end Runs

end Sylverant.Ship.Bb
