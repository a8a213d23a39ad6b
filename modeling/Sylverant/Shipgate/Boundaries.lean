/-
# Where the packets of the shipgate end

A ship takes as many bytes for a packet as its length tells, rounded up to whole blocks of 8
bytes. Each way in which the shipgate sends a packet either writes as many, or does so under a
condition on the request and on what the database has for it.
-/

import Sylverant.Shipgate.Framing
import Sylverant.Shipgate.Requests

namespace Sylverant.Shipgate

/-- As many bytes are written for a packet as its length tells, rounded up to 8. -/
def Aligned (pkt : List UInt8) : Prop := pkt.length = (pktLen pkt + 7) / 8 * 8

/-- A packet that is sent is at least a header, which has its length in 16 bits. -/
structure IsPacket (pkt : List UInt8) : Prop where
  hdr_le : 8 ≤ pkt.length
  pktLen_eq : pktLen pkt = pkt.length % 0x10000

/-- Packets are written as they should be if and only if a condition holds. -/
structure Emits (pkts : List (List UInt8)) (fine : Prop) : Prop where
  packets : ∀ pkt ∈ pkts, IsPacket pkt
  aligned_iff : (∀ pkt ∈ pkts, Aligned pkt) ↔ fine

/-! ## One packet -/

theorem IsPacket.aligned_iff {pkt : List UInt8} (h : IsPacket pkt) :
    Aligned pkt ↔ pkt.length < 0x10000 ∧ pkt.length % 8 = 0 := by
  have hhdr := h.hdr_le
  rw [Aligned, h.pktLen_eq]
  omega

/-- The ship takes exactly the packets that are written as they should be. -/
theorem IsPacket.framed_iff {pkt : List UInt8} (h : IsPacket pkt) :
    Framed pktLen8 pkt ↔ Aligned pkt := by
  have hhdr := h.hdr_le
  rw [h.aligned_iff]
  constructor
  · intro hframed
    have hsize := hframed.size_eq
    have hlt := hframed.length_lt
    rw [pktLen8_take, pktLen8_eq, h.pktLen_eq] at hsize
    omega
  · rintro ⟨hlt, hblocks⟩
    refine ⟨hhdr, hlt, ?_⟩
    rw [pktLen8_take, pktLen8_eq, h.pktLen_eq]
    omega

theorem isPacket_packet {len : Nat} (h : 8 ≤ len) (type flags : Nat) (body : List UInt8) :
    IsPacket (packet len type flags body) := by
  have hlen := length_packet len type flags body
  refine ⟨hlen.symm ▸ h, ?_⟩
  obtain ⟨len, rfl⟩ : ∃ k, len = k + 2 := ⟨len - 2, by omega⟩
  have hfirst : pktLen (packet (len + 2) type flags body) =
      256 * (UInt8.ofNat ((len + 2) / 256)).toNat + (UInt8.ofNat (len + 2)).toNat := rfl
  rw [hlen, hfirst, UInt8.toNat_ofNat', UInt8.toNat_ofNat']
  omega

/-! ## Lists of packets -/

theorem emits_nil {fine : Prop} (h : fine) : Emits [] fine where
  packets := fun _ hpkt => nomatch hpkt
  aligned_iff := ⟨fun _ => h, fun _ _ hpkt => nomatch hpkt⟩

theorem emits_packet {len : Nat} (h : 8 ≤ len) (type flags : Nat) (body : List UInt8) :
    Emits [packet len type flags body] (len < 0x10000 ∧ len % 8 = 0) where
  packets := fun pkt hpkt => List.mem_singleton.mp hpkt ▸ isPacket_packet h type flags body
  aligned_iff := by
    have hone := (isPacket_packet h type flags body).aligned_iff
    rw [length_packet] at hone
    simpa using hone

theorem Emits.congr {pkts : List (List UInt8)} {fine fine' : Prop} (h : Emits pkts fine)
    (hiff : fine ↔ fine') : Emits pkts fine' where
  packets := h.packets
  aligned_iff := h.aligned_iff.trans hiff

theorem Emits.append {pkts pkts' : List (List UInt8)} {fine fine' : Prop} (h : Emits pkts fine)
    (h' : Emits pkts' fine') : Emits (pkts ++ pkts') (fine ∧ fine') where
  packets := by
    intro pkt hpkt
    rcases List.mem_append.mp hpkt with hpkt | hpkt
    · exact h.packets pkt hpkt
    · exact h'.packets pkt hpkt
  aligned_iff := by
    rw [List.forall_mem_append, h.aligned_iff, h'.aligned_iff]

theorem emits_sendCrypt (len type flags : Nat) (body : List UInt8) :
    Emits (sendCrypt len type flags body) (len < 8 ∨ len < 0x10000 ∧ len % 8 = 0) := by
  rw [sendCrypt]
  split
  · rename_i hshort
    exact emits_nil (.inl hshort)
  · rename_i hlong
    exact (emits_packet (Nat.le_of_not_lt hlong) type flags body).congr (by omega)

/-- Packets of a size that is known are fine. -/
theorem emits_fixed {len : Nat} (hlt : len < 0x10000) (hblocks : len % 8 = 0) (type flags : Nat)
    (body : List UInt8) : Emits (sendCrypt len type flags body) True :=
  (emits_sendCrypt len type flags body).congr (iff_true_intro (.inr ⟨hlt, hblocks⟩))

/-! ## The functions that send -/

/-- The lengths of game packets that do not fit into a packet of the shipgate, although they
need no padding. -/
def Oversized (innerLen : Nat) : Prop := innerLen = 65512 ∨ innerLen = 65520 ∨ innerLen = 65528

theorem emits_forward {innerLen : Nat} (hlt : innerLen < 0x10000) (type : Nat) (inner : Mem)
    (sender gc block : Nat) :
    Emits (forward type innerLen inner sender gc block) ¬Oversized innerLen := by
  have hlow (n : Nat) : (n &&& 0xFFF8) % 8 = 0 := by
    rw [show (8 : Nat) = 2 ^ 3 from rfl, ← Nat.and_two_pow_sub_one_eq_mod, Nat.and_assoc]
    exact Nat.and_zero n
  have hhigh (n : Nat) : n &&& 0xFFF8 ≤ 0xFFF8 := Nat.and_le_right
  have hmod : (24 + innerLen) &&& 0x07 = (24 + innerLen) % 8 :=
    Nat.and_two_pow_sub_one_eq_mod _ 3
  unfold forward
  dsimp only
  rw [hmod]
  split
  · rename_i hpad
    apply (emits_sendCrypt _ type 0 _).congr
    have hlow := hlow (24 + innerLen + 8)
    have hhigh := hhigh (24 + innerLen + 8)
    rw [Oversized]
    omega
  · rename_i hwhole
    apply (emits_sendCrypt _ type 0 _).congr
    rw [Oversized]
    omega

theorem le16_lt (m : Mem) (offset : Nat) : m.le16 offset < 0x10000 := by
  have hlow := (m offset).toNat_lt
  have hhigh := (m (offset + 1)).toNat_lt
  rw [Mem.le16]
  omega

/-- The sizes of data that an error packet can repeat. More is not sent at all. -/
def Repeatable (size : Nat) : Prop := size % 8 = 0 ∨ 65520 < size

theorem emits_sendError (type flags err : Nat) (data : List UInt8) :
    Emits (sendError type flags err data) (Repeatable data.length) := by
  rw [sendError]
  split
  · rename_i hlarge
    exact emits_nil (.inr hlarge)
  · apply (emits_sendCrypt _ type flags _).congr
    rw [Repeatable]
    omega

theorem emits_sendCdata (gc slot : Nat) (cdata : List UInt8) (block : Nat) :
    Emits (sendCdata gc slot cdata block) (cdata.length % 8 = 4 ∧ cdata.length < 65516) :=
  (emits_sendCrypt ..).congr (by omega)

theorem emits_sendShipStatus (o : ShipInfo) (status : Nat) :
    Emits (sendShipStatus o status) True := by
  rw [sendShipStatus]
  split
  · exact emits_nil trivial
  · exact emits_fixed (by decide) (by decide) ..

theorem emits_sendFriendMessage (on : Bool) (m : FriendMessage) :
    Emits (sendFriendMessage on m) True := emits_fixed (by decide) (by decide) ..

theorem emits_sendSimpleMail (keyIdx gc block sender : Nat) (name msg : List UInt8) :
    Emits (sendSimpleMail keyIdx gc block sender name msg) True := by
  apply (emits_forward (le16_lt _ 2) ..).congr
  apply iff_true_intro
  show ¬Oversized 0x220
  rw [Oversized]
  decide

theorem emits_sendFriendlist (requester block : Nat) (entries : List FriendlistData) :
    Emits (sendFriendlist requester block entries) True :=
  (emits_sendCrypt ..).congr (iff_true_intro (by omega))

theorem length_userOption (opt : Nat) (data : List UInt8) :
    (userOption opt data).length % 8 = 0 := by
  have hlen : (userOption opt data).length = 8 + (data.length + (8 - data.length % 8)) := by
    simp [userOption, htonl, htons]
    omega
  rw [hlen]
  omega

/-- Options are padded, so that all of them together are, too. -/
theorem emits_sendUserOptions (gc block : Nat) (opts : List (Nat × List UInt8)) :
    Emits (sendUserOptions gc block opts) True := by
  have hoptions : ((opts.map fun o => userOption o.1 o.2).flatten).length % 8 = 0 := by
    induction opts with
    | nil => rfl
    | cons opt opts ih =>
        have hfirst := length_userOption opt.1 opt.2
        rw [List.map_cons, List.flatten_cons, List.length_append]
        omega
  unfold sendUserOptions
  dsimp only
  split
  · exact emits_nil trivial
  · exact (emits_sendCrypt ..).congr (iff_true_intro (by omega))

theorem emits_sendGlobalMsg (requester : Nat) (text : Mem) (textLen : Nat) :
    Emits (sendGlobalMsg requester text textLen)
      ((16 + textLen) % 0x10000 < 8 ∨ (16 + textLen) % 8 = 0) := by
  unfold sendGlobalMsg
  apply (emits_sendCrypt ..).congr
  omega

/-! ## Requests -/

/-- Packets to several connections are written as they should be if and only if a condition
holds. -/
def SentIf (sent : List Sent) (fine : Prop) : Prop := Emits (sent.map Prod.snd) fine

theorem sentIf_nil {fine : Prop} (h : fine) : SentIf [] fine := emits_nil h

theorem SentIf.congr {sent : List Sent} {fine fine' : Prop} (h : SentIf sent fine)
    (hiff : fine ↔ fine') : SentIf sent fine' :=
  Emits.congr h hiff

theorem SentIf.append {sent sent' : List Sent} {fine fine' : Prop} (h : SentIf sent fine)
    (h' : SentIf sent' fine') : SentIf (sent ++ sent') (fine ∧ fine') := by
  rw [SentIf, List.map_append]
  exact Emits.append h h'

/-- What is always fine, one after the other. -/
theorem SentIf.append_true {sent sent' : List Sent} (h : SentIf sent True)
    (h' : SentIf sent' True) : SentIf (sent ++ sent') True :=
  (h.append h').congr (iff_true_intro ⟨trivial, trivial⟩)

theorem Emits.sentTo {pkts : List (List UInt8)} {fine : Prop} (h : Emits pkts fine) (conn : Nat) :
    SentIf (sendTo conn pkts) fine := by
  have hpkts : (sendTo conn pkts).map Prod.snd = pkts := by
    rw [sendTo, List.map_map]
    exact List.map_id pkts
  rw [SentIf, hpkts]
  exact h

/-- What is sent to each of a list is fine if all of it is, or if the list is empty. -/
theorem sentIf_flatMap {α : Type} {send : α → List Sent} {fine : Prop}
    (h : ∀ a, SentIf (send a) fine) (as : List α) :
    SentIf (as.flatMap send) (as = [] ∨ fine) := by
  induction as with
  | nil => exact sentIf_nil (.inl rfl)
  | cons a as ih =>
      rw [List.flatMap_cons]
      apply ((h a).append ih).congr
      constructor
      · exact fun hboth => .inr hboth.1
      · exact fun hone => hone.elim (fun hnil => nomatch hnil) fun hfine => ⟨hfine, .inr hfine⟩

/-- What is always fine. -/
theorem sentIf_flatMap_true {α : Type} {send : α → List Sent} (h : ∀ a, SentIf (send a) True)
    (as : List α) : SentIf (as.flatMap send) True :=
  (sentIf_flatMap h as).congr (iff_true_intro (.inr trivial))

theorem length_bytes (m : Mem) (offset len : Nat) : (m.bytes offset len).length = len := by
  rw [Mem.bytes, List.length_map, List.length_range]

theorem sentIf_error (conn type flags err : Nat) (m : Mem) (offset len : Nat) :
    SentIf (sendTo conn (sendError type flags err (m.bytes offset len))) (Repeatable len) := by
  have herror := emits_sendError type flags err (m.bytes offset len)
  rw [length_bytes] at herror
  exact herror.sentTo conn

/-- Fields of whole blocks can be repeated. -/
theorem sentIf_answer (conn type failed : Nat) {size : Nat} (hsize : size % 8 = 0) (pkt : Mem)
    (a : Answer Unit) : SentIf (sendTo conn (answer type failed size pkt a)) True := by
  have hfine : Repeatable size ↔ True := iff_true_intro (.inl hsize)
  cases a with
  | silent => exact sentIf_nil trivial
  | failure err => exact (sentIf_error ..).congr hfine
  | success a => exact (sentIf_error ..).congr hfine

/-- The condition on what is sent after a success. -/
def Answer.Fine {α : Type} (fine : α → Prop) : Answer α → Prop
  | .silent => True
  | .failure _ => True
  | .success a => fine a

theorem sentIf_answerWith {α : Type} (conn type failed : Nat) (pkt : Mem)
    {send : α → List (List UInt8)} {fine : α → Prop} (h : ∀ a, Emits (send a) (fine a))
    (a : Answer α) : SentIf (sendTo conn (answerWith type failed pkt send a)) (a.Fine fine) := by
  cases a with
  | silent => exact sentIf_nil trivial
  | failure err => exact (sentIf_error ..).congr (iff_true_intro (.inl rfl))
  | success a => exact (h a).sentTo conn

theorem Answer.fine_true {α : Type} (a : Answer α) : a.Fine (fun _ => True) ↔ True := by
  cases a <;> exact Iff.rfl

end Sylverant.Shipgate
