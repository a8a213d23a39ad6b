/-
# User options

The shipgate sends the options of a user to the ship that it is on, in one packet that is built
option by option, and the ship walks over the options in place. A ship sends a single option to
the shipgate when the user changes it, and the shipgate checks its length in several ways.

A packet that was received lies at the beginning of some memory.
-/

import Mathlib.Algebra.GroupWithZero.Nat
import Sylverant.Ship.FromShipgate

namespace Sylverant.Ship.UserOptions

open FromShipgate
open Shipgate

/-! ## Sending -/

/-- `shipgate_user_opt_pkt` in the buffer of the shipgate. The length and the count are in the
byte order of the host as long as it is built. -/
structure Building where
  pktLen : UInt16
  guildcard : UInt32
  block : UInt32
  count : UInt32
  options : List UInt8

/-- `user_options_begin` -/
def userOptionsBegin (guildcard block : UInt32) : Building where
  pktLen := 24
  guildcard := guildcard
  block := block
  count := 0
  options := []

/-- `user_options_append`, at the place that the last call returned. -/
def userOptionsAppend (b : Building) (opt : UInt32) (data : List UInt8) : Building :=
  let padding := 8 - (data.length &&& 7)
  let len := data.length + padding
  { b with
    options := b.options ++
      (htonl opt.toNat ++ htonl (len + 8) ++ data ++ List.replicate padding 0)
    pktLen := b.pktLen + (len + 8).toUInt16
    count := b.count + 1 }

/-- `send_user_options` -/
def sendUserOptions (b : Building) : List (List UInt8) :=
  if b.count = 0 then []
  else
    sendCrypt b.pktLen.toNat SHDR_TYPE_USEROPT 0 (htonl b.guildcard.toNat ++ htonl b.block.toNat ++
      htonl b.count.toNat ++ htonl 0 ++ b.options)

/-- An option number, and a value. -/
abbrev Opt := UInt32 × List UInt8

/-- The packet with some options, as `handle_block_login` has it built and sent. -/
def sendOptions (guildcard block : UInt32) (opts : List Opt) : List (List UInt8) :=
  sendUserOptions (opts.foldl (fun b o => userOptionsAppend b o.1 o.2)
    (userOptionsBegin guildcard block))

/-- `shipgate_send_user_opt` of a ship, with a buffer, and data that is there. -/
def shipgateSendUserOpt (gc block opt : UInt32) (data : List UInt8) : Option (List UInt8) :=
  let padding := 8 - (data.length &&& 7)
  let pktLen := (data.length + 24 + 8 + padding).toUInt16
  if data.length = 0 ∨ data.length ≥ 0x100 then none
  else
    some (packet pktLen.toNat SHDR_TYPE_USEROPT 0 (htonl gc.toNat ++ htonl block.toNat ++ htonl 1 ++
      htonl 0 ++ (htonl opt.toNat ++ htonl (data.length + padding + 8) ++ data ++
        List.replicate padding 0)))

/-- The checks in `handle_useropt` of the shipgate, with the guild card, the option and the byte
that get into the query. -/
def handleUseroptChecks (m : Mem) : Except Int (Nat × Nat × UInt8) :=
  let len := m.net16 0
  if len < 24 + 16 then .error (-2)
  else
    let ugc := m.net32 8
    let optlen := m.net32 28
    let opttype := m.net32 24
    if optlen ≠ len - 24 then .error (-3)
    else
      match opttype with
      | 1 | 2 | 3 | 4 => if optlen ≠ 16 then .error (-4) else .ok (ugc, opttype, m 32)
      | _ => .error (-5)

/-! ## What a walk should come by -/

/-- The bytes that an option takes. -/
def encodedLength (value : List UInt8) : Nat := value.length + (8 - value.length % 8) + 8

/-- The bytes that the packet takes. -/
def encodedSize (opts : List Opt) : Nat := 24 + (opts.map fun o => encodedLength o.2).sum

/-- The options of the packet, from one place up to another, are these in their order. -/
def Placed (m : Mem) : Nat → List Opt → Nat → Prop
  | p, [], endptr => p = endptr
  | p, o :: opts, endptr =>
      m.net32 p = o.1.toNat ∧ o.2 <+: m.bytes (p + 8) (m.net32 (p + 4) - 8) ∧
        Placed m (p + m.net32 (p + 4)) opts endptr

/-- What a byte does as the value of an option. -/
def effect (c : BlockClient) (opt : UInt32) (value : UInt8) : List Act :=
  match opt.toNat with
  | 1 => [.setQLang c value.toNat]
  | 2 => if value ≠ 0 then [.setFlags c CLIENT_FLAG_AUTO_BACKUP] else []
  | 3 =>
      if value ≠ 0 then [.setFlags c CLIENT_FLAG_GC_PROTECT, .send c, .setJoinTime c] else []
  | 4 => if value ≠ 0 then [.setFlags c CLIENT_FLAG_TRACK_KILLS] else []
  | _ => []

/-- The options that a ship knows. -/
def Known (opt : UInt32) : Prop := 1 ≤ opt.toNat ∧ opt.toNat ≤ 4

instance (opt : UInt32) : Decidable (Known opt) := inferInstanceAs (Decidable (_ ∧ _))

/-- What is done for an option at a place. Only values of less than eight bytes have the length
that is looked for. -/
def optionActs (c : BlockClient) (p : Nat) (o : Opt) : List Act :=
  if Known o.1 ∧ o.2.length < 8 then .read (p + 8) 1 :: effect c o.1 (o.2.headD 0) else []

/-- What the walk over the options does. -/
def walkActs (c : BlockClient) : Nat → List Opt → List Act
  | _, [] => []
  | p, o :: opts =>
      [.read p 4, .read (p + 4) 4] ++ optionActs c p o ++
        walkActs c (p + encodedLength o.2) opts

/-! ## Memory -/

/-- The bytes are in the memory at some place. -/
def Holds (m : Mem) (p : Nat) (bytes : List UInt8) : Prop :=
  ∀ i b, bytes[i]? = some b → m (p + i) = b

variable {m : Mem} {p : Nat} {a b : List UInt8}

theorem holds_append : Holds m p (a ++ b) ↔ Holds m p a ∧ Holds m (p + a.length) b := by
  constructor
  · intro h
    refine ⟨fun i x hi => ?_, fun i x hi => ?_⟩
    · apply h
      rw [List.getElem?_append_left (List.getElem?_eq_some_iff.mp hi).1]
      exact hi
    · rw [Nat.add_assoc]
      apply h
      rw [List.getElem?_append_right (Nat.le_add_right _ _), Nat.add_sub_cancel_left]
      exact hi
  · rintro ⟨left, right⟩ i x hi
    by_cases before : i < a.length
    · rw [List.getElem?_append_left before] at hi
      exact left i x hi
    · have behind : a.length ≤ i := Nat.le_of_not_lt before
      rw [List.getElem?_append_right behind] at hi
      have here := right _ x hi
      rw [Nat.add_assoc, Nat.add_sub_cancel' behind] at here
      exact here

theorem net16_of_holds {n : Nat} (h : Holds m p (htons n)) : m.net16 p = n % 65536 := by
  have high : m p = .ofNat (n / 256) := h 0 _ rfl
  have low : m (p + 1) = .ofNat n := h 1 _ rfl
  rw [Mem.net16, high, low, UInt8.toNat_ofNat', UInt8.toNat_ofNat']
  omega

theorem net32_of_holds {n : Nat} (h : Holds m p (htonl n)) : m.net32 p = n % 2 ^ 32 := by
  rw [htonl, holds_append] at h
  have low : m.net16 (p + 2) = n % 65536 := net16_of_holds h.2
  rw [Mem.net32, net16_of_holds h.1, low]
  omega

theorem bytes_of_holds (h : Holds m p a) : m.bytes p a.length = a := by
  apply List.ext_getElem?
  intro i
  rw [Mem.bytes, List.getElem?_map]
  by_cases inside : i < a.length
  · rw [List.getElem?_range inside, List.getElem?_eq_getElem inside, Option.map_some,
      h i _ (List.getElem?_eq_getElem inside)]
  · have outside : a.length ≤ i := Nat.le_of_not_lt inside
    rw [List.getElem?_eq_none (by rw [List.length_range]; exact outside),
      List.getElem?_eq_none outside, Option.map_none]

@[simp] theorem length_htonl (n : Nat) : (htonl n).length = 4 := rfl

/-- The header of a packet, and what is behind it. -/
theorem holds_packet {len type flags : Nat} {body : List UInt8} (hlen : len = 8 + body.length)
    (hsmall : len < 65536) (h : Holds m 0 (packet len type flags body)) :
    m.net16 0 = len ∧ Holds m 8 body := by
  have whole : packet len type flags body =
      htons len ++ (htons type ++ [0, 0] ++ htons flags) ++ body := by
    rw [packet, field, List.take_append_of_le_length]
    · rw [List.take_of_length_le]
      · simp only [List.append_assoc]
      · rw [hlen]
        simp only [List.length_append]
        exact Nat.le_refl _
    · rw [hlen]
      simp only [List.length_append]
      exact Nat.le_refl _
  rw [whole, holds_append, holds_append] at h
  have length := net16_of_holds h.1.1
  rw [Nat.mod_eq_of_lt hsmall] at length
  exact ⟨length, h.2⟩

/-! ## The packet of the shipgate -/

/-- An option in a packet. -/
def encode (o : Opt) : List UInt8 :=
  htonl o.1.toNat ++ htonl (encodedLength o.2) ++
    (o.2 ++ List.replicate (8 - o.2.length % 8) 0)

theorem and_seven (n : Nat) : n &&& 7 = n % 8 := Nat.and_two_pow_sub_one_eq_mod n 3

@[simp] theorem length_encode (o : Opt) : (encode o).length = encodedLength o.2 := by
  rw [encode, encodedLength]
  simp only [List.length_append, length_htonl, List.length_replicate]
  omega

theorem append_options (b : Building) (o : Opt) :
    (userOptionsAppend b o.1 o.2).options = b.options ++ encode o := by
  rw [userOptionsAppend, encode, encodedLength, and_seven]
  simp only [List.append_assoc]

theorem append_pktLen (b : Building) (o : Opt) :
    (userOptionsAppend b o.1 o.2).pktLen = b.pktLen + (encodedLength o.2).toUInt16 := by
  rw [userOptionsAppend, encodedLength, and_seven]

/-- The functions that build the packet, called one after the other. -/
theorem built (opts : List Opt) (b : Building) :
    let built := opts.foldl (fun b o => userOptionsAppend b o.1 o.2) b
    built.options = b.options ++ opts.flatMap encode ∧
      built.pktLen = b.pktLen + (opts.map fun o => encodedLength o.2).sum.toUInt16 ∧
      built.count = b.count + opts.length.toUInt32 ∧ built.guildcard = b.guildcard ∧
      built.block = b.block := by
  induction opts generalizing b with
  | nil => simp
  | cons o opts ih =>
      obtain ⟨options, pktLen, count, guildcard, block⟩ := ih (userOptionsAppend b o.1 o.2)
      refine ⟨?_, ?_, ?_, guildcard, block⟩
      · rw [List.foldl_cons, options, append_options, List.flatMap_cons, List.append_assoc]
      · rw [List.foldl_cons, pktLen, append_pktLen, List.map_cons, List.sum_cons,
          UInt16.add_assoc]
        exact congrArg (b.pktLen + ·) (UInt16.ofNat_add _ _).symm
      · rw [List.foldl_cons, count, userOptionsAppend, UInt32.add_assoc, UInt32.add_comm 1]
        exact congrArg (b.count + ·) (UInt32.ofNat_add opts.length 1).symm

theorem sum_lower (opts : List Opt) :
    16 * opts.length ≤ (opts.map fun o => encodedLength o.2).sum := by
  induction opts with
  | nil => exact Nat.le_refl 0
  | cons o opts ih =>
      have first : 16 ≤ encodedLength o.2 := by
        rw [encodedLength]
        omega
      rw [List.map_cons, List.sum_cons, List.length_cons]
      omega

theorem length_flatMap (opts : List Opt) :
    (opts.flatMap encode).length = (opts.map fun o => encodedLength o.2).sum := by
  rw [List.length_flatMap]
  simp only [length_encode]

/-- The packet, as long as its length fits into the header. -/
theorem sendOptions_eq (guildcard block : UInt32) {opts : List Opt} (hopts : opts ≠ [])
    (hsize : encodedSize opts < 65536) :
    sendOptions guildcard block opts = [packet (encodedSize opts) SHDR_TYPE_USEROPT 0
      (htonl guildcard.toNat ++ htonl block.toNat ++ htonl opts.length ++ htonl 0 ++
        opts.flatMap encode)] := by
  have most := sum_lower opts
  rw [encodedSize] at hsize
  obtain ⟨options, pktLen, count, gc, blk⟩ := built opts (userOptionsBegin guildcard block)
  have number : (opts.foldl (fun b o => userOptionsAppend b o.1 o.2)
      (userOptionsBegin guildcard block)).count.toNat = opts.length := by
    rw [count, userOptionsBegin, UInt32.zero_add]
    exact UInt32.toNat_ofNat_of_lt' (by rw [UInt32.size]; omega)
  have length : (opts.foldl (fun b o => userOptionsAppend b o.1 o.2)
      (userOptionsBegin guildcard block)).pktLen.toNat = encodedSize opts := by
    rw [pktLen, userOptionsBegin, UInt16.toNat_add, Nat.toUInt16, UInt16.toNat_ofNat', encodedSize]
    show (24 + _) % 2 ^ 16 = _
    omega
  have some : opts.length ≠ 0 := mt List.length_eq_zero_iff.mp hopts
  rw [sendOptions, sendUserOptions, if_neg, number, length, options, gc, blk, sendCrypt, if_neg]
  · rfl
  · rw [encodedSize]
    omega
  · intro zero
    rw [zero] at number
    exact some number.symm

/-- Option by option, the same packet is sent as from all options at once. -/
theorem sendOptions_all (guildcard block : UInt32) {opts : List Opt}
    (hsize : encodedSize opts < 65536) :
    sendOptions guildcard block opts = Shipgate.sendUserOptions guildcard.toNat block.toNat
      (opts.map fun o => (o.1.toNat, o.2)) := by
  by_cases hopts : opts = []
  · rw [hopts]
    rfl
  · have options : ((opts.map fun o => (o.1.toNat, o.2)).map fun o =>
        userOption o.1 o.2).flatten = opts.flatMap encode := by
      rw [List.map_map, List.flatMap]
      apply congrArg List.flatten
      apply List.map_congr_left
      intro o _
      rw [Function.comp_apply, userOption, encode, encodedLength]
      simp only [List.append_assoc]
    have most := sum_lower opts
    have length : 24 + (opts.flatMap encode).length = encodedSize opts := by
      rw [length_flatMap, encodedSize]
    have some : opts.length ≠ 0 := mt List.length_eq_zero_iff.mp hopts
    rw [encodedSize] at hsize length
    rw [sendOptions_eq guildcard block hopts hsize, Shipgate.sendUserOptions, options,
      List.length_map]
    rw [if_neg (by omega), length, Nat.mod_eq_of_lt hsize, sendCrypt, if_neg (by omega)]
    rfl

/-- What the ship finds at the place of an option. -/
theorem found {m : Mem} {p : Nat} {o : Opt} (h : Holds m p (encode o))
    (hsmall : encodedLength o.2 < 65536) :
    m.net32 p = o.1.toNat ∧ m.net32 (p + 4) = encodedLength o.2 ∧
      o.2 <+: m.bytes (p + 8) (encodedLength o.2 - 8) ∧ m (p + 8) = o.2.headD 0 := by
  rw [encode, holds_append, holds_append] at h
  obtain ⟨⟨option, length⟩, data⟩ := h
  have number := net32_of_holds option
  rw [Nat.mod_eq_of_lt (UInt32.toNat_lt _)] at number
  have size := net32_of_holds length
  rw [Nat.mod_eq_of_lt (by omega)] at size
  refine ⟨number, size, ?_, ?_⟩
  · have all := bytes_of_holds data
    have count : (o.2 ++ List.replicate (8 - o.2.length % 8) (0 : UInt8)).length =
        encodedLength o.2 - 8 := by
      rw [List.length_append, List.length_replicate, encodedLength]
      omega
    rw [count] at all
    exact ⟨_, all.symm⟩
  · cases value : o.2 with
    | nil =>
        rw [value] at data
        exact data 0 0 rfl
    | cons b bs =>
        rw [value] at data
        exact data 0 b rfl

theorem sixteen_iff (value : List UInt8) : encodedLength value = 16 ↔ value.length < 8 := by
  rw [encodedLength]
  omega

theorem useOption_eq (c : BlockClient) {m : Mem} {p : Nat} {o : Opt}
    (number : m.net32 p = o.1.toNat) (size : m.net32 (p + 4) = encodedLength o.2)
    (first : m (p + 8) = o.2.headD 0) : useOption m c p = optionActs c p o := by
  rw [useOption, optionActs, size, number, first]
  by_cases short : o.2.length < 8
  · rw [if_neg (not_not.mpr ((sixteen_iff o.2).mpr short))]
    by_cases known : Known o.1
    · rw [if_pos ⟨known, short⟩, effect]
      obtain h | h | h | h : o.1.toNat = 1 ∨ o.1.toNat = 2 ∨ o.1.toNat = 3 ∨ o.1.toNat = 4 := by
        rw [Known] at known
        omega
      · rw [h]
        rfl
      all_goals
        rw [h]
        by_cases set : o.2.headD 0 ≠ 0
        · simp only [if_pos set]
        · simp only [if_neg set]
    · rw [if_neg (fun both => known both.1)]
      rw [Known] at known
      dsimp only
      split
      iterate 4 omega
      rfl
  · rw [if_pos (mt (sixteen_iff o.2).mp short), if_neg (fun both => short both.2)]

/-- The walk comes by the options one after the other, and ends behind the last one. -/
theorem walk (c : BlockClient) {m : Mem} : ∀ (opts : List Opt) (p : Nat),
    Holds m p (opts.flatMap encode) → (∀ o ∈ opts, o.1 ≠ 0) →
    p + (opts.map fun o => encodedLength o.2).sum = m.net16 0 → m.net16 0 < 65536 →
    Placed m p opts (m.net16 0) ∧
      TracedLoop.run (useroptPass m c) (opts.length + 1) p = some (walkActs c p opts)
  | [], p, _, _, hend, _ => by
      have behind : p = m.net16 0 := hend
      refine ⟨behind, ?_⟩
      rw [List.length_nil, TracedLoop.run, useroptPass, ← behind, if_neg (Nat.lt_irrefl p)]
      rfl
  | o :: opts, p, h, hnumbers, hend, hsmall => by
      rw [List.flatMap_cons, holds_append, length_encode] at h
      rw [List.map_cons, List.sum_cons] at hend
      have most : 16 ≤ encodedLength o.2 := by
        rw [encodedLength]
        omega
      obtain ⟨number, size, value, first⟩ := found h.1 (by omega)
      obtain ⟨placed, rest⟩ := walk c opts (p + encodedLength o.2) h.2
        (fun x hx => hnumbers x (List.mem_cons_of_mem _ hx)) (by omega) hsmall
      have nonzero : o.1.toNat ≠ 0 := fun zero =>
        hnumbers o List.mem_cons_self (UInt32.toNat_inj.mp zero)
      have pass : useroptPass m c p =
          ([.read p 4, .read (p + 4) 4] ++ optionActs c p o, some (p + encodedLength o.2)) := by
        rw [useroptPass, if_pos (by omega), number, if_neg nonzero, size,
          useOption_eq c number size first]
      constructor
      · rw [Placed, size]
        exact ⟨number, value, placed⟩
      · rw [List.length_cons, TracedLoop.run, pass]
        show (TracedLoop.run (useroptPass m c) (opts.length + 1) (p + encodedLength o.2)).map _ = _
        rw [rest]
        rfl

/-- What the packet begins with, and where its options are. -/
theorem holds_useropt {m : Mem} {gc block : UInt32} {count : Nat} {opts : List Opt}
    (hsize : encodedSize opts < 65536)
    (h : Holds m 0 (packet (encodedSize opts) SHDR_TYPE_USEROPT 0
      (htonl gc.toNat ++ htonl block.toNat ++ htonl count ++ htonl 0 ++ opts.flatMap encode))) :
    m.net16 0 = encodedSize opts ∧ m.net32 8 = gc.toNat ∧ m.net32 12 = block.toNat ∧
      Holds m 24 (opts.flatMap encode) := by
  obtain ⟨length, body⟩ := holds_packet
    (by
      rw [encodedSize]
      simp only [List.length_append, length_htonl, length_flatMap]
      omega) hsize h
  rw [holds_append, holds_append, holds_append, holds_append] at body
  obtain ⟨⟨⟨⟨guildcard, blk⟩, -⟩, -⟩, options⟩ := body
  have guildcard := net32_of_holds guildcard
  rw [Nat.mod_eq_of_lt (UInt32.toNat_lt _)] at guildcard
  have blk := net32_of_holds blk
  rw [Nat.mod_eq_of_lt (UInt32.toNat_lt _)] at blk
  exact ⟨length, guildcard, blk, options⟩

theorem effect_between (c : BlockClient) {o : Opt} {value : UInt8} (known : Known o.1)
    (hvalue : o.2 = [value]) : ∀ {opts : List Opt} (p : Nat), o ∈ opts →
    effect c o.1 value <:+: walkActs c p opts
  | x :: opts, p, h => by
      rw [walkActs]
      rcases List.mem_cons.mp h with rfl | h
      · have acts : optionActs c p o = [.read (p + 8) 1] ++ effect c o.1 value := by
          rw [optionActs, hvalue, if_pos ⟨known, by rw [List.length_singleton]; omega⟩]
          rfl
        rw [acts, ← List.append_assoc]
        exact List.infix_append _ _ _
      · exact (effect_between c known hvalue _ h).trans (List.suffix_append _ _).isInfix

/-- A single option. -/
theorem shipgateSendUserOpt_eq (gc block opt : UInt32) {data : List UInt8}
    (hsome : 0 < data.length) (hmost : data.length < 256) :
    shipgateSendUserOpt gc block opt data =
      some (packet (encodedSize [(opt, data)]) SHDR_TYPE_USEROPT 0
        (htonl gc.toNat ++ htonl block.toNat ++ htonl 1 ++ htonl 0 ++
          [(opt, data)].flatMap encode)) := by
  have length : (data.length + 24 + 8 + (8 - data.length % 8)).toUInt16.toNat =
      encodedSize [(opt, data)] := by
    rw [Nat.toUInt16, UInt16.toNat_ofNat', encodedSize]
    simp only [List.map_cons, List.map_nil, List.sum_cons, List.sum_nil, encodedLength]
    omega
  rw [shipgateSendUserOpt, and_seven, if_neg (by omega), length, List.flatMap_singleton, encode,
    encodedLength]
  simp only [List.append_assoc]

/-- The checks of the shipgate on a single option. -/
theorem handleUseroptChecks_eq {gc block opt : UInt32} {data : List UInt8} {m : Mem}
    (hmost : data.length < 256)
    (h : Holds m 0 (packet (encodedSize [(opt, data)]) SHDR_TYPE_USEROPT 0
      (htonl gc.toNat ++ htonl block.toNat ++ htonl 1 ++ htonl 0 ++
        [(opt, data)].flatMap encode))) :
    handleUseroptChecks m =
      if Known opt then
        if data.length < 8 then .ok (gc.toNat, opt.toNat, data.headD 0) else .error (-4)
      else .error (-5) := by
  have size : encodedSize [(opt, data)] = 24 + encodedLength data := rfl
  have least : 16 ≤ encodedLength data := by
    rw [encodedLength]
    omega
  have most : encodedLength data < 272 := by
    rw [encodedLength]
    omega
  obtain ⟨length, guildcard, -, option⟩ := holds_useropt (by omega) h
  rw [List.flatMap_singleton] at option
  obtain ⟨number, optlen, -, first⟩ := found option (by dsimp only; omega)
  rw [handleUseroptChecks, length, size]
  dsimp only at number optlen first ⊢
  rw [if_neg (by omega), optlen, if_neg (by omega), number, guildcard, first]
  by_cases known : Known opt
  · rw [if_pos known]
    obtain h | h | h | h : opt.toNat = 1 ∨ opt.toNat = 2 ∨ opt.toNat = 3 ∨ opt.toNat = 4 := by
      rw [Known] at known
      omega
    all_goals
      rw [h]
      by_cases short : data.length < 8
      · simp only [(sixteen_iff data).mpr short, if_pos short, ne_eq, not_true, if_false]
      · simp only [mt (sixteen_iff data).mp short, if_neg short, ne_eq, not_false_eq_true, if_true]
  · rw [if_neg known]
    rw [Known] at known
    split
    iterate 4 omega
    rfl

/-- The ship comes by exactly the options that the shipgate sends, in their order, and a value of
one byte takes effect. A single option of a ship passes the checks of the shipgate as long as its
value has less than eight bytes. -/
theorem options_exact (gc block : UInt32) {opts : List Opt} (hopts : opts ≠ [])
    (hnumbers : ∀ o ∈ opts, o.1 ≠ 0) (hsize : encodedSize opts < 65536) :
    (∃ pkt, sendOptions gc block opts = [pkt] ∧ ∀ m, Holds m 0 pkt →
      Placed m 24 opts pkt.length ∧
        ∀ (s : ShipState) (c : BlockClient), block.toNat ≤ s.blocks →
          (s.clients (blockIndex block.toNat)).find? (fun i => i.guildcard == gc.toNat) = some c →
          (∃ rounds, handleUseropt rounds s m = some (.index (blockIndex block.toNat) ::
            .block (blockIndex block.toNat) :: walkActs c 24 opts)) ∧
          ∀ opt value, Known opt → (opt, [value]) ∈ opts →
            effect c opt value <:+: walkActs c 24 opts) ∧
    ∀ (opt : UInt32) (data : List UInt8), 0 < data.length → data.length < 256 →
      ∃ pkt, shipgateSendUserOpt gc block opt data = some pkt ∧ ∀ m, Holds m 0 pkt →
        handleUseroptChecks m =
          if Known opt then
            if data.length < 8 then .ok (gc.toNat, opt.toNat, data.headD 0) else .error (-4)
          else .error (-5) := by
  constructor
  · refine ⟨_, sendOptions_eq gc block hopts hsize, fun m held => ?_⟩
    obtain ⟨length, guildcard, blk, options⟩ := holds_useropt hsize held
    have fits : m.net16 0 < 65536 := by
      rw [length]
      exact hsize
    rw [length_packet, ← length]
    refine ⟨(walk (⟨0, 0⟩ : BlockClient) opts 24 options hnumbers length.symm fits).1, ?_⟩
    intro s c inside known
    constructor
    · refine ⟨opts.length + 1, ?_⟩
      rw [handleUseropt, guildcard, blk, withBlock, if_neg (Nat.not_lt.mpr inside), forClient,
        known]
      show ((TracedLoop.run (useroptPass m c) (opts.length + 1) 24).map _).map _ = _
      rw [(walk c opts 24 options hnumbers length.symm fits).2]
      rfl
    · intro opt value hopt hmem
      exact effect_between c hopt rfl 24 hmem
  · intro opt data hsome hmost
    exact ⟨_, shipgateSendUserOpt_eq gc block opt hsome hmost,
      fun m held => handleUseroptChecks_eq hmost held⟩

/-- Two options of a user. -/
theorem options_exact_sample :
    let opts : List Opt := [(1, [3]), (4, [1])]
    (opts ≠ [] ∧ (∀ o ∈ opts, o.1 ≠ 0) ∧ encodedSize opts < 65536) ∧
    (∃ pkt, sendOptions 42000007 2 opts = [pkt] ∧ ∀ m, Holds m 0 pkt →
      Placed m 24 opts pkt.length ∧
        ∀ (s : ShipState) (c : BlockClient), (2 : UInt32).toNat ≤ s.blocks →
          (s.clients (blockIndex (2 : UInt32).toNat)).find?
            (fun i => i.guildcard == (42000007 : UInt32).toNat) = some c →
          (∃ rounds, handleUseropt rounds s m =
            some (.index (blockIndex (2 : UInt32).toNat) ::
              .block (blockIndex (2 : UInt32).toNat) :: walkActs c 24 opts)) ∧
          ∀ opt value, Known opt → (opt, [value]) ∈ opts →
            effect c opt value <:+: walkActs c 24 opts) ∧
    ∀ (opt : UInt32) (data : List UInt8), 0 < data.length → data.length < 256 →
      ∃ pkt, shipgateSendUserOpt 42000007 2 opt data = some pkt ∧ ∀ m, Holds m 0 pkt →
        handleUseroptChecks m =
          if Known opt then
            if data.length < 8 then
              .ok ((42000007 : UInt32).toNat, opt.toNat, data.headD 0)
            else .error (-4)
          else .error (-5) :=
  ⟨by decide, options_exact 42000007 2 (by decide) (by decide) (by decide)⟩

/-- The packet with a value of eight bytes is sent, and refused for its length. -/
theorem long_value_refused :
    ¬∀ (gc block opt : UInt32) (data : List UInt8) (pkt : List UInt8), Known opt →
      shipgateSendUserOpt gc block opt data = some pkt →
      handleUseroptChecks (Mem.ofList pkt) ≠ .error (-2) ∧
        handleUseroptChecks (Mem.ofList pkt) ≠ .error (-3) ∧
        handleUseroptChecks (Mem.ofList pkt) ≠ .error (-4) := by
  intro h
  exact (h 42000007 2 1 (List.replicate 8 1) _ (by decide) rfl).2.2 (by decide +kernel)

end Sylverant.Ship.UserOptions
