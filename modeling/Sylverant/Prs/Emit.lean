/-
# What the encoder has written

The encoder writes a flag byte only when it begins the next one, so the bytes in
its output are those of the items written so far except at `flagPtr`, where the
flags still wait in `flags`. `Emitted` states this for every way the flags may
go on, and each writing function extends the items by what it writes, as long as
the output has room.
-/

import Sylverant.Library.FlagStream
import Sylverant.Prs.Comp
import Sylverant.Prs.Grammar

namespace Sylverant.Prs

open FlagStream

/-- The items written so far: `pending` are the flags that wait in `flags`, the
oldest in the lowest of the upper bits. -/
structure EmittedWith (cxt : CompCxt) (items : List Item) (pending : List Bool) : Prop where
  length_dst : cxt.dst.length = cxt.dstLen
  dstPos_eq : cxt.dstPos = packedSize 0 items
  dstPos_le : cxt.dstPos ≤ cxt.dstLen
  bitsLeft_eq : cxt.bitsLeft = leftAfter 0 items
  pending_length : pending.length + cxt.bitsLeft = 8
  flags_eq : ∀ i (h : i < pending.length),
    cxt.flags.toBitVec.getLsbD (cxt.bitsLeft + i) = pending[i]
  flagPtr_lt : items ≠ [] → cxt.flagPtr < cxt.dstPos
  flagPtr_le : cxt.flagPtr ≤ cxt.dstPos
  bytes_eq : ∀ pad, pack pad 0 items =
    (cxt.dst.take cxt.dstPos).set cxt.flagPtr (flagByte (pending ++ pad))

/-- The items written so far. -/
def Emitted (cxt : CompCxt) (items : List Item) : Prop :=
  ∃ pending, EmittedWith cxt items pending

/-- Nothing the writing functions leave alone has changed. -/
structure SameInput (cxt cxt' : CompCxt) : Prop where
  src_eq : cxt'.src = cxt.src
  srcLen_eq : cxt'.srcLen = cxt.srcLen
  dstLen_eq : cxt'.dstLen = cxt.dstLen

theorem SameInput.refl (cxt : CompCxt) : SameInput cxt cxt := ⟨rfl, rfl, rfl⟩

theorem SameInput.trans {a b c : CompCxt} (hab : SameInput a b) (hbc : SameInput b c) :
    SameInput a c :=
  ⟨hbc.src_eq.trans hab.src_eq, hbc.srcLen_eq.trans hab.srcLen_eq,
    hbc.dstLen_eq.trans hab.dstLen_eq⟩

/-! ## Bits of a byte -/

theorem getLsbD_or_high (f : UInt8) (i : Nat) :
    (f ||| 0x80).toBitVec.getLsbD i = (f.toBitVec.getLsbD i || decide (i = 7)) := by
  rw [UInt8.toBitVec_or, BitVec.getLsbD_or]
  congr 1
  by_cases hi : i < 8
  · have key : ∀ i < 8, (UInt8.toBitVec 0x80).getLsbD i = decide (i = 7) := by decide
    exact key i hi
  · rw [BitVec.getLsbD_of_ge _ _ (by omega), eq_comm, decide_eq_false_iff_not]
    omega

theorem getLsbD_shiftRight {f : UInt8} {k : Nat} (hk : k < 8) (i : Nat) :
    (f >>> UInt8.ofNat k).toBitVec.getLsbD i = f.toBitVec.getLsbD (k + i) := by
  rw [UInt8.toBitVec_shiftRight]
  have hmod : ((UInt8.ofNat k).toBitVec % 8).toNat = k := by
    have height : BitVec.toNat (8 : BitVec 8) = 8 := rfl
    simp only [BitVec.toNat_umod, UInt8.toNat_toBitVec, UInt8.toNat_ofNat', height]
    omega
  rw [BitVec.ushiftRight_eq', hmod, BitVec.getLsbD_ushiftRight]

theorem getLsbD_shiftFlag (cxt : CompCxt) (value i : Nat) :
    (shiftFlag cxt value).flags.toBitVec.getLsbD i =
      (cxt.flags.toBitVec.getLsbD (i + 1) || (decide (value ≠ 0) && decide (i = 7))) := by
  by_cases hvalue : value = 0
  · simp only [shiftFlag, hvalue, ne_eq, not_true_eq_false, if_false, decide_false,
      Bool.false_and, Bool.or_false, Cursor.shiftRight_getLsbD]
  · simp only [shiftFlag, ne_eq, hvalue, not_false_eq_true, if_true, decide_true, Bool.true_and,
      getLsbD_or_high, Cursor.shiftRight_getLsbD]

/-! ## Stores -/

theorem storeByte_eq {cxt : CompCxt} {i : Nat} (h : i < cxt.dst.length) (b : UInt8) :
    storeByte cxt i b = .ok { cxt with dst := cxt.dst.set i b } :=
  if_pos h

/-- Writing at the end of what has been written. -/
theorem set_take_append {dst : List UInt8} {pos ptr : Nat} (hpos : pos < dst.length)
    (hptr : ptr < pos) (v x : UInt8) :
    ((dst.set pos v).take (pos + 1)).set ptr x = (dst.take pos).set ptr x ++ [v] := by
  have hgrow : (dst.set pos v).take (pos + 1) = dst.take pos ++ [v] := by
    rw [List.take_add_one, List.take_set_of_le (Nat.le_refl _), List.getElem?_set_self hpos,
      Option.toList_some]
  rw [hgrow, List.set_append_left _ _ (by rw [List.length_take]; omega)]

section Write

variable {cxt : CompCxt} {items : List Item}

/-- The start of the output. -/
theorem emitted_start (junk : Nat → UInt8) (src : Nat → UInt8) (srcLen : Nat) :
    Emitted (compCxt junk src srcLen) [] := by
  refine ⟨List.replicate 8 false, length_malloc _ _, rfl, Nat.zero_le _, rfl, rfl, ?_, ?_,
    Nat.le_refl _, fun pad => rfl⟩
  · intro i hi
    rw [List.getElem_replicate]
    exact BitVec.getLsbD_zero
  · exact fun h => absurd rfl h

/-- A full set of flags is a flag byte whatever follows. -/
theorem EmittedWith.flags_full {pending : List Bool} (h : EmittedWith cxt items pending)
    (hfull : cxt.bitsLeft = 0) (pad : List Bool) :
    flagByte (pending ++ pad) = cxt.flags := by
  have hlen : pending.length = 8 := by
    have := h.pending_length
    omega
  rw [flagByte_append (by omega)]
  refine (eq_flagByte fun i hi => ?_).symm
  have hbit := h.flags_eq i (by omega)
  rw [hfull, Nat.zero_add] at hbit
  rw [hbit, List.getD_eq_getElem?_getD, List.getElem?_eq_getElem (by omega), Option.getD_some]

/-- A full flag byte is written to its place and the next one is begun. -/
theorem EmittedWith.beginFlags {pending : List Bool} (h : EmittedWith cxt items pending)
    (hfull : cxt.bitsLeft = 0) (hroom : cxt.dstPos < cxt.dstLen) (value : Nat) :
    EmittedWith (shiftFlag { cxt with
        dst := cxt.dst.set cxt.flagPtr cxt.flags, flagPtr := cxt.dstPos,
        dstPos := cxt.dstPos + 1, bitsLeft := 7 } value)
      (items ++ [.bit (decide (value ≠ 0))]) [decide (value ≠ 0)] where
  length_dst := (List.length_set ..).trans h.length_dst
  dstPos_eq := by
    rw [packedSize_append, ← h.dstPos_eq, ← h.bitsLeft_eq, hfull]
    rfl
  dstPos_le := hroom
  bitsLeft_eq := by
    rw [leftAfter_append, ← h.bitsLeft_eq, hfull]
    rfl
  pending_length := rfl
  flags_eq i hi := by
    simp only [List.length_singleton, Nat.lt_one_iff] at hi
    subst hi
    rw [getLsbD_shiftFlag, List.getElem_cons_zero]
    simp only [shiftFlag, Nat.add_zero]
    rw [BitVec.getLsbD_of_ge _ _ (by omega)]
    simp
  flagPtr_lt _ := Nat.lt_succ_self _
  flagPtr_le := Nat.le_succ _
  bytes_eq pad := by
    have hbytes := h.bytes_eq (decide (value ≠ 0) :: pad)
    rw [h.flags_full hfull] at hbytes
    have hend : cxt.dstPos < (cxt.dst.set cxt.flagPtr cxt.flags).length := by
      rw [List.length_set, h.length_dst]
      exact hroom
    have htake : ((cxt.dst.set cxt.flagPtr cxt.flags).take cxt.dstPos).length = cxt.dstPos := by
      rw [List.length_take]
      omega
    rw [pack_append, ← h.bitsLeft_eq, hfull]
    simp only [bitsOf, List.cons_append, List.nil_append, pack, hbytes, shiftFlag]
    rw [List.take_add_one, List.set_append_right _ _ (by omega), htake, Nat.sub_self,
      List.getElem?_eq_getElem hend, Option.toList_some, List.take_set]
    rfl

/-- A flag joins those that wait. -/
theorem EmittedWith.addFlag {pending : List Bool} (h : EmittedWith cxt items pending)
    {left : Nat} (hleft : cxt.bitsLeft = left + 1) (value : Nat) :
    EmittedWith (shiftFlag { cxt with bitsLeft := cxt.bitsLeft - 1 } value)
      (items ++ [.bit (decide (value ≠ 0))]) (pending ++ [decide (value ≠ 0)]) where
  length_dst := h.length_dst
  dstPos_eq := by
    rw [packedSize_append, ← h.dstPos_eq, ← h.bitsLeft_eq, hleft]
    rfl
  dstPos_le := h.dstPos_le
  bitsLeft_eq := by
    rw [leftAfter_append, ← h.bitsLeft_eq]
    simp only [shiftFlag, hleft, leftAfter, Nat.add_sub_cancel]
  pending_length := by
    have := h.pending_length
    simp only [shiftFlag, List.length_append, List.length_singleton]
    omega
  flags_eq i hi := by
    have hlen := h.pending_length
    rw [List.length_append, List.length_singleton] at hi
    rw [getLsbD_shiftFlag]
    simp only [shiftFlag, hleft, Nat.add_sub_cancel]
    by_cases hlast : i < pending.length
    · have hbit := h.flags_eq i hlast
      rw [hleft, Nat.add_right_comm] at hbit
      have hne : ¬ left + i = 7 := by omega
      rw [hbit, List.getElem_append_left hlast]
      simp only [hne, decide_false, Bool.and_false, Bool.or_false]
    · have heq : i = pending.length := by omega
      have hseven : left + pending.length = 7 := by omega
      subst heq
      rw [List.getElem_concat_length rfl, BitVec.getLsbD_of_ge _ _ (by omega)]
      simp only [hseven, decide_true, Bool.and_true, Bool.false_or]
  flagPtr_lt _ := by
    by_cases hnil : items = []
    · have hzero := h.bitsLeft_eq
      rw [hnil, hleft] at hzero
      cases hzero
    · exact h.flagPtr_lt hnil
  flagPtr_le := h.flagPtr_le
  bytes_eq pad := by
    rw [pack_append, ← h.bitsLeft_eq, hleft]
    simp only [bitsOf, List.cons_append, List.nil_append, pack, List.append_nil,
      List.append_assoc]
    exact h.bytes_eq (decide (value ≠ 0) :: pad)

/-- Writing a flag, when there is room for a flag byte if one is begun. -/
theorem setBit_eq (h : Emitted cxt items) (value : Nat)
    (hroom : packedSize 0 (items ++ [.bit (decide (value ≠ 0))]) ≤ cxt.dstLen) :
    ∃ cxt', setBit cxt value = .ok cxt' ∧ Emitted cxt' (items ++ [.bit (decide (value ≠ 0))]) ∧
      SameInput cxt cxt' ∧ cxt'.srcPos = cxt.srcPos := by
  obtain ⟨pending, h⟩ := h
  by_cases hleft : cxt.bitsLeft = 0
  · have hlt : cxt.dstPos < cxt.dstLen := by
      rw [packedSize_append, ← h.dstPos_eq, ← h.bitsLeft_eq, hleft] at hroom
      exact hroom
    have hptr : cxt.flagPtr < cxt.dst.length := by
      have := h.flagPtr_le
      have := h.length_dst
      omega
    refine ⟨_, ?_, ⟨_, h.beginFlags hleft hlt value⟩, ⟨rfl, rfl, rfl⟩, rfl⟩
    rw [setBit, if_pos hleft, if_neg (by omega), storeByte_eq hptr]
    rfl
  · obtain ⟨left, hsucc⟩ : ∃ k, cxt.bitsLeft = k + 1 := ⟨cxt.bitsLeft - 1, by omega⟩
    exact ⟨_, if_neg hleft, ⟨_, h.addFlag hsucc value⟩, ⟨rfl, rfl, rfl⟩, rfl⟩

/-- Storing a byte at the end of the output. -/
theorem EmittedWith.store {pending : List Bool} (h : EmittedWith cxt items pending)
    (hitems : items ≠ []) (v : UInt8) (hroom : cxt.dstPos < cxt.dstLen) (srcPos : Nat) :
    EmittedWith { cxt with dst := cxt.dst.set cxt.dstPos v, dstPos := cxt.dstPos + 1, srcPos }
      (items ++ [.byte v]) pending := by
  have hin : cxt.dstPos < cxt.dst.length := by
    rw [h.length_dst]
    exact hroom
  refine ⟨?_, ?_, hroom, ?_, h.pending_length, h.flags_eq, ?_, ?_, ?_⟩
  · rw [List.length_set, h.length_dst]
  · rw [packedSize_append, h.dstPos_eq]
    rfl
  · rw [leftAfter_append, ← h.bitsLeft_eq]
    rfl
  · exact fun _ => Nat.lt_succ_of_lt (h.flagPtr_lt hitems)
  · exact Nat.le_succ_of_le h.flagPtr_le
  · intro pad
    rw [pack_append, set_take_append hin (h.flagPtr_lt hitems)]
    simp only [bitsOf, List.nil_append, pack]
    rw [h.bytes_eq pad]

/-- Room for another byte. -/
theorem Emitted.room (h : Emitted cxt items) {v : UInt8}
    (hroom : packedSize 0 (items ++ [.byte v]) ≤ cxt.dstLen) : cxt.dstPos < cxt.dstLen := by
  obtain ⟨pending, h⟩ := h
  rw [packedSize_append, ← h.dstPos_eq] at hroom
  exact hroom

theorem writeLiteral_eq (h : Emitted cxt items) (hitems : items ≠ []) (v : UInt8)
    (hroom : packedSize 0 (items ++ [.byte v]) ≤ cxt.dstLen) :
    ∃ cxt', writeLiteral cxt v = .ok cxt' ∧ Emitted cxt' (items ++ [.byte v]) ∧
      SameInput cxt cxt' ∧ cxt'.srcPos = cxt.srcPos := by
  have hlt := h.room hroom
  obtain ⟨pending, h⟩ := h
  refine ⟨_, ?_, ⟨pending, h.store hitems v hlt cxt.srcPos⟩, ⟨rfl, rfl, rfl⟩, rfl⟩
  rw [writeLiteral, if_neg (by omega), storeByte_eq (by rw [h.length_dst]; exact hlt)]
  rfl

theorem copyLiteral_eq (h : Emitted cxt items) (hitems : items ≠ [])
    (hmore : cxt.srcPos < cxt.srcLen)
    (hroom : packedSize 0 (items ++ [.byte (cxt.src cxt.srcPos)]) ≤ cxt.dstLen) :
    ∃ cxt', copyLiteral cxt = .ok cxt' ∧
      Emitted cxt' (items ++ [.byte (cxt.src cxt.srcPos)]) ∧
      SameInput cxt cxt' ∧ cxt'.srcPos = cxt.srcPos + 1 := by
  have hlt := h.room hroom
  obtain ⟨pending, h⟩ := h
  refine ⟨_, ?_, ⟨pending, h.store hitems _ hlt (cxt.srcPos + 1)⟩, ⟨rfl, rfl, rfl⟩, rfl⟩
  rw [copyLiteral, if_neg (by omega), if_neg (by omega),
    storeByte_eq (by rw [h.length_dst]; exact hlt)]
  rfl

/-- The flag byte that is being filled has fewer than eight flags left. -/
theorem EmittedWith.bitsLeft_lt {pending : List Bool} (h : EmittedWith cxt items pending) :
    cxt.bitsLeft < 8 := by
  rw [h.bitsLeft_eq]
  exact leftAfter_lt items (by omega)

/-- The flags moved down to the low bits are the flag byte. -/
theorem EmittedWith.final_flags {pending : List Bool} (h : EmittedWith cxt items pending) :
    flagByte pending = cxt.flags >>> UInt8.ofNat cxt.bitsLeft := by
  have hlen := h.pending_length
  refine (eq_flagByte fun i hi => ?_).symm
  rw [getLsbD_shiftRight h.bitsLeft_lt]
  by_cases hlt : i < pending.length
  · rw [h.flags_eq i hlt, List.getD_eq_getElem?_getD, List.getElem?_eq_getElem hlt,
      Option.getD_some]
  · rw [BitVec.getLsbD_of_ge _ _ (by omega), List.getD_eq_getElem?_getD,
      List.getElem?_eq_none (by omega), Option.getD_none]

/-- A context whose output holds exactly the bytes of the items. -/
structure Written (cxt : CompCxt) (items : List Item) : Prop where
  length_dst : cxt.dst.length = cxt.dstLen
  dstPos_eq : cxt.dstPos = packedSize 0 items
  bytes_eq : cxt.dst.take cxt.dstPos = pack [] 0 items

/-- The final flags complete the bytes of the stream. -/
theorem writeFinalFlags_eq (h : Emitted cxt items) (hitems : items ≠ []) :
    ∃ cxt', writeFinalFlags cxt = .ok cxt' ∧ Written cxt' items ∧ SameInput cxt cxt' := by
  obtain ⟨pending, h⟩ := h
  have hptr := h.flagPtr_lt hitems
  have hle := h.dstPos_le
  have hin : cxt.flagPtr < cxt.dst.length := by
    rw [h.length_dst]
    omega
  refine ⟨{ cxt with
      flags := cxt.flags >>> UInt8.ofNat cxt.bitsLeft,
      dst := cxt.dst.set cxt.flagPtr (cxt.flags >>> UInt8.ofNat cxt.bitsLeft) }, ?_, ?_,
    ⟨rfl, rfl, rfl⟩⟩
  · exact if_pos hin
  · refine ⟨(List.length_set ..).trans h.length_dst, h.dstPos_eq, ?_⟩
    have hbytes := h.bytes_eq []
    rw [List.append_nil, h.final_flags] at hbytes
    rw [hbytes]
    exact List.take_set ..

theorem Written.writeLiteral_eq (h : Written cxt items) (v : UInt8)
    (hroom : packedSize 0 (items ++ [.byte v]) ≤ cxt.dstLen) :
    ∃ cxt', writeLiteral cxt v = .ok cxt' ∧ Written cxt' (items ++ [.byte v]) ∧
      SameInput cxt cxt' := by
  have hlt : cxt.dstPos < cxt.dst.length := by
    rw [packedSize_append, ← h.dstPos_eq] at hroom
    rw [h.length_dst]
    exact hroom
  refine ⟨{ cxt with dst := cxt.dst.set cxt.dstPos v, dstPos := cxt.dstPos + 1 }, ?_, ?_,
    ⟨rfl, rfl, rfl⟩⟩
  · rw [writeLiteral, if_neg (by have := h.length_dst; omega), storeByte_eq hlt]
    rfl
  · refine ⟨(List.length_set ..).trans h.length_dst, ?_, ?_⟩
    · rw [packedSize_append, h.dstPos_eq]
      rfl
    · rw [pack_append, List.take_add_one, List.take_set_of_le (Nat.le_refl _),
        List.getElem?_set_self hlt, h.bytes_eq]
      rfl

/-- The end marker completes a stream. -/
theorem writeEof_eq (h : Emitted cxt items)
    (hroom : packedSize 0 (items ++ endMarker) ≤ cxt.dstLen) :
    ∃ cxt', writeEof cxt = .ok cxt' ∧ Written cxt' (items ++ endMarker) ∧
      SameInput cxt cxt' := by
  have hle : ∀ xs ys : List Item, endMarker = xs ++ ys →
      packedSize 0 (items ++ xs) ≤ cxt.dstLen := by
    intro xs ys hsplit
    rw [hsplit, ← List.append_assoc, packedSize_append] at hroom
    omega
  obtain ⟨c₁, h₁, e₁, s₁, -⟩ := setBit_eq h 0 (hle [.bit false] [.bit true, .byte 0, .byte 0] rfl)
  obtain ⟨c₂, h₂, e₂, s₂, -⟩ := setBit_eq e₁ 1 (by
    rw [s₁.dstLen_eq, List.append_assoc]
    exact hle [.bit false, .bit true] [.byte 0, .byte 0] rfl)
  have s₂' := s₁.trans s₂
  obtain ⟨c₃, h₃, w₃, s₃⟩ := writeFinalFlags_eq e₂ (by simp)
  have s₃' := s₂'.trans s₃
  obtain ⟨c₄, h₄, w₄, s₄⟩ := w₃.writeLiteral_eq 0 (by
    rw [s₃'.dstLen_eq, List.append_assoc, List.append_assoc]
    exact hle [.bit false, .bit true, .byte 0] [.byte 0] rfl)
  have s₄' := s₃'.trans s₄
  obtain ⟨c₅, h₅, w₅, s₅⟩ := w₄.writeLiteral_eq 0 (by
    rw [s₄'.dstLen_eq, List.append_assoc, List.append_assoc, List.append_assoc]
    exact hroom)
  refine ⟨c₅, ?_, ?_, s₄'.trans s₅⟩
  · simp only [writeEof, h₁, h₂, h₃, h₄, h₅, bind, Except.bind]
  · rw [List.append_assoc, List.append_assoc, List.append_assoc] at w₅
    exact w₅

end Write

end Sylverant.Prs
