/-
# What the encoder produces

One pass of the encoder's loop writes the token that begins at its position, so a
whole run writes the parse of the input. Neither the searches nor the output
buffer ever stop it: the tokens of the parse fit in the buffer that is allocated
for them.
-/

import Sylverant.Prs.Emit
import Sylverant.Prs.Parse

namespace Sylverant.Prs

open FlagStream
open Lz77 (prefixOf)

/-! ## Bytes of a match -/

/-- An offset stored in a byte is the byte of the distance. -/
theorem ofInt_offset {dist : Nat} (hpos : 1 ≤ dist) (hle : dist ≤ 256) :
    UInt8.ofInt (-(dist : Int)) = UInt8.ofNat (256 - dist) := by
  apply UInt8.toNat_inj.mp
  rw [UInt8.ofInt, UInt8.toNat_ofNat', UInt8.toNat_ofNat']
  omega

theorem fieldLow_eq {size dist : Nat} (hsize : size < 8) (hpos : 1 ≤ dist)
    (hle : dist ≤ 8192) :
    fieldLow (-(dist : Int)) size = Token.lowByte (Token.field size dist) := by
  apply UInt8.toNat_inj.mp
  have hoffset : (BitVec.ofInt 32 (-(dist : Int)) &&& 0x1f).toNat = (8192 - dist) % 32 := by
    rw [BitVec.toNat_and, BitVec.toNat_ofInt]
    refine (Nat.and_two_pow_sub_one_eq_mod _ 5).trans ?_
    omega
  have hlen : (BitVec.ofInt 32 (size : Int) &&& 0x07).toNat = size := by
    rw [BitVec.toNat_and, BitVec.toNat_ofInt]
    refine (Nat.and_two_pow_sub_one_eq_mod _ 3).trans ?_
    omega
  have hshift : ((BitVec.ofInt 32 (-(dist : Int)) &&& 0x1f) <<< 3).toNat =
      ((8192 - dist) % 32) <<< 3 := by
    rw [BitVec.toNat_shiftLeft, hoffset, Nat.shiftLeft_eq]
    omega
  rw [Token.toNat_lowByte]
  change (((BitVec.ofInt 32 (-(dist : Int)) &&& 0x1f) <<< 3 |||
    (BitVec.ofInt 32 (size : Int) &&& 0x07)).setWidth 8).toNat = _
  rw [BitVec.toNat_setWidth, BitVec.toNat_or, hshift, hlen,
    ← Nat.shiftLeft_add_eq_or_of_lt (by omega), Nat.shiftLeft_eq, Token.field]
  omega

theorem fieldHigh_eq {size dist : Nat} (hsize : size < 8) (hpos : 1 ≤ dist)
    (hle : dist ≤ 8192) :
    fieldHigh (-(dist : Int)) = Token.highByte (Token.field size dist) := by
  apply UInt8.toNat_inj.mp
  rw [Token.toNat_highByte (Token.field_lt _ hsize hpos)]
  change (((BitVec.ofInt 32 (-(dist : Int))).sshiftRight 5).setWidth 8).toNat = _
  have hint : (BitVec.ofInt 32 (-(dist : Int))).toInt = -(dist : Int) :=
    CInt.ofInt_eq_self (by omega) (by omega)
  have hshift : ((BitVec.ofInt 32 (-(dist : Int))).sshiftRight 5).toInt = -(dist : Int) / 32 := by
    rw [BitVec.toInt_sshiftRight, hint, Int.shiftRight_eq_div_pow]
    rfl
  have hcond := BitVec.toInt_eq_toNat_cond ((BitVec.ofInt 32 (-(dist : Int))).sshiftRight 5)
  have hlt := ((BitVec.ofInt 32 (-(dist : Int))).sshiftRight 5).isLt
  rw [hshift] at hcond
  rw [BitVec.toNat_setWidth, Token.field]
  split at hcond <;> omega

/-! ## Writing a token -/

/-- A part of the encoder that writes `more` after something else, if there is
room, and reads nothing. -/
def Emits (m : CompCxt → Except Stop CompCxt) (more : List Item) : Prop :=
  ∀ cxt items, Emitted cxt items → items ≠ [] → packedSize 0 (items ++ more) ≤ cxt.dstLen →
    ∃ cxt', m cxt = .ok cxt' ∧ Emitted cxt' (items ++ more) ∧ SameInput cxt cxt' ∧
      cxt'.srcPos = cxt.srcPos

theorem emits_setBit (value : Nat) :
    Emits (fun cxt => setBit cxt value) [.bit (decide (value ≠ 0))] :=
  fun _ _ h _ hroom => setBit_eq h value hroom

theorem emits_writeLiteral (v : UInt8) : Emits (fun cxt => writeLiteral cxt v) [.byte v] :=
  fun _ _ h hitems hroom => writeLiteral_eq h hitems v hroom

/-- Parts that write one after the other. -/
theorem Emits.bind {m m' : CompCxt → Except Stop CompCxt} {xs ys : List Item} (hm : Emits m xs)
    (hm' : Emits m' ys) : Emits (fun cxt => m cxt >>= m') (xs ++ ys) := by
  intro cxt items h hitems hroom
  rw [← List.append_assoc] at hroom
  have hfirst : packedSize 0 (items ++ xs) ≤ cxt.dstLen := by
    rw [packedSize_append] at hroom
    omega
  obtain ⟨c₁, h₁, e₁, s₁, p₁⟩ := hm cxt items h hitems hfirst
  obtain ⟨c₂, h₂, e₂, s₂, p₂⟩ :=
    hm' c₁ (items ++ xs) e₁ (by simp [hitems]) (by rw [s₁.dstLen_eq]; exact hroom)
  refine ⟨c₂, ?_, by rwa [List.append_assoc] at e₂, s₁.trans s₂, p₂.trans p₁⟩
  simp only [h₁]
  exact h₂

theorem emits_putShortMatch {len dist : Nat} (hlen : 2 ≤ len) (hlen' : len ≤ 5)
    (hpos : 1 ≤ dist) (hle : dist ≤ 256) :
    Emits (fun cxt => putShortMatch cxt len (-dist)) (Token.short len dist).items := by
  have hflags : decide (((len : Int) - 2).toNat &&& 0x02 ≠ 0) = ((len - 2) / 2 == 1) ∧
      decide (((len : Int) - 2).toNat &&& 0x01 ≠ 0) = ((len - 2) % 2 == 1) := by
    have : len = 2 ∨ len = 3 ∨ len = 4 ∨ len = 5 := by omega
    obtain rfl | rfl | rfl | rfl := this <;> exact ⟨rfl, rfl⟩
  rw [Token.items, ← hflags.1, ← hflags.2, ← ofInt_offset hpos hle]
  exact (emits_setBit 0).bind ((emits_setBit 0).bind
    ((emits_setBit (((len : Int) - 2).toNat &&& 0x02)).bind
      ((emits_setBit (((len : Int) - 2).toNat &&& 0x01)).bind
        (emits_writeLiteral (UInt8.ofInt (-(dist : Int)))))))

theorem emits_putLongMatch {len dist : Nat} (hlen : 3 ≤ len) (hlen' : len ≤ 9)
    (hpos : 1 ≤ dist) (hle : dist ≤ 8192) :
    Emits (fun cxt => putLongMatch cxt len (-dist)) (Token.long len dist).items := by
  have hsize : ((len - 2 : Nat) : Int) = (len : Int) - 2 := by omega
  have hsmall : len - 2 < 8 := by omega
  rw [Token.items, ← fieldLow_eq hsmall hpos hle, ← fieldHigh_eq hsmall hpos hle, hsize]
  exact (emits_setBit 0).bind ((emits_setBit 1).bind
    ((emits_writeLiteral (fieldLow (-(dist : Int)) ((len : Int) - 2))).bind
      (emits_writeLiteral (fieldHigh (-(dist : Int))))))

theorem emits_putSizedMatch {len dist : Nat} (hlen : 1 ≤ len) (hlen' : len ≤ 256)
    (hpos : 1 ≤ dist) (hle : dist ≤ 8192) :
    Emits (fun cxt => putSizedMatch cxt len (-dist)) (Token.sized len dist).items := by
  have hbyte : UInt8.ofInt ((len : Int) - 1) = UInt8.ofNat (len - 1) := by
    apply UInt8.toNat_inj.mp
    rw [UInt8.ofInt, UInt8.toNat_ofNat', UInt8.toNat_ofNat']
    omega
  have hsmall : 0 < 8 := by omega
  rw [Token.items, ← fieldLow_eq hsmall hpos hle, ← fieldHigh_eq hsmall hpos hle, ← hbyte]
  exact (emits_setBit 0).bind ((emits_setBit 1).bind
    ((emits_writeLiteral (fieldLow (-(dist : Int)) 0)).bind
      ((emits_writeLiteral (fieldHigh (-(dist : Int)))).bind
        (emits_writeLiteral (UInt8.ofInt ((len : Int) - 1))))))

/-- A literal takes its byte from the input. -/
theorem putLiteral_eq {cxt : CompCxt} {items : List Item} (h : Emitted cxt items)
    (hmore : cxt.srcPos < cxt.srcLen)
    (hroom : packedSize 0 (items ++ (Token.literal (cxt.src cxt.srcPos)).items) ≤ cxt.dstLen) :
    ∃ cxt', putLiteral cxt = .ok cxt' ∧
      Emitted cxt' (items ++ (Token.literal (cxt.src cxt.srcPos)).items) ∧
      SameInput cxt cxt' ∧ cxt'.srcPos = cxt.srcPos + 1 := by
  have hsplit : items ++ (Token.literal (cxt.src cxt.srcPos)).items =
      (items ++ [.bit true]) ++ [.byte (cxt.src cxt.srcPos)] := by
    simp [Token.items]
  rw [hsplit] at hroom ⊢
  have hfirst : packedSize 0 (items ++ [.bit true]) ≤ cxt.dstLen := by
    rw [packedSize_append] at hroom
    omega
  obtain ⟨c₁, h₁, e₁, s₁, p₁⟩ := setBit_eq h 1 hfirst
  obtain ⟨c₂, h₂, e₂, s₂, p₂⟩ := copyLiteral_eq e₁ (by simp)
    (by rw [p₁, s₁.srcLen_eq]; exact hmore)
    (by rw [s₁.src_eq, p₁, s₁.dstLen_eq]; exact hroom)
  rw [s₁.src_eq, p₁] at e₂
  refine ⟨c₂, ?_, e₂, s₁.trans s₂, by rw [p₂, p₁]⟩
  simp only [putLiteral, h₁]
  exact h₂

/-! ## One pass -/

section Pass

variable {base : Nat} {cxt : CompCxt} {hc : HashCxt} {items : List Item}

/-- The strings of a match are added one after the other. -/
theorem holds_addIntermediates {horizon len : Nat} (hlen : 1 ≤ len)
    (h : hc.Holds base cxt.src (cxt.srcPos + 1) horizon) :
    (addIntermediates base cxt hc len).Holds base cxt.src (cxt.srcPos + len) horizon := by
  suffices hrun : ∀ (k i : Nat) (hc : HashCxt), hc.Holds base cxt.src (cxt.srcPos + i) horizon →
      ((List.range' i k).foldl (fun hc i =>
        hc.addToHash base (cxt.srcPos + i) (hashStr cxt.src (cxt.srcPos + i))) hc).Holds base
          cxt.src (cxt.srcPos + (i + k)) horizon by
    have := hrun (len - 1) 1 hc h
    rwa [Nat.add_sub_cancel' hlen] at this
  intro k
  induction k with
  | zero => exact fun i hc h => h
  | succ k ih =>
      intro i hc h
      rw [List.range'_succ, List.foldl_cons, show i + (k + 1) = i + 1 + k by omega]
      exact ih (i + 1) _ h.add

/-- What a pass leaves behind when it has written a token. -/
structure PassDone (base : Nat) (cxt : CompCxt) (items : List Item) (t : Token)
    (cxt' : CompCxt) (hc' : HashCxt) : Prop where
  emitted : Emitted cxt' (items ++ t.items)
  same : SameInput cxt cxt'
  srcPos_eq : cxt'.srcPos = cxt.srcPos + t.size
  holds : hc'.Holds base cxt.src cxt'.srcPos (cxt.srcPos + 1)

/-- Writing a copy and skipping what it stands for. -/
theorem skipMatch_done {m : CompCxt → Except Stop CompCxt} {t : Token} {mlen : Int}
    (hm : Emits m t.items) (hsize : mlen.toNat = t.size) (hpos : 1 ≤ t.size)
    (h : Emitted cxt items) (hitems : items ≠ [])
    (hroom : packedSize 0 (items ++ t.items) ≤ cxt.dstLen)
    (hholds : hc.Holds base cxt.src (cxt.srcPos + 1) (cxt.srcPos + 1)) :
    ∃ cxt' hc', (do return skipMatch base (← m cxt) hc mlen : Except Stop _) = .ok (cxt', hc') ∧
      PassDone base cxt items t cxt' hc' := by
  obtain ⟨c₁, h₁, e₁, s₁, p₁⟩ := hm cxt items h hitems hroom
  refine ⟨{ c₁ with srcPos := c₁.srcPos + mlen.toNat },
    addIntermediates base c₁ hc mlen.toNat, by rw [h₁]; rfl, ?_, ⟨s₁.src_eq, s₁.srcLen_eq,
    s₁.dstLen_eq⟩, by rw [p₁, hsize], ?_⟩
  · obtain ⟨pending, e₁⟩ := e₁
    exact ⟨pending, e₁.length_dst, e₁.dstPos_eq, e₁.dstPos_le, e₁.bitsLeft_eq,
      e₁.pending_length, e₁.flags_eq, e₁.flagPtr_lt, e₁.flagPtr_le, e₁.bytes_eq⟩
  · rw [← s₁.src_eq, ← p₁] at hholds
    rw [← s₁.src_eq, ← p₁]
    exact holds_addIntermediates (by omega) hholds

theorem literal_done (h : Emitted cxt items) (hmore : cxt.srcPos < cxt.srcLen)
    (hroom : packedSize 0 (items ++ (Token.literal (cxt.src cxt.srcPos)).items) ≤ cxt.dstLen)
    (hholds : hc.Holds base cxt.src (cxt.srcPos + 1) (cxt.srcPos + 1)) :
    ∃ cxt' hc', (do return (← putLiteral cxt, hc) : Except Stop _) = .ok (cxt', hc') ∧
      PassDone base cxt items (.literal (cxt.src cxt.srcPos)) cxt' hc' := by
  obtain ⟨c₁, h₁, e₁, s₁, p₁⟩ := putLiteral_eq h hmore hroom
  exact ⟨c₁, hc, by rw [h₁]; rfl, e₁, s₁, p₁, by rw [p₁]; exact hholds⟩

/-- A match is written as the token it stands for. -/
theorem putMatch_eq {len : Int} {q : Nat} (h : Emitted cxt items) (hitems : items ≠ [])
    (hmore : cxt.srcPos < cxt.srcLen)
    (hoccurs : Occurs cxt.src cxt.srcLen cxt.srcPos len q)
    (hroom : packedSize 0 (items ++ (matchToken cxt.src cxt.srcPos len
      (-((cxt.srcPos - q : Nat) : Int))).items) ≤ cxt.dstLen)
    (hholds : hc.Holds base cxt.src (cxt.srcPos + 1) (cxt.srcPos + 1)) :
    ∃ cxt' hc', putMatch base cxt hc len (-((cxt.srcPos - q : Nat) : Int)) = .ok (cxt', hc') ∧
      PassDone base cxt items
        (matchToken cxt.src cxt.srcPos len (-((cxt.srcPos - q : Nat) : Int))) cxt' hc' := by
  have hlt := hoccurs.lt
  have hnear := hoccurs.near
  simp only [maxWindow] at hnear
  obtain ⟨k, rfl⟩ : ∃ k : Nat, len = k := ⟨len.toNat, by have := hoccurs.pos; omega⟩
  rw [matchToken] at hroom ⊢
  rw [putMatch]
  split
  · rename_i hshort
    rw [if_pos hshort] at hroom
    rw [Int.neg_neg, Int.toNat_natCast, Int.toNat_natCast] at hroom ⊢
    exact skipMatch_done (emits_putShortMatch (by omega) (by omega) (by omega) (by omega))
      rfl (by simp only [Token.size]; omega) h hitems hroom hholds
  · rename_i hshort
    rw [if_neg hshort] at hroom
    split
    · rename_i hlong
      rw [if_pos hlong] at hroom
      rw [Int.neg_neg, Int.toNat_natCast, Int.toNat_natCast] at hroom ⊢
      exact skipMatch_done (emits_putLongMatch (by omega) (by omega) (by omega) (by omega))
        rfl (by simp only [Token.size]; omega) h hitems hroom hholds
    · rename_i hlong
      rw [if_neg hlong] at hroom
      split
      · rename_i hsized
        rw [if_pos hsized] at hroom
        rw [Int.neg_neg, Int.toNat_natCast, Int.toNat_natCast] at hroom ⊢
        have hcap : (if (k : Int) > 256 then 256 else (k : Int)) =
            ((if (k : Int) > 256 then 256 else k : Nat) : Int) := by
          split <;> rfl
        have hle : 1 ≤ (if (k : Int) > 256 then 256 else k) ∧
            (if (k : Int) > 256 then 256 else k) ≤ 256 := by
          split <;> omega
        simp only [hcap]
        exact skipMatch_done (emits_putSizedMatch hle.1 hle.2 (by omega) (by omega))
          rfl hle.1 h hitems hroom hholds
      · rename_i hsized
        rw [if_neg hsized] at hroom
        exact literal_done h hmore hroom hholds

/-- One pass writes the token that begins at its position. -/
theorem compressPass_eq {horizon : Nat} (h : Emitted cxt items) (hitems : items ≠ [])
    (hmore : cxt.srcPos < cxt.srcLen - 1)
    (hholds : hc.Holds base cxt.src cxt.srcPos horizon) (hle : horizon ≤ cxt.srcPos)
    (hroom : packedSize 0 (items ++ (tokenAt cxt.src cxt.srcLen cxt.srcPos).items) ≤
      cxt.dstLen) :
    ∃ cxt' hc', compressPass base cxt hc = .ok (cxt', hc') ∧
      PassDone base cxt items (tokenAt cxt.src cxt.srcLen cxt.srcPos) cxt' hc' := by
  obtain ⟨hc₁, hfind, hholds₁⟩ := findLongestMatch_eq cxt false hholds hle (by omega)
  obtain ⟨hc₂, hfind₂, hholds₂⟩ := findLongestMatch_eq
    { cxt with srcPos := cxt.srcPos + 1 } true hholds₁ (by simp only; omega)
    (by simp only; omega)
  have hlater : hc₁.Holds base cxt.src (cxt.srcPos + 1) (cxt.srcPos + 1) :=
    HashChain.Chains.advance hholds₁ (by omega)
  simp only [compressPass, hfind, bind, Except.bind]
  by_cases hmatch : (bestMatch cxt.src cxt.srcLen cxt.srcPos).1 = 0
  · have htoken : tokenAt cxt.src cxt.srcLen cxt.srcPos = .literal (cxt.src cxt.srcPos) :=
      if_neg fun hboth => hboth.1 hmatch
    rw [htoken] at hroom ⊢
    rw [if_neg (not_not.mpr hmatch)]
    exact literal_done h (by omega) hroom hlater
  rw [if_pos hmatch]
  simp only [hfind₂]
  have hway : givesWay cxt.src cxt.srcLen cxt.srcPos = true ↔
      (bestMatch cxt.src cxt.srcLen (cxt.srcPos + 1)).1 >
          (bestMatch cxt.src cxt.srcLen cxt.srcPos).1 ∧
        ¬ keepsShort (bestMatch cxt.src cxt.srcLen cxt.srcPos).1
          (bestOffset cxt.src cxt.srcLen cxt.srcPos)
          (bestMatch cxt.src cxt.srcLen (cxt.srcPos + 1)).1
          (bestOffset cxt.src cxt.srcLen (cxt.srcPos + 1)) := by
    rw [givesWay, Bool.and_eq_true, decide_eq_true_eq, Bool.not_eq_true', Bool.not_eq_true]
  by_cases hlazy : givesWay cxt.src cxt.srcLen cxt.srcPos = true
  · have htoken : tokenAt cxt.src cxt.srcLen cxt.srcPos = .literal (cxt.src cxt.srcPos) :=
      if_neg fun hboth => hboth.2 hlazy
    rw [htoken] at hroom ⊢
    rw [if_pos (hway.mp hlazy)]
    exact literal_done h (by omega) hroom hholds₂
  · have htoken : tokenAt cxt.src cxt.srcLen cxt.srcPos =
        matchToken cxt.src cxt.srcPos (bestMatch cxt.src cxt.srcLen cxt.srcPos).1
          (bestOffset cxt.src cxt.srcLen cxt.srcPos) :=
      if_pos ⟨hmatch, hlazy⟩
    rw [htoken] at hroom ⊢
    rw [if_neg fun hboth => hlazy (hway.mpr hboth)]
    obtain hnone | ⟨len, q, hbest, hoccurs⟩ := bestMatch_cases cxt.src cxt.srcLen cxt.srcPos
    · exact absurd (by rw [hnone]) hmatch
    · rw [bestOffset_eq hbest hoccurs, hbest] at hroom ⊢
      exact putMatch_eq h hitems (by omega) hoccurs hroom hholds₂

end Pass

/-! ## Whole runs -/

/-- A token and then the rest of a stream. -/
theorem append_streamItems_cons (items : List Item) (t : Token) (tokens : List Token) :
    items ++ streamItems (t :: tokens) = (items ++ t.items) ++ streamItems tokens := by
  rw [streamItems_cons, List.append_assoc]

/-- The byte that is left over at the end. -/
def leftOver (src : Nat → UInt8) (n p : Nat) : List Token :=
  if p < n then [.literal (src p)] else []

/-- The loop writes the tokens of the parse up to the last byte. -/
theorem compressLoop_eq {base : Nat} (fuel : Nat) {cxt : CompCxt} {hc : HashCxt}
    {items : List Item} {horizon : Nat} (h : Emitted cxt items) (hitems : items ≠ [])
    (hholds : hc.Holds base cxt.src cxt.srcPos horizon) (hle : horizon ≤ cxt.srcPos)
    (hfuel : cxt.srcLen - cxt.srcPos < fuel)
    (hroom : packedSize 0 (items ++ streamItems (parseFrom cxt.src cxt.srcLen fuel cxt.srcPos)) ≤
      cxt.dstLen) :
    ∃ cxt' items', compressLoop base fuel cxt hc = .ok cxt' ∧ Emitted cxt' items' ∧
      SameInput cxt cxt' ∧
      items ++ streamItems (parseFrom cxt.src cxt.srcLen fuel cxt.srcPos) =
        items' ++ streamItems (leftOver cxt.src cxt.srcLen cxt'.srcPos) := by
  induction fuel generalizing cxt hc items horizon with
  | zero => omega
  | succ fuel ih =>
      rw [parseFrom] at hroom ⊢
      by_cases hmore : cxt.srcPos < cxt.srcLen - 1
      · rw [if_pos hmore, append_streamItems_cons] at hroom ⊢
        obtain ⟨c₁, hc₁, hpass, hdone⟩ := compressPass_eq h hitems hmore hholds hle
          (by rw [packedSize_append] at hroom; omega)
        have hsrc := hdone.same.src_eq
        have hlen := hdone.same.srcLen_eq
        have hpos := hdone.srcPos_eq
        have htakes := takes_tokenAt cxt.src (n := cxt.srcLen) (p := cxt.srcPos)
          (by omega)
        have hsize := htakes.size_pos
        have hholds₁ := hdone.holds
        rw [← hsrc] at hholds₁
        obtain ⟨c₂, items₂, hloop, hemitted, hsame, hstream⟩ :=
          ih hdone.emitted (by simp [hitems]) hholds₁ (by omega) (by omega)
            (by rw [hsrc, hlen, hpos, hdone.same.dstLen_eq]; exact hroom)
        refine ⟨c₂, items₂, ?_, hemitted, hdone.same.trans hsame, ?_⟩
        · rw [compressLoop, if_pos hmore, hpass]
          exact hloop
        · rw [hsrc, hlen, hpos] at hstream
          exact hstream
      · rw [if_neg hmore]
        exact ⟨cxt, items, by rw [compressLoop, if_neg hmore], h, SameInput.refl cxt, rfl⟩

theorem putLeftOver_eq {cxt : CompCxt} {items : List Item} (h : Emitted cxt items)
    (hroom : packedSize 0 (items ++ streamItems (leftOver cxt.src cxt.srcLen cxt.srcPos)) ≤
      cxt.dstLen) :
    ∃ cxt' items', putLeftOver cxt = .ok cxt' ∧ Emitted cxt' items' ∧ SameInput cxt cxt' ∧
      items ++ streamItems (leftOver cxt.src cxt.srcLen cxt.srcPos) = items' ++ endMarker := by
  by_cases hmore : cxt.srcPos < cxt.srcLen
  · have hleft : leftOver cxt.src cxt.srcLen cxt.srcPos = [.literal (cxt.src cxt.srcPos)] :=
      if_pos hmore
    rw [hleft, append_streamItems_cons] at hroom ⊢
    obtain ⟨c₁, h₁, e₁, s₁, -⟩ := putLiteral_eq h hmore
      (by rw [packedSize_append] at hroom; omega)
    exact ⟨c₁, _, by rw [putLeftOver, if_pos hmore, h₁], e₁, s₁, rfl⟩
  · have hleft : leftOver cxt.src cxt.srcLen cxt.srcPos = [] := if_neg hmore
    rw [hleft]
    exact ⟨cxt, items, by rw [putLeftOver, if_neg hmore], h, SameInput.refl cxt, rfl⟩

/-- The two literals every longer run begins with. -/
theorem begin_eq (junk : Nat → UInt8) (src : Nat → UInt8) {n : Nat} (hn : 2 ≤ n)
    (hroom : packedSize 0 ((Token.literal (src 0)).items ++ (Token.literal (src 1)).items) ≤
      prsMaxCompressedSize n) :
    ∃ c₁ c₂, putLiteral (compCxt junk src n) = .ok c₁ ∧ putLiteral c₁ = .ok c₂ ∧
      Emitted c₂ ((Token.literal (src 0)).items ++ (Token.literal (src 1)).items) ∧
      SameInput (compCxt junk src n) c₂ ∧ c₂.srcPos = 2 := by
  have hroom₁ := hroom
  rw [packedSize_append] at hroom₁
  obtain ⟨c₁, h₁, e₁, s₁, p₁⟩ := putLiteral_eq (emitted_start junk src n)
    (by simp only [compCxt]; omega) (by simp only [compCxt, List.nil_append]; omega)
  have hpos₁ : c₁.srcPos = 1 := p₁
  have hsrc : c₁.src = src := s₁.src_eq
  have hlen : c₁.srcLen = n := s₁.srcLen_eq
  have hdst : c₁.dstLen = prsMaxCompressedSize n := s₁.dstLen_eq
  have e₁' : Emitted c₁ (Token.literal (src 0)).items := e₁
  obtain ⟨c₂, h₂, e₂, s₂, p₂⟩ := putLiteral_eq e₁' (by omega)
    (by rw [hsrc, hpos₁, hdst]; exact hroom)
  rw [hsrc, hpos₁] at e₂
  exact ⟨c₁, c₂, h₁, h₂, e₂, s₁.trans s₂, by rw [p₂, hpos₁]⟩

/-- The parse of a longer input begins with two literals. -/
theorem streamItems_parse (src : Nat → UInt8) {n : Nat} (hn : 3 < n) :
    streamItems (parse src n) =
      ((Token.literal (src 0)).items ++ (Token.literal (src 1)).items) ++
        streamItems (parseFrom src n n 2) := by
  have hparse : parse src n = .literal (src 0) :: .literal (src 1) :: parseFrom src n n 2 :=
    if_neg (by omega)
  rw [hparse, streamItems_cons, append_streamItems_cons]

/-- There is room for the parse, and so for its beginning. -/
theorem packedSize_parse_le (src : Nat → UInt8) (n : Nat) :
    packedSize 0 (streamItems (parse src n)) ≤ prsMaxCompressedSize n :=
  (covers_parse src n).streamSize_le

theorem packedSize_begin_le (src : Nat → UInt8) {n : Nat} (hn : 3 < n) :
    packedSize 0 ((Token.literal (src 0)).items ++ (Token.literal (src 1)).items) ≤
      prsMaxCompressedSize n := by
  have hroom := packedSize_parse_le src n
  rw [streamItems_parse src hn, packedSize_append] at hroom
  omega

/-- `prs_compress` on an input that it searches. -/
theorem prsCompress_long (junk : Nat → UInt8) (base : Nat) (src : Nat → UInt8) {n : Nat}
    (hn : 3 < n) :
    prsCompress junk base src n =
      .ok (CInt.ofInt (streamSize (parse src n)), serialise [] (parse src n)) := by
  have hstream := streamItems_parse src hn
  have hroom := packedSize_parse_le src n
  obtain ⟨c₁, c₂, h₁, h₂, e₂, s₂, p₂⟩ := begin_eq junk src (n := n) (by omega)
    (packedSize_begin_le src hn)
  have hsrc : c₂.src = src := s₂.src_eq
  have hlen : c₂.srcLen = n := s₂.srcLen_eq
  have hdst : c₂.dstLen = prsMaxCompressedSize n := s₂.dstLen_eq
  have hholds := ((HashCxt.holds_empty base src).add).add
  obtain ⟨c₃, items₃, h₃, e₃, s₃, hloop⟩ := compressLoop_eq n e₂ (by simp [Token.items])
    (by rw [hsrc, p₂]; exact hholds) (by omega) (by omega)
    (by rw [hsrc, hlen, p₂, hdst, ← hstream]; exact hroom)
  rw [hsrc, hlen, p₂, ← hstream] at hloop
  obtain ⟨c₄, items₄, h₄, e₄, s₄, hlast⟩ := putLeftOver_eq e₃
    (by rw [s₃.src_eq, s₃.srcLen_eq, s₃.dstLen_eq, hsrc, hlen, hdst, ← hloop]; exact hroom)
  rw [s₃.src_eq, s₃.srcLen_eq, hsrc, hlen, ← hloop] at hlast
  obtain ⟨c₅, h₅, w₅, -⟩ := writeEof_eq e₄
    (by rw [s₄.dstLen_eq, s₃.dstLen_eq, hdst, ← hlast]; exact hroom)
  rw [← hlast] at w₅
  rw [prsCompress, if_neg (by omega), if_neg (by omega)]
  simp only [h₁, h₂, h₃, h₄, h₅, bind, Except.bind]
  rw [w₅.bytes_eq, w₅.dstPos_eq]
  rfl

/-- The loop of `prs_archive` writes literals. -/
theorem archiveLoop_eq (left : Nat) {cxt : CompCxt} {items : List Item} (h : Emitted cxt items)
    (hleft : cxt.srcPos + left = cxt.srcLen)
    (hroom : packedSize 0 (items ++
      streamItems ((literals cxt.src cxt.srcLen).drop cxt.srcPos)) ≤ cxt.dstLen) :
    ∃ cxt' items', archiveLoop left cxt = .ok cxt' ∧ Emitted cxt' items' ∧ SameInput cxt cxt' ∧
      items ++ streamItems ((literals cxt.src cxt.srcLen).drop cxt.srcPos) =
        items' ++ endMarker := by
  induction left generalizing cxt items with
  | zero =>
      have hnil : (literals cxt.src cxt.srcLen).drop cxt.srcPos = [] :=
        List.drop_eq_nil_of_le (by simp [literals]; omega)
      rw [hnil]
      exact ⟨cxt, items, rfl, h, SameInput.refl cxt, rfl⟩
  | succ left ih =>
      have hcons : (literals cxt.src cxt.srcLen).drop cxt.srcPos =
          .literal (cxt.src cxt.srcPos) ::
            (literals cxt.src cxt.srcLen).drop (cxt.srcPos + 1) := by
        rw [List.drop_eq_getElem_cons (by simp [literals]; omega)]
        simp only [literals, prefixOf, List.getElem_map, List.getElem_range]
      rw [hcons, append_streamItems_cons] at hroom ⊢
      obtain ⟨c₁, h₁, e₁, s₁, p₁⟩ := putLiteral_eq h (by omega)
        (by rw [packedSize_append] at hroom; omega)
      have hrest := ih e₁ (by rw [p₁, s₁.srcLen_eq]; omega)
        (by rw [p₁, s₁.src_eq, s₁.srcLen_eq, s₁.dstLen_eq]; exact hroom)
      rw [p₁, s₁.src_eq, s₁.srcLen_eq] at hrest
      obtain ⟨c₂, items₂, h₂, e₂, s₂, hstream⟩ := hrest
      refine ⟨c₂, items₂, ?_, e₂, s₁.trans s₂, hstream⟩
      rw [archiveLoop, h₁]
      exact h₂

/-- `prs_archive` writes every byte as a literal and fills its buffer. -/
theorem prsArchive_eq (junk : Nat → UInt8) (src : Nat → UInt8) {n : Nat} (hn : 1 ≤ n) :
    prsArchive junk src n =
      .ok (CInt.ofInt (prsMaxCompressedSize n), serialise [] (literals src n)) := by
  have hsize := streamSize_literals src n
  obtain ⟨c₁, items₁, h₁, e₁, s₁, hstream⟩ := archiveLoop_eq n
    (emitted_start junk src n) (Nat.zero_add n) (Nat.le_of_eq hsize)
  have hstream' : streamItems (literals src n) = items₁ ++ endMarker := hstream
  have hdst : c₁.dstLen = prsMaxCompressedSize n := s₁.dstLen_eq
  obtain ⟨c₂, h₂, w₂, s₂⟩ := writeEof_eq e₁
    (by rw [hdst, ← hstream']; exact Nat.le_of_eq hsize)
  rw [← hstream'] at w₂
  have hpos : c₂.dstPos = prsMaxCompressedSize n := w₂.dstPos_eq.trans hsize
  have hwhole : c₂.dst = serialise [] (literals src n) := by
    have hbytes := w₂.bytes_eq
    rwa [List.take_of_length_le] at hbytes
    exact Nat.le_of_eq (by rw [w₂.length_dst, s₂.dstLen_eq, hdst, hpos])
  rw [prsArchive, if_neg (by omega)]
  simp only [h₁, h₂, bind, Except.bind]
  rw [hpos, hwhole]
  rfl

/-- `prs_compress` writes the parse of its input. -/
theorem prsCompress_eq (junk : Nat → UInt8) (base : Nat) (src : Nat → UInt8) {n : Nat}
    (hn : 1 ≤ n) :
    prsCompress junk base src n =
      .ok (CInt.ofInt (streamSize (parse src n)), serialise [] (parse src n)) := by
  by_cases hshort : n ≤ 3
  · have hparse : parse src n = literals src n := if_pos hshort
    rw [prsCompress, if_neg (by omega), if_pos hshort, prsArchive_eq junk src hn, hparse,
      streamSize_literals]
  · exact prsCompress_long junk base src (by omega)

end Sylverant.Prs
