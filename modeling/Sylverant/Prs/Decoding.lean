/-
# What the decoder computes

One pass of the decoding loop reads one token or the end marker, or it stops with
`-EBADMSG`. `decompressPass_cases` says so once and for all; it gives the meaning
of a successful run, and with it the converse. A stream is decoded to its
expansion, and every input that is decoded is a stream followed by bytes that
were never looked at.
-/

import Sylverant.Prs.Decoder
import Sylverant.Prs.Grammar

namespace Sylverant.Prs

open FlagStream (Cursor Item)
open FlagStream.Cursor (Reads)
open Simulation

namespace Decoder

variable {d : Decoder} {mid next : Cursor}

/-! ## Fetching -/

theorem run_fetchBit {b : Bool} (h : d.cur.nextBit = some (b, next)) :
    fetchBit d = .ok b.toNat { d with cur := next } := by
  simp only [fetchBit, h]

theorem run_fetchBit_none (h : d.cur.nextBit = none) :
    fetchBit d = .error (.ret (-EBADMSG)) d := by
  simp only [fetchBit, h]

theorem run_fetchByte {v : UInt8} (h : d.cur.nextByte = some (v, next)) :
    fetchByte d = .ok v.toNat { d with cur := next } := by
  simp only [fetchByte, h]

theorem run_fetchByte_none (h : d.cur.nextByte = none) :
    fetchByte d = .error (.ret (-EBADMSG)) d := by
  simp only [fetchByte, h]

theorem run_copyByte {v : UInt8} (h : d.cur.nextByte = some (v, next)) :
    copyByte d = .ok ⟨⟩ { cur := next, out := d.out ++ [v] } := by
  simp only [copyByte, h]

theorem run_copyByte_none (h : d.cur.nextByte = none) :
    copyByte d = .error (.ret (-EBADMSG)) d := by
  simp only [copyByte, h]

theorem run_fetchShort {low high : UInt8} (hlow : d.cur.nextByte = some (low, mid))
    (hhigh : mid.nextByte = some (high, next)) :
    fetchShort d = .ok (low.toNat + 256 * high.toNat) { d with cur := next } := by
  simp only [fetchShort, hlow, hhigh, Token.field_of_bytes]

/-- A field is fetched whole or not at all. -/
theorem fetchShort_cases (d : Decoder) :
    fetchShort d = .error (.ret (-EBADMSG)) d ∨
      ∃ low high mid next, d.cur.nextByte = some (low, mid) ∧
        mid.nextByte = some (high, next) ∧
        fetchShort d = .ok (low.toNat + 256 * high.toNat) { d with cur := next } := by
  cases hlow : d.cur.nextByte with
  | none => exact .inl (by simp only [fetchShort, hlow])
  | some first =>
      obtain ⟨low, mid⟩ := first
      cases hhigh : mid.nextByte with
      | none => exact .inl (by simp only [fetchShort, hlow, hhigh])
      | some second =>
          obtain ⟨high, next⟩ := second
          exact .inr ⟨low, high, mid, next, rfl, hhigh, run_fetchShort hlow hhigh⟩

/-! ## Copying -/

/-- A back-reference inside the output copies a byte, as long as positions fit
in an `int`. -/
theorem run_offsetCopy {dist : Nat} (hdist : dist ≤ d.out.length)
    (hsmall : d.out.length < 2 ^ 31) :
    offsetCopy (-dist) d = .ok ⟨⟩ { d with out := Lz77.copy dist 1 d.out } := by
  have hcheck : ¬ CInt.ofInt (CInt.ofInt d.out.length + -dist) < 0 := by
    rw [CInt.ofInt_natCast hsmall, CInt.ofInt_eq_self (by omega) (by omega)]
    omega
  have hfrom : ((d.out.length : Int) + -dist).toNat = d.out.length - dist := by omega
  simp only [offsetCopy, hcheck, if_false, hfrom, Lz77.copy]

/-- A back-reference that is not refused lies inside the output. -/
theorem offsetCopy_cases {dist : Nat} (hpos : 1 ≤ dist) (hmax : dist ≤ 8192) (d : Decoder) :
    offsetCopy (-dist) d = .error (.ret (-EBADMSG)) d ∨
      (dist ≤ d.out.length ∧
        offsetCopy (-dist) d = .ok ⟨⟩ { d with out := Lz77.copy dist 1 d.out }) := by
  by_cases hcheck : CInt.ofInt (CInt.ofInt d.out.length + -dist) < 0
  · exact .inl (by simp only [offsetCopy, hcheck, if_true])
  · have hdist : dist ≤ d.out.length := by
      by_cases hsmall : d.out.length < 2 ^ 31
      · rw [CInt.ofInt_natCast hsmall, CInt.ofInt_eq_self (by omega) (by omega)] at hcheck
        omega
      · omega
    have hfrom : ((d.out.length : Int) + -dist).toNat = d.out.length - dist := by omega
    exact .inr ⟨hdist, by simp only [offsetCopy, hcheck, if_false, hfrom, Lz77.copy]⟩

theorem run_copyLoop {dist : Nat} (hpos : 1 ≤ dist) (len : Nat) {d : Decoder}
    (hdist : dist ≤ d.out.length) (hsmall : d.out.length + len ≤ 2 ^ 31) :
    copyLoop callbacks (-dist) len d = .ok ⟨⟩ { d with out := Lz77.copy dist len d.out } := by
  induction len generalizing d with
  | zero => rfl
  | succ len ih =>
      have hstep := run_offsetCopy hdist (by omega)
      have hgrown := Lz77.length_copy hpos 1 hdist
      have hfirst : copyLoop callbacks (-dist) (len + 1) d =
          copyLoop callbacks (-dist) len { d with out := Lz77.copy dist 1 d.out } :=
        bind_ok hstep
      rw [hfirst, ih (by simp only; omega) (by simp only; omega)]
      rfl

/-- A copy that is not refused starts inside the output. -/
theorem copyLoop_cases {dist : Nat} (hpos : 1 ≤ dist) (hmax : dist ≤ 8192) (len : Nat)
    (d : Decoder) :
    (∃ d', copyLoop callbacks (-dist) (len + 1) d = .error (.ret (-EBADMSG)) d') ∨
      (dist ≤ d.out.length ∧ copyLoop callbacks (-dist) (len + 1) d =
        .ok ⟨⟩ { d with out := Lz77.copy dist (len + 1) d.out }) := by
  induction len generalizing d with
  | zero =>
      obtain hstop | ⟨hdist, hstep⟩ := offsetCopy_cases hpos hmax d
      · exact .inl ⟨d, bind_error hstop⟩
      · exact .inr ⟨hdist, bind_ok hstep⟩
  | succ len ih =>
      obtain hstop | ⟨hdist, hstep⟩ := offsetCopy_cases hpos hmax d
      · exact .inl ⟨d, bind_error hstop⟩
      · have hfirst : copyLoop callbacks (-dist) (len + 1 + 1) d =
            copyLoop callbacks (-dist) (len + 1) { d with out := Lz77.copy dist 1 d.out } :=
          bind_ok hstep
        rw [hfirst]
        obtain hstop' | ⟨-, hrest⟩ := ih { d with out := Lz77.copy dist 1 d.out }
        · exact .inl hstop'
        · exact .inr ⟨hdist, hrest⟩

end Decoder

/-! ## Offsets and lengths -/

theorem ones_or {v k : Nat} (hv : v < 2 ^ k) (high : Nat) :
    v ||| high <<< k = v + high * 2 ^ k := by
  rw [Nat.or_comm, ← Nat.shiftLeft_add_eq_or_of_lt hv, Nat.shiftLeft_eq, Nat.add_comm]

/-- The low 13 bits of an offset, filled up, are the offset. -/
theorem signExtend_long_eq {v : Nat} (hv : v < 8192) :
    signExtend v 0xFFFFE000 = -((8192 - v : Nat) : Int) := by
  have hor : (BitVec.ofNat 32 v ||| 0xFFFFE000).toNat = v + 0xFFFFE000 := by
    rw [BitVec.toNat_or, BitVec.toNat_ofNat, Nat.mod_eq_of_lt (by omega)]
    exact ones_or (k := 13) hv 0x7FFFF
  rw [signExtend, BitVec.toInt_eq_toNat_cond, hor]
  split <;> omega

/-- The low byte of an offset, filled up, is the offset. -/
theorem signExtend_short_eq {v : Nat} (hv : v < 256) :
    signExtend v 0xFFFFFF00 = -((256 - v : Nat) : Int) := by
  have hor : (BitVec.ofNat 32 v ||| 0xFFFFFF00).toNat = v + 0xFFFFFF00 := by
    rw [BitVec.toNat_or, BitVec.toNat_ofNat, Nat.mod_eq_of_lt (by omega)]
    exact ones_or (k := 8) hv 0xFFFFFF
  rw [signExtend, BitVec.toInt_eq_toNat_cond, hor]
  split <;> omega

/-- The two bits of a short size. -/
theorem shortSize_eq (flag size : Bool) :
    (size.toNat ||| flag.toNat <<< 1) + 2 = 2 * flag.toNat + size.toNat + 2 := by
  revert flag size
  decide

/-! ## One pass -/

namespace Decoder

@[simp] theorem callbacks_fetchBit : callbacks.fetchBit = fetchBit := rfl
@[simp] theorem callbacks_fetchByte : callbacks.fetchByte = fetchByte := rfl
@[simp] theorem callbacks_fetchShort : callbacks.fetchShort = fetchShort := rfl
@[simp] theorem callbacks_copyByte : callbacks.copyByte = copyByte := rfl
@[simp] theorem callbacks_dstPos (d : Decoder) : callbacks.dstPos d = d.out.length := rfl

/-- The rest of a pass once a token has been read. -/
def runOp : Lz77.Op UInt8 → EStateM Stop Decoder (Option Int)
  | .literal v => do
      modify fun d => { d with out := d.out ++ [v] }
      return none
  | .copy dist len => do
      copyLoop callbacks (-dist) len
      return none

variable {d : Decoder} {next : Cursor}

theorem decompressPass_literal {v : UInt8} (h : Reads d.cur (Token.literal v).items next) :
    decompressPass callbacks d = runOp (.literal v) { d with cur := next } := by
  cases h with
  | bit hflag h =>
      cases h with
      | byte hbyte h =>
          cases h
          have hcopy := run_copyByte (d := { d with cur := _ }) hbyte
          simp only [decompressPass, callbacks_fetchBit, bind_ok (run_fetchBit hflag),
            Bool.toNat_true, ne_eq, Nat.succ_ne_zero, not_false_eq_true, if_true,
            callbacks_copyByte, bind_ok hcopy, runOp, run_modify_bind, run_pure]

/-- The flags `01` lead to the long copies. -/
theorem decompressPass_long {mid : Cursor}
    (h : Reads d.cur [.bit false, .bit true] mid) :
    decompressPass callbacks d = longCopy callbacks { d with cur := mid } := by
  cases h with
  | bit hfirst h =>
      cases h with
      | bit hsecond h =>
          cases h
          have hflag := run_fetchBit (d := { d with cur := _ }) hsecond
          simp only [decompressPass, callbacks_fetchBit, bind_ok (run_fetchBit hfirst),
            Bool.toNat_false, ne_eq, not_true_eq_false, if_false, bind_ok hflag,
            Bool.toNat_true, Nat.succ_ne_zero, not_false_eq_true, if_true]

/-- The flags `00` lead to the short copies. -/
theorem decompressPass_short {mid : Cursor}
    (h : Reads d.cur [.bit false, .bit false] mid) :
    decompressPass callbacks d = shortCopy callbacks { d with cur := mid } := by
  cases h with
  | bit hfirst h =>
      cases h with
      | bit hsecond h =>
          cases h
          have hflag := run_fetchBit (d := { d with cur := _ }) hsecond
          simp only [decompressPass, callbacks_fetchBit, bind_ok (run_fetchBit hfirst),
            Bool.toNat_false, ne_eq, not_true_eq_false, if_false, bind_ok hflag]

theorem shortCopy_eq {flag size : Bool} {v : UInt8}
    (h : Reads d.cur [.bit flag, .bit size, .byte v] next) :
    shortCopy callbacks d =
      runOp (.copy (256 - v.toNat) (2 * flag.toNat + size.toNat + 2)) { d with cur := next } := by
  cases h with
  | bit hflag h =>
      cases h with
      | bit hsize h =>
          cases h with
          | byte hoffset h =>
              cases h
              have hsize' := run_fetchBit (d := { d with cur := _ }) hsize
              have hoffset' := run_fetchByte (d := { d with cur := _ }) hoffset
              simp only [shortCopy, callbacks_fetchBit, callbacks_fetchByte,
                bind_ok (run_fetchBit hflag), bind_ok hsize', bind_ok hoffset', shortSize_eq,
                signExtend_short_eq v.toNat_lt, runOp]

variable {low high : UInt8}

/-- A field that is not zero and holds the size. -/
theorem longCopy_eq (h : Reads d.cur [.byte low, .byte high] next)
    (hsize : (low.toNat + 256 * high.toNat) % 8 ≠ 0) :
    longCopy callbacks d =
      runOp (.copy (8192 - (low.toNat + 256 * high.toNat) / 8)
        ((low.toNat + 256 * high.toNat) % 8 + 2)) { d with cur := next } := by
  cases h with
  | byte hlow h =>
      cases h with
      | byte hhigh h =>
          cases h
          have hfield : low.toNat + 256 * high.toNat ≠ 0 := by omega
          have hoffset : (low.toNat + 256 * high.toNat) / 8 < 8192 := by
            have := low.toNat_lt
            have := high.toNat_lt
            omega
          simp only [longCopy, callbacks_fetchShort, bind_ok (run_fetchShort hlow hhigh), hfield,
            if_false, Token.field_and_seven, hsize, Token.field_shiftRight,
            signExtend_long_eq hoffset, runOp]

/-- A field that is not zero and is followed by the size. -/
theorem longCopy_sized_eq {v : UInt8}
    (h : Reads d.cur [.byte low, .byte high, .byte v] next)
    (hfield : low.toNat + 256 * high.toNat ≠ 0)
    (hsize : (low.toNat + 256 * high.toNat) % 8 = 0) :
    longCopy callbacks d =
      runOp (.copy (8192 - (low.toNat + 256 * high.toNat) / 8) (v.toNat + 1))
        { d with cur := next } := by
  cases h with
  | byte hlow h =>
      cases h with
      | byte hhigh h =>
          cases h with
          | byte hbyte h =>
              cases h
              have hbyte' := run_fetchByte (d := { d with cur := _ }) hbyte
              have hoffset : (low.toNat + 256 * high.toNat) / 8 < 8192 := by
                have := low.toNat_lt
                have := high.toNat_lt
                omega
              simp only [longCopy, callbacks_fetchShort, bind_ok (run_fetchShort hlow hhigh),
                hfield, if_false, Token.field_and_seven, hsize, if_true, callbacks_fetchByte,
                bind_ok hbyte', Token.field_shiftRight, signExtend_long_eq hoffset, runOp]

theorem longCopy_end (h : Reads d.cur [.byte 0, .byte 0] next) :
    longCopy callbacks d =
      .ok (some (CInt.ofInt d.out.length)) { d with cur := next } := by
  cases h with
  | byte hlow h =>
      cases h with
      | byte hhigh h =>
          cases h
          simp only [longCopy, callbacks_fetchShort, bind_ok (run_fetchShort hlow hhigh),
            UInt8.toNat_zero, Nat.mul_zero, Nat.add_zero, if_true, run_get_bind,
            callbacks_dstPos, run_pure]

/-- A pass over a valid token does what the token stands for. -/
theorem decompressPass_token {t : Token} (hvalid : t.Valid) (h : Reads d.cur t.items next) :
    decompressPass callbacks d = runOp t.op { d with cur := next } := by
  cases t with
  | literal v => exact decompressPass_literal h
  | short len dist =>
      obtain ⟨hlen, hlen', hdist, hdist'⟩ := hvalid
      obtain ⟨mid, hflags, hrest⟩ := Reads.split [.bit false, .bit false] h
      rw [decompressPass_short hflags, shortCopy_eq hrest]
      have hback : 256 - (UInt8.ofNat (256 - dist)).toNat = dist := by
        rw [UInt8.toNat_ofNat']
        omega
      have hsize : 2 * ((len - 2) / 2 == 1).toNat + ((len - 2) % 2 == 1).toNat + 2 = len := by
        have : len = 2 ∨ len = 3 ∨ len = 4 ∨ len = 5 := by omega
        obtain rfl | rfl | rfl | rfl := this <;> rfl
      rw [hback, hsize]
      rfl
  | long len dist =>
      obtain ⟨hlen, hlen', hdist, hdist', -⟩ := hvalid
      obtain ⟨mid, hflags, hrest⟩ := Reads.split [.bit false, .bit true] h
      have hbytes := Token.bytes_field (Token.field_lt (len - 2) (by omega) hdist)
      have hlow : Token.field (len - 2) dist % 8 = len - 2 := by
        simp only [Token.field]
        omega
      have hback : 8192 - Token.field (len - 2) dist / 8 = dist := by
        simp only [Token.field]
        omega
      rw [decompressPass_long hflags, longCopy_eq hrest (by rw [hbytes, hlow]; omega), hbytes,
        hlow, hback, Nat.sub_add_cancel (by omega)]
      rfl
  | sized len dist =>
      obtain ⟨hlen, hlen', hdist, hdist', hfield⟩ := hvalid
      obtain ⟨mid, hflags, hrest⟩ := Reads.split [.bit false, .bit true] h
      have hbytes := Token.bytes_field (Token.field_lt 0 (by decide) hdist)
      have hlow : Token.field 0 dist % 8 = 0 := by
        simp only [Token.field]
        omega
      have hback : 8192 - Token.field 0 dist / 8 = dist := by
        simp only [Token.field]
        omega
      have hsize : (UInt8.ofNat (len - 1)).toNat + 1 = len := by
        rw [UInt8.toNat_ofNat']
        omega
      rw [decompressPass_long hflags,
        longCopy_sized_eq hrest (by rw [hbytes]; exact hfield) (by rw [hbytes, hlow]), hbytes,
        hback, hsize]
      rfl

/-- A pass over the end marker returns the number of bytes produced. -/
theorem decompressPass_end (h : Reads d.cur endMarker next) :
    decompressPass callbacks d =
      .ok (some (CInt.ofInt d.out.length)) { d with cur := next } := by
  obtain ⟨mid, hflags, hrest⟩ := Reads.split [.bit false, .bit true] h
  rw [decompressPass_long hflags, longCopy_end hrest]

/-- After the flags `00`, what follows is a short copy or is cut off. -/
theorem shortCopy_reads (d : Decoder) :
    (∃ d', shortCopy callbacks d = .error (.ret (-EBADMSG)) d') ∨
      ∃ t next tail, t.Valid ∧ Token.items t = [.bit false, .bit false] ++ tail ∧
        Reads d.cur tail next := by
  cases hflag : d.cur.nextBit with
  | none => exact .inl ⟨_, bind_error (run_fetchBit_none hflag)⟩
  | some first =>
      obtain ⟨flag, mid⟩ := first
      have hflag' := run_fetchBit hflag
      cases hsize : mid.nextBit with
      | none =>
          refine .inl ⟨{ d with cur := mid }, (bind_ok hflag').trans ?_⟩
          exact bind_error (run_fetchBit_none hsize)
      | some second =>
          obtain ⟨size, mid'⟩ := second
          have hsize' := run_fetchBit (d := { d with cur := mid }) hsize
          cases hbyte : mid'.nextByte with
          | none =>
              refine .inl ⟨{ d with cur := mid' }, (bind_ok hflag').trans ?_⟩
              exact (bind_ok hsize').trans (bind_error (run_fetchByte_none hbyte))
          | some third =>
              obtain ⟨v, next⟩ := third
              refine .inr ⟨.short (2 * flag.toNat + size.toNat + 2) (256 - v.toNat), next, _,
                ?_, Token.items_short flag size v, .bit hflag (.bit hsize (.byte hbyte (.nil _)))⟩
              have hv := v.toNat_lt
              have hflagLe := Bool.toNat_le flag
              have hsizeLe := Bool.toNat_le size
              refine ⟨?_, ?_, ?_, ?_⟩ <;> omega

/-- After the flags `01`, what follows is a long copy or the rest of the end
marker, or is cut off. -/
theorem longCopy_reads (d : Decoder) :
    (∃ d', longCopy callbacks d = .error (.ret (-EBADMSG)) d') ∨
      (∃ next, Reads d.cur [.byte 0, .byte 0] next) ∨
      ∃ t next tail, t.Valid ∧ Token.items t = [.bit false, .bit true] ++ tail ∧
        Reads d.cur tail next := by
  obtain hstop | ⟨low, high, mid, next, hlow, hhigh, hfetch⟩ := fetchShort_cases d
  · exact .inl ⟨_, bind_error hstop⟩
  have hlowLt := low.toNat_lt
  have hhighLt := high.toNat_lt
  by_cases hend : low.toNat + 256 * high.toNat = 0
  · have hlow0 : low = 0 := UInt8.toNat_inj.mp (by rw [UInt8.toNat_zero]; omega)
    have hhigh0 : high = 0 := UInt8.toNat_inj.mp (by rw [UInt8.toNat_zero]; omega)
    subst hlow0 hhigh0
    exact .inr (.inl ⟨next, .byte hlow (.byte hhigh (.nil _))⟩)
  by_cases hsize : (low.toNat + 256 * high.toNat) % 8 = 0
  · cases hbyte : next.nextByte with
    | none =>
        refine .inl ⟨{ d with cur := next }, (bind_ok hfetch).trans ?_⟩
        simp only [hend, if_false, Token.field_and_seven, hsize, if_true]
        exact bind_error (run_fetchByte_none hbyte)
    | some third =>
        obtain ⟨v, next'⟩ := third
        refine .inr (.inr ⟨_, next', _, ?_, Token.items_sized low high v hsize,
          .byte hlow (.byte hhigh (.byte hbyte (.nil _)))⟩)
        have hv := v.toNat_lt
        refine ⟨by omega, by omega, by omega, by omega, ?_⟩
        simp only [Token.field]
        omega
  · refine .inr (.inr ⟨_, next, _, ?_, Token.items_long low high,
      .byte hlow (.byte hhigh (.nil _))⟩)
    refine ⟨by omega, by omega, by omega, by omega, ?_⟩
    simp only [Token.field]
    omega

/-- A pass that is not cut off reads the end marker or a valid token. -/
theorem decompressPass_reads (d : Decoder) :
    (∃ d', decompressPass callbacks d = .error (.ret (-EBADMSG)) d') ∨
      (∃ next, Reads d.cur endMarker next) ∨
      ∃ t next, Token.Valid t ∧ Reads d.cur t.items next := by
  cases hfirst : d.cur.nextBit with
  | none => exact .inl ⟨_, bind_error (run_fetchBit_none hfirst)⟩
  | some first =>
      obtain ⟨flag, mid⟩ := first
      have hfirst' := run_fetchBit hfirst
      cases flag with
      | true =>
          cases hbyte : mid.nextByte with
          | none =>
              refine .inl ⟨{ d with cur := mid }, (bind_ok hfirst').trans ?_⟩
              exact bind_error (run_copyByte_none hbyte)
          | some second =>
              obtain ⟨v, next⟩ := second
              exact .inr (.inr ⟨.literal v, next, trivial,
                .bit hfirst (.byte hbyte (.nil _))⟩)
      | false =>
          cases hsecond : mid.nextBit with
          | none =>
              refine .inl ⟨{ d with cur := mid }, (bind_ok hfirst').trans ?_⟩
              exact bind_error (run_fetchBit_none hsecond)
          | some second =>
              obtain ⟨flag, mid'⟩ := second
              have hflags : Reads d.cur [.bit false, .bit flag] mid' :=
                .bit hfirst (.bit hsecond (.nil _))
              cases flag with
              | true =>
                  rw [decompressPass_long hflags]
                  obtain hstop | ⟨next, hrest⟩ | ⟨t, next, tail, hvalid, hitems, hrest⟩ :=
                    longCopy_reads { d with cur := mid' }
                  · exact .inl hstop
                  · exact .inr (.inl ⟨next, hflags.append hrest⟩)
                  · exact .inr (.inr ⟨t, next, hvalid, hitems ▸ hflags.append hrest⟩)
              | false =>
                  rw [decompressPass_short hflags]
                  obtain hstop | ⟨t, next, tail, hvalid, hitems, hrest⟩ :=
                    shortCopy_reads { d with cur := mid' }
                  · exact .inl hstop
                  · exact .inr (.inr ⟨t, next, hvalid, hitems ▸ hflags.append hrest⟩)

/-- What a token stands for is done where its source is inside the output. -/
theorem runOp_ok {t : Token} {d : Decoder} (hsourced : t.op.Sourced d.out)
    (hsmall : d.out.length + t.size ≤ 2 ^ 31) :
    runOp t.op d = .ok none { d with out := t.op.apply d.out } := by
  cases t with
  | literal v => rfl
  | short len dist => exact bind_ok (run_copyLoop hsourced.1 len hsourced.2 hsmall)
  | long len dist => exact bind_ok (run_copyLoop hsourced.1 len hsourced.2 hsmall)
  | sized len dist => exact bind_ok (run_copyLoop hsourced.1 len hsourced.2 hsmall)

/-- A copy of at least one byte is refused or starts inside the output. -/
theorem runOp_copy_cases {len dist : Nat} (hlen : 1 ≤ len) (hpos : 1 ≤ dist)
    (hmax : dist ≤ 8192) (d : Decoder) :
    (∃ d', runOp (.copy dist len) d = .error (.ret (-EBADMSG)) d') ∨
      ((Lz77.Op.copy dist len).Sourced d.out ∧
        runOp (.copy dist len) d =
          .ok none { d with out := (Lz77.Op.copy dist len).apply d.out }) := by
  obtain ⟨len, rfl⟩ : ∃ k, len = k + 1 := ⟨len - 1, by omega⟩
  obtain ⟨d', hstop⟩ | ⟨hdist, hcopy⟩ := copyLoop_cases hpos hmax len d
  · exact .inl ⟨d', bind_error hstop⟩
  · exact .inr ⟨⟨hpos, hdist⟩, bind_ok hcopy⟩

theorem runOp_cases {t : Token} (hvalid : t.Valid) (d : Decoder) :
    (∃ d', runOp t.op d = .error (.ret (-EBADMSG)) d') ∨
      (t.op.Sourced d.out ∧ runOp t.op d = .ok none { d with out := t.op.apply d.out }) := by
  cases t with
  | literal v => exact .inr ⟨trivial, rfl⟩
  | short len dist =>
      obtain ⟨hlen, -, hpos, hmax⟩ := hvalid
      exact runOp_copy_cases (by omega) hpos (by omega) d
  | long len dist =>
      obtain ⟨hlen, -, hpos, hmax, -⟩ := hvalid
      exact runOp_copy_cases (by omega) hpos hmax d
  | sized len dist =>
      obtain ⟨hlen, -, hpos, hmax, -⟩ := hvalid
      exact runOp_copy_cases hlen hpos hmax d

/-- Everything one pass can do: stop, return at the end marker, or go on after
a valid token. -/
theorem decompressPass_cases (d : Decoder) :
    (∃ d', decompressPass callbacks d = .error (.ret (-EBADMSG)) d') ∨
      (∃ next, Reads d.cur endMarker next ∧
        decompressPass callbacks d =
          .ok (some (CInt.ofInt d.out.length)) { d with cur := next }) ∨
      ∃ t next, Token.Valid t ∧ t.op.Sourced d.out ∧ Reads d.cur t.items next ∧
        decompressPass callbacks d = .ok none ⟨next, t.op.apply d.out⟩ := by
  obtain hstop | ⟨next, hend⟩ | ⟨t, next, hvalid, hreads⟩ := decompressPass_reads d
  · exact .inl hstop
  · exact .inr (.inl ⟨next, hend, decompressPass_end hend⟩)
  · rw [decompressPass_token hvalid hreads]
    obtain hstop | ⟨hsourced, hrun⟩ := runOp_cases hvalid { d with cur := next }
    · exact .inl hstop
    · exact .inr (.inr ⟨t, next, hvalid, hsourced, hreads, hrun⟩)

/-! ## Whole runs -/

theorem doDecompress_some {fuel : Nat} {d d' : Decoder} {rv : Int}
    (h : decompressPass callbacks d = .ok (some rv) d') :
    doDecompress callbacks (fuel + 1) d = .ok rv d' :=
  bind_ok h

theorem doDecompress_none {fuel : Nat} {d d' : Decoder}
    (h : decompressPass callbacks d = .ok none d') :
    doDecompress callbacks (fuel + 1) d = doDecompress callbacks fuel d' :=
  bind_ok h

/-- A run over tokens and the end marker produces what the tokens stand for. -/
theorem doDecompress_tokens {tokens : List Token} (hvalid : ∀ t ∈ tokens, t.Valid)
    {d : Decoder} (hsourced : Lz77.SourcedFrom d.out (tokens.map Token.op)) {next : Cursor}
    (hreads : Reads d.cur (streamItems tokens) next)
    (hsmall : (Lz77.expandFrom d.out (tokens.map Token.op)).length < 2 ^ 31) {fuel : Nat}
    (hfuel : tokens.length < fuel) :
    doDecompress callbacks fuel d =
      .ok (Lz77.expandFrom d.out (tokens.map Token.op)).length
        ⟨next, Lz77.expandFrom d.out (tokens.map Token.op)⟩ := by
  induction tokens generalizing d fuel with
  | nil =>
      obtain ⟨fuel, rfl⟩ : ∃ k, fuel = k + 1 := ⟨fuel - 1, by omega⟩
      rw [doDecompress_some (decompressPass_end hreads)]
      have hself : CInt.ofInt d.out.length = d.out.length := CInt.ofInt_natCast hsmall
      simp only [hself, List.map_nil, Lz77.expandFrom_nil]
  | cons t tokens ih =>
      obtain ⟨fuel, rfl⟩ : ∃ k, fuel = k + 1 := ⟨fuel - 1, by omega⟩
      obtain ⟨hfirst, hrest⟩ := hsourced
      rw [streamItems_cons] at hreads
      obtain ⟨mid, hfront, hback⟩ := hreads.split _
      have happly : (t.op.apply d.out).length < 2 ^ 31 :=
        Nat.lt_of_le_of_lt (Lz77.prefix_expandFrom _ _).length_le hsmall
      have hgrown : (t.op.apply d.out).length = d.out.length + t.size :=
        Token.length_apply t hfirst
      have hpass : decompressPass callbacks d = .ok none ⟨mid, t.op.apply d.out⟩ := by
        rw [decompressPass_token (hvalid t (List.mem_cons_self ..)) hfront]
        exact runOp_ok hfirst (by simp only; omega)
      rw [doDecompress_none hpass]
      exact ih (fun u hu => hvalid u (List.mem_cons_of_mem t hu)) hrest hback hsmall
        (by simpa using hfuel)

/-- A run with enough fuel stops with `-EBADMSG`, or it has read valid tokens
and the end marker. -/
theorem doDecompress_cases {fuel : Nat} {d : Decoder} (hfuel : d.cur.unread < fuel) :
    (∃ d', doDecompress callbacks fuel d = .error (.ret (-EBADMSG)) d') ∨
      ∃ tokens next, (∀ t ∈ tokens, Token.Valid t) ∧
        Lz77.SourcedFrom d.out (tokens.map Token.op) ∧
        Reads d.cur (streamItems tokens) next ∧
        doDecompress callbacks fuel d =
          .ok (CInt.ofInt (Lz77.expandFrom d.out (tokens.map Token.op)).length)
            ⟨next, Lz77.expandFrom d.out (tokens.map Token.op)⟩ := by
  induction fuel generalizing d with
  | zero => omega
  | succ fuel ih =>
      obtain ⟨d', hstop⟩ | ⟨next, hreads, hend⟩ | ⟨t, next, hvalid, hsourced, hreads, hpass⟩ :=
        decompressPass_cases d
      · exact .inl ⟨d', bind_error hstop⟩
      · exact .inr ⟨[], next, fun t ht => absurd ht List.not_mem_nil, trivial, hreads,
          doDecompress_some hend⟩
      · have hless := hreads.unread_le
        have htwo := t.two_le_length_items
        rw [doDecompress_none hpass]
        obtain hstop | ⟨tokens, last, hvalids, hsources, hback, hrun⟩ :=
          ih (d := ⟨next, t.op.apply d.out⟩) (by simp only; omega)
        · exact .inl hstop
        · refine .inr ⟨t :: tokens, last, List.forall_mem_cons.mpr ⟨hvalid, hvalids⟩,
            ⟨hsourced, hsources⟩, ?_, hrun⟩
          rw [streamItems_cons]
          exact hreads.append hback

/-- A run over a well-formed stream, whatever follows it. -/
theorem run_serialise {tokens : List Token} (hwf : WellFormed tokens)
    (hsmall : (expansion tokens).length < 2 ^ 31) (pad : List Bool) (trailing : List UInt8) :
    ∃ next, run (serialise pad tokens ++ trailing) =
      .ok (expansion tokens).length ⟨next, expansion tokens⟩ := by
  have hat : (start (serialise pad tokens ++ trailing)).cur.At (streamItems tokens ++ []) pad
      trailing := by
    rw [List.append_nil]
    exact FlagStream.Cursor.at_start (streamItems tokens) pad trailing 0
  obtain ⟨next, hreads, -⟩ := hat.reads
  have hcount := length_le_streamItems tokens
  have hless := hreads.unread_le
  simp only [FlagStream.Cursor.unread, start] at hless
  refine ⟨next, doDecompress_tokens (d := start _) hwf.1 hwf.2 hreads hsmall ?_⟩
  simp only [passes]
  omega

/-- A run stops with `-EBADMSG`, or the input begins with a well-formed stream. -/
theorem run_cases (src : List UInt8) :
    (∃ d', run src = .error (.ret (-EBADMSG)) d') ∨
      ∃ tokens pad trailing next, WellFormed tokens ∧ src = serialise pad tokens ++ trailing ∧
        run src = .ok (CInt.ofInt (expansion tokens).length) ⟨next, expansion tokens⟩ := by
  have hfuel : (start src).cur.unread < passes src := by
    simp only [FlagStream.Cursor.unread, start, passes]
    omega
  obtain hstop | ⟨tokens, next, hvalid, hsourced, hreads, hrun⟩ := doDecompress_cases hfuel
  · exact .inl hstop
  · have hat := hreads.at (FlagStream.Cursor.at_nil next)
    rw [List.append_nil] at hat
    exact .inr ⟨tokens, _, _, next, ⟨hvalid, hsourced⟩, hat.rest_eq, hrun⟩

end Decoder

end Sylverant.Prs
