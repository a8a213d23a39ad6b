/-
# The PRS format

A PRS stream is a list of tokens and an end marker, packed as flag bits and data
bytes. A token is a literal byte or a copy, and a copy has three shapes: a short
one with its length in two flag bits and its distance in one byte, a long one
with both in a 16-bit field, and a long one with the length in a byte of its own.
The end marker is a long copy whose field is zero, so a copy with a byte for its
length cannot be `8192` bytes back.
-/

import Sylverant.Library.FlagStream
import Sylverant.Library.Lz77

namespace Sylverant.Prs

open FlagStream (Item)

/-- A token of a PRS stream. A copy has a length and a distance, the negative of
the offset in the source. -/
inductive Token
  | literal (v : UInt8)
  | short (len dist : Nat)
  | long (len dist : Nat)
  /-- A long copy with an explicit size byte. -/
  | sized (len dist : Nat)
  deriving DecidableEq, Repr

namespace Token

/-- The 16-bit field of a long copy: the low 13 bits of its offset over the
three bits of its size. -/
def field (size dist : Nat) : Nat := (8192 - dist) * 8 + size

/-- The low byte of a 16-bit field. -/
def lowByte (field : Nat) : UInt8 := UInt8.ofNat (field % 256)

/-- The high byte of a 16-bit field. -/
def highByte (field : Nat) : UInt8 := UInt8.ofNat (field / 256)

/-- The flags and data bytes of a token. -/
def items : Token → List Item
  | .literal v => [.bit true, .byte v]
  | .short len dist =>
      [.bit false, .bit false, .bit ((len - 2) / 2 == 1), .bit ((len - 2) % 2 == 1),
        .byte (UInt8.ofNat (256 - dist))]
  | .long len dist =>
      [.bit false, .bit true, .byte (lowByte (field (len - 2) dist)),
        .byte (highByte (field (len - 2) dist))]
  | .sized len dist =>
      [.bit false, .bit true, .byte (lowByte (field 0 dist)), .byte (highByte (field 0 dist)),
        .byte (UInt8.ofNat (len - 1))]

/-- What a token stands for. -/
def op : Token → Lz77.Op UInt8
  | .literal v => .literal v
  | .short len dist => .copy dist len
  | .long len dist => .copy dist len
  | .sized len dist => .copy dist len

/-- The lengths and offsets a token of each shape may have. -/
def Valid : Token → Prop
  | .literal _ => True
  | .short len dist => 2 ≤ len ∧ len ≤ 5 ∧ 1 ≤ dist ∧ dist ≤ 256
  | .long len dist => 3 ≤ len ∧ len ≤ 9 ∧ 1 ≤ dist ∧ dist ≤ 8192 ∧ field (len - 2) dist ≠ 0
  | .sized len dist => 1 ≤ len ∧ len ≤ 256 ∧ 1 ≤ dist ∧ dist ≤ 8192 ∧ field 0 dist ≠ 0

instance decidableValid : DecidablePred Valid
  | .literal _ => .isTrue trivial
  | .short len dist => inferInstanceAs (Decidable (2 ≤ len ∧ len ≤ 5 ∧ 1 ≤ dist ∧ dist ≤ 256))
  | .long len dist => inferInstanceAs (Decidable
      (3 ≤ len ∧ len ≤ 9 ∧ 1 ≤ dist ∧ dist ≤ 8192 ∧ field (len - 2) dist ≠ 0))
  | .sized len dist => inferInstanceAs (Decidable
      (1 ≤ len ∧ len ≤ 256 ∧ 1 ≤ dist ∧ dist ≤ 8192 ∧ field 0 dist ≠ 0))

/-- The number of bytes a token stands for. -/
def size : Token → Nat
  | .literal _ => 1
  | .short len _ => len
  | .long len _ => len
  | .sized len _ => len

end Token

/-- The end of the data: a long copy with a zero field. -/
def endMarker : List Item := [.bit false, .bit true, .byte 0, .byte 0]

/-- The flags and data bytes of a whole stream. -/
def streamItems (tokens : List Token) : List Item :=
  tokens.flatMap Token.items ++ endMarker

/-- A list of tokens followed by the end marker, packed into bytes. The flags
left over in the last flag byte are those of `pad`. -/
def serialise (pad : List Bool) (tokens : List Token) : List UInt8 :=
  FlagStream.pack pad 0 (streamItems tokens)

/-- The bytes a list of tokens stands for. -/
def expansion (tokens : List Token) : List UInt8 :=
  Lz77.expandFrom [] (tokens.map Token.op)

/-- Tokens of valid shape whose copies start inside the bytes already produced. -/
def WellFormed (tokens : List Token) : Prop :=
  (∀ t ∈ tokens, t.Valid) ∧ Lz77.SourcedFrom [] (tokens.map Token.op)

namespace Token

/-- A token adds as many bytes as it stands for. -/
theorem length_apply (t : Token) {out : List UInt8} (h : t.op.Sourced out) :
    (t.op.apply out).length = out.length + t.size := by
  cases t with
  | literal v => exact List.length_append
  | short len dist => exact Lz77.length_copy h.1 len h.2
  | long len dist => exact Lz77.length_copy h.1 len h.2
  | sized len dist => exact Lz77.length_copy h.1 len h.2

theorem two_le_length_items (t : Token) : 2 ≤ t.items.length := by
  cases t <;> simp [items]

end Token

theorem streamItems_cons (t : Token) (tokens : List Token) :
    streamItems (t :: tokens) = t.items ++ streamItems tokens := by
  simp only [streamItems, List.flatMap_cons, List.append_assoc]

theorem length_le_streamItems (tokens : List Token) :
    tokens.length ≤ (streamItems tokens).length := by
  induction tokens with
  | nil => simp
  | cons t tokens ih =>
      have := t.two_le_length_items
      rw [streamItems_cons, List.length_append, List.length_cons]
      omega

namespace Token

/-! ## Fields -/

theorem toNat_lowByte (field : Nat) : (lowByte field).toNat = field % 256 := by
  simp [lowByte]

theorem toNat_highByte {field : Nat} (h : field < 65536) :
    (highByte field).toNat = field / 256 := by
  simp only [highByte, UInt8.toNat_ofNat']
  omega

/-- Two bytes are the low and the high byte of the field they make up. -/
theorem field_of_bytes (low high : UInt8) :
    low.toNat ||| high.toNat <<< 8 = low.toNat + 256 * high.toNat := by
  rw [Nat.or_comm, ← Nat.shiftLeft_add_eq_or_of_lt low.toNat_lt, Nat.shiftLeft_eq]
  omega

theorem lowByte_of_bytes (low high : UInt8) : lowByte (low.toNat + 256 * high.toNat) = low := by
  apply UInt8.toNat_inj.mp
  have := low.toNat_lt
  rw [toNat_lowByte]
  omega

theorem highByte_of_bytes (low high : UInt8) :
    highByte (low.toNat + 256 * high.toNat) = high := by
  apply UInt8.toNat_inj.mp
  have hlow := low.toNat_lt
  have hhigh := high.toNat_lt
  rw [toNat_highByte (by omega)]
  omega

/-- The bytes of a field put together. -/
theorem bytes_field {field : Nat} (h : field < 65536) :
    (lowByte field).toNat + 256 * (highByte field).toNat = field := by
  rw [toNat_lowByte, toNat_highByte h]
  omega

/-- The three low bits of a field are its size. -/
theorem field_and_seven (field : Nat) : field &&& 0x0007 = field % 8 :=
  Nat.and_two_pow_sub_one_eq_mod field 3

theorem field_shiftRight (field : Nat) : field >>> 3 = field / 8 := by
  rw [Nat.shiftRight_eq_div_pow]

theorem field_lt (size : Nat) {dist : Nat} (hsize : size < 8) (hdist : 1 ≤ dist) :
    field size dist < 65536 := by
  simp only [field]
  omega

/-- The token with given size flags and offset byte. -/
theorem items_short (flag size : Bool) (v : UInt8) :
    (short (2 * flag.toNat + size.toNat + 2) (256 - v.toNat)).items =
      [.bit false, .bit false] ++ [.bit flag, .bit size, .byte v] := by
  have hback : UInt8.ofNat (256 - (256 - v.toNat)) = v := by
    have hv := v.toNat_lt
    rw [Nat.sub_sub_self (by omega), UInt8.ofNat_toNat]
  have hflags : ∀ flag size : Bool,
      ((2 * flag.toNat + size.toNat + 2 - 2) / 2 == 1) = flag ∧
        ((2 * flag.toNat + size.toNat + 2 - 2) % 2 == 1) = size := by decide
  simp only [items, hback, (hflags flag size).1, (hflags flag size).2, List.cons_append,
    List.nil_append]

variable (low high : UInt8)

/-- Splitting a field into size and offset loses nothing. -/
theorem field_split :
    field ((low.toNat + 256 * high.toNat) % 8) (8192 - (low.toNat + 256 * high.toNat) / 8) =
      low.toNat + 256 * high.toNat := by
  have hlow := low.toNat_lt
  have hhigh := high.toNat_lt
  simp only [field]
  omega

/-- The token with a given field that holds the size. -/
theorem items_long :
    (long ((low.toNat + 256 * high.toNat) % 8 + 2)
      (8192 - (low.toNat + 256 * high.toNat) / 8)).items =
      [.bit false, .bit true] ++ [.byte low, .byte high] := by
  simp only [items, Nat.add_sub_cancel, field_split, lowByte_of_bytes, highByte_of_bytes,
    List.cons_append, List.nil_append]

/-- The token with a given field and size byte. -/
theorem items_sized (v : UInt8) (hsize : (low.toNat + 256 * high.toNat) % 8 = 0) :
    (sized (v.toNat + 1) (8192 - (low.toNat + 256 * high.toNat) / 8)).items =
      [.bit false, .bit true] ++ [.byte low, .byte high, .byte v] := by
  have hfield := field_split low high
  rw [hsize] at hfield
  simp only [items, hfield, lowByte_of_bytes, highByte_of_bytes, Nat.add_sub_cancel,
    UInt8.ofNat_toNat, List.cons_append, List.nil_append]

end Token

end Sylverant.Prs
