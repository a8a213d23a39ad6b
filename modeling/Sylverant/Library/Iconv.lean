/-
# Conversion between encodings

What `iconv` writes into a buffer: it takes one character after the other, until nothing is left,
and stops early at a sequence that is not valid, at a character that the other encoding does not
have, and at a character that has no room any more.
-/

import Mathlib.Tactic.Common

namespace Iconv

/-- A decoder takes a character from the bytes, and leaves the rest. -/
abbrev Decoder := List UInt8 → Option (Nat × List UInt8)

/-- The bytes of a character. -/
abbrev Encoder := Nat → Option (List UInt8)

/-- At most so many characters, into so much room. -/
def steps (decode : Decoder) (encode : Encoder) : Nat → Nat → List UInt8 → List UInt8
  | 0, _, _ => []
  | n + 1, room, bytes =>
      match decode bytes with
      | none => []
      | some (c, rest) =>
          match encode c with
          | none => []
          | some out =>
              if out.length ≤ room then out ++ steps decode encode n (room - out.length) rest
              else []

/-- `iconv`, with what it has written. There are no more characters than bytes. -/
def iconv (decode : Decoder) (encode : Encoder) (room : Nat) (bytes : List UInt8) : List UInt8 :=
  steps decode encode bytes.length room bytes

/-! ## Encodings -/

/-- The second unit of a character that takes two. -/
def fromSurrogates (u : Nat) : Decoder
  | c :: d :: rest =>
      let v := c.toNat + 256 * d.toNat
      if 0xDC00 ≤ v ∧ v < 0xE000 then some (0x10000 + 0x400 * (u - 0xD800) + (v - 0xDC00), rest)
      else none
  | _ => none

/-- `UTF-16LE` -/
def fromUtf16 : Decoder
  | a :: b :: rest =>
      let u := a.toNat + 256 * b.toNat
      if u < 0xD800 ∨ 0xE000 ≤ u then some (u, rest)
      else if u < 0xDC00 then fromSurrogates u rest
      else none
  | _ => none

/-- `ASCII` -/
def toAscii : Encoder := fun c => if c < 0x80 then some [.ofNat c] else none

/-- `UTF-8` -/
def toUtf8 : Encoder := fun c =>
  if c < 0x80 then some [.ofNat c]
  else if c < 0x800 then some [.ofNat (0xC0 + c / 0x40), .ofNat (0x80 + c % 0x40)]
  else if c < 0x10000 then
    some [.ofNat (0xE0 + c / 0x1000), .ofNat (0x80 + c / 0x40 % 0x40), .ofNat (0x80 + c % 0x40)]
  else
    some [.ofNat (0xF0 + c / 0x40000), .ofNat (0x80 + c / 0x1000 % 0x40),
      .ofNat (0x80 + c / 0x40 % 0x40), .ofNat (0x80 + c % 0x40)]

/-- A unit of two bytes. -/
def unit (u : Nat) : List UInt8 := [.ofNat u, .ofNat (u / 256)]

/-- `UTF-16LE` -/
def toUtf16 : Encoder := fun c =>
  if c < 0x10000 then some (unit c)
  else some (unit (0xD800 + (c - 0x10000) / 0x400) ++ unit (0xDC00 + (c - 0x10000) % 0x400))

/-- A character of several bytes, of which the first has given some bits: six bits from each of
the bytes that continue it. -/
def continued : Nat → Nat → Decoder
  | 0, c, rest => some (c, rest)
  | n + 1, c, b :: rest =>
      if 0x80 ≤ b ∧ b < 0xC0 then continued n (0x40 * c + b.toNat % 0x40) rest else none
  | _ + 1, _, [] => none

/-- `UTF-8`, where a character that has a shorter form is not valid, nor half of a pair of
surrogates. -/
def fromUtf8 : Decoder
  | [] => none
  | a :: rest =>
      let long := fun (n least first : Nat) =>
        (continued n first rest).filter fun r =>
          decide (least ≤ r.1) && (decide (r.1 < 0xD800) || decide (0xE000 ≤ r.1)) &&
            decide (r.1 < 0x110000)
      if a < 0x80 then some (a.toNat, rest)
      else if a < 0xC0 then none
      else if a < 0xE0 then long 1 0x80 (a.toNat % 0x20)
      else if a < 0xF0 then long 2 0x800 (a.toNat % 0x10)
      else if a < 0xF8 then long 3 0x10000 (a.toNat % 0x08)
      else none

variable {decode : Decoder} {encode : Encoder} {n room : Nat} {bytes : List UInt8}

theorem fromUtf16_unit {u : Nat} (ascii : u < 0x80) (rest : List UInt8) :
    fromUtf16 (unit u ++ rest) = some (u, rest) := by
  have value : (UInt8.ofNat u).toNat + 256 * (UInt8.ofNat (u / 256)).toNat = u := by
    rw [UInt8.toNat_ofNat', UInt8.toNat_ofNat']
    omega
  rw [unit, List.cons_append, List.cons_append, List.nil_append, fromUtf16, value,
    if_pos (by omega)]

theorem fromSurrogates_other {u : Nat} {c : Nat} {left : List UInt8}
    (h : fromSurrogates u bytes = some (c, left)) : ¬c < 0x80 := by
  rw [fromSurrogates.eq_def] at h
  split at h
  · dsimp only at h
    split at h
    · obtain ⟨rfl, -⟩ := Prod.mk.inj (Option.some.inj h)
      omega
    · cases h
  · cases h

/-- Another unit does not become an ASCII character. -/
theorem fromUtf16_other {u : Nat} (range : u < 65536) (other : ¬u < 0x80) {rest : List UInt8}
    {c : Nat} {left : List UInt8} (h : fromUtf16 (unit u ++ rest) = some (c, left)) :
    ¬c < 0x80 := by
  have value : (UInt8.ofNat u).toNat + 256 * (UInt8.ofNat (u / 256)).toNat = u := by
    rw [UInt8.toNat_ofNat', UInt8.toNat_ofNat']
    omega
  rw [unit, List.cons_append, List.cons_append, List.nil_append, fromUtf16, value] at h
  split at h
  · obtain ⟨rfl, -⟩ := Prod.mk.inj (Option.some.inj h)
    exact other
  · split at h
    · exact fromSurrogates_other h
    · cases h

/-- The encoder leaves ASCII characters as they are. -/
def KeepsAscii (encode : Encoder) : Prop := ∀ c, c < 0x80 → encode c = some [.ofNat c]

theorem keepsAscii_toAscii : KeepsAscii toAscii := fun _ ascii => if_pos ascii

theorem keepsAscii_toUtf8 : KeepsAscii toUtf8 := fun _ ascii => if_pos ascii

/-- ASCII characters in front are converted as long as there is room. -/
theorem steps_units (keeps : KeepsAscii encode) {text : List Nat} (ascii : ∀ u ∈ text, u < 0x80)
    (rest : List UInt8) : ∀ {n room : Nat}, text.length ≤ n → text.length ≤ room →
    steps fromUtf16 encode n room (text.flatMap unit ++ rest) =
      text.map UInt8.ofNat ++
        steps fromUtf16 encode (n - text.length) (room - text.length) rest := by
  induction text with
  | nil =>
      intro n room _ _
      rfl
  | cons u text ih =>
      intro n room enough fits
      have first : u < 0x80 := ascii u List.mem_cons_self
      rw [List.length_cons] at enough fits
      cases n with
      | zero => exact absurd enough (Nat.not_succ_le_zero _)
      | succ n =>
          have one : [UInt8.ofNat u].length ≤ room := Nat.le_trans (Nat.le_add_left 1 _) fits
          have more := ih (fun x hx => ascii x (List.mem_cons_of_mem u hx))
            (Nat.le_of_succ_le_succ enough) (Nat.le_sub_of_add_le fits)
          rw [List.flatMap_cons, List.append_assoc, steps, fromUtf16_unit first]
          dsimp only
          rw [keeps u first]
          dsimp only
          rw [if_pos one, List.length_singleton, more, List.map_cons, List.length_cons,
            Nat.add_sub_add_right, Nat.sub_sub, Nat.add_comm 1]
          rfl

/-- Without room, nothing is written. -/
theorem steps_full (some : ∀ c out, encode c = some out → out ≠ []) :
    steps decode encode n 0 bytes = [] := by
  cases n with
  | zero => rfl
  | succ n =>
      rw [steps]
      split
      · rfl
      · split
        · rfl
        · rename_i out hout
          rw [if_neg]
          exact fun fits => some _ _ hout (List.length_eq_zero_iff.mp (Nat.le_zero.mp fits))

theorem toAscii_some (c : Nat) (out : List UInt8) (h : toAscii c = some out) : out ≠ [] := by
  rw [toAscii] at h
  split at h
  · rw [← Option.some.inj h]
    exact List.cons_ne_nil _ _
  · cases h

/-- To ASCII, what is before the first other character is converted, and that is all. -/
theorem steps_toAscii {text : List Nat} (units : ∀ u ∈ text, u < 65536) {rest : List UInt8} :
    ∀ {n room : Nat}, text.length ≤ n → room ≤ text.length ∨ rest = [] →
    steps fromUtf16 toAscii n room (text.flatMap unit ++ rest) =
      ((text.takeWhile (· < 0x80)).take room).map UInt8.ofNat := by
  induction text with
  | nil =>
      intro n room _ ends
      rw [List.flatMap_nil, List.nil_append, List.takeWhile_nil, List.take_nil, List.map_nil]
      rcases ends with full | rfl
      · rw [Nat.le_zero.mp full]
        exact steps_full toAscii_some
      · cases n with
        | zero => rfl
        | succ n => rfl
  | cons u text ih =>
      intro n room enough ends
      rw [List.length_cons] at enough ends
      cases n with
      | zero => exact absurd enough (Nat.not_succ_le_zero _)
      | succ n =>
          rw [List.flatMap_cons, List.append_assoc]
          by_cases first : u < 0x80
          · rw [List.takeWhile_cons, if_pos (decide_eq_true first)]
            cases room with
            | zero =>
                rw [List.take_zero, List.map_nil]
                exact steps_full toAscii_some
            | succ room =>
                have more := ih (fun x hx => units x (List.mem_cons_of_mem u hx))
                  (Nat.le_of_succ_le_succ enough) (ends.imp_left Nat.le_of_succ_le_succ)
                rw [steps, fromUtf16_unit first, List.take_succ_cons, List.map_cons]
                dsimp only
                rw [keepsAscii_toAscii u first]
                dsimp only
                rw [List.length_singleton, if_pos (Nat.le_add_left 1 room), Nat.add_sub_cancel,
                  more]
                rfl
          · rw [List.takeWhile_cons, if_neg (mt of_decide_eq_true first), List.take_nil,
              List.map_nil, steps]
            split
            · rfl
            · rename_i c left decoded
              have other := fromUtf16_other (units u List.mem_cons_self) first decoded
              rw [toAscii, if_neg other]

theorem length_units (text : List Nat) : (text.flatMap unit).length = 2 * text.length := by
  induction text with
  | nil => rfl
  | cons u text ih =>
      rw [List.flatMap_cons, List.length_append, ih, List.length_cons]
      show 2 + _ = _
      omega

/-- Text of ASCII characters, as far as it fits. -/
theorem iconv_units (keeps : KeepsAscii encode) {text : List Nat} (ascii : ∀ u ∈ text, u < 0x80)
    (fits : text.length ≤ room) :
    iconv fromUtf16 encode room (text.flatMap unit) = text.map UInt8.ofNat := by
  have all := steps_units keeps ascii [] (n := (text.flatMap unit).length)
    (by rw [length_units]; omega) fits
  rw [List.append_nil] at all
  rw [iconv, all]
  have stop : ∀ n r, steps fromUtf16 encode n r [] = [] := by
    intro n r
    cases n with
    | zero => rfl
    | succ n => rfl
  rw [stop, List.append_nil]

/-- Any text to ASCII, with anything behind it once there is no more room. -/
theorem iconv_toAscii {text : List Nat} (units : ∀ u ∈ text, u < 65536) {rest : List UInt8}
    (ends : room ≤ text.length ∨ rest = []) :
    iconv fromUtf16 toAscii room (text.flatMap unit ++ rest) =
      ((text.takeWhile (· < 0x80)).take room).map UInt8.ofNat := by
  apply steps_toAscii units _ ends
  rw [List.length_append, length_units]
  omega

end Iconv
