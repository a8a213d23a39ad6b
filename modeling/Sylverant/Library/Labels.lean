/-
# Names made of labels

On the wire a name is its labels one after another, each behind a byte with its length,
and a zero byte after the last one. Written out, its labels stand with dots between them.
-/

import Mathlib.Data.List.Basic

namespace Labels

/-- A label. Its length fits in a byte, and the length zero ends a name. -/
structure Label where
  bytes : List UInt8
  nonempty : bytes ≠ []
  short : bytes.length ≤ 255
  deriving DecidableEq

/-- The byte in front of a label. -/
def Label.size (l : Label) : UInt8 := UInt8.ofNat l.bytes.length

/-- The labels as they are sent. -/
def wire : List Label → List UInt8
  | [] => []
  | l :: ls => l.size :: (l.bytes ++ wire ls)

/-- The labels, each with a dot behind it. -/
def dots (dot : UInt8) : List Label → List UInt8
  | [] => []
  | l :: ls => l.bytes ++ dot :: dots dot ls

/-- The labels with dots between them. -/
def dotted (dot : UInt8) : List Label → List UInt8
  | [] => []
  | [l] => l.bytes
  | l :: ls => l.bytes ++ dot :: dotted dot ls

variable {l : Label} {ls ls' : List Label} {rest rest' : List UInt8} {dot : UInt8}

theorem toNat_size : l.size.toNat = l.bytes.length :=
  UInt8.toNat_ofNat_of_lt' (Nat.lt_of_le_of_lt l.short (by decide))

theorem size_ne_zero : l.size ≠ 0 := by
  intro h
  have none : l.bytes.length = 0 := by
    rw [← toNat_size, h]
    rfl
  exact l.nonempty (List.length_eq_zero_iff.mp none)

theorem dots_eq (some : ls ≠ []) : dots dot ls = dotted dot ls ++ [dot] := by
  induction ls with
  | nil => exact absurd rfl some
  | cons l ls ih =>
      cases ls with
      | nil => rfl
      | cons l' ls =>
          have apart : dotted dot (l :: l' :: ls) = l.bytes ++ dot :: dotted dot (l' :: ls) := rfl
          have first : dots dot (l :: l' :: ls) = l.bytes ++ dot :: dots dot (l' :: ls) := rfl
          rw [first, apart, ih (List.cons_ne_nil l' ls), List.append_assoc, List.cons_append]

/-- A name is read in one way only. -/
theorem wire_inj (h : wire ls ++ 0 :: rest = wire ls' ++ 0 :: rest') :
    ls = ls' ∧ rest = rest' := by
  induction ls generalizing ls' with
  | nil =>
      cases ls' with
      | nil => exact ⟨rfl, (List.cons.inj h).2⟩
      | cons l' ls' => exact absurd (List.cons.inj h).1.symm size_ne_zero
  | cons l ls ih =>
      cases ls' with
      | nil => exact absurd (List.cons.inj h).1 size_ne_zero
      | cons l' ls' =>
          obtain ⟨size, tail⟩ := List.cons.inj h
          have long : l.bytes.length = l'.bytes.length := by
            rw [← toNat_size, ← toNat_size, size]
          have split :
              l.bytes ++ (wire ls ++ 0 :: rest) = l'.bytes ++ (wire ls' ++ 0 :: rest') := by
            rw [← List.append_assoc, ← List.append_assoc]
            exact tail
          obtain ⟨bytes, behind⟩ := List.append_inj split long
          obtain ⟨rfl, same⟩ := ih behind
          have labels : l = l' := by
            cases l
            cases l'
            cases bytes
            rfl
          exact ⟨by rw [labels], same⟩

end Labels
