/-
# Strings of the C library

Splitting a string into tokens and reading numbers, as `strtok_r`, `strtol` and
`strtoul` do it. A long has 64 bits.
-/

import Mathlib.Algebra.Group.Nat.Defs
import Mathlib.Data.List.Basic

namespace CString

/-! ## Tokens -/

/-- The tokens in a string after the characters of a token that has begun. -/
def tokensFrom (delims : List Char) : List Char → List Char → List (List Char)
  | token, [] => if token = [] then [] else [token]
  | token, c :: s =>
      if c ∈ delims then
        if token = [] then tokensFrom delims [] s else token :: tokensFrom delims [] s
      else tokensFrom delims (token ++ [c]) s

/-- What calls of `strtok_r` return one after another, until there is no more token. -/
def strtok (s : String) (delims : List Char) : List String :=
  (tokensFrom delims [] s.toList).map String.ofList

variable {delims : List Char}

theorem tokensFrom_append {token : List Char} (clean : ∀ c ∈ token, c ∉ delims)
    (begun rest : List Char) :
    tokensFrom delims begun (token ++ rest) = tokensFrom delims (begun ++ token) rest := by
  induction token generalizing begun with
  | nil => rw [List.nil_append, List.append_nil]
  | cons c token ih =>
      have other : c ∉ delims := clean c List.mem_cons_self
      have tail : ∀ c ∈ token, c ∉ delims := fun c h => clean c (List.mem_cons_of_mem _ h)
      rw [List.cons_append, tokensFrom, if_neg other, ih tail, List.append_assoc,
        List.singleton_append]

theorem tokensFrom_delims {gap : List Char} (only : ∀ c ∈ gap, c ∈ delims) (rest : List Char) :
    tokensFrom delims [] (gap ++ rest) = tokensFrom delims [] rest := by
  induction gap with
  | nil => rfl
  | cons c gap ih =>
      have delim : c ∈ delims := only c List.mem_cons_self
      rw [List.cons_append, tokensFrom, if_pos delim, if_pos rfl]
      exact ih fun c h => only c (List.mem_cons_of_mem _ h)

/-- Tokens with delimiters between them are found again. -/
theorem tokensFrom_intercalate {gap : List Char} {tokens : List (List Char)}
    (gapped : gap ≠ []) (only : ∀ c ∈ gap, c ∈ delims)
    (clean : ∀ token ∈ tokens, token ≠ [] ∧ ∀ c ∈ token, c ∉ delims) :
    tokensFrom delims [] (gap.intercalate tokens) = tokens := by
  induction tokens with
  | nil => rfl
  | cons token tokens ih =>
      obtain ⟨nonempty, free⟩ := clean token List.mem_cons_self
      have tail := fun t h => clean t (List.mem_cons_of_mem token h)
      cases tokens with
      | nil =>
          have whole := tokensFrom_append free [] []
          rw [List.append_nil, List.nil_append] at whole
          rw [List.intercalate_singleton, whole, tokensFrom, if_neg nonempty]
      | cons next tokens =>
          obtain ⟨d, gap', rfl⟩ := List.exists_cons_of_ne_nil gapped
          have delim : d ∈ delims := only d List.mem_cons_self
          rw [List.intercalate_cons_cons, List.append_assoc, tokensFrom_append free,
            List.nil_append, List.cons_append, tokensFrom, if_pos delim, if_neg nonempty,
            tokensFrom_delims fun c h => only c (List.mem_cons_of_mem _ h), ih tail]

/-- Where there is one delimiter, the tokens are the parts between the delimiters that are not
empty, where the first one may have begun. -/
theorem tokensFrom_eq_splitOn (d : Char) (token s : List Char) :
    tokensFrom [d] token s = ((s.splitOn d).modifyHead (token ++ ·)).filter (· ≠ []) := by
  induction s generalizing token with
  | nil =>
      rw [tokensFrom, List.splitOn_nil, List.modifyHead_cons, List.append_nil, List.filter_cons]
      by_cases empty : token = [] <;> simp [empty]
  | cons c s ih =>
      have alone : (s.splitOn d).modifyHead ([] ++ ·) = s.splitOn d :=
        congrFun List.modifyHead_id (s.splitOn d)
      rw [tokensFrom, List.splitOn_cons_eq_if_modifyHead]
      by_cases here : c = d
      · have delim : c ∈ [d] := List.mem_singleton.mpr here
        rw [if_pos delim, if_pos (beq_iff_eq.mpr here), List.modifyHead_cons, List.append_nil,
          List.filter_cons, ih, alone]
        by_cases empty : token = [] <;> simp [empty]
      · have other : c ∉ [d] := fun h => here (List.mem_singleton.mp h)
        rw [if_neg other, if_neg fun h => here (beq_iff_eq.mp h), ih, List.modifyHead_modifyHead]
        congr 2
        funext part
        rw [Function.comp_apply, List.append_assoc, List.singleton_append]

/-- The names, written one after another with a gap of delimiters, are the tokens. -/
theorem strtok_intercalate {gap : List Char} {names : List String}
    (gapped : gap ≠ []) (only : ∀ c ∈ gap, c ∈ delims)
    (clean : ∀ name ∈ names, name.toList ≠ [] ∧ ∀ c ∈ name.toList, c ∉ delims) :
    strtok (String.ofList (gap.intercalate (names.map String.toList))) delims = names := by
  have found : tokensFrom delims [] (gap.intercalate (names.map String.toList)) =
      names.map String.toList := by
    apply tokensFrom_intercalate gapped only
    intro token h
    obtain ⟨name, hname, rfl⟩ := List.mem_map.mp h
    exact clean name hname
  rw [strtok, String.toList_ofList, found, List.map_map]
  exact (List.map_congr_left fun name _ => String.ofList_toList).trans (List.map_id names)

/-! ## Numbers -/

/-- The value of a digit, of which letters are digits too. -/
def digitValue (c : Char) : Option Nat :=
  if '0' ≤ c ∧ c ≤ '9' then some (c.toNat - '0'.toNat)
  else if 'a' ≤ c ∧ c ≤ 'z' then some (c.toNat - 'a'.toNat + 10)
  else if 'A' ≤ c ∧ c ≤ 'Z' then some (c.toNat - 'A'.toNat + 10)
  else none

/-- The digits at the start of a string, after digits of the given value. -/
def digits (base : Nat) : Nat → List Char → Nat
  | value, [] => value
  | value, c :: s =>
      match digitValue c with
      | none => value
      | some d => if d < base then digits base (value * base + d) s else value

/-- `isspace` -/
def isSpace (c : Char) : Bool := c ∈ [' ', '\t', '\n', '\x0b', '\x0c', '\r']

/-- Whether what follows a prefix `0x` is a digit, so that the prefix counts as one. -/
def hexDigitNext (s : List Char) : Bool :=
  match s with
  | c :: _ => (digitValue c).any (· < 16)
  | [] => false

/-- The digits in the base given, where base 0 leaves the base to a prefix. -/
def magnitude (base : Nat) : List Char → Nat
  | '0' :: x :: s =>
      if (x = 'x' ∨ x = 'X') ∧ (base = 0 ∨ base = 16) ∧ hexDigitNext s then digits 16 0 s
      else digits (if base = 0 then 8 else base) 0 (x :: s)
  | s => digits (if base = 0 then 10 else base) 0 s

/-- The sign, and the number after it. -/
def signed (base : Nat) (s : List Char) : Bool × Nat :=
  match s.dropWhile isSpace with
  | '-' :: s => (true, magnitude base s)
  | '+' :: s => (false, magnitude base s)
  | s => (false, magnitude base s)

/-- `strtol`, with `none` where it sets `errno`. -/
def strtol (s : String) (base : Nat) : Option Int :=
  let n := signed base s.toList
  if n.1 then if n.2 ≤ 2 ^ 63 then some (-(n.2 : Int)) else none
  else if n.2 < 2 ^ 63 then some n.2 else none

/-- `strtoul`, with `none` where it sets `errno`. -/
def strtoul (s : String) (base : Nat) : Option Nat :=
  let n := signed base s.toList
  if n.2 < 2 ^ 64 then some (if n.1 then (2 ^ 64 - n.2) % 2 ^ 64 else n.2) else none

example : strtok "Draw, Fill" [',', ' '] = ["Draw", "Fill"] := by decide
example : strtol " -0x10" 0 = some (-16) ∧ strtol "017" 0 = some 15 := by decide

end CString
