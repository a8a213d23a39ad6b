/-
# Literals and back-references

The meaning of an LZ77 token list over any alphabet: a literal appends its
letter, a copy appends letters already produced, one after the other, so that a
copy may read letters it has itself appended. A copy is meaningful when it
starts inside what has been produced. The main fact for a compressor is
`copy_prefixOf`: a copy whose letters were compared with the input extends one
prefix of the input to a longer one.
-/

import Mathlib.Tactic.Common
import Mathlib.Data.List.Basic

namespace Lz77

universe u

variable {α : Type u}

/-- A token: a letter, or `len` letters from `dist` positions back. -/
inductive Op (α : Type u)
  | literal (a : α)
  | copy (dist len : Nat)

/-- Append `len` letters, each the one `dist` positions before the end. -/
def copy (dist : Nat) : Nat → List α → List α
  | 0, out => out
  | len + 1, out => copy dist len (out ++ out[out.length - dist]?.toList)

/-- The output after one token. -/
def Op.apply (out : List α) : Op α → List α
  | .literal a => out ++ [a]
  | .copy dist len => Lz77.copy dist len out

/-- The output after a list of tokens. -/
def expandFrom (out : List α) (ops : List (Op α)) : List α :=
  ops.foldl Op.apply out

/-- A copy reads only letters that are there. -/
def Op.Sourced (out : List α) : Op α → Prop
  | .literal _ => True
  | .copy dist _ => 1 ≤ dist ∧ dist ≤ out.length

/-- Every copy of a list starts inside what the tokens before it produced. -/
def SourcedFrom (out : List α) : List (Op α) → Prop
  | [] => True
  | op :: ops => op.Sourced out ∧ SourcedFrom (op.apply out) ops

instance Op.decidableSourced (out : List α) : (op : Op α) → Decidable (op.Sourced out)
  | .literal _ => .isTrue trivial
  | .copy dist _ => inferInstanceAs (Decidable (1 ≤ dist ∧ dist ≤ out.length))

instance decidableSourcedFrom : (out : List α) → (ops : List (Op α)) →
    Decidable (SourcedFrom out ops)
  | _, [] => .isTrue trivial
  | out, op :: ops =>
      have := decidableSourcedFrom (op.apply out) ops
      inferInstanceAs (Decidable (op.Sourced out ∧ SourcedFrom (op.apply out) ops))

@[simp]
theorem expandFrom_nil (out : List α) : expandFrom out [] = out := rfl

@[simp]
theorem expandFrom_cons (out : List α) (op : Op α) (ops : List (Op α)) :
    expandFrom out (op :: ops) = expandFrom (op.apply out) ops := rfl

/-- A letter to copy exists when the copy starts inside the output. -/
theorem exists_source {dist : Nat} {out : List α} (hpos : 1 ≤ dist) (hdist : dist ≤ out.length) :
    ∃ a, out[out.length - dist]? = some a :=
  ⟨_, List.getElem?_eq_getElem (by omega)⟩

theorem length_copy {dist : Nat} (hpos : 1 ≤ dist) (len : Nat) {out : List α}
    (hdist : dist ≤ out.length) : (copy dist len out).length = out.length + len := by
  induction len generalizing out with
  | zero => rfl
  | succ len ih =>
      obtain ⟨a, ha⟩ := exists_source hpos hdist
      have hlen : (out ++ [a]).length = out.length + 1 := by simp
      rw [copy, ha, Option.toList_some, ih (by omega), hlen]
      omega

/-- Tokens only append. -/
theorem prefix_copy (dist len : Nat) (out : List α) : out <+: copy dist len out := by
  induction len generalizing out with
  | zero => exact List.prefix_refl out
  | succ len ih => exact (List.prefix_append _ _).trans (ih _)

theorem Op.prefix_apply (op : Op α) (out : List α) : out <+: op.apply out := by
  cases op with
  | literal a => exact List.prefix_append _ _
  | copy dist len => exact prefix_copy dist len out

theorem prefix_expandFrom (out : List α) (ops : List (Op α)) :
    out <+: expandFrom out ops := by
  induction ops generalizing out with
  | nil => exact List.prefix_refl out
  | cons op ops ih => exact (op.prefix_apply out).trans (ih _)

/-! ## Prefixes of an input -/

/-- The first `n` letters of an input. -/
def prefixOf (input : Nat → α) (n : Nat) : List α := (List.range n).map input

@[simp]
theorem length_prefixOf (input : Nat → α) (n : Nat) : (prefixOf input n).length = n := by
  simp [prefixOf]

theorem getElem?_prefixOf {input : Nat → α} {n i : Nat} (h : i < n) :
    (prefixOf input n)[i]? = some (input i) := by
  simp [prefixOf, h]

theorem prefixOf_succ (input : Nat → α) (n : Nat) :
    prefixOf input (n + 1) = prefixOf input n ++ [input n] := by
  simp [prefixOf, List.range_succ]

/-- A copy whose letters agree with the input extends a prefix of the input. -/
theorem copy_prefixOf {input : Nat → α} {dist : Nat} (hpos : 1 ≤ dist) (len : Nat) {p : Nat}
    (hdist : dist ≤ p) (hmatch : ∀ k < len, input (p - dist + k) = input (p + k)) :
    copy dist len (prefixOf input p) = prefixOf input (p + len) := by
  induction len generalizing p with
  | zero => rfl
  | succ len ih =>
      have hfirst : input (p - dist) = input p := by simpa using hmatch 0 (by omega)
      have hstep : copy dist (len + 1) (prefixOf input p) =
          copy dist len (prefixOf input (p + 1)) := by
        rw [copy, length_prefixOf, getElem?_prefixOf (by omega), Option.toList_some,
          prefixOf_succ, hfirst]
      rw [hstep, ih (by omega), Nat.add_right_comm, Nat.add_assoc]
      intro k hk
      have := hmatch (k + 1) (by omega)
      rwa [show p - dist + (k + 1) = p + 1 - dist + k by omega,
        show p + (k + 1) = p + 1 + k by omega] at this

end Lz77
