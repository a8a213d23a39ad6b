/-
# Numbers in decimal

What is printed as a decimal number is read back by `strtoul` and `strtol`, which take the
base from how a number begins.
-/

import Mathlib.Algebra.Group.Int.Defs
import Sylverant.Library.CString

namespace CString

theorem digitValue_of_isDigit {c : Char} (h : c.isDigit) :
    digitValue c = some (c.toNat - '0'.toNat) ∧ c.toNat - '0'.toNat < 10 := by
  obtain ⟨low, high⟩ := Char.isDigit_iff_toNat.mp h
  have digit : '0' ≤ c ∧ c ≤ '9' :=
    ⟨UInt32.le_iff_toNat_le.mpr low, UInt32.le_iff_toNat_le.mpr high⟩
  change c.toNat ≤ 57 at high
  constructor
  · rw [digitValue, if_pos digit]
  · change c.toNat - 48 < 10
    omega

/-- Digits are read as the number that they are. -/
theorem digits_eq {s : List Char} (h : ∀ c ∈ s, c.isDigit) (value : Nat) :
    digits 10 value s = Nat.ofDigitChars 10 s value := by
  induction s generalizing value with
  | nil => rw [digits, Nat.ofDigitChars_nil]
  | cons c s ih =>
      obtain ⟨known, small⟩ := digitValue_of_isDigit (h c List.mem_cons_self)
      rw [digits, known, Nat.ofDigitChars_cons, Nat.mul_comm 10 value]
      dsimp only
      rw [if_pos small, ih fun c h' => h c (List.mem_cons_of_mem _ h')]

/-- A number that is not zero does not begin with a zero. -/
theorem head_toDigits {n : Nat} (h : 0 < n) : (Nat.toDigits 10 n).head? ≠ some '0' := by
  induction n using Nat.strongRecOn with
  | ind n ih =>
  by_cases small : n < 10
  · rw [Nat.toDigits_of_lt_base small, List.head?_cons]
    intro zero
    have none := Nat.digitChar_eq_zero.mp (Option.some.inj zero)
    omega
  · have more := ih (n / 10) (by omega) (by omega)
    rw [Nat.toDigits_of_base_le (by decide) (Nat.le_of_not_lt small),
      List.head?_append_of_ne_nil _ Nat.toDigits_ne_nil]
    exact more

theorem magnitude_toDigits (n : Nat) : magnitude 0 (Nat.toDigits 10 n) = n := by
  have read : digits 10 0 (Nat.toDigits 10 n) = n := by
    rw [digits_eq fun c h => Nat.isDigit_of_mem_toDigits (by decide) (by decide) h,
      Nat.ofDigitChars_ten_toDigits]
  rcases Nat.eq_zero_or_pos n with rfl | pos
  · rfl
  · have first := head_toDigits pos
    cases written : Nat.toDigits 10 n with
    | nil => exact absurd written Nat.toDigits_ne_nil
    | cons c s =>
        rw [written] at first read
        have other : c ≠ '0' := fun h => first (by rw [h]; rfl)
        rw [magnitude]
        · exact read
        · intro x s' same
          exact absurd (List.cons.inj same).1 other

/-- What is printed begins with a digit. -/
theorem signed_toDigits (n : Nat) : signed 0 (Nat.toDigits 10 n) = (false, n) := by
  have digits : ∀ c ∈ Nat.toDigits 10 n, c.isDigit :=
    fun c h => Nat.isDigit_of_mem_toDigits (by decide) (by decide) h
  have whole := magnitude_toDigits n
  cases written : Nat.toDigits 10 n with
  | nil => exact absurd written Nat.toDigits_ne_nil
  | cons c s =>
      rw [written] at digits whole
      have first := digits c List.mem_cons_self
      have text : isSpace c = false := by
        rw [isSpace, decide_eq_false_iff_not]
        intro space
        simp only [List.mem_cons, List.not_mem_nil, or_false] at space
        rcases space with rfl | rfl | rfl | rfl | rfl | rfl <;> exact absurd first (by decide)
      have kept : (c :: s).dropWhile isSpace = c :: s :=
        List.dropWhile_cons_of_neg (by rw [text]; exact Bool.false_ne_true)
      rw [signed, kept]
      split
      · rename_i minus
        obtain rfl := (List.cons.inj minus).1
        exact absurd first (by decide)
      · rename_i plus
        obtain rfl := (List.cons.inj plus).1
        exact absurd first (by decide)
      · rw [whole]

theorem signed_minus (n : Nat) : signed 0 ('-' :: Nat.toDigits 10 n) = (true, n) := by
  have kept : ('-' :: Nat.toDigits 10 n).dropWhile isSpace = '-' :: Nat.toDigits 10 n := rfl
  rw [signed, kept]
  exact congrArg (Prod.mk true) (magnitude_toDigits n)

/-- What `%lu` prints is read back. -/
theorem strtoul_toString {n : Nat} (h : n < 2 ^ 64) : strtoul (toString n) 0 = some n := by
  rw [strtoul, Nat.toString_eq_repr, Nat.toList_repr, signed_toDigits]
  exact if_pos h

/-- What `%lld` prints is read back. -/
theorem strtol_toString {i : Int} (low : -2 ^ 63 ≤ i) (high : i < 2 ^ 63) :
    strtol (toString i) 0 = some i := by
  rw [strtol, Int.toString_eq_repr, Int.repr_eq_if]
  by_cases nonneg : 0 ≤ i
  · rw [if_pos nonneg, Nat.toList_repr, signed_toDigits]
    dsimp only
    rw [if_neg Bool.false_ne_true, if_pos (by omega)]
    exact congrArg some (Int.toNat_of_nonneg nonneg)
  · have text : ("-" ++ (-i).toNat.repr).toList = '-' :: Nat.toDigits 10 (-i).toNat := by
      rw [String.toList_append, Nat.toList_repr]
      rfl
    rw [if_neg nonneg, text, signed_minus]
    dsimp only
    rw [if_pos rfl, if_pos (by omega)]
    exact congrArg some (by omega)

end CString
