/-
# Sorted arrays

Loops over an array that is kept in order: insertion sort, in which the next element
moves down past all that are larger; a binary search for the first element that is not
below the one looked for; and the removal of an element by moving everything above it one
place down.
-/

import Mathlib.Data.List.GetD
import Mathlib.Data.List.Induction
import Mathlib.Order.Defs.LinearOrder
import Mathlib.Order.Lattice
import Mathlib.Tactic.Common

namespace SortedArray

universe u

variable {α : Type u}

private theorem set_append_cons (l : List α) (a b : α) (rest : List α) :
    (l ++ a :: rest).set l.length b = l ++ b :: rest := by
  rw [List.set_append_right _ _ (Nat.le_refl _), Nat.sub_self]
  rfl

variable [Inhabited α]

private theorem getD_append_cons (l : List α) (a : α) (rest : List α) :
    (l ++ a :: rest).getD l.length default = a := by
  rw [List.getD_append_right _ _ _ _ (Nat.le_refl _), Nat.sub_self]
  rfl

variable [LinearOrder α]

/-! ## Insertion sort -/

/-- The elements below position `i` that are larger than `x` move up by one, from the last of
them on, and `x` is put into the place that becomes free. -/
def insertDown (x : α) : Nat → List α → List α
  | 0, xs => xs.set 0 x
  | i + 1, xs =>
      if x < xs.getD i default then insertDown x i (xs.set (i + 1) (xs.getD i default))
      else xs.set (i + 1) x

/-- The rounds that are left of an insertion sort, of which the next one is for position `j`. -/
def sortFrom : Nat → Nat → List α → List α
  | 0, _, xs => xs
  | n + 1, j, xs => sortFrom n (j + 1) (insertDown (xs.getD j default) j xs)

/-- An array of no or one element is sorted. -/
def insertionSort (xs : List α) : List α := sortFrom (xs.length - 1) 1 xs

/-- What is left of the place that is filled gets the element, and stays in order. -/
theorem insertDown_append (x : α) (l : List α) (y : α) (rest : List α) :
    ∃ out, insertDown x l.length (l ++ y :: rest) = out ++ rest ∧ out.Perm (x :: l) ∧
      (l.Pairwise (· ≤ ·) → out.Pairwise (· ≤ ·)) := by
  induction l using List.reverseRecOn generalizing y rest with
  | nil => exact ⟨[x], rfl, List.Perm.refl _, fun _ => List.pairwise_singleton _ x⟩
  | append_singleton l a ih =>
      have hget : ((l ++ [a]) ++ y :: rest).getD l.length default = a := by
        rw [List.append_assoc]
        exact getD_append_cons l a (y :: rest)
      have hset (b : α) :
          ((l ++ [a]) ++ y :: rest).set (l.length + 1) b = l ++ a :: b :: rest := by
        have hlast := set_append_cons (l ++ [a]) y b rest
        rw [List.length_append, List.length_singleton] at hlast
        rw [hlast, List.append_assoc]
        rfl
      rw [List.length_append, List.length_singleton, insertDown, hget]
      split
      · -- the last one moves up, and the rest is as with one place less
        rename_i hlt
        obtain ⟨out, hout, hperm, hsorted⟩ := ih a (a :: rest)
        refine ⟨out ++ [a], ?_, ?_, ?_⟩
        · rw [hset, hout, List.append_assoc]
          rfl
        · exact hperm.append_right [a]
        · intro h
          obtain ⟨hl, -, hle⟩ := List.pairwise_append.mp h
          refine List.pairwise_append.mpr ⟨hsorted hl, List.pairwise_singleton _ a, ?_⟩
          intro b hb c hc
          rw [List.mem_singleton.mp hc]
          rcases List.mem_cons.mp (hperm.mem_iff.mp hb) with rfl | hmem
          · exact le_of_lt hlt
          · exact hle b hmem a (List.mem_singleton_self a)
      · rename_i hle
        refine ⟨l ++ [a, x], ?_, ?_, ?_⟩
        · rw [hset, List.append_assoc]
          rfl
        · have happend : l ++ [a, x] = (l ++ [a]) ++ [x] := by rw [List.append_assoc]; rfl
          rw [happend]
          exact List.perm_append_singleton x (l ++ [a])
        · intro h
          have happend : l ++ [a, x] = (l ++ [a]) ++ [x] := by rw [List.append_assoc]; rfl
          rw [happend]
          refine List.pairwise_append.mpr ⟨h, List.pairwise_singleton _ x, ?_⟩
          intro b hb c hc
          rw [List.mem_singleton.mp hc]
          have hax : a ≤ x := not_lt.mp hle
          rcases List.mem_append.mp hb with hmem | hmem
          · have hba := (List.pairwise_append.mp h).2.2 b hmem a (List.mem_singleton_self a)
            exact le_trans hba hax
          · rwa [List.mem_singleton.mp hmem]

/-- Every round keeps the elements, and has one more of them in order. -/
theorem sortFrom_spec (n j : Nat) (xs : List α) (hlen : j + n = xs.length)
    (hsorted : (xs.take j).Pairwise (· ≤ ·)) :
    (sortFrom n j xs).Perm xs ∧ (sortFrom n j xs).Pairwise (· ≤ ·) := by
  induction n generalizing j xs with
  | zero =>
      rw [show j = xs.length from hlen, List.take_length] at hsorted
      exact ⟨List.Perm.refl xs, hsorted⟩
  | succ n ih =>
      have hj : j < xs.length := by omega
      have hlength : (xs.take j).length = j := List.length_take_of_le (Nat.le_of_lt hj)
      have hsplit : xs = xs.take j ++ xs[j] :: xs.drop (j + 1) := by
        rw [List.getElem_cons_drop, List.take_append_drop]
      obtain ⟨out, hout, hperm, hkeeps⟩ :=
        insertDown_append (xs.getD j default) (xs.take j) xs[j] (xs.drop (j + 1))
      rw [← hsplit, hlength] at hout
      have hget : xs.getD j default = xs[j] := List.getD_eq_getElem _ _ hj
      have houtlen : out.length = j + 1 := by
        rw [hperm.length_eq, List.length_cons, hlength]
      have hround : (insertDown (xs.getD j default) j xs).Perm xs := by
        have hmoved := hperm.append_right (xs.drop (j + 1))
        have hback : ((xs[j] :: xs.take j) ++ xs.drop (j + 1)).Perm xs :=
          List.perm_middle.symm.trans (List.Perm.of_eq hsplit.symm)
        rw [hget] at hmoved
        rw [hout]
        exact hmoved.trans hback
      have hnext := ih (j + 1) (insertDown (xs.getD j default) j xs)
        (by rw [hround.length_eq]; omega)
        (by rw [hout, ← houtlen, List.take_left]; exact hkeeps hsorted)
      exact ⟨hnext.1.trans hround, hnext.2⟩

theorem insertionSort_spec (xs : List α) : (insertionSort xs).Perm xs ∧
    (insertionSort xs).Pairwise (· ≤ ·) := by
  cases xs with
  | nil => exact ⟨List.Perm.refl [], List.Pairwise.nil⟩
  | cons x xs =>
      refine sortFrom_spec xs.length 1 (x :: xs) (Nat.add_comm 1 _) ?_
      exact List.pairwise_singleton _ x

/-! ## Binary search -/

/-- The search between the positions `i` and `j`, with at most as many rounds as are given. -/
def search (xs : List α) (x : α) : Nat → Nat → Nat → Nat
  | 0, i, _ => i
  | rounds + 1, i, j =>
      if i < j then
        let k := i + (j - i) / 2
        if xs.getD k default < x then search xs x rounds (k + 1) j else search xs x rounds i k
      else i

/-- The first position of an element that is not below `x`. -/
def lowerBound (xs : List α) (x : α) : Nat := search xs x xs.length 0 xs.length

/-- The search in an array in order ends where the elements below `x` end. -/
theorem search_spec {xs : List α} (h : xs.Pairwise (· < ·)) (x : α) (rounds i j : Nat)
    (hrounds : j ≤ i + rounds) (hij : i ≤ j) (hj : j ≤ xs.length)
    (hlow : ∀ k, k < i → xs.getD k default < x)
    (hhigh : ∀ k, j ≤ k → k < xs.length → x ≤ xs.getD k default) :
    (∀ k, k < search xs x rounds i j → xs.getD k default < x) ∧
      ∀ k, search xs x rounds i j ≤ k → k < xs.length → x ≤ xs.getD k default := by
  have hmono (k l : Nat) (hkl : k < l) (hl : l < xs.length) :
      xs.getD k default < xs.getD l default := by
    rw [List.getD_eq_getElem _ _ hl, List.getD_eq_getElem _ _ (Nat.lt_trans hkl hl)]
    exact List.pairwise_iff_getElem.mp h k l _ hl hkl
  induction rounds generalizing i j with
  | zero =>
      obtain rfl : i = j := Nat.le_antisymm hij hrounds
      exact ⟨hlow, hhigh⟩
  | succ rounds ih =>
      rw [search]
      split
      · rename_i hlt
        dsimp only
        have hk : i ≤ i + (j - i) / 2 ∧ i + (j - i) / 2 < j := by omega
        split
        · rename_i hbelow
          refine ih (i + (j - i) / 2 + 1) j (by omega) (by omega) hj ?_ hhigh
          intro l hl
          rcases Nat.lt_succ_iff_lt_or_eq.mp hl with hl | rfl
          · exact lt_trans (hmono l _ hl (by omega)) hbelow
          · exact hbelow
        · rename_i habove
          refine ih i (i + (j - i) / 2) (by omega) hk.1 (by omega) hlow ?_
          intro l hle hl
          have hmid : x ≤ xs.getD (i + (j - i) / 2) default := not_lt.mp habove
          rcases Nat.lt_or_eq_of_le hle with hlt' | rfl
          · exact le_trans hmid (le_of_lt (hmono _ l hlt' hl))
          · exact hmid
      · obtain rfl : i = j := by omega
        exact ⟨hlow, hhigh⟩

/-- The element at the lower bound is the one looked for exactly when it is in the array. -/
theorem lowerBound_spec {xs : List α} (h : xs.Pairwise (· < ·)) (x : α) :
    (lowerBound xs x < xs.length ∧ xs.getD (lowerBound xs x) default = x) ↔ x ∈ xs := by
  obtain ⟨hlow, hhigh⟩ := search_spec h x xs.length 0 xs.length (by omega) (Nat.zero_le _)
    (Nat.le_refl _) (fun k hk => absurd hk (Nat.not_lt_zero k))
    (fun k hle hlt => absurd hlt (Nat.not_lt.mpr hle))
  constructor
  · rintro ⟨hlt, heq⟩
    rw [List.getD_eq_getElem _ _ hlt] at heq
    rw [← heq]
    exact List.getElem_mem hlt
  · intro hmem
    obtain ⟨k, hk, heq⟩ := List.getElem_of_mem hmem
    have hget : xs.getD k default = x := (List.getD_eq_getElem _ _ hk).trans heq
    have hle : lowerBound xs x ≤ k := by
      refine Nat.not_lt.mp fun hlt => ?_
      exact absurd hget (ne_of_lt (hlow k hlt))
    have hlt : lowerBound xs x < xs.length := Nat.lt_of_le_of_lt hle hk
    refine ⟨hlt, ?_⟩
    have hbound : x ≤ xs.getD (lowerBound xs x) default := hhigh _ (Nat.le_refl _) hlt
    rcases Nat.lt_or_eq_of_le hle with hbelow | rfl
    · -- what stands before `x` is below it
      have hless : xs.getD (lowerBound xs x) default < x := by
        rw [List.getD_eq_getElem _ _ hlt]
        exact lt_of_lt_of_eq (List.pairwise_iff_getElem.mp h _ k hlt hk hbelow) heq
      exact absurd hbound (not_le.mpr hless)
    · exact hget

/-! ## Removal -/

/-- The rounds that are left of the loop that moves what is not below `x` down, of which the
next one is for position `k`. -/
def shiftFrom (x : α) : Nat → Nat → List α → List α
  | 0, _, xs => xs
  | n + 1, k, xs =>
      shiftFrom x n (k + 1)
        (if x ≤ xs.getD k default then xs.set k (xs.getD (k + 1) default) else xs)

/-- Move everything from `x` on one place down, and take off the last element. -/
def shiftOut (x : α) (xs : List α) : List α :=
  (shiftFrom x (xs.length - 1) 0 xs).take (xs.length - 1)

@[simp]
theorem length_shiftFrom (x : α) (n k : Nat) (xs : List α) :
    (shiftFrom x n k xs).length = xs.length := by
  induction n generalizing k xs with
  | zero => rfl
  | succ n ih =>
      rw [shiftFrom, ih]
      split
      · exact List.length_set
      · rfl

/-- What is below `x` stays. -/
theorem shiftFrom_below {x : α} (m : List α) (l rest : List α) (n : Nat) (h : ∀ a ∈ m, a < x) :
    shiftFrom x (m.length + n) l.length (l ++ (m ++ rest)) =
      shiftFrom x n (l ++ m).length ((l ++ m) ++ rest) := by
  induction m generalizing l with
  | nil =>
      rw [List.length_nil, Nat.zero_add, List.append_nil, List.nil_append]
  | cons a m ih =>
      have hlt : a < x := h a List.mem_cons_self
      rw [List.length_cons, Nat.add_right_comm, shiftFrom, List.cons_append, getD_append_cons,
        if_neg (not_le.mpr hlt)]
      have hnext := ih (l ++ [a]) fun b hb => h b (List.mem_cons_of_mem a hb)
      rw [List.length_append, List.length_singleton, List.append_assoc l [a],
        List.append_assoc l [a]] at hnext
      exact hnext

/-- What is not below `x` moves down by one, over the first of it. -/
theorem shiftFrom_above {x : α} (r : List α) (l : List α) (a : α) (h : ∀ b ∈ a :: r, x ≤ b) :
    (shiftFrom x r.length l.length (l ++ a :: r)).take (l.length + r.length) = l ++ r := by
  induction r generalizing l a with
  | nil =>
      rw [List.length_nil, Nat.add_zero, List.append_nil]
      exact List.take_left
  | cons b r ih =>
      have hle : x ≤ a := h a List.mem_cons_self
      have hget : (l ++ a :: b :: r).getD (l.length + 1) default = b := by
        have hlast := getD_append_cons (l ++ [a]) b r
        rwa [List.length_append, List.length_singleton, List.append_assoc] at hlast
      rw [List.length_cons, shiftFrom, getD_append_cons, if_pos hle, hget, set_append_cons]
      have hnext := ih (l ++ [b]) b fun c hc => by
        rcases List.mem_cons.mp hc with rfl | hc
        · exact h _ (List.mem_cons_of_mem a List.mem_cons_self)
        · exact h c (List.mem_cons_of_mem a (List.mem_cons_of_mem b hc))
      rw [List.length_append, List.length_singleton, List.append_assoc, List.append_assoc,
        Nat.add_right_comm] at hnext
      exact hnext

/-- An element of an array in order is taken out. -/
theorem shiftOut_append {x : α} {l r : List α} (h : (l ++ x :: r).Pairwise (· < ·)) :
    shiftOut x (l ++ x :: r) = l ++ r := by
  obtain ⟨-, hright, hcross⟩ := List.pairwise_append.mp h
  have hlength : (l ++ x :: r).length - 1 = l.length + r.length := by
    rw [List.length_append, List.length_cons]
    rfl
  have hbelow : ∀ a ∈ l, a < x := fun a ha => hcross a ha x List.mem_cons_self
  have habove : ∀ b ∈ x :: r, x ≤ b := by
    intro b hb
    rcases List.mem_cons.mp hb with rfl | hb
    · exact le_refl b
    · exact le_of_lt (List.rel_of_pairwise_cons hright hb)
  rw [shiftOut, hlength]
  have hstart := shiftFrom_below l [] (x :: r) r.length hbelow
  rw [List.nil_append, List.nil_append] at hstart
  exact (congrArg _ hstart).trans (shiftFrom_above r l x habove)

end SortedArray
