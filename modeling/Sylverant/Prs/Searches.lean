/-
# What a search finds

A search is right when it visits the positions that were added before, are in the window and
have the hash of the position that is searched for, the newest first, and finds the longest
match among them, or one of at least 256 bytes. The best match is this, unless the length of a
match does not fit in an `int`. Such a match is taken for a shorter one or for none, which does
not matter where another one has at least 256 bytes.
-/

import Sylverant.Prs.Parse

namespace Sylverant.Prs

open HashChain (below)

/-- The `k` bytes at `q` are the `k` bytes at `p`, which are inside the input. -/
def Agrees (src : Nat → UInt8) (n p q k : Nat) : Prop :=
  p + k ≤ n ∧ ∀ i < k, src (q + i) = src (p + i)

/-- What a search at `p` should visit and find when these positions were added before. -/
structure SearchRight (src : Nat → UInt8) (n : Nat) (added : Nat → Prop) (p : Nat)
    (visited : List Nat) (len pos : Int) : Prop where
  visits : ∀ q, q ∈ visited ↔
    added q ∧ q < p ∧ hashStr src q = hashStr src p ∧ p - q ≤ maxWindow
  newest_first : visited.Pairwise (· > ·)
  sound : 0 < len → -8192 ≤ pos ∧ pos ≤ -1 ∧
    ∃ q ∈ visited, (q : Int) = p + pos ∧ Agrees src n p q len.toNat
  longest : len < 256 → 0 ≤ len ∧ ∀ q ∈ visited, ∀ k, Agrees src n p q k → (k : Int) ≤ len

/-- The lengths of the matches that a search at `p` compares fit in an `int`, or one of them has
at least 256 bytes as an `int`. -/
def Fits (src : Nat → UInt8) (n p : Nat) : Prop :=
  (∀ q ∈ below (sameHash src p) p, matchLoop src p q (n - p) < 2 ^ 31) ∨
    ∃ q ∈ below (sameHash src p) p, 256 ≤ CInt.ofInt (matchLoop src p q (n - p))

section Longest

variable {src : Nat → UInt8} {n p : Nat}

/-- The match loop counts all the bytes that agree. -/
theorem le_matchLoop {s1 s2 left k : Nat} (hle : k ≤ left)
    (hagree : ∀ i < k, src (s2 + i) = src (s1 + i)) : k ≤ matchLoop src s1 s2 left := by
  induction left generalizing s1 s2 k with
  | zero => omega
  | succ left ih =>
      cases k with
      | zero => exact Nat.zero_le _
      | succ k =>
          have hfirst : src s1 = src s2 := (hagree 0 (Nat.succ_pos k)).symm
          rw [matchLoop, if_pos hfirst]
          refine Nat.succ_le_succ (ih (by omega) fun i hi => ?_)
          have hnext := hagree (i + 1) (by omega)
          rwa [Nat.add_comm i 1, ← Nat.add_assoc, ← Nat.add_assoc] at hnext

theorem agrees_iff (hp : p ≤ n) {q k : Nat} :
    Agrees src n p q k ↔ k ≤ matchLoop src p q (n - p) := by
  constructor
  · rintro ⟨hend, hagree⟩
    exact le_matchLoop (by omega) hagree
  · intro hk
    have hle := matchLoop_le src p q (n - p)
    exact ⟨by omega, fun i hi => (matchLoop_agree src p q (n - p) i (by omega)).symm⟩

/-- What is found is one of the matches that were considered. -/
theorem foldl_considerMatch_mem (qs : List Nat) (acc : Int × Option Nat) :
    qs.foldl (considerMatch src n p) acc = acc ∨
      ∃ q ∈ qs, qs.foldl (considerMatch src n p) acc =
        (CInt.ofInt (matchLoop src p q (n - p)), some q) := by
  induction qs generalizing acc with
  | nil => exact .inl rfl
  | cons q qs ih =>
      rw [List.foldl_cons]
      obtain hsame | ⟨r, hr, hfound⟩ := ih (considerMatch src n p acc q)
      · rw [hsame, considerMatch, keepLongest]
        split_ifs
        · exact .inr ⟨q, List.mem_cons_self, rfl⟩
        · exact .inl rfl
      · exact .inr ⟨r, List.mem_cons_of_mem q hr, hfound⟩

/-- What is found is as long as what was there and as all the matches that were considered, or
has at least 256 bytes. -/
theorem foldl_considerMatch_ge (qs : List Nat) (acc : Int × Option Nat) (hacc : 0 ≤ acc.1) :
    (acc.1 ≤ (qs.foldl (considerMatch src n p) acc).1 ∨
        256 ≤ (qs.foldl (considerMatch src n p) acc).1) ∧
      ∀ q ∈ qs, CInt.ofInt (matchLoop src p q (n - p)) ≤
          (qs.foldl (considerMatch src n p) acc).1 ∨
        256 ≤ (qs.foldl (considerMatch src n p) acc).1 := by
  induction qs generalizing acc with
  | nil => exact ⟨.inl (Int.le_refl _), fun q hq => (nomatch hq)⟩
  | cons q qs ih =>
      have hstep : (acc.1 ≤ (considerMatch src n p acc q).1 ∨
            256 ≤ (considerMatch src n p acc q).1) ∧
          (CInt.ofInt (matchLoop src p q (n - p)) ≤ (considerMatch src n p acc q).1) := by
        rw [considerMatch, keepLongest]
        split_ifs with hkeep
        · exact ⟨hkeep.2.imp Int.le_of_lt id, Int.le_refl _⟩
        · exact ⟨.inl (Int.le_refl _), by omega⟩
      rw [List.foldl_cons]
      have hnext : 0 ≤ (considerMatch src n p acc q).1 := by omega
      obtain ⟨hkept, hall⟩ := ih _ hnext
      refine ⟨by omega, fun r hr => ?_⟩
      obtain rfl | hr := List.mem_cons.mp hr
      · omega
      · exact hall r hr

/-- The best match is at one of the positions that are visited. -/
theorem bestMatch_mem (src : Nat → UInt8) (n p : Nat) :
    bestMatch src n p = (0, none) ∨
      ∃ q ∈ below (sameHash src p) p,
        bestMatch src n p = (CInt.ofInt (matchLoop src p q (n - p)), some q) ∧
          Occurs src n p (CInt.ofInt (matchLoop src p q (n - p))) q := by
  refine (foldl_considerMatch_mem _ (0, none)).imp_right ?_
  rintro ⟨q, hq, hbest⟩
  refine ⟨q, hq, hbest, ?_⟩
  obtain hnone | ⟨len, r, hbest', hoccurs⟩ := bestMatch_cases src n p
  · exact absurd (congrArg Prod.snd (hbest.symm.trans hnone)) (Option.some_ne_none q)
  · obtain ⟨hlen, hr⟩ := Prod.mk.inj (hbest'.symm.trans hbest)
    rwa [← hlen, ← Option.some.inj hr]

theorem bestMatch_ge {q : Nat} (hq : q ∈ below (sameHash src p) p) :
    CInt.ofInt (matchLoop src p q (n - p)) ≤ (bestMatch src n p).1 ∨
      256 ≤ (bestMatch src n p).1 :=
  (foldl_considerMatch_ge _ (0, none) (Int.le_refl 0)).2 q hq

end Longest

/-- A search that visits the positions of the window with its hash and finds the best match is
right if and only if the lengths fit. -/
theorem searchRight_iff {src : Nat → UInt8} {n p : Nat} (hp : p ≤ n) {added : Nat → Prop}
    (hadded : ∀ q, added q ↔ q < p) :
    SearchRight src n added p (below (sameHash src p) p) (bestMatch src n p).1
      (bestOffset src n p) ↔ Fits src n p := by
  constructor
  · intro h
    by_contra hfits
    obtain ⟨hlong, hshort⟩ := not_or.mp hfits
    obtain ⟨q, hq, hlen⟩ : ∃ q ∈ below (sameHash src p) p,
        2 ^ 31 ≤ matchLoop src p q (n - p) := by
      by_contra hnone
      exact hlong fun q hq => Nat.lt_of_not_le fun hle => hnone ⟨q, hq, hle⟩
    have hsmall : (bestMatch src n p).1 < 256 := by
      obtain hbest | ⟨r, hr, hbest, -⟩ := bestMatch_mem src n p
      · rw [hbest]
        decide
      · rw [hbest]
        exact Int.not_le.mp fun hle => hshort ⟨r, hr, hle⟩
    have hmax := (h.longest hsmall).2 q hq _ ((agrees_iff hp).mpr (Nat.le_refl _))
    omega
  · intro hfits
    refine ⟨fun q => ?_, HashChain.below_pairwise _ _, fun hpos => ?_, fun hsmall => ?_⟩
    · rw [HashChain.mem_below, sameHash, HashChain.live_iff, hadded]
      constructor
      · rintro ⟨hlt, hhash, hnear⟩
        exact ⟨hlt, hlt, hhash, by omega⟩
      · rintro ⟨hlt, -, hhash, hnear⟩
        exact ⟨hlt, hhash, by omega⟩
    · obtain hbest | ⟨q, hq, hbest, hoccurs⟩ := bestMatch_mem src n p
      · rw [hbest] at hpos
        exact absurd hpos (Int.lt_irrefl 0)
      · have hlt := hoccurs.lt
        have hnear := hoccurs.near
        have hle := hoccurs.le
        simp only [maxWindow] at hnear
        rw [bestOffset_eq hbest hoccurs, hbest]
        exact ⟨by omega, by omega, q, hq, by omega, by simp only; omega, hoccurs.agree⟩
    · have hfit : ∀ q ∈ below (sameHash src p) p, matchLoop src p q (n - p) < 2 ^ 31 := by
        refine hfits.resolve_right fun hlarge => ?_
        obtain ⟨q, hq, hbig⟩ := hlarge
        have hge := bestMatch_ge (n := n) hq
        omega
      refine ⟨?_, fun q hq k hagrees => ?_⟩
      · obtain hbest | ⟨q, hq, hbest, hoccurs⟩ := bestMatch_mem src n p
        · exact Int.le_of_eq (congrArg Prod.fst hbest).symm
        · rw [hbest]
          exact Int.le_of_lt hoccurs.pos
      · have hk := (agrees_iff hp).mp hagrees
        have hge := bestMatch_ge (n := n) hq
        rw [CInt.ofInt_natCast (hfit q hq)] at hge
        omega

end Sylverant.Prs
