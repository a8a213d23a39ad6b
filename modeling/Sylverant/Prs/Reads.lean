/-
# What the encoder reads and finds

The hash of a string reads the byte behind it. The string of the last byte is hashed when a copy
ends with the input, and when a match is found in front of it, as the search for a better one
begins at the next position. `readsInside_iff` says that nothing else is read outside the input.
The searches are right, as long as the lengths of matches fit in an `int`.
-/

import Sylverant.Prs.Account

namespace Sylverant.Prs

open HashChain (below)
open Observed (Event Account Settled AtTokens PassInside PassSearches)

variable {junk : Nat → UInt8} {base : Nat} {src : Nat → UInt8} {n : Nat} {log : List Event}

/-- The record of a run of the encoder that succeeds, with the result of the encoder. -/
def Recorded (junk : Nat → UInt8) (base : Nat) (src : Nat → UInt8) (n : Nat)
    (log : List Event) : Prop :=
  ∃ r, prsCompress junk base src n = .ok r ∧ Observed.prsCompress junk base src n [] = .ok r log

/-- The encoder succeeds, and all the bytes that it reads are inside the input. -/
def ReadsInside (junk : Nat → UInt8) (base : Nat) (src : Nat → UInt8) (n : Nat) : Prop :=
  ∃ log, Recorded junk base src n log ∧ ∀ i, .read i ∈ log → i < n

/-- The encoder succeeds, and all its searches are right. -/
def SearchesRight (junk : Nat → UInt8) (base : Nat) (src : Nat → UInt8) (n : Nat) : Prop :=
  ∃ log, Recorded junk base src n log ∧
    ∀ p visited len pos before, .search p visited len pos :: before <:+ log →
      SearchRight src n (fun q => .insert q ∈ before) p visited len pos

theorem Recorded.unique {log' : List Event} (h : Recorded junk base src n log)
    (h' : Recorded junk base src n log') : log = log' := by
  obtain ⟨r, -, hrun⟩ := h
  obtain ⟨r', -, hrun'⟩ := h'
  cases hrun.symm.trans hrun'
  rfl

/-- Every input has a record, and it is known what is in it. -/
theorem exists_recorded (S : Nat → Prop) (junk : Nat → UInt8) (base : Nat) (src : Nat → UInt8)
    (hn : 1 ≤ n) :
    ∃ log count, Recorded junk base src n log ∧
      Account S src n (AtTokens (PassInside src n) src n)
        (AtTokens (PassSearches S src n) src n) 0 count log := by
  obtain ⟨r, count, hcompress, events, haccount, hrun⟩ :=
    Observed.prsCompress_tells S junk base src hn
  have hlog := hrun []
  rw [List.append_nil] at hlog
  exact ⟨events, count, ⟨r, hcompress, hlog⟩, haccount⟩

/-! ## Reads -/

theorem ReadsInside.atTokens (hn : 1 ≤ n) (h : ReadsInside junk base src n) :
    AtTokens (PassInside src n) src n := by
  obtain ⟨log, hrecorded, hreads⟩ := h
  obtain ⟨log', count, hrecorded', haccount⟩ := exists_recorded (fun _ => True) junk base src hn
  rw [hrecorded.unique hrecorded'] at hreads
  exact haccount.reads.mp hreads

/-- The reads are inside the input if and only if no copy of the parse ends with the input, and
no match is found in front of the last byte. -/
theorem readsInside_iff (junk : Nat → UInt8) (base : Nat) (src : Nat → UInt8) (hn : 1 ≤ n) :
    ReadsInside junk base src n ↔
      ∀ p, Reaches src n p → p + 1 < n →
        p + (tokenAt src n p).size < n ∧ (p + 2 = n → (bestMatch src n p).1 = 0) := by
  refine ⟨fun h => h.atTokens hn, fun h => ?_⟩
  obtain ⟨log, count, hrecorded, haccount⟩ := exists_recorded (fun _ => True) junk base src hn
  exact ⟨log, hrecorded, haccount.reads.mpr h⟩

theorem readsInside_iff_four :
    1 ≤ 4 ∧ (ReadsInside (fun _ => 0) 0 (fun i => UInt8.ofNat i) 4 ↔
      ∀ p, Reaches (fun i => UInt8.ofNat i) 4 p → p + 1 < 4 →
        p + (tokenAt (fun i => UInt8.ofNat i) 4 p).size < 4 ∧
          (p + 2 = 4 → (bestMatch (fun i => UInt8.ofNat i) 4 p).1 = 0)) :=
  ⟨by decide, readsInside_iff (fun _ => 0) 0 (fun i => UInt8.ofNat i) (by decide)⟩

/-- Four equal bytes: the last two are a copy, and the hash of the last one is computed. -/
theorem not_readsInside_four : ¬ ReadsInside (fun _ => 0) 0 (fun _ => 65) 4 := by
  intro h
  have hinside := h.atTokens (by decide) 2 .start (by decide)
  exact absurd (hinside.2 rfl) (by decide)

/-! ## Searches -/

/-- A search of a run is right if and only if the lengths that it compares fit. -/
theorem Recorded.searchRight_iff (hn : 1 ≤ n) (h : Recorded junk base src n log) {p : Nat}
    {visited : List Nat} {len pos : Int} {before : List Event}
    (hsuffix : .search p visited len pos :: before <:+ log) :
    SearchRight src n (fun q => .insert q ∈ before) p visited len pos ↔ Fits src n p := by
  obtain ⟨log', count, hrecorded, haccount⟩ := exists_recorded (fun _ => True) junk base src hn
  have hempty : Settled src n 0 [] :=
    ⟨fun q => iff_of_false List.not_mem_nil (Nat.not_lt_zero q), fun p visited len pos before hs =>
      absurd (List.suffix_nil.mp hs) (List.cons_ne_nil _ _)⟩
  have hsettled := haccount.settles [] hempty
  rw [List.append_nil, ← h.unique hrecorded] at hsettled
  exact hsettled.searches p visited len pos before hsuffix

theorem SearchesRight.atTokens (hn : 1 ≤ n) (h : SearchesRight junk base src n) :
    AtTokens (PassSearches (Fits src n) src n) src n := by
  obtain ⟨log, hrecorded, hright⟩ := h
  obtain ⟨log', count, hrecorded', haccount⟩ := exists_recorded (Fits src n) junk base src hn
  obtain rfl := hrecorded.unique hrecorded'
  refine haccount.searched.mp fun p visited len pos hmem => ?_
  obtain ⟨newer, before, rfl⟩ := List.append_of_mem hmem
  have hsuffix := List.suffix_append newer (.search p visited len pos :: before)
  exact (hrecorded.searchRight_iff hn hsuffix).mp (hright p visited len pos before hsuffix)

theorem searchesRight_of_atTokens (junk : Nat → UInt8) (base : Nat) (hn : 1 ≤ n)
    (h : AtTokens (PassSearches (Fits src n) src n) src n) : SearchesRight junk base src n := by
  obtain ⟨log, count, hrecorded, haccount⟩ := exists_recorded (Fits src n) junk base src hn
  refine ⟨log, hrecorded, fun p visited len pos before hsuffix => ?_⟩
  refine (hrecorded.searchRight_iff hn hsuffix).mpr ?_
  exact haccount.searched.mpr h p visited len pos (hsuffix.subset List.mem_cons_self)

/-- The searches are right if and only if the lengths fit that are compared in front of each
token, and at the next position where a match was found. -/
theorem searchesRight_iff (junk : Nat → UInt8) (base : Nat) (src : Nat → UInt8) (hn : 1 ≤ n) :
    SearchesRight junk base src n ↔
      ∀ p, Reaches src n p → p + 1 < n →
        Fits src n p ∧ ((bestMatch src n p).1 ≠ 0 → Fits src n (p + 1)) :=
  ⟨fun h => h.atTokens hn, searchesRight_of_atTokens junk base hn⟩

theorem searchesRight_iff_four :
    1 ≤ 4 ∧ (SearchesRight (fun _ => 0) 0 (fun _ => 65) 4 ↔
      ∀ p, Reaches (fun _ => 65) 4 p → p + 1 < 4 →
        Fits (fun _ => 65) 4 p ∧
          ((bestMatch (fun _ => 65) 4 p).1 ≠ 0 → Fits (fun _ => 65) 4 (p + 1))) :=
  ⟨by decide, searchesRight_iff (fun _ => 0) 0 (fun _ => 65) (by decide)⟩

/-- Of so many zeros a match has `2 ^ 31` bytes, and is not found. -/
theorem not_searchesRight_zeros :
    ¬ SearchesRight (fun _ => 0) 0 (fun _ => 0) (2 ^ 31 + 2) := by
  intro h
  have hfits := (h.atTokens (by omega) 2 .start (by omega)).1
  have hcount : ∀ q, matchLoop (fun _ => 0) 2 q (2 ^ 31 + 2 - 2) = 2 ^ 31 := fun q =>
    matchLoop_eq (Nat.le_refl _) (fun _ _ => rfl) fun hlt => absurd hlt (Nat.lt_irrefl _)
  obtain hsmall | ⟨q, -, hbig⟩ := hfits
  · have hmem : 1 ∈ below (sameHash (fun _ => 0) 2) 2 :=
      HashChain.mem_below.mpr ⟨by decide, HashChain.live_iff.mpr ⟨rfl, by decide⟩⟩
    have hlt := hsmall 1 hmem
    rw [hcount] at hlt
    exact Nat.lt_irrefl _ hlt
  · rw [hcount] at hbig
    have hneg := CInt.ofInt_neg (n := ((2 ^ 31 : Nat) : Int)) (by decide) (by decide)
    omega

end Sylverant.Prs
