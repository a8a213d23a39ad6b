/-
# The parse of an input

The encoder reads its input as a list of tokens that depends on the input alone:
at each position it takes the best match, unless the best match one position
later is longer by enough. `parse` is that list, defined by what the searches
find and not by how they find it. Its tokens cover the input from one end to the
other, and they are valid with one exception, a copy from exactly one window back
that is too long to have its length in its field.
-/

import Mathlib.Algebra.GroupWithZero.Nat
import Sylverant.Prs.Grammar
import Sylverant.Prs.Search

namespace Sylverant.Prs

open HashChain (below)
open Lz77 (prefixOf)
open FlagStream

/-- The token for a match, or a literal if the match has no shape. -/
def matchToken (src : Nat → UInt8) (p : Nat) (mlen offset : Int) : Token :=
  if mlen ≥ 2 ∧ mlen ≤ 5 ∧ offset ≥ -256 then .short mlen.toNat (-offset).toNat
  else if mlen ≥ 3 ∧ mlen ≤ 9 then .long mlen.toNat (-offset).toNat
  else if mlen > 9 then .sized (if mlen > 256 then 256 else mlen.toNat) (-offset).toNat
  else .literal (src p)

/-- Whether the match at `p` gives way to the one at the next position. -/
def givesWay (src : Nat → UInt8) (n p : Nat) : Bool :=
  (bestMatch src n (p + 1)).1 > (bestMatch src n p).1 &&
    !keepsShort (bestMatch src n p).1 (bestOffset src n p) (bestMatch src n (p + 1)).1
      (bestOffset src n (p + 1))

/-- The token that begins at `p`. -/
def tokenAt (src : Nat → UInt8) (n p : Nat) : Token :=
  if (bestMatch src n p).1 ≠ 0 ∧ ¬ givesWay src n p then
    matchToken src p (bestMatch src n p).1 (bestOffset src n p)
  else .literal (src p)

/-- The tokens from position `p` on. The last byte is never searched for. -/
def parseFrom (src : Nat → UInt8) (n : Nat) : Nat → Nat → List Token
  | 0, _ => []
  | fuel + 1, p =>
      if p < n - 1 then tokenAt src n p :: parseFrom src n fuel (p + (tokenAt src n p).size)
      else if p < n then [.literal (src p)]
      else []

/-- Every byte as a literal. -/
def literals (src : Nat → UInt8) (n : Nat) : List Token := (prefixOf src n).map Token.literal

/-- The tokens of an input of `n` bytes. -/
def parse (src : Nat → UInt8) (n : Nat) : List Token :=
  if n ≤ 3 then literals src n
  else .literal (src 0) :: .literal (src 1) :: parseFrom src n n 2

/-! ## Matches -/

theorem matchLoop_le (src : Nat → UInt8) (s1 s2 left : Nat) :
    matchLoop src s1 s2 left ≤ left := by
  induction left generalizing s1 s2 with
  | zero => exact Nat.le_refl 0
  | succ left ih =>
      have := ih (s1 + 1) (s2 + 1)
      rw [matchLoop]
      split <;> omega

/-- The bytes counted by the match loop agree. -/
theorem matchLoop_agree (src : Nat → UInt8) (s1 s2 left : Nat) :
    ∀ k < matchLoop src s1 s2 left, src (s1 + k) = src (s2 + k) := by
  induction left generalizing s1 s2 with
  | zero => exact fun k hk => absurd hk (Nat.not_lt_zero k)
  | succ left ih =>
      intro k hk
      rw [matchLoop] at hk
      split at hk
      · rename_i hfirst
        cases k with
        | zero => exact hfirst
        | succ k =>
            have := ih (s1 + 1) (s2 + 1) k (by omega)
            rwa [Nat.add_right_comm, Nat.add_right_comm s2] at this
      · exact absurd hk (Nat.not_lt_zero k)

variable {src : Nat → UInt8} {n p : Nat}

/-- An earlier occurrence, in the window, of `len` bytes at `p`. -/
structure Occurs (src : Nat → UInt8) (n p : Nat) (len : Int) (q : Nat) : Prop where
  lt : q < p
  near : p ≤ q + maxWindow
  pos : 0 < len
  count : len = CInt.ofInt (matchLoop src p q (n - p))
  le : len.toNat ≤ n - p
  agree : ∀ k < len.toNat, src (q + k) = src (p + k)

/-- The best match is an earlier occurrence, if there is one. -/
theorem bestMatch_cases (src : Nat → UInt8) (n p : Nat) :
    bestMatch src n p = (0, none) ∨
      ∃ len q, bestMatch src n p = (len, some q) ∧ Occurs src n p len q := by
  suffices h : ∀ (qs : List Nat) (acc : Int × Option Nat),
      (∀ q ∈ qs, q < p ∧ p ≤ q + maxWindow) →
      (acc = (0, none) ∨ ∃ len q, acc = (len, some q) ∧ Occurs src n p len q) →
      qs.foldl (considerMatch src n p) acc = (0, none) ∨
        ∃ len q, qs.foldl (considerMatch src n p) acc = (len, some q) ∧ Occurs src n p len q by
    refine h _ (0, none) (fun q hq => ?_) (.inl rfl)
    obtain ⟨hlt, hlive⟩ := HashChain.mem_below.mp hq
    exact ⟨hlt, (HashChain.live_iff.mp hlive).2⟩
  intro qs
  induction qs with
  | nil => exact fun acc _ hacc => hacc
  | cons q qs ih =>
      intro acc hqs hacc
      refine ih _ (fun r hr => hqs r (List.mem_cons_of_mem q hr)) ?_
      rw [considerMatch, keepLongest]
      split
      · -- the match at `q` is kept: it is longer than what was there, so not empty
        rename_i hkept
        obtain ⟨hlt, hnear⟩ := hqs q (List.mem_cons_self ..)
        have hcount := CInt.ofInt_le (n := (matchLoop src p q (n - p) : Int)) (by omega)
        have hle := matchLoop_le src p q (n - p)
        refine .inr ⟨_, q, rfl, hlt, hnear, ?_, rfl, by omega, fun k hk => ?_⟩
        · rcases hacc with rfl | ⟨len, r, rfl, hoccurs⟩
          · rcases hkept.2 with hlonger | hbig <;> simp only at * <;> omega
          · have := hoccurs.pos
            rcases hkept.2 with hlonger | hbig <;> simp only at * <;> omega
        · exact (matchLoop_agree src p q (n - p) k (by omega)).symm
      · exact hacc

/-- A search that has something to find finds a match. -/
theorem bestMatch_pos (src : Nat → UInt8) {q : Nat} (hlt : q < p) (hsame : sameHash src p q)
    (hlong : 0 < CInt.ofInt (matchLoop src p q (n - p))) : 0 < (bestMatch src n p).1 := by
  have hstep : ∀ (acc : Int × Option Nat) (r : Nat), 0 < acc.1 →
      0 < (considerMatch src n p acc r).1 := by
    intro acc r hacc
    rw [considerMatch, keepLongest]
    split
    · rename_i hkept
      rcases hkept.2 with hlonger | hbig <;> simp only <;> omega
    · exact hacc
  have hkeep : ∀ (qs : List Nat) (acc : Int × Option Nat), 0 < acc.1 →
      0 < (qs.foldl (considerMatch src n p) acc).1 := by
    intro qs
    induction qs with
    | nil => exact fun acc hacc => hacc
    | cons r qs ih => exact fun acc hacc => ih _ (hstep acc r hacc)
  obtain ⟨newer, older, hsplit⟩ := List.append_of_mem (HashChain.mem_below.mpr ⟨hlt, hsame⟩)
  rw [bestMatch, hsplit, List.foldl_append, List.foldl_cons]
  refine hkeep older _ ?_
  generalize newer.foldl (considerMatch src n p) (0, none) = acc
  by_cases hacc : 0 < acc.1
  · exact hstep acc q hacc
  · rw [considerMatch, keepLongest, if_pos ⟨by omega, .inl (by omega)⟩]
    exact hlong

/-- The match loop counts up to the first byte that differs. -/
theorem matchLoop_eq {s1 s2 left k : Nat} (hle : k ≤ left)
    (hagree : ∀ i < k, src (s1 + i) = src (s2 + i))
    (hstop : k < left → src (s1 + k) ≠ src (s2 + k)) : matchLoop src s1 s2 left = k := by
  induction left generalizing s1 s2 k with
  | zero => exact (Nat.le_zero.mp hle).symm
  | succ left ih =>
      rw [matchLoop]
      cases k with
      | zero => exact if_neg (hstop (by omega))
      | succ k =>
          have hfirst : src s1 = src s2 := hagree 0 (by omega)
          rw [if_pos hfirst, ih (k := k) (by omega) (fun i hi => ?_) fun hk => ?_]
          · rw [Nat.add_right_comm, Nat.add_right_comm s2]
            exact hagree (i + 1) (by omega)
          · rw [Nat.add_right_comm, Nat.add_right_comm s2]
            exact hstop (by omega)

/-- The offset of a match is exact, however far into the input it is. -/
theorem bestOffset_eq {len : Int} {q : Nat} (hbest : bestMatch src n p = (len, some q))
    (hoccurs : Occurs src n p len q) : bestOffset src n p = -((p - q : Nat) : Int) := by
  have hlt := hoccurs.lt
  have hnear := hoccurs.near
  simp only [maxWindow] at hnear
  rw [bestOffset, hbest]
  simp only
  rw [CInt.ofInt_sub (by omega) (by omega)]
  omega

/-! ## Tokens -/

/-- The shapes the encoder writes: a valid token, or a long copy from exactly one
window back whose field is zero. -/
def Token.Shaped : Token → Prop
  | .literal _ => True
  | .short len dist => 2 ≤ len ∧ len ≤ 5 ∧ 1 ≤ dist ∧ dist ≤ 256
  | .long len dist => 3 ≤ len ∧ len ≤ 9 ∧ 1 ≤ dist ∧ dist ≤ 8192
  | .sized len dist => 10 ≤ len ∧ len ≤ 256 ∧ 1 ≤ dist ∧ dist ≤ 8192

/-- A shaped token is valid unless it would be taken for the end marker. -/
theorem Token.Shaped.valid {t : Token} (h : t.Shaped) (hedge : ∀ len, t ≠ .sized len 8192) :
    t.Valid := by
  cases t with
  | literal v => trivial
  | short len dist => exact h
  | long len dist =>
      obtain ⟨hlen, hlen', hdist, hdist'⟩ := h
      refine ⟨hlen, hlen', hdist, hdist', ?_⟩
      simp only [Token.field]
      omega
  | sized len dist =>
      obtain ⟨hlen, hlen', hdist, hdist'⟩ := h
      have hne : dist ≠ 8192 := fun heq => hedge len (by rw [heq])
      refine ⟨by omega, hlen', hdist, hdist', ?_⟩
      simp only [Token.field]
      omega

/-- A token that takes the input from `p` on. -/
structure Token.Takes (src : Nat → UInt8) (n p : Nat) (t : Token) : Prop where
  shaped : t.Shaped
  size_pos : 1 ≤ t.size
  size_le : p + t.size ≤ n
  sourced : t.op.Sourced (prefixOf src p)
  apply_eq : t.op.apply (prefixOf src p) = prefixOf src (p + t.size)

theorem takes_literal (h : p < n) : (Token.literal (src p)).Takes src n p :=
  ⟨trivial, Nat.le_refl 1, h, trivial, (Lz77.prefixOf_succ src p).symm⟩

/-- A copy of an earlier occurrence takes the bytes it stands for. -/
theorem Occurs.copy {len : Int} {q : Nat} (h : Occurs src n p len q) {k : Nat}
    (hk : k ≤ len.toNat) :
    (Lz77.Op.copy (p - q) k : Lz77.Op UInt8).Sourced (prefixOf src p) ∧
      (Lz77.Op.copy (p - q) k : Lz77.Op UInt8).apply (prefixOf src p) =
        prefixOf src (p + k) := by
  have hlt := h.lt
  refine ⟨⟨by omega, by rw [Lz77.length_prefixOf]; omega⟩, ?_⟩
  refine Lz77.copy_prefixOf (by omega) k (by omega) fun i hi => ?_
  rw [Nat.sub_sub_self (by omega)]
  exact h.agree i (by omega)

theorem takes_matchToken {len : Int} {q : Nat} (hlt : p < n) (h : Occurs src n p len q) :
    (matchToken src p len (-((p - q : Nat) : Int))).Takes src n p := by
  have hq := h.lt
  have hnear := h.near
  have hle := h.le
  simp only [maxWindow] at hnear
  rw [matchToken]
  split
  · rename_i hshort
    rw [Int.neg_neg, Int.toNat_natCast]
    obtain ⟨hsourced, happly⟩ := h.copy (Nat.le_refl _)
    refine ⟨⟨by omega, by omega, by omega, by omega⟩, ?_, ?_, hsourced, happly⟩ <;>
      simp only [Token.size] <;> omega
  · split
    · rename_i hlong
      rw [Int.neg_neg, Int.toNat_natCast]
      obtain ⟨hsourced, happly⟩ := h.copy (Nat.le_refl _)
      refine ⟨⟨by omega, by omega, by omega, by omega⟩, ?_, ?_, hsourced, happly⟩ <;>
        simp only [Token.size] <;> omega
    · split
      · rename_i hsized
        rw [Int.neg_neg, Int.toNat_natCast]
        have hcap : (if len > 256 then 256 else len.toNat) ≤ len.toNat := by split <;> omega
        obtain ⟨hsourced, happly⟩ := h.copy hcap
        refine ⟨⟨?_, ?_, by omega, by omega⟩, ?_, ?_, hsourced, happly⟩
        · split <;> omega
        · split <;> omega
        · simp only [Token.size]
          split <;> omega
        · simp only [Token.size]
          omega
      · exact takes_literal hlt

/-- The token at a position takes the input from there on. -/
theorem takes_tokenAt (src : Nat → UInt8) (h : p < n) : (tokenAt src n p).Takes src n p := by
  rw [tokenAt]
  split
  · rename_i hmatch
    obtain hnone | ⟨len, q, hbest, hoccurs⟩ := bestMatch_cases src n p
    · exact absurd (by rw [hnone]) hmatch.1
    · rw [bestOffset_eq hbest hoccurs, hbest]
      exact takes_matchToken h hoccurs
  · exact takes_literal h

/-- The parse has a literal where no match is found. -/
theorem tokenAt_of_none (h : bestMatch src n p = (0, none)) :
    tokenAt src n p = .literal (src p) :=
  if_neg fun hboth => hboth.1 (by rw [h])

/-- The parse has the best match where the next one is no longer. -/
theorem tokenAt_of_some {len : Int} {q : Nat} (hbest : bestMatch src n p = (len, some q))
    (hoccurs : Occurs src n p len q) (hnext : (bestMatch src n (p + 1)).1 ≤ len) :
    tokenAt src n p = matchToken src p len (-((p - q : Nat) : Int)) := by
  have hpos := hoccurs.pos
  have hstay : ¬ givesWay src n p := by
    rw [givesWay, Bool.and_eq_true, decide_eq_true_eq, hbest]
    exact fun hboth => by simp only at hboth; omega
  rw [tokenAt, if_pos ⟨by rw [hbest]; exact Int.ne_of_gt hpos, hstay⟩,
    bestOffset_eq hbest hoccurs, hbest]

/-! ## Lists of tokens -/

/-- A position at which the parse begins a token. -/
inductive Reaches (src : Nat → UInt8) (n : Nat) : Nat → Prop
  | start : Reaches src n 2
  | step {p : Nat} (reaches : Reaches src n p) (more : p < n - 1) :
      Reaches src n (p + (tokenAt src n p).size)

theorem Reaches.two_le (h : Reaches src n p) : 2 ≤ p := by
  induction h with
  | start => exact Nat.le_refl 2
  | step _ _ ih => exact Nat.le_add_right_of_le ih

/-- The parse from a position that is reached is the end of the parse. -/
theorem Reaches.suffix (h : Reaches src n p) (hn : 3 < n) :
    ∃ fuel, n - p < fuel ∧ parseFrom src n fuel p <:+ parse src n := by
  induction h with
  | start =>
      refine ⟨n, by omega, ?_⟩
      rw [parse, if_neg (by omega)]
      exact ⟨[.literal (src 0), .literal (src 1)], rfl⟩
  | step reaches more ih =>
      rename_i p
      obtain ⟨fuel, hfuel, hsuffix⟩ := ih
      obtain ⟨fuel, rfl⟩ : ∃ k, fuel = k + 1 := ⟨fuel - 1, by omega⟩
      rw [parseFrom, if_pos more] at hsuffix
      have hsize := (takes_tokenAt src (n := n) (p := p) (by omega)).size_pos
      exact ⟨fuel, by omega, (List.suffix_cons ..).trans hsuffix⟩

/-- The token at a position that is reached belongs to the parse. -/
theorem Reaches.mem (h : Reaches src n p) (hn : 3 < n) (hmore : p < n - 1) :
    tokenAt src n p ∈ parse src n := by
  obtain ⟨fuel, hfuel, hsuffix⟩ := h.suffix hn
  obtain ⟨fuel, rfl⟩ : ∃ k, fuel = k + 1 := ⟨fuel - 1, by omega⟩
  rw [parseFrom, if_pos hmore] at hsuffix
  exact hsuffix.subset (List.mem_cons_self ..)

/-- Tokens that take the input from `p` to its end. -/
inductive Covers (src : Nat → UInt8) (n : Nat) : Nat → List Token → Prop
  | nil : Covers src n n []
  | cons {p : Nat} {t : Token} {tokens : List Token} (takes : t.Takes src n p)
      (rest : Covers src n (p + t.size) tokens) : Covers src n p (t :: tokens)

theorem covers_parseFrom {fuel : Nat} (hle : p ≤ n) (hfuel : n - p < fuel) :
    Covers src n p (parseFrom src n fuel p) := by
  induction fuel generalizing p with
  | zero => omega
  | succ fuel ih =>
      rw [parseFrom]
      split
      · have htakes := takes_tokenAt src (n := n) (p := p) (by omega)
        have hpos := htakes.size_pos
        exact .cons htakes (ih htakes.size_le (by omega))
      · split
        · rename_i hlast hlt
          have hend : p + (Token.literal (src p)).size = n := by
            simp only [Token.size]
            omega
          exact .cons (takes_literal hlt) (hend ▸ .nil)
        · rename_i hlast hend
          obtain rfl : p = n := by omega
          exact .nil

theorem covers_literals (src : Nat → UInt8) (n : Nat) : Covers src n 0 (literals src n) := by
  suffices h : ∀ k ≤ n, Covers src n (n - k) ((literals src n).drop (n - k)) by
    simpa using h n (Nat.le_refl n)
  intro k
  induction k with
  | zero =>
      intro _
      rw [List.drop_eq_nil_of_le (by simp [literals])]
      exact .nil
  | succ k ih =>
      intro hk
      have hlen : n - (k + 1) < (literals src n).length := by
        simp only [literals, List.length_map, Lz77.length_prefixOf]
        omega
      have hget : (literals src n)[n - (k + 1)] = .literal (src (n - (k + 1))) := by
        simp only [literals, prefixOf, List.getElem_map, List.getElem_range]
      have hnext : n - (k + 1) + 1 = n - k := by omega
      rw [List.drop_eq_getElem_cons hlen, hget, hnext]
      refine .cons (takes_literal (by omega)) ?_
      simp only [Token.size, hnext]
      exact ih (by omega)

/-- The parse of an input takes it from one end to the other. -/
theorem covers_parse (src : Nat → UInt8) (n : Nat) : Covers src n 0 (parse src n) := by
  rw [parse]
  split
  · exact covers_literals src n
  · have hrest : Covers src n 2 (parseFrom src n n 2) := covers_parseFrom (by omega) (by omega)
    exact .cons (takes_literal (by omega)) (.cons (takes_literal (p := 1) (by omega)) hrest)

section Covers

variable {tokens : List Token}

theorem Covers.shaped (h : Covers src n p tokens) : ∀ t ∈ tokens, t.Shaped := by
  induction h with
  | nil => exact fun t ht => absurd ht List.not_mem_nil
  | cons takes _ ih => exact List.forall_mem_cons.mpr ⟨takes.shaped, ih⟩

/-- Each of the tokens takes the input from somewhere on. -/
theorem Covers.takes_of_mem (h : Covers src n p tokens) {t : Token} (ht : t ∈ tokens) :
    ∃ q, t.Takes src n q := by
  induction h with
  | nil => exact absurd ht List.not_mem_nil
  | cons takes _ ih =>
      rcases List.mem_cons.mp ht with rfl | hrest
      · exact ⟨_, takes⟩
      · exact ih hrest

/-- Tokens that take the input stand for it. -/
theorem Covers.expandFrom (h : Covers src n p tokens) :
    Lz77.expandFrom (prefixOf src p) (tokens.map Token.op) = prefixOf src n := by
  induction h with
  | nil => rfl
  | cons takes _ ih =>
      rw [List.map_cons, Lz77.expandFrom_cons, takes.apply_eq, ih]

theorem Covers.sourced (h : Covers src n p tokens) :
    Lz77.SourcedFrom (prefixOf src p) (tokens.map Token.op) := by
  induction h with
  | nil => trivial
  | cons takes _ ih => exact ⟨takes.sourced, takes.apply_eq ▸ ih⟩

/-- A front part of tokens that take the input stands for a proper front part of
the input. -/
theorem Covers.front {t : Token} {front back : List Token}
    (h : Covers src n p (front ++ t :: back)) :
    ∃ m < n, Lz77.SourcedFrom (prefixOf src p) (front.map Token.op) ∧
      Lz77.expandFrom (prefixOf src p) (front.map Token.op) = prefixOf src m := by
  induction front generalizing p with
  | nil =>
      cases h with
      | cons takes rest =>
          have := takes.size_pos
          have := takes.size_le
          exact ⟨p, by omega, trivial, rfl⟩
  | cons u front ih =>
      cases h with
      | cons takes rest =>
          obtain ⟨m, hm, hsourced, hexpand⟩ := ih rest
          refine ⟨m, hm, ⟨takes.sourced, takes.apply_eq ▸ hsourced⟩, ?_⟩
          rw [List.map_cons, Lz77.expandFrom_cons, takes.apply_eq, hexpand]

/-! ## Size -/

/-- Eight times the bytes and the flags of a token: an eighth of this is what the
token adds to a stream. -/
def Token.cost (t : Token) : Nat := 8 * byteCount t.items + (bitsOf t.items).length

theorem Token.Shaped.cost_le {t : Token} (h : t.Shaped) : t.cost ≤ 9 * t.size := by
  cases t with
  | literal v => exact Nat.le_refl 9
  | short len dist =>
      have := h.1
      simp only [Token.cost, Token.items, byteCount, bitsOf, List.length_cons, List.length_nil,
        Token.size]
      omega
  | long len dist =>
      have := h.1
      simp only [Token.cost, Token.items, byteCount, bitsOf, List.length_cons, List.length_nil,
        Token.size]
      omega
  | sized len dist =>
      have := h.1
      simp only [Token.cost, Token.items, byteCount, bitsOf, List.length_cons, List.length_nil,
        Token.size]
      omega

/-- The number of bytes a list of tokens and the end marker are packed into. -/
def streamSize (tokens : List Token) : Nat := packedSize 0 (streamItems tokens)

theorem streamSize_eq (tokens : List Token) :
    streamSize tokens = 2 + ((tokens.map Token.cost).sum + 9) / 8 := by
  have hcost : ∀ tokens : List Token, (tokens.map Token.cost).sum =
      8 * byteCount (tokens.flatMap Token.items) +
        (bitsOf (tokens.flatMap Token.items)).length := by
    intro tokens
    induction tokens with
    | nil => rfl
    | cons t tokens ih =>
        simp only [List.map_cons, List.sum_cons, ih, Token.cost, List.flatMap_cons,
          byteCount_append, bitsOf_append, List.length_append]
        omega
  rw [streamSize, packedSize_eq (Nat.zero_le 7), hcost]
  simp only [streamItems, byteCount_append, bitsOf_append, List.length_append, endMarker,
    byteCount, bitsOf, List.length_cons, List.length_nil]
  omega

theorem prsMaxCompressedSize_eq (n : Nat) :
    prsMaxCompressedSize n = 2 + (9 * n + 9) / 8 := by
  have hand : (n + 2) &&& 0x07 = (n + 2) % 8 := Nat.and_two_pow_sub_one_eq_mod (n + 2) 3
  rw [prsMaxCompressedSize, hand, Nat.shiftRight_eq_div_pow]
  split <;> omega

/-- A stream that takes an input is no longer than the bound. -/
theorem Covers.streamSize_le (h : Covers src n 0 tokens) :
    streamSize tokens ≤ prsMaxCompressedSize n := by
  have hsum : ∀ {p : Nat} {tokens : List Token}, Covers src n p tokens →
      (tokens.map Token.cost).sum + 9 * p ≤ 9 * n := by
    intro p tokens h
    induction h with
    | nil => simp
    | cons takes _ ih =>
        have := takes.shaped.cost_le
        simp only [List.map_cons, List.sum_cons]
        omega
  have := hsum h
  rw [streamSize_eq, prsMaxCompressedSize_eq]
  omega

/-- Literals take exactly as much as the bound says. -/
theorem streamSize_literals (src : Nat → UInt8) (n : Nat) :
    streamSize (literals src n) = prsMaxCompressedSize n := by
  have hcost : ((literals src n).map Token.cost).sum = 9 * n := by
    have hmap : (literals src n).map Token.cost = List.replicate n 9 := by
      simp only [literals, List.map_map]
      rw [List.eq_replicate_iff]
      refine ⟨by simp, fun c hc => ?_⟩
      obtain ⟨v, -, rfl⟩ := List.mem_map.mp hc
      rfl
    rw [hmap, List.sum_replicate_nat, Nat.mul_comm]
  rw [streamSize_eq, hcost, prsMaxCompressedSize_eq]

end Covers

end Sylverant.Prs
