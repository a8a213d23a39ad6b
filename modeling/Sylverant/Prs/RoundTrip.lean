/-
# Compressing and decompressing

The parse of an input stands for the input, so decoding what `prs_compress` wrote
gives the input back, with two exceptions. A match of more than nine bytes that
lies exactly one window back is written with a zero field, which is the end
marker, and the decoder stops there. And a return value is an `int`, which is
negative when the output is as long as `2 ^ 31` bytes. `roundTrips_iff` says that
there is no other, and `archives_iff` that `prs_archive` has only the second.
-/

import Sylverant.Prs.Agreement
import Sylverant.Prs.Compress

namespace Sylverant.Prs

open FlagStream
open Lz77 (prefixOf)

/-- Compressing the first `n` bytes of `src` succeeds, and decompressing the
buffer with the length that was returned yields the `n` bytes. -/
def RoundTrips (junk junk' : Nat → UInt8) (base : Nat) (src : Nat → UInt8) (n : Nat) : Prop :=
  ∃ len buf, prsCompress junk base src n = .ok (len, buf) ∧ 0 ≤ len ∧
    prsDecompressBuf junk' (buf.take len.toNat) = .ok (n, prefixOf src n)

/-- A copy that is written with the field of the end marker. -/
def Token.IsEdge : Token → Prop
  | .sized _ dist => dist = 8192
  | _ => False

instance : DecidablePred Token.IsEdge
  | .literal _ => .isFalse id
  | .short _ _ => .isFalse id
  | .long _ _ => .isFalse id
  | .sized _ dist => inferInstanceAs (Decidable (dist = 8192))

theorem Token.isEdge_iff {t : Token} : t.IsEdge ↔ ∃ len, t = .sized len 8192 := by
  cases t <;> simp [Token.IsEdge]

/-- No copy of the list is written with the field of the end marker. -/
def EdgeFree (tokens : List Token) : Prop := ∀ t ∈ tokens, ¬ t.IsEdge

instance (tokens : List Token) : Decidable (EdgeFree tokens) :=
  inferInstanceAs (Decidable (∀ t ∈ tokens, ¬ t.IsEdge))

section RoundTrip

variable {src : Nat → UInt8} {n : Nat} {tokens : List Token}

theorem Covers.valid {p : Nat} (h : Covers src n p tokens) (hedge : EdgeFree tokens) :
    ∀ t ∈ tokens, t.Valid :=
  fun t ht => (h.shaped t ht).valid fun len heq =>
    hedge t ht (Token.isEdge_iff.mpr ⟨len, heq⟩)

/-- Without an edge copy the parse is a well-formed stream for the input. -/
theorem Covers.wellFormed (h : Covers src n 0 tokens) (hedge : EdgeFree tokens) :
    WellFormed tokens ∧ expansion tokens = prefixOf src n :=
  ⟨⟨h.valid hedge, h.sourced⟩, h.expandFrom⟩

/-- The first edge copy of a list. -/
theorem exists_first_edge (h : ¬ EdgeFree tokens) :
    ∃ front len back, tokens = front ++ .sized len 8192 :: back ∧ EdgeFree front := by
  induction tokens with
  | nil => exact absurd (fun t ht => absurd ht List.not_mem_nil) h
  | cons t tokens ih =>
      by_cases hfirst : t.IsEdge
      · obtain ⟨len, rfl⟩ := Token.isEdge_iff.mp hfirst
        exact ⟨[], len, tokens, rfl, fun t ht => absurd ht List.not_mem_nil⟩
      · have hrest : ¬ EdgeFree tokens := fun hfree =>
          h (List.forall_mem_cons.mpr ⟨hfirst, hfree⟩)
        obtain ⟨front, len, back, rfl, hfree⟩ := ih hrest
        exact ⟨t :: front, len, back, rfl, List.forall_mem_cons.mpr ⟨hfirst, hfree⟩⟩

/-- To the decoder an edge copy is the end marker. -/
theorem serialise_edge (front back : List Token) (len : Nat) :
    ∃ pad trailing, serialise [] (front ++ .sized len 8192 :: back) =
      serialise pad front ++ trailing := by
  have hsplit : streamItems (front ++ .sized len 8192 :: back) =
      streamItems front ++ (.byte (UInt8.ofNat (len - 1)) :: streamItems back) := by
    simp only [streamItems, List.flatMap_append, List.flatMap_cons, List.append_assoc]
    rfl
  rw [serialise, hsplit, pack_append]
  exact ⟨_, _, rfl⟩

/-- Up to an edge copy the parse is a well-formed stream for less than the input. -/
theorem Covers.wellFormed_front {front back : List Token} {t : Token}
    (h : Covers src n 0 (front ++ t :: back)) (hedge : EdgeFree front) :
    WellFormed front ∧ ∃ m < n, expansion front = prefixOf src m := by
  obtain ⟨m, hm, hsourced, hexpand⟩ := h.front
  refine ⟨⟨fun u hu => ?_, hsourced⟩, m, hm, hexpand⟩
  refine (h.shaped u (List.mem_append_left _ hu)).valid fun len heq => ?_
  exact hedge u hu (Token.isEdge_iff.mpr ⟨len, heq⟩)

variable (junk junk' : Nat → UInt8) (base : Nat)

/-- A round trip is the decoding of the parse, if its length fits in an `int`. -/
theorem roundTrips_iff_decode (hn : 1 ≤ n) (hlt : n < 2 ^ 31) :
    RoundTrips junk junk' base src n ↔
      streamSize (parse src n) < 2 ^ 31 ∧
        prsDecompressBuf junk' (serialise [] (parse src n)) = .ok (n, prefixOf src n) := by
  have hlength : (serialise [] (parse src n)).length = streamSize (parse src n) :=
    length_pack ..
  have hcompress := prsCompress_eq junk base src hn
  by_cases hfits : streamSize (parse src n) < 2 ^ 31
  · have hwhole : (serialise [] (parse src n)).take
        ((streamSize (parse src n) : Int)).toNat = serialise [] (parse src n) :=
      List.take_of_length_le (by omega)
    rw [CInt.ofInt_natCast hfits] at hcompress
    constructor
    · rintro ⟨len, buf, hrun, -, hdecode⟩
      rw [hcompress] at hrun
      cases hrun
      rw [hwhole] at hdecode
      exact ⟨hfits, hdecode⟩
    · rintro ⟨-, hdecode⟩
      exact ⟨_, _, hcompress, Int.natCast_nonneg _, by rw [hwhole]; exact hdecode⟩
  · refine ⟨?_, fun h => absurd h.1 hfits⟩
    rintro ⟨len, buf, hrun, hpos, -⟩
    rw [hcompress] at hrun
    cases hrun
    -- the length lies between `2 ^ 31` and `2 ^ 32`, where an `int` is negative
    have hmax := (covers_parse src n).streamSize_le
    rw [prsMaxCompressedSize_eq] at hmax
    have hneg := CInt.ofInt_neg (n := (streamSize (parse src n) : Int)) (by omega) (by omega)
    omega

/-- Without an edge copy the input survives, if the output is not too long. -/
theorem roundTrips_of_edgeFree (hn : 1 ≤ n) (hlt : n < 2 ^ 31) (hedge : EdgeFree (parse src n))
    (hfits : streamSize (parse src n) < 2 ^ 31) : RoundTrips junk junk' base src n := by
  obtain ⟨hwf, hexpand⟩ := (covers_parse src n).wellFormed hedge
  have hdecode := decompress_serialise junk' hwf
    (by rw [hexpand, Lz77.length_prefixOf]; exact hlt) [] []
  rw [hexpand, Lz77.length_prefixOf, List.append_nil] at hdecode
  exact (roundTrips_iff_decode junk junk' base hn hlt).mpr ⟨hfits, hdecode⟩

/-- With an edge copy the decoder stops early. -/
theorem edgeFree_of_roundTrips (hn : 1 ≤ n) (hlt : n < 2 ^ 31)
    (h : RoundTrips junk junk' base src n) : EdgeFree (parse src n) := by
  by_contra hedge
  have hdecode := ((roundTrips_iff_decode junk junk' base hn hlt).mp h).2
  have hcovers := covers_parse src n
  obtain ⟨front, len, back, hparse, hfree⟩ := exists_first_edge hedge
  rw [hparse] at hcovers
  obtain ⟨hwf, m, hm, hexpand⟩ := hcovers.wellFormed_front hfree
  obtain ⟨pad, trailing, hserial⟩ := serialise_edge front back len
  have hfront := decompress_serialise junk' hwf
    (by rw [hexpand, Lz77.length_prefixOf]; omega) pad trailing
  rw [hparse, hserial, hfront, hexpand, Lz77.length_prefixOf] at hdecode
  have hcount : (m : Int) = n := (Prod.mk.inj (Except.ok.inj hdecode)).1
  omega

/-- An input of fewer than `2 ^ 31` bytes survives compression exactly when its
parse has no edge copy and is packed into fewer than `2 ^ 31` bytes. -/
theorem roundTrips_iff (hn : 1 ≤ n) (hlt : n < 2 ^ 31) :
    RoundTrips junk junk' base src n ↔
      EdgeFree (parse src n) ∧ streamSize (parse src n) < 2 ^ 31 :=
  ⟨fun h => ⟨edgeFree_of_roundTrips junk junk' base hn hlt h,
      ((roundTrips_iff_decode junk junk' base hn hlt).mp h).1⟩,
    fun h => roundTrips_of_edgeFree junk junk' base hn hlt h.1 h.2⟩

/-- Three bytes survive. -/
theorem roundTrips_three : RoundTrips (fun _ => 0) (fun _ => 0) 0 (fun _ => 65) 3 :=
  (roundTrips_iff (fun _ => 0) (fun _ => 0) 0 (Nat.le_of_ble_eq_true rfl)
    (Nat.lt_of_sub_ne_zero (by decide))).mpr ⟨by decide, by decide⟩

/-- The window and the ten bytes of an edge copy do not fit in a short input. -/
theorem edgeFree_of_short (h : n < 8202) : EdgeFree (parse src n) := by
  intro t ht hedge
  obtain ⟨len, rfl⟩ := Token.isEdge_iff.mp hedge
  obtain ⟨p, htakes⟩ := (covers_parse src n).takes_of_mem ht
  have hlen : 10 ≤ len := htakes.shaped.1
  have hdist : 8192 ≤ (prefixOf src p).length := htakes.sourced.2
  have hle : p + len ≤ n := htakes.size_le
  rw [Lz77.length_prefixOf] at hdist
  omega

/-- Every input too short for an edge copy survives. -/
theorem roundTrips_of_short (hn : 1 ≤ n) (h : n < 8202) :
    RoundTrips junk junk' base src n := by
  have hmax := (covers_parse src n).streamSize_le
  rw [prsMaxCompressedSize_eq] at hmax
  exact roundTrips_of_edgeFree junk junk' base hn (by omega) (edgeFree_of_short h) (by omega)

end RoundTrip

/-! ## Archiving -/

section Archiving

variable {junk junk' : Nat → UInt8} {src : Nat → UInt8} {n : Nat}

/-- Archiving the first `n` bytes of `src` succeeds with an output of the size that is computed
for them, and decompressing the output yields the `n` bytes. -/
def Archives (junk junk' : Nat → UInt8) (src : Nat → UInt8) (n : Nat) : Prop :=
  ∃ len buf, prsArchive junk src n = .ok (len, buf) ∧
    len = prsMaxCompressedSize n ∧ buf.length = prsMaxCompressedSize n ∧
    prsMaxCompressedSize n = n + 2 + (n + 2 + 7) / 8 ∧
    prsDecompressBuf junk' buf = .ok (n, prefixOf src n)

theorem edgeFree_literals (src : Nat → UInt8) (n : Nat) : EdgeFree (literals src n) := by
  intro t ht
  obtain ⟨b, -, rfl⟩ := List.mem_map.mp ht
  exact id

/-- A size that is returned fits in an `int`. -/
theorem Archives.fits (hn : 1 ≤ n) (h : Archives junk junk' src n) :
    prsMaxCompressedSize n < 2 ^ 31 := by
  obtain ⟨len, buf, hrun, hlen, -⟩ := h
  rw [prsArchive_eq junk src hn] at hrun
  cases hrun
  have hint := CInt.ofInt_lt (prsMaxCompressedSize n)
  omega

/-- Where the size of the output fits in an `int`, and only there, archiving succeeds with this
size and the input survives. -/
theorem archives_iff (junk junk' : Nat → UInt8) (src : Nat → UInt8) (hn : 1 ≤ n) :
    Archives junk junk' src n ↔ prsMaxCompressedSize n < 2 ^ 31 := by
  refine ⟨fun h => h.fits hn, fun hfits => ?_⟩
  have hsize := prsMaxCompressedSize_eq n
  have hrun := prsArchive_eq junk src hn
  rw [CInt.ofInt_natCast hfits] at hrun
  have hlength : (serialise [] (literals src n)).length = prsMaxCompressedSize n :=
    (length_pack ..).trans (streamSize_literals src n)
  obtain ⟨hwf, hexpand⟩ := (covers_literals src n).wellFormed (edgeFree_literals src n)
  have hdecode := decompress_serialise junk' hwf
    (by rw [hexpand, Lz77.length_prefixOf]; omega) [] []
  rw [hexpand, Lz77.length_prefixOf, List.append_nil] at hdecode
  exact ⟨_, _, hrun, rfl, hlength, by omega, hdecode⟩

/-- Three bytes are archived. -/
theorem archives_three : Archives (fun _ => 0) (fun _ => 0) (fun _ => 65) 3 :=
  (archives_iff (fun _ => 0) (fun _ => 0) (fun _ => 65) (by decide)).mpr (by decide)

/-- For two billion bytes the size that is returned is negative. -/
theorem not_archives_large :
    ¬ Archives (fun _ => 0) (fun _ => 0) (fun _ => 0) 2000000000 := by
  intro h
  have hfits := h.fits (by decide)
  rw [prsMaxCompressedSize_eq] at hfits
  omega

end Archiving

/-! ## An input that does not survive -/

/-- Ten bytes, zeros up to a window from the start, and the ten bytes again. -/
def windowEdge (i : Nat) : UInt8 :=
  if i < 10 then UInt8.ofNat (i + 1) else if i < 8192 then 0 else UInt8.ofNat (i - 8191)

namespace WindowEdge

theorem low {i : Nat} (h : i < 10) : (windowEdge i).toNat = i + 1 := by
  rw [windowEdge, if_pos h, UInt8.toNat_ofNat']
  omega

theorem zero {i : Nat} (h : 10 ≤ i) (h' : i < 8192) : (windowEdge i).toNat = 0 := by
  rw [windowEdge, if_neg (by omega), if_pos h']
  rfl

theorem high {i : Nat} (h : 8192 ≤ i) (h' : i < 8202) : (windowEdge i).toNat = i - 8191 := by
  rw [windowEdge, if_neg (by omega), if_neg (by omega), UInt8.toNat_ofNat']
  omega

/-- A byte that has not occurred yet is not found. -/
theorem bestMatch_fresh {p : Nat} (h : 2 ≤ p) (h' : p ≤ 10) :
    bestMatch windowEdge 8202 p = (0, none) := by
  obtain hnone | ⟨len, q, hbest, hoccurs⟩ := bestMatch_cases windowEdge 8202 p
  · exact hnone
  · have hfirst := congrArg UInt8.toNat (hoccurs.agree 0 (by have := hoccurs.pos; omega))
    have hlt := hoccurs.lt
    rw [Nat.add_zero, Nat.add_zero, low (by omega)] at hfirst
    by_cases hten : p < 10
    · rw [low hten] at hfirst
      omega
    · rw [zero (by omega) (by omega)] at hfirst
      omega

/-- A match inside the zeros ends where they end. -/
theorem matchLoop_zeros {p q : Nat} (hq : 10 ≤ q) (hlt : q < p) (hp : p < 8192) :
    matchLoop windowEdge p q (8202 - p) = 8192 - p := by
  refine matchLoop_eq (by omega) (fun i hi => ?_) fun _ heq => ?_
  · apply UInt8.toNat_inj.mp
    rw [zero (by omega) (by omega), zero (by omega) (by omega)]
  · have hbytes := congrArg UInt8.toNat heq
    rw [high (by omega) (by omega), zero (by omega) (by omega)] at hbytes
    omega

/-- In the zeros the best match takes the rest of them. -/
theorem bestMatch_zeros {p : Nat} (h : 11 ≤ p) (h' : p < 8191) :
    ∃ q, bestMatch windowEdge 8202 p = (((8192 - p : Nat) : Int), some q) ∧
      Occurs windowEdge 8202 p (8192 - p : Nat) q := by
  have hsame : sameHash windowEdge p (p - 1) := by
    refine HashChain.live_iff.mpr ⟨?_, by simp only [maxWindow]; omega⟩
    have hbyte : ∀ i, 10 ≤ i → i < 8192 → windowEdge i = 0 := fun i hi hi' =>
      UInt8.toNat_inj.mp (by rw [zero hi hi']; rfl)
    rw [hashStr, hashStr, hbyte _ (by omega) (by omega), hbyte _ (by omega) (by omega),
      hbyte _ (by omega) (by omega), hbyte _ (by omega) (by omega)]
  have hpos := bestMatch_pos windowEdge (n := 8202) (p := p) (q := p - 1) (by omega)
    hsame (by
      rw [matchLoop_zeros (by omega) (by omega) (by omega), CInt.ofInt_natCast (by omega)]
      omega)
  obtain hnone | ⟨len, q, hbest, hoccurs⟩ := bestMatch_cases windowEdge 8202 p
  · rw [hnone] at hpos
    exact absurd hpos (Int.lt_irrefl 0)
  · have hq : 10 ≤ q := by
      by_contra hlow
      have hfirst := congrArg UInt8.toNat (hoccurs.agree 0 (by have := hoccurs.pos; omega))
      rw [Nat.add_zero, Nat.add_zero, low (by omega), zero (by omega) (by omega)] at hfirst
      omega
    have hlen := hoccurs.count
    rw [matchLoop_zeros hq hoccurs.lt (by omega), CInt.ofInt_natCast (by omega)] at hlen
    subst hlen
    exact ⟨q, hbest, hoccurs⟩

/-- The tokens in the zeros are sized copies. -/
theorem tokenAt_zeros {p : Nat} (h : 11 ≤ p) (h' : p < 8182) :
    (tokenAt windowEdge 8202 p).size = min 256 (8192 - p) := by
  obtain ⟨q, hbest, hoccurs⟩ := bestMatch_zeros h (by omega)
  obtain ⟨q', hbest', -⟩ := bestMatch_zeros (p := p + 1) (by omega) (by omega)
  rw [tokenAt_of_some hbest hoccurs (by rw [hbest']; simp only; omega), matchToken,
    if_neg (by omega), if_neg (by omega), if_pos (by omega), Token.size]
  split <;> omega

/-- Every multiple of 256 bytes into the zeros is reached. -/
theorem reaches_zeros {k : Nat} (h : k ≤ 31) : Reaches windowEdge 8202 (11 + 256 * k) := by
  induction k with
  | zero =>
      have hstep : ∀ p, 2 ≤ p → p ≤ 10 → Reaches windowEdge 8202 p →
          Reaches windowEdge 8202 (p + 1) := by
        intro p hlow hhigh hreaches
        have hnext := hreaches.step (by omega)
        rwa [tokenAt_of_none (bestMatch_fresh hlow hhigh)] at hnext
      have hall : ∀ i ≤ 9, Reaches windowEdge 8202 (2 + i) := by
        intro i
        induction i with
        | zero => exact fun _ => .start
        | succ i ih => exact fun hi => hstep (2 + i) (by omega) (by omega) (ih (by omega))
      exact hall 9 (by omega)
  | succ k ih =>
      have hnext := (ih (by omega)).step (by omega)
      have heq : 11 + 256 * k + min 256 (8192 - (11 + 256 * k)) = 11 + 256 * (k + 1) := by omega
      rwa [tokenAt_zeros (by omega) (by omega), heq] at hnext

/-- The zeros end at the window. -/
theorem reaches_window : Reaches windowEdge 8202 8192 := by
  have hnext := (reaches_zeros (k := 31) (by omega)).step (by omega)
  have hend : 11 + 256 * 31 + min 256 (8192 - (11 + 256 * 31)) = 8192 := by omega
  rwa [tokenAt_zeros (by omega) (by omega), hend] at hnext

/-- A byte of the second ten occurs once before, a window earlier. -/
theorem occurs_window {p : Nat} {len : Int} {q : Nat} (h : 8192 ≤ p) (h' : p < 8202)
    (hoccurs : Occurs windowEdge 8202 p len q) (hlt : q < 8192) : q = p - 8192 := by
  have hfirst := congrArg UInt8.toNat (hoccurs.agree 0 (by have := hoccurs.pos; omega))
  rw [Nat.add_zero, Nat.add_zero, high h h'] at hfirst
  by_cases hlow : q < 10
  · rw [low hlow] at hfirst
    omega
  · rw [zero (by omega) hlt] at hfirst
    omega

/-- The second ten bytes are a copy of the first. -/
theorem tokenAt_window : tokenAt windowEdge 8202 8192 = .sized 10 8192 := by
  have hcount : matchLoop windowEdge 8192 0 (8202 - 8192) = 10 := by
    refine matchLoop_eq (by omega) (fun i hi => ?_) fun hlt => absurd hlt (by omega)
    apply UInt8.toNat_inj.mp
    rw [high (by omega) (by omega), low (by omega)]
    omega
  have hsame : sameHash windowEdge 8192 0 := HashChain.live_iff.mpr ⟨by decide, by decide⟩
  have hpos := bestMatch_pos windowEdge (n := 8202) (by decide) hsame
    (by rw [hcount]; decide)
  obtain hnone | ⟨len, q, hbest, hoccurs⟩ := bestMatch_cases windowEdge 8202 8192
  · rw [hnone] at hpos
    exact absurd hpos (Int.lt_irrefl 0)
  · have hq := occurs_window (by omega) (by omega) hoccurs hoccurs.lt
    rw [Nat.sub_self] at hq
    subst hq
    have hlen : len = 10 := by rw [hoccurs.count, hcount]; rfl
    subst hlen
    have hnext : (bestMatch windowEdge 8202 (8192 + 1)).1 ≤ 10 := by
      obtain hnone | ⟨len', q', hbest', hoccurs'⟩ :=
        bestMatch_cases windowEdge 8202 (8192 + 1)
      · rw [hnone]
        decide
      · rw [hbest']
        have := hoccurs'.le
        simp only
        omega
    rw [tokenAt_of_some hbest hoccurs hnext]
    rfl

end WindowEdge

/-- The copy of the second ten bytes is read as the end marker. -/
theorem not_roundTrips_windowEdge :
    ¬ RoundTrips (fun _ => 0) (fun _ => 0) 0 windowEdge 8202 := by
  intro h
  have hmem := WindowEdge.reaches_window.mem (by decide) (by decide)
  rw [WindowEdge.tokenAt_window] at hmem
  exact edgeFree_of_roundTrips _ _ _ (by decide) (by decide) h _ hmem rfl

end Sylverant.Prs
