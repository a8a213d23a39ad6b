/-
# Walking over the chunks of a quest

What the copy loop comes to is said without its buffers: at each chunk, the .dat bytes
that the chunks before it hold. A round of the loop goes on to the next chunk or ends with
one of three outcomes, and which one it is depends on the file alone.
-/

import Sylverant.Ship.QuestFiles

namespace Sylverant.Ship.QuestFiles

open Bounded (Buf)

variable {sz dsz : Nat} {L : ChunkLayout} {buf : Buf UInt8 sz} {p : Nat}
  {out piece : List UInt8} {s s' : Walk dsz} {r r' : Outcome}

/-! ## Chunks -/

/-- The chunk does not end behind the end of the file. -/
def Whole (L : ChunkLayout) (sz p : Nat) : Prop := p + L.lengthAt + 4 ≤ sz

/-- A chunk that passes the checks, with the bytes of the .dat file in it. There are none in a
chunk of another file. -/
inductive Reads (L : ChunkLayout) (buf : Buf UInt8 sz) (p : Nat) : List UInt8 → Prop
  | other {fn cptr : List UInt8} {clen : Nat} (hvalid : validHeader L buf p = some true)
      (hvitals : vitals L buf p = some (fn, clen)) (hext : strrchr dot fn = some cptr)
      (hsmall : clen ≤ 1024) (hother : cptr ≠ dotDat) : Reads L buf p []
  | dat {fn piece : List UInt8} (hvalid : validHeader L buf p = some true)
      (hvitals : vitals L buf p = some (fn, piece.length)) (hext : strrchr dot fn = some dotDat)
      (hsmall : piece.length ≤ 1024)
      (hdata : Bounded.read buf (p + L.dataAt) piece.length = some piece) : Reads L buf p piece

/-- A chunk that does not pass the checks. -/
def Damaged (L : ChunkLayout) (buf : Buf UInt8 sz) (p : Nat) : Prop :=
  validHeader L buf p = some false ∨
    validHeader L buf p = some true ∧
      ∃ fn clen, vitals L buf p = some (fn, clen) ∧ (strrchr dot fn = none ∨ 1024 < clen)

/-- The chunk is cut off, and what is left of its header is not wrong. -/
def Cut (L : ChunkLayout) (buf : Buf UInt8 sz) (p : Nat) : Prop :=
  ¬Whole L sz p ∧ validHeader L buf p ≠ some false

/-- The place of a chunk that is come to after chunks that pass the checks, and the .dat bytes in
these. Places are kept in 32 bits. -/
inductive ComesTo (L : ChunkLayout) (buf : Buf UInt8 sz) (dsz : Nat) : Nat → List UInt8 → Prop
  | first : ComesTo L buf dsz L.first []
  | next {p : Nat} {out piece : List UInt8} (hcomes : ComesTo L buf dsz p out) (hin : p < sz)
      (hreads : Reads L buf p piece) (hfits : out.length + piece.length ≤ dsz) :
      ComesTo L buf dsz ((p + L.stride) % 2 ^ 32) (out ++ piece)

/-- How the walk ends at a place. -/
inductive Ends (L : ChunkLayout) (buf : Buf UInt8 sz) (dsz p : Nat) (out : List UInt8) :
    Outcome → Prop
  | finished (hend : sz ≤ p) (hall : out.length = dsz) : Ends L buf dsz p out (.data out)
  | short (hend : sz ≤ p) (hfew : out.length ≠ dsz) : Ends L buf dsz p out .rejected
  | damaged (hin : p < sz) (hbad : Damaged L buf p) : Ends L buf dsz p out .rejected
  | tooMuch {piece : List UInt8} (hin : p < sz) (hreads : Reads L buf p piece)
      (hmuch : dsz < (out.length + piece.length) % 2 ^ 32) : Ends L buf dsz p out .rejected
  | overflow {piece : List UInt8} (hin : p < sz) (hreads : Reads L buf p piece)
      (hmuch : dsz < out.length + piece.length)
      (hwrap : (out.length + piece.length) % 2 ^ 32 ≤ dsz) : Ends L buf dsz p out .outside
  | cut (hin : p < sz) (hcut : Cut L buf p) : Ends L buf dsz p out .outside

/-! ## Reading inside the file -/

theorem number_inside (buf : Buf UInt8 sz) (pos size : Nat) (h : pos + size ≤ sz) :
    ∃ n, number buf pos size = some n := by
  obtain ⟨bytes, hread, -⟩ := Bounded.read_inside (b := buf) h
  exact ⟨littleEndian bytes, by rw [number, hread]; rfl⟩

theorem number_outside {pos size : Nat} (h : sz < pos + size) : number buf pos size = none := by
  rw [number, Bounded.read_outside h]
  rfl

theorem strncpy_inside (buf : Buf UInt8 sz) (pos n : Nat) (h : pos + n ≤ sz) :
    ∃ fn, strncpy buf pos n = some fn := by
  induction n generalizing pos with
  | zero => exact ⟨[], rfl⟩
  | succ n ih =>
      obtain ⟨c, rest, hdrop⟩ := Bounded.drop_of_lt (b := buf) (i := pos) (by omega)
      obtain ⟨fn, hrest⟩ := ih (pos + 1) (by omega)
      rw [strncpy, Bounded.load_cons hdrop]
      by_cases hzero : c = 0
      · exact ⟨[], if_pos hzero⟩
      · exact ⟨c :: fn, by simp only [if_neg hzero, hrest, Option.map_some]⟩

theorem validHeader_whole (buf : Buf UInt8 sz) (h : Whole L sz p) :
    ∃ ok, validHeader L buf p = some ok := by
  unfold Whole at h
  have htype := L.type_le
  have hlen := L.len_le
  obtain ⟨type, htype⟩ := number_inside buf (p + L.typeAt) L.typeSize (by omega)
  obtain ⟨len, hlen⟩ := number_inside buf (p + L.lenAt) 2 (by omega)
  rw [validHeader, htype, hlen]
  by_cases hwrong : type ≠ questChunkType
  · exact ⟨false, if_pos hwrong⟩
  · exact ⟨decide (len = L.pktLen), if_neg hwrong⟩

theorem vitals_whole (buf : Buf UInt8 sz) (h : Whole L sz p) :
    ∃ fn clen, vitals L buf p = some (fn, clen) := by
  unfold Whole at h
  have hname := L.name_le
  obtain ⟨fn, hfn⟩ := strncpy_inside buf (p + L.nameAt) 16 (by omega)
  obtain ⟨clen, hclen⟩ := number_inside buf (p + L.lengthAt) 4 (by omega)
  exact ⟨fn, clen, by rw [vitals, hfn, hclen]; rfl⟩

/-- The length is the last field, so that it is not read of a chunk that is cut off. -/
theorem vitals_cut (h : ¬Whole L sz p) : vitals L buf p = none := by
  unfold Whole at h
  rw [vitals]
  cases strncpy buf (p + L.nameAt) 16 with
  | none => rfl
  | some fn => rw [number_outside (by omega)]; rfl

theorem whole_of_vitals {fn : List UInt8} {clen : Nat} (h : vitals L buf p = some (fn, clen)) :
    Whole L sz p := by
  by_contra hcut
  rw [vitals_cut hcut] at h
  exact nomatch h

theorem Reads.whole (h : Reads L buf p piece) : Whole L sz p := by
  cases h with
  | other _ hvitals _ _ _ => exact whole_of_vitals hvitals
  | dat _ hvitals _ _ _ => exact whole_of_vitals hvitals

theorem Reads.small (h : Reads L buf p piece) : piece.length ≤ 1024 := by
  cases h with
  | other _ _ _ _ _ => exact Nat.zero_le _
  | dat _ _ _ hsmall _ => exact hsmall

/-- Every chunk is sound, damaged or cut. -/
theorem chunk_cases (L : ChunkLayout) (buf : Buf UInt8 sz) (p : Nat) :
    (∃ piece, Reads L buf p piece) ∨ Damaged L buf p ∨ Cut L buf p := by
  by_cases hwrong : validHeader L buf p = some false
  · exact .inr (.inl (.inl hwrong))
  by_cases hwhole : Whole L sz p
  · obtain ⟨ok, hok⟩ := validHeader_whole buf hwhole
    have hvalid : validHeader L buf p = some true := by
      cases ok with
      | true => exact hok
      | false => exact absurd hok hwrong
    obtain ⟨fn, clen, hvitals⟩ := vitals_whole buf hwhole
    cases hext : strrchr dot fn with
    | none => exact .inr (.inl (.inr ⟨hvalid, fn, clen, hvitals, .inl hext⟩))
    | some cptr =>
        by_cases hlong : 1024 < clen
        · exact .inr (.inl (.inr ⟨hvalid, fn, clen, hvitals, .inr hlong⟩))
        by_cases hdat : cptr = dotDat
        · subst hdat
          have hdata := L.data_le
          unfold Whole at hwhole
          obtain ⟨piece, hread, rfl⟩ := Bounded.read_inside (b := buf) (i := p + L.dataAt)
            (k := clen) (by omega)
          exact .inl ⟨piece, .dat hvalid hvitals hext (by omega) hread⟩
        · exact .inl ⟨[], .other hvalid hvitals hext (by omega) hdat⟩
  · exact .inr (.inr ⟨hwhole, hwrong⟩)

/-! ## Rounds of the loop -/

/-- The loop is at a place and has written these bytes. -/
structure Walk.At (s : Walk dsz) (p : Nat) (out : List UInt8) : Prop where
  place : s.ptr = p
  count : s.optr = out.length
  written : s.rbuf.val.take out.length = out
  fits : out.length ≤ dsz

/-- The loop goes on behind a sound chunk. -/
theorem round_reads (hsize : dsz < 2 ^ 32) (h : s.At p out) (hin : p < sz)
    (hreads : Reads L buf p piece) (hfits : out.length + piece.length ≤ dsz) :
    ∃ s', round L buf s = .ok s' ∧ s'.At ((p + L.stride) % 2 ^ 32) (out ++ piece) := by
  obtain ⟨rfl, hcount, hwritten, hold⟩ := h
  cases hreads with
  | other hvalid hvitals hext hsmall hother =>
      refine ⟨{ s with ptr := (s.ptr + L.stride) % 2 ^ 32 }, ?_, rfl, ?_, ?_, ?_⟩
      · rw [round, if_pos hin, hvalid]
        simp only [hvitals, hext, if_neg (Nat.not_lt_of_le hsmall), if_neg hother]
      · rw [List.append_nil]
        exact hcount
      · rw [List.append_nil]
        exact hwritten
      · rw [List.append_nil]
        exact hold
  | dat hvalid hvitals hext hsmall hdata =>
      have hmod : (s.optr + piece.length) % 2 ^ 32 = out.length + piece.length := by
        rw [hcount, Nat.mod_eq_of_lt (by omega)]
      obtain ⟨rbuf, hwrite, -⟩ := Bounded.write_inside (b := s.rbuf) (i := s.optr) (s := piece)
        (by omega)
      refine ⟨⟨(s.ptr + L.stride) % 2 ^ 32, (s.optr + piece.length) % 2 ^ 32, rbuf⟩, ?_, rfl,
        ?_, ?_, ?_⟩
      · rw [round, if_pos hin, hvalid]
        simp only [hvitals, hext, if_neg (Nat.not_lt_of_le hsmall), if_true]
        rw [copyChunk, if_neg (by omega), hdata, Option.bind_some, hwrite]
      · rw [List.length_append]
        exact hmod
      · rw [List.length_append, ← hcount, Bounded.take_write hwrite, hcount, hwritten]
      · rw [List.length_append]
        exact hfits

/-- The loop ends as it should. -/
theorem round_ends (h : s.At p out) (hends : Ends L buf dsz p out r) :
    round L buf s = .error r := by
  obtain ⟨rfl, hcount, hwritten, hold⟩ := h
  cases hends with
  | finished hend hall =>
      have hdata : s.rbuf.val = out := by
        rw [← hwritten, List.take_of_length_le (by rw [s.rbuf.property, hall])]
      rw [round, if_neg (Nat.not_lt_of_le hend), if_neg (by rw [hcount]; exact not_not.mpr hall),
        hdata]
  | short hend hfew =>
      rw [round, if_neg (Nat.not_lt_of_le hend), if_pos (by rw [hcount]; exact hfew)]
  | damaged hin hbad =>
      rw [round, if_pos hin]
      rcases hbad with hwrong | ⟨hvalid, fn, clen, hvitals, hbad⟩
      · rw [hwrong]
      · rw [hvalid]
        simp only [hvitals]
        rcases hbad with hnone | hlong
        · rw [hnone]
        · cases strrchr dot fn with
          | none => rfl
          | some cptr => exact if_pos hlong
  | tooMuch hin hreads hmuch =>
      cases hreads with
      | other _ _ _ _ _ =>
          have hmod := Nat.mod_le out.length (2 ^ 32)
          rw [List.length_nil, Nat.add_zero] at hmuch
          omega
      | dat hvalid hvitals hext hsmall _ =>
          rw [round, if_pos hin, hvalid]
          simp only [hvitals, hext, if_neg (Nat.not_lt_of_le hsmall), if_true]
          rw [copyChunk, hcount, if_pos hmuch]
  | overflow hin hreads hmuch hwrap =>
      cases hreads with
      | other _ _ _ _ _ =>
          rw [List.length_nil, Nat.add_zero] at hmuch
          omega
      | dat hvalid hvitals hext hsmall hdata =>
          rw [round, if_pos hin, hvalid]
          simp only [hvitals, hext, if_neg (Nat.not_lt_of_le hsmall), if_true]
          rw [copyChunk, hcount, if_neg (Nat.not_lt_of_le hwrap), hdata, Option.bind_some,
            Bounded.write_outside (by omega)]
  | cut hin hcut =>
      rw [round, if_pos hin]
      obtain ⟨hcut, hright⟩ := hcut
      cases hvalid : validHeader L buf s.ptr with
      | none => rfl
      | some ok =>
          cases ok with
          | true => simp only [vitals_cut hcut]
          | false => exact absurd hvalid hright

/-- At every place the walk ends, or there is a sound chunk that fits. -/
theorem ends_or_reads (L : ChunkLayout) (buf : Buf UInt8 sz) (dsz p : Nat) (out : List UInt8) :
    (∃ r, Ends L buf dsz p out r) ∨
      p < sz ∧ ∃ piece, Reads L buf p piece ∧ out.length + piece.length ≤ dsz := by
  by_cases hin : p < sz
  · obtain ⟨piece, hreads⟩ | hbad | hcut := chunk_cases L buf p
    · by_cases hfits : out.length + piece.length ≤ dsz
      · exact .inr ⟨hin, piece, hreads, hfits⟩
      · by_cases hwrap : (out.length + piece.length) % 2 ^ 32 ≤ dsz
        · exact .inl ⟨.outside, .overflow hin hreads (by omega) hwrap⟩
        · exact .inl ⟨.rejected, .tooMuch hin hreads (by omega)⟩
    · exact .inl ⟨.rejected, .damaged hin hbad⟩
    · exact .inl ⟨.outside, .cut hin hcut⟩
  · by_cases hall : out.length = dsz
    · exact .inl ⟨.data out, .finished (by omega) hall⟩
    · exact .inl ⟨.rejected, .short (by omega) hall⟩

/-- A round stops just when the walk ends. -/
theorem round_error_iff (hsize : dsz < 2 ^ 32) (h : s.At p out) :
    round L buf s = .error r ↔ Ends L buf dsz p out r := by
  refine ⟨fun hround => ?_, round_ends h⟩
  obtain ⟨r', hends⟩ | ⟨hin, piece, hreads, hfits⟩ := ends_or_reads L buf dsz p out
  · rw [round_ends h hends] at hround
    cases hround
    exact hends
  · obtain ⟨s', hok, -⟩ := round_reads hsize h hin hreads hfits
    rw [hok] at hround
    exact nomatch hround

/-! ## The whole walk -/

/-- Every state of the loop is at a place that the walk comes to. -/
theorem comesTo_of_comes (hsize : dsz < 2 ^ 32) {rbuf : Buf UInt8 dsz}
    (h : Loop.Comes (round L buf) ⟨L.first, 0, rbuf⟩ s) :
    ∃ p out, ComesTo L buf dsz p out ∧ s.At p out := by
  induction h with
  | refl => exact ⟨L.first, [], .first, rfl, rfl, rfl, Nat.zero_le dsz⟩
  | tail _ hround ih =>
      obtain ⟨p, out, hcomes, hat⟩ := ih
      obtain ⟨r, hends⟩ | ⟨hin, piece, hreads, hfits⟩ := ends_or_reads L buf dsz p out
      · rw [round_ends hat hends] at hround
        exact nomatch hround
      · obtain ⟨s', hok, hat'⟩ := round_reads hsize hat hin hreads hfits
        rw [hok] at hround
        cases hround
        exact ⟨_, _, .next hcomes hin hreads hfits, hat'⟩

/-- And the loop comes to every such place. -/
theorem ComesTo.comes (hsize : dsz < 2 ^ 32) (rbuf : Buf UInt8 dsz)
    (h : ComesTo L buf dsz p out) :
    ∃ s, Loop.Comes (round L buf) ⟨L.first, 0, rbuf⟩ s ∧ s.At p out := by
  induction h with
  | first => exact ⟨_, Relation.ReflTransGen.refl, rfl, rfl, rfl, Nat.zero_le dsz⟩
  | next _ hin hreads hfits ih =>
      obtain ⟨s, hcomes, hat⟩ := ih
      obtain ⟨s', hok, hat'⟩ := round_reads hsize hat hin hreads hfits
      exact ⟨s', hcomes.tail hok, hat'⟩

/-- The result of the loop is how the walk ends, whatever was in the buffer before. -/
theorem copyQstDat_iff (hsize : dsz < 2 ^ 32) (rbuf : Buf UInt8 dsz) :
    (∃ rounds, copyQstDat L buf rbuf rounds = some r) ↔
      ∃ p out, ComesTo L buf dsz p out ∧ Ends L buf dsz p out r := by
  refine Loop.stops_iff.trans ⟨?_, ?_⟩
  · rintro ⟨s, hcomes, hlast⟩
    obtain ⟨p, out, hcomes, hat⟩ := comesTo_of_comes hsize hcomes
    exact ⟨p, out, hcomes, (round_error_iff hsize hat).mp hlast⟩
  · rintro ⟨p, out, hcomes, hends⟩
    obtain ⟨s, hcomes, hat⟩ := hcomes.comes hsize rbuf
    exact ⟨s, hcomes, round_ends hat hends⟩

/-- The walk ends in one way at most. -/
theorem ends_unique (hsize : dsz < 2 ^ 32) {p' : Nat} {out' : List UInt8}
    (hcomes : ComesTo L buf dsz p out) (hends : Ends L buf dsz p out r)
    (hcomes' : ComesTo L buf dsz p' out') (hends' : Ends L buf dsz p' out' r') : r = r' := by
  obtain ⟨rounds, h⟩ := (copyQstDat_iff hsize (Bounded.full dsz 0)).mpr ⟨p, out, hcomes, hends⟩
  obtain ⟨rounds', h'⟩ :=
    (copyQstDat_iff hsize (Bounded.full dsz 0)).mpr ⟨p', out', hcomes', hends'⟩
  exact Loop.stops_unique h h'

/-! ## Walks that stay inside -/

/-- Every chunk that the walk comes to is whole, or what is there of its header is wrong. In a file
of more than 32 bits the places start again, so there the walk also has to come to something that
it rejects, and the bytes never to exceed both the buffer and 32 bits. -/
structure Sound (L : ChunkLayout) (buf : Buf UInt8 sz) (dsz : Nat) : Prop where
  whole : ∀ p out, ComesTo L buf dsz p out → p < sz →
    Whole L sz p ∨ validHeader L buf p = some false
  fits : 2 ^ 32 ≤ sz → ∀ p out piece, ComesTo L buf dsz p out → Reads L buf p piece →
    out.length + piece.length ≤ dsz ∨ dsz < (out.length + piece.length) % 2 ^ 32
  stops : 2 ^ 32 ≤ sz → ∃ p out, ComesTo L buf dsz p out ∧
    (Damaged L buf p ∨
      ∃ piece, Reads L buf p piece ∧ dsz < (out.length + piece.length) % 2 ^ 32)

theorem ComesTo.small (h : ComesTo L buf dsz p out) : p < 2 ^ 32 := by
  cases h with
  | first => exact L.first_lt
  | next _ _ _ _ => exact Nat.mod_lt _ (by decide)

/-- In a file of 32 bits the chunks follow one another. -/
theorem ComesTo.places (h : ComesTo L buf dsz p out) (hsmall : sz < 2 ^ 32) :
    ∃ k, p = L.first + k * L.stride ∧ out.length ≤ 1024 * k := by
  induction h with
  | first => exact ⟨0, by rw [Nat.zero_mul, Nat.add_zero], Nat.zero_le _⟩
  | @next p out piece _ hin hreads _ ih =>
      obtain ⟨k, rfl, hlength⟩ := ih
      have hwhole := hreads.whole
      have hpiece := hreads.small
      unfold Whole at hwhole
      have hnoWrap := L.noWrap k (by omega)
      refine ⟨k + 1, ?_, ?_⟩
      · rw [Nat.mod_eq_of_lt hnoWrap, Nat.succ_mul, Nat.add_assoc]
      · rw [List.length_append, Nat.mul_succ]
        omega

/-- A sound chunk is followed by a place further on, and does not exceed 32 bits. -/
theorem ComesTo.further (h : ComesTo L buf dsz p out) (hsmall : sz < 2 ^ 32)
    (hreads : Reads L buf p piece) :
    (p + L.stride) % 2 ^ 32 = p + L.stride ∧ out.length + piece.length < 2 ^ 32 := by
  obtain ⟨k, rfl, hlength⟩ := h.places hsmall
  have hwhole := hreads.whole
  have hpiece := hreads.small
  unfold Whole at hwhole
  have hnoWrap := L.noWrap k (by omega)
  have hmoves : k * 1024 ≤ k * L.stride := Nat.mul_le_mul_left k L.moves
  have hstride := L.moves
  exact ⟨Nat.mod_eq_of_lt hnoWrap, by omega⟩

/-- In a file of 32 bits the walk ends. -/
theorem walk_ends (L : ChunkLayout) (buf : Buf UInt8 sz) (hsize : dsz < 2 ^ 32)
    (hsmall : sz < 2 ^ 32) :
    ∃ p out r, ComesTo L buf dsz p out ∧ Ends L buf dsz p out r := by
  have hround : ∀ s s' : Walk dsz, (∃ p out, ComesTo L buf dsz p out ∧ s.At p out) →
      round L buf s = .ok s' →
      (∃ p out, ComesTo L buf dsz p out ∧ s'.At p out) ∧ sz - s'.ptr < sz - s.ptr := by
    rintro s s' ⟨p, out, hcomes, hat⟩ hround
    obtain ⟨r, hends⟩ | ⟨hin, piece, hreads, hfits⟩ := ends_or_reads L buf dsz p out
    · rw [round_ends hat hends] at hround
      exact nomatch hround
    · obtain ⟨s'', hok, hat'⟩ := round_reads hsize hat hin hreads hfits
      rw [hok] at hround
      cases hround
      refine ⟨⟨_, _, .next hcomes hin hreads hfits, hat'⟩, ?_⟩
      rw [hat'.place, hat.place, (hcomes.further hsmall hreads).1]
      have hstride := L.moves
      omega
  obtain ⟨rounds, r, hstops⟩ := Loop.stops_of_measure hround
    (a := ⟨L.first, 0, Bounded.full dsz 0⟩)
    ⟨L.first, [], .first, rfl, rfl, rfl, Nat.zero_le dsz⟩
  obtain ⟨p, out, hcomes, hends⟩ := (copyQstDat_iff hsize (Bounded.full dsz 0)).mp ⟨rounds, hstops⟩
  exact ⟨p, out, r, hcomes, hends⟩

/-- Nothing is passed on of a file of more than 32 bits. -/
theorem Ends.small (hcomes : ComesTo L buf dsz p out) {dat : List UInt8}
    (h : Ends L buf dsz p out (.data dat)) : sz < 2 ^ 32 := by
  have hplace := hcomes.small
  cases h with
  | finished hend _ => omega

/-- The condition is met exactly when the walk ends without leaving a buffer. -/
theorem sound_iff (L : ChunkLayout) (buf : Buf UInt8 sz) (hsize : dsz < 2 ^ 32) :
    Sound L buf dsz ↔
      ∃ p out r, ComesTo L buf dsz p out ∧ Ends L buf dsz p out r ∧ r ≠ .outside := by
  constructor
  · rintro ⟨hwhole, hfits, hstops⟩
    by_cases hsmall : sz < 2 ^ 32
    · obtain ⟨p, out, r, hcomes, hends⟩ := walk_ends L buf hsize hsmall
      refine ⟨p, out, r, hcomes, hends, ?_⟩
      rintro rfl
      cases hends with
      | overflow hin hreads hmuch hwrap =>
          have hsum := (hcomes.further hsmall hreads).2
          rw [Nat.mod_eq_of_lt hsum] at hwrap
          omega
      | cut hin hcut =>
          rcases hwhole p out hcomes hin with h | h
          · exact hcut.1 h
          · exact hcut.2 h
    · obtain ⟨p, out, hcomes, hbad | ⟨piece, hreads, hmuch⟩⟩ := hstops (by omega)
      · have hplace := hcomes.small
        exact ⟨p, out, .rejected, hcomes, .damaged (by omega) hbad, nofun⟩
      · have hplace := hcomes.small
        exact ⟨p, out, .rejected, hcomes, .tooMuch (by omega) hreads hmuch, nofun⟩
  · rintro ⟨p, out, r, hcomes, hends, hinside⟩
    refine ⟨fun q out' hq hin => ?_, fun hlarge q out' piece hq hreads => ?_, fun hlarge => ?_⟩
    · by_contra hneither
      rw [not_or] at hneither
      exact hinside (ends_unique hsize hcomes hends hq (.cut hin hneither))
    · by_contra hneither
      rw [not_or, Nat.not_le, Nat.not_lt] at hneither
      have hplace := hq.small
      exact hinside (ends_unique hsize hcomes hends hq
        (.overflow (by omega) hreads hneither.1 hneither.2))
    · have hplace := hcomes.small
      refine ⟨p, out, hcomes, ?_⟩
      cases hends with
      | finished hend _ => omega
      | short hend _ => omega
      | damaged _ hbad => exact .inl hbad
      | tooMuch _ hreads hmuch => exact .inr ⟨_, hreads, hmuch⟩
      | overflow _ _ _ _ => exact absurd rfl hinside
      | cut _ _ => exact absurd rfl hinside

end Sylverant.Ship.QuestFiles
