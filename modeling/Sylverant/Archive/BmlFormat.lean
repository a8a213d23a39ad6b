/-
# The format of BML archives

The reader adds up the sizes in the table to find the data, so an archive is a table and a
chain of pieces. Scanning it calls back for each file with the positions of its pieces.
-/

import Sylverant.Archive.Bml
import Sylverant.Library.Chain
import Sylverant.Prs.FixedBuffer

namespace Sylverant.Archive.Bml

open RandomAccess (Image Stream)
open Layout (roundTo endBy ChainAt)
open Prs (prsDecompressBuf2 malloc)

/-- Data of an archive: compressed, with the size that is noted for it, and not. -/
structure Piece where
  data : List UInt8
  usize : Nat
  contents : List UInt8

/-- A file of an archive, with the PVM that may be attached to it. Without one, the record still
has room for its size, which nothing reads. -/
structure BmlFile where
  filename : List UInt8
  length_filename : filename.length = 32
  terminated : 0 ∈ filename
  unk : UInt32
  padding : List UInt8
  length_padding : padding.length = 12
  main : Piece
  pvm : Option Piece
  spare : UInt32

/-- Decompressing the data gives the contents, in whatever memory. -/
def Unpacks (data : List UInt8) (usize : Nat) (contents : List UInt8) : Prop :=
  ∀ junk, (returned (prsDecompressBuf2 data (malloc junk usize)).1).map (· % 2 ^ 32) =
      some (usize : Int) ∧
    (prsDecompressBuf2 data (malloc junk usize)).2 = contents

namespace BmlFile

/-- The name as a string. -/
def name (x : BmlFile) : List UInt8 := x.filename.takeWhile (· ≠ 0)

/-- The pieces of a file, each with the name under which its contents are extracted. -/
def parts (x : BmlFile) : List (List UInt8 × Piece) :=
  (x.name, x.main) :: x.pvm.toList.map fun p => (x.name ++ pvmSuffix, p)

/-- The data of the pieces. -/
def datas (x : BmlFile) : List (List UInt8) := x.parts.map fun y => y.2.data

/-- The entry of a file. -/
def entry (x : BmlFile) : BmlEntry where
  filename := x.filename
  csize := x.main.data.length
  unk := x.unk.toNat
  usize := x.main.usize
  pvmCsize := (x.pvm.map fun p => p.data.length).getD 0
  pvmUsize := (x.pvm.map Piece.usize).getD x.spare.toNat
  padding := x.padding

/-- The sizes fit into a record, and show whether there is a PVM. -/
structure Sized (x : BmlFile) : Prop where
  csize : x.main.data.length < 2 ^ 32
  usize : x.main.usize < 2 ^ 32
  pvmCsize : ∀ p ∈ x.pvm, p.data.length < 2 ^ 32
  pvmUsize : ∀ p ∈ x.pvm, p.usize < 2 ^ 32
  ne_nil : ∀ p ∈ x.pvm, p.data ≠ []

end BmlFile

/-- All the data of an archive. -/
def datas (files : List BmlFile) : List (List UInt8) := files.flatMap BmlFile.datas

/-- Where the reader looks for the next piece, when one ends at `n`. -/
def readerNext (n : Nat) : Nat := roundUp 0x1F 0x20 0xFFFFFFE0 (n % 2 ^ 32)

/-- The records of these files stand in the table, from this position on. -/
def RecordsAt (f : Image) : Nat → List BmlFile → Prop
  | _, [] => True
  | t, x :: xs => f.At t x.entry.bytes ∧ RecordsAt f (t + 64) xs

/-- The archive has a table with these files. -/
structure Listed (f : Image) (files : List BmlFile) : Prop where
  magic : f.At 0 (magic files.length)
  records : RecordsAt f 64 files
  count : files.length < 2 ^ 25
  sized : ∀ x ∈ files, x.Sized

/-- The archive holds these files: the reader finds all the data, and it can be decompressed. -/
structure Holds (f : Image) (files : List BmlFile) : Prop extends Listed f files where
  chain : ChainAt readerNext f (hdrlen files.length) (datas files)
  unpacks : ∀ x ∈ files, ∀ y ∈ x.parts, Unpacks y.2.data y.2.usize y.2.contents

/-- The callback for each entry in turn. -/
def visit {σ : Type} (p : Callback σ) (f : Image) :
    Nat → Nat → Nat → List BmlFile → σ → Except Int σ
  | _, _, _, [], d => .ok d
  | i, w, t, x :: xs, d =>
      match p ⟨f, t + 64⟩ x.entry i w (nextOffset w x.main.data.length) d with
      | .error rv => .error rv
      | .ok d => visit p f (i + 1) (endBy readerNext w x.datas) (t + 64) xs d

/-! ## Positions -/

section Rounding

variable {n size : Nat}

/-- Rounding up in 32 bits rounds up, when the result is less than `2 ^ 32`. -/
theorem roundUp_eq {k x : Nat} (hk : k < 32) (h : roundTo (2 ^ k) x < 2 ^ 32) :
    roundUp (2 ^ k - 1) (2 ^ k) (2 ^ 32 - 2 ^ k) x = roundTo (2 ^ k) x := by
  have hpos : 0 < 2 ^ k := Nat.two_pow_pos k
  rw [roundUp, Nat.and_two_pow_sub_one_eq_mod]
  split_ifs with hmod
  · -- the next multiple is less than `2 ^ 32`, so that adding does not overflow
    have hndvd : ¬ 2 ^ k ∣ x := fun hdvd => hmod (Nat.mod_eq_zero_of_dvd hdvd)
    have hlast : roundTo (2 ^ k) x ≤ 2 ^ 32 - 2 ^ k := by
      obtain ⟨m, hm⟩ := @Layout.dvd_roundTo (2 ^ k) x
      have hsplit : 2 ^ 32 = 2 ^ k * 2 ^ (32 - k) := by
        rw [← Nat.pow_add]
        congr 1
        omega
      rw [hm, hsplit] at h ⊢
      have hlt : m < 2 ^ (32 - k) := Nat.lt_of_mul_lt_mul_left h
      have hle := Nat.mul_le_mul_left (2 ^ k) (Nat.succ_le_of_lt hlt)
      rw [Nat.mul_succ] at hle
      omega
    have hlt : x < roundTo (2 ^ k) x := by
      refine Nat.lt_of_le_of_ne (Layout.le_roundTo hpos) fun heq => hndvd ?_
      rw [heq]
      exact Layout.dvd_roundTo
    have hle : 2 ^ k ≤ 2 ^ 32 := Nat.pow_le_pow_right (by decide) (by omega)
    rw [Nat.mod_eq_of_lt (by omega), and_highMask (by omega) (by omega),
      ← Layout.padTo_of_not_dvd hndvd, Layout.padTo, Nat.add_div_right _ hpos, Nat.succ_mul]
  · exact (Layout.roundTo_of_dvd (Nat.dvd_of_mod_eq_zero (not_not.mp hmod))).symm

theorem readerNext_eq (h : roundTo 32 n < 2 ^ 32) : readerNext n = roundTo 32 n := by
  have hlt : n < 2 ^ 32 := Nat.lt_of_le_of_lt (Layout.le_roundTo (by decide)) h
  rw [readerNext, Nat.mod_eq_of_lt hlt]
  exact @roundUp_eq 5 n (by decide) h

/-- The data starts at a multiple of 2048. -/
theorem hdrlen_eq (h : n < 2 ^ 25) : hdrlen n = roundTo 2048 ((n + 1) * 64) := by
  have hround : roundTo (2 ^ 11) ((n + 1) * 64) < 2 ^ 32 := by
    refine Nat.lt_of_le_of_lt (@Layout.roundTo_le (2 ^ 11) _ (2 ^ 31) ?_ ?_) (by decide)
    · exact Nat.pow_dvd_pow 2 (by decide)
    · omega
  rw [hdrlen, Nat.mod_eq_of_lt (by omega)]
  exact @roundUp_eq 11 _ (by decide) hround

theorem dvd_hdrlen (h : n < 2 ^ 25) : 32 ∣ hdrlen n := by
  rw [hdrlen_eq h]
  exact Nat.dvd_trans (by decide) Layout.dvd_roundTo

theorem table_le_hdrlen (h : n < 2 ^ 25) : 64 + 64 * n ≤ hdrlen n := by
  have hle := @Layout.le_roundTo 2048 ((n + 1) * 64) (by decide)
  rw [hdrlen_eq h]
  omega

/-- As long as the positions fit into 32 bits, the reader rounds up. -/
theorem endBy_readerNext {w : Nat} {ps : List (List UInt8)}
    (h : endBy (roundTo 32) w ps < 2 ^ 32) :
    endBy readerNext w ps = endBy (roundTo 32) w ps := by
  induction ps generalizing w with
  | nil => rfl
  | cons p ps ih =>
      have hfirst : roundTo 32 (w + p.length) < 2 ^ 32 :=
        Nat.lt_of_le_of_lt (Layout.le_endBy fun _ => Layout.le_roundTo (by decide)) h
      rw [endBy, endBy, readerNext_eq hfirst]
      exact ih h

end Rounding

/-! ## Records -/

section Records

variable {ent : BmlEntry} {x : BmlFile} {f : Image} {t : Nat} {xs : List BmlFile}

theorem length_bytes (hname : ent.filename.length = 32) (hpad : ent.padding.length = 12) :
    ent.bytes.length = 64 := by
  simp only [BmlEntry.bytes, List.length_append, length_le32, hname, hpad]

/-- An entry is read back as it was written. -/
theorem ofBytes_bytes (hname : ent.filename.length = 32) (hc : ent.csize < 2 ^ 32)
    (hunk : ent.unk < 2 ^ 32) (hu : ent.usize < 2 ^ 32) (hpc : ent.pvmCsize < 2 ^ 32)
    (hpu : ent.pvmUsize < 2 ^ 32) : BmlEntry.ofBytes ent.bytes = ent := by
  have hdrop : ∀ n, 32 ≤ n → ent.bytes.drop n =
      (le32 ent.csize ++ le32 ent.unk ++ le32 ent.usize ++ le32 ent.pvmCsize ++
        le32 ent.pvmUsize ++ ent.padding).drop (n - 32) := by
    intro n hn
    simp only [BmlEntry.bytes, List.append_assoc]
    rw [List.drop_append, hname, List.drop_of_length_le (by omega), List.nil_append]
  have htake : ent.bytes.take 32 = ent.filename := by
    simp only [BmlEntry.bytes, List.append_assoc]
    rw [← hname, List.take_left]
  simp only [BmlEntry.ofBytes, htake, hdrop 32 (by decide), hdrop 36 (by decide),
    hdrop 40 (by decide), hdrop 44 (by decide), hdrop 48 (by decide), hdrop 52 (by decide)]
  have hfields : ent = ⟨ent.filename, ofLe32 (le32 ent.csize), ofLe32 (le32 ent.unk),
      ofLe32 (le32 ent.usize), ofLe32 (le32 ent.pvmCsize), ofLe32 (le32 ent.pvmUsize),
      ent.padding⟩ := by
    rw [ofLe32_le32_of_lt hc, ofLe32_le32_of_lt hunk, ofLe32_le32_of_lt hu,
      ofLe32_le32_of_lt hpc, ofLe32_le32_of_lt hpu]
  exact hfields.symm

theorem length_entry : x.entry.bytes.length = 64 := length_bytes x.length_filename x.length_padding

theorem BmlFile.Sized.ofBytes_entry (h : x.Sized) : BmlEntry.ofBytes x.entry.bytes = x.entry := by
  refine ofBytes_bytes x.length_filename h.csize x.unk.toNat_lt h.usize ?_ ?_
  · simp only [BmlFile.entry]
    cases hpvm : x.pvm with
    | none => exact Nat.two_pow_pos 32
    | some p => exact h.pvmCsize p hpvm
  · simp only [BmlFile.entry]
    cases hpvm : x.pvm with
    | none => exact x.spare.toNat_lt
    | some p => exact h.pvmUsize p hpvm

theorem BmlFile.datas_none (h : x.pvm = none) : x.datas = [x.main.data] := by
  simp only [BmlFile.datas, BmlFile.parts, h, Option.toList_none, List.map_nil, List.map_cons]

theorem BmlFile.datas_some {p : Piece} (h : x.pvm = some p) :
    x.datas = [x.main.data, p.data] := by
  simp only [BmlFile.datas, BmlFile.parts, h, Option.toList_some, List.map_nil, List.map_cons]

theorem BmlFile.pvmCsize_none (h : x.pvm = none) : x.entry.pvmCsize = 0 := by
  simp only [BmlFile.entry, h, Option.map_none, Option.getD_none]

theorem BmlFile.pvmCsize_some {p : Piece} (h : x.pvm = some p) :
    x.entry.pvmCsize = p.data.length := by
  simp only [BmlFile.entry, h, Option.map_some, Option.getD_some]

theorem BmlFile.Sized.pvmCsize_ne {p : Piece} (h : x.Sized) (hpvm : x.pvm = some p) :
    x.entry.pvmCsize ≠ 0 := by
  rw [BmlFile.pvmCsize_some hpvm]
  exact fun hzero => h.ne_nil p hpvm (List.length_eq_zero_iff.mp hzero)

/-- The reader goes on behind the PVM if there is one. -/
theorem BmlFile.Sized.endBy_datas (h : x.Sized) (w : Nat) :
    (if x.entry.pvmCsize ≠ 0 then
        nextOffset (nextOffset w x.main.data.length) x.entry.pvmCsize
      else nextOffset w x.main.data.length) = endBy readerNext w x.datas := by
  cases hpvm : x.pvm with
  | none =>
      rw [BmlFile.datas_none hpvm, BmlFile.pvmCsize_none hpvm, if_neg (not_not.mpr rfl)]
      rfl
  | some p =>
      rw [if_pos (h.pvmCsize_ne hpvm), BmlFile.datas_some hpvm, BmlFile.pvmCsize_some hpvm]
      rfl

theorem RecordsAt.le_length (h : RecordsAt f t xs) (hne : xs ≠ []) :
    t + 64 * xs.length ≤ f.length := by
  induction xs generalizing t with
  | nil => exact absurd rfl hne
  | cons x xs ih =>
      have hfirst := h.1.le_length (List.length_pos_iff.mp (by rw [length_entry]; decide))
      rw [length_entry] at hfirst
      rw [List.length_cons]
      by_cases hrest : xs = []
      · rw [hrest, List.length_nil]
        omega
      · have hle := ih h.2 hrest
        omega

theorem length_magic (n : Nat) : (magic n).length = 12 := rfl

end Records

/-! ## Scanning -/

section Scanning

variable {σ : Type} {p : Callback σ} {f : Image} {files : List BmlFile} {i w t : Nat} {d : σ}

theorem openBml_eq (h : f.At 0 (magic files.length)) (hcount : files.length < 2 ^ 25) :
    openBml f = some (files.length, ⟨f, 64⟩) := by
  have hget : (Stream.mk f 0).get 12 = (magic files.length, ⟨f, 12⟩) := @Stream.get_of_at ⟨f, 0⟩ _ h
  have hlow : (magic files.length).take 4 = [0, 0, 0, 0] := rfl
  have hhigh : (magic files.length).drop 8 = [0x50, 0x01, 0, 0] := rfl
  have hnum : ((magic files.length).drop 4).take 4 = le32 files.length := rfl
  have hread : ofLe32 (le32 files.length) = files.length := ofLe32_le32_of_lt (by omega)
  rw [openBml, hget]
  simp only [length_magic, hlow, hhigh, hnum, hread, ne_eq, not_true_eq_false, or_self, if_false,
    Stream.seek]

/-- Scanning the records of a table. -/
theorem scanLoop_records (h : RecordsAt f t files) (hsized : ∀ x ∈ files, x.Sized) :
    scanLoop p files.length i w ⟨f, t⟩ d = visit p f i w t files d := by
  induction files generalizing i w t d with
  | nil => rfl
  | cons x xs ih =>
      have hx := hsized x List.mem_cons_self
      have hget : (Stream.mk f t).get 64 = (x.entry.bytes, ⟨f, t + 64⟩) := by
        have hread := @Stream.get_of_at ⟨f, t⟩ _ h.1
        rwa [length_entry] at hread
      have hcsize : x.entry.csize = x.main.data.length := rfl
      have hend := hx.endBy_datas w
      simp only [ne_eq] at hend
      rw [List.length_cons, scanLoop, hget, visit]
      simp only [length_entry, ne_eq, not_true_eq_false, if_false, hx.ofBytes_entry, hcsize, hend]
      cases p ⟨f, t + 64⟩ x.entry i w (nextOffset w x.main.data.length) d with
      | error rv => rfl
      | ok d => exact ih h.2 fun y hy => hsized y (List.mem_cons_of_mem _ hy)

/-- Scanning an archive calls back for each file in its table. -/
theorem Listed.scanBml (h : Listed f files) :
    scanBml f p d = visit p f 0 (hdrlen files.length) 64 files d := by
  rw [Bml.scanBml, openBml_eq h.magic h.count]
  exact scanLoop_records h.records h.sized

end Scanning

end Sylverant.Archive.Bml
