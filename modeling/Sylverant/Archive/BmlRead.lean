/-
# Listing and decompressing BML archives

Decompressing an archive reads its pieces in turn, each where the reader looks for it. Data
that can be decompressed is not empty and does not start with a zero, so an archive from which
everything can be decompressed has a byte other than zero at each of these positions.
-/

import Sylverant.Archive.BmlFormat

namespace Sylverant.Archive.Bml

open RandomAccess (Image Stream)
open Layout (endBy ChainAt)
open Prs (Stop prsDecompressBuf2 prsDecompressBuf2_zero malloc)

/-- The lines that are printed. -/
def lines : Nat → Nat → List BmlFile → List Line
  | _, _, [] => []
  | i, w, x :: xs =>
      ⟨i, x.name, x.main.data.length, x.main.usize, x.unk.toNat, w,
        x.pvm.map fun p => (p.data.length, p.usize, nextOffset w x.main.data.length)⟩ ::
      lines (i + 1) (endBy readerNext w x.datas) xs

/-- The pieces of an archive, each with its name. -/
def parts (files : List BmlFile) : List (List UInt8 × Piece) := files.flatMap BmlFile.parts

/-- The files that should be there after decompressing an archive. -/
def outputs (files : List BmlFile) : Written :=
  (parts files).map fun y => (y.1, ofList y.2.contents)

/-- Decompress pieces in turn. -/
def readParts (junk : Nat → UInt8) (f : Image) : Nat → List (List UInt8 × Piece) → Option Written
  | _, [] => some []
  | w, y :: ys =>
      match readAndDec junk ⟨f, w⟩ w y.2.data.length y.2.usize with
      | .error _ => none
      | .ok o => (readParts junk f (readerNext (w + y.2.data.length)) ys).map ((y.1, o) :: ·)

/-! ## Single pieces -/

section Pieces

variable {data contents : List UInt8} {usize w cs t : Nat} {f : Image}

/-- In two memories the contents would differ if they were taken from there. -/
theorem not_forall_malloc (h : ∀ junk, malloc junk usize = contents) : usize = 0 := by
  have hboth := (h fun _ => 0).trans (h fun _ => 1).symm
  cases usize with
  | zero => rfl
  | succ n =>
      rw [malloc, malloc, List.range_succ_eq_map, List.map_cons, List.map_cons] at hboth
      exact absurd (List.cons.inj hboth).1 (by decide)

/-- Data that can be decompressed is not empty and does not start with a zero. -/
theorem Unpacks.head (h : Unpacks data usize contents) : ∃ b bs, data = b :: bs ∧ b ≠ 0 := by
  -- otherwise nothing is written to the block, and an error is not the size 0
  have hrefuse : (∀ dst, ∃ rv, prsDecompressBuf2 data dst = (.error (.ret rv), dst)) → False := by
    intro hrefuse
    have hzero : usize = 0 := not_forall_malloc fun junk => by
      obtain ⟨rv, hrv⟩ := hrefuse (malloc junk usize)
      have hcontents := (h junk).2
      rwa [hrv] at hcontents
    have hrv := (h fun _ => 0).1
    rw [hzero, prsDecompressBuf2, if_pos (.inr (Prs.length_malloc _ _))] at hrv
    exact absurd hrv (by decide)
  cases data with
  | nil => exact (hrefuse fun dst => ⟨_, by rw [prsDecompressBuf2, if_pos (.inl rfl)]⟩).elim
  | cons b bs =>
      refine ⟨b, bs, rfl, ?_⟩
      rintro rfl
      exact hrefuse fun dst => prsDecompressBuf2_zero bs dst

/-- The contents have the size that is noted. -/
theorem readAndDec_of_at (junk : Nat → UInt8) (hat : f.At w data)
    (h : Unpacks data usize contents) :
    readAndDec junk ⟨f, t⟩ w data.length usize = .ok (ofList contents) := by
  have hget : (Stream.seek ⟨f, t⟩ w).get data.length = (data, ⟨f, w + data.length⟩) :=
    @Stream.get_of_at ⟨f, w⟩ data hat
  rw [readAndDec, hget]
  simp only [ne_eq, not_true_eq_false, if_false, (h junk).1, (h junk).2]

/-- Data that was decompressed is there. -/
theorem of_readAndDec
    (h : ∀ junk, readAndDec junk ⟨f, t⟩ w cs usize = .ok (ofList contents)) :
    ∃ data, data.length = cs ∧ f.At w data ∧ Unpacks data usize contents := by
  have hlen : (f.read w cs).length = cs := by
    by_contra hlen
    have hzero := h fun _ => 0
    simp [readAndDec, Stream.get, hlen] at hzero
  refine ⟨f.read w cs, hlen, Image.at_read _ _ _, fun junk => ?_⟩
  have hjunk := h junk
  simp only [readAndDec, Stream.get, Stream.seek, hlen, ne_eq, not_true_eq_false, if_false] at hjunk
  by_cases hsize : (returned (prsDecompressBuf2 (f.read w cs) (malloc junk usize)).1).map
      (· % 2 ^ 32) = some (usize : Int)
  · rw [if_neg (not_not.mpr hsize)] at hjunk
    exact ⟨hsize, ofList_inj (Except.ok.inj hjunk)⟩
  · rw [if_pos hsize] at hjunk
    cases hjunk

end Pieces

/-! ## Whole archives -/

section Archives

variable {f : Image} {files : List BmlFile} {x : BmlFile} {i w t : Nat} {d d' o : Written}
  {junk : Nat → UInt8} {ys zs : List (List UInt8 × Piece)}

theorem datas_eq : datas files = (parts files).map fun y => y.2.data := by
  rw [datas, parts, List.map_flatMap]
  rfl

theorem visit_printFileInfo (hsized : ∀ x ∈ files, x.Sized) {d : List Line} :
    visit printFileInfo f i w t files d = .ok (d ++ lines i w files) := by
  induction files generalizing i w t d with
  | nil => rw [visit, lines, List.append_nil]
  | cons x xs ih =>
      have hx := hsized x List.mem_cons_self
      have hpvm : (if x.entry.pvmCsize ≠ 0 then some (x.entry.pvmCsize, x.entry.pvmUsize,
          nextOffset w x.main.data.length) else none) =
          x.pvm.map fun p => (p.data.length, p.usize, nextOffset w x.main.data.length) := by
        cases hpvm : x.pvm with
        | none =>
            rw [BmlFile.pvmCsize_none hpvm, if_neg (not_not.mpr rfl)]
            rfl
        | some p =>
            rw [if_pos (hx.pvmCsize_ne hpvm), BmlFile.pvmCsize_some hpvm]
            simp only [BmlFile.entry, hpvm, Option.map_some, Option.getD_some]
      simp only [visit, printFileInfo, hpvm]
      rw [ih fun y hy => hsized y (List.mem_cons_of_mem _ hy), List.append_assoc]
      rfl

theorem map_lines : (lines i w files).map (fun l => (l.i, l.filename)) =
    (files.zipIdx i).map fun x => (x.2, x.1.name) := by
  induction files generalizing i w with
  | nil => rfl
  | cons x xs ih => rw [lines, List.map_cons, ih, List.zipIdx_cons, List.map_cons]

/-- Listing an archive shows the files of its table. -/
theorem Listed.listBml (h : Listed f files) :
    listBml f = .ok (lines 0 (hdrlen files.length) files) := by
  rw [Bml.listBml, h.scanBml, visit_printFileInfo h.sized, List.nil_append]

theorem readParts_append : readParts junk f w (ys ++ zs) =
    (readParts junk f w ys).bind fun o =>
      (readParts junk f (endBy readerNext w (ys.map fun y => y.2.data)) zs).map (o ++ ·) := by
  induction ys generalizing w with
  | nil =>
      rw [List.nil_append, readParts, Option.bind_some, List.map_nil, endBy]
      exact Option.map_id'.symm
  | cons y ys ih =>
      rw [List.cons_append, readParts, readParts]
      cases readAndDec junk ⟨f, w⟩ w y.2.data.length y.2.usize with
      | error rv => rfl
      | ok o =>
          simp only [ih, List.map_cons, endBy]
          cases readParts junk f (readerNext (w + y.2.data.length)) ys with
          | none => rfl
          | some os =>
              simp only [Option.map_some, Option.bind_some, Option.map_map]
              rfl

theorem length_readParts (h : readParts junk f w ys = some o) : o.length = ys.length := by
  induction ys generalizing w o with
  | nil => rw [← Option.some.inj h, List.length_nil, List.length_nil]
  | cons y ys ih =>
      rw [readParts] at h
      cases hdec : readAndDec junk ⟨f, w⟩ w y.2.data.length y.2.usize with
      | error rv =>
          rw [hdec] at h
          cases h
      | ok o' =>
          rw [hdec] at h
          obtain ⟨os, hos, rfl⟩ := Option.map_eq_some_iff.mp h
          rw [List.length_cons, List.length_cons, ih hos]

/-- What decompressing one file does. -/
theorem decompressFile_eq (hsized : x.Sized) :
    (∃ rv, decompressFile junk none ⟨f, t⟩ x.entry i w (nextOffset w x.main.data.length) d =
        .error rv ∧ readParts junk f w x.parts = none) ∨
      ∃ o, decompressFile junk none ⟨f, t⟩ x.entry i w (nextOffset w x.main.data.length) d =
        .ok (d ++ o) ∧ readParts junk f w x.parts = some o := by
  have hname : x.entry.name = x.name := rfl
  simp only [decompressFile, Option.any_none, Bool.false_eq_true, if_false, hname,
    BmlFile.parts, readParts]
  rw [show readAndDec junk ⟨f, t⟩ w x.entry.csize x.entry.usize =
    readAndDec junk ⟨f, w⟩ w x.main.data.length x.main.usize from rfl]
  cases hmain : readAndDec junk ⟨f, w⟩ w x.main.data.length x.main.usize with
  | error rv => exact .inl ⟨-1, rfl, rfl⟩
  | ok o =>
      cases hpvm : x.pvm with
      | none =>
          refine .inr ⟨[(x.name, o)], ?_, rfl⟩
          simp only [BmlFile.pvmCsize_none hpvm, ne_eq, not_true_eq_false, if_false]
      | some p =>
          have hsizes : x.entry.pvmCsize = p.data.length ∧ x.entry.pvmUsize = p.usize :=
            ⟨BmlFile.pvmCsize_some hpvm, by simp only [BmlFile.entry, hpvm]; rfl⟩
          have hne : p.data.length ≠ 0 := hsizes.1 ▸ hsized.pvmCsize_ne hpvm
          simp only [hsizes.1, hsizes.2, if_pos hne]
          rw [show readAndDec junk ⟨f, t⟩ (nextOffset w x.main.data.length) p.data.length p.usize =
            readAndDec junk ⟨f, readerNext (w + x.main.data.length)⟩
              (readerNext (w + x.main.data.length)) p.data.length p.usize from rfl]
          simp only [Option.toList_some, List.map_cons, List.map_nil, readParts]
          cases readAndDec junk ⟨f, readerNext (w + x.main.data.length)⟩
              (readerNext (w + x.main.data.length)) p.data.length p.usize with
          | error rv => exact .inl ⟨-2, rfl, rfl⟩
          | ok o' => exact .inr ⟨[(x.name, o), (x.name ++ pvmSuffix, o')], by simp, rfl⟩

/-- Decompressing the files of a table decompresses the pieces in turn. -/
theorem visit_decompressFile (hsized : ∀ x ∈ files, x.Sized) :
    visit (decompressFile junk none) f i w t files d = .ok d' ↔
      ∃ o, readParts junk f w (parts files) = some o ∧ d' = d ++ o := by
  induction files generalizing i w t d with
  | nil =>
      rw [visit, parts, List.flatMap_nil, readParts]
      constructor
      · intro h
        exact ⟨[], rfl, by rw [List.append_nil, Except.ok.inj h]⟩
      · rintro ⟨o, ho, rfl⟩
        rw [← Option.some.inj ho, List.append_nil]
  | cons x xs ih =>
      have hrest := fun w t i d => @ih i w t d fun y hy => hsized y (List.mem_cons_of_mem _ hy)
      rw [visit, parts, List.flatMap_cons, readParts_append]
      obtain ⟨rv, hrun, hparts⟩ | ⟨o, hrun, hparts⟩ :=
        @decompressFile_eq f x i w (t + 64) d junk (hsized x List.mem_cons_self)
      · simp only [hrun, hparts, Option.bind_none, reduceCtorEq, false_and, exists_false]
      · simp only [hrun, hparts, Option.bind_some]
        rw [hrest]
        constructor
        · rintro ⟨os, hos, rfl⟩
          refine ⟨o ++ os, ?_, List.append_assoc _ _ _⟩
          have hos' : readParts junk f (endBy readerNext w (x.parts.map fun y => y.2.data))
            (xs.flatMap BmlFile.parts) = some os := hos
          rw [hos', Option.map_some]
        · rintro ⟨all, hall, rfl⟩
          obtain ⟨os, hos, rfl⟩ := Option.map_eq_some_iff.mp hall
          exact ⟨os, hos, (List.append_assoc _ _ _).symm⟩

/-- Decompressing an archive. -/
theorem Listed.decompressBml (h : Listed f files) :
    decompressBml junk none f = .ok o ↔
      readParts junk f (hdrlen files.length) (parts files) = some o := by
  rw [Bml.decompressBml, h.scanBml, visit_decompressFile h.sized]
  constructor
  · rintro ⟨o', ho', rfl⟩
    exact ho'
  · exact fun ho => ⟨o, ho, (List.nil_append o).symm⟩

/-- Pieces that are there are decompressed. -/
theorem readParts_of_chain (hchain : ChainAt readerNext f w (ys.map fun y => y.2.data))
    (hunpacks : ∀ y ∈ ys, Unpacks y.2.data y.2.usize y.2.contents) :
    readParts junk f w ys = some (ys.map fun y => (y.1, ofList y.2.contents)) := by
  induction ys generalizing w with
  | nil => rfl
  | cons y ys ih =>
      have hfirst := readAndDec_of_at (t := w) junk hchain.1 (hunpacks y List.mem_cons_self)
      rw [readParts, hfirst]
      simp only
      rw [ih hchain.2 fun z hz => hunpacks z (List.mem_cons_of_mem _ hz)]
      rfl

/-- Where pieces were decompressed there is data for each of them. -/
theorem of_readParts
    (h : ∀ junk, readParts junk f w ys = some (ys.map fun y => (y.1, ofList y.2.contents)))
    {as bs : List (List UInt8 × Piece)} {y : List UInt8 × Piece} (hys : ys = as ++ y :: bs) :
    ∃ data, data.length = y.2.data.length ∧
      f.At (endBy readerNext w (as.map fun z => z.2.data)) data ∧
      Unpacks data y.2.usize y.2.contents := by
  subst hys
  refine of_readAndDec (t := endBy readerNext w (as.map fun z => z.2.data)) fun junk => ?_
  have hread := h junk
  rw [readParts_append, List.map_append] at hread
  obtain ⟨o, ho, hrest⟩ := Option.bind_eq_some_iff.mp hread
  obtain ⟨os, hos, heq⟩ := Option.map_eq_some_iff.mp hrest
  rw [readParts] at hos
  cases hdec : readAndDec junk ⟨f, endBy readerNext w (as.map fun z => z.2.data)⟩
      (endBy readerNext w (as.map fun z => z.2.data)) y.2.data.length y.2.usize with
  | error rv =>
      rw [hdec] at hos
      cases hos
  | ok o' =>
      rw [hdec] at hos
      obtain ⟨os, -, rfl⟩ := Option.map_eq_some_iff.mp hos
      have hlen : o.length = (as.map fun z => (z.1, ofList z.2.contents)).length := by
        rw [List.length_map]
        exact length_readParts ho
      obtain ⟨-, htail⟩ := List.append_inj heq hlen
      rw [List.map_cons] at htail
      rw [(Prod.mk.inj (List.cons.inj htail).1).2]

end Archives

/-- An archive is listed and decompressed as the files it holds. -/
theorem Holds.decompressBml {f : Image} {files : List BmlFile} (h : Holds f files)
    (junk : Nat → UInt8) : decompressBml junk none f = .ok (outputs files) := by
  rw [h.toListed.decompressBml]
  refine readParts_of_chain (by rw [← datas_eq]; exact h.chain) fun y hy => ?_
  obtain ⟨x, hx, hy⟩ := List.mem_flatMap.mp hy
  exact h.unpacks x hx y hy

end Sylverant.Archive.Bml
