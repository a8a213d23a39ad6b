/-
# Extracting files from BML archives

All the files of an archive are extracted, or those with a name that is given, as they are
stored or decompressed. Decompressing reads each piece with the size that is noted for it.
Copying reads the data of a PVM with the size of the file that it is attached to, and what is
written is as long as that.
-/

import Sylverant.Archive.BmlUpdate

namespace Sylverant.Archive.Bml

open RandomAccess (Image Stream)
open Layout (endBy ChainAt)

/-- The files that are extracted: all of them, or those with a name. -/
def selected (only : Option (List UInt8)) (files : List BmlFile) : List BmlFile :=
  files.filter fun x => !only.any (· ≠ x.name)

/-- The files that should be there after copying the pieces of an archive. -/
def stored (files : List BmlFile) : Written :=
  (parts files).map fun y => (y.1 ++ prsSuffix, ofList y.2.data)

/-- Extracting files without decompressing them writes the pieces of the archive, and
decompressing them writes what was compressed in these pieces. -/
def Extracts (only : Option (List UInt8)) (f : Image) (files : List BmlFile) : Prop :=
  extractBml only f = .ok (stored (selected only files)) ∧
    ∀ junk, decompressBml junk only f = .ok (outputs (selected only files))

/-- The data of a PVM is as long as that of its file. -/
def BmlFile.Even (x : BmlFile) : Prop := ∀ p ∈ x.pvm, p.data.length = x.main.data.length

/-! ## Single files -/

section Files

variable {only : Option (List UInt8)} {f : Image} {x : BmlFile} {xs : List BmlFile}
  {i w t poffset : Nat} {d : Written}

theorem selected_cons_of_pos (h : only.any (· ≠ x.name) = false) :
    selected only (x :: xs) = x :: selected only xs :=
  List.filter_cons_of_pos (by rw [h]; rfl)

theorem selected_cons_of_neg (h : only.any (· ≠ x.name) = true) :
    selected only (x :: xs) = selected only xs :=
  List.filter_cons_of_neg (by rw [h]; decide)

theorem stored_cons : stored (x :: xs) = stored [x] ++ stored xs := by
  rw [stored, stored, stored, parts, parts, parts, List.flatMap_cons, List.flatMap_cons,
    List.flatMap_nil, List.append_nil, List.map_append]

theorem outputs_cons : outputs (x :: xs) = outputs [x] ++ outputs xs := by
  rw [outputs, outputs, outputs, parts, parts, parts, List.flatMap_cons, List.flatMap_cons,
    List.flatMap_nil, List.append_nil, List.map_append]

theorem extractFile_skipped (h : only.any (· ≠ x.name) = true) (fp : Stream) :
    extractFile only fp x.entry i w poffset d = .ok d :=
  if_pos h

theorem decompressFile_skipped {junk : Nat → UInt8} (h : only.any (· ≠ x.name) = true)
    (fp : Stream) : decompressFile junk only fp x.entry i w poffset d = .ok d :=
  if_pos h

/-- Copying a file that is extracted succeeds where there is enough data for its PVM, and writes
the pieces of the archive exactly where the PVM is as long as the file. -/
theorem extractFile_spec (hsel : only.any (· ≠ x.name) = false) (hsized : x.Sized)
    (hchain : ChainAt readerNext f w x.datas) (t i : Nat) (d : Written) :
    (¬ x.Even ∧ ∃ rv, extractFile only ⟨f, t⟩ x.entry i w (nextOffset w x.main.data.length) d =
        .error rv) ∨
      ∃ o, extractFile only ⟨f, t⟩ x.entry i w (nextOffset w x.main.data.length) d =
          .ok (d ++ o) ∧ o.length = (stored [x]).length ∧ (o = stored [x] ↔ x.Even) := by
  have hname : x.entry.name = x.name := rfl
  have hcopy : copyFile ⟨Image.empty, 0⟩ ((Stream.mk f t).seek w) x.entry.csize =
      .ok ((Stream.mk Image.empty 0).put x.main.data, ⟨f, w + x.main.data.length⟩) :=
    @copyFile_eq ⟨Image.empty, 0⟩ ⟨f, w⟩ x.main.data hchain.1
  simp only [extractFile, hname, hsel, Bool.false_eq_true, if_false, hcopy]
  cases hpvm : x.pvm with
  | none =>
      have hstored : stored [x] = [(x.name ++ prsSuffix, ofList x.main.data)] := by
        simp only [stored, parts, List.flatMap_cons, List.flatMap_nil, BmlFile.parts, hpvm]
        rfl
      have heven : x.Even := fun p hp => by rw [hpvm] at hp; cases hp
      rw [BmlFile.pvmCsize_none hpvm, if_neg (not_not.mpr rfl)]
      exact .inr ⟨stored [x], by rw [hstored]; rfl, rfl, iff_of_true rfl heven⟩
  | some p =>
      rw [BmlFile.datas_some hpvm] at hchain
      have hstored : stored [x] = [(x.name ++ prsSuffix, ofList x.main.data),
          (x.name ++ pvmSuffix ++ prsSuffix, ofList p.data)] := by
        simp only [stored, parts, List.flatMap_cons, List.flatMap_nil, BmlFile.parts, hpvm]
        rfl
      have heven : x.Even ↔ p.data.length = x.main.data.length := by
        rw [BmlFile.Even, hpvm]
        exact ⟨fun h => h p rfl, fun h q hq => Option.some.inj hq ▸ h⟩
      rw [if_pos (hsized.pvmCsize_ne hpvm), heven]
      cases hpcopy : copyFile ⟨Image.empty, 0⟩
          ((Stream.mk f t).seek (nextOffset w x.main.data.length)) x.entry.csize with
      | error rv =>
          refine .inl ⟨fun hlen => ?_, -6, rfl⟩
          have hread := @copyFile_eq ⟨Image.empty, 0⟩
            ((Stream.mk f t).seek (nextOffset w x.main.data.length)) p.data hchain.2.1
          rw [hlen] at hread
          cases hread.symm.trans hpcopy
      | ok out =>
          obtain ⟨bs, hlen, hat, hput⟩ := exists_of_copyFile hpcopy
          have himage : out.1.image = ofList bs := by rw [hput]; rfl
          refine .inr ⟨[(x.name ++ prsSuffix, ofList x.main.data),
            (x.name ++ pvmSuffix ++ prsSuffix, ofList bs)], ?_, by rw [hstored]; rfl, ?_⟩
          · simp only [himage, List.append_assoc]
            rfl
          · have hsame : bs = p.data ↔ p.data.length = x.main.data.length := by
              constructor
              · rintro rfl
                exact hlen
              · intro heq
                have hread := hat.read
                rw [hlen, show x.entry.csize = p.data.length from heq.symm] at hread
                exact hread.symm.trans (Image.At.read hchain.2.1)
            rw [hstored, ← hsame]
            simp only [List.cons.injEq, Prod.mk.injEq, true_and, and_true]
            exact ⟨ofList_inj, congrArg ofList⟩

/-- Decompressing a file that is extracted. -/
theorem decompressFile_selected {junk : Nat → UInt8} (hsel : only.any (· ≠ x.name) = false)
    (hsized : x.Sized) (hchain : ChainAt readerNext f w x.datas)
    (hunpacks : ∀ y ∈ x.parts, Unpacks y.2.data y.2.usize y.2.contents) (t i : Nat)
    (d : Written) :
    decompressFile junk only ⟨f, t⟩ x.entry i w (nextOffset w x.main.data.length) d =
      .ok (d ++ outputs [x]) := by
  have hread : readParts junk f w x.parts = some (outputs [x]) := by
    rw [outputs, parts, List.flatMap_cons, List.flatMap_nil, List.append_nil]
    exact readParts_of_chain hchain hunpacks
  have hall : decompressFile junk only ⟨f, t⟩ x.entry i w (nextOffset w x.main.data.length) d =
      decompressFile junk none ⟨f, t⟩ x.entry i w (nextOffset w x.main.data.length) d := by
    rw [decompressFile, decompressFile, show x.entry.name = x.name from rfl, hsel]
    rfl
  rw [hall]
  obtain ⟨rv, -, hnone⟩ | ⟨o, hrun, ho⟩ :=
    @decompressFile_eq f x i w t d junk hsized
  · rw [hread] at hnone
    cases hnone
  · rw [hread] at ho
    rw [hrun, Option.some.inj ho]

end Files

/-! ## Whole archives -/

section Archives

variable {only : Option (List UInt8)} {f : Image} {files : List BmlFile} {i w t : Nat}
  {d d' : Written}

/-- What was written stays. -/
theorem visit_extractFile_extends (hsized : ∀ x ∈ files, x.Sized)
    (hchain : ChainAt readerNext f w (datas files))
    (h : visit (extractFile only) f i w t files d = .ok d') : ∃ o, d' = d ++ o := by
  induction files generalizing i w t d with
  | nil => exact ⟨[], by rw [List.append_nil, Except.ok.inj h]⟩
  | cons x xs ih =>
      rw [datas, List.flatMap_cons, Layout.chainAt_append] at hchain
      have hrest := fun i t d h => @ih i (endBy readerNext w x.datas) t d
        (fun y hy => hsized y (List.mem_cons_of_mem _ hy)) hchain.2 h
      rw [visit] at h
      cases hsel : only.any (· ≠ x.name) with
      | true =>
          rw [extractFile_skipped hsel] at h
          exact hrest _ _ _ h
      | false =>
          obtain ⟨-, rv, hrun⟩ | ⟨o, hrun, -⟩ :=
            extractFile_spec hsel (hsized x List.mem_cons_self) hchain.1 (t + 64) i d
          · rw [hrun] at h
            cases h
          · rw [hrun] at h
            obtain ⟨os, rfl⟩ := hrest _ _ _ h
            exact ⟨o ++ os, List.append_assoc _ _ _⟩

/-- Copying the files that are extracted writes the pieces of the archive exactly where the
PVMs are as long as their files. -/
theorem visit_extractFile_iff (only : Option (List UInt8)) (d : Written)
    (hsized : ∀ x ∈ files, x.Sized)
    (hchain : ChainAt readerNext f w (datas files)) :
    visit (extractFile only) f i w t files d = .ok (d ++ stored (selected only files)) ↔
      ∀ x ∈ selected only files, x.Even := by
  induction files generalizing i w t d with
  | nil =>
      exact iff_of_true (congrArg Except.ok (List.append_nil d).symm) fun x hx => (nomatch hx)
  | cons x xs ih =>
      rw [datas, List.flatMap_cons, Layout.chainAt_append] at hchain
      have hsized' : ∀ y ∈ xs, y.Sized := fun y hy => hsized y (List.mem_cons_of_mem _ hy)
      have hrest := fun i t d => @ih i (endBy readerNext w x.datas) t d hsized' hchain.2
      rw [visit]
      cases hsel : only.any (· ≠ x.name) with
      | true =>
          rw [selected_cons_of_neg hsel, extractFile_skipped hsel]
          exact hrest _ _ _
      | false =>
          rw [selected_cons_of_pos hsel, List.forall_mem_cons, stored_cons]
          obtain ⟨huneven, rv, hrun⟩ | ⟨o, hrun, hlen, heven⟩ :=
            extractFile_spec hsel (hsized x List.mem_cons_self) hchain.1 (t + 64) i d
          · rw [hrun]
            exact iff_of_false (fun h => by cases h) fun h => huneven h.1
          · rw [hrun, ← List.append_assoc]
            dsimp only
            rw [← heven]
            constructor
            · intro hall
              -- what was written for the first file is what its pieces are, as it is as long
              obtain ⟨os, hos⟩ := visit_extractFile_extends hsized' hchain.2 hall
              rw [List.append_assoc, List.append_assoc] at hos
              obtain ⟨ho, -⟩ := List.append_inj (List.append_cancel_left hos) hlen.symm
              refine ⟨ho.symm, (hrest (i + 1) (t + 64) (d ++ o)).mp ?_⟩
              rw [hall, ho]
            · rintro ⟨rfl, hall⟩
              exact (hrest _ _ _).mpr hall

/-- Decompressing the files that are extracted. -/
theorem visit_decompressFile_selected {junk : Nat → UInt8} (hsized : ∀ x ∈ files, x.Sized)
    (hchain : ChainAt readerNext f w (datas files))
    (hunpacks : ∀ x ∈ files, ∀ y ∈ x.parts, Unpacks y.2.data y.2.usize y.2.contents) :
    visit (decompressFile junk only) f i w t files d =
      .ok (d ++ outputs (selected only files)) := by
  induction files generalizing i w t d with
  | nil => exact congrArg Except.ok (List.append_nil d).symm
  | cons x xs ih =>
      rw [datas, List.flatMap_cons, Layout.chainAt_append] at hchain
      have hrest := fun i t d => @ih i (endBy readerNext w x.datas) t d
        (fun y hy => hsized y (List.mem_cons_of_mem _ hy)) hchain.2
        (fun y hy => hunpacks y (List.mem_cons_of_mem _ hy))
      rw [visit]
      cases hsel : only.any (· ≠ x.name) with
      | true =>
          rw [selected_cons_of_neg hsel, decompressFile_skipped hsel]
          exact hrest _ _ _
      | false =>
          rw [selected_cons_of_pos hsel, outputs_cons,
            decompressFile_selected hsel (hsized x List.mem_cons_self) hchain.1
              (hunpacks x List.mem_cons_self)]
          dsimp only
          rw [hrest, List.append_assoc]

/-- Extracting from an archive writes the bytes that it stores for the files if and only if no
PVM has another size than the file that it is attached to. -/
theorem extracts_selected_iff (only : Option (List UInt8)) (h : Holds f files) :
    Extracts only f files ↔
      ∀ x ∈ selected only files, ∀ p ∈ x.pvm, p.data.length = x.main.data.length := by
  have hdecompress : ∀ junk, decompressBml junk only f = .ok (outputs (selected only files)) := by
    intro junk
    rw [decompressBml, h.toListed.scanBml,
      visit_decompressFile_selected h.sized h.chain h.unpacks, List.nil_append]
  rw [Extracts, and_iff_left hdecompress, extractBml, h.toListed.scanBml]
  exact visit_extractFile_iff only [] h.sized h.chain

/-- Extracting an archive without PVMs. The data of a PVM is not extracted as it is:
`extract_file` copies as many bytes of it as the file itself has. -/
theorem Holds.extractBml (h : Holds f files) (hpvm : ∀ x ∈ files, x.pvm = none) :
    extractBml none f = .ok (files.map fun x => (x.name ++ prsSuffix, ofList x.main.data)) := by
  have hall : selected none files = files := List.filter_eq_self.mpr fun x _ => rfl
  have hstored : stored files = files.map fun x => (x.name ++ prsSuffix, ofList x.main.data) := by
    rw [stored, parts, List.map_flatMap, List.map_eq_flatMap]
    refine List.flatMap_congr fun x hx => ?_
    rw [BmlFile.parts, hpvm x hx]
    rfl
  rw [← hstored, ← hall, Bml.extractBml, h.toListed.scanBml]
  refine (visit_extractFile_iff none [] h.sized h.chain).mpr fun x hx p hp => ?_
  rw [hpvm x (List.mem_filter.mp hx).1] at hp
  cases hp

end Archives

/-! ## An archive with a texture -/

namespace Textured

/-- Bytes that are packed one by one. -/
def packed (bs : List UInt8) : Piece :=
  let tokens := bs.map Prs.Token.literal
  ⟨Prs.serialise [] tokens, (Prs.expansion tokens).length, Prs.expansion tokens⟩

theorem filename_length : (0x61 :: zeros 31).length = 32 := rfl

theorem filename_ends : 0 ∈ 0x61 :: zeros 31 :=
  List.mem_cons_of_mem _ (List.mem_replicate.mpr ⟨by decide, rfl⟩)

theorem padding_length : (zeros 12).length = 12 := rfl

/-- A file of one byte with a PVM of two. -/
def model : BmlFile where
  filename := 0x61 :: zeros 31
  length_filename := filename_length
  terminated := filename_ends
  unk := 0
  padding := zeros 12
  length_padding := padding_length
  main := packed [65]
  pvm := some (packed [66, 67])
  spare := 0

/-- The archive, with the PVM at the multiple of 32 behind the file. -/
def archive : Image :=
  (((Image.empty.write 0 (magic 1)).write 64 model.entry.bytes).write 2048 model.main.data).write
    2080 (packed [66, 67]).data

theorem holds : Holds archive [model] := by
  have hsizes : model.main.data.length = 4 ∧ (packed [66, 67]).data.length = 5 := by decide
  refine ⟨⟨?_, ⟨?_, trivial⟩, by decide, ?_⟩, ⟨?_, ?_, trivial⟩, ?_⟩
  · refine ((Image.at_write.keep Image.keeps_write fun i hi => .inl ?_).keep Image.keeps_write
      fun i hi => .inl ?_).keep Image.keeps_write fun i hi => .inl ?_
    all_goals
      rw [length_magic] at hi
      omega
  · refine (Image.at_write.keep Image.keeps_write fun i hi => .inl ?_).keep Image.keeps_write
      fun i hi => .inl ?_
    all_goals
      rw [length_entry] at hi
      omega
  · intro x hx
    rw [List.mem_singleton.mp hx]
    have hpvm : ∀ p ∈ model.pvm, p = packed [66, 67] := fun p hp => (Option.some.inj hp).symm
    exact ⟨by decide, by decide, fun p hp => by rw [hpvm p hp]; decide,
      fun p hp => by rw [hpvm p hp]; decide, fun p hp => by rw [hpvm p hp]; decide⟩
  · refine Image.at_write.keep Image.keeps_write fun i hi => .inl ?_
    rw [hsizes.1] at hi
    have hdata : hdrlen [model].length = 2048 := by decide
    omega
  · exact Image.at_write
  · intro x hx y hy
    rw [List.mem_singleton.mp hx] at hy
    obtain rfl | hy := List.mem_cons.mp hy
    · exact unpacks_serialise ⟨by decide, by decide⟩ (by decide) (by decide)
    · rw [List.mem_singleton.mp hy]
      exact unpacks_serialise ⟨by decide, by decide⟩ (by decide) (by decide)

end Textured

theorem extracts_selected_iff_textured :
    Holds Textured.archive [Textured.model] ∧ (Extracts none Textured.archive [Textured.model] ↔
      ∀ x ∈ selected none [Textured.model], ∀ p ∈ x.pvm, p.data.length = x.main.data.length) :=
  ⟨Textured.holds, extracts_selected_iff none Textured.holds⟩

/-- Four of the five bytes of the PVM are written, as the file has four. -/
theorem not_extracts_textured : ¬ Extracts none Textured.archive [Textured.model] := by
  intro h
  have hrun := h.1
  rw [extractBml, Textured.holds.toListed.scanBml] at hrun
  have heven := (visit_extractFile_iff none [] Textured.holds.sized
    Textured.holds.chain).mp hrun Textured.model List.mem_cons_self (Textured.packed [66, 67]) rfl
  exact absurd heven (by decide)

end Sylverant.Archive.Bml
