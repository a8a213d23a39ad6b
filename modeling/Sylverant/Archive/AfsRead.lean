/-
# Listing and extracting AFS archives

Listing an archive prints its table, and extracting it saves the contents of every file
under a name with the file's number. The other way round, an extraction that succeeds has
found every byte it saved where the table says.
-/

import Sylverant.Archive.AfsFormat

namespace Sylverant.Archive.Afs

open RandomAccess (Image Stream)
open Layout (Region Occupies Apart)

/-- The lines that are printed for a table. -/
def listing (es : List Region) : List (Nat × Region) := es.zipIdx.map Prod.swap

/-- The files that are extracted, numbered by position. -/
def extracted (fn : String) (cs : List (List UInt8)) : Directory String :=
  cs.zipIdx.map fun (c, i) => (extractName fn cs.length i, ofList c)

/-- No data overlaps other data or the table. -/
structure NoOverlap (es : List Region) : Prop where
  apart : es.Pairwise Apart
  table : ∀ e ∈ es, e.size ≠ 0 → 8 + 8 * es.length ≤ e.offset

/-- Reading the archive gives files with these contents. -/
structure ReadsAs (f : Image) (cs : List (List UInt8)) : Prop where
  printed : ∃ es, printAfsFiles f = .ok ((cs.length : Int), listing es) ∧
    es.map Region.size = cs.map List.length ∧ NoOverlap es
  extracted : ∀ fn, extractAfs fn f = .ok ((cs.length : Int), extracted fn cs)

section Names

variable {fn : String} {cnt i j : Nat}

/-- The number can be read off the name. -/
theorem extractName_inj (h : extractName fn cnt i = extractName fn cnt j) : i = j := by
  have hpad := (String.append_right_inj _).mp ((String.append_left_inj _).mp h)
  have hdigits : ∀ n, Nat.ofDigitChars 10 ((Nat.toDigits 10 n).leftpad (digits cnt) '0') 0 = n := by
    intro n
    rw [List.leftpad, Nat.ofDigitChars_append, Nat.ofDigitChars_replicate_zero, Nat.mul_zero,
      Nat.ofDigitChars_ten_toDigits]
  rw [← hdigits i, ← hdigits j, String.ofList_injective hpad]

theorem extracted_inj {as bs : List (List UInt8)} (h : extracted fn as = extracted fn bs) :
    as = bs := by
  have hmap : ∀ cs, (extracted fn cs).map Prod.snd = cs.map ofList := by
    intro cs
    rw [extracted, List.map_map]
    exact (List.map_map (l := cs.zipIdx) (g := ofList) (f := Prod.fst)).symm.trans
      (by rw [List.zipIdx_map_fst])
  have hsame : as.map ofList = bs.map ofList := by rw [← hmap as, ← hmap bs, h]
  exact List.map_injective_iff.mpr (fun _ _ => ofList_inj) hsame

end Names

section Reading

variable {f : Image} {es : List Region} {cs : List (List UInt8)} {cnt i : Nat} {fn : String}

theorem visit_printFileInfo {d : List (Nat × Region)} (h : ∀ e ∈ es, e.offset < 2 ^ 32) :
    visit printFileInfo f cnt i es d = .ok (d ++ (es.zipIdx i).map Prod.swap) := by
  induction es generalizing i d with
  | nil => rw [visit, List.zipIdx_nil, List.map_nil, List.append_nil]
  | cons e es ih =>
      have hmod : e.offset % 2 ^ 32 = e.offset := Nat.mod_eq_of_lt (h e List.mem_cons_self)
      have hrest := fun d' => @ih (i + 1) d' fun x hx => h x (List.mem_cons_of_mem _ hx)
      simp only [visit, printFileInfo, hmod]
      rw [hrest, List.append_assoc]
      rfl

theorem printAfsFiles_eq (h : HasTable f es) :
    printAfsFiles f = .ok ((es.length : Int), listing es) := by
  rw [printAfsFiles, scanAfs_eq h, visit_printFileInfo h.offset_lt]
  rfl

theorem visit_extractFile {d : Directory String} (h : List.Forall₂ (Occupies f) es cs)
    (hd : ∀ x ∈ d, ∃ j < i, x.1 = extractName fn cnt j) :
    visit (extractFile fn) f cnt i es d =
      .ok (d ++ (cs.zipIdx i).map fun (c, j) => (extractName fn cnt j, ofList c)) := by
  induction h generalizing i d with
  | nil => rw [visit, List.zipIdx_nil, List.map_nil, List.append_nil]
  | @cons e c es cs hdata _ ih =>
      obtain ⟨hsize, hat⟩ := hdata
      have hcopy := @copyFile_eq ⟨Image.empty, 0⟩ ⟨f, e.offset⟩ c hat
      have hnew : ∀ x ∈ d, x.1 ≠ extractName fn cnt i := by
        intro x hx hname
        obtain ⟨j, hj, hxj⟩ := hd x hx
        have heq := extractName_inj (hxj.symm.trans hname)
        omega
      have hsave := Directory.save_of_new hnew (ofList c)
      have hrest := @ih (i + 1) (d ++ [(extractName fn cnt i, ofList c)]) fun x hx => by
        obtain hx | hx := List.mem_append.mp hx
        · obtain ⟨j, hj, hxj⟩ := hd x hx
          exact ⟨j, by omega, hxj⟩
        · rw [List.mem_singleton.mp hx]
          exact ⟨i, by omega, rfl⟩
      rw [visit, extractFile, hsize, hcopy]
      simp only [Stream.put_image]
      rw [show Image.empty.write 0 c = ofList c from rfl, hsave, hrest, List.append_assoc]
      rfl

/-- Extracting an archive saves the contents of its files. -/
theorem extractAfs_eq (htable : HasTable f es) (h : List.Forall₂ (Occupies f) es cs) :
    extractAfs fn f = .ok ((cs.length : Int), extracted fn cs) := by
  have hvisit := @visit_extractFile f es cs es.length 0 fn [] h fun _ hx => (nomatch hx)
  rw [extractAfs, scanAfs_eq htable, hvisit, h.length_eq]
  rfl

/-- An extraction that succeeds has found data for each entry. -/
theorem exists_of_visit_extractFile {d d' : Directory String}
    (h : visit (extractFile fn) f cnt i es d = .ok d') :
    ∃ cs, List.Forall₂ (Occupies f) es cs := by
  induction es generalizing i d with
  | nil => exact ⟨[], .nil⟩
  | cons e es ih =>
      rw [visit, extractFile] at h
      obtain hcopy | ⟨ofp, hcopy⟩ : (∃ rv, copyFile ⟨Image.empty, 0⟩ ⟨f, e.offset⟩ e.size =
          .error rv) ∨ ∃ ofp, copyFile ⟨Image.empty, 0⟩ ⟨f, e.offset⟩ e.size = .ok ofp := by
        cases copyFile ⟨Image.empty, 0⟩ ⟨f, e.offset⟩ e.size with
        | error rv => exact .inl ⟨rv, rfl⟩
        | ok ofp => exact .inr ⟨ofp, rfl⟩
      · obtain ⟨rv, hcopy⟩ := hcopy
        rw [hcopy] at h
        cases h
      · obtain ⟨bs, hlen, hat, -⟩ := exists_of_copyFile hcopy
        rw [hcopy] at h
        obtain ⟨cs, hcs⟩ := ih h
        exact ⟨bs :: cs, .cons ⟨hlen.symm, hat⟩ hcs⟩

/-- What is extracted stands where the table says. -/
theorem occupies_of_extractAfs (htable : HasTable f es) {n : Int}
    (h : extractAfs fn f = .ok (n, extracted fn cs)) : List.Forall₂ (Occupies f) es cs := by
  have hvisit : ∃ d, visit (extractFile fn) f es.length 0 es [] = .ok d := by
    rw [extractAfs, scanAfs_eq htable] at h
    cases hd : visit (extractFile fn) f es.length 0 es [] with
    | error rv =>
        rw [hd] at h
        cases h
    | ok d => exact ⟨d, rfl⟩
  obtain ⟨d, hd⟩ := hvisit
  obtain ⟨cs', hcs'⟩ := exists_of_visit_extractFile hd
  have hsame : extracted fn cs' = extracted fn cs := by
    have hok := (extractAfs_eq htable hcs').symm.trans h
    exact (Prod.mk.inj (Except.ok.inj hok)).2
  rwa [← extracted_inj hsame]

end Reading

end Sylverant.Archive.Afs
