/-
# Listing and extracting GSL archives

The lines that are printed show how many records the reader has found, and an extraction
that succeeds has found data for each of them.
-/

import Sylverant.Archive.GslFormat

namespace Sylverant.Archive.Gsl

open RandomAccess (Image Stream)
open Layout (Region Occupies)

/-- Reading the archive gives these files, in this order. -/
structure ReadsAs (e : Endianness) (f : Image) (files : List (Name × List UInt8)) : Prop where
  printed : ∃ lines, printGslFiles e f = .ok (CInt.ofInt files.length, lines) ∧
    lines.map (fun x => (x.1, x.2.1, x.2.2.size)) =
      files.zipIdx.map fun x => (x.2, x.1.1.bytes, x.1.2.length)
  extracted : extractGsl e f =
    .ok (CInt.ofInt files.length, files.map fun x => (x.1.bytes, ofList x.2))

/-- The record leads to the file. -/
def Leads (f : Image) (x : Name × Region) (y : Name × List UInt8) : Prop :=
  x.1 = y.1 ∧ Occupies f x.2 y.2

theorem Name.bytes_inj {a b : Name} (h : a.bytes = b.bytes) : a = b := by
  cases a
  cases b
  simp only at h
  subst h
  rfl

section Reading

variable {f : Image} {e r : Endianness} {xs : List (Name × Region)}
  {files : List (Name × List UInt8)} {fp : Stream} {total rounds i j : Nat}

theorem visit_printFileInfo {d : List (Nat × List UInt8 × Region)} :
    visit printFileInfo f i xs d = .ok (d ++ (xs.zipIdx i).map fun x =>
      (x.2, x.1.1.bytes, ⟨x.1.2.offset % 2 ^ 32, x.1.2.size⟩)) := by
  induction xs generalizing i d with
  | nil => rw [visit, List.zipIdx_nil, List.map_nil, List.append_nil]
  | cons x xs ih =>
      simp only [visit, printFileInfo]
      rw [ih, List.append_assoc]
      rfl

theorem map_fst_of_leads (h : List.Forall₂ (Leads f) xs files) :
    xs.map Prod.fst = files.map Prod.fst := by
  induction h with
  | nil => rfl
  | cons hlead _ ih => rw [List.map_cons, List.map_cons, ih, hlead.1]

theorem lines_of_leads (h : List.Forall₂ (Leads f) xs files) :
    (xs.zipIdx i).map (fun x => (x.2, x.1.1.bytes, x.1.2.size)) =
      (files.zipIdx i).map fun x => (x.2, x.1.1.bytes, x.1.2.length) := by
  induction h generalizing i with
  | nil => rfl
  | cons hlead _ ih =>
      obtain ⟨hname, hsize, -⟩ := hlead
      rw [List.zipIdx_cons, List.zipIdx_cons, List.map_cons, List.map_cons, ih, hname, hsize]

/-- The sizes can be read off the lines. -/
theorem sizes_of_lines (h : (xs.zipIdx i).map (fun x => (x.2, x.1.1.bytes, x.1.2.size)) =
    (files.zipIdx i).map fun x => (x.2, x.1.1.bytes, x.1.2.length)) :
    xs.map (fun x => x.2.size) = files.map fun x => x.2.length := by
  have hthird := congrArg (List.map fun z : Nat × List UInt8 × Nat => z.2.2) h
  rw [List.map_map, List.map_map] at hthird
  have hleft : xs.map (fun x => x.2.size) = ((xs.zipIdx i).map Prod.fst).map fun x => x.2.size := by
    rw [List.zipIdx_map_fst]
  have hright : files.map (fun x => x.2.length) =
      ((files.zipIdx i).map Prod.fst).map fun x => x.2.length := by
    rw [List.zipIdx_map_fst]
  rw [hleft, hright, List.map_map, List.map_map]
  exact hthird

/-- A line is printed for every file that the scan counts. -/
theorem length_of_scanLoop {d d' : List (Nat × List UInt8 × Region)}
    (h : scanLoop printFileInfo total rounds r i fp d = .ok (j, d')) :
    d'.length + i = d.length + j ∧ i ≤ j := by
  induction rounds generalizing r i fp d with
  | zero => cases h
  | succ rounds ih =>
      obtain ⟨rfl, rfl, -⟩ | ⟨r', fp', fp'', m, fn, d'', hcall, hrest⟩ := of_scanLoop h
      · exact ⟨rfl, Nat.le_refl _⟩
      · obtain ⟨hlen, hle⟩ := ih hrest
        obtain rfl := Except.ok.inj hcall
        rw [List.length_append, List.length_singleton] at hlen
        omega

/-- A scan goes on where there is no zero. -/
theorem lt_of_scanLoop {t : Nat} {d d' : List (Nat × List UInt8 × Region)} (hbyte : f.byte t ≠ 0)
    (h : scanLoop printFileInfo total (rounds + 1) r i ⟨f, t⟩ d = .ok (j, d')) : i < j := by
  obtain ⟨-, -, hhead⟩ | ⟨r', fp', fp'', m, fn, d'', -, hrest⟩ := of_scanLoop h
  · simp only [Stream.get, Image.read, List.head?_map] at hhead
    cases hmin : min 32 (f.length - t) with
    | zero =>
        rw [hmin] at hhead
        cases hhead
    | succ k =>
        rw [hmin, List.range_succ_eq_map] at hhead
        exact absurd (Option.some.inj hhead) hbyte
  · exact (length_of_scanLoop hrest).2

theorem visit_extractFile {d : Directory (List UInt8)} (h : List.Forall₂ (Leads f) xs files)
    (hdistinct : (files.map Prod.fst).Nodup)
    (hd : ∀ x ∈ d, ∀ y ∈ files, x.1 ≠ y.1.bytes) :
    visit extractFile f i xs d = .ok (d ++ files.map fun x => (x.1.bytes, ofList x.2)) := by
  induction h generalizing i d with
  | nil => rw [visit, List.map_nil, List.append_nil]
  | @cons x y xs files hlead _ ih =>
      obtain ⟨hname, hsize, hat⟩ := hlead
      rw [List.map_cons, List.nodup_cons] at hdistinct
      have hcopy := @copyFile_eq ⟨Image.empty, 0⟩ ⟨f, x.2.offset⟩ y.2 hat
      have hsave := Directory.save_of_new (fun z hz => hd z hz y List.mem_cons_self) (ofList y.2)
      have hrest := @ih (i + 1) (d ++ [(y.1.bytes, ofList y.2)]) hdistinct.2 fun z hz w hw => by
        obtain hz | hz := List.mem_append.mp hz
        · exact hd z hz w (List.mem_cons_of_mem _ hw)
        · rw [List.mem_singleton.mp hz]
          intro hsame
          exact hdistinct.1 (Name.bytes_inj hsame ▸ List.mem_map_of_mem hw)
      rw [visit, extractFile, hsize, hcopy, hname]
      simp only [Stream.put_image]
      rw [show Image.empty.write 0 y.2 = ofList y.2 from rfl, hsave, hrest, List.append_assoc]
      rfl

/-- An extraction that succeeds has found data for each record. -/
theorem exists_of_visit_extractFile {d d' : Directory (List UInt8)}
    (h : visit extractFile f i xs d = .ok d') :
    ∃ files, List.Forall₂ (Leads f) xs files := by
  induction xs generalizing i d with
  | nil => exact ⟨[], .nil⟩
  | cons x xs ih =>
      rw [visit, extractFile] at h
      cases hcopy : copyFile ⟨Image.empty, 0⟩ ⟨f, x.2.offset⟩ x.2.size with
      | error rv =>
          rw [hcopy] at h
          cases h
      | ok ofp =>
          obtain ⟨bs, hlen, hat, -⟩ := exists_of_copyFile hcopy
          rw [hcopy] at h
          obtain ⟨files, hfiles⟩ := ih h
          exact ⟨(x.1, bs) :: files, .cons ⟨rfl, hlen.symm, hat⟩ hfiles⟩

end Reading

end Sylverant.Archive.Gsl
