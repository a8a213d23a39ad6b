/-
# Editing AFS archives

Each edit scans the old archive and writes a new one, which then takes its place. Deleting
and updating keep their own position behind the data. Adding takes the position from where
the new archive stands after the copies, which is in the table when there was nothing to
copy.
-/

import Sylverant.Archive.AfsRead

namespace Sylverant.Archive.Afs

open RandomAccess (Image Stream)
open Layout (Region Occupies places dataEnd putItem putItems padTo)

theorem Holds.extractAfs {f : Image} {cs : List (List UInt8)} (h : Holds f cs) (fn : String) :
    extractAfs fn f = .ok ((cs.length : Int), extracted fn cs) := by
  obtain ⟨es, htable, hdata⟩ := h
  exact extractAfs_eq htable hdata

theorem Holds.length_le {f : Image} {cs : List (List UInt8)} (h : Holds f cs) :
    cs.length ≤ 65535 := by
  obtain ⟨es, htable, hdata⟩ := h
  rw [← hdata.length_eq]
  exact htable.count_le

theorem Holds.length_lt {f : Image} {cs : List (List UInt8)} (h : Holds f cs) :
    ∀ c ∈ cs, c.length < 2 ^ 32 := by
  obtain ⟨es, htable, hdata⟩ := h
  have hsize := htable.size_lt
  clear htable
  induction hdata with
  | nil => exact fun c hc => (List.not_mem_nil hc).elim
  | @cons e c es cs hfile _ ih =>
      intro d hd
      obtain rfl | hd := List.mem_cons.mp hd
      · rw [← hfile.1]
        exact hsize e List.mem_cons_self
      · exact ih (fun x hx => hsize x (List.mem_cons_of_mem _ hx)) d hd

/-! ## Copying, deleting and updating -/

/-- The contents of the files whose numbers are not in the list, for files numbered from `i`. -/
def keptFrom (items : List Nat) (i : Nat) (cs : List (List UInt8)) : List (List UInt8) :=
  ((cs.zipIdx i).filter fun x => x.2 ∉ items).map Prod.fst

/-- The contents of the files that are not deleted. -/
def kept (items : List Nat) (cs : List (List UInt8)) : List (List UInt8) := keptFrom items 0 cs

/-- The contents of the files, one of which is replaced, for files numbered from `i`. -/
def updatedFrom (k : Nat) (file : List UInt8) (i : Nat) (cs : List (List UInt8)) :
    List (List UInt8) :=
  (cs.zipIdx i).map fun x => if k = x.2 then cut file else x.1

section Callbacks

variable {f g : Image} {es : List Region} {cs : List (List UInt8)} {cnt i t w pos : Nat}

/-- Copying all files writes their items, as long as positions fit into 32 bits. -/
theorem visit_copyFileCb (h : List.Forall₂ (Occupies f) es cs)
    (hstart : cs ≠ [] → (if i = 0 then 0x80000 else pos % 2 ^ 32) = w)
    (hcount : i + cs.length ≤ 65535)
    (hfit : ∀ e ∈ places 2048 w (cs.map List.length), e.offset < 2 ^ 32) :
    visit copyFileCb f cnt i es ⟨g, pos⟩ =
      .ok ⟨putItems 2048 g (i * 8 + 8) w (cs.map item),
        if cs = [] then pos else dataEnd 2048 w (cs.map List.length)⟩ := by
  induction h generalizing i w pos g with
  | nil => rfl
  | @cons e c es cs hfile _ ih =>
      obtain ⟨hsize, hat⟩ := hfile
      have hstart := hstart (List.cons_ne_nil c cs)
      have hi : i * 8 % 2 ^ 32 = i * 8 := by
        rw [List.length_cons] at hcount
        omega
      have hcopy := @copyFile_item g ⟨f, e.offset⟩ (i * 8 + 8) w c hat
      have hpos : padTo 2048 (w + c.length) - 1 + 1 = padTo 2048 (w + c.length) := by
        have hlt := @Layout.lt_padTo 2048 (by decide) (w + c.length)
        omega
      have hrest := @ih (putItem 2048 g (i * 8 + 8) w (item c)) (i + 1)
        (padTo 2048 (w + c.length)) (padTo 2048 (w + c.length))
        (fun hne => by
          obtain ⟨c', cs', rfl⟩ := List.exists_cons_of_ne_nil hne
          rw [if_neg (Nat.succ_ne_zero i)]
          exact Nat.mod_eq_of_lt (hfit ⟨_, _⟩ (List.mem_cons_of_mem _ List.mem_cons_self)))
        (by rw [List.length_cons] at hcount; omega)
        (fun x hx => hfit x (List.mem_cons_of_mem _ hx))
      rw [visit, copyFileCb, hsize]
      simp only [Stream.put, Stream.seek, hi, hstart]
      rw [hcopy]
      simp only [padFile_item, hpos]
      rw [hrest, Nat.succ_mul]
      have hend : (if cs = [] then padTo 2048 (w + c.length)
          else dataEnd 2048 (padTo 2048 (w + c.length)) (cs.map List.length)) =
            dataEnd 2048 w ((c :: cs).map List.length) := by
        split_ifs with hnil
        · rw [hnil]
          rfl
        · rfl
      rw [hend, if_neg (List.cons_ne_nil c cs)]
      rfl

theorem visit_copyFiltered {items : List Nat} {copied : Nat}
    (h : List.Forall₂ (Occupies f) es cs) :
    ∃ pos', visit copyFiltered f cnt i es ⟨⟨g, pos⟩, items, t, w, copied⟩ =
      .ok ⟨⟨putItems 2048 g t w ((keptFrom items i cs).map item), pos'⟩, items,
        t + 8 * (keptFrom items i cs).length,
        dataEnd 2048 w ((keptFrom items i cs).map List.length),
        copied + (keptFrom items i cs).length⟩ := by
  induction h generalizing i w t pos g copied with
  | nil => exact ⟨pos, rfl⟩
  | @cons e c es cs hfile _ ih =>
      obtain ⟨hsize, hat⟩ := hfile
      by_cases hi : i ∈ items
      · have hkept : keptFrom items i (c :: cs) = keptFrom items (i + 1) cs := by
          rw [keptFrom, List.zipIdx_cons, List.filter_cons_of_neg (by simpa using hi)]
          rfl
        simp only [visit, copyFiltered, if_pos hi, hkept]
        exact ih
      · have hkept : keptFrom items i (c :: cs) = c :: keptFrom items (i + 1) cs := by
          rw [keptFrom, List.zipIdx_cons, List.filter_cons_of_pos (by simpa using hi)]
          rfl
        have hcopy := @copyFile_item g ⟨f, e.offset⟩ t w c hat
        obtain ⟨pos', hrest⟩ := @ih (putItem 2048 g t w (item c)) (i + 1) (t + 8)
          (padTo 2048 (w + c.length)) (padTo 2048 (w + c.length) - 1 + 1) (copied + 1)
        refine ⟨pos', ?_⟩
        rw [visit, copyFiltered, if_neg hi, hsize]
        simp only [Stream.put, Stream.seek]
        rw [hcopy]
        simp only [padFile_item, hrest, hkept, List.length_cons, Nat.mul_succ]
        have htable : t + 8 + 8 * (keptFrom items (i + 1) cs).length =
            t + (8 * (keptFrom items (i + 1) cs).length + 8) := by omega
        have hcopied : copied + 1 + (keptFrom items (i + 1) cs).length =
            copied + ((keptFrom items (i + 1) cs).length + 1) := by omega
        rw [htable, hcopied]
        rfl

theorem visit_copyUpdate {k : Nat} {file : List UInt8} (h : List.Forall₂ (Occupies f) es cs) :
    ∃ pos', visit copyUpdate f cnt i es ⟨⟨g, pos⟩, k, file, t, w⟩ =
      .ok ⟨⟨putItems 2048 g t w ((updatedFrom k file i cs).map item), pos'⟩, k, file,
        t + 8 * cs.length, dataEnd 2048 w ((updatedFrom k file i cs).map List.length)⟩ := by
  induction h generalizing i w t pos g with
  | nil => exact ⟨pos, rfl⟩
  | @cons e c es cs hfile _ ih =>
      obtain ⟨hsize, hat⟩ := hfile
      have htable : t + 8 + 8 * cs.length = t + 8 * (c :: cs).length := by
        rw [List.length_cons]
        omega
      have hupdated : updatedFrom k file i (c :: cs) =
          (if k = i then cut file else c) :: updatedFrom k file (i + 1) cs := rfl
      by_cases hi : k = i
      · obtain ⟨pos', hrest⟩ := @ih (putItem 2048 g t w (item (cut file))) (i + 1) (t + 8)
          (padTo 2048 (w + (cut file).length)) (t + 8)
        have hadd := @addFilesToAfs_eq g t w [file]
        refine ⟨pos', ?_⟩
        rw [htable] at hrest
        rw [hupdated, if_pos hi, visit, copyUpdate, if_pos hi]
        simp only [Stream.seek]
        rw [hadd]
        exact hrest
      · obtain ⟨pos', hrest⟩ := @ih (putItem 2048 g t w (item c)) (i + 1) (t + 8)
          (padTo 2048 (w + c.length)) (padTo 2048 (w + c.length) - 1 + 1)
        have hcopy := @copyFile_item g ⟨f, e.offset⟩ t w c hat
        refine ⟨pos', ?_⟩
        rw [htable] at hrest
        rw [hupdated, if_neg hi, visit, copyUpdate, if_neg hi, hsize]
        simp only [Stream.put, Stream.seek]
        rw [hcopy]
        exact hrest

end Callbacks

section Rewriting

variable {f : Image} {cs : List (List UInt8)} {items : List Nat} {k : Nat} {file : List UInt8}

/-- Items behind a reserved table, with the header written last, are an archive. -/
theorem holds_putItems (hcount : cs.length ≤ 65535) (hsize : ∀ c ∈ cs, c.length < 2 ^ 32)
    (hfit : OffsetsFit (places 2048 0x80000 (cs.map List.length))) :
    Holds ((putItems 2048 Image.empty 8 0x80000 (cs.map item)).write 0 (header cs.length)) cs := by
  have hspace : Layout.Fit 2048 0x80000 8 0x80000 (cs.map item) := by
    refine Layout.fit_of_le (by decide) ?_ (Nat.le_refl _)
    rw [List.length_map]
    omega
  have hstored := @Layout.stored_putItems 8 2048 0x80000 8 0x80000 Image.empty (cs.map item)
    (by decide) hspace
  refine holds_of_stored Image.at_write hcount
    (hstored.keep (by decide) Image.keeps_write hspace (fun i hi _ => .inr ?_)
      fun i hi _ => .inr ?_) hsize hfit
  · rw [length_header]
    omega
  · rw [length_header]
    omega

theorem kept_sublist : (kept items cs).Sublist cs := by
  have hsub : (kept items cs).Sublist (cs.zipIdx.map Prod.fst) := List.filter_sublist.map _
  rwa [List.zipIdx_map_fst] at hsub

/-- Deleting files keeps the others. -/
theorem deleteFromAfs_eq (h : Holds f cs) (hitems : ∀ i ∈ items, i < cs.length)
    (hfit : OffsetsFit (places 2048 0x80000 ((kept items cs).map List.length))) :
    ∃ g, deleteFromAfs f items = .ok g ∧ Holds g (kept items cs) := by
  have hcount : (kept items cs).length ≤ 65535 := Nat.le_trans kept_sublist.length_le h.length_le
  have hsize : ∀ c ∈ kept items cs, c.length < 2 ^ 32 :=
    fun c hc => h.length_lt c (kept_sublist.subset hc)
  refine ⟨_, ?_, holds_putItems hcount hsize hfit⟩
  obtain ⟨es, htable, hdata⟩ := h
  obtain ⟨pos, hvisit⟩ := @visit_copyFiltered f Image.empty es cs es.length 0 8 0x80000 8 items 0
    hdata
  have hrange : (items.any fun item => (es.length : Int).toNat ≤ item) = false := by
    rw [List.any_eq_false]
    intro i hi
    have hlt := hitems i hi
    rw [← hdata.length_eq] at hlt
    simpa using hlt
  rw [deleteFromAfs, scanAfs_eq htable, hvisit]
  simp only [hrange]
  rw [if_neg (Int.not_lt.mpr (Int.natCast_nonneg _)), if_neg Bool.false_ne_true]
  simp only [Nat.zero_add]
  rfl

/-- A number that is not in the archive is refused. -/
theorem deleteFromAfs_refuse (h : Holds f cs) (hitems : ∃ i ∈ items, cs.length ≤ i) :
    deleteFromAfs f items = .error (-8) := by
  obtain ⟨es, htable, hdata⟩ := h
  obtain ⟨pos, hvisit⟩ := @visit_copyFiltered f Image.empty es cs es.length 0 8 0x80000 8 items 0
    hdata
  have hrange : (items.any fun item => (es.length : Int).toNat ≤ item) = true := by
    rw [List.any_eq_true]
    obtain ⟨i, hi, hle⟩ := hitems
    rw [← hdata.length_eq] at hle
    exact ⟨i, hi, by simpa using hle⟩
  rw [deleteFromAfs, scanAfs_eq htable, hvisit]
  simp only [hrange]
  rw [if_neg (Int.not_lt.mpr (Int.natCast_nonneg _)), if_pos True.intro]

theorem updatedFrom_eq (hfile : file.length < 2 ^ 32) :
    updatedFrom k file 0 cs = cs.set k file := by
  apply List.ext_getElem?
  intro j
  rw [updatedFrom, cut_eq_self hfile, List.getElem?_map, List.getElem?_zipIdx, Option.map_map,
    List.getElem?_set, Nat.zero_add]
  by_cases hj : k = j
  · by_cases hlt : j < cs.length
    · simp [hj, hlt]
    · simp [hj, hlt]
  · simp [hj, Function.comp_def]

/-- Updating a file replaces it and keeps the others. -/
theorem updateAfs_eq (h : Holds f cs) (hk : k < cs.length) (hfile : file.length < 2 ^ 32)
    (hfit : OffsetsFit (places 2048 0x80000 ((cs.set k file).map List.length))) :
    ∃ g, updateAfs f k file = .ok g ∧ Holds g (cs.set k file) := by
  have hcount : (cs.set k file).length ≤ 65535 := by
    rw [List.length_set]
    exact h.length_le
  have hsize : ∀ c ∈ cs.set k file, c.length < 2 ^ 32 := by
    intro c hc
    obtain hc | rfl := List.mem_or_eq_of_mem_set hc
    · exact h.length_lt c hc
    · exact hfile
  refine ⟨_, ?_, holds_putItems hcount hsize hfit⟩
  obtain ⟨es, htable, hdata⟩ := h
  obtain ⟨pos, hvisit⟩ := @visit_copyUpdate f Image.empty es cs es.length 0 8 0x80000 8 k file
    hdata
  rw [updatedFrom_eq hfile] at hvisit
  rw [updateAfs, scanAfs_eq htable, hvisit]
  simp only [Int.toNat_natCast]
  rw [if_neg (Int.not_lt.mpr (Int.natCast_nonneg _)), if_neg (by rw [hdata.length_eq]; omega),
    List.length_set, hdata.length_eq]
  rfl

/-- A number that is not in the archive is refused. -/
theorem updateAfs_refuse (h : Holds f cs) (hk : cs.length ≤ k) :
    updateAfs f k file = .error (-8) := by
  obtain ⟨es, htable, hdata⟩ := h
  obtain ⟨pos, hvisit⟩ := @visit_copyUpdate f Image.empty es cs es.length 0 8 0x80000 8 k file
    hdata
  rw [updateAfs, scanAfs_eq htable, hvisit]
  simp only [Int.toNat_natCast]
  rw [if_neg (Int.not_lt.mpr (Int.natCast_nonneg _)), if_pos (by rw [hdata.length_eq]; omega)]

end Rewriting

end Sylverant.Archive.Afs
