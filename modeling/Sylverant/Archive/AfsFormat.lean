/-
# The format of AFS archives

A well-formed archive has a table whose entries lead to data inside the file. Scanning
it visits the entries in order, and the writing functions of the tool put items where
`Layout` says: a record in the table, and one piece of data behind the data before it.
-/

import Sylverant.Archive.Afs

namespace Sylverant.Archive.Afs

open RandomAccess (Image Stream)
open Layout (padTo Region Occupies places dataEnd sizes putItems)

/-! ## Archives -/

/-- The entries stand in the table, from this position on. -/
def TableAt (f : Image) : Nat → List Region → Prop
  | _, [] => True
  | t, e :: es => f.At t (record e.offset e.size) ∧ TableAt f (t + 8) es

/-- The file starts with the header and the table, whose numbers have 32 bits. -/
structure HasTable (f : Image) (es : List Region) : Prop where
  header_at : f.At 0 (header es.length)
  count_le : es.length ≤ 65535
  table_at : TableAt f 8 es
  offset_lt : ∀ e ∈ es, e.offset < 2 ^ 32
  size_lt : ∀ e ∈ es, e.size < 2 ^ 32

/-- A well-formed archive whose files have these contents. The number of files has 16 bits,
as `scan_afs` expects. -/
structure Holds (f : Image) (cs : List (List UInt8)) : Prop where
  table : ∃ es, HasTable f es ∧ List.Forall₂ (Occupies f) es cs

/-! ## Scanning -/

/-- The callback for each entry in turn. -/
def visit {σ : Type} (p : Callback σ) (f : Image) (cnt : Nat) :
    Nat → List Region → σ → Except Int σ
  | _, [], d => .ok d
  | i, e :: es, d =>
      match p ⟨f, e.offset⟩ i cnt e.size d with
      | .error _ => .error (-5)
      | .ok d => visit p f cnt (i + 1) es d

section Tables

variable {f : Image} {as es es' : List Region} {cs ds : List (List UInt8)} {t : Nat}

theorem tableAt_append :
    TableAt f t (as ++ es) ↔ TableAt f t as ∧ TableAt f (t + 8 * as.length) es := by
  induction as generalizing t with
  | nil => exact ⟨fun h => ⟨trivial, h⟩, fun h => h.2⟩
  | cons a as ih =>
      have hplace : t + 8 * (a :: as).length = t + 8 + 8 * as.length := by
        rw [List.length_cons]
        omega
      rw [List.cons_append, TableAt, TableAt, ih, hplace, and_assoc]

end Tables

section Scanning

variable {σ : Type} {p : Callback σ} {f : Image} {es : List Region} {cnt i t n : Nat} {d : σ}

theorem length_record (w n : Nat) : (record w n).length = 8 := rfl

theorem length_header (n : Nat) : (header n).length = 8 := rfl

/-- Reading a number that stands in the file. -/
theorem get_le32 (h : f.At t (le32 n)) :
    (Stream.mk f t).get 4 = (le32 n, ⟨f, t + 4⟩) :=
  Stream.get_of_at (s := ⟨f, t⟩) h

theorem scanLoop_eq (htable : TableAt f t es) (hoffset : ∀ e ∈ es, e.offset < 2 ^ 32)
    (hsize : ∀ e ∈ es, e.size < 2 ^ 32) :
    scanLoop p cnt es.length i ⟨f, t⟩ d = visit p f cnt i es d := by
  induction es generalizing i t d with
  | nil => rfl
  | cons e es ih =>
      obtain ⟨hrecord, hrest⟩ := htable
      obtain ⟨hfirst, hsecond⟩ := Image.at_append.mp hrecord
      have hrest := fun d' => @ih (i + 1) (t + 8) d' hrest
        (fun x hx => hoffset x (List.mem_cons_of_mem _ hx))
        (fun x hx => hsize x (List.mem_cons_of_mem _ hx))
      have hread := get_le32 hfirst
      have hread' : (Stream.mk f (t + 4)).get 4 = (le32 e.size, ⟨f, t + 8⟩) := get_le32 hsecond
      have hoffset := ofLe32_le32_of_lt (hoffset e List.mem_cons_self)
      have hsize := ofLe32_le32_of_lt (hsize e List.mem_cons_self)
      rw [List.length_cons, scanLoop, visit, hread]
      simp only [length_le32, ne_eq, not_true_eq_false, if_false, hread', hoffset, hsize,
        Stream.seek]
      cases p ⟨f, e.offset⟩ i cnt e.size d with
      | error rv => rfl
      | ok d' => exact hrest d'

theorem openAfs_eq (h : HasTable f es) : openAfs f = some (⟨f, 8⟩, es.length) := by
  obtain ⟨hmagic, hcount⟩ := Image.at_append.mp h.header_at
  have hread : (Stream.mk f 0).get 4 = (magic, ⟨f, 4⟩) := Stream.get_of_at (s := ⟨f, 0⟩) hmagic
  have hread' : (Stream.mk f 4).get 4 = (le32 es.length, ⟨f, 8⟩) := get_le32 hcount
  have hlen : ofLe32 (le32 es.length) = es.length :=
    ofLe32_le32_of_lt (Nat.lt_of_le_of_lt h.count_le (by decide))
  have hmagic : magic.length = 4 := rfl
  rw [openAfs, hread]
  simp only [hmagic, ne_eq, not_true_eq_false, if_false, hread', length_le32, hlen]

/-- Scanning an archive visits its entries. -/
theorem scanAfs_eq (h : HasTable f es) : scanAfs f p d =
    match visit p f es.length 0 es d with
    | .error rv => .error rv
    | .ok d => .ok ((es.length : Int), d) := by
  have hcount : CInt.ofInt (es.length : Int) = es.length :=
    CInt.ofInt_natCast (Nat.lt_of_le_of_lt h.count_le (by decide))
  rw [scanAfs, openAfs_eq h]
  simp only [scanLoop_eq h.table_at h.offset_lt h.size_lt]
  cases visit p f es.length 0 es d with
  | error rv => rfl
  | ok d => simp only [hcount]

end Scanning

/-! ## Writing -/

/-- A file as an item of the archive. -/
def item (c : List UInt8) : Layout.Item 8 where
  record w := record w c.length
  pieces := [c]
  length_record _ := rfl

/-- The part of a file that is copied, as its size is kept in 32 bits. -/
def cut (file : List UInt8) : List UInt8 := file.take (file.length % 2 ^ 32)

theorem length_cut (file : List UInt8) : (cut file).length = file.length % 2 ^ 32 :=
  List.length_take_of_le (Nat.mod_le _ _)

theorem cut_eq_self {file : List UInt8} (h : file.length < 2 ^ 32) : cut file = file := by
  rw [cut, Nat.mod_eq_of_lt h, List.take_length]

theorem map_cut {files : List (List UInt8)} (h : ∀ c ∈ files, c.length < 2 ^ 32) :
    files.map cut = files := by
  have hself : files.map cut = files.map id :=
    List.map_congr_left fun c hc => cut_eq_self (h c hc)
  rw [hself, List.map_id]

theorem at_cut (file : List UInt8) : (ofList file).At 0 (cut file) := by
  have hat : (ofList file).At 0 (cut file ++ file.drop (file.length % 2 ^ 32)) := by
    rw [cut, List.take_append_drop]
    exact at_ofList
  exact (Image.at_append.mp hat).1

section Writing

variable {f : Image} {src : Stream} {t w : Nat} {c : List UInt8}

/-- A record, the data that stands in another file, and padding are an item. -/
theorem copyFile_item (h : src.image.At src.pos c) :
    copyFile ⟨f.write t (record w c.length), w⟩ src c.length =
      .ok ((Stream.mk (f.write t (record w c.length)) w).put c,
        { src with pos := src.pos + c.length }) :=
  copyFile_eq h

theorem padFile_item :
    padFile ((Stream.mk (f.write t (record w c.length)) w).put c) 2048 =
      (⟨Layout.putItem 2048 f t w (item c), padTo 2048 (w + c.length) - 1 + 1⟩,
        padTo 2048 (w + c.length)) :=
  rfl

/-- `add_files_to_afs` puts an item for each file. -/
theorem addFilesToAfs_eq (files : List (List UInt8)) :
    addFilesToAfs ⟨f, t⟩ t w files =
      .ok (⟨Layout.putItems 2048 f t w ((files.map cut).map item), t + 8 * files.length⟩,
        t + 8 * files.length, Layout.ends 2048 w ((files.map cut).map item)) := by
  induction files generalizing f t w with
  | nil => rfl
  | cons file files ih =>
      have hcopy := @copyFile_item f ⟨ofList file, 0⟩ t w (cut file) (at_cut file)
      have hrest := @ih (Layout.putItem 2048 f t w (item (cut file))) (t + 8)
        (padTo 2048 (w + (cut file).length))
      have hpos : t + 8 + 8 * files.length = t + 8 * (file :: files).length := by
        rw [List.length_cons]
        omega
      rw [hpos] at hrest
      rw [addFilesToAfs]
      simp only [Stream.put, Stream.seek, length_record, ← length_cut]
      rw [hcopy]
      exact hrest

end Writing

/-- The items are single blocks. -/
theorem item_pieces (c : List UInt8) : (item c).pieces = [c] := rfl

/-! ## What the table says -/

/-- The region as the table keeps it, with an offset of 32 bits. -/
def inTable (e : Region) : Region := ⟨e.offset % 2 ^ 32, e.size⟩

/-- The offset of every file that has data fits into 32 bits. -/
def OffsetsFit (es : List Region) : Prop := ∀ e ∈ es, e.size ≠ 0 → e.offset < 2 ^ 32

instance (es : List Region) : Decidable (OffsetsFit es) :=
  inferInstanceAs (Decidable (∀ e ∈ es, e.size ≠ 0 → e.offset < 2 ^ 32))

section InTable

variable {f : Image} {t w : Nat} {cs : List (List UInt8)} {e : Region}

theorem sizes_contents : sizes (fun c => c) cs = cs.map List.length := rfl

theorem ends_items : Layout.ends 2048 w (cs.map item) = dataEnd 2048 w (cs.map List.length) :=
  Layout.ends_blocks item_pieces

/-- The records of stored items are the table of their places. -/
theorem tableAt_of_stored (h : Layout.Stored 2048 f t w (cs.map item)) :
    TableAt f t ((places 2048 w (cs.map List.length)).map inTable) := by
  induction cs generalizing t w with
  | nil => trivial
  | cons c cs ih =>
      refine ⟨?_, ih h.2.2⟩
      simp only [record, inTable, le32_mod]
      exact h.1

/-- The data of stored items stands at their places. -/
theorem occupies_of_stored (h : Layout.Stored 2048 f t w (cs.map item)) :
    List.Forall₂ (Occupies f) (places 2048 w (cs.map List.length)) cs :=
  Layout.occupies_of_stored item_pieces h

theorem occupies_inTable {c : List UInt8} (h : Occupies f e c)
    (hfit : e.size ≠ 0 → e.offset < 2 ^ 32) : Occupies f (inTable e) c := by
  refine ⟨h.1, ?_⟩
  by_cases hsize : e.size = 0
  · rw [List.length_eq_zero_iff.mp (h.1.symm.trans hsize)]
    exact Image.at_nil
  · have hmod : e.offset % 2 ^ 32 = e.offset := Nat.mod_eq_of_lt (hfit hsize)
    rw [inTable, hmod]
    exact h.2

theorem occupies_table {es : List Region} (h : List.Forall₂ (Occupies f) es cs)
    (hfit : OffsetsFit es) : List.Forall₂ (Occupies f) (es.map inTable) cs := by
  induction h with
  | nil => exact .nil
  | cons hdata _ ih =>
      exact .cons (occupies_inTable hdata (hfit _ List.mem_cons_self))
        (ih fun e he => hfit e (List.mem_cons_of_mem _ he))

theorem offsetsFit_append {as bs : List Region} :
    OffsetsFit (as ++ bs) ↔ OffsetsFit as ∧ OffsetsFit bs := by
  simp only [OffsetsFit, List.mem_append, or_imp, forall_and]

/-- The table of stored items, behind a header for as many. -/
theorem hasTable_of_stored (hheader : f.At 0 (header cs.length)) (hcount : cs.length ≤ 65535)
    (h : Layout.Stored 2048 f 8 w (cs.map item)) (hsize : ∀ c ∈ cs, c.length < 2 ^ 32) :
    HasTable f ((places 2048 w (cs.map List.length)).map inTable) where
  header_at := by rwa [List.length_map, Layout.length_places, List.length_map]
  count_le := by rwa [List.length_map, Layout.length_places, List.length_map]
  table_at := tableAt_of_stored h
  offset_lt e he := by
    obtain ⟨e, -, rfl⟩ := List.mem_map.mp he
    exact Nat.mod_lt _ (by decide)
  size_lt e he := by
    obtain ⟨e, hplace, rfl⟩ := List.mem_map.mp he
    obtain ⟨c, hc, hlen⟩ := List.mem_map.mp (Layout.size_mem hplace)
    rw [inTable, ← hlen]
    exact hsize c hc

/-- Stored items behind their header are a well-formed archive, when the offsets fit. -/
theorem holds_of_stored (hheader : f.At 0 (header cs.length)) (hcount : cs.length ≤ 65535)
    (h : Layout.Stored 2048 f 8 w (cs.map item)) (hsize : ∀ c ∈ cs, c.length < 2 ^ 32)
    (hfit : OffsetsFit (places 2048 w (cs.map List.length))) : Holds f cs :=
  ⟨_, hasTable_of_stored hheader hcount h hsize, occupies_table (occupies_of_stored h) hfit⟩

end InTable

end Sylverant.Archive.Afs
