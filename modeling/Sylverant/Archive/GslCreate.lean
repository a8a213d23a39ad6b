/-
# Creating GSL archives

`create_gsl` means to round the length of the table up to a multiple of 2048, but its mask
rounds to the nearest multiple of 4096. A table of up to 42 files is given no room at all, so
that the first file is written over it. An archive reads back when no data is in the table or
directly behind it, and when the offsets can be read as they were written.
-/

import Sylverant.Archive.GslRead

namespace Sylverant.Archive.Gsl

open RandomAccess (Image Stream)
open Layout (Region places dataEnd sizes putItems padTo)

/-- The order of bytes in which an archive is created. -/
def written (e : Endianness) : Endianness := if e = .auto then .big else e

/-- A file as an item of the archive. -/
def item (e : Endianness) (x : Name × List UInt8) : Layout.Item 48 where
  record w := record e x.1.bytes w x.2.length
  pieces := [x.2]
  length_record _ := length_record

/-- The items are single blocks. -/
theorem item_pieces {e : Endianness} (x : Name × List UInt8) : (item e x).pieces = [x.2] := rfl

/-- The arguments of the tool, for these files. -/
def args (files : List (Name × List UInt8)) : List (List UInt8 × List UInt8) :=
  files.map fun x => (x.1.bytes, x.2)

/-- The archive that is created for files whose sizes fit into 32 bits. -/
def created (e : Endianness) (files : List (Name × List UInt8)) : Image :=
  putItems 2048 Image.empty 0 (hdrlen files.length) (files.map (item (written e)))

/-- The records that are written. -/
def lines : Nat → List (Name × List UInt8) → List (Name × Region)
  | _, [] => []
  | w, x :: xs => (x.1, ⟨w, x.2.length⟩) :: lines (padTo 2048 (w + x.2.length)) xs

/-- The archive can be created, reads back as the files, and no data is in the table. -/
def RoundTrip (e : Endianness) (files : List (Name × List UInt8)) : Prop :=
  ∃ f, createGsl e (args files) = .ok f ∧ ReadsAs e f files ∧
    ∀ x ∈ places 2048 (hdrlen files.length) (sizes Prod.snd files), x.size ≠ 0 →
      48 * files.length ≤ x.offset

/-- For files of these sizes the archive is right: there is a file, data is behind the table and
the name that ends it, and the order of bytes that is used, or guessed, for the first offset
reads every offset and size as it was written. -/
structure Fits (e : Endianness) (ns : List Nat) : Prop where
  ne_nil : ns ≠ []
  table : ∀ x ∈ places 2048 (hdrlen ns.length) ns, x.size ≠ 0 → 48 * ns.length < x.offset
  order : ∃ r o, readOffset e (dataEnd 2048 (hdrlen ns.length) ns)
    (num (written e) (hdrlen ns.length / 2048)) = .ok (r, o) ∧
      ∀ x ∈ places 2048 (hdrlen ns.length) ns, x.size ≠ 0 → inTable r (written e) x = x

section Create

variable {σ : Type} {p : Callback σ} {d : σ} {f : Image} {e r : Endianness} {t w o : Nat}
  {files : List (Name × List UInt8)}

theorem length_lines : (lines w files).length = files.length := by
  induction files generalizing w with
  | nil => rfl
  | cons x xs ih => rw [lines, List.length_cons, List.length_cons, ih]

theorem map_fst_lines : (lines w files).map Prod.fst = files.map Prod.fst := by
  induction files generalizing w with
  | nil => rfl
  | cons x xs ih => rw [lines, List.map_cons, List.map_cons, ih]

theorem map_snd_lines : (lines w files).map Prod.snd = places 2048 w (sizes Prod.snd files) := by
  induction files generalizing w with
  | nil => rfl
  | cons x xs ih =>
      rw [lines, List.map_cons, ih]
      rfl

theorem lines_append {as bs : List (Name × List UInt8)} :
    lines w (as ++ bs) = lines w as ++ lines (dataEnd 2048 w (sizes Prod.snd as)) bs := by
  induction as generalizing w with
  | nil => rfl
  | cons x xs ih =>
      rw [List.cons_append, lines, ih, lines, List.cons_append]
      rfl

/-- The records of stored items are the table. -/
theorem tableAt_of_stored (h : Layout.Stored 2048 f t w (files.map (item e))) :
    TableAt e f t (lines w files) := by
  induction files generalizing t w with
  | nil => trivial
  | cons x xs ih => exact ⟨h.1, ih h.2.2⟩

/-- The records lead to the data of stored items, when they are read as they were written. -/
theorem leads_of_stored (h : Layout.Stored 2048 f t w (files.map (item e)))
    (hread : ∀ x ∈ places 2048 w (sizes Prod.snd files), x.size ≠ 0 → inTable r e x = x) :
    List.Forall₂ (Leads f) ((lines w files).map fun x => (x.1, inTable r e x.2)) files := by
  induction files generalizing t w with
  | nil => exact .nil
  | cons x xs ih =>
      refine .cons ⟨rfl, ?_⟩ (ih h.2.2 fun y hy => hread y (List.mem_cons_of_mem _ hy))
      by_cases hsize : x.2.length = 0
      · refine ⟨?_, ?_⟩
        · simp only [inTable, hsize, ofNum_num_zero]
        · rw [List.length_eq_zero_iff.mp hsize]
          exact Image.at_nil
      · show Layout.Occupies f (inTable r e ⟨w, x.2.length⟩) x.2
        rw [hread ⟨w, x.2.length⟩ List.mem_cons_self hsize]
        exact ⟨rfl, h.2.1.1⟩

theorem addFilesToGsl_eq (hsize : ∀ x ∈ files, x.2.length < 2 ^ 32) :
    addFilesToGsl e ⟨f, t⟩ t w (args files) =
      .ok (⟨putItems 2048 f t w (files.map (item e)), t + 48 * files.length⟩,
        t + 48 * files.length, dataEnd 2048 w (sizes Prod.snd files)) := by
  induction files generalizing f t w with
  | nil => rfl
  | cons x files ih =>
      have hmod : x.2.length % 2 ^ 32 = x.2.length := Nat.mod_eq_of_lt (hsize x List.mem_cons_self)
      have hcopy := @copyFile_eq ⟨f.write t (record e x.1.bytes w x.2.length), w⟩
        ⟨ofList x.2, 0⟩ x.2 at_ofList
      have hrest := @ih (Layout.putItem 2048 f t w (item e x)) (t + 48)
        (padTo 2048 (w + x.2.length)) fun y hy => hsize y (List.mem_cons_of_mem _ hy)
      have hpos : t + 48 + 48 * files.length = t + 48 * (x :: files).length := by
        rw [List.length_cons]
        omega
      rw [hpos] at hrest
      rw [args, List.map_cons, addFilesToGsl]
      simp only [Stream.put, Stream.seek, length_record, hmod]
      rw [if_neg (Nat.not_le.mpr x.1.length_lt), hcopy]
      exact hrest

theorem createGsl_eq (hsize : ∀ x ∈ files, x.2.length < 2 ^ 32) :
    createGsl e (args files) = .ok (created e files) := by
  have hlen : (args files).length = files.length := List.length_map _
  have hadd := @addFilesToGsl_eq Image.empty (written e) 0 (hdrlen files.length) files hsize
  rw [written] at hadd
  rw [createGsl, hlen, hadd]
  rfl

theorem dataEnd_ge (hne : files ≠ []) :
    48 * files.length + 32 ≤ dataEnd 2048 w (sizes Prod.snd files) := by
  have hle := @Layout.le_dataEnd_mul 2048 w (sizes Prod.snd files) (by decide)
  have hpos := List.length_pos_iff.mpr hne
  rw [Layout.length_sizes] at hle
  omega

theorem length_created (hne : files ≠ []) : (created e files).length =
    dataEnd 2048 (hdrlen files.length) (sizes Prod.snd files) := by
  have hle := @dataEnd_ge (hdrlen files.length) files hne
  exact Layout.length_putItems item_pieces (by decide) hne (Nat.zero_le _) (by omega)

/-- Data that is not in the table is stored, and so is the table. -/
theorem stored_created
    (h : ∀ x ∈ places 2048 (hdrlen files.length) (sizes Prod.snd files), x.size ≠ 0 →
      48 * files.length ≤ x.offset) :
    Layout.Stored 2048 (created e files) 0 (hdrlen files.length)
      (files.map (item (written e))) := by
  refine Layout.stored_putItems (by decide) (Layout.fit_blocks item_pieces (by decide) (by decide)
    ?_ (Nat.le_of_eq (Nat.zero_add _)) h)
  have hpad : 2048 ≤ padTo 2048 (hdrlen files.length) := by
    simp only [padTo]
    omega
  omega

/-- The name behind the table is empty when no data is there. -/
theorem byte_created
    (h : ∀ x ∈ places 2048 (hdrlen files.length) (sizes Prod.snd files), x.size ≠ 0 →
      48 * files.length < x.offset) : (created e files).byte (48 * files.length) = 0 :=
  Layout.byte_putItems_zero item_pieces rfl (Nat.le_of_eq (Nat.zero_add _)) h

/-- The table of an archive, scanned with the order of bytes that is used for the first record,
and then what is behind it. -/
theorem scanLoop_created {total rounds : Nat} (hne : files ≠ [])
    (h : TableAt e f 0 (lines w files)) {a : Endianness}
    (hguess : readOffset a total (num e (w / 2048)) = .ok (r, o)) :
    scanLoop p total (files.length + rounds) a 0 ⟨f, 0⟩ d =
      match visit p f 0 ((lines w files).map fun x => (x.1, inTable r e x.2)) d with
      | .error _ => .error (-7)
      | .ok d => scanLoop p total rounds r files.length ⟨f, 48 * files.length⟩ d := by
  have hr := (of_readOffset hguess).1
  have htable := @scanLoop_table _ p f e r (lines w files) total rounds 0 0 d hr h
  obtain ⟨x, xs, rfl⟩ := List.exists_cons_of_ne_nil hne
  have hrounds : (x :: xs).length + rounds = (xs.length + rounds) + 1 := by
    rw [List.length_cons]
    omega
  rw [hrounds, scanLoop_guess h.1 hguess, ← hrounds]
  rw [length_lines, Nat.zero_add, Nat.zero_add] at htable
  exact htable

/-- The rounds of a scan reach the end of the table. -/
theorem exists_rounds (hlen : 48 * files.length ≤ f.length) :
    ∃ rounds, f.length / 48 + 1 = files.length + (rounds + 1) :=
  ⟨f.length / 48 - files.length, by omega⟩

end Create

section RoundTrips

variable {e : Endianness} {files : List (Name × List UInt8)}

/-- An archive that fits reads back. -/
theorem roundTrip_of_fits (hdistinct : (files.map Prod.fst).Nodup)
    (hsize : ∀ x ∈ files, x.2.length < 2 ^ 32) (h : Fits e (sizes Prod.snd files)) :
    RoundTrip e files := by
  obtain ⟨hne, hclear, r, o, hguess, hread⟩ := h
  rw [Layout.length_sizes] at hclear hguess hread
  have hne : files ≠ [] := fun hnil => hne (by rw [hnil]; rfl)
  have hstored := @stored_created e files fun x hx hdata => Nat.le_of_lt (hclear x hx hdata)
  have hend := @dataEnd_ge (hdrlen files.length) files hne
  obtain ⟨rounds, hrounds⟩ := @exists_rounds (created e files) files
    (by rw [length_created hne]; omega)
  have hzero := @byte_created e files hclear
  have hscan : ∀ {σ : Type} (p : Callback σ) (d d' : σ),
      visit p (created e files) 0 ((lines (hdrlen files.length) files).map
        fun x => (x.1, inTable r (written e) x.2)) d = .ok d' →
      scanGsl e (created e files) p d = .ok (CInt.ofInt files.length, d') := by
    intro σ p d d' hvisit
    rw [scanGsl, hrounds, scanLoop_created hne (tableAt_of_stored hstored)
      (by rw [length_created hne]; exact hguess), hvisit]
    simp only
    rw [scanLoop_zero hzero (by rw [length_created hne]; exact hend)]
  refine ⟨created e files, createGsl_eq hsize, ⟨⟨_, hscan _ _ _ visit_printFileInfo, ?_⟩, ?_⟩,
    fun x hx hdata => Nat.le_of_lt (hclear x hx hdata)⟩
  · rw [List.nil_append, List.map_map]
    exact lines_of_leads (leads_of_stored hstored hread)
  · exact hscan _ _ _ (visit_extractFile (leads_of_stored hstored hread) hdistinct
      fun x hx => absurd hx List.not_mem_nil)

/-- Without files there is no empty name at the end, as there is nothing at all. -/
theorem not_readsAs_nil : ¬ ReadsAs e (created e []) [] := by
  rintro ⟨⟨lines, hprinted, -⟩, -⟩
  cases e <;> cases hprinted

/-- What an archive that reads back says about its table. -/
theorem scan_of_readsAs (hne : files ≠ []) (hdistinct : (files.map Prod.fst).Nodup)
    (hclear : ∀ x ∈ places 2048 (hdrlen files.length) (sizes Prod.snd files), x.size ≠ 0 →
      48 * files.length ≤ x.offset) (h : ReadsAs e (created e files) files) :
    ∃ r o, readOffset e (dataEnd 2048 (hdrlen files.length) (sizes Prod.snd files))
        (num (written e) (hdrlen files.length / 2048)) = .ok (r, o) ∧
      (created e files).byte (48 * files.length) = 0 ∧
      (∀ x ∈ lines (hdrlen files.length) files, (inTable r (written e) x.2).size = x.2.size) ∧
      List.Forall₂ (Leads (created e files)) ((lines (hdrlen files.length) files).map
        fun x => (x.1, inTable r (written e) x.2)) files := by
  have htable := tableAt_of_stored (@stored_created e files hclear)
  have hend := @dataEnd_ge (hdrlen files.length) files hne
  obtain ⟨rounds, hrounds⟩ := @exists_rounds (created e files) files
    (by rw [length_created hne]; omega)
  obtain ⟨⟨printed, hprint, hlines⟩, hextract⟩ := h
  obtain ⟨j, hprint⟩ := of_scanGsl hprint
  obtain ⟨j', hextract⟩ := of_scanGsl hextract
  rw [hrounds] at hprint hextract
  have hguess : ∃ x, readOffset e (created e files).length
      (num (written e) (hdrlen files.length / 2048)) = .ok x := by
    obtain ⟨x, xs, hfiles⟩ := List.exists_cons_of_ne_nil hne
    have hrecord :
        TableAt (written e) (created e files) 0 (lines (hdrlen files.length) (x :: xs)) :=
      hfiles ▸ htable
    have hlen : files.length + (rounds + 1) = (xs.length + (rounds + 1)) + 1 := by
      rw [hfiles, List.length_cons]
      omega
    rw [hlen, scanLoop_record hrecord.1] at hprint
    cases hguess : readOffset e (created e files).length
        (num (written e) (hdrlen files.length / 2048)) with
    | ok y => exact ⟨y, rfl⟩
    | error rv =>
        rw [hguess] at hprint
        cases hprint
  obtain ⟨⟨r, o⟩, hguess⟩ := hguess
  have hcount : printed.length = j := by
    have hgrow := (length_of_scanLoop hprint).1
    rwa [Nat.add_zero, List.length_nil, Nat.zero_add] at hgrow
  have hfew : printed.length = files.length := by
    have hlen := congrArg List.length hlines
    rwa [List.length_map, List.length_map, List.length_zipIdx] at hlen
  rw [scanLoop_created hne htable hguess] at hprint hextract
  rw [visit_printFileInfo] at hprint
  simp only [List.nil_append] at hprint
  have hbyte : (created e files).byte (48 * files.length) = 0 := by
    by_contra hbyte
    have hlt := lt_of_scanLoop hbyte hprint
    omega
  have hstop : 48 * files.length + 32 ≤ (created e files).length := by
    rw [length_created hne]
    exact hend
  rw [scanLoop_zero hbyte hstop] at hprint
  obtain ⟨-, rfl⟩ := Prod.mk.inj (Except.ok.inj hprint)
  refine ⟨r, o, by rwa [length_created hne] at hguess, hbyte, ?_, ?_⟩
  · rw [List.map_map] at hlines
    have hsizes := sizes_of_lines hlines
    have hwritten : (lines (hdrlen files.length) files).map (fun x => x.2.size) =
        files.map fun x => x.2.length := by
      have hplaces := congrArg (List.map Region.size) (@map_snd_lines (hdrlen files.length) files)
      rw [List.map_map, Layout.map_size_places] at hplaces
      exact hplaces
    rw [← hwritten, List.map_map] at hsizes
    exact List.map_inj_left.mp hsizes
  · cases hvisit : visit extractFile (created e files) 0
        ((lines (hdrlen files.length) files).map fun x => (x.1, inTable r (written e) x.2)) [] with
    | error rv =>
        rw [hvisit] at hextract
        cases hextract
    | ok d =>
        obtain ⟨found, hfound⟩ := exists_of_visit_extractFile hvisit
        have hnames : found.map Prod.fst = files.map Prod.fst := by
          rw [← map_fst_of_leads hfound, List.map_map]
          exact map_fst_lines
        have hforward := @visit_extractFile _ _ _ 0 [] hfound (hnames ▸ hdistinct)
          fun x hx => (nomatch hx)
        rw [hforward] at hextract
        simp only [List.nil_append] at hextract
        rw [scanLoop_zero hbyte hstop] at hextract
        obtain ⟨-, hsame⟩ := Prod.mk.inj (Except.ok.inj hextract)
        have hinj : Function.Injective fun x : Name × List UInt8 => (x.1.bytes, ofList x.2) := by
          intro x y hxy
          obtain ⟨hname, hdata⟩ := Prod.mk.inj hxy
          exact Prod.ext (Name.bytes_inj hname) (ofList_inj hdata)
        have hall : found = files := List.map_injective_iff.mpr hinj hsame
        rw [hall] at hfound
        exact hfound

end RoundTrips

/-! ## Files of given sizes -/

/-- The names and the sizes. -/
def shape (files : List (Name × List UInt8)) : List (Name × Nat) :=
  files.map fun x => (x.1, x.2.length)

/-- A file of zeros. -/
def fill (x : Name × Nat) : Name × List UInt8 := (x.1, zeros x.2)

section Shapes

variable {e r : Endianness} {f : Image} {w : Nat} {as bs : List (Name × List UInt8)}
  {a : Name × List UInt8} {before after : List (Name × Nat)} {x : Name × Nat}

theorem shape_fill (before : List (Name × Nat)) : shape (before.map fill) = before := by
  rw [shape, List.map_map]
  refine List.map_id'' (fun x => ?_) before
  simp only [Function.comp, fill, zeros, List.length_replicate]

theorem map_snd_shape : (shape as).map Prod.snd = sizes Prod.snd as := by
  rw [shape, List.map_map]
  rfl

theorem map_fst_shape : (shape as).map Prod.fst = as.map Prod.fst := by
  rw [shape, List.map_map]
  rfl

/-- Files of zeros, except that one of them starts with another byte. -/
def startsWith (before : List (Name × Nat)) (x : Name × Nat) (after : List (Name × Nat))
    (c : UInt8) : List (Name × List UInt8) :=
  before.map fill ++ (x.1, c :: zeros (x.2 - 1)) :: after.map fill

theorem shape_startsWith (hx : x.2 ≠ 0) (c : UInt8) :
    shape (startsWith before x after c) = before ++ x :: after := by
  have hlen : (c :: zeros (x.2 - 1)).length = x.2 := by
    rw [List.length_cons, zeros, List.length_replicate]
    omega
  have happend : ∀ cs ds : List (Name × List UInt8), shape (cs ++ ds) = shape cs ++ shape ds :=
    fun _ _ => List.map_append
  rw [startsWith, happend, shape_fill]
  congr 1
  rw [shape, List.map_cons, hlen]
  exact congrArg _ (shape_fill after)

/-- The data of one file, from the records of all. -/
theorem at_of_leads (h : List.Forall₂ (Leads f)
    ((lines w (as ++ a :: bs)).map fun x => (x.1, inTable r e x.2)) (as ++ a :: bs)) :
    f.At (inTable r e ⟨dataEnd 2048 w (sizes Prod.snd as), a.2.length⟩).offset a.2 := by
  rw [lines_append, List.map_append, lines, List.map_cons] at h
  have hlen : ((lines w as).map fun x => (x.1, inTable r e x.2)).length = as.length := by
    rw [List.length_map, length_lines]
  have hdrop := List.forall₂_drop as.length h
  rw [List.drop_left, ← hlen, List.drop_left] at hdrop
  cases hdrop with
  | cons hlead _ => exact hlead.2.2

theorem sizes_before : sizes Prod.snd (before.map fill) = before.map Prod.snd := by
  rw [← map_snd_shape, shape_fill]

/-- Only where the file is does the archive show what the file starts with. -/
theorem eq_of_forall_at {q : Nat} (hx : x.2 ≠ 0)
    (h : ∀ c, (created e (startsWith before x after c)).At q (c :: zeros (x.2 - 1))) :
    q = dataEnd 2048 (hdrlen (before ++ x :: after).length) (before.map Prod.snd) := by
  by_contra hq
  have hlen : ∀ c, (startsWith before x after c).length = (before ++ x :: after).length := by
    intro c
    rw [← @shape_startsWith before after x hx c, shape, List.length_map]
  have hsame : (created e (startsWith before x after 0)).byte q =
      (created e (startsWith before x after 1)).byte q := by
    rw [created, created, hlen, hlen]
    refine Layout.byte_putItems item_pieces rfl rfl fun hle => ?_
    rw [sizes_before] at hle ⊢
    obtain ⟨k, hk⟩ : ∃ k, q - dataEnd 2048 (hdrlen (before ++ x :: after).length)
        (before.map Prod.snd) = k + 1 := Nat.exists_eq_succ_of_ne_zero (by omega)
    rw [hk]
    rfl
  have hbyte : ∀ c, (created e (startsWith before x after c)).byte q = c :=
    fun c => (h c 0 c rfl).2
  rw [hbyte, hbyte] at hsame
  exact absurd hsame (by decide)

/-- Each region of an archive splits the files. -/
theorem exists_split {sh : List (Name × Nat)} {y : Region}
    (hy : y ∈ places 2048 w (sh.map Prod.snd)) : ∃ before x after, sh = before ++ x :: after ∧
      y = ⟨dataEnd 2048 w (before.map Prod.snd), x.2⟩ := by
  obtain ⟨before', after', hns, hoffset⟩ := Layout.exists_of_mem_places hy
  obtain ⟨before, rest, rfl, rfl, hrest⟩ := List.map_eq_append_iff.mp hns
  obtain ⟨x, after, rfl, hx, -⟩ := List.map_eq_cons_iff.mp hrest
  exact ⟨before, x, after, rfl, by rw [← hoffset, hx]⟩

end Shapes

/-- When all files of these sizes can be archived, the sizes fit. -/
theorem fits_of_forall {e : Endianness} {sh : List (Name × Nat)}
    (hdistinct : (sh.map Prod.fst).Nodup) (hsize : ∀ x ∈ sh, x.2 < 2 ^ 32)
    (hall : ∀ files, shape files = sh → RoundTrip e files) : Fits e (sh.map Prod.snd) := by
  have hlen : ∀ files, shape files = sh → files.length = sh.length := by
    rintro files rfl
    rw [shape, List.length_map]
  have hsizes : ∀ files, shape files = sh → sizes Prod.snd files = sh.map Prod.snd := by
    rintro files rfl
    exact map_snd_shape.symm
  have hreads : ∀ files, shape files = sh → ReadsAs e (created e files) files := by
    rintro files rfl
    obtain ⟨f, hf, hreads, -⟩ := hall files rfl
    have hlt : ∀ x ∈ files, x.2.length < 2 ^ 32 := fun x hx =>
      hsize (x.1, x.2.length) (List.mem_map_of_mem hx)
    obtain rfl := Except.ok.inj ((createGsl_eq hlt).symm.trans hf)
    exact hreads
  have hne : sh ≠ [] := by
    rintro rfl
    exact not_readsAs_nil (hreads [] rfl)
  have hclear : ∀ files, shape files = sh → ∀ x ∈ places 2048 (hdrlen files.length)
      (sizes Prod.snd files), x.size ≠ 0 → 48 * files.length ≤ x.offset := by
    intro files hfiles
    obtain ⟨-, -, -, hclear⟩ := hall files hfiles
    exact hclear
  have hscan := fun files (hfiles : shape files = sh) =>
    @scan_of_readsAs e files (by rintro rfl; exact hne hfiles.symm)
      (by rwa [← map_fst_shape, hfiles]) (hclear files hfiles) (hreads files hfiles)
  obtain ⟨r, o, hguess, -, hkeep, -⟩ := hscan (sh.map fill) (shape_fill sh)
  rw [hlen _ (shape_fill sh), hsizes _ (shape_fill sh)] at hguess
  refine ⟨fun hnil => hne (List.map_eq_nil_iff.mp hnil), ?_, r, o, ?_, ?_⟩
  · -- data directly behind the table is read as a name
    intro y hy hdata
    rw [List.length_map] at hy ⊢
    obtain ⟨before, x, after, rfl, rfl⟩ := exists_split hy
    have hfiles := @shape_startsWith before after x hdata 1
    have hle := hclear _ hfiles
    have hstored := @stored_created e _ hle
    obtain ⟨-, -, -, hzero, -⟩ := hscan _ hfiles
    rw [hlen _ hfiles, hsizes _ hfiles] at hle
    rw [hlen _ hfiles] at hstored hzero
    have hone := (Layout.at_of_stored item_pieces hstored 0 1 rfl).2
    rw [sizes_before, Nat.add_zero] at hone
    refine Nat.lt_of_le_of_ne (hle _ hy hdata) fun heq => ?_
    simp only at heq
    rw [heq, hone] at hzero
    exact absurd hzero (by decide)
  · rw [List.length_map]
    exact hguess
  · intro y hy hdata
    rw [List.length_map] at hy
    have hsize' : (inTable r (written e) y).size = y.size := by
      rw [hlen _ (shape_fill sh)] at hkeep
      rw [← hsizes _ (shape_fill sh), ← map_snd_lines] at hy
      obtain ⟨z, hz, rfl⟩ := List.mem_map.mp hy
      exact hkeep z hz
    obtain ⟨before, x, after, rfl, rfl⟩ := exists_split hy
    have hplace := @eq_of_forall_at e before after x (inTable r (written e)
      ⟨dataEnd 2048 (hdrlen (before ++ x :: after).length) (before.map Prod.snd), x.2⟩).offset
      hdata fun c => by
        have hfiles := @shape_startsWith before after x hdata c
        obtain ⟨r', o', hguess', -, -, hleads⟩ := hscan _ hfiles
        rw [hlen _ hfiles, hsizes _ hfiles] at hguess'
        rw [hlen _ hfiles] at hleads
        obtain ⟨rfl, -⟩ := Prod.mk.inj (Except.ok.inj (hguess'.symm.trans hguess))
        have hat := at_of_leads hleads
        rw [sizes_before] at hat
        exact hat
    exact congrArg₂ Region.mk hplace hsize'

/-- Archives of files with these names and sizes all read back, whatever is in the files, exactly
when the sizes fit. The same order of bytes is chosen for creating and reading. -/
theorem createGsl_roundTrip_iff {e : Endianness} {sh : List (Name × Nat)}
    (hdistinct : (sh.map Prod.fst).Nodup) (hsize : ∀ x ∈ sh, x.2 < 2 ^ 31) :
    (∀ files, shape files = sh → RoundTrip e files) ↔ Fits e (sh.map Prod.snd) := by
  have hlt : ∀ x ∈ sh, x.2 < 2 ^ 32 := fun x hx => Nat.lt_trans (hsize x hx) (by decide)
  constructor
  · exact fits_of_forall hdistinct hlt
  · rintro hfits files rfl
    rw [map_snd_shape] at hfits
    rw [map_fst_shape] at hdistinct
    exact roundTrip_of_fits hdistinct
      (fun x hx => hlt (x.1, x.2.length) (List.mem_map_of_mem hx)) hfits

theorem createGsl_roundTrip_small :
    RoundTrip .auto [(⟨[0x61], by decide, by decide, by decide⟩, []),
      (⟨[0x62], by decide, by decide, by decide⟩, [1, 2, 3])] :=
  (@createGsl_roundTrip_iff .auto [(⟨[0x61], by decide, by decide, by decide⟩, 0),
      (⟨[0x62], by decide, by decide, by decide⟩, 3)] (by decide) (by decide)).mpr
    ⟨by decide, by decide, .big, 0, by decide, by decide⟩ _ rfl

/-- A table of one record has no room, and the file is written over its own name. -/
theorem not_readsAs_oneFile :
    let files : List (Name × List UInt8) := [(⟨[0x61], by decide, by decide, by decide⟩, [1])]
    ∃ f, createGsl .auto (args files) = .ok f ∧ ¬ ReadsAs .auto f files := by
  intro files
  refine ⟨created .auto files, createGsl_eq (by decide), ?_⟩
  rintro ⟨⟨lines, hprinted, hlines⟩, -⟩
  have hscan : printGslFiles .auto (created .auto files) = .ok (1, [(0, [1], ⟨0, 1⟩)]) := by
    decide
  obtain ⟨-, rfl⟩ := Prod.mk.inj (Except.ok.inj (hscan.symm.trans hprinted))
  exact absurd hlines (by decide)

end Sylverant.Archive.Gsl
