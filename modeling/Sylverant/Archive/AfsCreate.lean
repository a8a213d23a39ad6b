/-
# Creating AFS archives

`create_afs` refuses more files than the table holds, but it does not look at the offsets.
An archive of up to four gigabytes reads back as the files it was made of. A file with data
behind the first four gigabytes is stored under the offset it has modulo `2 ^ 32`, where
its data does not stand.
-/

import Sylverant.Archive.AfsRead

namespace Sylverant.Archive.Afs

open RandomAccess (Image Stream)
open Layout (Region Occupies places dataEnd putItem putItems padTo)

/-- The archive that is created for files whose sizes fit into 32 bits. -/
def created (files : List (List UInt8)) : Image :=
  putItems 2048 (Image.empty.write 0 (header files.length)) 8 0x80000 (files.map item)

section Create

variable {files : List (List UInt8)}

theorem createAfs_eq (hcount : files.length ≤ 65535) (hsize : ∀ c ∈ files, c.length < 2 ^ 32) :
    createAfs files = .ok (created files) := by
  have hadd := @addFilesToAfs_eq (Image.empty.write 0 (header files.length)) 8 0x80000 files
  rw [map_cut hsize] at hadd
  rw [createAfs, if_neg (Nat.not_lt.mpr hcount)]
  simp only [Stream.put, Stream.seek, length_header, Nat.zero_add]
  rw [hadd]
  rfl

theorem fit_created (hcount : files.length ≤ 65535) :
    Layout.Fit 2048 0x80000 8 0x80000 (files.map item) := by
  refine Layout.fit_of_le (by decide) ?_ (Nat.le_refl _)
  rw [List.length_map]
  omega

theorem stored_created (hcount : files.length ≤ 65535) :
    Layout.Stored 2048 (created files) 8 0x80000 (files.map item) :=
  Layout.stored_putItems (by decide) (fit_created hcount)

theorem header_created (hcount : files.length ≤ 65535) :
    (created files).At 0 (header files.length) :=
  Image.at_write.keep (Layout.keeps_putItems (by decide) (fit_created hcount))
    fun i hi => .inl (by rw [length_header] at hi; omega)

theorem hasTable_created (hcount : files.length ≤ 65535) (hsize : ∀ c ∈ files, c.length < 2 ^ 32) :
    HasTable (created files) ((places 2048 0x80000 (files.map List.length)).map inTable) :=
  hasTable_of_stored (header_created hcount) hcount (stored_created hcount) hsize

/-- Behind the reserved table, data whose offsets fit overlaps nothing. -/
theorem noOverlap_places {ns : List Nat} (hcount : ns.length ≤ 65535)
    (hfit : OffsetsFit (places 2048 0x80000 ns)) :
    NoOverlap ((places 2048 0x80000 ns).map inTable) where
  apart := by
    have hkept : ∀ e ∈ places 2048 0x80000 ns, e.size ≠ 0 → inTable e = e := by
      intro e he hsize
      rw [inTable, Nat.mod_eq_of_lt (hfit e he hsize)]
    refine List.pairwise_map.mpr
      ((List.Pairwise.and_mem.mp (Layout.pairwise_places (by decide))).imp ?_)
    rintro a b ⟨ha, hb, hle⟩
    by_cases hsizes : a.size = 0 ∨ b.size = 0
    · exact hsizes.imp_right fun h => .inl h
    · rw [not_or] at hsizes
      rw [hkept a ha hsizes.1, hkept b hb hsizes.2]
      exact .inr (.inr (.inl hle))
  table e he hsize := by
    obtain ⟨e, hplace, rfl⟩ := List.mem_map.mp he
    have hle := Layout.le_offset (by decide) hplace
    have hkept : (inTable e).offset = e.offset := Nat.mod_eq_of_lt (hfit e hplace hsize)
    rw [hkept, List.length_map, Layout.length_places]
    omega

/-- An archive whose offsets fit reads as its files. -/
theorem readsAs_created (hcount : files.length ≤ 65535) (hsize : ∀ c ∈ files, c.length < 2 ^ 32)
    (hfit : OffsetsFit (places 2048 0x80000 (files.map List.length))) :
    ReadsAs (created files) files := by
  have htable := hasTable_created hcount hsize
  have hdata := occupies_table (occupies_of_stored (stored_created hcount)) hfit
  refine ⟨⟨_, ?_, ?_, noOverlap_places ?_ hfit⟩, fun fn => extractAfs_eq htable hdata⟩
  · rw [printAfsFiles_eq htable, hdata.length_eq]
  · rw [List.map_map]
    exact Layout.map_size_places
  · rwa [List.length_map]

/-- An archive whose offsets fit is well formed. -/
theorem holds_created (hcount : files.length ≤ 65535) (hsize : ∀ c ∈ files, c.length < 2 ^ 32)
    (hfit : OffsetsFit (places 2048 0x80000 (files.map List.length))) :
    Holds (created files) files :=
  holds_of_stored (header_created hcount) hcount (stored_created hcount) hsize hfit

/-- What reads back stands where the table says. -/
theorem occupies_of_readsAs (hcount : files.length ≤ 65535) (hsize : ∀ c ∈ files, c.length < 2 ^ 32)
    (h : ReadsAs (created files) files) :
    List.Forall₂ (Occupies (created files))
      ((places 2048 0x80000 (files.map List.length)).map inTable) files :=
  occupies_of_extractAfs (hasTable_created hcount hsize) (h.extracted "")

/-- The contents of one file, from the table of all. -/
theorem occupies_of_append {f : Image} {w : Nat} {before after : List (List UInt8)} {c : List UInt8}
    (h : List.Forall₂ (Occupies f)
      ((places 2048 w ((before ++ c :: after).map List.length)).map inTable)
      (before ++ c :: after)) :
    f.At (dataEnd 2048 w (before.map List.length) % 2 ^ 32) c := by
  rw [List.map_append, Layout.places_append, List.map_append, List.map_cons, places,
    List.map_cons] at h
  have hlen : ((places 2048 w (before.map List.length)).map inTable).length = before.length := by
    rw [List.length_map, Layout.length_places, List.length_map]
  have hdrop := List.forall₂_drop before.length h
  rw [List.drop_left, ← hlen, List.drop_left] at hdrop
  cases hdrop with
  | cons hfile _ => exact hfile.2

end Create

/-- What a file behind the first four gigabytes starts with makes no difference to the bytes at
the offset that is stored for it. -/
theorem exists_not_at {f : Image} {t w n : Nat} {before : List Nat} (after : List Nat) (hn : n ≠ 0)
    (hfar : 2 ^ 32 ≤ dataEnd 2048 w before) :
    ∃ (as bs : List (List UInt8)) (c : List UInt8),
      (as ++ c :: bs).map List.length = before ++ n :: after ∧ as.map List.length = before ∧
      ¬ (putItems 2048 f t w ((as ++ c :: bs).map item)).At (dataEnd 2048 w before % 2 ^ 32) c := by
  by_contra hall
  push Not at hall
  let file : UInt8 → List UInt8 := fun b => b :: zeros (n - 1)
  have hfile : ∀ b, (file b).length = n := by
    intro b
    rw [List.length_cons, zeros, List.length_replicate]
    omega
  have hbyte : ∀ b, (putItems 2048 f t w
      ((before.map zeros ++ file b :: after.map zeros).map item)).byte
        (dataEnd 2048 w before % 2 ^ 32) = b := by
    intro b
    refine (hall _ _ (file b) ?_ (map_length_zeros before) 0 b rfl).2
    rw [List.map_append, List.map_cons, map_length_zeros, map_length_zeros, hfile]
  have hless : dataEnd 2048 w before % 2 ^ 32 < dataEnd 2048 w before :=
    Nat.lt_of_lt_of_le (Nat.mod_lt _ (by decide)) hfar
  have hsame := @Layout.byte_putItems _ 8 item (fun c => c) 2048 t w
    (dataEnd 2048 w before % 2 ^ 32) f (before.map zeros) (after.map zeros) (file 0) (file 1)
    item_pieces (by rw [hfile, hfile]) (by simp only [item, hfile]) fun hle => by
      rw [sizes_contents, map_length_zeros] at hle
      omega
  rw [hbyte, hbyte] at hsame
  exact absurd hsame (by decide)

/-- A file with data behind the first four gigabytes can be lost. -/
theorem exists_not_readsAs {before after : List Nat} {n : Nat} (hn : n ≠ 0)
    (hfar : 2 ^ 32 ≤ dataEnd 2048 0x80000 before) (hcount : (before ++ n :: after).length ≤ 65535)
    (hsize : ∀ m ∈ before ++ n :: after, m < 2 ^ 32) :
    ∃ files : List (List UInt8), files.map List.length = before ++ n :: after ∧
      ¬ ReadsAs (created files) files := by
  obtain ⟨as, bs, c, hlen, hbefore, hnot⟩ := @exists_not_at
    (Image.empty.write 0 (header (before ++ n :: after).length)) 8 0x80000 n before after hn hfar
  refine ⟨as ++ c :: bs, hlen, fun hreads => ?_⟩
  have hfew : (as ++ c :: bs).length = (before ++ n :: after).length := by
    rw [← hlen, List.length_map]
  rw [← hfew] at hnot
  have hat := occupies_of_append (occupies_of_readsAs (by rwa [hfew])
    (fun d hd => hsize _ (hlen ▸ List.mem_map_of_mem hd)) hreads)
  rw [hbefore] at hat
  exact hnot hat

/-- Archives of files with these sizes all read back, whatever is in the files, exactly when the
data of every file that has any starts in the first four gigabytes. -/
theorem createAfs_roundTrip_iff {ns : List Nat} (hcount : ns.length ≤ 65535)
    (hsize : ∀ n ∈ ns, n < 2 ^ 31) :
    (∀ files : List (List UInt8), files.map List.length = ns →
      ∃ f, createAfs files = .ok f ∧ ReadsAs f files) ↔ OffsetsFit (places 2048 0x80000 ns) := by
  have hsizes : ∀ files : List (List UInt8), files.map List.length = ns →
      files.length ≤ 65535 ∧ ∀ c ∈ files, c.length < 2 ^ 32 := by
    rintro files rfl
    refine ⟨by rwa [List.length_map] at hcount, fun c hc => ?_⟩
    exact Nat.lt_trans (hsize _ (List.mem_map_of_mem hc)) (by decide)
  constructor
  · intro hall e he hdata
    obtain ⟨before, after, rfl, hoffset⟩ := Layout.exists_of_mem_places he
    rw [hoffset]
    by_contra hfar
    have hsmall : ∀ m ∈ before ++ e.size :: after, m < 2 ^ 32 :=
      fun m hm => Nat.lt_trans (hsize m hm) (by decide)
    obtain ⟨files, hlen, hnot⟩ := exists_not_readsAs hdata (Nat.not_lt.mp hfar) hcount hsmall
    obtain ⟨f, hf, hreads⟩ := hall files hlen
    obtain ⟨hfew, hlt⟩ := hsizes files hlen
    obtain rfl := Except.ok.inj ((createAfs_eq hfew hlt).symm.trans hf)
    exact hnot hreads
  · rintro hfit files rfl
    obtain ⟨hfew, hsmall⟩ := hsizes files rfl
    exact ⟨_, createAfs_eq hfew hsmall, readsAs_created hfew hsmall hfit⟩

theorem createAfs_roundTrip_small :
    ∃ f, createAfs [[1, 2, 3], [], [4]] = .ok f ∧ ReadsAs f [[1, 2, 3], [], [4]] :=
  (@createAfs_roundTrip_iff [3, 0, 1] (by decide) (by decide)).mpr (by decide) _ rfl

/-- Two files of zeros push a third one to four gigabytes behind the first, and it reads back as
the first byte of that one. -/
theorem not_readsAs_fourGigabytes :
    let files := [zeros (2 ^ 31 - 1), zeros (2 ^ 31 - 1), [1]]
    (∀ c ∈ files, c.length < 2 ^ 31) ∧ ¬ ∃ f, createAfs files = .ok f ∧ ReadsAs f files := by
  intro files
  have hzeros : (zeros (2 ^ 31 - 1)).length = 2 ^ 31 - 1 := List.length_replicate
  have hlt : ∀ c ∈ files, c.length < 2 ^ 31 := by
    intro c hc
    simp only [files, List.mem_cons, List.not_mem_nil, or_false] at hc
    obtain rfl | rfl | rfl := hc
    · rw [hzeros]
      decide
    · rw [hzeros]
      decide
    · decide
  refine ⟨hlt, ?_⟩
  rintro ⟨f, hf, hreads⟩
  have hcount : files.length ≤ 65535 := by decide
  have hsize : ∀ c ∈ files, c.length < 2 ^ 32 :=
    fun c hc => Nat.lt_trans (hlt c hc) (by decide)
  obtain rfl := Except.ok.inj ((createAfs_eq hcount hsize).symm.trans hf)
  have hdata := occupies_of_readsAs hcount hsize hreads
  have hfirst := @occupies_of_append (created files) 0x80000 [] [zeros (2 ^ 31 - 1), [1]]
    (zeros (2 ^ 31 - 1)) hdata
  have hthird := @occupies_of_append (created files) 0x80000
    [zeros (2 ^ 31 - 1), zeros (2 ^ 31 - 1)] [] [1] hdata
  have hfar :
      dataEnd 2048 0x80000 ([zeros (2 ^ 31 - 1), zeros (2 ^ 31 - 1)].map List.length) % 2 ^ 32 =
        0x80000 := by
    simp only [List.map_cons, List.map_nil, hzeros]
    decide
  have hnear :
      dataEnd 2048 0x80000 (([] : List (List UInt8)).map List.length) % 2 ^ 32 = 0x80000 := by
    decide
  have hone := (hthird 0 1 rfl).2
  have hzero := (hfirst 0 0 (by rw [zeros, List.getElem?_replicate]; rfl)).2
  rw [hfar] at hone
  rw [hnear] at hzero
  exact absurd (hone.symm.trans hzero) (by decide)

end Sylverant.Archive.Afs
