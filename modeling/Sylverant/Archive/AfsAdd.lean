/-
# Adding to AFS archives

The new files go behind the copies of the old ones. For an archive without files there are
no copies, and the position that is taken for the end of the data is the start of the table,
so that the first new file is written over its own entry.
-/

import Sylverant.Archive.AfsCreate
import Sylverant.Archive.AfsEdit

namespace Sylverant.Archive.Afs

open RandomAccess (Image Stream)
open Layout (Region Occupies places dataEnd putItem putItems padTo)

/-- Where `add_to_afs` puts the first new file. -/
def addedAt (olds : List Nat) : Nat := if olds = [] then 8 else dataEnd 2048 0x80000 olds

/-- The copies of the old files all start in the first four gigabytes. -/
def CopiesFit (olds : List Nat) : Prop := ∀ e ∈ places 2048 0x80000 olds, e.offset < 2 ^ 32

/-- There is room behind the copies for new files of these sizes: the table holds all files, and
the new ones start in the first four gigabytes, behind the table. -/
structure AddFits (olds news : List Nat) : Prop where
  count : olds.length + news.length ≤ 65535
  size : ∀ n ∈ news, n < 2 ^ 32
  offset : OffsetsFit (places 2048 (addedAt olds) news)
  table : ∀ e ∈ places 2048 (addedAt olds) news, e.size ≠ 0 →
    8 + 8 * (olds.length + news.length) ≤ e.offset

/-- The archive that is written. -/
def added (cs files : List (List UInt8)) : Image :=
  putItems 2048
    ((putItems 2048 Image.empty 8 0x80000 (cs.map item)).write 0
      (header (cs.length + files.length)))
    (cs.length * 8 + 8) (addedAt (cs.map List.length)) (files.map item)

section Adding

variable {f : Image} {cs files : List (List UInt8)} {limit t w : Nat}

theorem addToAfs_eq (h : Holds f cs) (hcount : cs.length + files.length ≤ 65535)
    (hsize : ∀ c ∈ files, c.length < 2 ^ 32)
    (hcopied : CopiesFit (cs.map List.length)) : addToAfs f files = .ok (added cs files) := by
  obtain ⟨es, htable, hdata⟩ := h
  have hvisit := @visit_copyFileCb f Image.empty es cs es.length 0 0x80000 8 hdata
    (fun _ => if_pos rfl) (by omega) hcopied
  have hadd := @addFilesToAfs_eq
    ((putItems 2048 Image.empty 8 0x80000 (cs.map item)).write 0
      (header (cs.length + files.length))) (cs.length * 8 + 8) (addedAt (cs.map List.length)) files
  have hat : (if cs = [] then 8 else dataEnd 2048 0x80000 (cs.map List.length)) =
      addedAt (cs.map List.length) := by
    rw [addedAt]
    exact if_congr List.map_eq_nil_iff.symm rfl rfl
  rw [map_cut hsize] at hadd
  rw [hat] at hvisit
  rw [addToAfs, scanAfs_eq htable, hvisit]
  simp only [Int.toNat_natCast, hdata.length_eq, Stream.put, Stream.seek, Nat.zero_mul,
    Nat.zero_add]
  rw [if_neg (Int.not_lt.mpr (Int.natCast_nonneg _)), if_neg (Nat.not_lt.mpr hcount), hadd]
  rfl

/-- The new items fit into the table behind the old ones. -/
theorem fit_added {olds : List Nat} (h : AddFits olds (files.map List.length)) :
    Layout.Fit 2048 (8 + 8 * (olds.length + files.length)) (olds.length * 8 + 8) (addedAt olds)
      (files.map item) := by
  have hcount := h.count
  rw [List.length_map] at hcount
  refine Layout.fit_blocks item_pieces (by decide) (by decide) ?_ (by omega)
    fun e he hdata => ?_
  · cases olds with
    | nil => decide
    | cons n ns =>
        have hle := @Layout.le_dataEnd 2048 0x80000 (n :: ns) (by decide)
        have hmono : 0x80800 ≤ padTo 2048 (dataEnd 2048 0x80000 (n :: ns)) := by
          simp only [padTo]
          omega
        rw [addedAt, if_neg (List.cons_ne_nil n ns)]
        omega
  · have htable := h.table e he hdata
    rwa [List.length_map] at htable

theorem addedAt_nil : addedAt [] = 8 := rfl

theorem addedAt_of_ne_nil {olds : List Nat} (h : olds ≠ []) :
    addedAt olds = dataEnd 2048 0x80000 olds :=
  if_neg h

/-- When there is room, the archive holds the old files and then the new ones. -/
theorem holds_added (hold : ∀ c ∈ cs, c.length < 2 ^ 32)
    (hcopied : CopiesFit (cs.map List.length))
    (h : AddFits (cs.map List.length) (files.map List.length)) :
    Holds (added cs files) (cs ++ files) := by
  have hcount := h.count
  have hfit := fit_added h
  rw [List.length_map, List.length_map] at hcount
  rw [List.length_map] at hfit
  have hlen : (cs ++ files).length = cs.length + files.length := List.length_append
  have hsize : ∀ c ∈ cs ++ files, c.length < 2 ^ 32 := by
    intro c hc
    obtain hc | hc := List.mem_append.mp hc
    · exact hold c hc
    · exact h.size _ (List.mem_map_of_mem hc)
  have hkeeps := @Layout.keeps_putItems 8 2048 _ _ _
    ((putItems 2048 Image.empty 8 0x80000 (cs.map item)).write 0
      (header (cs.length + files.length))) _ (by decide) hfit
  have hnew := @Layout.stored_putItems 8 2048 _ _ _
    ((putItems 2048 Image.empty 8 0x80000 (cs.map item)).write 0
      (header (cs.length + files.length))) _ (by decide) hfit
  have hheader : (added cs files).At 0 (header (cs ++ files).length) := by
    rw [hlen]
    exact Image.at_write.keep hkeeps fun i hi => .inl (by rw [length_header] at hi; omega)
  by_cases hnil : cs = []
  · -- the table is all there was
    subst hnil
    exact holds_of_stored (w := 8) hheader (by omega) hnew hsize h.offset
  · have hne : cs.map List.length ≠ [] := fun h => hnil (List.map_eq_nil_iff.mp h)
    have hoffset := h.offset
    rw [addedAt_of_ne_nil hne] at hkeeps hnew hoffset
    have hspace : Layout.Fit 2048 0x80000 8 0x80000 (cs.map item) := by
      refine Layout.fit_of_le (by decide) ?_ (Nat.le_refl _)
      rw [List.length_map]
      omega
    have hcopies := @Layout.stored_putItems 8 2048 0x80000 8 0x80000 Image.empty (cs.map item)
      (by decide) hspace
    -- neither the header nor the new items touch the copies
    have hbefore := hcopies.keep (by decide)
      (@Image.keeps_write _ 0 (header (cs.length + files.length))) hspace
      (fun i hi _ => .inr (by rw [length_header]; omega))
      fun i hi _ => .inr (by rw [length_header]; omega)
    have hafter := hbefore.keep (by decide) hkeeps hspace
      (fun i _ hi => .inl (by rw [List.length_map] at hi; omega))
      fun i hi hlt => .inr ⟨by omega, by rwa [ends_items] at hlt⟩
    have hadded : added cs files = putItems 2048
        ((putItems 2048 Image.empty 8 0x80000 (cs.map item)).write 0
          (header (cs.length + files.length)))
        (cs.length * 8 + 8) (dataEnd 2048 0x80000 (cs.map List.length)) (files.map item) := by
      rw [added, addedAt_of_ne_nil hne]
    refine holds_of_stored hheader (by omega) (w := 0x80000) ?_ hsize ?_
    · rw [List.map_append, Layout.stored_append, ends_items, List.length_map]
      have htable : 8 + 8 * cs.length = cs.length * 8 + 8 := by omega
      rw [htable, hadded]
      exact ⟨hafter, hnew⟩
    · rw [List.map_append, Layout.places_append, offsetsFit_append]
      exact ⟨fun e he _ => hcopied e he, hoffset⟩

end Adding

/-! ## What goes wrong without room -/

section Lost

variable {g : Image} {as bs cs ds files : List (List UInt8)} {c d : List UInt8} {w : Nat}

/-- In a well-formed archive a file's data stands where its entry says. -/
theorem at_of_offset (h : Holds g (as ++ c :: bs)) (hat : g.At (8 + 8 * as.length) (le32 w)) :
    g.At (w % 2 ^ 32) c := by
  obtain ⟨es, htable, hdata⟩ := h
  have hdrop := List.forall₂_drop as.length hdata
  rw [List.drop_left] at hdrop
  have hsplit := htable.table_at
  rw [← List.take_append_drop as.length es, tableAt_append] at hsplit
  have hlen : (es.take as.length).length = as.length := by
    refine List.length_take_of_le ?_
    rw [hdata.length_eq, List.length_append]
    omega
  rw [hlen] at hsplit
  obtain ⟨-, hsplit⟩ := hsplit
  have hmem : ∀ e ∈ es.drop as.length, e ∈ es := fun e he => List.mem_of_mem_drop he
  generalize es.drop as.length = rest at hdrop hsplit hmem
  cases hdrop with
  | @cons e _ es' _ hfile _ =>
      have hrecord : g.At (8 + 8 * as.length) (le32 e.offset) := (Image.at_append.mp hsplit.1).1
      have hsame : le32 e.offset = le32 w := hrecord.read.symm.trans hat.read
      have hoffset : e.offset = w % 2 ^ 32 := by
        rw [← ofLe32_le32, ← hsame,
          ofLe32_le32_of_lt (htable.offset_lt e (hmem e List.mem_cons_self))]
      rw [← hoffset]
      exact hfile.2

theorem added_nil : added [] files =
    putItems 2048 (Image.empty.write 0 (header (0 + files.length))) 8 8 (files.map item) :=
  rfl

/-- Writing zeros keeps the zeros that are there. -/
theorem at_zeros_write {f : Image} {p q m k : Nat} (h : f.At p (zeros m)) :
    (f.write q (zeros k)).At p (zeros m) := by
  intro i b hi
  obtain ⟨hlt, hbyte⟩ := h i b hi
  obtain rfl : b = 0 := List.eq_of_mem_replicate (List.mem_of_getElem? hi)
  exact ⟨Nat.lt_of_lt_of_le hlt Image.length_le_write,
    Image.byte_write_zero hbyte fun c hc => List.eq_of_mem_replicate hc⟩

/-- The first file of an archive that had none is written over its own entry. -/
theorem not_holds_first {n : Nat} (hn : n ≠ 0) :
    ¬ Holds (added [] (zeros n :: bs)) (zeros n :: bs) := by
  intro h
  obtain ⟨n, rfl⟩ := Nat.exists_eq_succ_of_ne_zero hn
  have hcons : zeros (n + 1) = [0] ++ zeros n := List.replicate_succ
  have hrecord : ((Image.empty.write 0 (header (0 + (zeros (n + 1) :: bs).length))).write 8
      (record 8 (zeros (n + 1)).length)).At 9 (zeros 3) := by
    have hat := @Image.at_write (Image.empty.write 0 (header (0 + (zeros (n + 1) :: bs).length))) 8
      ([8] ++ (zeros 3 ++ le32 (zeros (n + 1)).length))
    exact (Image.at_append.mp (Image.at_append.mp hat).2).1
  have hdata : (((Image.empty.write 0 (header (0 + (zeros (n + 1) :: bs).length))).write 8
      (record 8 (zeros (n + 1)).length)).write 8 (zeros (n + 1))).At 8 ([0] ++ zeros 3) := by
    refine Image.at_append.mpr ⟨?_, at_zeros_write hrecord⟩
    rw [hcons]
    exact (Image.at_append.mp Image.at_write).1
  have hoffset : (added [] (zeros (n + 1) :: bs)).At (8 + 8 * ([] : List (List UInt8)).length)
      (le32 0) := by
    rw [added_nil]
    refine (@at_zeros_write _ 8 (padTo 2048 (8 + (zeros (n + 1)).length) - 1) 4 1 hdata).keep
      (Layout.keeps_putItems_low (by decide)) fun i hi => ?_
    have hpad : 2048 ≤ Layout.behind 2048 8 (item (zeros (n + 1))).pieces := by
      simp only [Layout.behind, item, padTo]
      omega
    have hfour : i < 4 := hi
    exact ⟨by omega, by omega⟩
  have hzero := (@at_of_offset _ [] _ _ _ h hoffset 0 0 (by rw [hcons]; rfl)).2
  obtain ⟨es, htable, -⟩ := h
  have hmagic := (htable.header_at 0 0x41 rfl).2
  exact absurd (hmagic.symm.trans hzero) (by decide)

/-- The entry of a file survives when it is before the file's data, and leads there. -/
theorem entry_putItems {f : Image} {t : Nat}
    (hle : t + 8 * as.length + 8 ≤ dataEnd 2048 w (as.map List.length)) :
    (putItems 2048 f t w ((as ++ c :: bs).map item)).At (t + 8 * as.length)
      (le32 (dataEnd 2048 w (as.map List.length))) :=
  (Image.at_append.mp (Layout.record_putItems item_pieces (by decide) hle)).1

/-- Data in the table, from the second file on, is written over by the entry of a later file. -/
theorem not_holds_later (has : as ≠ []) (hw : dataEnd 2048 8 (as.map List.length) = w)
    (htable : 8 + 8 * (as.length + (c :: bs).length) = w) (hc : c.head? = some 1) :
    ¬ Holds (added [] (as ++ c :: (bs ++ d :: ds))) (as ++ c :: (bs ++ d :: ds)) := by
  intro h
  have hcount := h.length_le
  rw [List.length_append, List.length_cons, List.length_append, List.length_cons] at hcount
  rw [List.length_cons] at htable
  have hfar : 2048 * as.length ≤ w := by
    have hle := @Layout.le_dataEnd_mul 2048 8 (as.map List.length) (by decide)
    rwa [List.length_map, hw] at hle
  have hlen : 0 < as.length := List.length_pos_iff.mpr has
  -- the entry of the file leads to its data
  have hentry := @entry_putItems as (bs ++ d :: ds) c 8
    (Image.empty.write 0 (header (0 + (as ++ c :: (bs ++ d :: ds)).length))) 8 (by omega)
  rw [hw, ← added_nil] at hentry
  have hone := (at_of_offset h hentry 0 1 (by rw [← List.head?_eq_getElem?]; exact hc)).2
  rw [Nat.mod_eq_of_lt (by omega)] at hone
  -- where the entry of a later file stands
  have hassoc : as ++ c :: (bs ++ d :: ds) = (as ++ c :: bs) ++ d :: ds := by
    rw [List.append_assoc, List.cons_append]
  have hplace : 8 + 8 * (as ++ c :: bs).length = w := by
    rw [List.length_append, List.length_cons]
    omega
  have hlater := @entry_putItems (as ++ c :: bs) ds d 8
    (Image.empty.write 0 (header (0 + (as ++ c :: (bs ++ d :: ds)).length))) 8 (by
      have hle := @Layout.le_dataEnd_mul 2048 8 ((as ++ c :: bs).map List.length) (by decide)
      rw [List.length_map] at hle
      omega)
  rw [← hassoc, ← added_nil, hplace] at hlater
  obtain ⟨k, hk⟩ : 2048 ∣ dataEnd 2048 8 ((as ++ c :: bs).map List.length) := by
    obtain ⟨a, as, rfl⟩ := List.exists_cons_of_ne_nil has
    exact Layout.dvd_dataEnd
  have hlow : UInt8.ofNat (2048 * k) = 0 := by
    apply UInt8.toNat.inj
    rw [UInt8.toNat_ofNat', UInt8.toNat_zero]
    omega
  have hzero := (hlater 0 0 (by rw [hk, le32, List.getElem?_cons_zero, hlow])).2
  exact absurd (hzero.symm.trans hone) (by decide)

/-- Data that reads back is behind the table. -/
theorem table_of_forall {olds news : List Nat} {e : Region}
    (hcount : olds.length + news.length ≤ 65535) (he : e ∈ places 2048 (addedAt olds) news)
    (hdata : e.size ≠ 0)
    (hall : olds = [] → ∀ files : List (List UInt8), files.map List.length = news →
      Holds (added [] files) files) :
    8 + 8 * (olds.length + news.length) ≤ e.offset := by
  by_cases holds : olds = []
  · subst holds
    have hall := hall rfl
    obtain ⟨before, after, rfl, hoffset⟩ := Layout.exists_of_mem_places he
    rw [addedAt_nil] at hoffset
    by_contra hin
    by_cases hfirst : before = []
    · -- the first file
      subst hfirst
      refine not_holds_first hdata (hall (zeros e.size :: after.map zeros) ?_)
      rw [List.map_cons, map_length_zeros, zeros, List.length_replicate]
      rfl
    · -- the entry of a later file is where the data starts
      obtain ⟨k, hk⟩ : 2048 ∣ dataEnd 2048 8 before := by
        obtain ⟨b, before, rfl⟩ := List.exists_cons_of_ne_nil hfirst
        exact Layout.dvd_dataEnd
      have hfar := @Layout.le_dataEnd_mul 2048 8 before (by decide)
      have hlen : 0 < before.length := List.length_pos_iff.mpr hfirst
      simp only [List.length_append, List.length_cons, List.length_nil] at hin hcount
      obtain ⟨q, hq⟩ : ∃ q, before.length + (q + 2) = 256 * k :=
        ⟨256 * k - 2 - before.length, by omega⟩
      have hlt : q < after.length := by omega
      have hsplit : after = after.take q ++ after[q] :: after.drop (q + 1) := by
        rw [← List.drop_eq_getElem_cons hlt, List.take_append_drop]
      have hfile : (1 :: zeros (e.size - 1)).length = e.size := by
        rw [List.length_cons, zeros, List.length_replicate]
        omega
      refine @not_holds_later (before.map zeros) ((after.take q).map zeros)
        ((after.drop (q + 1)).map zeros) (1 :: zeros (e.size - 1)) (zeros after[q])
        (dataEnd 2048 8 before) (fun h => hfirst (List.map_eq_nil_iff.mp h))
        (by rw [map_length_zeros]) ?_ rfl (hall _ ?_)
      · rw [List.length_map, List.length_cons, List.length_map,
          List.length_take_of_le (Nat.le_of_lt hlt), hk]
        omega
      · conv_rhs => rw [hsplit]
        rw [List.map_append, List.map_cons, hfile, List.map_append, List.map_cons,
          map_length_zeros, map_length_zeros, map_length_zeros, zeros, List.length_replicate]
  · have hle : 0x80000 ≤ addedAt olds := by
      rw [addedAt_of_ne_nil holds]
      exact Layout.le_dataEnd (by decide)
    have hoffset := Layout.le_offset (by decide) he
    omega

end Lost

/-- New files of these sizes are all added, whatever is in them, exactly when there is room. -/
theorem addToAfs_iff {f : Image} {cs : List (List UInt8)} {news : List Nat} (h : Holds f cs)
    (hcopied : CopiesFit (cs.map List.length)) :
    (∀ files : List (List UInt8), files.map List.length = news →
      ∃ g, addToAfs f files = .ok g ∧ Holds g (cs ++ files)) ↔
      AddFits (cs.map List.length) news := by
  constructor
  · intro hall
    have hcount : cs.length + news.length ≤ 65535 := by
      obtain ⟨g, -, hg⟩ := hall (news.map zeros) (map_length_zeros news)
      have hle := hg.length_le
      rwa [List.length_append, List.length_map] at hle
    have hsize : ∀ files : List (List UInt8), files.map List.length = news →
        ∀ c ∈ files, c.length < 2 ^ 32 := by
      intro files hfiles c hc
      obtain ⟨g, -, hg⟩ := hall files hfiles
      exact hg.length_lt c (List.mem_append_right _ hc)
    have hadded : ∀ files : List (List UInt8), files.map List.length = news →
        Holds (added cs files) (cs ++ files) := by
      intro files hfiles
      obtain ⟨g, hok, hg⟩ := hall files hfiles
      have hlen : files.length = news.length := by rw [← hfiles, List.length_map]
      have heq := addToAfs_eq h (by omega) (hsize files hfiles) hcopied
      obtain rfl := Except.ok.inj (heq.symm.trans hok)
      exact hg
    refine ⟨by rwa [List.length_map], fun n hn => ?_, fun e he hdata => ?_, fun e he hdata => ?_⟩
    · rw [← map_length_zeros news] at hn
      obtain ⟨c, hc, rfl⟩ := List.mem_map.mp hn
      exact hsize _ (map_length_zeros news) c hc
    · obtain ⟨before, after, rfl, hoffset⟩ := Layout.exists_of_mem_places he
      rw [hoffset]
      by_contra hfar
      obtain ⟨as, bs, c, hlen, hbefore, hnot⟩ := @exists_not_at
        ((putItems 2048 Image.empty 8 0x80000 (cs.map item)).write 0
          (header (cs.length + (before ++ e.size :: after).length)))
        (cs.length * 8 + 8) (addedAt (cs.map List.length)) e.size before after hdata
        (Nat.not_lt.mp hfar)
      have hsame : (before ++ e.size :: after).length = (as ++ c :: bs).length := by
        rw [← hlen, List.length_map]
      have hholds := hadded _ hlen
      have hassoc : cs ++ (as ++ c :: bs) = (cs ++ as) ++ c :: bs := (List.append_assoc ..).symm
      have hentry := @entry_putItems as bs c (addedAt (cs.map List.length))
        ((putItems 2048 Image.empty 8 0x80000 (cs.map item)).write 0
          (header (cs.length + (as ++ c :: bs).length)))
        (cs.length * 8 + 8) (by
          rw [hbefore]
          have hfew := congrArg List.length hbefore
          rw [List.length_map] at hfew
          rw [List.length_append] at hcount
          omega)
      have hplace : cs.length * 8 + 8 + 8 * as.length = 8 + 8 * (cs ++ as).length := by
        rw [List.length_append]
        omega
      rw [hassoc] at hholds
      rw [hplace, hbefore] at hentry
      rw [hsame] at hnot
      exact hnot (at_of_offset hholds hentry)
    · refine table_of_forall (by rwa [List.length_map]) he hdata fun hnil files hfiles => ?_
      obtain rfl := List.map_eq_nil_iff.mp hnil
      exact hadded files hfiles
  · rintro hfit files rfl
    have hcount := hfit.count
    rw [List.length_map, List.length_map] at hcount
    have hsize : ∀ c ∈ files, c.length < 2 ^ 32 := fun c hc => hfit.size _ (List.mem_map_of_mem hc)
    exact ⟨_, addToAfs_eq h hcount hsize hcopied, holds_added h.length_lt hcopied hfit⟩

/-- Edits of an archive that holds files with contents `cs`. Adding is right for whatever is in the
new files exactly when there is room for them, and deleting and updating are right when the files
of the new archive start in the first four gigabytes. -/
theorem edits_faithful {f : Image} {cs : List (List UInt8)} (h : Holds f cs) :
    (CopiesFit (cs.map List.length) → ∀ news : List Nat,
      (∀ files : List (List UInt8), files.map List.length = news →
        ∃ g, addToAfs f files = .ok g ∧ Holds g (cs ++ files)) ↔
          AddFits (cs.map List.length) news) ∧
    (∀ items, (∀ i ∈ items, i < cs.length) →
      OffsetsFit (places 2048 0x80000 ((kept items cs).map List.length)) →
        ∃ g, deleteFromAfs f items = .ok g ∧ Holds g (kept items cs)) ∧
    (∀ k file, k < cs.length → file.length < 2 ^ 32 →
      OffsetsFit (places 2048 0x80000 ((cs.set k file).map List.length)) →
        ∃ g, updateAfs f k file = .ok g ∧ Holds g (cs.set k file)) :=
  ⟨fun hcopied _ => addToAfs_iff h hcopied, fun _ => deleteFromAfs_eq h,
    fun _ _ => updateAfs_eq h⟩

theorem edits_twoFiles :
    (∃ g, addToAfs (created [[1, 2, 3], [4]]) [[5, 6]] = .ok g ∧ Holds g [[1, 2, 3], [4], [5, 6]]) ∧
    (∃ g, deleteFromAfs (created [[1, 2, 3], [4]]) [0] = .ok g ∧ Holds g [[4]]) ∧
    ∃ g, updateAfs (created [[1, 2, 3], [4]]) 1 [7] = .ok g ∧ Holds g [[1, 2, 3], [7]] := by
  have hholds : Holds (created [[1, 2, 3], [4]]) [[1, 2, 3], [4]] :=
    holds_created (by decide) (by decide) (by decide)
  obtain ⟨hadd, hdelete, hupdate⟩ := edits_faithful hholds
  have hroom : AddFits [3, 1] [2] := ⟨by decide, by decide, by decide, by decide⟩
  have hcopied : CopiesFit [3, 1] := by
    unfold CopiesFit
    decide
  exact ⟨(hadd hcopied [2]).mpr hroom [[5, 6]] rfl, hdelete [0] (by decide) (by decide),
    hupdate 1 [7] (by decide) (by decide) (by decide)⟩

/-- Adding to an archive without files writes the new file over its own entry. -/
theorem not_holds_addedToNone :
    Holds (created []) [] ∧ ¬ ∃ g, addToAfs (created []) [[0]] = .ok g ∧ Holds g [[0]] := by
  have hholds : Holds (created []) [] := holds_created (by decide) (by decide) (by decide)
  refine ⟨hholds, ?_⟩
  rintro ⟨g, hok, hg⟩
  have heq := @addToAfs_eq _ _ [[0]] hholds (by decide) (by decide) fun e he => (nomatch he)
  obtain rfl := Except.ok.inj (heq.symm.trans hok)
  exact @not_holds_first [] 1 (by decide) hg

end Sylverant.Archive.Afs
