/-
# Updating BML archives

`update_bml` copies every entry and pads each piece with `pad_file`, which always goes on to
the next multiple of 32. The reader stays where it is when a piece ends at a multiple. So an
update is right when the replacement survives compression, and no piece of the new archive but
the last has a size that is a multiple of 32. Otherwise the reader looks for the first piece
behind such a one in its padding, and what it finds there cannot be decompressed.
-/

import Sylverant.Archive.BmlRead

namespace Sylverant.Archive.Bml

open RandomAccess (Image Stream)
open Layout (padTo roundTo endBy behind ChainAt Ragged putItem putItems Stored)
open Prs (prsCompress prsDecompressBuf2 malloc)

/-- A well-formed archive holds files with different names, and is smaller than 2 GiB. -/
structure WellFormed (f : Image) (files : List BmlFile) : Prop extends Holds f files where
  distinct : (files.map BmlFile.name).Nodup
  small : f.length < 2 ^ 31

/-- A file whose contents are replaced. -/
def BmlFile.withMain (x : BmlFile) (main : Piece) : BmlFile := { x with main := main }

/-- The update succeeds. The new archive has the same names in the same order, its data is where
the reader looks for it, and everything is decompressed as before, except for the one file, which
has the new contents. -/
def Faithful (mem : Memory) (f : Image) (files : List BmlFile) (k : Nat) (x : BmlFile)
    (file : List UInt8) : Prop :=
  ∃ g main, main.contents = file ∧ updateBml mem f x.name file false = .ok g ∧
    Holds g (files.set k (x.withMain main)) ∧
    (∃ ls, listBml g = .ok ls ∧
      ls.map (fun l => (l.i, l.filename)) = files.zipIdx.map fun y => (y.2, y.1.name)) ∧
    ∀ junk, decompressBml junk none g = .ok (outputs (files.set k (x.withMain main)))

/-- The file survives being compressed and decompressed again. -/
def Packs (mem : Memory) (file comp : List UInt8) : Prop :=
  readAndCmp mem file = some (comp, file.length % 2 ^ 32) ∧
    Unpacks comp (file.length % 2 ^ 32) file

/-- A file as an item of the archive. -/
def item (x : BmlFile) : Layout.Item 64 where
  record _ := x.entry.bytes
  pieces := x.datas
  length_record _ := length_entry

/-- The archive that is written for these files. -/
def written (files : List BmlFile) : Image :=
  putItems 32 (Image.empty.write 0 (hdrbuf files.length)) 64 (hdrlen files.length)
    (files.map item)

/-! ## Copying entries -/

section Copying

variable {f g : Image} {x : BmlFile} {xs : List BmlFile} {i w t q tt ww : Nat} {p : Piece}
  {mem : Memory} {fn file comp : List UInt8} {nus : Nat}

theorem padTo_sub_add (n : Nat) : padTo 32 n - 1 + 1 = padTo 32 n :=
  Nat.sub_add_cancel (Nat.zero_lt_of_lt (Layout.lt_padTo (by decide) n))

/-- An entry with another name is copied. -/
theorem copyUpdate_other (hname : fn ≠ x.name) (hsized : x.Sized)
    (hchain : ChainAt readerNext f w x.datas) :
    ∃ q', copyUpdate mem fn file false ⟨f, t⟩ x.entry i w (nextOffset w x.main.data.length)
        ⟨⟨g, q⟩, tt, ww⟩ =
      .ok ⟨⟨putItem 32 g tt ww (item x), q'⟩, tt + 64, behind 32 ww x.datas⟩ := by
  have hname' : ¬ fn = x.entry.name := hname
  have hsizes : x.entry.csize = x.main.data.length := rfl
  have hmain : f.At w x.main.data := hchain.1
  have hcopy := @copyFile_eq ⟨g.write tt x.entry.bytes, ww⟩ ⟨f, w⟩ x.main.data hmain
  simp only [copyUpdate, if_neg hname', Stream.put, Stream.seek, hsizes]
  rw [hcopy]
  simp only [padFile_put, padTo_sub_add]
  cases hpvm : x.pvm with
  | none =>
      rw [BmlFile.pvmCsize_none hpvm, BmlFile.datas_none hpvm]
      simp only [ne_eq, not_true_eq_false, if_false, putItem, item, BmlFile.datas_none hpvm,
        Layout.putPieces, behind]
      exact ⟨_, rfl⟩
  | some p =>
      rw [BmlFile.datas_some hpvm] at hchain
      have hne : p.data.length ≠ 0 :=
        BmlFile.pvmCsize_some hpvm ▸ hsized.pvmCsize_ne hpvm
      have hat : f.At (nextOffset w x.main.data.length) p.data := hchain.2.1
      have hcopy' := @copyFile_eq
        ⟨Layout.putPiece 32 (g.write tt x.entry.bytes) ww x.main.data,
          padTo 32 (ww + x.main.data.length)⟩
        ⟨f, nextOffset w x.main.data.length⟩ p.data hat
      rw [BmlFile.pvmCsize_some hpvm, BmlFile.datas_some hpvm]
      simp only [ne_eq, hne, not_false_eq_true, if_true]
      rw [hcopy']
      simp only [padFile_put, putItem, item, BmlFile.datas_some hpvm, Layout.putPieces, behind]
      exact ⟨_, rfl⟩

/-- The entry that is updated is written with the new data, and its PVM is copied. -/
theorem copyUpdate_same (hcmp : readAndCmp mem file = some (comp, nus)) (hsized : x.Sized)
    (hchain : ChainAt readerNext f w x.datas) :
    ∃ q', copyUpdate mem x.name file false ⟨f, t⟩ x.entry i w (nextOffset w x.main.data.length)
        ⟨⟨g, q⟩, tt, ww⟩ =
      .ok ⟨⟨putItem 32 g tt ww (item (x.withMain ⟨comp, nus, file⟩)), q'⟩, tt + 64,
        behind 32 ww (x.withMain ⟨comp, nus, file⟩).datas⟩ := by
  have hname : x.name = x.entry.name := rfl
  have hentry : { x.entry with csize := comp.length, usize := nus } =
    (x.withMain ⟨comp, nus, file⟩).entry := rfl
  simp only [copyUpdate, if_pos hname, hcmp, Bool.false_eq_true, if_false, Stream.put,
    Stream.seek, hentry]
  have hpad := @padFile_put comp (g.write tt (x.withMain ⟨comp, nus, file⟩).entry.bytes) ww 32
  simp only [Stream.put] at hpad
  simp only [hpad, padTo_sub_add, or_false]
  cases hpvm : x.pvm with
  | none =>
      have hpvm' : (x.withMain ⟨comp, nus, file⟩).pvm = none := hpvm
      rw [BmlFile.pvmCsize_none hpvm, BmlFile.datas_none hpvm']
      simp only [ne_eq, not_true_eq_false, if_false, putItem, item, BmlFile.datas_none hpvm',
        Layout.putPieces, behind]
      exact ⟨_, rfl⟩
  | some p =>
      have hpvm' : (x.withMain ⟨comp, nus, file⟩).pvm = some p := hpvm
      rw [BmlFile.datas_some hpvm] at hchain
      have hne : p.data.length ≠ 0 :=
        BmlFile.pvmCsize_some hpvm ▸ hsized.pvmCsize_ne hpvm
      have hat : f.At (nextOffset w x.main.data.length) p.data := hchain.2.1
      have hcopy := @copyFile_eq
        ⟨Layout.putPiece 32 (g.write tt (x.withMain ⟨comp, nus, file⟩).entry.bytes) ww comp,
          padTo 32 (ww + comp.length)⟩
        ⟨f, nextOffset w x.main.data.length⟩ p.data hat
      rw [BmlFile.pvmCsize_some hpvm, BmlFile.datas_some hpvm']
      simp only [ne_eq, hne, not_false_eq_true, if_true]
      rw [hcopy]
      simp only [padFile_put, putItem, item, BmlFile.datas_some hpvm', Layout.putPieces, behind]
      exact ⟨_, rfl⟩

/-- Entries with other names are copied. -/
theorem visit_copyUpdate_others (hnames : ∀ x ∈ xs, fn ≠ x.name) (hsized : ∀ x ∈ xs, x.Sized)
    (hchain : ChainAt readerNext f w (datas xs)) :
    ∃ q', visit (copyUpdate mem fn file false) f i w t xs ⟨⟨g, q⟩, tt, ww⟩ =
      .ok ⟨⟨putItems 32 g tt ww (xs.map item), q'⟩, tt + 64 * xs.length,
        behind 32 ww (datas xs)⟩ := by
  induction xs generalizing i w t g q tt ww with
  | nil => exact ⟨q, rfl⟩
  | cons x xs ih =>
      rw [datas, List.flatMap_cons, Layout.chainAt_append] at hchain
      obtain ⟨q', hfirst⟩ := @copyUpdate_other f g x i w (t + 64) q tt ww mem fn file
        (hnames x List.mem_cons_self) (hsized x List.mem_cons_self) hchain.1
      obtain ⟨q'', hrest⟩ := @ih (putItem 32 g tt ww (item x)) (i + 1)
        (endBy readerNext w x.datas) (t + 64) q' (tt + 64) (behind 32 ww x.datas)
        (fun y hy => hnames y (List.mem_cons_of_mem _ hy))
        (fun y hy => hsized y (List.mem_cons_of_mem _ hy)) hchain.2
      have hpos : tt + 64 * (x :: xs).length = tt + 64 + 64 * xs.length := by
        rw [List.length_cons]
        omega
      rw [visit, hfirst, hpos, datas, List.flatMap_cons, Layout.behind_append]
      exact ⟨q'', hrest⟩

theorem visit_append {σ : Type} {cb : Callback σ} {ys : List BmlFile} {d : σ} :
    visit cb f i w t (xs ++ ys) d =
      match visit cb f i w t xs d with
      | .error rv => .error rv
      | .ok d => visit cb f (i + xs.length) (endBy readerNext w (datas xs))
          (t + 64 * xs.length) ys d := by
  induction xs generalizing i w t d with
  | nil => rfl
  | cons x xs ih =>
      rw [List.cons_append, visit, visit]
      cases cb ⟨f, t + 64⟩ x.entry i w (nextOffset w x.main.data.length) d with
      | error rv => rfl
      | ok d =>
          have hpos : t + 64 * (x :: xs).length = t + 64 + 64 * xs.length := by
            rw [List.length_cons]
            omega
          have hindex : i + (x :: xs).length = i + 1 + xs.length := by
            rw [List.length_cons]
            omega
          rw [hpos, hindex, datas, List.flatMap_cons, Layout.endBy_append]
          exact ih

end Copying

/-! ## The new archive -/

section Update

variable {mem : Memory} {f g : Image} {files as bs : List BmlFile} {x : BmlFile}
  {file comp : List UInt8} {nus : Nat}

/-- An update writes the archive with the new data in place of the old. -/
theorem updateBml_eq (h : WellFormed f (as ++ x :: bs))
    (hcmp : readAndCmp mem file = some (comp, nus)) :
    updateBml mem f x.name file false =
      .ok (written (as ++ x.withMain ⟨comp, nus, file⟩ :: bs)) := by
  have hsized := h.sized
  have hdistinct := h.distinct
  have hchain := h.chain
  rw [List.map_append, List.map_cons, List.nodup_append] at hdistinct
  obtain ⟨-, hbs, has⟩ := hdistinct
  rw [List.nodup_cons] at hbs
  rw [datas, List.flatMap_append, List.flatMap_cons, Layout.chainAt_append,
    Layout.chainAt_append] at hchain
  have hlen : (as ++ x.withMain ⟨comp, nus, file⟩ :: bs).length = (as ++ x :: bs).length := by
    rw [List.length_append, List.length_append, List.length_cons, List.length_cons]
  have hhdr : (hdrbuf (as ++ x :: bs).length).length = 64 := rfl
  have hx := hsized x (List.mem_append_right _ List.mem_cons_self)
  rw [updateBml, openBml_eq h.magic h.count]
  simp only [h.toListed.scanBml, Stream.put, hhdr, Nat.zero_add]
  rw [written, hlen]
  generalize hdrlen (as ++ x :: bs).length = w at hchain
  generalize Image.empty.write 0 (hdrbuf (as ++ x :: bs).length) = g
  obtain ⟨q₁, hfront⟩ := @visit_copyUpdate_others f g as 0 w 64 64 64 w mem x.name file
    (fun y hy => (has y.name (List.mem_map_of_mem hy) x.name List.mem_cons_self).symm)
    (fun y hy => hsized y (List.mem_append_left _ hy)) hchain.1
  obtain ⟨q₂, hsame⟩ := @copyUpdate_same f (putItems 32 g 64 w (as.map item)) x (0 + as.length)
    (endBy readerNext w (datas as)) (64 + 64 * as.length + 64) q₁ (64 + 64 * as.length)
    (behind 32 w (datas as)) mem file comp nus hcmp hx hchain.2.1
  obtain ⟨q₃, hback⟩ := @visit_copyUpdate_others f
    (putItem 32 (putItems 32 g 64 w (as.map item)) (64 + 64 * as.length) (behind 32 w (datas as))
      (item (x.withMain ⟨comp, nus, file⟩))) bs (0 + as.length + 1)
    (endBy readerNext (endBy readerNext w (datas as)) x.datas) (64 + 64 * as.length + 64) q₂
    (64 + 64 * as.length + 64)
    (behind 32 (behind 32 w (datas as)) (x.withMain ⟨comp, nus, file⟩).datas) mem x.name file
    (fun y hy heq => hbs.1 (heq ▸ List.mem_map_of_mem hy))
    (fun y hy => hsized y (List.mem_append_right _ (List.mem_cons_of_mem _ hy))) hchain.2.2
  have hvisit := @visit_append f as 0 w 64 _ (copyUpdate mem x.name file false) (x :: bs)
    ⟨⟨g, 64⟩, 64, w⟩
  simp only [hfront, visit, hsame, hback] at hvisit
  have hends : Layout.ends 32 w (as.map item) = behind 32 w (datas as) := by
    rw [Layout.ends, List.flatMap_map]
    rfl
  rw [List.map_append, Layout.putItems_append, hends, List.length_map]
  simp only [hvisit]
  rfl

end Update

/-! ## Reading the new archive -/

/-- All the positions of the reader fit into 32 bits. -/
def Bounded (w : Nat) (ps : List (List UInt8)) : Prop :=
  ∀ as p bs, ps = as ++ p :: bs → endBy (roundTo 32) w as < 2 ^ 32

section Reading

variable {f : Image} {files : List BmlFile} {t w : Nat} {as bs ps : List (List UInt8)}
  {p q : List UInt8}

theorem flatMap_item : (files.map item).flatMap Layout.Item.pieces = datas files := by
  rw [List.flatMap_map]
  rfl

theorem recordsAt_of_stored (h : Stored 32 f t w (files.map item)) : RecordsAt f t files := by
  induction files generalizing t w with
  | nil => trivial
  | cons x xs ih => exact ⟨h.1, ih h.2.2⟩

theorem stored_written (hcount : files.length < 2 ^ 25) :
    Stored 32 (written files) 64 (hdrlen files.length) (files.map item) := by
  refine Layout.stored_putItems (by decide)
    (Layout.fit_of_le (by decide) ?_ (Nat.le_refl (hdrlen files.length)))
  rw [List.length_map]
  exact table_le_hdrlen hcount

/-- The table of the new archive is right in any case. -/
theorem listed_written (hcount : files.length < 2 ^ 25) (hsized : ∀ x ∈ files, x.Sized) :
    Listed (written files) files := by
  refine ⟨?_, recordsAt_of_stored (stored_written hcount), hcount, hsized⟩
  have hhdr : (Image.empty.write 0 (hdrbuf files.length)).At 0 (magic files.length) :=
    (Image.at_append.mp Image.at_write).1
  have hle := table_le_hdrlen hcount
  refine hhdr.keep (Layout.keeps_putItems_low (by decide)) fun i hi => ?_
  rw [length_magic] at hi
  exact ⟨by omega, by omega⟩

/-- Behind a piece there is a zero. -/
theorem byte_written (hcount : files.length < 2 ^ 25) (h : datas files = as ++ p :: bs) :
    (written files).byte (behind 32 (hdrlen files.length) as + p.length) = 0 := by
  have hle := table_le_hdrlen hcount
  have hbehind : hdrlen files.length ≤ behind 32 (hdrlen files.length) as :=
    Layout.le_behind (by decide)
  have hlen : (hdrbuf files.length).length = 64 := rfl
  refine Layout.byte_putItems_padding ?_ ?_ ?_
  · rw [Image.keeps_write.byte_eq _ (.inr (by rw [hlen]; omega))]
    rfl
  · rw [List.length_map]
    omega
  · rw [flatMap_item, h]
    exact Layout.not_inside_end (by decide)

/-- Where no piece ends at a multiple, the reader is where the writer was. -/
theorem reader_eq_writer (hcount : files.length < 2 ^ 25)
    (hbound : Bounded (hdrlen files.length) (datas files)) (h : datas files = as ++ p :: bs)
    (has : ∀ a ∈ as, ¬ 32 ∣ a.length) :
    endBy readerNext (hdrlen files.length) as = behind 32 (hdrlen files.length) as := by
  rw [endBy_readerNext (hbound as p bs h), Layout.behind_eq_roundTo (dvd_hdrlen hcount) has]

/-- The reader finds the pieces when they are ragged. -/
theorem chain_written (hcount : files.length < 2 ^ 25)
    (hbound : Bounded (hdrlen files.length) (datas files)) (h : Ragged 32 (datas files)) :
    ChainAt readerNext (written files) (hdrlen files.length) (datas files) := by
  refine Layout.chainAt_iff.mpr fun as p bs hsplit => ?_
  have hchain := Layout.chainAt_of_stored (stored_written hcount)
  rw [flatMap_item] at hchain
  have hat := Layout.chainAt_iff.mp hchain as p bs hsplit
  rw [hsplit] at h
  rwa [reader_eq_writer hcount hbound hsplit h.of_append, Layout.behind_eq_endBy]

/-- The reader finds something else behind the first piece that ends at a multiple. -/
theorem ragged_of_readParts (hcount : files.length < 2 ^ 25)
    (hbound : Bounded (hdrlen files.length) (datas files))
    (h : ∀ junk, readParts junk (written files) (hdrlen files.length) (parts files) =
      some (outputs files)) : Ragged 32 (datas files) := by
  by_contra hragged
  obtain ⟨as, p, q, bs, hsplit, hdvd, has⟩ := Layout.exists_of_not_ragged hragged
  have hsplit' : datas files = (as ++ [p]) ++ q :: bs := by
    rw [hsplit, List.append_assoc]
    rfl
  -- the reader looks at the end of the piece, and the writer has gone on
  have hreader : endBy readerNext (hdrlen files.length) (as ++ [p]) =
      behind 32 (hdrlen files.length) as + p.length := by
    have hw := dvd_hdrlen hcount
    have hend := @Layout.dvd_endBy_roundTo 32 (hdrlen files.length) as hw
    rw [endBy_readerNext (hbound _ q bs hsplit'), Layout.endBy_concat,
      Layout.roundTo_of_dvd ((Nat.dvd_add_right hend).mpr hdvd),
      Layout.behind_eq_roundTo hw has]
  have hparts : (parts files).map (fun y => y.2.data) = (as ++ [p]) ++ q :: bs := by
    rw [← datas_eq, hsplit']
  obtain ⟨ys, zs, hys, hfront, hback⟩ := List.map_eq_append_iff.mp hparts
  obtain ⟨y, zs, rfl, hq, -⟩ := List.map_eq_cons_iff.mp hback
  obtain ⟨data, hlen, hat, hunpacks⟩ := of_readParts h hys
  obtain ⟨b, rest, rfl, hne⟩ := hunpacks.head
  rw [hfront, hreader] at hat
  have hbyte := (hat 0 b rfl).2
  rw [Nat.add_zero, byte_written hcount hsplit] at hbyte
  exact hne hbyte.symm

/-- Bytes that stand at one position are the same. -/
theorem at_unique (h : f.At w p) (h' : f.At w q) (hlen : p.length = q.length) : p = q := by
  rw [← h.read, ← h'.read, hlen]

/-- In an archive that is small enough, the positions of the reader are, too. -/
theorem endBy_lt (hchain : ChainAt readerNext f w (as ++ p :: bs))
    (hne : ∀ a ∈ as ++ p :: bs, a ≠ []) (hsmall : f.length < 2 ^ 31) :
    endBy (roundTo 32) w as < 2 ^ 31 := by
  induction as generalizing w with
  | nil =>
      have hend := hchain.1.le_length (hne p List.mem_cons_self)
      rw [endBy]
      omega
  | cons a as ih =>
      have hend := hchain.1.le_length (hne a List.mem_cons_self)
      have hround : roundTo 32 (w + a.length) ≤ 2 ^ 31 :=
        Layout.roundTo_le (by decide) (by omega)
      have hrest := hchain.2
      rw [readerNext_eq (Nat.lt_of_le_of_lt hround (by decide))] at hrest
      exact ih hrest fun b hb => hne b (List.mem_cons_of_mem _ hb)

/-- A piece may be replaced by another of less than 2 GiB. -/
theorem bounded_replace (hw : 32 ∣ w) (hchain : ChainAt readerNext f w (as ++ p :: bs))
    (hne : ∀ a ∈ as ++ p :: bs, a ≠ []) (hsmall : f.length < 2 ^ 31) (hq : q.length < 2 ^ 31) :
    Bounded w (as ++ q :: bs) := by
  intro cs r ds hsplit
  have hround : roundTo 32 q.length ≤ 2 ^ 31 := Layout.roundTo_le (by decide) (by omega)
  obtain ⟨es, rfl, hes⟩ | ⟨es, rfl, hes⟩ := List.append_eq_append_iff.mp hsplit
  · cases es with
    | nil =>
        have hlt := endBy_lt hchain hne hsmall
        rw [List.append_nil]
        omega
    | cons e es =>
        -- the new piece is in front
        obtain ⟨rfl, rfl⟩ := List.cons.inj hes
        have hchain' : ChainAt readerNext f w ((as ++ p :: es) ++ r :: ds) := by
          rwa [List.append_assoc]
        have hlt := endBy_lt hchain' (by rwa [List.append_assoc]) hsmall
        rw [Layout.endBy_roundTo hw, List.map_append, List.sum_append, List.map_cons,
          List.sum_cons] at hlt ⊢
        omega
  · cases es with
    | nil =>
        rw [List.append_nil] at hchain hne
        have hlt := endBy_lt hchain hne hsmall
        omega
    | cons e es =>
        obtain ⟨rfl, rfl⟩ := List.cons.inj hes
        have hchain' : ChainAt readerNext f w (cs ++ r :: (es ++ p :: bs)) := by
          rwa [List.append_assoc] at hchain
        have hlt := endBy_lt hchain' (by rwa [List.append_assoc] at hne) hsmall
        omega

end Reading

/-! ## When an update is right -/

section Faithful

variable {mem : Memory} {f g : Image} {files as bs : List BmlFile} {x : BmlFile} {k : Nat}
  {file comp : List UInt8} {nus : Nat} {main : Piece}

theorem of_readAndCmp (h : readAndCmp mem file = some (comp, nus)) :
    comp.length < 2 ^ 31 ∧ nus = file.length % 2 ^ 32 := by
  rw [readAndCmp] at h
  by_cases hnil : file.length = 0
  · rw [prsCompress, if_pos hnil] at h
    cases h
  · rw [Prs.prsCompress_eq _ _ _ (Nat.pos_of_ne_zero hnil)] at h
    simp only at h
    split_ifs at h with hneg
    obtain ⟨rfl, rfl⟩ := Prod.mk.inj (Option.some.inj h)
    have hlt := CInt.ofInt_lt (Prs.streamSize (Prs.parse (fun i => file.getD i 0) file.length))
    have hle := List.length_take_le
      (CInt.ofInt (Prs.streamSize (Prs.parse (fun i => file.getD i 0) file.length))).toNat
      (Prs.serialise [] (Prs.parse (fun i => file.getD i 0) file.length))
    exact ⟨by omega, rfl⟩

theorem prefixOf_getD (file : List UInt8) :
    Lz77.prefixOf (fun i => file.getD i 0) file.length = file := by
  refine List.ext_getElem (Lz77.length_prefixOf _ _) fun i hi hi' => ?_
  simp only [Lz77.prefixOf, List.getElem_map, List.getElem_range, List.getD_eq_getElem?_getD,
    List.getElem?_eq_getElem hi', Option.getD_some]

/-- Below 2 GiB the size is returned as it is, and no error looks like a size. -/
theorem Unpacks.eq_ok {data contents : List UInt8} (h : Unpacks data nus contents)
    (hlt : nus < 2 ^ 31) (junk : Nat → UInt8) :
    prsDecompressBuf2 data (malloc junk nus) = (.ok (malloc junk nus).length, contents) := by
  obtain ⟨hrv, hblock⟩ := h junk
  refine Prod.ext ?_ hblock
  rw [Prs.length_malloc]
  have hlen := Prs.length_malloc junk nus
  generalize malloc junk nus = dst at *
  by_cases hshort : (data.length = 0 ∨ dst.length = 0) ∨ data.length < 3
  · exfalso
    rw [prsDecompressBuf2] at hrv
    split_ifs at hrv with hnone hfew
    · simp only [returned, Option.map_some, Prs.EINVAL, Option.some.injEq] at hrv
      omega
    · simp only [returned, Option.map_some, Prs.EBADMSG, Option.some.injEq] at hrv
      omega
    · exact hshort.elim hnone hfew
  obtain ⟨hfits, hfull⟩ := @Prs.prsDecompressBuf2_eq data (by omega) dst (by omega)
  by_cases hle : (Prs.Decoder.produced data).length ≤ dst.length
  · rw [(hfits hle).1] at hrv ⊢
    obtain ⟨d, hrun, -⟩ | ⟨d, hrun, -⟩ :=
      @Prs.run_small data (Nat.lt_of_le_of_lt hle (hlen ▸ hlt))
    · simp only [Prs.Decoder.returned, hrun, returned, Option.map_some, Prs.EBADMSG,
        Option.some.injEq] at hrv
      omega
    · simp only [Prs.Decoder.returned, hrun, returned, Option.map_some, Option.some.injEq] at hrv ⊢
      congr 1
      omega
  · rw [hfull (by omega)] at hrv
    simp only [returned, Option.map_some, Prs.ENOSPC, Option.some.injEq] at hrv
    omega

/-- A stream is decompressed to its expansion. -/
theorem unpacks_serialise {tokens : List Prs.Token} (hwf : Prs.WellFormed tokens)
    (hpos : 1 ≤ (Prs.expansion tokens).length) (hlt : (Prs.expansion tokens).length < 2 ^ 31) :
    Unpacks (Prs.serialise [] tokens) (Prs.expansion tokens).length (Prs.expansion tokens) := by
  intro junk
  have hlen := Prs.length_malloc junk (Prs.expansion tokens).length
  have hrun := Prs.prsDecompressBuf2_serialise hwf hlen (by rw [hlen]; exact hpos)
    (by rw [hlen]; exact hlt) [] []
  rw [List.append_nil, hlen] at hrun
  rw [hrun]
  refine ⟨?_, rfl⟩
  simp only [returned, Option.map_some]
  congr 1
  omega

/-- An update fails when the file cannot be compressed. -/
theorem updateBml_none (h : WellFormed f (as ++ x :: bs)) (hcmp : readAndCmp mem file = none) :
    updateBml mem f x.name file false = .error (-7) := by
  have hsame : x.name = x.entry.name := rfl
  rw [updateBml, openBml_eq h.magic h.count]
  simp only [h.toListed.scanBml]
  rw [visit_append]
  cases visit (copyUpdate mem x.name file false) f 0 (hdrlen (as ++ x :: bs).length) 64 as
      ⟨(Stream.mk Image.empty 0).put (hdrbuf (as ++ x :: bs).length), 64,
        hdrlen (as ++ x :: bs).length⟩ with
  | error rv => rfl
  | ok d => simp only [visit, copyUpdate, if_pos hsame, hcmp]

/-- The data of an archive with one piece in the middle. -/
theorem datas_split : datas (as ++ x :: bs) =
    datas as ++ x.main.data :: (x.pvm.toList.map Piece.data ++ datas bs) := by
  simp only [datas, List.flatMap_append, List.flatMap_cons, BmlFile.datas, BmlFile.parts,
    List.map_cons, List.map_map, List.cons_append]
  rfl

theorem parts_split : parts (as ++ x :: bs) =
    parts as ++ (x.name, x.main) ::
      (x.pvm.toList.map (fun p => (x.name ++ pvmSuffix, p)) ++ parts bs) := by
  simp only [parts, List.flatMap_append, List.flatMap_cons, BmlFile.parts, List.cons_append]

theorem outputs_withMain {main' : Piece} (h : main.contents = main'.contents) :
    outputs (as ++ x.withMain main :: bs) = outputs (as ++ x.withMain main' :: bs) := by
  simp only [outputs, parts_split, List.map_append, List.map_cons, BmlFile.withMain, h]
  rfl

theorem Holds.ne_nil (h : Holds f files) : ∀ p ∈ datas files, p ≠ [] := by
  intro p hp
  obtain ⟨x, hx, hp⟩ := List.mem_flatMap.mp hp
  obtain ⟨y, hy, rfl⟩ := List.mem_map.mp hp
  obtain ⟨b, rest, hdata, -⟩ := (h.unpacks x hx y hy).head
  rw [hdata]
  exact List.cons_ne_nil _ _

theorem Sized.withMain (h : x.Sized) (hcomp : comp.length < 2 ^ 31) (hnus : nus < 2 ^ 32) :
    (x.withMain ⟨comp, nus, file⟩).Sized where
  csize := Nat.lt_trans hcomp (by decide)
  usize := hnus
  pvmCsize := h.pvmCsize
  pvmUsize := h.pvmUsize
  ne_nil := h.ne_nil

/-- What is known of the new archive when the file can be compressed. -/
theorem listed_update (h : WellFormed f (as ++ x :: bs))
    (hcmp : readAndCmp mem file = some (comp, nus)) :
    Listed (written (as ++ x.withMain ⟨comp, nus, file⟩ :: bs))
        (as ++ x.withMain ⟨comp, nus, file⟩ :: bs) ∧
      Bounded (hdrlen (as ++ x.withMain ⟨comp, nus, file⟩ :: bs).length)
        (datas (as ++ x.withMain ⟨comp, nus, file⟩ :: bs)) := by
  obtain ⟨hcomp, hnus⟩ := of_readAndCmp hcmp
  have hlen : (as ++ x.withMain ⟨comp, nus, file⟩ :: bs).length = (as ++ x :: bs).length := by
    rw [List.length_append, List.length_append, List.length_cons, List.length_cons]
  have hcount : (as ++ x.withMain ⟨comp, nus, file⟩ :: bs).length < 2 ^ 25 := hlen ▸ h.count
  refine ⟨listed_written hcount fun y hy => ?_, ?_⟩
  · obtain hy | hy := List.mem_append.mp hy
    · exact h.sized y (List.mem_append_left _ hy)
    · obtain rfl | hy := List.mem_cons.mp hy
      · exact Sized.withMain (h.sized x (List.mem_append_right _ List.mem_cons_self)) hcomp
          (by omega)
      · exact h.sized y (List.mem_append_right _ (List.mem_cons_of_mem _ hy))
  · have hchain := h.chain
    have hne := h.toHolds.ne_nil
    rw [datas_split] at hchain hne
    rw [hlen, datas_split]
    exact bounded_replace (dvd_hdrlen h.count) hchain hne h.small hcomp

/-- Any split of the list at an index is a split at the file. -/
theorem exists_split (hk : files[k]? = some x) :
    ∃ as bs, files = as ++ x :: bs ∧ ∀ y, files.set k y = as ++ y :: bs := by
  obtain ⟨hlt, rfl⟩ := List.getElem?_eq_some_iff.mp hk
  refine ⟨files.take k, files.drop (k + 1), ?_, fun y => List.set_eq_take_append_cons_drop ▸ ?_⟩
  · rw [List.getElem_cons_drop, List.take_append_drop]
  · rw [if_pos hlt]

/-- After an update that is right the reader has found the new data, and each piece where the
writer put it. -/
theorem Faithful.exists_packs (h : WellFormed f (as ++ x :: bs))
    (hset : ∀ y, files.set k y = as ++ y :: bs) (hfaithful : Faithful mem f files k x file) :
    ∃ comp, Packs mem file comp ∧
      Ragged 32 (datas (as ++ x.withMain ⟨comp, file.length % 2 ^ 32, file⟩ :: bs)) := by
  obtain ⟨g, main, hcontents, hrun, -, -, hdec⟩ := hfaithful
  simp only [hset] at hdec
  cases hcmp : readAndCmp mem file with
  | none =>
      rw [updateBml_none h hcmp] at hrun
      cases hrun
  | some r =>
      obtain ⟨comp, nus⟩ := r
      obtain ⟨-, rfl⟩ := of_readAndCmp hcmp
      obtain ⟨hlisted, hbound⟩ := listed_update h hcmp
      rw [updateBml_eq h hcmp] at hrun
      obtain rfl := Except.ok.inj hrun
      have hsame := @outputs_withMain as bs x main ⟨comp, file.length % 2 ^ 32, file⟩ hcontents
      have hread := fun junk => hlisted.decompressBml.mp ((hdec junk).trans (by rw [hsame]))
      have hragged := ragged_of_readParts hlisted.count hbound hread
      obtain ⟨data, hlen, hat, hunpacks⟩ := of_readParts hread parts_split
      have hcomp := Layout.chainAt_iff.mp (chain_written hlisted.count hbound hragged) _ _ _
        datas_split
      rw [← datas_eq] at hat
      obtain rfl := at_unique hat hcomp hlen
      exact ⟨_, ⟨hcmp, hunpacks⟩, hragged⟩

/-- The new archive holds the files when its data can be decompressed and is where the reader
looks for it. -/
theorem holds_update (h : WellFormed f (as ++ x :: bs)) (hpacks : Packs mem file comp)
    (hragged : Ragged 32 (datas (as ++ x.withMain ⟨comp, file.length % 2 ^ 32, file⟩ :: bs))) :
    Holds (written (as ++ x.withMain ⟨comp, file.length % 2 ^ 32, file⟩ :: bs))
      (as ++ x.withMain ⟨comp, file.length % 2 ^ 32, file⟩ :: bs) := by
  obtain ⟨hcmp, hunpacks⟩ := hpacks
  obtain ⟨hlisted, hbound⟩ := listed_update h hcmp
  refine ⟨hlisted, chain_written hlisted.count hbound hragged, fun y hy z hz => ?_⟩
  obtain hy | hy := List.mem_append.mp hy
  · exact h.unpacks y (List.mem_append_left _ hy) z hz
  · obtain rfl | hy := List.mem_cons.mp hy
    · obtain rfl | hz := List.mem_cons.mp hz
      · exact hunpacks
      · exact h.unpacks x (List.mem_append_right _ List.mem_cons_self) z (List.mem_cons_of_mem _ hz)
    · exact h.unpacks y (List.mem_append_right _ (List.mem_cons_of_mem _ hy)) z hz

/-- A file of less than 2 GiB survives unless it is empty, its parse has a copy that is written
like the end marker, or it is packed into 2 GiB or more. -/
theorem exists_packs_iff (hlt : file.length < 2 ^ 31) :
    (∃ comp, Packs mem file comp) ↔ file ≠ [] ∧
      Prs.EdgeFree (Prs.parse (fun i => file.getD i 0) file.length) ∧
      Prs.streamSize (Prs.parse (fun i => file.getD i 0) file.length) < 2 ^ 31 := by
  have hmod : file.length % 2 ^ 32 = file.length := by omega
  have hfront := prefixOf_getD file
  by_cases hnil : file = []
  · refine ⟨?_, fun h => absurd hnil h.1⟩
    rintro ⟨comp, hcmp, -⟩
    rw [readAndCmp, prsCompress, if_pos (by rw [hnil]; rfl)] at hcmp
    cases hcmp
  have hpos : 1 ≤ file.length := List.length_pos_iff.mpr hnil
  have hcompress := Prs.prsCompress_eq mem.junk mem.base (fun i => file.getD i 0) hpos
  have hcovers := Prs.covers_parse (fun i => file.getD i 0) file.length
  have hmax := hcovers.streamSize_le
  rw [Prs.prsMaxCompressedSize_eq] at hmax
  generalize hsrc : (fun i => file.getD i 0) = src at *
  have hlength : (Prs.serialise [] (Prs.parse src file.length)).length =
      Prs.streamSize (Prs.parse src file.length) := FlagStream.length_pack ..
  by_cases hfits : Prs.streamSize (Prs.parse src file.length) < 2 ^ 31
  · -- the data is the whole stream
    have hcmp : readAndCmp mem file =
        some (Prs.serialise [] (Prs.parse src file.length), file.length) := by
      rw [readAndCmp, hsrc, hcompress, CInt.ofInt_natCast hfits]
      simp only [Int.toNat_natCast, hmod]
      rw [if_neg (Int.not_lt.mpr (Int.natCast_nonneg _)), List.take_of_length_le (by omega)]
    constructor
    · rintro ⟨comp, hcmp', hunpacks⟩
      rw [hcmp] at hcmp'
      obtain ⟨rfl, -⟩ := Prod.mk.inj (Option.some.inj hcmp')
      rw [hmod] at hunpacks
      have hbuf := Prs.prsDecompressBuf_of_buf2
        (by rw [Prs.length_malloc]; exact hlt) (fun _ => 0)
        (hunpacks.eq_ok hlt fun _ => 0)
      rw [Prs.length_malloc] at hbuf
      refine ⟨hnil, ?_, hfits⟩
      refine Prs.edgeFree_of_roundTrips (fun _ => 0) (fun _ => 0) 0 hpos hlt ?_
      refine (Prs.roundTrips_iff_decode _ _ _ hpos hlt).mpr ⟨hfits, ?_⟩
      rw [hfront]
      exact hbuf
    · rintro ⟨-, hedge, -⟩
      obtain ⟨hwf, hexpand⟩ := hcovers.wellFormed hedge
      rw [hfront] at hexpand
      have hunpacks := unpacks_serialise hwf (by rw [hexpand]; exact hpos)
        (by rw [hexpand]; exact hlt)
      rw [hexpand] at hunpacks
      exact ⟨_, by rw [hmod]; exact hcmp, by rw [hmod]; exact hunpacks⟩
  · refine ⟨?_, fun h => absurd h.2.2 hfits⟩
    rintro ⟨comp, hcmp, -⟩
    have hneg := CInt.ofInt_neg (n := (Prs.streamSize (Prs.parse src file.length) : Int))
      (by omega) (by omega)
    rw [readAndCmp, hsrc, hcompress] at hcmp
    simp only [if_pos hneg] at hcmp
    cases hcmp

/-- Replacing the contents of a file is right exactly when the new contents survive compression,
and then no piece of the new archive but the last has a size that is a multiple of 32. -/
theorem updateBml_faithful_iff (h : WellFormed f files) (hk : files[k]? = some x) :
    Faithful mem f files k x file ↔
      ∃ comp, Packs mem file comp ∧
        Ragged 32 (datas (files.set k (x.withMain ⟨comp, file.length % 2 ^ 32, file⟩))) := by
  obtain ⟨as, bs, rfl, hset⟩ := exists_split hk
  refine ⟨fun hfaithful => ?_, ?_⟩
  · simp only [hset]
    exact hfaithful.exists_packs h hset
  · rintro ⟨comp, hpacks, hragged⟩
    rw [hset] at hragged
    have hholds := holds_update h hpacks hragged
    rw [Faithful]
    simp only [hset]
    refine ⟨_, _, rfl, updateBml_eq h hpacks.1, hholds, ⟨_, hholds.toListed.listBml, ?_⟩,
      fun junk => hholds.decompressBml junk⟩
    rw [map_lines, List.zipIdx_append, List.zipIdx_append, List.map_append, List.map_append]
    rfl

end Faithful

/-! ## An archive of two files -/

namespace TwoFiles

/-- A file of 26 bytes, which are packed into 32. -/
def first : BmlFile where
  filename := 0x61 :: zeros 31
  length_filename := rfl
  terminated := List.mem_cons_of_mem _ (List.mem_replicate.mpr ⟨by decide, rfl⟩)
  unk := 0
  padding := zeros 12
  length_padding := rfl
  main :=
    let tokens := (List.range 26).map fun i => Prs.Token.literal (UInt8.ofNat i)
    ⟨Prs.serialise [] tokens, (Prs.expansion tokens).length, Prs.expansion tokens⟩
  pvm := none
  spare := 0

/-- A file of one byte. -/
def second : BmlFile where
  filename := 0x62 :: zeros 31
  length_filename := rfl
  terminated := List.mem_cons_of_mem _ (List.mem_replicate.mpr ⟨by decide, rfl⟩)
  unk := 0
  padding := zeros 12
  length_padding := rfl
  main :=
    let tokens := [Prs.Token.literal 65]
    ⟨Prs.serialise [] tokens, (Prs.expansion tokens).length, Prs.expansion tokens⟩
  pvm := none
  spare := 0

/-- The archive, with the data of the second file right behind that of the first. -/
def archive : Image :=
  (((Image.empty.write 0 (magic 2)).write 64 first.entry.bytes).write 128 second.entry.bytes).write
    2048 (first.main.data ++ second.main.data)

theorem wellFormed : WellFormed archive [first, second] := by
  have hsizes : first.main.data.length = 32 ∧ second.main.data.length = 4 := by decide
  have hentry : ∀ x : BmlFile, x.entry.bytes.length = 64 := fun _ => length_entry
  refine ⟨⟨⟨?_, ⟨?_, ?_, trivial⟩, by decide, ?_⟩, ⟨?_, ?_, trivial⟩, ?_⟩, by decide, ?_⟩
  · refine ((Image.at_write.keep Image.keeps_write fun i hi => .inl ?_).keep Image.keeps_write
      fun i hi => .inl ?_).keep Image.keeps_write fun i hi => .inl ?_
    all_goals
      rw [length_magic] at hi
      omega
  · refine (Image.at_write.keep Image.keeps_write fun i hi => .inl ?_).keep Image.keeps_write
      fun i hi => .inl ?_
    all_goals
      rw [hentry] at hi
      omega
  · refine Image.at_write.keep Image.keeps_write fun i hi => .inl ?_
    rw [hentry] at hi
    omega
  · intro x hx
    obtain rfl | rfl | hx := List.mem_cons.mp hx |>.imp_right List.mem_cons.mp
    · exact ⟨by decide, by decide, fun p hp => (nomatch hp), fun p hp => (nomatch hp),
        fun p hp => (nomatch hp)⟩
    · exact ⟨by decide, by decide, fun p hp => (nomatch hp), fun p hp => (nomatch hp),
        fun p hp => (nomatch hp)⟩
    · exact absurd hx List.not_mem_nil
  · exact (Image.at_append.mp Image.at_write).1
  · have hat := (Image.at_append.mp (@Image.at_write
      (((Image.empty.write 0 (magic 2)).write 64 first.entry.bytes).write 128 second.entry.bytes)
      2048 (first.main.data ++ second.main.data))).2
    rw [hsizes.1] at hat
    exact hat
  · intro x hx y hy
    obtain rfl | rfl | hx := List.mem_cons.mp hx |>.imp_right List.mem_cons.mp
    · rw [List.mem_singleton.mp hy]
      exact unpacks_serialise ⟨by decide, by decide⟩ (by decide) (by decide)
    · rw [List.mem_singleton.mp hy]
      exact unpacks_serialise ⟨by decide, by decide⟩ (by decide) (by decide)
    · exact absurd hx List.not_mem_nil
  · decide

end TwoFiles

/-- Replacing the second file by another byte. -/
theorem updateBml_faithful_twoFiles :
    Faithful ⟨fun _ => 0, 0⟩ TwoFiles.archive [TwoFiles.first, TwoFiles.second] 1 TwoFiles.second
        [66] ↔
      ∃ comp, Packs ⟨fun _ => 0, 0⟩ [66] comp ∧
        Ragged 32 (datas [TwoFiles.first, TwoFiles.second.withMain ⟨comp, 1, [66]⟩]) :=
  updateBml_faithful_iff TwoFiles.wellFormed rfl

/-- The update of the second file is lost, because the size of the first is a multiple of 32. -/
theorem not_faithful_twoFiles :
    ¬ Faithful ⟨fun _ => 0, 0⟩ TwoFiles.archive [TwoFiles.first, TwoFiles.second] 1
      TwoFiles.second [66] := by
  intro h
  obtain ⟨comp, -, hragged⟩ :=
    @Faithful.exists_packs ⟨fun _ => 0, 0⟩ TwoFiles.archive [TwoFiles.first, TwoFiles.second]
      [TwoFiles.first] [] TwoFiles.second 1 [66] TwoFiles.wellFormed (fun _ => rfl) h
  exact @Layout.Ragged.of_append 32 comp [TwoFiles.first.main.data] [] hragged
    TwoFiles.first.main.data List.mem_cons_self (by decide)

end Sylverant.Archive.Bml
