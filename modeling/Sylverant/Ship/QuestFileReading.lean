/-
# Reading quests from one file

A file is built from the two files of a quest when it has their headers, in either order, and
then their data in chunks, which may alternate in any way. Of such a file the .dat bytes
should be passed on, and any other file should be rejected unless it holds as many of them as it
says. The condition below says which files this holds for.
-/

import Sylverant.Ship.QuestFileChunks

namespace Sylverant.Ship.QuestFiles

open Bounded (Buf)

variable {sz : Nat} {buf : Buf UInt8 sz} {ver : Version}

/-! ## Files that are built from quests -/

/-- The header of a file that a version sends. -/
def fileLayout : Version → FileLayout
  | .dcv1 | .dcv2 => dcFile
  | .pc | .gc | .ep3 => pcFile
  | .bb => bbFile

/-- The chunks that a version sends. -/
def chunkLayout : Version → ChunkLayout
  | .dcv1 | .dcv2 | .gc | .ep3 => dcChunk
  | .pc => pcChunk
  | .bb => bbChunk

/-- `".bin"` -/
def dotBin : List UInt8 := [46, 98, 105, 110]

/-- A name stands in a field of 16 bytes. -/
structure Named (field name : List UInt8) : Prop where
  length_le : name.length ≤ 16
  clean : 0 ∉ name
  field_eq : ∃ rest, field = name ++ rest ∧ (name.length < 16 → rest.head? = some 0)

/-- The header of a file of so many bytes. -/
structure HeaderOf (F : FileLayout) (name : List UInt8) (length : Nat) (h : List UInt8) :
    Prop where
  size : h.length = F.size
  named : Named (h.drop F.nameAt) name
  length : littleEndian ((h.drop F.lengthAt).take 4) = length

/-- A chunk with a piece of a file. -/
structure ChunkOf (L : ChunkLayout) (name piece h : List UInt8) : Prop where
  size : h.length = L.stride
  type : littleEndian ((h.drop L.typeAt).take L.typeSize) = questChunkType
  len : littleEndian ((h.drop L.lenAt).take 2) = L.pktLen
  named : Named (h.drop L.nameAt) name
  small : piece.length ≤ 1024
  data : (h.drop L.dataAt).take piece.length = piece
  length : littleEndian ((h.drop L.lengthAt).take 4) = piece.length

/-- A piece of one of the two files, and its chunk. -/
structure Part where
  isDat : Bool
  piece : List UInt8
  chunk : List UInt8

/-- The bytes of one of the files. -/
def joined (isDat : Bool) (parts : List Part) : List UInt8 :=
  (parts.filter fun part => part.isDat = isDat).flatMap Part.piece

/-- How a file is built from the two files of a quest. -/
structure Build (ver : Version) (bin dat : List UInt8) where
  binName : List UInt8
  datName : List UInt8
  binHdr : List UInt8
  datHdr : List UInt8
  datFirst : Bool
  parts : List Part
  binName_ext : strrchr dot binName = some dotBin
  datName_ext : strrchr dot datName = some dotDat
  binHdr_of : HeaderOf (fileLayout ver) binName bin.length binHdr
  datHdr_of : HeaderOf (fileLayout ver) datName dat.length datHdr
  parts_of : ∀ part ∈ parts,
    ChunkOf (chunkLayout ver) (if part.isDat then datName else binName) part.piece part.chunk
  bin_eq : joined false parts = bin
  dat_eq : joined true parts = dat

/-- The bytes of the file. -/
def Build.bytes {bin dat : List UInt8} (b : Build ver bin dat) : List UInt8 :=
  (if b.datFirst then b.datHdr ++ b.binHdr else b.binHdr ++ b.datHdr) ++
    b.parts.flatMap Part.chunk

/-- The file is built from the two files. -/
def Built (ver : Version) (bin dat : List UInt8) (buf : Buf UInt8 sz) : Prop :=
  ∃ b : Build ver bin dat, buf.val = b.bytes

/-! ## What is said of a file -/

/-- The header at a place is that of a .dat file of so many bytes. -/
def DatAt (F : FileLayout) (buf : Buf UInt8 sz) (hdr n : Nat) : Prop :=
  ∃ fn, strncpy buf (hdr + F.nameAt) 16 = some fn ∧ strrchr dot fn = some dotDat ∧
    number buf (hdr + F.lengthAt) 4 = some n

/-- The header at a place is that of another file. -/
def OtherAt (F : FileLayout) (buf : Buf UInt8 sz) (hdr : Nat) : Prop :=
  ∃ fn, strncpy buf (hdr + F.nameAt) 16 = some fn ∧ strrchr dot fn ≠ some dotDat

/-- One of the headers says so many bytes for the .dat file, and it is the first that says so. -/
def Declares (F : FileLayout) (buf : Buf UInt8 sz) (n : Nat) : Prop :=
  DatAt F buf 0 n ∨ OtherAt F buf 0 ∧ DatAt F buf F.size n

/-- If the second header is looked at, then it is inside the file, or as much of it as it takes to
see that it is of another file. -/
def SecondInside (F : FileLayout) (buf : Buf UInt8 sz) : Prop :=
  OtherAt F buf 0 → OtherAt F buf F.size ∨ F.size + F.lengthAt + 4 ≤ sz

/-- The outcome, whatever is in the memory that is allocated. -/
def Gives (buf : Buf UInt8 sz) (ver : Version) (r : Outcome) : Prop :=
  ∀ malloc, ∃ rounds, readAndDecQst malloc buf ver rounds = some r

/-- The .dat bytes of a file that is built from a quest are passed on, and any other file is
rejected, or as many bytes are as it says. -/
def Extracts (buf : Buf UInt8 sz) (ver : Version) : Prop :=
  (∀ bin dat, Built ver bin dat buf → Gives buf ver (.data dat)) ∧
    ((¬∃ bin dat, Built ver bin dat buf) → 120 ≤ sz →
      Gives buf ver .rejected ∨
        ∃ dat, Gives buf ver (.data dat) ∧ Declares (fileLayout ver) buf dat.length)

/-- A file that is built from a quest is of another version than Episode 3, has a .dat file that is
not empty, and a size of 32 bits. In any other file the second header and the chunks that are
come to are inside as far as they are looked at. -/
def Extractable (buf : Buf UInt8 sz) (ver : Version) : Prop :=
  (∀ bin dat, Built ver bin dat buf → ver ≠ .ep3 ∧ dat ≠ [] ∧ sz < 2 ^ 32) ∧
    ((¬∃ bin dat, Built ver bin dat buf) → 120 ≤ sz → ver ≠ .ep3 →
      SecondInside (fileLayout ver) buf ∧
        ∀ n, Declares (fileLayout ver) buf n → n ≠ 0 → Sound (chunkLayout ver) buf n)

/-! ## The length of the .dat file -/

section Length

variable {F : FileLayout} {hdr n : Nat}

theorem number_lt {pos : Nat} (h : number buf pos 4 = some n) : n < 2 ^ 32 := by
  obtain ⟨bytes, hread, rfl⟩ := Option.map_eq_some_iff.mp h
  have hlength : bytes.length = 4 := by
    rw [Bounded.read] at hread
    split at hread
    · rename_i hinside
      rw [← Option.some.inj hread, List.length_take, List.length_drop, buf.property]
      omega
    · cases hread
  have hlt := Nat.ofDigits_lt_base_pow_length (b := 256) (l := bytes.map UInt8.toNat)
    (by decide) (by simp only [List.mem_map, forall_exists_index, and_imp]
                    rintro _ b - rfl
                    exact b.toNat_lt)
  rw [List.length_map, hlength] at hlt
  exact hlt

theorem datLength_dat (h : DatAt F buf hdr n) : datLength F buf hdr = some (some n) := by
  obtain ⟨fn, hfn, hext, hn⟩ := h
  rw [datLength, hfn]
  simp only [hext, if_true, hn, Option.map_some]

theorem datLength_other (h : OtherAt F buf hdr) : datLength F buf hdr = some none := by
  obtain ⟨fn, hfn, hext⟩ := h
  rw [datLength, hfn]
  exact if_neg hext

/-- A header that is inside the file is of one kind or the other. -/
theorem dat_or_other (buf : Buf UInt8 sz) (hdr : Nat) (h : hdr + F.lengthAt + 4 ≤ sz) :
    (∃ n, DatAt F buf hdr n) ∨ OtherAt F buf hdr := by
  have hname := F.name_le
  obtain ⟨fn, hfn⟩ := strncpy_inside buf (hdr + F.nameAt) 16 (by omega)
  by_cases hext : strrchr dot fn = some dotDat
  · obtain ⟨n, hn⟩ := number_inside buf (hdr + F.lengthAt) 4 (by omega)
    exact .inl ⟨n, fn, hfn, hext, hn⟩
  · exact .inr ⟨fn, hfn, hext⟩

theorem datLength_cut (hother : ¬OtherAt F buf hdr) (h : sz < hdr + F.lengthAt + 4) :
    datLength F buf hdr = none := by
  rw [datLength]
  cases hfn : strncpy buf (hdr + F.nameAt) 16 with
  | none => rfl
  | some fn =>
      by_cases hext : strrchr dot fn = some dotDat
      · simp only [hext, if_true]
        rw [number_outside (by omega)]
        rfl
      · exact absurd ⟨fn, hfn, hext⟩ hother

theorem eitherLength_declares (h : Declares F buf n) : eitherLength F buf = some n := by
  rcases h with hfirst | ⟨hother, hsecond⟩
  · rw [eitherLength, datLength_dat hfirst]
  · rw [eitherLength, datLength_other hother, datLength_dat hsecond]
    rfl

/-- What the search for the length may find in a file that is not too small. -/
theorem eitherLength_cases (F : FileLayout) (buf : Buf UInt8 sz) (hsize : 120 ≤ sz) :
    (¬SecondInside F buf ∧ eitherLength F buf = none) ∨
      SecondInside F buf ∧
        (eitherLength F buf = some 0 ∨ ∃ n, n ≠ 0 ∧ n < 2 ^ 32 ∧ Declares F buf n) := by
  have hsome : ∀ n, Declares F buf n →
      eitherLength F buf = some 0 ∨ ∃ n, n ≠ 0 ∧ n < 2 ^ 32 ∧ Declares F buf n := by
    intro n h
    by_cases hzero : n = 0
    · exact .inl (hzero ▸ eitherLength_declares h)
    · refine .inr ⟨n, hzero, ?_, h⟩
      obtain ⟨fn, -, -, hn⟩ | ⟨-, fn, -, -, hn⟩ := h
      · exact number_lt hn
      · exact number_lt hn
  have hlength := F.length_le
  have hheader := F.size_le
  obtain ⟨n, hfirst⟩ | hother := dat_or_other (F := F) buf 0 (by omega)
  · refine .inr ⟨fun hother => ?_, hsome n (.inl hfirst)⟩
    have h := datLength_dat hfirst
    rw [datLength_other hother] at h
    exact nomatch h
  · by_cases hsecond : OtherAt F buf F.size
    · refine .inr ⟨fun _ => .inl hsecond, .inl ?_⟩
      rw [eitherLength, datLength_other hother, datLength_other hsecond]
      rfl
    · by_cases hinside : F.size + F.lengthAt + 4 ≤ sz
      · obtain ⟨n, hdat⟩ | hother' := dat_or_other buf F.size hinside
        · exact .inr ⟨fun _ => .inr hinside, hsome n (.inr ⟨hother, hdat⟩)⟩
        · exact absurd hother' hsecond
      · refine .inl ⟨fun h => (h hother).elim hsecond hinside, ?_⟩
        rw [eitherLength, datLength_other hother, datLength_cut hsecond (by omega)]
        rfl

end Length

/-! ## The outcome -/

section Outcome

variable {r r' : Outcome} {n : Nat}

theorem readAndDecQst_eq (hver : ver ≠ .ep3) (hsize : 120 ≤ sz) (malloc : (n : Nat) → Buf UInt8 n)
    (rounds : Nat) :
    readAndDecQst malloc buf ver rounds =
      match eitherLength (fileLayout ver) buf with
      | none => some .outside
      | some dsz =>
          if dsz = 0 then some .rejected
          else copyQstDat (chunkLayout ver) buf (malloc dsz) rounds := by
  rw [readAndDecQst, if_neg (Nat.not_lt_of_le hsize)]
  cases ver with
  | ep3 => exact absurd rfl hver
  | dcv1 => rfl
  | dcv2 => rfl
  | pc => rfl
  | gc => rfl
  | bb => rfl

/-- An outcome that does not depend on the memory or on how long the loop may take. -/
theorem gives_const (h : ∀ malloc rounds, readAndDecQst malloc buf ver rounds = some r') :
    Gives buf ver r ↔ r = r' := by
  constructor
  · intro hgives
    obtain ⟨rounds, hr⟩ := hgives fun n => Bounded.full n 0
    rw [h] at hr
    exact (Option.some.inj hr).symm
  · rintro rfl malloc
    exact ⟨0, h malloc 0⟩

theorem gives_ep3 : Gives buf .ep3 r ↔ r = .rejected :=
  gives_const fun malloc rounds => by
    rw [readAndDecQst]
    split
    · rfl
    · rfl

theorem gives_outside (hver : ver ≠ .ep3) (hsize : 120 ≤ sz)
    (h : eitherLength (fileLayout ver) buf = none) : Gives buf ver r ↔ r = .outside :=
  gives_const fun malloc rounds => by rw [readAndDecQst_eq hver hsize, h]

theorem gives_zero (hver : ver ≠ .ep3) (hsize : 120 ≤ sz)
    (h : eitherLength (fileLayout ver) buf = some 0) : Gives buf ver r ↔ r = .rejected :=
  gives_const fun malloc rounds => by
    rw [readAndDecQst_eq hver hsize, h]
    rfl

theorem gives_walk (hver : ver ≠ .ep3) (hsize : 120 ≤ sz) (hn : n ≠ 0) (hlt : n < 2 ^ 32)
    (h : Declares (fileLayout ver) buf n) :
    Gives buf ver r ↔ ∃ p out, ComesTo (chunkLayout ver) buf n p out ∧
      Ends (chunkLayout ver) buf n p out r := by
  have hread : ∀ malloc rounds, readAndDecQst malloc buf ver rounds =
      copyQstDat (chunkLayout ver) buf (malloc n) rounds := fun malloc rounds => by
    rw [readAndDecQst_eq hver hsize, eitherLength_declares h]
    exact if_neg hn
  constructor
  · intro hgives
    obtain ⟨rounds, hr⟩ := hgives fun n => Bounded.full n 0
    rw [hread] at hr
    exact (copyQstDat_iff hlt _).mp ⟨rounds, hr⟩
  · intro hends malloc
    obtain ⟨rounds, hr⟩ := (copyQstDat_iff hlt (malloc n)).mpr hends
    exact ⟨rounds, (hread malloc rounds).trans hr⟩

/-- A file is read only inside and rejected, or passes on what it says, under the condition. -/
theorem inside_iff (hsize : 120 ≤ sz) :
    (Gives buf ver .rejected ∨
        ∃ dat, Gives buf ver (.data dat) ∧ Declares (fileLayout ver) buf dat.length) ↔
      (ver ≠ .ep3 → SecondInside (fileLayout ver) buf ∧
        ∀ n, Declares (fileLayout ver) buf n → n ≠ 0 → Sound (chunkLayout ver) buf n) := by
  by_cases hver : ver = .ep3
  · subst hver
    exact iff_of_true (.inl (gives_ep3.mpr rfl)) fun h => absurd rfl h
  rcases eitherLength_cases (fileLayout ver) buf hsize with
    ⟨hcut, hnone⟩ | ⟨hinside, hzero | ⟨n, hn, hlt, hdeclares⟩⟩
  · refine iff_of_false ?_ fun h => hcut (h hver).1
    rintro (h | ⟨dat, h, -⟩)
    · exact nomatch (gives_outside hver hsize hnone).mp h
    · exact nomatch (gives_outside hver hsize hnone).mp h
  · refine iff_of_true (.inl ((gives_zero hver hsize hzero).mpr rfl)) fun _ => ⟨hinside, ?_⟩
    intro n hdeclares hn
    have hsame := (eitherLength_declares hdeclares).symm.trans hzero
    exact absurd (Option.some.inj hsame) hn
  · have hwalk : ∀ r, Gives buf ver r ↔ _ := fun r =>
      gives_walk (r := r) hver hsize hn hlt hdeclares
    have hsound := sound_iff (chunkLayout ver) buf hlt
    constructor
    · intro h _
      refine ⟨hinside, fun m hm _ => ?_⟩
      obtain rfl : n = m := Option.some.inj
        ((eitherLength_declares hdeclares).symm.trans (eitherLength_declares hm))
      refine hsound.mpr ?_
      rcases h with h | ⟨dat, h, -⟩
      · obtain ⟨p, out, hcomes, hends⟩ := (hwalk _).mp h
        exact ⟨p, out, _, hcomes, hends, nofun⟩
      · obtain ⟨p, out, hcomes, hends⟩ := (hwalk _).mp h
        exact ⟨p, out, _, hcomes, hends, nofun⟩
    · intro h
      obtain ⟨p, out, r, hcomes, hends, hr⟩ := hsound.mp ((h hver).2 n hdeclares hn)
      have hgives := (hwalk r).mpr ⟨p, out, hcomes, hends⟩
      cases hends with
      | finished _ hall => exact .inr ⟨out, hgives, hall ▸ hdeclares⟩
      | short _ _ => exact .inl hgives
      | damaged _ _ => exact .inl hgives
      | tooMuch _ _ _ => exact .inl hgives
      | overflow _ _ _ _ => exact absurd rfl hr
      | cut _ _ => exact absurd rfl hr

end Outcome

/-! ## Walking over a file that is built from a quest -/

section Build

variable {bin dat name piece h t : List UInt8} {pos n : Nat} {parts : List Part} {isDat : Bool}

/-- A name in a field is read as it is. -/
theorem strncpy_named (hlength : name.length ≤ n) (hclean : 0 ∉ name)
    (hzero : name.length < n → t.head? = some 0) (hdrop : buf.val.drop pos = name ++ t) :
    strncpy buf pos n = some name := by
  induction n generalizing pos name with
  | zero =>
      rw [List.eq_nil_of_length_eq_zero (Nat.le_zero.mp hlength)]
      rfl
  | succ n ih =>
      cases name with
      | nil =>
          obtain ⟨c, rest, rfl⟩ : ∃ c rest, t = c :: rest := by
            cases t with
            | nil => exact nomatch hzero (Nat.succ_pos n)
            | cons c rest => exact ⟨c, rest, rfl⟩
          obtain rfl : c = 0 := Option.some.inj (hzero (Nat.succ_pos n))
          rw [strncpy, Bounded.load_cons hdrop]
          exact if_pos rfl
      | cons c name =>
          have hbehind : buf.val.drop (pos + 1) = name ++ t := Bounded.drop_add (s := [c]) hdrop
          have hnext := ih (Nat.le_of_succ_le_succ hlength)
            (fun hmem => hclean (List.mem_cons_of_mem c hmem))
            (fun hlt => hzero (Nat.succ_lt_succ hlt)) hbehind
          have hc : c ≠ 0 := fun hc => hclean (hc ▸ List.mem_cons_self)
          rw [strncpy, Bounded.load_cons hdrop]
          simp only [if_neg hc, hnext, Option.map_some]

theorem Named.strncpy {off : Nat} (hnamed : Named (h.drop off) name) (hoff : off ≤ h.length)
    (hdrop : buf.val.drop pos = h ++ t) : strncpy buf (pos + off) 16 = some name := by
  obtain ⟨hlength, hclean, rest, hfield, hzero⟩ := hnamed
  refine strncpy_named (t := rest ++ t) hlength hclean (fun hlt => ?_) ?_
  · rw [List.head?_append, hzero hlt]
    rfl
  · rw [← List.drop_drop, hdrop, List.drop_append_of_le_length hoff, hfield, List.append_assoc]

theorem number_of_drop {off size : Nat} (hdrop : buf.val.drop pos = h ++ t) (hpos : pos ≤ sz)
    (hin : off + size ≤ h.length) :
    number buf (pos + off) size = some (littleEndian ((h.drop off).take size)) := by
  rw [number, Bounded.read_within hdrop hpos hin]
  rfl

/-- The header of the .dat file is seen to be that. -/
theorem HeaderOf.datAt {F : FileLayout} (hof : HeaderOf F name n h)
    (hext : strrchr dot name = some dotDat) (hdrop : buf.val.drop pos = h ++ t) (hpos : pos ≤ sz) :
    DatAt F buf pos n := by
  have hname := F.name_le
  have hlength := F.length_le
  have hsize := hof.size
  refine ⟨name, hof.named.strncpy (by omega) hdrop, hext, ?_⟩
  rw [number_of_drop hdrop hpos (by omega), hof.length]

/-- The header of the other file is seen to be that. -/
theorem HeaderOf.otherAt {F : FileLayout} (hof : HeaderOf F name n h)
    (hext : strrchr dot name = some dotBin) (hdrop : buf.val.drop pos = h ++ t) :
    OtherAt F buf pos := by
  have hname := F.name_le
  have hlength := F.length_le
  have hsize := hof.size
  refine ⟨name, hof.named.strncpy (by omega) hdrop, ?_⟩
  rw [hext]
  decide

/-- A chunk with a piece is read as that. -/
theorem ChunkOf.reads {L : ChunkLayout} (hof : ChunkOf L name piece h)
    (hext : strrchr dot name = some (if isDat then dotDat else dotBin))
    (hdrop : buf.val.drop pos = h ++ t) (hpos : pos ≤ sz) :
    Reads L buf pos (if isDat then piece else []) := by
  have hsize := hof.size
  have htype := L.type_le
  have hlen := L.len_le
  have hname := L.name_le
  have hdata := L.data_le
  have hchunk := L.chunk_le
  have hsmall := hof.small
  have hvalid : validHeader L buf pos = some true := by
    rw [validHeader, number_of_drop hdrop hpos (by omega), number_of_drop hdrop hpos (by omega),
      hof.type, hof.len]
    simp only [ne_eq, not_true_eq_false, if_false, Option.map_some, decide_true]
  have hvitals : vitals L buf pos = some (name, piece.length) := by
    rw [vitals, hof.named.strncpy (by omega) hdrop, number_of_drop hdrop hpos (by omega),
      hof.length]
    rfl
  cases isDat with
  | true =>
      refine .dat hvalid hvitals hext hsmall ?_
      have hread : Bounded.read buf (pos + L.dataAt) piece.length =
          some ((h.drop L.dataAt).take piece.length) :=
        Bounded.read_within hdrop hpos (by omega)
      rw [hof.data] at hread
      exact hread
  | false => exact .other hvalid hvitals hext hsmall (by decide)

theorem joined_cons (isDat : Bool) (part : Part) (parts : List Part) :
    joined isDat (part :: parts) =
      (if part.isDat = isDat then part.piece else []) ++ joined isDat parts := by
  by_cases h : part.isDat = isDat
  · rw [joined, List.filter_cons_of_pos (by simpa using h), List.flatMap_cons, if_pos h, joined]
  · rw [joined, List.filter_cons_of_neg (by simpa using h), if_neg h, List.nil_append, joined]

variable (b : Build ver bin dat)

theorem first_eq (ver : Version) : (chunkLayout ver).first = 2 * (fileLayout ver).size := by
  cases ver with
  | dcv1 => rfl
  | dcv2 => rfl
  | pc => rfl
  | gc => rfl
  | ep3 => rfl
  | bb => rfl

/-- What stands behind the headers of a file that is built, and what the headers say. -/
theorem Build.headers (hbuf : buf.val = b.bytes) :
    Declares (fileLayout ver) buf dat.length ∧
      buf.val.drop (chunkLayout ver).first = b.parts.flatMap Part.chunk ∧
      (chunkLayout ver).first ≤ sz := by
  have hbin := b.binHdr_of
  have hdat := b.datHdr_of
  have hbinSize := hbin.size
  have hdatSize := hdat.size
  have hlength := congrArg List.length hbuf
  rw [buf.property] at hlength
  rw [first_eq]
  have hsplit : ∃ first second, first.length = (fileLayout ver).size ∧
      second.length = (fileLayout ver).size ∧
      buf.val = first ++ (second ++ b.parts.flatMap Part.chunk) ∧
      (first = b.datHdr ∨ first = b.binHdr ∧ second = b.datHdr) := by
    rw [hbuf, Build.bytes]
    cases b.datFirst with
    | true => exact ⟨_, _, hdatSize, hbinSize, List.append_assoc _ _ _, .inl rfl⟩
    | false => exact ⟨_, _, hbinSize, hdatSize, List.append_assoc _ _ _, .inr ⟨rfl, rfl⟩⟩
  obtain ⟨first, second, hfirst, hsecond, hval, horder⟩ := hsplit
  have hstart : buf.val.drop 0 = first ++ (second ++ b.parts.flatMap Part.chunk) := hval
  have hrest : buf.val.drop (fileLayout ver).size = second ++ b.parts.flatMap Part.chunk := by
    rw [hval, ← hfirst, List.drop_left]
  have hsize : 2 * (fileLayout ver).size ≤ sz := by
    rw [← buf.property, hval, List.length_append, List.length_append]
    omega
  refine ⟨?_, ?_, hsize⟩
  · rcases horder with rfl | ⟨rfl, rfl⟩
    · exact .inl (hdat.datAt b.datName_ext hstart (Nat.zero_le sz))
    · exact .inr ⟨hbin.otherAt b.binName_ext hstart, hdat.datAt b.datName_ext hrest (by omega)⟩
  · rw [Nat.two_mul, ← List.drop_drop, hrest, ← hsecond, List.drop_left]

/-- The walk comes to the end of a file of 32 bits, with the bytes of the .dat file. -/
theorem walk_parts {L : ChunkLayout} {binName datName out : List UInt8}
    (hbin : strrchr dot binName = some dotBin) (hdat : strrchr dot datName = some dotDat)
    (hparts : ∀ part ∈ parts,
      ChunkOf L (if part.isDat then datName else binName) part.piece part.chunk)
    (hdrop : buf.val.drop pos = parts.flatMap Part.chunk) (hpos : pos ≤ sz) (hsmall : sz < 2 ^ 32)
    (hfits : (out ++ joined true parts).length ≤ n) (hcomes : ComesTo L buf n pos out) :
    ComesTo L buf n sz (out ++ joined true parts) := by
  induction parts generalizing pos out with
  | nil =>
      have hlength := congrArg List.length hdrop
      rw [List.length_drop, buf.property] at hlength
      obtain rfl : pos = sz := by
        have : (List.flatMap Part.chunk []).length = 0 := rfl
        omega
      rw [show joined true [] = [] from rfl, List.append_nil]
      exact hcomes
  | cons part parts ih =>
      rw [List.flatMap_cons] at hdrop
      have hof := hparts part List.mem_cons_self
      have hext : strrchr dot (if part.isDat then datName else binName) =
          some (if part.isDat then dotDat else dotBin) := by
        cases part.isDat with
        | true => exact hdat
        | false => exact hbin
      have hreads := hof.reads hext hdrop hpos
      have hsize := Bounded.length_drop hdrop hpos
      have hstride := hof.size
      have hmoves := L.moves
      rw [joined_cons, ← List.append_assoc] at hfits ⊢
      have hfit := hfits
      rw [List.length_append, List.length_append] at hfit
      have hnext := ComesTo.next hcomes (by omega) hreads (by omega)
      rw [Nat.mod_eq_of_lt (by omega), ← hstride] at hnext
      exact ih (fun part hpart => hparts part (List.mem_cons_of_mem _ hpart))
        (Bounded.drop_add hdrop) (by omega) hfits hnext

/-- The .dat bytes of a file that is built are passed on under the condition. -/
theorem built_iff (hbuilt : Built ver bin dat buf) :
    Gives buf ver (.data dat) ↔ ver ≠ .ep3 ∧ dat ≠ [] ∧ sz < 2 ^ 32 := by
  obtain ⟨b, hbuf⟩ := hbuilt
  obtain ⟨hdeclares, hdrop, hfirst⟩ := b.headers hbuf
  have hsize : 120 ≤ sz := by
    refine Nat.le_trans ?_ hfirst
    cases ver with
    | bb => decide
    | dcv1 => decide
    | dcv2 => decide
    | pc => decide
    | gc => decide
    | ep3 => decide
  by_cases hver : ver = .ep3
  · subst hver
    refine iff_of_false (fun h => ?_) fun h => h.1 rfl
    exact nomatch gives_ep3.mp h
  by_cases hempty : dat = []
  · subst hempty
    refine iff_of_false (fun h => ?_) fun h => h.2.1 rfl
    exact nomatch (gives_zero hver hsize (eitherLength_declares hdeclares)).mp h
  have hn : dat.length ≠ 0 := fun h => hempty (List.eq_nil_of_length_eq_zero h)
  have hlt : dat.length < 2 ^ 32 := by
    obtain ⟨fn, -, -, hn⟩ | ⟨-, fn, -, -, hn⟩ := hdeclares
    · exact number_lt hn
    · exact number_lt hn
  rw [gives_walk hver hsize hn hlt hdeclares]
  constructor
  · rintro ⟨p, out, hcomes, hends⟩
    exact ⟨hver, hempty, hends.small hcomes⟩
  · rintro ⟨-, -, hsmall⟩
    have hwalk := walk_parts (n := dat.length) b.binName_ext b.datName_ext b.parts_of hdrop hfirst
      hsmall (by rw [List.nil_append, b.dat_eq]) .first
    rw [List.nil_append, b.dat_eq] at hwalk
    exact ⟨sz, dat, hwalk, .finished (Nat.le_refl sz) rfl⟩

end Build

/-- The condition is met exactly by the files that it should be met by. -/
theorem extracts_iff (buf : Buf UInt8 sz) (ver : Version) :
    Extracts buf ver ↔ Extractable buf ver := by
  refine and_congr ?_ ?_
  · exact forall_congr' fun bin => forall_congr' fun dat => forall_congr' built_iff
  · exact forall_congr' fun _ => forall_congr' inside_iff

/-- A file for the Dreamcast that ends behind the first byte of a chunk. The .dat file should have
one byte. -/
def truncated : Buf UInt8 121 :=
  ⟨List.replicate 39 0 ++ [97] ++ dotDat ++ List.replicate 12 0 ++ [1] ++ List.replicate 63 0 ++
    [0x13], rfl⟩

theorem truncated_declares : Declares dcFile truncated 1 :=
  .inl ⟨97 :: dotDat, by decide, by decide, by decide⟩

theorem truncated_cut : Cut dcChunk truncated 120 := ⟨by unfold Whole; decide, by decide⟩

/-- The header of the chunk is read behind the end of the file. -/
theorem truncated_outside : ¬Extracts truncated .dcv1 := by
  intro h
  have hnot : ¬∃ bin dat, Built .dcv1 bin dat truncated := by
    rintro ⟨bin, dat, b, hbuf⟩
    obtain ⟨-, hdrop, -⟩ := b.headers hbuf
    cases hparts : b.parts with
    | nil =>
        rw [hparts] at hdrop
        exact absurd hdrop (by decide)
    | cons part parts =>
        have hof := b.parts_of part (hparts ▸ List.mem_cons_self)
        have hstride : part.chunk.length = 0x0418 := hof.size
        have hlength := congrArg List.length hdrop
        rw [hparts, List.flatMap_cons, List.length_append, hstride] at hlength
        have hone : (truncated.val.drop (chunkLayout .dcv1).first).length = 1 := by decide
        omega
  have hsafe := (inside_iff (by decide)).mp (h.2 hnot (by decide)) nofun
  have hsound := hsafe.2 1 truncated_declares (by decide)
  rcases hsound.whole 120 [] .first (by decide) with hwhole | hwrong
  · exact truncated_cut.1 hwhole
  · exact truncated_cut.2 hwrong

end Sylverant.Ship.QuestFiles
