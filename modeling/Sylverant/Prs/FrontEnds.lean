/-
# The four front ends of the decoder

Each public function decodes with its own callbacks. A context is related to the
decoder without buffers by what it still has to read, in memory or in a file, and
by where its output went: into a buffer that grows, into a fixed buffer, or
nowhere. The callbacks on each side are in lockstep, so the front ends agree on
every input, and the fixed buffer differs only where it is too small.
-/

import Sylverant.Prs.Decoder

namespace Sylverant.Prs

open FlagStream (Cursor)
open Simulation

/-! ## What is left to read -/

/-- The rest of the source in memory is the rest of the cursor. -/
def MemSource (cur : Cursor) (cxt : DecCxt) : Prop :=
  cxt.flags = cur.flags ∧ cxt.bitPos = cur.left ∧ cxt.src = cxt.srcPos ∧
    cxt.srcLen = cxt.srcBlock.length ∧ cxt.srcBlock.drop cxt.srcPos = cur.rest

/-- The rest of the file is the rest of the cursor. -/
def FileSource (cur : Cursor) (cxt : DecCxt) : Prop :=
  cxt.flags = cur.flags ∧ cxt.bitPos = cur.left ∧ cxt.filePos = cxt.srcPos ∧
    cxt.srcLen = cxt.file.length ∧ cxt.file.drop cxt.srcPos = cur.rest

/-- A relation between the output and the destination fields
`dst`, `dst_len`, `dst_pos` and the block they lead to. -/
abbrev Sink := List UInt8 → Nat → Nat → Nat → List UInt8 → Prop

/-- A buffer that is grown when it is full. -/
def GrowSink : Sink := fun out dst dstLen dstPos dstBlock =>
  dst = 0 ∧ dstBlock.length = dstLen ∧ 0 < dstLen ∧ dstPos = out.length ∧
    out.length ≤ dstLen ∧ dstBlock.take out.length = out

/-- A buffer of `limit` bytes. -/
def FixedSink (limit : Nat) : Sink := fun out dst dstLen dstPos dstBlock =>
  dst = dstPos ∧ dstBlock.length = limit ∧ dstLen = limit ∧ dstPos = out.length ∧
    out.length ≤ limit ∧ dstBlock.take out.length = out

/-- No buffer: the bytes are only counted. -/
def CountSink : Sink := fun out _ _ dstPos _ => dstPos = out.length

/-- A context that reads from `Src` and writes to `Snk` at the same place as the
decoder without buffers. -/
def Mirrors (Src : Cursor → DecCxt → Prop) (Snk : Sink) (d : Decoder) (cxt : DecCxt) : Prop :=
  Src d.cur cxt ∧ Snk d.out cxt.dst cxt.dstLen cxt.dstPos cxt.dstBlock

/-- A front end never gives up. -/
def Never : Decoder → Stop → Prop := fun _ _ => False

/-- A front end gives up with `-ENOSPC` when more bytes are produced than fit. -/
def Overflows (limit : Nat) : Decoder → Stop → Prop := fun d stop =>
  stop = .ret (-ENOSPC) ∧ limit < d.out.length

theorem drop_eq_cons {α : Type} {l rest : List α} {i : Nat} {a : α} (h : l.drop i = a :: rest) :
    i < l.length ∧ l[i]? = some a ∧ l.drop (i + 1) = rest := by
  have hlt : i < l.length := by
    by_contra hge
    rw [List.drop_eq_nil_of_le (by omega)] at h
    cases h
  rw [List.drop_eq_getElem_cons hlt] at h
  obtain ⟨hhead, htail⟩ := List.cons.inj h
  exact ⟨hlt, by rw [List.getElem?_eq_getElem hlt, hhead], htail⟩

/-- Writing at the end of the output appends to it. -/
theorem take_set_end {block out : List UInt8} (hlt : out.length < block.length)
    (htake : block.take out.length = out) (b : UInt8) :
    (block.set out.length b).take (out.length + 1) = out ++ [b] := by
  rw [List.take_add_one, List.take_set_of_le (Nat.le_refl _), htake,
    List.getElem?_set_self hlt, Option.toList_some]

/-- A back-reference reads a byte of the output. -/
theorem getElem?_of_take {block out : List UInt8} (htake : block.take out.length = out)
    {i : Nat} (hi : i < out.length) : block[i]? = out[i]? := by
  rw [← List.getElem?_take_of_lt hi, htake]

/-- What a callback of the decoder without buffers does to a reason for giving
up: moving the cursor and appending output keep it. -/
def Upward (Gave : Decoder → Stop → Prop) : Prop :=
  ∀ (cur next : Cursor) (out more : List UInt8) (stop : Stop),
    Gave ⟨cur, out⟩ stop → Gave ⟨next, out ++ more⟩ stop

theorem upward_never : Upward Never := fun _ _ _ _ _ h => h

theorem upward_overflows (limit : Nat) : Upward (Overflows limit) := by
  intro cur next out more stop h
  exact ⟨h.1, by simp only [List.length_append]; have := h.2; simp only at this; omega⟩

section Keeps

variable {Gave : Decoder → Stop → Prop} (hup : Upward Gave) (stop : Stop)

include hup

theorem Upward.sameOut {cur next : Cursor} {out : List UInt8} (h : Gave ⟨cur, out⟩ stop) :
    Gave ⟨next, out⟩ stop := by
  have := hup cur next out [] stop h
  rwa [List.append_nil] at this

theorem keeps_fetchBit : Keeps (fun d => Gave d stop) Decoder.fetchBit := by
  intro d hd
  simp only [Decoder.fetchBit]
  split
  · exact hup.sameOut stop hd
  · exact hd

theorem keeps_fetchByte : Keeps (fun d => Gave d stop) Decoder.fetchByte := by
  intro d hd
  simp only [Decoder.fetchByte]
  split
  · exact hup.sameOut stop hd
  · exact hd

theorem keeps_fetchShort : Keeps (fun d => Gave d stop) Decoder.fetchShort := by
  intro d hd
  simp only [Decoder.fetchShort]
  split
  · exact hd
  · split
    · exact hd
    · exact hup.sameOut stop hd

theorem keeps_copyByte : Keeps (fun d => Gave d stop) Decoder.copyByte := by
  intro d hd
  simp only [Decoder.copyByte]
  split
  · exact hup _ _ _ _ _ hd
  · exact hd

theorem keeps_offsetCopy (offset : Int) :
    Keeps (fun d => Gave d stop) (Decoder.offsetCopy offset) := by
  intro d hd
  simp only [Decoder.offsetCopy]
  split
  · exact hd
  · exact hup _ _ _ _ _ hd

end Keeps

/-! ## Reading from memory -/

section Memory

variable {Snk : Sink} {Gave : Decoder → Stop → Prop} (hup : Upward Gave)

theorem MemSource.at_end {flags : UInt8} {left : Nat} {cxt : DecCxt}
    (h : MemSource ⟨flags, left, []⟩ cxt) : cxt.srcPos ≥ cxt.srcLen := by
  obtain ⟨-, -, -, hlen, hrest⟩ := h
  rw [hlen]
  exact List.drop_eq_nil_iff.mp hrest

theorem MemSource.at_cons {flags f : UInt8} {left : Nat} {rest : List UInt8} {cxt : DecCxt}
    (h : MemSource ⟨flags, left, f :: rest⟩ cxt) :
    ¬ cxt.srcPos ≥ cxt.srcLen ∧ loadSrc cxt cxt.src = pure f ∧
      cxt.srcBlock.drop (cxt.srcPos + 1) = rest := by
  obtain ⟨-, -, hsrc, hlen, hrest⟩ := h
  obtain ⟨hlt, hget, hdrop⟩ := drop_eq_cons hrest
  refine ⟨by omega, ?_, hdrop⟩
  simp only [loadSrc, hsrc, hget]

/-- The flag as a truth value and as the number the callback returns. -/
theorem toNat_lowBit (f : UInt8) : (f &&& 1 == 1).toNat = (f &&& 1).toNat := by
  have key : ∀ b : BitVec 8,
      (UInt8.ofBitVec b &&& 1 == 1).toNat = (UInt8.ofBitVec b &&& 1).toNat := by decide
  exact key f.toBitVec

include hup

theorem sim_fetchBit : Sim (Mirrors MemSource Snk) Gave Decoder.fetchBit fetchBit := by
  refine ⟨?_, keeps_fetchBit hup⟩
  rintro ⟨⟨flags, left, rest⟩, out⟩ cxt ⟨hmem, hsnk⟩
  obtain ⟨hflags, hbit, hsrc, hlen, hrest⟩ := id hmem
  simp only at hflags hbit hrest
  cases left with
  | zero =>
      cases rest with
      | nil =>
          simp only [Decoder.fetchBit, Cursor.nextBit, fetchBit, run_get_bind, hbit,
            hmem.at_end, if_true, run_throw]
          exact .error _ ⟨hmem, hsnk⟩
      | cons f rest =>
          obtain ⟨hmore, hload, hdrop⟩ := hmem.at_cons
          simp only [Decoder.fetchBit, Cursor.nextBit, fetchBit, run_get_bind, hbit, hmore,
            if_true, if_false, hload, run_pure_bind, run_set_bind, shiftBit, run_pure,
            toNat_lowBit]
          exact .ok _ ⟨⟨rfl, rfl, congrArg (· + 1) hsrc, hlen, hdrop⟩, hsnk⟩
  | succ left =>
      simp only [Decoder.fetchBit, Cursor.nextBit, fetchBit, run_get_bind, hbit,
        Nat.succ_ne_zero, if_false, run_set_bind, shiftBit, run_pure, toNat_lowBit, hflags]
      exact .ok _ ⟨⟨rfl, rfl, hsrc, hlen, hrest⟩, hsnk⟩

theorem sim_fetchByte : Sim (Mirrors MemSource Snk) Gave Decoder.fetchByte fetchByte := by
  refine ⟨?_, keeps_fetchByte hup⟩
  rintro ⟨⟨flags, left, rest⟩, out⟩ cxt ⟨hmem, hsnk⟩
  obtain ⟨hflags, hbit, hsrc, hlen, hrest⟩ := id hmem
  cases rest with
  | nil =>
      simp only [Decoder.fetchByte, Cursor.nextByte, fetchByte, run_get_bind, hmem.at_end,
        if_true, run_throw]
      exact .error _ ⟨hmem, hsnk⟩
  | cons v rest =>
      obtain ⟨hmore, hload, hdrop⟩ := hmem.at_cons
      simp only [Decoder.fetchByte, Cursor.nextByte, fetchByte, run_get_bind, hmore, if_false,
        hload, run_pure_bind, run_set_bind, run_pure]
      exact .ok _ ⟨⟨hflags, hbit, congrArg (· + 1) hsrc, hlen, hdrop⟩, hsnk⟩

theorem sim_fetchShort : Sim (Mirrors MemSource Snk) Gave Decoder.fetchShort fetchShort := by
  refine ⟨?_, keeps_fetchShort hup⟩
  rintro ⟨⟨flags, left, rest⟩, out⟩ cxt ⟨hmem, hsnk⟩
  obtain ⟨hflags, hbit, hsrc, hlen, hrest⟩ := id hmem
  have hleft : cxt.srcLen - cxt.srcPos = rest.length := by
    rw [hlen, ← List.length_drop, hrest]
  match rest with
  | [] =>
      have hshort : cxt.srcPos + 1 ≥ cxt.srcLen := by simp at hleft; omega
      simp only [Decoder.fetchShort, Cursor.nextByte, fetchShort, run_get_bind, hshort, if_true,
        run_throw]
      exact .error _ ⟨hmem, hsnk⟩
  | [low] =>
      have hshort : cxt.srcPos + 1 ≥ cxt.srcLen := by simp at hleft; omega
      simp only [Decoder.fetchShort, Cursor.nextByte, fetchShort, run_get_bind, hshort, if_true,
        run_throw]
      exact .error _ ⟨hmem, hsnk⟩
  | low :: high :: rest =>
      obtain ⟨-, hload, hdrop⟩ := hmem.at_cons
      obtain ⟨-, hget, hdrop'⟩ := drop_eq_cons hdrop
      have hload' : loadSrc cxt (cxt.src + 1) = pure high := by
        simp only [loadSrc, hsrc, hget]
      have hmore : ¬ cxt.srcPos + 1 ≥ cxt.srcLen := by simp at hleft; omega
      simp only [Decoder.fetchShort, Cursor.nextByte, fetchShort, run_get_bind, hmore, if_false,
        hload, hload', run_pure_bind, run_set_bind, run_pure]
      exact .ok _ ⟨⟨hflags, hbit, congrArg (· + 2) hsrc, hlen, hdrop'⟩, hsnk⟩

end Memory

/-! ## Reading from a file -/

section File

variable {Snk : Sink} {Gave : Decoder → Stop → Prop} (hup : Upward Gave)

theorem FileSource.at_end {flags : UInt8} {left : Nat} {cxt : DecCxt}
    (h : FileSource ⟨flags, left, []⟩ cxt) : cxt.srcPos ≥ cxt.srcLen := by
  obtain ⟨-, -, -, hlen, hrest⟩ := h
  rw [hlen]
  exact List.drop_eq_nil_iff.mp hrest

/-- The file ends where the lengths say, so `fgetc` has a byte to return. -/
theorem run_fgetc (cxt : DecCxt) {f : UInt8} {rest : List UInt8} {i : Nat}
    (hpos : cxt.filePos = i) (h : cxt.file.drop i = f :: rest) :
    fgetc cxt = .ok (some f) { cxt with filePos := cxt.filePos + 1 } := by
  obtain ⟨-, hget, -⟩ := drop_eq_cons h
  simp only [fgetc, run_get_bind, hpos, hget, run_set_bind, run_pure]

theorem FileSource.at_cons {flags f : UInt8} {left : Nat} {rest : List UInt8} {cxt : DecCxt}
    (h : FileSource ⟨flags, left, f :: rest⟩ cxt) :
    ¬ cxt.srcPos ≥ cxt.srcLen ∧ cxt.file.drop (cxt.srcPos + 1) = rest := by
  obtain ⟨-, -, -, hlen, hrest⟩ := h
  obtain ⟨hlt, -, hdrop⟩ := drop_eq_cons hrest
  exact ⟨by omega, hdrop⟩

include hup

theorem sim_fileBit : Sim (Mirrors FileSource Snk) Gave Decoder.fetchBit fileBit := by
  refine ⟨?_, keeps_fetchBit hup⟩
  rintro ⟨⟨flags, left, rest⟩, out⟩ cxt ⟨hfile, hsnk⟩
  obtain ⟨hflags, hbit, hpos, hlen, hrest⟩ := id hfile
  simp only at hflags hbit hrest
  cases left with
  | zero =>
      cases rest with
      | nil =>
          simp only [Decoder.fetchBit, Cursor.nextBit, fileBit, run_get_bind, hbit,
            hfile.at_end, if_true, run_throw]
          exact .error _ ⟨hfile, hsnk⟩
      | cons f rest =>
          obtain ⟨hmore, hdrop⟩ := hfile.at_cons
          simp only [Decoder.fetchBit, Cursor.nextBit, fileBit, run_get_bind, hbit, hmore,
            if_true, if_false, bind_ok (run_fgetc _ hpos hrest), run_modify_bind, shiftBit,
            run_set_bind, run_pure, toNat_lowBit]
          exact .ok _ ⟨⟨rfl, rfl, congrArg (· + 1) hpos, hlen, hdrop⟩, hsnk⟩
  | succ left =>
      simp only [Decoder.fetchBit, Cursor.nextBit, fileBit, run_get_bind, hbit,
        Nat.succ_ne_zero, if_false, run_set_bind, shiftBit, run_pure, toNat_lowBit, hflags]
      exact .ok _ ⟨⟨rfl, rfl, hpos, hlen, hrest⟩, hsnk⟩

theorem sim_fileByte : Sim (Mirrors FileSource Snk) Gave Decoder.fetchByte fileByte := by
  refine ⟨?_, keeps_fetchByte hup⟩
  rintro ⟨⟨flags, left, rest⟩, out⟩ cxt ⟨hfile, hsnk⟩
  obtain ⟨hflags, hbit, hpos, hlen, hrest⟩ := id hfile
  cases rest with
  | nil =>
      simp only [Decoder.fetchByte, Cursor.nextByte, fileByte, run_get_bind, hfile.at_end,
        if_true, run_throw]
      exact .error _ ⟨hfile, hsnk⟩
  | cons v rest =>
      obtain ⟨hmore, hdrop⟩ := hfile.at_cons
      simp only [Decoder.fetchByte, Cursor.nextByte, fileByte, run_get_bind, hmore, if_false,
        bind_ok (run_fgetc _ hpos hrest), run_modify_bind, run_pure]
      exact .ok _ ⟨⟨hflags, hbit, congrArg (· + 1) hpos, hlen, hdrop⟩, hsnk⟩

theorem sim_fileShort : Sim (Mirrors FileSource Snk) Gave Decoder.fetchShort fileShort := by
  refine ⟨?_, keeps_fetchShort hup⟩
  rintro ⟨⟨flags, left, rest⟩, out⟩ cxt ⟨hfile, hsnk⟩
  obtain ⟨hflags, hbit, hpos, hlen, hrest⟩ := id hfile
  have hleft : cxt.srcLen - cxt.srcPos = rest.length := by
    rw [hlen, ← List.length_drop, hrest]
  match rest with
  | [] =>
      have hshort : cxt.srcPos + 1 ≥ cxt.srcLen := by simp at hleft; omega
      simp only [Decoder.fetchShort, Cursor.nextByte, fileShort, run_get_bind, hshort, if_true,
        run_throw]
      exact .error _ ⟨hfile, hsnk⟩
  | [low] =>
      have hshort : cxt.srcPos + 1 ≥ cxt.srcLen := by simp at hleft; omega
      simp only [Decoder.fetchShort, Cursor.nextByte, fileShort, run_get_bind, hshort, if_true,
        run_throw]
      exact .error _ ⟨hfile, hsnk⟩
  | low :: high :: rest =>
      obtain ⟨-, hdrop⟩ := hfile.at_cons
      obtain ⟨-, -, hdrop'⟩ := drop_eq_cons hdrop
      have hsecond := run_fgetc { cxt with filePos := cxt.filePos + 1 }
        (congrArg (· + 1) hpos) hdrop
      have hmore : ¬ cxt.srcPos + 1 ≥ cxt.srcLen := by simp at hleft; omega
      simp only [Decoder.fetchShort, Cursor.nextByte, fileShort, run_get_bind, hmore, if_false,
        bind_ok (run_fgetc _ hpos hrest), bind_ok hsecond, run_modify_bind, run_pure]
      exact .ok _ ⟨⟨hflags, hbit, congrArg (· + 2) hpos, hlen, hdrop'⟩, hsnk⟩

end File

/-! ## Output buffers -/

section Output

variable {Src : Cursor → DecCxt → Prop} {Gave : Decoder → Stop → Prop}

/-- Growing leaves room for a byte and keeps the output. -/
theorem run_growDst (junk : Nat → UInt8) {cxt : DecCxt} (out : List UInt8)
    (h : GrowSink out cxt.dst cxt.dstLen cxt.dstPos cxt.dstBlock) :
    ∃ block len, growDst junk cxt = .ok ⟨⟩ { cxt with dstBlock := block, dstLen := len } ∧
      GrowSink out cxt.dst len cxt.dstPos block ∧ out.length < len := by
  obtain ⟨hdst, hblock, hpos, hat, hle, htake⟩ := h
  by_cases hfull : cxt.dstPos ≥ cxt.dstLen
  · refine ⟨realloc junk cxt.dstBlock (cxt.dstLen * 2), cxt.dstLen * 2, ?_, ?_, by omega⟩
    · simp only [growDst, run_get_bind, hfull, if_true, run_set]
    refine ⟨hdst, length_realloc _ _ _, by omega, hat, by omega, ?_⟩
    rw [take_realloc junk (by omega) (by omega), htake]
  · refine ⟨cxt.dstBlock, cxt.dstLen, ?_, ⟨hdst, hblock, hpos, hat, hle, htake⟩, by omega⟩
    simp only [growDst, run_get_bind, hfull, if_false, run_pure]

/-- Storing at the end of a buffer with room. -/
theorem run_storeDst (cxt : DecCxt) {i : Nat} (hi : i < cxt.dstBlock.length) (b : UInt8) :
    storeDst i b cxt = .ok ⟨⟩ { cxt with dstBlock := cxt.dstBlock.set i b } := by
  simp only [storeDst, run_get_bind, hi, if_true, run_set]

theorem GrowSink.append {out block : List UInt8} {dst len pos : Nat}
    (h : GrowSink out dst len pos block) (hroom : out.length < len) (b : UInt8) :
    dst + pos = out.length ∧ out.length < block.length ∧
      GrowSink (out ++ [b]) dst len (pos + 1) (block.set out.length b) := by
  obtain ⟨hdst, hblock, hpos, hat, hle, htake⟩ := h
  refine ⟨by omega, by omega, hdst, by rw [List.length_set, hblock], hpos, ?_, ?_, ?_⟩
  · rw [List.length_append, hat, List.length_singleton]
  · rw [List.length_append, List.length_singleton]; exact hroom
  · rw [List.length_append, List.length_singleton]
    exact take_set_end (by omega) htake b

/-- Storing in a fixed buffer with room. -/
theorem FixedSink.append {out block : List UInt8} {dst len pos limit : Nat}
    (h : FixedSink limit out dst len pos block) (hroom : ¬ pos ≥ len) (b : UInt8) :
    dst = out.length ∧ out.length < block.length ∧
      FixedSink limit (out ++ [b]) (dst + 1) len (pos + 1) (block.set out.length b) := by
  obtain ⟨hdst, hblock, hlen, hat, hle, htake⟩ := h
  refine ⟨by omega, by omega, congrArg (· + 1) hdst, by rw [List.length_set, hblock], hlen,
    ?_, ?_, ?_⟩
  · rw [List.length_append, hat, List.length_singleton]
  · rw [List.length_append, List.length_singleton]; omega
  · rw [List.length_append, List.length_singleton]
    exact take_set_end (by omega) htake b

/-- A fixed buffer is full when it holds as many bytes as it can. -/
theorem FixedSink.full {out block : List UInt8} {dst len pos limit : Nat}
    (h : FixedSink limit out dst len pos block) (hfull : pos ≥ len) : out.length = limit := by
  obtain ⟨-, -, hlen, hat, hle, -⟩ := h
  omega

theorem CountSink.append {out block : List UInt8} {dst len pos : Nat}
    (h : CountSink out dst len pos block) (b : UInt8) :
    CountSink (out ++ [b]) dst len (pos + 1) block := by
  have hat : pos = out.length := h
  simp only [CountSink, hat, List.length_append, List.length_singleton]

/-- Where a context reads from does not depend on where it writes to. -/
def Framed (Src : Cursor → DecCxt → Prop) : Prop :=
  ∀ ⦃cur : Cursor⦄ ⦃cxt : DecCxt⦄ ⦃dst len pos : Nat⦄ ⦃block : List UInt8⦄, Src cur cxt →
    Src cur { cxt with dst := dst, dstLen := len, dstPos := pos, dstBlock := block }

theorem framed_memSource : Framed MemSource := fun _ _ _ _ _ _ h => h

theorem framed_fileSource : Framed FileSource := fun _ _ _ _ _ _ h => h

variable (hup : Upward Gave)

include hup

theorem sim_copyAbyte (junk : Nat → UInt8) :
    Sim (Mirrors MemSource GrowSink) Gave Decoder.copyByte (copyAbyte junk) := by
  refine ⟨?_, keeps_copyByte hup⟩
  rintro ⟨⟨flags, left, rest⟩, out⟩ cxt ⟨hmem, hsnk⟩
  obtain ⟨hflags, hbit, hsrc, hlen, hrest⟩ := id hmem
  cases rest with
  | nil =>
      simp only [Decoder.copyByte, Cursor.nextByte, copyAbyte, run_get_bind, hmem.at_end,
        if_true, run_throw]
      exact .error _ ⟨hmem, hsnk⟩
  | cons v rest =>
      obtain ⟨hmore, hload, hdrop⟩ := hmem.at_cons
      obtain ⟨block, len, hgrow, hsnk', hroom⟩ := run_growDst junk out hsnk
      obtain ⟨hend, hin, happend⟩ := hsnk'.append hroom v
      have hstore := run_storeDst { cxt with dstBlock := block, dstLen := len } hin v
      simp only [Decoder.copyByte, Cursor.nextByte, copyAbyte, run_get_bind, hmore, if_false,
        bind_ok hgrow, hload, run_pure_bind, hend, bind_ok hstore, run_modify]
      exact .ok _ ⟨⟨hflags, hbit, congrArg (· + 1) hsrc, hlen, hdrop⟩, happend⟩

theorem sim_copyFbyte (junk : Nat → UInt8) :
    Sim (Mirrors FileSource GrowSink) Gave Decoder.copyByte (copyFbyte junk) := by
  refine ⟨?_, keeps_copyByte hup⟩
  rintro ⟨⟨flags, left, rest⟩, out⟩ cxt ⟨hfile, hsnk⟩
  obtain ⟨hflags, hbit, hpos, hlen, hrest⟩ := id hfile
  cases rest with
  | nil =>
      simp only [Decoder.copyByte, Cursor.nextByte, copyFbyte, run_get_bind, hfile.at_end,
        if_true, run_throw]
      exact .error _ ⟨hfile, hsnk⟩
  | cons v rest =>
      obtain ⟨hmore, hdrop⟩ := hfile.at_cons
      obtain ⟨block, len, hgrow, hsnk', hroom⟩ := run_growDst junk out hsnk
      obtain ⟨hend, hin, happend⟩ := hsnk'.append hroom v
      have hread := run_fgetc { cxt with dstBlock := block, dstLen := len } hpos hrest
      have hstore := run_storeDst
        { cxt with dstBlock := block, dstLen := len, filePos := cxt.filePos + 1 } hin v
      simp only [Decoder.copyByte, Cursor.nextByte, copyFbyte, run_get_bind, hmore, if_false,
        bind_ok hgrow, bind_ok hread, hend, bind_ok hstore, run_modify]
      exact .ok _ ⟨⟨hflags, hbit, congrArg (· + 1) hpos, hlen, hdrop⟩, happend⟩

omit hup in
theorem sim_copyByte (limit : Nat) :
    Sim (Mirrors MemSource (FixedSink limit)) (Overflows limit) Decoder.copyByte copyByte := by
  refine ⟨?_, keeps_copyByte (upward_overflows limit)⟩
  rintro ⟨⟨flags, left, rest⟩, out⟩ cxt ⟨hmem, hsnk⟩
  obtain ⟨hflags, hbit, hsrc, hlen, hrest⟩ := id hmem
  cases rest with
  | nil =>
      simp only [Decoder.copyByte, Cursor.nextByte, copyByte, run_get_bind, hmem.at_end,
        if_true, run_throw]
      exact .error _ ⟨hmem, hsnk⟩
  | cons v rest =>
      obtain ⟨hmore, hload, hdrop⟩ := hmem.at_cons
      by_cases hfull : cxt.dstPos ≥ cxt.dstLen
      · simp only [Decoder.copyByte, Cursor.nextByte, copyByte, run_get_bind, hmore, if_false,
          hfull, if_true, run_throw]
        refine .gave ⟨rfl, ?_⟩
        have hlimit : out.length = limit := hsnk.full hfull
        simp only [endState, List.length_append, List.length_singleton]
        omega
      · obtain ⟨hend, hin, happend⟩ := hsnk.append hfull v
        have hstore := run_storeDst cxt hin v
        simp only [Decoder.copyByte, Cursor.nextByte, copyByte, run_get_bind, hmore, if_false,
          hfull, hload, run_pure_bind, hend, bind_ok hstore, run_modify]
        refine .ok _ ⟨⟨hflags, hbit, congrArg (· + 1) hsrc, hlen, hdrop⟩, ?_⟩
        simpa only [hend] using happend

theorem sim_nocopyByte :
    Sim (Mirrors MemSource CountSink) Gave Decoder.copyByte nocopyByte := by
  refine ⟨?_, keeps_copyByte hup⟩
  rintro ⟨⟨flags, left, rest⟩, out⟩ cxt ⟨hmem, hsnk⟩
  obtain ⟨hflags, hbit, hsrc, hlen, hrest⟩ := id hmem
  cases rest with
  | nil =>
      simp only [Decoder.copyByte, Cursor.nextByte, nocopyByte, run_get_bind, hmem.at_end,
        if_true, run_throw]
      exact .error _ ⟨hmem, hsnk⟩
  | cons v rest =>
      obtain ⟨hmore, hload, hdrop⟩ := hmem.at_cons
      simp only [Decoder.copyByte, Cursor.nextByte, nocopyByte, run_get_bind, hmore, if_false,
        run_set]
      exact .ok _ ⟨⟨hflags, hbit, congrArg (· + 1) hsrc, hlen, hdrop⟩, hsnk.append v⟩

/-! ## Back-references -/

omit hup in
/-- An offset that passes the check leads back to a place below. The check is made in
an `int`, and is the right one also when the output has outgrown an `int`. -/
theorem place_inside {pos : Nat} {offset : Int} (hlow : -8192 ≤ offset) (hneg : offset < 0)
    (hcheck : ¬ CInt.ofInt (CInt.ofInt pos + offset) < 0) :
    ∃ i : Nat, (pos : Int) + offset = i ∧ i < pos := by
  have hinside : 0 ≤ (pos : Int) + offset := by
    by_cases hsmall : pos < 2 ^ 31
    · rw [CInt.ofInt_natCast hsmall, CInt.ofInt_eq_self (by omega) (by omega)] at hcheck
      omega
    · omega
  exact ⟨_, (Int.toNat_of_nonneg hinside).symm, by omega⟩

omit hup in
/-- Such an offset points into the output. -/
theorem source_inside {out : List UInt8} {offset : Int} (hlow : -8192 ≤ offset)
    (hneg : offset < 0) (hcheck : ¬ CInt.ofInt (CInt.ofInt out.length + offset) < 0) :
    ∃ (i : Nat) (b : UInt8),
      (out.length : Int) + offset = i ∧ i < out.length ∧ out[i]? = some b := by
  obtain ⟨i, hi, hlt⟩ := place_inside hlow hneg hcheck
  exact ⟨i, _, hi, hlt, List.getElem?_eq_getElem hlt⟩

omit hup in
theorem run_loadDst {block out : List UInt8} {cxt : DecCxt} (hblock : cxt.dstBlock = block)
    (htake : block.take out.length = out) {i : Nat} (hi : i < out.length) {b : UInt8}
    (hget : out[i]? = some b) : loadDst cxt i = pure b := by
  rw [loadDst, if_neg (by omega)]
  simp only [Int.toNat_natCast, hblock, getElem?_of_take htake hi, hget]

variable (hframe : Framed Src)

include hframe

omit hup in
theorem sim_offsetCopy (limit : Nat) {offset : Int} (hlow : -8192 ≤ offset) (hneg : offset < 0) :
    Sim (Mirrors Src (FixedSink limit)) (Overflows limit) (Decoder.offsetCopy offset)
      (offsetCopy offset) := by
  refine ⟨?_, fun e => keeps_offsetCopy (upward_overflows limit) e offset⟩
  rintro ⟨cur, out⟩ cxt ⟨hsource, hsnk⟩
  obtain ⟨hdst, -, -, hat, -, htake⟩ := id hsnk
  by_cases hcheck : CInt.ofInt (CInt.ofInt out.length + offset) < 0
  · simp only [Decoder.offsetCopy, offsetCopy, run_get_bind, hat, hcheck, if_true, run_throw]
    exact .error _ ⟨hsource, hsnk⟩
  obtain ⟨i, b, hi, hlt, hget⟩ := source_inside hlow hneg hcheck
  by_cases hfull : cxt.dstPos ≥ cxt.dstLen
  · have hlimit : out.length = limit := hsnk.full hfull
    rw [hat] at hfull
    simp only [Decoder.offsetCopy, offsetCopy, run_get_bind, hat, hcheck, if_false, hfull,
      if_true, run_throw, hi, Int.toNat_natCast, hget, Option.toList_some]
    refine .gave ⟨rfl, ?_⟩
    simp only [endState, List.length_append, List.length_singleton]
    omega
  · obtain ⟨hend, hin, happend⟩ := hsnk.append hfull b
    have hstore := run_storeDst cxt hin b
    have hload : loadDst cxt i = pure b := run_loadDst rfl htake hlt hget
    rw [hat] at hfull
    simp only [Decoder.offsetCopy, offsetCopy, run_get_bind, hat, hcheck, if_false, hfull,
      hend, hi, Int.toNat_natCast, hget, Option.toList_some, hload, run_pure_bind,
      bind_ok hstore, run_modify]
    refine .ok _ ⟨hframe hsource, ?_⟩
    simpa only [hend, hat] using happend

theorem sim_offsetNocopy {offset : Int} (hlow : -8192 ≤ offset) (hneg : offset < 0) :
    Sim (Mirrors Src CountSink) Gave (Decoder.offsetCopy offset) (offsetNocopy offset) := by
  refine ⟨?_, fun e => keeps_offsetCopy hup e offset⟩
  rintro ⟨cur, out⟩ cxt ⟨hsource, hsnk⟩
  have hat : cxt.dstPos = out.length := hsnk
  by_cases hcheck : CInt.ofInt (CInt.ofInt out.length + offset) < 0
  · simp only [Decoder.offsetCopy, offsetNocopy, run_get_bind, hat, hcheck, if_true, run_throw]
    exact .error _ ⟨hsource, hsnk⟩
  obtain ⟨i, b, hi, hlt, hget⟩ := source_inside hlow hneg hcheck
  simp only [Decoder.offsetCopy, offsetNocopy, run_get_bind, hat, hcheck, if_false, hi,
    Int.toNat_natCast, hget, Option.toList_some, run_set]
  refine .ok _ ⟨hframe hsource, ?_⟩
  simpa only [hat] using hsnk.append b

theorem sim_offsetCopyAlloc (junk : Nat → UInt8) {offset : Int} (hlow : -8192 ≤ offset)
    (hneg : offset < 0) :
    Sim (Mirrors Src GrowSink) Gave (Decoder.offsetCopy offset) (offsetCopyAlloc junk offset) := by
  refine ⟨?_, fun e => keeps_offsetCopy hup e offset⟩
  rintro ⟨cur, out⟩ cxt ⟨hsource, hsnk⟩
  have hat : cxt.dstPos = out.length := hsnk.2.2.2.1
  by_cases hcheck : CInt.ofInt (CInt.ofInt out.length + offset) < 0
  · simp only [Decoder.offsetCopy, offsetCopyAlloc, run_get_bind, hat, hcheck, if_true, run_throw]
    exact .error _ ⟨hsource, hsnk⟩
  obtain ⟨i, b, hi, hlt, hget⟩ := source_inside hlow hneg hcheck
  obtain ⟨block, len, hgrow, hsnk', hroom⟩ := run_growDst junk out hsnk
  obtain ⟨hend, hin, happend⟩ := hsnk'.append hroom b
  have hstore := run_storeDst { cxt with dstBlock := block, dstLen := len } hin b
  have hload : loadDst { cxt with dstBlock := block, dstLen := len } i = pure b :=
    run_loadDst rfl hsnk'.2.2.2.2.2 hlt hget
  have hfrom : (cxt.dst : Int) + cxt.dstPos + offset = i := by
    rw [← hi, ← hend, Int.natCast_add]
  have hcheck' : ¬ CInt.ofInt (CInt.ofInt cxt.dstPos + offset) < 0 := by rwa [hat]
  simp only [Decoder.offsetCopy, offsetCopyAlloc, run_get_bind, hcheck, hcheck', if_false,
    bind_ok hgrow, hfrom, hload, run_pure_bind, hi, Int.toNat_natCast, hget,
    Option.toList_some, hend, bind_ok hstore, run_modify]
  exact .ok _ ⟨hframe hsource, happend⟩

end Output

end Sylverant.Prs
