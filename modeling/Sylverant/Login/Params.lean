/-
# Parameter files

The parameter files of Blue Burst, which the login server reads when it starts and hands to its
clients in chunks, behind a header that says where each file is. A directory says what is in a
file when it can be opened. No allocation fails here.

A call of `fclose` with what `fopen` returned for a missing file is not defined, so nothing can be
said of a load that makes it.
-/

import Mathlib.Algebra.Group.Nat.Defs
import Sylverant.Library.Pieces
import Sylverant.Servers.Checksum

namespace Sylverant.Login.Params

open Pieces (piece)
open Servers (crc32)

/-! ## The code -/

/-- `param_files` -/
def paramFiles : List String :=
  ["ItemMagEdit.prs", "ItemPMT.prs", "BattleParamEntry.dat", "BattleParamEntry_on.dat",
    "BattleParamEntry_lab.dat", "BattleParamEntry_lab_on.dat", "BattleParamEntry_ep4.dat",
    "BattleParamEntry_ep4_on.dat", "PlyLevelTbl.prs"]

/-- `MAX_PARAMS_SIZE` -/
def maxParamsSize : Nat := 0x100000

/-- An entry of `bb_param_hdr_pkt`. -/
structure Entry where
  size : UInt32
  checksum : UInt32
  offset : UInt32
  filename : String
  deriving DecidableEq

/-- `bb_param_hdr_pkt` -/
structure ParamHdr where
  pktType : UInt16 := 0x01EB
  pktLen : UInt16 := (0x08 + paramFiles.length * 0x4C).toUInt16
  flags : UInt32 := paramFiles.length.toUInt32
  entries : List Entry

/-- `bb_param_chunk_pkt` -/
structure ParamChunk where
  pktType : UInt16 := 0x02EB
  pktLen : UInt16
  flags : UInt32 := 0
  chunk : UInt32
  data : List UInt8
  deriving DecidableEq

/-- `param_hdr`, `param_chunks` and `num_param_chunks` -/
structure ParamData where
  hdr : ParamHdr
  chunks : List ParamChunk
  numChunks : Nat

/-- What becomes of `load_param_data`. -/
inductive Outcome
  /-- A file is closed that was not opened. -/
  | undefined
  | failed (rv : Int)
  | loaded (params : ParamData)

/-- What is in the files that can be opened. -/
abbrev Directory := String → Option (List UInt8)

/-- The loop over the files, with the bytes in `rawbuf` up to `offset` and the entries so far. -/
def readFiles (dir : Directory) : List String → List UInt8 → List Entry →
    Except Outcome (List UInt8 × List Entry)
  | [], raw, entries => .ok (raw, entries)
  | fn :: fns, raw, entries =>
      match dir fn with
      | none => .error .undefined
      | some file =>
          if file.length > 0x10000 then .error (.failed (-3))
          else if file.length + raw.length > maxParamsSize then .error (.failed (-3))
          else
            readFiles dir fns (raw ++ file) (entries ++ [{
              size := file.length.toUInt32
              checksum := crc32 file
              offset := raw.length.toUInt32
              filename := fn }])

/-- The number of chunks that so many bytes are put into. -/
def numParamChunks (offset : Nat) : Nat :=
  if offset % 0x6800 ≠ 0 then offset / 0x6800 + 1 else offset / 0x6800

/-- One round of the loop that makes the chunks. -/
def makeChunk (raw : List UInt8) (i : Nat) : ParamChunk :=
  let len : Nat := if raw.length < (i + 1) * 0x6800 then raw.length % 0x6800 + 0x0C else 0x680C
  { pktLen := len.toUInt16
    chunk := i.toUInt32
    data := (raw.drop (i * 0x6800)).take (len - 0x0C) }

/-- `load_param_data` -/
def loadParamData (dir : Directory) : Outcome :=
  match readFiles dir paramFiles [] [] with
  | .error o => o
  | .ok (raw, entries) =>
      let num := numParamChunks raw.length
      .loaded {
        hdr := { entries := entries }
        chunks := (List.range num).map (makeChunk raw)
        numChunks := num }

/-- `handle_param_chunk_req`, with the packet that is sent. -/
def handleParamChunkReq (params : ParamData) (chunk : UInt32) : Option ParamChunk × Int :=
  if chunk.toNat < params.numChunks then (params.chunks[chunk.toNat]?, 0) else (none, -1)

/-! ## What a load should do -/

/-- The entry of a file that stands behind so many bytes. -/
def entryOf (offset : Nat) (fn : String) (file : List UInt8) : Entry :=
  ⟨file.length.toUInt32, crc32 file, offset.toUInt32, fn⟩

/-- A file that cannot be loaded. -/
def Bad (dir : Directory) (fn : String) : Prop :=
  match dir fn with
  | none => True
  | some file => file.length > 0x10000

instance (dir : Directory) (fn : String) : Decidable (Bad dir fn) := by
  unfold Bad
  cases dir fn with
  | none => exact isTrue trivial
  | some file => exact inferInstanceAs (Decidable (_ > _))

/-- An entry says where a file is among all of them. -/
structure Describes (files : List (List UInt8)) (i : Nat) (e : Entry) : Prop where
  filename : paramFiles[i]? = some e.filename
  offset : e.offset.toNat = (files.take i).flatten.length
  found : files[i]? = some ((files.flatten.drop e.offset.toNat).take e.size.toNat)
  checksum : files[i]?.map crc32 = some e.checksum

/-- What clients can get of the files. -/
structure Served (files : List (List UInt8)) (params : ParamData) : Prop where
  count : params.hdr.entries.length = paramFiles.length
  entries : ∀ i e, params.hdr.entries[i]? = some e → Describes files i e
  /-- The data of all chunks is that of the files. -/
  whole : params.chunks.flatMap (·.data) = files.flatten
  full : ∀ i, i + 1 < params.chunks.length →
    (params.chunks[i]?.map (·.data.length)) = some 0x6800
  filled : ∀ c ∈ params.chunks, c.data ≠ []
  /-- A chunk says how long it is. -/
  measured : ∀ c ∈ params.chunks, c.pktLen.toNat = 0x0C + c.data.length
  /-- The numbers that are answered are those of the chunks, and the answer is the chunk. -/
  answered : ∀ k : UInt32, (handleParamChunkReq params k).1 = params.chunks[k.toNat]? ∧
    ∀ c, (handleParamChunkReq params k).1 = some c → c.chunk = k

/-- A load is right when it serves the files, or fails because of one of them. -/
def Right (dir : Directory) (o : Outcome) : Prop :=
  (∀ files, paramFiles.map dir = files.map some → (∀ file ∈ files, file.length ≤ 65536) →
    ∃ params, o = .loaded params ∧ Served files params) ∧
  ((∃ fn ∈ paramFiles, Bad dir fn) → ∃ rv, o = .failed rv ∧ rv ≠ 0)

/-! ## Reading the files -/

variable {dir : Directory} {fns : List String} {files : List (List UInt8)} {raw : List UInt8}
  {entries : List Entry}

/-- Files that can be read are put one behind the other, with an entry for each. -/
theorem readFiles_good (hfiles : fns.map dir = files.map some)
    (small : ∀ file ∈ files, file.length ≤ 0x10000)
    (room : raw.length + 0x10000 * fns.length ≤ maxParamsSize) :
    readFiles dir fns raw entries = .ok (raw ++ files.flatten,
      entries ++ (List.range fns.length).map fun i => entryOf
        (raw.length + (files.take i).flatten.length) (fns.getD i "") (files.getD i [])) := by
  induction fns generalizing files raw entries with
  | nil =>
      cases files with
      | nil =>
          rw [readFiles, List.flatten_nil, List.append_nil, List.length_nil, List.range_zero,
            List.map_nil, List.append_nil]
      | cons file files => exact nomatch hfiles
  | cons fn fns ih =>
      cases files with
      | nil => exact nomatch hfiles
      | cons file files =>
          rw [List.map_cons, List.map_cons, List.cons.injEq] at hfiles
          obtain ⟨here, later⟩ := hfiles
          have fits : file.length ≤ 0x10000 := small file List.mem_cons_self
          rw [List.length_cons] at room
          rw [readFiles, here]
          dsimp only
          rw [if_neg (by omega), if_neg (by omega),
            ih later (fun f hf => small f (List.mem_cons_of_mem _ hf))
              (by rw [List.length_append]; omega),
            List.flatten_cons, List.append_assoc, List.append_assoc, List.length_cons,
            List.range_succ_eq_map, List.map_cons, List.map_map]
          refine congrArg
            (fun es => Except.ok (raw ++ (file ++ files.flatten), entries ++ (_ :: es))) ?_
          apply List.map_congr_left
          intro i _
          simp only [Function.comp_apply, List.length_append, List.take_succ_cons,
            List.flatten_cons, List.getD_cons_succ, Nat.add_assoc]

/-- What the load comes to with a file that cannot be loaded. -/
def failure (dir : Directory) (fn : String) : Outcome :=
  if dir fn = none then .undefined else .failed (-3)

/-- The first file that cannot be loaded decides. -/
theorem readFiles_bad {fn : String} {rest : List String} (good : ∀ f ∈ fns, ¬ Bad dir f)
    (bad : Bad dir fn) (room : raw.length + 0x10000 * fns.length ≤ maxParamsSize) :
    readFiles dir (fns ++ fn :: rest) raw entries = .error (failure dir fn) := by
  induction fns generalizing raw entries with
  | nil =>
      rw [List.nil_append, readFiles, failure]
      rw [Bad] at bad
      cases hfn : dir fn with
      | none => rfl
      | some file =>
          rw [hfn] at bad
          exact if_pos bad
  | cons f fns ih =>
      have fine := good f List.mem_cons_self
      rw [Bad] at fine
      rw [List.cons_append, readFiles]
      cases hf : dir f with
      | none =>
          rw [hf] at fine
          exact absurd trivial fine
      | some file =>
          rw [hf] at fine
          rw [List.length_cons] at room
          have fits : file.length ≤ 0x10000 := Nat.le_of_not_lt fine
          dsimp only
          rw [if_neg fine, if_neg (by omega)]
          exact ih (fun g hg => good g (List.mem_cons_of_mem _ hg))
            (by rw [List.length_append]; omega)

/-! ## Making the chunks -/

variable {i : Nat}

/-- The data of a chunk is a piece of all data. -/
theorem data_makeChunk (h : i < numParamChunks raw.length) :
    (makeChunk raw i).data = piece 0x6800 raw i := by
  have size := Pieces.length_piece_eq (by decide : 0 < 0x6800) h
  have len : (if raw.length < (i + 1) * 0x6800 then raw.length % 0x6800 + 0x0C else 0x680C) - 0x0C =
      min 0x6800 (raw.length - i * 0x6800) := by
    rw [size]
    by_cases last : raw.length < (i + 1) * 0x6800
    · rw [if_pos last, if_pos last, Nat.add_sub_cancel]
    · rw [if_neg last, if_neg last]
  rw [makeChunk, piece]
  dsimp only
  rw [len, List.take_eq_take_iff, List.length_drop, Nat.min_assoc, Nat.min_self]

/-- A chunk has the length that it says. -/
theorem pktLen_makeChunk (h : i < numParamChunks raw.length) :
    (makeChunk raw i).pktLen.toNat = 0x0C + (makeChunk raw i).data.length := by
  have size := Pieces.length_piece_eq (by decide : 0 < 0x6800) h
  rw [data_makeChunk h, Pieces.length_piece, size, makeChunk]
  dsimp only
  by_cases last : raw.length < (i + 1) * 0x6800
  · have short : raw.length % 0x6800 < 0x6800 := Nat.mod_lt _ (by decide)
    rw [if_pos last, if_pos last, UInt16.toNat_ofNat', Nat.mod_eq_of_lt (by omega), Nat.add_comm]
  · rw [if_neg last, if_neg last]
    rfl

theorem chunks_get (n : Nat) (i : Nat) :
    ((List.range n).map (makeChunk raw))[i]? = if i < n then some (makeChunk raw i) else none := by
  rw [List.getElem?_map]
  by_cases h : i < n
  · rw [List.getElem?_range h, if_pos h, Option.map_some]
  · rw [List.getElem?_eq_none (by rw [List.length_range]; omega), if_neg h, Option.map_none]

theorem getD_eq_of_lt {α : Type} {xs : List α} {a : α} (h : i < xs.length) :
    xs[i]? = some (xs.getD i a) := by
  rw [List.getD_eq_getElem?_getD, List.getElem?_eq_getElem h, Option.getD_some]

theorem describes_entryOf (hcount : files.length = paramFiles.length) (hi : i < files.length)
    (hsize : files.flatten.length < 2 ^ 32) :
    Describes files i
      (entryOf (files.take i).flatten.length (paramFiles.getD i "") (files.getD i [])) := by
  have here : files[i]? = some (files.getD i []) := getD_eq_of_lt hi
  have split : files.flatten =
      (files.take i).flatten ++ (files.getD i [] ++ (files.drop (i + 1)).flatten) := by
    have parts : files = files.take i ++ files.getD i [] :: files.drop (i + 1) := by
      rw [List.getD_eq_getElem?_getD, List.getElem?_eq_getElem hi, Option.getD_some,
        ← List.drop_eq_getElem_cons hi, List.take_append_drop]
    calc
      files.flatten = (files.take i ++ files.getD i [] :: files.drop (i + 1)).flatten :=
        congrArg List.flatten parts
      _ = _ := by rw [List.flatten_append, List.flatten_cons]
  have lengths := congrArg List.length split
  rw [List.length_append, List.length_append] at lengths
  have offset : (files.take i).flatten.length.toUInt32.toNat = (files.take i).flatten.length := by
    rw [UInt32.toNat_ofNat', Nat.mod_eq_of_lt (by omega)]
  have size : (files.getD i []).length.toUInt32.toNat = (files.getD i []).length := by
    rw [UInt32.toNat_ofNat', Nat.mod_eq_of_lt (by omega)]
  refine ⟨getD_eq_of_lt (hcount ▸ hi), offset, ?_, ?_⟩
  · rw [entryOf]
    dsimp only
    rw [offset, size, split, List.drop_left, List.take_left]
    exact here
  · rw [here]
    rfl

/-- The chunks serve the files that they are made of. -/
theorem served_chunks (hcount : files.length = paramFiles.length)
    (hsize : files.flatten.length < 2 ^ 32) :
    Served files {
      hdr := { entries := (List.range paramFiles.length).map fun i =>
        entryOf (files.take i).flatten.length (paramFiles.getD i "") (files.getD i []) }
      chunks := (List.range (numParamChunks files.flatten.length)).map (makeChunk files.flatten)
      numChunks := numParamChunks files.flatten.length } where
  count := by rw [List.length_map, List.length_range]
  entries := by
    intro i e he
    have inside : i < paramFiles.length := by
      have bound := (List.getElem?_eq_some_iff.mp he).1
      rw [List.length_map, List.length_range] at bound
      exact bound
    rw [List.getElem?_map, List.getElem?_range inside, Option.map_some] at he
    obtain rfl := Option.some.inj he
    exact describes_entryOf hcount (hcount ▸ inside) hsize
  whole := by
    have pieces := Pieces.flatMap_count (by decide : 0 < 0x6800) files.flatten
    refine Eq.trans ?_ pieces
    rw [List.flatMap_map]
    apply List.flatMap_congr
    intro i hi
    exact data_makeChunk (List.mem_range.mp hi)
  full := by
    intro i hi
    rw [List.length_map, List.length_range] at hi
    rw [chunks_get, if_pos (by omega), Option.map_some, data_makeChunk (by omega)]
    exact congrArg some (Pieces.length_piece_of_next (by decide) hi)
  filled := by
    intro c hc
    obtain ⟨i, hi, rfl⟩ := List.mem_map.mp hc
    rw [data_makeChunk (List.mem_range.mp hi)]
    exact Pieces.piece_ne_nil (by decide) (List.mem_range.mp hi)
  measured := by
    intro c hc
    obtain ⟨i, hi, rfl⟩ := List.mem_map.mp hc
    exact pktLen_makeChunk (List.mem_range.mp hi)
  answered := by
    intro k
    have same : (handleParamChunkReq {
        hdr := { entries := (List.range paramFiles.length).map fun i =>
          entryOf (files.take i).flatten.length (paramFiles.getD i "") (files.getD i []) }
        chunks := (List.range (numParamChunks files.flatten.length)).map (makeChunk files.flatten)
        numChunks := numParamChunks files.flatten.length } k).1 =
          ((List.range (numParamChunks files.flatten.length)).map
            (makeChunk files.flatten))[k.toNat]? := by
      rw [handleParamChunkReq]
      dsimp only
      by_cases h : k.toNat < numParamChunks files.flatten.length
      · rw [if_pos h]
      · rw [if_neg h, chunks_get, if_neg h]
    refine ⟨same, fun c hc => ?_⟩
    rw [same, chunks_get] at hc
    by_cases h : k.toNat < numParamChunks files.flatten.length
    · rw [if_pos h] at hc
      obtain rfl := Option.some.inj hc
      exact UInt32.ofNat_toNat
    · rw [if_neg h] at hc
      exact nomatch hc

/-! ## The load -/

/-- The first of the files that cannot be loaded, if there is one, is too long. -/
def FirstTooLong (dir : Directory) : Prop :=
  ∀ fn, paramFiles.find? (Bad dir ·) = some fn → dir fn ≠ none

theorem length_flatten_le {n : Nat} (h : ∀ file ∈ files, file.length ≤ n) :
    files.flatten.length ≤ n * files.length := by
  induction files with
  | nil => exact Nat.zero_le _
  | cons file files ih =>
      have here : file.length ≤ n := h file List.mem_cons_self
      have later := ih fun f hf => h f (List.mem_cons_of_mem _ hf)
      rw [List.flatten_cons, List.length_append, List.length_cons, Nat.mul_succ]
      omega

theorem not_bad_of_small {fn : String} (hfiles : fns.map dir = files.map some)
    (small : ∀ file ∈ files, file.length ≤ 65536) (h : fn ∈ fns) : ¬ Bad dir fn := by
  have here : dir fn ∈ files.map some := hfiles ▸ List.mem_map_of_mem h
  obtain ⟨file, hfile, hfn⟩ := List.mem_map.mp here
  rw [Bad, ← hfn]
  exact Nat.not_lt_of_le (small file hfile)

end Sylverant.Login.Params
