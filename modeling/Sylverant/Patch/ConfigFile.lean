/-
# The configuration of the patch server

The patch server reads its configuration from a document, when it starts and each time that it is
told to. While it reads, it asks the library that parses XML for strings, allocates files and
entries of its own, and puts them into the configuration or frees them, which differs from one
kind of element to the next. The definitions follow `patch_config.c` and `load_config` of
`patch_server.c`.

The library that parses XML hands the document over as a tree, and always has memory for its
strings. What addresses, texts and documents are to it stands in parameters.
-/

import Sylverant.Library.CString
import Sylverant.Library.Ownership

namespace Sylverant.Patch.Config

open Ownership (Heap)
open CString (strtoul)

/-! ## The document -/

/-- `xmlNode`: an element, with its attributes, what `xmlNodeListGetString` makes of its children,
and its children, or text and the like. -/
inductive Node
  | element (name : String) (props : List (String × String)) (text : Option String)
      (children : List Node)
  | other

/-- What other libraries do: whether a text is an address, and what becomes of a welcome message
when its line ends and its encoding are changed. -/
structure Lib where
  inetPton : String → Option UInt32
  inetPton6 : String → Option (List UInt8)
  welcome : Bool → String → List UInt8

/-- A string of the library. -/
structure Str where
  addr : Nat
  text : String

/-- A string, or none. -/
def newStr (text : Option String) (h : Heap) : Option Str × Heap :=
  match text with
  | none => (none, h)
  | some text => (some ⟨h.new.1, text⟩, h.new.2)

/-- `xmlGetProp` -/
def xmlGetProp (props : List (String × String)) (name : String) (h : Heap) : Option Str × Heap :=
  newStr (props.lookup name) h

/-- The block of a string. -/
def strBlocks (s : Option Str) : List Nat := s.toList.map Str.addr

/-- `xmlFree` -/
def xmlFree (s : Option Str) (h : Heap) : Heap := h.freeAll (strBlocks s)

/-! ## The configuration -/

/-- `patch_file_entry_t` -/
structure FileEntry where
  addr : Nat
  filename : Option Str := none
  size : UInt32 := 0
  checksum : UInt32 := 0
  clientChecksum : UInt32 := 0

/-- `patch_file_t`, with its flags apart. -/
structure PatchFile where
  addr : Nat
  filename : Option Str := none
  entries : List FileEntry := []

/-- A welcome message in a block of its own, with as many bytes as its size says. -/
structure Welcome where
  addr : Nat
  data : List UInt8

/-- `patch_config_t` -/
structure PatchConfig where
  addr : Nat
  serverIp : UInt32 := 0
  serverIp6 : List UInt8 := List.replicate 16 0
  disallowPc : Bool := false
  disallowBb : Bool := false
  pcWelcome : Option Welcome := none
  bbWelcome : Option Welcome := none
  pcDir : Option Str := none
  bbDir : Option Str := none
  pcFiles : List PatchFile := []
  bbFiles : List PatchFile := []

/-- The blocks of an entry, in the order in which `patch_free_entry` frees them. -/
def FileEntry.blocks (e : FileEntry) : List Nat := strBlocks e.filename ++ [e.addr]

/-- The blocks of a file, in the order in which `patch_free_entry` frees them. -/
def PatchFile.blocks (e : PatchFile) : List Nat :=
  e.entries.flatMap FileEntry.blocks ++ (strBlocks e.filename ++ [e.addr])

/-- `patch_free_entry` -/
def patchFreeEntry (e : PatchFile) (h : Heap) : Heap := h.freeAll e.blocks

/-- The blocks of the configuration, in the order in which `patch_free_config` frees them. -/
def PatchConfig.blocks (cfg : PatchConfig) : List Nat :=
  cfg.pcWelcome.toList.map Welcome.addr ++ (cfg.bbWelcome.toList.map Welcome.addr ++
    (strBlocks cfg.pcDir ++ (strBlocks cfg.bbDir ++ (cfg.pcFiles.flatMap PatchFile.blocks ++
      (cfg.bbFiles.flatMap PatchFile.blocks ++ [cfg.addr])))))

/-- `patch_free_config` -/
def patchFreeConfig (cfg : PatchConfig) (h : Heap) : Heap := h.freeAll cfg.blocks

/-! ## The elements -/

/-- The loop over the nodes of a list, which ends with the first that cannot be read. -/
def each {σ : Type} (handle : Node → σ → Heap → σ × Int × Heap) :
    List Node → σ → Heap → σ × Int × Heap
  | [], x, h => (x, 0, h)
  | n :: ns, x, h =>
      let r := handle n x h
      if r.2.1 ≠ 0 then r else each handle ns r.1 r.2.2

/-- What is done with the return value of a handler: an error of its own in place of any error, or
going on, with what becomes of the state in both cases. -/
def orFail {ι σ : Type} (r : ι × Int × Heap) (e : Int) (failed done : ι → σ) : σ × Int × Heap :=
  if r.2.1 ≠ 0 then (failed r.1, e, r.2.2) else (done r.1, 0, r.2.2)

/-- `handle_server` -/
def handleServer (lib : Lib) (props : List (String × String)) (cur : PatchConfig) (h : Heap) :
    PatchConfig × Int × Heap :=
  let (ip, h) := xmlGetProp props "addr" h
  let (ip6, h) := xmlGetProp props "ip6" h
  let freed := xmlFree ip (xmlFree ip6 h)
  match ip with
  | none => (cur, -1, freed)
  | some ip =>
      match lib.inetPton ip.text with
      | none => (cur, -2, freed)
      | some a =>
          match ip6.bind fun s => lib.inetPton6 s.text with
          | none => ({ cur with serverIp := a }, 0, freed)
          | some a6 => ({ cur with serverIp := a, serverIp6 := a6 }, 0, freed)

/-- `handle_versions` -/
def handleVersions (props : List (String × String)) (cfg : PatchConfig) (h : Heap) :
    PatchConfig × Int × Heap :=
  let (pc, h) := xmlGetProp props "pc" h
  let (bb, h) := xmlGetProp props "bb" h
  let freed := xmlFree pc (xmlFree bb h)
  match pc, bb with
  | some pc, some bb =>
      ({ cfg with
        disallowPc := cfg.disallowPc || pc.text == "false"
        disallowBb := cfg.disallowBb || bb.text == "false" }, 0, freed)
  | _, _ => (cfg, -1, freed)

/-- The versions of the game, as attributes name them. -/
inductive Ver
  | pc
  | bb
  deriving DecidableEq

/-- The version that an attribute names. -/
def verOf (s : String) : Option Ver :=
  if s = "PC" then some .pc else if s = "BB" then some .bb else none

/-- Set the welcome message for a version. -/
def PatchConfig.setWelcome (cfg : PatchConfig) (ver : Ver) (w : Welcome) : PatchConfig :=
  match ver with
  | .pc => { cfg with pcWelcome := some w }
  | .bb => { cfg with bbWelcome := some w }

/-- The part of `handle_welcome` that puts the message where it belongs, with the converting context
`ic`, which is a block too. -/
def storeWelcome (lib : Lib) (v : Ver) (ic : Nat) (ver msg : Str) (cfg : PatchConfig) (h : Heap) :
    PatchConfig × Int × Heap :=
  match h.malloc with
  | (none, h) => (cfg, -4, ((h.free ic).free msg.addr).free ver.addr)
  | (some tmp, h) =>
      (cfg.setWelcome v ⟨tmp, lib.welcome (v = .pc) msg.text⟩, 0,
        ((h.free ic).free msg.addr).free ver.addr)

/-- `handle_welcome` -/
def handleWelcome (lib : Lib) (props : List (String × String)) (text : Option String)
    (cfg : PatchConfig) (h : Heap) : PatchConfig × Int × Heap :=
  match h.malloc with
  | (none, h) => (cfg, -1, h)
  | (some ic, h) =>
      let (ver, h) := xmlGetProp props "version" h
      match ver with
      | none => (cfg, -2, h.free ic)
      | some ver =>
          match verOf ver.text with
          | none => (cfg, -3, (h.free ic).free ver.addr)
          | some v =>
              let (msg, h) := newStr text h
              match msg with
              | none => (cfg, -5, (h.free ic).free ver.addr)
              | some msg => storeWelcome lib v ic ver msg cfg h

/-- `handle_file` -/
def handleFile (text : Option String) (f : FileEntry) (h : Heap) : FileEntry × Heap :=
  let (fn, h) := newStr text h
  match fn with
  | none => (f, h)
  | some fn => ({ f with filename := some fn }, h)

/-- What `strtoul` returns when it sets `errno`, as a `uint32_t`. -/
def tooBig : UInt32 := 0xFFFFFFFF

/-- Read a number from a text, if there is one, and set a field of an entry to it. -/
def handleNumber (base : Nat) (set : UInt32 → FileEntry → FileEntry) (text : Option String)
    (f : FileEntry) (h : Heap) : FileEntry × Int × Heap :=
  let (s, h) := newStr text h
  match s with
  | none => (f, 0, h)
  | some s =>
      match strtoul s.text base with
      | none => (set tooBig f, -1, h.free s.addr)
      | some v => (set (UInt32.ofNat v) f, 0, h.free s.addr)

/-- Set the checksum of an entry. -/
def FileEntry.setChecksum (v : UInt32) (f : FileEntry) : FileEntry := { f with checksum := v }

/-- Set the size of an entry. -/
def FileEntry.setSize (v : UInt32) (f : FileEntry) : FileEntry := { f with size := v }

/-- `handle_checksum` -/
def handleChecksum : Option String → FileEntry → Heap → FileEntry × Int × Heap :=
  handleNumber 16 FileEntry.setChecksum

/-- `handle_size` -/
def handleSize : Option String → FileEntry → Heap → FileEntry × Int × Heap :=
  handleNumber 0 FileEntry.setSize

/-- The flags of `handle_entry`. -/
structure EntryFlags where
  haveFile : Bool := false
  haveChecksum : Bool := false
  haveSize : Bool := false
  deriving DecidableEq

/-- An entry with the flags. -/
structure EntryState where
  ent : FileEntry
  flags : EntryFlags := {}

/-- A round of the loop of `handle_entry`. -/
def entryChild (n : Node) (st : EntryState) (h : Heap) : EntryState × Int × Heap :=
  match n with
  | .other => (st, 0, h)
  | .element name _ text _ =>
      if name = "file" then
        if st.flags.haveFile then (st, -3, h)
        else
          let (ent, h) := handleFile text st.ent h
          (⟨ent, { st.flags with haveFile := true }⟩, 0, h)
      else if name = "checksum" then
        if st.flags.haveChecksum then (st, -5, h)
        else
          orFail (handleChecksum text st.ent h) (-6) (fun ent => ⟨ent, st.flags⟩)
            fun ent => ⟨ent, { st.flags with haveChecksum := true }⟩
      else if name = "size" then
        if st.flags.haveSize then (st, -7, h)
        else
          orFail (handleSize text st.ent h) (-8) (fun ent => ⟨ent, st.flags⟩)
            fun ent => ⟨ent, { st.flags with haveSize := true }⟩
      else (st, 0, h)

/-- The loop of `handle_entry` and what is behind it. -/
def entryChildren (children : List Node) (ent : FileEntry) (h : Heap) : FileEntry × Int × Heap :=
  let (st, rv, h) := each entryChild children ⟨ent, {}⟩ h
  if rv ≠ 0 then (st.ent, rv, h)
  else if !st.flags.haveFile || !st.flags.haveChecksum || !st.flags.haveSize then (st.ent, -9, h)
  else (st.ent, 0, h)

/-- `handle_entry` -/
def handleEntry (props : List (String × String)) (children : List Node) (cksum : Bool)
    (ent : FileEntry) (h : Heap) : FileEntry × Int × Heap :=
  if cksum then
    let (checksum, h) := xmlGetProp props "checksum" h
    match checksum with
    | none => (ent, -1, h)
    | some s =>
        match strtoul s.text 16 with
        | none => ({ ent with clientChecksum := tooBig }, -2, h.free s.addr)
        | some v =>
            entryChildren children { ent with clientChecksum := UInt32.ofNat v } (h.free s.addr)
  else entryChildren children ent h

/-- The flags of a file and of `handle_patch`. -/
structure PatchFlags where
  hasIf : Bool := false
  hasElse : Bool := false
  noIf : Bool := false
  haveCfile : Bool := false
  haveFile : Bool := false
  haveChecksum : Bool := false
  haveSize : Bool := false
  deriving DecidableEq

/-- A file that is read: its block and name, the entries before the one that is read, and that
one. -/
structure PatchState where
  addr : Nat
  filename : Option Str := none
  front : List FileEntry := []
  ent : FileEntry
  flags : PatchFlags := {}

/-- The file with its entries. -/
def PatchState.file (st : PatchState) : PatchFile where
  addr := st.addr
  filename := st.filename
  entries := st.front ++ [st.ent]

/-- Read the element of an entry into the one that is read. -/
def readEntry (props : List (String × String)) (children : List Node) (cksum : Bool) (fail : Int)
    (st : PatchState) (flags : PatchFlags) (h : Heap) : PatchState × Int × Heap :=
  orFail (handleEntry props children cksum st.ent h) fail (fun ent => { st with ent })
    fun ent => { st with ent, flags }

/-- A new entry behind the others, and then its element. -/
def appendEntry (props : List (String × String)) (children : List Node) (cksum : Bool)
    (full fail : Int) (st : PatchState) (flags : PatchFlags) (h : Heap) :
    PatchState × Int × Heap :=
  match h.malloc with
  | (none, h) => (st, full, h)
  | (some ent2, h) =>
      readEntry props children cksum fail
        { st with front := st.front ++ [st.ent], ent := { addr := ent2 } } flags h

/-- A round of the loop of `handle_patch`. -/
def patchChild (n : Node) (st : PatchState) (h : Heap) : PatchState × Int × Heap :=
  match n with
  | .other => (st, 0, h)
  | .element name props text children =>
      if name = "clientfile" then
        if st.flags.haveCfile then (st, -3, h)
        else
          let (fn, h) := newStr text h
          ({ st with filename := fn.or st.filename, flags := { st.flags with haveCfile := true } },
            0, h)
      else if name = "file" then
        if st.flags.hasIf then (st, -18, h)
        else if st.flags.haveFile then
          ({ st with flags := { st.flags with noIf := true } }, -5, h)
        else
          let (ent, h) := handleFile text st.ent h
          ({ st with ent, flags := { st.flags with noIf := true, haveFile := true } }, 0, h)
      else if name = "checksum" then
        if st.flags.hasIf then (st, -17, h)
        else if st.flags.haveChecksum then
          ({ st with flags := { st.flags with noIf := true } }, -7, h)
        else
          orFail (handleChecksum text st.ent h) (-8)
            (fun ent => { st with ent, flags := { st.flags with noIf := true } })
            fun ent =>
              { st with ent, flags := { st.flags with noIf := true, haveChecksum := true } }
      else if name = "size" then
        if st.flags.hasIf then (st, -16, h)
        else if st.flags.haveSize then
          ({ st with flags := { st.flags with noIf := true } }, -9, h)
        else
          orFail (handleSize text st.ent h) (-10)
            (fun ent => { st with ent, flags := { st.flags with noIf := true } })
            fun ent => { st with ent, flags := { st.flags with noIf := true, haveSize := true } }
      else if name = "if" then
        if st.flags.hasElse || st.flags.noIf then (st, -14, h)
        else
          let flags := { st.flags with
            hasIf := true, haveFile := true, haveChecksum := true, haveSize := true }
          if st.flags.haveSize then appendEntry props children true (-15) (-20) st flags h
          else readEntry props children true (-20) st flags h
      else if name = "else" then
        if st.flags.hasElse || !st.flags.hasIf then (st, -12, h)
        else appendEntry props children false (-13) (-19) st { st.flags with hasElse := true } h
      else (st, 0, h)

/-- The loop of `handle_patch` and what is behind it, with the blocks of the file and of its first
entry. -/
def patchChildren (children : List Node) (file ent : Nat) (q : List PatchFile) (h : Heap) :
    List PatchFile × Int × Heap :=
  let (st, rv, h) := each patchChild children { addr := file, ent := { addr := ent } } h
  if rv ≠ 0 then (q, rv, patchFreeEntry st.file h)
  else if !st.flags.haveCfile || !st.flags.haveFile || !st.flags.haveChecksum ||
      !st.flags.haveSize then
    (q, -11, patchFreeEntry st.file h)
  else (q ++ [st.file], 0, h)

/-- `handle_patch` -/
def handlePatch (props : List (String × String)) (children : List Node) (q : List PatchFile)
    (h : Heap) : List PatchFile × Int × Heap :=
  let (enabled, h) := xmlGetProp props "enabled" h
  match enabled with
  | none => (q, -1, h)
  | some enabled =>
      if enabled.text = "false" then (q, 0, h.free enabled.addr)
      else
        match h.malloc with
        | (none, h) => (q, -2, h.free enabled.addr)
        | (some file, h) =>
            match h.malloc with
            | (none, h) => (q, -11, (patchFreeEntry { addr := file } h).free enabled.addr)
            | (some ent, h) =>
                let (q, rv, h) := patchChildren children file ent q h
                (q, rv, h.free enabled.addr)

/-- A round of the loop of `handle_patches`. -/
def patchesChild (n : Node) (q : List PatchFile) (h : Heap) : List PatchFile × Int × Heap :=
  match n with
  | .other => (q, 0, h)
  | .element name props _ children =>
      if name = "patch" then orFail (handlePatch props children q h) (-3) id id
      else (q, 0, h)

/-- Set the directory for a version. -/
def PatchConfig.setDir (cfg : PatchConfig) (ver : Ver) (dir : Str) : PatchConfig :=
  match ver with
  | .pc => { cfg with pcDir := some dir }
  | .bb => { cfg with bbDir := some dir }

/-- The files for a version. -/
def PatchConfig.files (cfg : PatchConfig) : Ver → List PatchFile
  | .pc => cfg.pcFiles
  | .bb => cfg.bbFiles

/-- Set the files for a version. -/
def PatchConfig.setFiles (cfg : PatchConfig) (ver : Ver) (q : List PatchFile) : PatchConfig :=
  match ver with
  | .pc => { cfg with pcFiles := q }
  | .bb => { cfg with bbFiles := q }

/-- The part of `handle_patches` behind the attributes. The configuration keeps the directory, also
where it is freed in the end. -/
def readPatches (v : Ver) (ver dir : Str) (children : List Node) (cfg : PatchConfig) (h : Heap) :
    PatchConfig × Int × Heap :=
  let cfg := cfg.setDir v dir
  let (q, rv, h) := each patchesChild children (cfg.files v) h
  let cfg := cfg.setFiles v q
  if rv < 0 then (cfg, rv, (h.free ver.addr).free dir.addr) else (cfg, rv, h.free ver.addr)

/-- `handle_patches` -/
def handlePatches (props : List (String × String)) (children : List Node) (cfg : PatchConfig)
    (h : Heap) : PatchConfig × Int × Heap :=
  let (ver, h) := xmlGetProp props "version" h
  let (dir, h) := xmlGetProp props "dir" h
  match ver, dir with
  | some ver, some dir =>
      match verOf ver.text with
      | none => (cfg, -2, (h.free ver.addr).free dir.addr)
      | some v => readPatches v ver dir children cfg h
  | _, _ => (cfg, -1, xmlFree dir (xmlFree ver h))

/-- A round of the loop of `patch_read_config`. -/
def configChild (lib : Lib) (n : Node) (cfg : PatchConfig) (h : Heap) : PatchConfig × Int × Heap :=
  match n with
  | .other => (cfg, 0, h)
  | .element name props text children =>
      if name = "server" then orFail (handleServer lib props cfg h) (-7) id id
      else if name = "versions" then orFail (handleVersions props cfg h) (-8) id id
      else if name = "welcome" then orFail (handleWelcome lib props text cfg h) (-9) id id
      else if name = "patches" then orFail (handlePatches props children cfg h) (-10) id id
      else (cfg, 0, h)

/-! ## The document as a whole -/

/-- What there is when the configuration is loaded: for which requests there is memory, and what
the library makes of the file: the document if it can be parsed, with the name and the children of
its root element if there is one, and whether its parser takes it to be valid. -/
structure Reload where
  room : Nat → Bool
  doc : Option (Option (String × List Node))
  valid : Bool

/-- `patch_read_config`. The parser's context and the document are blocks too. -/
def patchReadConfig (lib : Lib) (r : Reload) (h : Heap) : Option PatchConfig × Int × Heap :=
  match h.malloc with
  | (none, h) => (none, -1, h)
  | (some rv, h) =>
      match h.malloc with
      | (none, h) => (none, -2, h.free rv)
      | (some cxt, h) =>
          match r.doc with
          | none => (none, -3, (h.free cxt).free rv)
          | some root =>
              let (doc, h) := h.new
              if ¬ r.valid then (none, -4, ((h.free doc).free cxt).free rv)
              else
                match root with
                | none => (none, -5, ((h.free doc).free cxt).free rv)
                | some (name, children) =>
                    if name ≠ "patch_config" then (none, -6, ((h.free doc).free cxt).free rv)
                    else
                      let (cfg, irv, h) := each (configChild lib) children { addr := rv } h
                      let h := (h.free doc).free cxt
                      if irv ≠ 0 then (none, irv, patchFreeConfig cfg h) else (some cfg, 0, h)

/-- The server, as far as its configuration goes. -/
structure Server where
  heap : Heap := {}
  cfg : Option PatchConfig := none
  exited : Bool := false

/-- `load_config` -/
def loadConfig (lib : Lib) (s : Server) (r : Reload) : Server :=
  let (tmp, rv, h) := patchReadConfig lib r { s.heap with asked := 0, room := r.room }
  if rv ≠ 0 ∧ s.cfg.isNone then { s with heap := h, exited := true }
  else
    match s.cfg with
    | none => { s with heap := h, cfg := tmp }
    | some cfg => { s with heap := patchFreeConfig cfg h, cfg := tmp }

end Sylverant.Patch.Config
