/-
# Delivery of files to a patch client

What a client should be sent for a list of files, and when it is. A file is only finished
when a short chunk was read, so that a file whose size is a multiple of the chunk size is
not: the next chunk is empty, and the client is disconnected.
-/

import Sylverant.Patch.FileSending

namespace Sylverant.Patch

/-! ## What a client should be sent -/

/-- The moves from one directory to another, both given by their parts. -/
def moves (cur dst : List Path) : List Pkt :=
  let apart := whereApart cur dst
  apart.1.map (fun _ => .oneDirUp) ++ apart.2.map .setDirectory

/-- The chunks of a file, numbered from `k` on. -/
def numbered (server : Server) : Nat → List (List UInt8) → List Pkt
  | _, [] => []
  | k, piece :: pieces => .dataSend k (server.crc32 piece) piece :: numbered server (k + 1) pieces

/-- The bytes of a file for the clients of a type, if it is there. -/
def contents (server : Server) (type : ClientType) (i : CFile) : Option (List UInt8) :=
  server.disk (dirFor server type ++ '/' :: i.ent.filename)

/-- The packets for the files of a client that is in a directory: the moves to each file,
its size, its chunks, whose data make up the file, and the end of the file. At last come
the moves back. -/
inductive Delivered (server : Server) (type : ClientType) : Path → List CFile → List Pkt → Prop
  | done (cur : Path) :
      Delivered server type cur [] (moves (tokens cur) [] ++ [.oneDirUp, .sendDone])
  | file (cur : Path) (i : CFile) (files : List CFile) (bytes : List UInt8)
      (pieces : List (List UInt8)) (rest : List Pkt) (hbytes : contents server type i = some bytes)
      (hpieces : pieces.flatten = bytes)
      (hrest : Delivered server type (dirName i.filename) files rest) :
      Delivered server type cur (i :: files)
        (moves (tokens cur) (tokens (dirName i.filename)) ++
          .fileSend i.ent.size (baseName i.filename) :: numbered server 0 pieces ++
          .fileDone :: rest)

/-- The packets for a client that asks for its files: the exact totals come first. -/
def Delivery (server : Server) (c : Client) (out : List Pkt) : Prop :=
  ∃ total count rest, out = .sendInfo total count :: .setDirectory ['.'] :: rest ∧
    total.toNat = (c.files.map fun i => i.ent.size.toNat).sum ∧
    count.toNat = c.files.length ∧ Delivered server c.type [] c.files rest

/-- Whether an event makes the server go on, once it has begun. -/
def Event.goesOn : Event → Bool
  | .listDone => true
  | .writable pending => ¬pending

/-- From its first request on a client is sent its files, and nothing else but that there
is nothing more. It is sent all of them if the server goes on often enough, and it is
never disconnected. -/
def Delivers (server : Server) (c : Client) : Prop :=
  ∃ out n, Delivery server c out ∧ ∀ es,
    let k := run server c (.listDone :: es)
    ¬k.failed ∧ (k.sent <+: out ∨ ∃ m, k.sent = out ++ List.replicate m .sendDone) ∧
      (n ≤ es.countP Event.goesOn → out <+: k.sent)

/-! ## The condition -/

/-- A file is on the server, has at least one byte, and has the size that is configured. -/
def OnServer (server : Server) (type : ClientType) (i : CFile) : Prop :=
  ∃ bytes, contents server type i = some bytes ∧ 1 ≤ bytes.length ∧ bytes.length = i.ent.size.toNat

/-- A file can be sent: its size is not a multiple of the chunk size and such that all
positions in it are in an `int`, and its names fit into the packets and into the buffers. -/
structure Sendable (i : CFile) : Prop where
  ragged : i.ent.size.toNat % chunkMax ≠ 0
  seekable : i.ent.size.toNat < 87382 * chunkMax
  base : (baseName i.filename).length ≤ 48
  dir : (dirName i.filename).length < pathMax
  parts : ∀ t ∈ tokens (dirName i.filename), t.length ≤ 64

/-- All files of a client can be sent, and their total size is in a word. -/
structure AllSendable (c : Client) : Prop where
  each : ∀ i ∈ c.files, Sendable i
  total : (c.files.map fun i => i.ent.size.toNat).sum < 2 ^ 32

/-! ## Directories -/

section Directories

variable {cur dst : List Path}

theorem whereApart_self (cur : List Path) : whereApart cur cur = ([], []) := by
  induction cur with
  | nil => rfl
  | cons t cur ih => rw [whereApart, if_pos rfl, ih]

/-- Two paths have the same beginning, up to where they part. -/
theorem whereApart_append (cur dst : List Path) :
    ∃ common, cur = common ++ (whereApart cur dst).1 ∧ dst = common ++ (whereApart cur dst).2 := by
  induction cur generalizing dst with
  | nil =>
      cases dst with
      | nil => exact ⟨[], rfl, rfl⟩
      | cons t' dst => exact ⟨[], rfl, rfl⟩
  | cons t cur ih =>
      cases dst with
      | nil => exact ⟨[], rfl, rfl⟩
      | cons t' dst =>
          rw [whereApart]
          split
          · rename_i heq
            obtain ⟨common, hcur, hdst⟩ := ih dst
            refine ⟨t :: common, ?_, ?_⟩
            · rw [List.cons_append, ← hcur]
            · rw [List.cons_append, ← hdst, heq]
          · exact ⟨[], rfl, rfl⟩

/-- Go where the packets lead, from a directory that is given by its parts. -/
def walk : List Path → List Pkt → Option (List Path)
  | cur, [] => some cur
  | cur, .oneDirUp :: out => if cur = [] then none else walk cur.dropLast out
  | cur, .setDirectory dir :: out => walk (cur ++ [dir]) out
  | _, _ => none

theorem walk_up (common up : List Path) (out : List Pkt) :
    walk (common ++ up) (up.map (fun _ => .oneDirUp) ++ out) = walk common out := by
  rw [List.map_const']
  induction up generalizing common out with
  | nil => rw [List.append_nil, List.length_nil, List.replicate_zero, List.nil_append]
  | cons t up ih =>
      have hne : common ++ [t] ≠ [] := by simp
      rw [List.length_cons, List.replicate_succ', List.append_assoc, List.singleton_append,
        List.append_cons, ih, walk, if_neg hne, List.dropLast_concat]

theorem walk_down (common down : List Path) :
    walk common (down.map .setDirectory) = some (common ++ down) := by
  induction down generalizing common with
  | nil => rw [List.append_nil, List.map_nil, walk]
  | cons t down ih =>
      rw [List.map_cons, walk, ih, List.append_assoc, List.singleton_append]

theorem goDown_of_short {dirs : List Path} (h : ∀ t ∈ dirs, t.length ≤ 64) :
    goDown dirs = (dirs.map .setDirectory, 0) := by
  induction dirs with
  | nil => rfl
  | cons t dirs ih =>
      have hlen : ¬t.length > 64 := Nat.not_lt.mpr (h t List.mem_cons_self)
      rw [goDown, sendChdir, if_neg hlen, ih fun s hs => h s (List.mem_cons_of_mem t hs)]
      rfl

/-- If the parts of a directory fit into packets, the server sends the moves to it. -/
theorem changeDirectory_eq {cur dst : Path} (h : ∀ t ∈ tokens dst, t.length ≤ 64) :
    changeDirectory cur dst = (moves (tokens cur) (tokens dst), 0) := by
  rw [changeDirectory, moves]
  split
  · rename_i hsame
    rw [hsame, whereApart_self]
    rfl
  · obtain ⟨common, -, hdst⟩ := whereApart_append (tokens cur) (tokens dst)
    dsimp only
    rw [goDown_of_short fun t ht => h t (hdst ▸ List.mem_append_right common ht)]

end Directories

/-! ## Calls -/

section Calls

variable {server : Server} {c c' c'' : Client} {outs outs' : List (List Pkt)}

/-- Calls one after another, none of which fails, with what they send. The server goes on
by itself until the last of them was made. -/
inductive Calls (server : Server) : Client → List (List Pkt) → Client → Prop
  | nil (c : Client) : Calls server c [] c
  | cons (c c' c'' : Client) (out : List Pkt) (outs : List (List Pkt))
      (hcall : handleListDone server c = some (c', out, 0))
      (hsending : outs ≠ [] → c'.sendingData ≠ .no) (hrest : Calls server c' outs c'') :
      Calls server c (out :: outs) c''

theorem Calls.append (h : Calls server c outs c') (hsending : c'.sendingData ≠ .no)
    (h' : Calls server c' outs' c'') : Calls server c (outs ++ outs') c'' := by
  induction h with
  | nil c => exact h'
  | cons c c₁ c₂ out outs hcall hnext hrest ih =>
      refine .cons c c₁ c'' out (outs ++ outs') hcall (fun _ => ?_) (ih hsending h')
      cases hrest with
      | nil => exact hsending
      | cons _ _ _ _ _ _ _ _ => exact hnext (List.cons_ne_nil _ _)

theorem Calls.single {out : List Pkt} (h : handleListDone server c = some (c', out, 0)) :
    Calls server c [out] c' :=
  .cons c c' c' out [] h (fun hne => absurd rfl hne) (.nil c')

/-- The chunk at a position of a file. -/
def chunkAt (bytes : List UInt8) (k : Nat) : List UInt8 := (bytes.drop (k * chunkMax)).take chunkMax

theorem length_chunkAt (bytes : List UInt8) (k : Nat) :
    (chunkAt bytes k).length = min chunkMax (bytes.length - k * chunkMax) := by
  rw [chunkAt, List.length_take, List.length_drop]

/-- The call for a chunk that is in the file. -/
theorem sendFileChunk_eq {i : CFile} {bytes : List UInt8} {k : Nat}
    (hbytes : contents server c.type i = some bytes) (hchunk : c.curChunk = k)
    (hpos : c.curPos = k * chunkMax) (hlt : k * chunkMax < bytes.length) :
    sendFileChunk server c i.ent.filename (dirFor server c.type) =
      ({ c with
        curChunk := k + 1
        curPos := CInt.ofInt (k * chunkMax + (chunkAt bytes k).length) },
        [.dataSend k (server.crc32 (chunkAt bytes k)) (chunkAt bytes k)],
        if (chunkAt bytes k).length < chunkMax then 1 else 0) := by
  have hseek : seekTo c.curPos = k * chunkMax := by
    have hpos' : c.curPos = ((k * chunkMax : Nat) : Int) := by
      rw [hpos, Int.natCast_mul]
    rw [seekTo, hpos', if_neg (Int.not_lt.mpr (Int.natCast_nonneg _)), Int.toNat_natCast]
  have hsome : (chunkAt bytes k).length ≠ 0 := by
    have hchunkMax : chunkMax = 24576 := rfl
    rw [length_chunkAt]
    omega
  rw [sendFileChunk]
  have hdisk : server.disk (dirFor server c.type ++ '/' :: i.ent.filename) = some bytes := hbytes
  rw [hdisk]
  dsimp only
  rw [hseek]
  change (if (chunkAt bytes k).length = 0 then _ else _) = _
  rw [if_neg hsome, hchunk, hpos]
  rfl

/-- A short chunk ends the file. -/
theorem continueFile_last {i : CFile} {bytes : List UInt8} {k : Nat}
    (hbytes : contents server c.type i = some bytes) (hchunk : c.curChunk = k)
    (hpos : c.curPos = k * chunkMax) (hlt : k * chunkMax < bytes.length)
    (hshort : (chunkAt bytes k).length < chunkMax) :
    continueFile server c i =
      ({ c with sendingData := .between, curChunk := 0, curPos := 0 },
        [.dataSend k (server.crc32 (chunkAt bytes k)) (chunkAt bytes k), .fileDone], 0) := by
  rw [continueFile, sendFileChunk_eq hbytes hchunk hpos hlt, if_pos hshort]
  rfl

/-- Behind a whole chunk the server goes on with the file, as long as the next position
is in an `int`. -/
theorem continueFile_more {i : CFile} {bytes : List UInt8} {k : Nat}
    (hbytes : contents server c.type i = some bytes) (hchunk : c.curChunk = k)
    (hpos : c.curPos = k * chunkMax) (hlt : k * chunkMax < bytes.length)
    (hwhole : (chunkAt bytes k).length = chunkMax) (hint : (k + 1) * chunkMax < 2 ^ 31) :
    continueFile server c i =
      ({ c with curChunk := k + 1, curPos := (k + 1 : Nat) * chunkMax },
        [.dataSend k (server.crc32 (chunkAt bytes k)) (chunkAt bytes k)], 0) := by
  have hnext : CInt.ofInt (k * chunkMax + (chunkAt bytes k).length) = (k + 1 : Nat) * chunkMax := by
    have hcast : (k * chunkMax + (chunkAt bytes k).length : Int) =
        (((k + 1) * chunkMax : Nat) : Int) := by
      rw [hwhole, Nat.succ_mul, Int.natCast_add, Int.natCast_mul]
    rw [hcast, CInt.ofInt_natCast hint, Int.natCast_mul]
  rw [continueFile, sendFileChunk_eq hbytes hchunk hpos hlt, hnext,
    if_neg (Nat.not_lt.mpr (Nat.le_of_eq hwhole.symm))]
  rfl

/-- The chunks of the rest of a file, from a position that is a multiple of the chunk size
on. The last of them is a short one. -/
theorem calls_chunks {i : CFile} {files : List CFile} {bytes : List UInt8} (k : Nat)
    (hfiles : c.files = i :: files) (hbytes : contents server c.type i = some bytes)
    (hin : c.sendingData = .inFile) (hchunk : c.curChunk = k) (hpos : c.curPos = k * chunkMax)
    (hlt : k * chunkMax < bytes.length) (hragged : bytes.length % chunkMax ≠ 0)
    (hseek : bytes.length < 87382 * chunkMax) :
    ∃ outs pieces, pieces.flatten = bytes.drop (k * chunkMax) ∧
      outs.flatten = numbered server k pieces ++ [.fileDone] ∧
      Calls server c outs { c with sendingData := .between, curChunk := 0, curPos := 0 } := by
  induction hleft : bytes.length - k * chunkMax using Nat.strongRecOn generalizing c k with
  | _ left ih =>
      have hchunkMax : chunkMax = 24576 := rfl
      have hlen := length_chunkAt bytes k
      have hcall : handleListDone server c = some (continueFile server c i) := by
        rw [handleListDone, hfiles]
        dsimp only
        rw [hin]
      by_cases hshort : bytes.length - k * chunkMax < chunkMax
      · have hdata : chunkAt bytes k = bytes.drop (k * chunkMax) := by
          rw [chunkAt, List.take_of_length_le]
          rw [List.length_drop]
          exact Nat.le_of_lt hshort
        rw [continueFile_last hbytes hchunk hpos hlt (by omega)] at hcall
        exact ⟨_, [chunkAt bytes k], by rw [List.flatten_singleton, hdata], rfl, .single hcall⟩
      · -- the rest is not as long as one chunk, for then the size would be a multiple
        have hmore : (k + 1) * chunkMax < bytes.length := by
          have hne : bytes.length ≠ (k + 1) * chunkMax := by
            intro heq
            rw [heq, Nat.mul_mod_left] at hragged
            exact hragged rfl
          rw [Nat.succ_mul] at hne ⊢
          omega
        have hint : (k + 1) * chunkMax < 2 ^ 31 := by
          have hk : k + 1 < 87382 := Nat.lt_of_mul_lt_mul_right (Nat.lt_trans hmore hseek)
          rw [hchunkMax]
          omega
        rw [continueFile_more hbytes hchunk hpos hlt (by omega) hint] at hcall
        have hdrop : chunkAt bytes k ++ bytes.drop ((k + 1) * chunkMax) =
            bytes.drop (k * chunkMax) := by
          rw [chunkAt, Nat.succ_mul, ← List.drop_drop, List.take_append_drop]
        obtain ⟨outs, pieces, hpieces, houts, hcalls⟩ :=
          @ih (bytes.length - (k + 1) * chunkMax) (by rw [Nat.succ_mul] at *; omega)
            { c with curChunk := k + 1, curPos := (k + 1 : Nat) * chunkMax } (k + 1)
            hfiles hbytes hin rfl rfl hmore rfl
        refine ⟨_ :: outs, chunkAt bytes k :: pieces, ?_, ?_, .cons _ _ _ _ _ hcall ?_ hcalls⟩
        · rw [List.flatten_cons, hpieces, hdrop]
        · rw [List.flatten_cons, houts]
          rfl
        · intro _
          rw [hin]
          exact fun h => nomatch h

/-! ## A whole delivery -/

/-- The call that begins with a file. -/
theorem startFile_eq {i : CFile} (cur : Path) (h : Sendable i) :
    startFile c cur i =
      some ({ c with sendingData := .inFile },
        moves (tokens cur) (tokens (dirName i.filename)) ++
          [.fileSend i.ent.size (baseName i.filename)], 0) := by
  have hdir : ¬(dirName i.filename).length ≥ pathMax := Nat.not_le.mpr h.dir
  have hbase : ¬(baseName i.filename).length > 48 := Nat.not_lt.mpr h.base
  rw [startFile]
  dsimp only
  rw [if_neg hdir, changeDirectory_eq h.parts, sendFileSend, if_neg hbase]
  rfl

/-- The call that ends a delivery. -/
theorem goHome_eq (cur : Path) :
    goHome c cur =
      ({ c with sendingData := .no }, moves (tokens cur) [] ++ [.oneDirUp, .sendDone], 0) := by
  have hback : changeDirectory cur [] = (moves (tokens cur) [], 0) :=
    changeDirectory_eq fun t ht => nomatch ht
  rw [goHome, hback]
  rfl

/-- Calls that send a client that is in a directory the files that it still is to get. -/
def Remaining (server : Server) (c : Client) (cur : Path) (files : List CFile) : Prop :=
  ∃ outs c', Delivered server c.type cur files outs.flatten ∧ Calls server c outs c' ∧
    outs ≠ [] ∧ c'.files = [] ∧ c'.sendingData = .no

/-- A client that has just got the first of its files. -/
structure GotFirst (c : Client) (type : ClientType) (i : CFile) (files : List CFile) : Prop where
  type : c.type = type
  files : c.files = i :: files
  between : c.sendingData = .between
  chunk : c.curChunk = 0
  pos : c.curPos = 0

/-- From the call that begins with a file on, the file is sent, and then what comes behind
it. -/
theorem remaining_file {c₁ : Client} {i : CFile} {files : List CFile} {cur : Path}
    (hcall : handleListDone server c = startFile c₁ cur i) (htype : c₁.type = c.type)
    (hfiles : c₁.files = i :: files) (hchunk : c₁.curChunk = 0) (hpos : c₁.curPos = 0)
    (hserver : OnServer server c.type i) (hi : Sendable i)
    (hrest : ∀ c₂, GotFirst c₂ c.type i files → Remaining server c₂ (dirName i.filename) files) :
    Remaining server c cur (i :: files) := by
  obtain ⟨bytes, hbytes, hsome, hsize⟩ := hserver
  rw [startFile_eq cur hi] at hcall
  obtain ⟨outs, pieces, hpieces, houts, hcalls⟩ :=
    @calls_chunks server { c₁ with sendingData := .inFile } i files bytes 0 hfiles
      (by rw [htype]; exact hbytes) rfl hchunk (by rw [hpos, Int.ofNat_zero, Int.zero_mul])
      (by rw [Nat.zero_mul]; exact hsome) (by rw [hsize]; exact hi.ragged)
      (by rw [hsize]; exact hi.seekable)
  obtain ⟨outs', c', hdelivered, hcalls', hne, hfiles', hno⟩ :=
    hrest { c₁ with sendingData := .between, curChunk := 0, curPos := 0 }
      ⟨htype, hfiles, rfl, rfl, rfl⟩
  have hbetween : (Sending.between) ≠ .no := fun h => nomatch h
  have hinFile : (Sending.inFile) ≠ .no := fun h => nomatch h
  have hall := Calls.cons _ _ _ _ _ hcall (fun _ => hinFile) (hcalls.append hbetween hcalls')
  refine ⟨_, c', ?_, hall, List.cons_ne_nil _ _, hfiles', hno⟩
  rw [Nat.zero_mul, List.drop_zero] at hpieces
  have hfile := Delivered.file cur i files bytes pieces outs'.flatten hbytes hpieces
    (by rw [← htype]; exact hdelivered)
  rw [List.flatten_cons, List.flatten_append, houts]
  simpa using hfile

/-- The files behind the one that a client has just got are sent. -/
theorem remaining_between {i₀ : CFile} {files : List CFile} {type : ClientType}
    (hc : GotFirst c type i₀ files) (hi₀ : Sendable i₀)
    (hserver : ∀ i ∈ files, OnServer server type i) (hsendable : ∀ i ∈ files, Sendable i) :
    Remaining server c (dirName i₀.filename) files := by
  induction files generalizing c i₀ with
  | nil =>
      have hcall : handleListDone server c =
          some (goHome { c with files := [] } (dirName i₀.filename)) := by
        rw [handleListDone, hc.files]
        dsimp only
        rw [hc.between]
        dsimp only
        rw [if_neg (Nat.not_le.mpr hi₀.dir)]
      rw [goHome_eq] at hcall
      have hall := Calls.single hcall
      refine ⟨_, _, ?_, hall, List.cons_ne_nil _ _, rfl, rfl⟩
      rw [List.flatten_singleton]
      exact .done _
  | cons i files ih =>
      have hcall : handleListDone server c =
          startFile { c with files := i :: files } (dirName i₀.filename) i := by
        rw [handleListDone, hc.files]
        dsimp only
        rw [hc.between]
        dsimp only
        rw [if_neg (Nat.not_le.mpr hi₀.dir)]
      have hi := hsendable i List.mem_cons_self
      refine remaining_file hcall rfl rfl hc.chunk hc.pos ?_ hi fun c₂ hc₂ => ?_
      · rw [hc.type]
        exact hserver i List.mem_cons_self
      · rw [hc.type] at hc₂
        exact ih hc₂ hi (fun j hj => hserver j (List.mem_cons_of_mem i hj))
          fun j hj => hsendable j (List.mem_cons_of_mem i hj)

/-- A client that has files waiting, and was sent nothing of them. -/
structure Waiting (c : Client) : Prop where
  some : c.files ≠ []
  no : c.sendingData = .no
  chunk : c.curChunk = 0
  pos : c.curPos = 0

theorem toNat_sum (sizes : List UInt32) (h : (sizes.map (·.toNat)).sum < 2 ^ 32) :
    sizes.sum.toNat = (sizes.map (·.toNat)).sum := by
  induction sizes with
  | nil => rfl
  | cons n sizes ih =>
      rw [List.map_cons, List.sum_cons] at h
      rw [List.sum_cons, List.map_cons, List.sum_cons, UInt32.toNat_add, ih (by omega),
        Nat.mod_eq_of_lt h]

/-- Files with at least one byte are not more than the bytes that they have. -/
theorem length_le_sum (sizes : List Nat) (h : ∀ n ∈ sizes, 1 ≤ n) : sizes.length ≤ sizes.sum := by
  induction sizes with
  | nil => exact Nat.le_refl 0
  | cons n sizes ih =>
      have hn := h n List.mem_cons_self
      have hrest := ih fun m hm => h m (List.mem_cons_of_mem n hm)
      rw [List.length_cons, List.sum_cons]
      omega

/-- The number of files that can be sent is in a word, as their total size is. -/
theorem toNat_length (hsendable : AllSendable c) :
    c.files.length.toUInt32.toNat = c.files.length := by
  have hle := length_le_sum (c.files.map fun i => i.ent.size.toNat) fun n hn => by
    obtain ⟨i, hi, rfl⟩ := List.mem_map.mp hn
    have hragged := (hsendable.each i hi).ragged
    by_contra hzero
    rw [Nat.lt_one_iff.mp (Nat.not_le.mp hzero), Nat.zero_mod] at hragged
    exact hragged rfl
  rw [List.length_map] at hle
  exact Nat.mod_eq_of_lt (Nat.lt_of_le_of_lt hle hsendable.total)

/-- All calls for a client that was sent nothing yet. -/
theorem calls_delivery (hc : Waiting c) (hserver : ∀ i ∈ c.files, OnServer server c.type i)
    (hsendable : AllSendable c) :
    ∃ out outs c' c₁, Delivery server c (out ++ outs.flatten) ∧
      handleListDone server c = some (c₁, out, 0) ∧ c₁.sendingData ≠ .no ∧
      Calls server c₁ outs c' ∧ outs ≠ [] ∧ c'.files = [] ∧ c'.sendingData = .no := by
  cases hfiles : c.files with
  | nil => exact absurd hfiles hc.some
  | cons i files =>
      have hfirst : handleListDone server c = some (sendTotals c) := by
        rw [handleListDone, hfiles]
        dsimp only
        rw [hc.no]
      have hcall : handleListDone server { c with sendingData := .begun } =
          startFile { c with sendingData := .begun } [] i := by
        rw [handleListDone]
        dsimp only
        rw [hfiles]
      rw [hfiles] at hserver
      have hi : Sendable i := hsendable.each i (by rw [hfiles]; exact List.mem_cons_self)
      have hrest : Remaining server { c with sendingData := .begun } [] (i :: files) := by
        refine remaining_file hcall rfl hfiles hc.chunk hc.pos (hserver i List.mem_cons_self) hi ?_
        intro c₂ hc₂
        refine remaining_between hc₂ hi (fun j hj => hserver j (List.mem_cons_of_mem i hj)) ?_
        intro j hj
        exact hsendable.each j (by rw [hfiles]; exact List.mem_cons_of_mem i hj)
      obtain ⟨outs, c', hdelivered, hcalls, hne, hfiles', hno⟩ := hrest
      refine ⟨_, outs, c', _, ?_, hfirst, fun h => (nomatch h), hcalls, hne, hfiles', hno⟩
      refine ⟨_, _, outs.flatten, rfl, ?_, ?_, ?_⟩
      · have hmap : c.files.map (fun i => i.ent.size.toNat) =
            (c.files.map (·.ent.size)).map (·.toNat) := by
          rw [List.map_map]
          rfl
        rw [hmap]
        exact toNat_sum _ (by rw [← hmap]; exact hsendable.total)
      · exact toNat_length hsendable
      · rw [hfiles]
        exact hdelivered

end Calls

/-! ## Runs -/

section Runs

variable {server : Server} {c c' c₁ : Client} {outs : List (List Pkt)} {out sent : List Pkt}
  {es : List Event} {e : Event}

/-- A call that does not fail adds what it sends. -/
theorem step_call (hcall : callFor server c e = some (c₁, out, 0)) :
    step server { client := c, sent } e = { client := c₁, sent := sent ++ out } := by
  rw [step, if_neg Bool.false_ne_true, hcall]
  rfl

/-- While the server goes on by itself, it makes the same call for both sorts of event. -/
theorem callFor_of_goesOn (he : e.goesOn) (hsending : c.sendingData ≠ .no ∨ e = .listDone) :
    callFor server c e = handleListDone server c := by
  cases e with
  | listDone => rfl
  | writable pending =>
      have hpending : ¬pending := of_decide_eq_true he
      have hno : c.sendingData ≠ .no := hsending.resolve_right fun h => nomatch h
      rw [callFor, if_neg hpending, if_pos hno]

/-- An event for which nothing is called changes nothing. -/
theorem step_skip (he : ¬e.goesOn ∨ c.sendingData = .no ∧ e ≠ .listDone) :
    step server { client := c, sent } e = { client := c, sent } := by
  have hskip : callFor server c e = some (c, [], 0) := by
    cases e with
    | listDone => exact absurd he (by rintro (h | ⟨-, h⟩) <;> exact h rfl)
    | writable pending =>
        rw [callFor]
        split
        · rfl
        · rename_i hpending
          rcases he with hnot | ⟨hno, -⟩
          · exact absurd (decide_eq_true hpending) hnot
          · rw [if_neg (not_not_intro hno)]
  rw [step_call hskip, List.append_nil]

/-- A client that has got everything is only told that there is nothing more. -/
theorem run_idle (hfiles : c.files = []) (hno : c.sendingData = .no) (sent : List Pkt)
    (es : List Event) :
    (es.foldl (step server) { client := c, sent }).failed = false ∧
      ∃ m, (es.foldl (step server) { client := c, sent }).sent =
        sent ++ List.replicate m .sendDone := by
  induction es generalizing c sent with
  | nil => exact ⟨rfl, 0, (List.append_nil sent).symm⟩
  | cons e es ih =>
      rw [List.foldl_cons]
      by_cases he : e = .listDone
      · have hcall : callFor server c e = some ({ c with sendingData := .no }, [.sendDone], 0) := by
          rw [he, callFor, handleListDone, hfiles]
        rw [step_call hcall]
        obtain ⟨hfailed, m, hsent⟩ :=
          @ih { c with sendingData := .no } hfiles rfl (sent ++ [.sendDone])
        refine ⟨hfailed, m + 1, ?_⟩
        rw [hsent, List.append_assoc, List.singleton_append, List.replicate_succ]
      · rw [step_skip (.inr ⟨hno, he⟩)]
        exact ih hfiles hno sent

/-- As long as calls are left, what was sent is what the calls made so far send. -/
theorem run_calls (h : Calls server c outs c') (hfiles : c'.files = []) (hno : c'.sendingData = .no)
    (hsending : outs ≠ [] → c.sendingData ≠ .no) (sent : List Pkt) (es : List Event) :
    (es.foldl (step server) { client := c, sent }).failed = false ∧
      ((es.foldl (step server) { client := c, sent }).sent <+: sent ++ outs.flatten ∨
        ∃ m, (es.foldl (step server) { client := c, sent }).sent =
          sent ++ outs.flatten ++ List.replicate m .sendDone) ∧
      (outs.length ≤ es.countP Event.goesOn →
        sent ++ outs.flatten <+: (es.foldl (step server) { client := c, sent }).sent) := by
  induction es generalizing c outs sent with
  | nil =>
      refine ⟨rfl, .inl (List.prefix_append sent _), fun hcount => ?_⟩
      rw [List.countP_nil, Nat.le_zero, List.length_eq_zero_iff] at hcount
      rw [hcount, List.flatten_nil, List.append_nil]
      exact List.prefix_refl sent
  | cons e es ih =>
      cases h with
      | nil =>
          obtain ⟨hfailed, m, hsent⟩ := run_idle hfiles hno sent (e :: es)
          rw [List.flatten_nil, List.append_nil]
          refine ⟨hfailed, .inr ⟨m, hsent⟩, fun _ => ?_⟩
          rw [hsent]
          exact List.prefix_append sent _
      | cons _ c₁ _ out outs hcall hnext hrest =>
          have hgoing : c.sendingData ≠ .no := hsending (List.cons_ne_nil _ _)
          rw [List.foldl_cons]
          by_cases he : e.goesOn
          · rw [step_call ((callFor_of_goesOn he (.inl hgoing)).trans hcall),
              List.countP_cons_of_pos he]
            have hih := ih hrest hnext (sent ++ out)
            rw [List.flatten_cons, ← List.append_assoc, List.length_cons]
            exact ⟨hih.1, hih.2.1, fun hcount => hih.2.2 (Nat.le_of_succ_le_succ hcount)⟩
          · rw [step_skip (.inl he), List.countP_cons_of_neg he]
            exact ih (.cons c c₁ c' out outs hcall hnext hrest) (fun _ => hgoing) sent

/-- A client whose files can be sent gets them. -/
theorem delivers_of_sendable (hc : Waiting c)
    (hserver : ∀ i ∈ c.files, OnServer server c.type i) (hsendable : AllSendable c) :
    Delivers server c := by
  obtain ⟨out, outs, c', c₁, hdelivery, hfirst, hsending, hcalls, -, hfiles, hno⟩ :=
    calls_delivery hc hserver hsendable
  refine ⟨out ++ outs.flatten, outs.length, hdelivery, fun es => ?_⟩
  have hrun : run server c (.listDone :: es) =
      es.foldl (step server) { client := c₁, sent := out } := by
    rw [run, List.foldl_cons, step_call (e := .listDone) hfirst, List.nil_append]
  have hall := @run_calls server c₁ c' outs hcalls hfiles hno (fun _ => hsending) out es
  dsimp only
  rw [hrun]
  exact ⟨by rw [hall.1]; exact Bool.false_ne_true, hall.2⟩

end Runs

/-! ## Examples -/

/-- A server whose files all have as many bytes as a chunk, or one byte more. -/
def evenServer (more : Nat) : Server where
  pcDir := ['p']
  bbDir := ['b']
  disk _ := some (List.replicate (chunkMax + more) 0)
  crc32 _ := 0

/-- A client that is to get one of them. -/
def evenClient (more : Nat) : Client where
  type := .pcData
  files := [{ filename := ['a'], ent := { filename := ['a'], size := 24576 + more.toUInt32 } }]

theorem evenClient_sendable :
    ∀ i ∈ (evenClient 1).files, Sendable i := by
  intro i hi
  obtain rfl := List.mem_singleton.mp hi
  exact ⟨by decide, by decide, by decide, by decide, by decide⟩

theorem delivers_odd : Delivers (evenServer 1) (evenClient 1) := by
  refine delivers_of_sendable ⟨List.cons_ne_nil _ _, rfl, rfl, rfl⟩ (fun i hi => ?_)
    ⟨evenClient_sendable, by decide⟩
  obtain rfl := List.mem_singleton.mp hi
  refine ⟨_, rfl, ?_, ?_⟩
  · rw [List.length_replicate]
    decide
  · rw [List.length_replicate]
    decide

/-- Behind the last byte of a file there is no chunk, and the call fails. -/
theorem continueFile_end {server : Server} {c : Client} {i : CFile} {bytes : List UInt8} {k : Nat}
    (hbytes : contents server c.type i = some bytes) (hpos : c.curPos = (k * chunkMax : Nat))
    (hend : bytes.length ≤ k * chunkMax) : continueFile server c i = (c, [], -4) := by
  have hdisk : server.disk (dirFor server c.type ++ '/' :: i.ent.filename) = some bytes := hbytes
  have hseek : seekTo c.curPos = k * chunkMax := by
    rw [seekTo, hpos, if_neg (Int.not_lt.mpr (Int.natCast_nonneg _)), Int.toNat_natCast]
  have hempty : bytes.drop (k * chunkMax) = [] := List.drop_eq_nil_of_le hend
  have hchunk : sendFileChunk server c i.ent.filename (dirFor server c.type) = (c, [], -1) := by
    rw [sendFileChunk, hdisk]
    refine if_pos ?_
    rw [hseek, hempty]
    rfl
  rw [continueFile, hchunk]
  rfl

/-- The client that is to get a file of one chunk is disconnected. -/
theorem not_delivers_even : ¬Delivers (evenServer 0) (evenClient 0) := by
  rintro ⟨out, n, -, hruns⟩
  apply (hruns [.listDone, .listDone, .listDone]).1
  obtain ⟨bytes, hbytes, hlen⟩ :
      ∃ bytes, (∀ i, contents (evenServer 0) .pcData i = some bytes) ∧ bytes.length = chunkMax :=
    ⟨List.replicate chunkMax 0, fun _ => rfl, List.length_replicate⟩
  have hwhole : (chunkAt bytes 0).length = chunkMax := by
    rw [length_chunkAt, hlen, Nat.zero_mul, Nat.sub_zero, Nat.min_self]
  -- the totals, the beginning of the file, its only chunk, and the one behind it
  have htotals : callFor (evenServer 0) (evenClient 0) .listDone =
      some (sendTotals (evenClient 0)) := rfl
  have hstart : callFor (evenServer 0) { evenClient 0 with sendingData := .begun } .listDone =
      some ({ evenClient 0 with sendingData := .inFile }, [.fileSend 24576 ['a']], 0) := rfl
  have hchunk : callFor (evenServer 0) { evenClient 0 with sendingData := .inFile } .listDone =
      some ({ evenClient 0 with
        sendingData := .inFile, curChunk := 1, curPos := (0 + 1 : Nat) * chunkMax },
        [.dataSend 0 0 (chunkAt bytes 0)], 0) := by
    refine congrArg some ?_
    exact continueFile_more (hbytes _) rfl rfl (by rw [hlen]; decide) hwhole (by decide)
  have hend : callFor (evenServer 0)
      { evenClient 0 with
        sendingData := .inFile, curChunk := 1, curPos := (0 + 1 : Nat) * chunkMax } .listDone =
      some ({ evenClient 0 with
        sendingData := .inFile, curChunk := 1, curPos := (0 + 1 : Nat) * chunkMax }, [], -4) := by
    refine congrArg some ?_
    exact @continueFile_end _ _ _ bytes 1 (hbytes _) (by decide) (by rw [hlen]; decide)
  rw [run, List.foldl_cons, step_call htotals, List.foldl_cons, step_call hstart, List.foldl_cons,
    step_call hchunk, List.foldl_cons, step, if_neg Bool.false_ne_true, hend]
  rfl

end Sylverant.Patch
