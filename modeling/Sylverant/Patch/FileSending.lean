/-
# Sending files to a patch client

A client of the patch server that lacks some files is sent them one after another. The
server moves the client through its directories and sends each file in chunks, and for
each packet of the client, and each time that the socket can be written to, it goes on by
one step. How far it is stands in the client.

Sending succeeds, and so does reading a file that is there. The checksum of a chunk is
any function of the chunk.
-/

import Mathlib.Data.UInt
import Sylverant.Library.CInt
import Sylverant.Library.CString

namespace Sylverant.Patch

/-- A path, as the characters of a string. -/
abbrev Path := List Char

/-- `CHUNK_MAX` -/
def chunkMax : Nat := 24576

/-- `PATH_MAX`, the size of the buffers for directories. -/
def pathMax : Nat := 4096

/-- The packets to a client. Behind the data of a chunk there are zeros up to a multiple of
four bytes. -/
inductive Pkt
  | sendInfo (totalLength totalFiles : UInt32)
  | setDirectory (dir : Path)
  | oneDirUp
  | fileSend (size : UInt32) (filename : Path)
  | dataSend (chunkNum : Nat) (checksum : UInt32) (data : List UInt8)
  | fileDone
  | sendDone
  deriving DecidableEq

/-- `patch_file_entry_t`, with the name of the file on the server and its size. -/
structure Entry where
  filename : Path
  size : UInt32

/-- `patch_cfile_t`, with the name that the file has on the client. -/
structure CFile where
  filename : Path
  ent : Entry

/-- The values of `sending_data`, in their order. -/
inductive Sending
  | no
  | begun
  | between
  | inFile
  deriving DecidableEq

/-- The types of client that get files. -/
inductive ClientType
  | pcData
  | bbData
  deriving DecidableEq

/-- `patch_client_t`, with what is read of it here. -/
structure Client where
  type : ClientType
  files : List CFile
  sendingData : Sending := .no
  curChunk : Nat := 0
  curPos : Int := 0

/-- The directories of the configuration, the files on the server, and how the checksum is
computed. -/
structure Server where
  pcDir : Path
  bbDir : Path
  disk : Path → Option (List UInt8)
  crc32 : List UInt8 → UInt32

/-- The packets that a function sends, and what it returns. -/
abbrev Sends := List Pkt × Int

/-! ## Directories -/

/-- The part of a path behind the last slash. -/
def baseName (path : Path) : Path := (path.reverse.takeWhile (· ≠ '/')).reverse

/-- The directory of a path. -/
def dirName (path : Path) : Path :=
  if '/' ∈ path then path.take (path.length - (baseName path).length - 1) else []

/-- The directories in a path, as `strtok_r` returns them. -/
def tokens (path : Path) : List Path := CString.tokensFrom ['/'] [] path

/-- The first loop of `change_directory`: where two paths part. -/
def whereApart : List Path → List Path → List Path × List Path
  | t1 :: s1, t2 :: s2 => if t1 = t2 then whereApart s1 s2 else (t1 :: s1, t2 :: s2)
  | s1, s2 => (s1, s2)

/-- `send_chdir`. -/
def sendChdir (dir : Path) : Sends :=
  if dir.length > 64 then ([], -1) else ([.setDirectory dir], 0)

/-- The last loop of `change_directory`. -/
def goDown : List Path → Sends
  | [] => ([], 0)
  | t2 :: s2 =>
      let r := sendChdir t2
      if r.2 ≠ 0 then (r.1, -1)
      else
        let rest := goDown s2
        (r.1 ++ rest.1, rest.2)

/-- `change_directory`. -/
def changeDirectory (cur dst : Path) : Sends :=
  if cur = dst then ([], 0)
  else
    let apart := whereApart (tokens cur) (tokens dst)
    let r := goDown apart.2
    (apart.1.map (fun _ => .oneDirUp) ++ r.1, r.2)

/-! ## Files -/

/-- `send_file_send`. -/
def sendFileSend (size : UInt32) (filename : Path) : Sends :=
  if filename.length > 48 then ([], -1) else ([.fileSend size filename], 0)

/-- The position after `fseek`, which fails for a negative offset. -/
def seekTo (pos : Int) : Nat := if pos < 0 then 0 else pos.toNat

/-- `send_file_chunk`. The end of the file is noticed only if it was hit while the chunk was
read, which is then a short one. -/
def sendFileChunk (server : Server) (c : Client) (filename dir : Path) : Client × Sends :=
  match server.disk (dir ++ '/' :: filename) with
  | none => (c, [], -1)
  | some bytes =>
      let data := (bytes.drop (seekTo c.curPos)).take chunkMax
      if data.length = 0 then (c, [], -1)
      else
        ({ c with
          curChunk := c.curChunk + 1
          curPos := CInt.ofInt (c.curPos + data.length) },
          [.dataSend c.curChunk (server.crc32 data) data], if data.length < chunkMax then 1 else 0)

/-- The directory with the files for the clients of a type. -/
def dirFor (server : Server) (type : ClientType) : Path :=
  match type with
  | .pcData => server.pcDir
  | .bbData => server.bbDir

/-! ## The steps

A step is `none` where a directory is copied that does not fit into its buffer. -/

/-- The beginning of `handle_list_done`. -/
def sendTotals (c : Client) : Client × Sends :=
  ({ c with sendingData := .begun },
    [.sendInfo (c.files.map (·.ent.size)).sum c.files.length.toUInt32, .setDirectory ['.']], 0)

/-- The part of `handle_list_done` that begins with a file, where the client is in the
directory `dir`. -/
def startFile (c : Client) (dir : Path) (i : CFile) : Option (Client × Sends) :=
  let dir2 := dirName i.filename
  if dir2.length ≥ pathMax then none
  else
    let r := changeDirectory dir dir2
    if r.2 ≠ 0 then some (c, r.1, -3)
    else
      let s := sendFileSend i.ent.size (baseName i.filename)
      some ({ c with sendingData := .inFile }, r.1 ++ s.1, s.2)

/-- The part that sends a chunk of a file. -/
def continueFile (server : Server) (c : Client) (i : CFile) : Client × Sends :=
  let r := sendFileChunk server c i.ent.filename (dirFor server c.type)
  if r.2.2 < 0 then (r.1, r.2.1, -4)
  else if r.2.2 > 0 then
    ({ r.1 with sendingData := .between, curChunk := 0, curPos := 0 }, r.2.1 ++ [.fileDone], 0)
  else (r.1, r.2.1, 0)

/-- The end of `handle_list_done`, with nothing left to send and the client in the directory
`dir`. -/
def goHome (c : Client) (dir : Path) : Client × Sends :=
  let r := changeDirectory dir []
  if r.2 ≠ 0 then (c, r.1, -3)
  else ({ c with sendingData := .no }, r.1 ++ [.oneDirUp, .sendDone], 0)

/-- `handle_list_done`. -/
def handleListDone (server : Server) (c : Client) : Option (Client × Sends) :=
  match c.files with
  | [] => some ({ c with sendingData := .no }, [.sendDone], 0)
  | i :: rest =>
      match c.sendingData with
      | .no => some (sendTotals c)
      | .begun => startFile c [] i
      | .between =>
          let dir := dirName i.filename
          if dir.length ≥ pathMax then none
          else
            let c := { c with files := rest }
            match rest with
            | [] => some (goHome c dir)
            | j :: _ => startFile c dir j
      | .inFile => some (continueFile server c i)

/-! ## Runs -/

/-- What happens to a client that sends no file information. -/
inductive Event
  /-- A packet says that the list is done. -/
  | listDone
  /-- The socket can be written to, and there may be packets that were not sent yet. -/
  | writable (pending : Bool)

/-- A client with the packets that it was sent, and whether it is to be disconnected. -/
structure Link where
  client : Client
  sent : List Pkt := []
  failed : Bool := false

/-- The call for an event, if one is made. -/
def callFor (server : Server) (c : Client) : Event → Option (Client × Sends)
  | .listDone => handleListDone server c
  | .writable pending =>
      if pending then some (c, [], 0)
      else if c.sendingData ≠ .no then handleListDone server c
      else some (c, [], 0)

/-- The link after an event. -/
def step (server : Server) (k : Link) (e : Event) : Link :=
  if k.failed then k
  else
    match callFor server k.client e with
    | none => { k with failed := true }
    | some (c, out, rv) => { client := c, sent := k.sent ++ out, failed := rv ≠ 0 }

/-- The link after events, from a client that was sent nothing yet. -/
def run (server : Server) (c : Client) (es : List Event) : Link :=
  es.foldl (step server) { client := c }

end Sylverant.Patch
