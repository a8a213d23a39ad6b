/-
# Receiving packets

`client_process_pkt` collects what `recv` returns until it has a whole packet,
decrypts each byte once, and passes the packet to a handler. What it has to
remember between two calls is spread over a saved buffer, a flag that says that
the header at the front of it is decrypted already, the decrypted header, and the
position of the cipher.

The cipher is a byte permutation for each position of the stream. The handlers
act on a state of their own and return zero to go on; other code does not touch
the fields below. A packet whose length field is smaller than its header makes
the source pass a negative size to the cipher, and is a failure here. The time of
the last message and the log file are left out.
-/

import Sylverant.Library.ChunkedInput
import Sylverant.Ship.Version

namespace Sylverant.Ship

open ChunkedInput (Step Outcome Reader)

/-- The fields of `ship_client_t` that decrypting uses. -/
structure RecvClient where
  version : Version
  /-- `CLIENT_FLAG_TYPE_SHIP`. -/
  typeShip : Bool
  /-- `CLIENT_FLAG_HDR_READ`. -/
  hdrRead : Bool
  /-- The bytes of `pkt` that the header fills. -/
  pkt : List UInt8
  /-- The position of `ckey` in its stream. -/
  ckey : Nat

/-- The fields `recvbuf`, `recvbuf_cur` and `recvbuf_size`. A buffer that is not
allocated is empty and has size zero. -/
structure RecvBuf where
  recvbuf : List UInt8
  recvbufCur : Nat
  recvbufSize : Nat
  length_recvbuf : recvbuf.length = recvbufSize
  cur_le : recvbufCur ≤ recvbufSize

/-- The bytes that are kept for the next call. -/
def RecvBuf.saved (buf : RecvBuf) : List UInt8 := buf.recvbuf.take buf.recvbufCur

/-- The packet handlers, over a state that is theirs. -/
structure Handlers (σ : Type) where
  shipProcessPkt : σ → List UInt8 → σ × Int
  blockProcessPkt : σ → List UInt8 → σ × Int

/-- A client, the state of the handlers, and the packets they were given. -/
structure Reception (σ : Type) where
  c : RecvClient
  handler : σ
  delivered : List (List UInt8)
  rv : Int

/-- `CRYPT_CryptData` at a position of the stream. -/
def cryptData (key : Nat → UInt8 → UInt8) (pos : Nat) (data : List UInt8) : List UInt8 :=
  data.mapIdx fun i b => key (pos + i) b

/-- `LE16` of two bytes. -/
def le16 (low high : UInt8) : Nat := low.toNat + 256 * high.toNat

/-- The field `pkt_len` of a header. -/
def pktLen (version : Version) (pkt : List UInt8) : Nat :=
  match version with
  | .dcv1 | .dcv2 | .gc | .ep3 => le16 (pkt.getD 2 0) (pkt.getD 3 0)
  | .pc | .bb => le16 (pkt.getD 0 0) (pkt.getD 1 0)

/-- The length of a packet, rounded up to a multiple of the header in 16 bits. -/
def pktSz (version : Version) (pkt : List UInt8) : Nat :=
  let hsz := version.hdrSize
  if pktLen version pkt &&& (hsz - 1) ≠ 0 then
    ((pktLen version pkt &&& (0x10000 - hsz)) + hsz) % 0x10000
  else pktLen version pkt

section Receive

variable {σ : Type} (key : Nat → UInt8 → UInt8) (handlers : Handlers σ)

/-- Decrypt the header at the front of the buffer, unless that was done before. -/
def readHeader (c : RecvClient) (rbp : List UInt8) : RecvClient :=
  if c.hdrRead then c
  else
    { c with
      pkt := cryptData key c.ckey (rbp.take c.version.hdrSize),
      ckey := c.ckey + c.version.hdrSize, hdrRead := true }

/-- Pass a packet to the handler for the type of the client. -/
def handlePkt (r : Reception σ) (pkt : List UInt8) : Reception σ :=
  let result :=
    if r.c.typeShip then handlers.shipProcessPkt r.handler pkt
    else handlers.blockProcessPkt r.handler pkt
  { r with handler := result.1, delivered := r.delivered ++ [pkt], rv := result.2 }

/-- One pass of the loop over the bytes from `rbp` on. -/
def processPass (r : Reception σ) (rbp : List UInt8) : Step (Reception σ) :=
  let hsz := r.c.version.hdrSize
  if rbp.length < hsz then .wait r
  else
    let c := readHeader key r.c rbp
    let size := pktSz c.version c.pkt
    if size ≤ rbp.length then
      if size < hsz then .fail
      else
        let body := cryptData key c.ckey ((rbp.drop hsz).take (size - hsz))
        let r := handlePkt handlers
          { r with c := { c with ckey := c.ckey + (size - hsz) } } (c.pkt ++ body)
        let r := { r with c := { r.c with hdrRead := false } }
        if r.rv = 0 then .take r size else .stop r
    else .wait { r with c }

/-- Free the buffer. -/
def RecvBuf.empty : RecvBuf where
  recvbuf := []
  recvbufCur := 0
  recvbufSize := 0
  length_recvbuf := rfl
  cur_le := Nat.le_refl 0

/-- Keep the rest of the data for the next call, in a buffer of its size at least. -/
def saveRest (buf : RecvBuf) (rest : List UInt8) : RecvBuf :=
  if rest.length ≠ 0 then
    { recvbuf := rest ++ buf.recvbuf.drop rest.length
      recvbufCur := rest.length
      recvbufSize := if buf.recvbufSize < rest.length then rest.length else buf.recvbufSize
      length_recvbuf := by
        rw [List.length_append, List.length_drop, buf.length_recvbuf]
        split <;> omega
      cur_le := by split <;> omega }
  else .empty

/-- `client_process_pkt`, for the bytes that `recv` returned. A call without
bytes, or with a handler that refuses its packet, tells the caller to disconnect. -/
def clientProcessPkt (r : Reception σ) (buf : RecvBuf) (received : List UInt8) :
    Option (Reception σ × RecvBuf) :=
  if received = [] then some ({ r with rv := -1 }, buf)
  else
    let data := buf.saved ++ received
    match ChunkedInput.loop (processPass key handlers) (data.length + 1) { r with rv := 0 }
      data with
    | .waiting r rest => some (r, saveRest buf rest)
    | .stopped r => some (r, .empty)
    | .failed => none

/-- Calls for the pieces that `recv` returns one after the other, until the
client is to be disconnected. -/
def processPieces (r : Reception σ) (buf : RecvBuf) :
    List (List UInt8) → Option (Reception σ × RecvBuf)
  | [] => some (r, buf)
  | piece :: pieces =>
      match clientProcessPkt key handlers r buf piece with
      | none => none
      | some (r, buf) => if r.rv = 0 then processPieces r buf pieces else some (r, buf)

end Receive

/-! ## The cipher -/

section Cipher

variable (key : Nat → UInt8 → UInt8)

@[simp]
theorem length_cryptData (pos : Nat) (data : List UInt8) :
    (cryptData key pos data).length = data.length := by
  simp [cryptData]

theorem cryptData_append (pos : Nat) (a b : List UInt8) :
    cryptData key pos (a ++ b) = cryptData key pos a ++ cryptData key (pos + a.length) b := by
  simp only [cryptData, List.mapIdx_append, Nat.add_comm, Nat.add_left_comm]

theorem take_cryptData (pos n : Nat) (data : List UInt8) :
    (cryptData key pos data).take n = cryptData key pos (data.take n) := by
  apply List.ext_getElem?
  intro i
  simp only [cryptData, List.getElem?_take, List.getElem?_mapIdx]
  split <;> rfl

theorem drop_cryptData (pos n : Nat) (data : List UInt8) :
    (cryptData key pos data).drop n = cryptData key (pos + n) (data.drop n) := by
  apply List.ext_getElem?
  intro i
  simp only [cryptData, List.getElem?_drop, List.getElem?_mapIdx, Nat.add_assoc]

/-- Decrypting undoes encrypting at the same position. -/
theorem cryptData_cancel {key enc : Nat → UInt8 → UInt8} (hkey : ∀ i b, key i (enc i b) = b)
    (pos : Nat) (data : List UInt8) : cryptData key pos (cryptData enc pos data) = data := by
  apply List.ext_getElem?
  intro i
  simp only [cryptData, List.getElem?_mapIdx, Option.map_map, Function.comp_def, hkey]
  exact Option.map_id' ..

end Cipher

/-! ## The reader -/

section Reader

variable {σ : Type} {key : Nat → UInt8 → UInt8} {handlers : Handlers σ}

theorem hdrSize_pos (version : Version) : 0 < version.hdrSize := by
  cases version <;> decide

@[simp]
theorem version_readHeader (c : RecvClient) (rbp : List UInt8) :
    (readHeader key c rbp).version = c.version := by
  rw [readHeader]
  split <;> rfl

/-- A header that is there is read alike when more data follows. -/
theorem readHeader_append (c : RecvClient) {a : List UInt8} (b : List UInt8)
    (hle : c.version.hdrSize ≤ a.length) :
    readHeader key c (a ++ b) = readHeader key c a := by
  rw [readHeader, readHeader, List.take_append_of_le_length hle]

/-- A header is decrypted once. -/
theorem readHeader_readHeader (c : RecvClient) (a b : List UInt8) :
    readHeader key (readHeader key c a) b = readHeader key c a := by
  by_cases hread : c.hdrRead
  · simp only [readHeader, hread, if_true]
  · simp only [readHeader, hread, Bool.false_eq_true, if_false, if_true]

/-- What a pass does with a packet that is there. -/
def takePkt (key : Nat → UInt8 → UInt8) (handlers : Handlers σ) (r : Reception σ)
    (c : RecvClient) (rbp : List UInt8) : Reception σ :=
  let size := pktSz c.version c.pkt
  let body := cryptData key c.ckey
    ((rbp.drop c.version.hdrSize).take (size - c.version.hdrSize))
  let r := handlePkt handlers
    { r with c := { c with ckey := c.ckey + (size - c.version.hdrSize) } } (c.pkt ++ body)
  { r with c := { r.c with hdrRead := false } }

/-- Taking a packet sets the client's fields. -/
theorem takePkt_withClient (r : Reception σ) (c' c : RecvClient) (rbp : List UInt8) :
    takePkt key handlers { r with c := c' } c rbp = takePkt key handlers r c rbp := rfl

/-- Everything one pass can do, by what is in the buffer. -/
theorem processPass_eq (r : Reception σ) (rbp : List UInt8) :
    processPass key handlers r rbp =
      if rbp.length < r.c.version.hdrSize then .wait r
      else if pktSz r.c.version (readHeader key r.c rbp).pkt ≤ rbp.length then
        if pktSz r.c.version (readHeader key r.c rbp).pkt < r.c.version.hdrSize then .fail
        else if (takePkt key handlers r (readHeader key r.c rbp) rbp).rv = 0 then
          .take (takePkt key handlers r (readHeader key r.c rbp) rbp)
            (pktSz r.c.version (readHeader key r.c rbp).pkt)
        else .stop (takePkt key handlers r (readHeader key r.c rbp) rbp)
      else .wait { r with c := readHeader key r.c rbp } := by
  simp only [processPass, takePkt, version_readHeader]

/-- A packet that is there is taken alike when more data follows. -/
theorem takePkt_append (r : Reception σ) (c : RecvClient) {a : List UInt8} (b : List UInt8)
    (hle : c.version.hdrSize ≤ a.length) (hsize : pktSz c.version c.pkt ≤ a.length) :
    takePkt key handlers r c (a ++ b) = takePkt key handlers r c a := by
  have hbody : ((a ++ b).drop c.version.hdrSize).take
      (pktSz c.version c.pkt - c.version.hdrSize) =
      (a.drop c.version.hdrSize).take (pktSz c.version c.pkt - c.version.hdrSize) := by
    rw [List.drop_append_of_le_length hle,
      List.take_append_of_le_length (by rw [List.length_drop]; omega)]
  simp only [takePkt, hbody]

variable (key handlers) in
/-- A pass waits, or does the same when more data follows. -/
theorem processPass_append (r : Reception σ) (a : List UInt8) :
    (∃ r', processPass key handlers r a = .wait r') ∨
      ∀ b, processPass key handlers r (a ++ b) = processPass key handlers r a := by
  by_cases hshort : a.length < r.c.version.hdrSize
  · exact .inl ⟨r, by rw [processPass_eq, if_pos hshort]⟩
  · by_cases hwhole : pktSz r.c.version (readHeader key r.c a).pkt ≤ a.length
    · refine .inr fun b => ?_
      have hle : r.c.version.hdrSize ≤ a.length := by omega
      rw [processPass_eq r a, processPass_eq r (a ++ b), readHeader_append r.c b hle,
        takePkt_append r _ b (by rw [version_readHeader]; exact hle)
          (by rw [version_readHeader]; exact hwhole), List.length_append,
        if_neg hshort, if_pos hwhole, if_neg (by omega), if_pos (by omega)]
    · exact .inl ⟨_, by rw [processPass_eq, if_neg hshort, if_neg hwhole]⟩

/-- What waiting for the rest of a packet has done is not done again. -/
theorem processPass_wait_append {r r' : Reception σ} {a : List UInt8} (b : List UInt8)
    (h : processPass key handlers r a = .wait r') :
    processPass key handlers r' (a ++ b) = processPass key handlers r (a ++ b) := by
  rw [processPass_eq] at h
  split at h
  · cases h
    rfl
  · rename_i hlong
    split at h
    · split at h
      · cases h
      · split at h <;> cases h
    · -- the header was decrypted, and is not decrypted again
      cases h
      have hle : r.c.version.hdrSize ≤ a.length := by omega
      have hlong' : ¬(a ++ b).length < r.c.version.hdrSize := by
        rw [List.length_append]
        omega
      simp only [processPass_eq, version_readHeader, readHeader_readHeader,
        readHeader_append r.c b hle, takePkt_withClient, if_neg hlong']

/-- A packet that is taken has a header, and is there as a whole. -/
theorem processPass_take_bounds {r r' : Reception σ} {a : List UInt8} {n : Nat}
    (h : processPass key handlers r a = .take r' n) : 0 < n ∧ n ≤ a.length := by
  have := hdrSize_pos r.c.version
  rw [processPass_eq] at h
  split at h
  · cases h
  · split at h
    · split at h
      · cases h
      · split at h
        · cases h
          exact ⟨by omega, by omega⟩
        · cases h
    · cases h

/-- The loop of `client_process_pkt` as a reader of the stream. -/
def pktReader (key : Nat → UInt8 → UInt8) (handlers : Handlers σ) :
    Reader (Reception σ) UInt8 where
  step := processPass key handlers
  take_bounds h := processPass_take_bounds h
  take_append {s s' a n} b h := by
    obtain ⟨r', hwait⟩ | hsame := processPass_append key handlers s a
    · rw [hwait] at h
      cases h
    · rw [hsame, h]
  stop_append {s s' a} b h := by
    obtain ⟨r', hwait⟩ | hsame := processPass_append key handlers s a
    · rw [hwait] at h
      cases h
    · rw [hsame, h]
  fail_append {s a} b h := by
    obtain ⟨r', hwait⟩ | hsame := processPass_append key handlers s a
    · rw [hwait] at h
      cases h
    · rw [hsame, h]
  wait_append b h := processPass_wait_append b h

end Reader

/-! ## Pieces of the stream -/

section Pieces

variable {σ : Type} {key : Nat → UInt8 → UInt8} {handlers : Handlers σ}

@[simp]
theorem saved_empty : RecvBuf.empty.saved = [] := rfl

@[simp]
theorem saved_saveRest (buf : RecvBuf) (rest : List UInt8) : (saveRest buf rest).saved = rest := by
  rw [saveRest]
  split
  · exact List.take_left' rfl
  · rename_i hnone
    rw [saved_empty]
    exact (List.length_eq_zero_iff.mp (by omega)).symm

/-- How the loop ended, as the caller sees it. -/
def Ends : Outcome (Reception σ) UInt8 → Option (Reception σ × RecvBuf) → Prop
  | .waiting r rest, some (r', buf) => r' = r ∧ buf.saved = rest ∧ r.rv = 0
  | .stopped r, some (r', buf) => r' = r ∧ buf.saved = [] ∧ r.rv ≠ 0
  | .failed, none => True
  | _, _ => False

variable (key handlers) in
/-- The result of a pass is zero as long as the loop goes on. -/
theorem rv_processPass (r : Reception σ) (a : List UInt8) (hrv : r.rv = 0) :
    match processPass key handlers r a with
    | .wait r' => r'.rv = 0
    | .take r' _ => r'.rv = 0
    | .stop r' => r'.rv ≠ 0
    | .fail => True := by
  rw [processPass_eq]
  split_ifs with hshort hwhole hbad hgoes
  · exact hrv
  · trivial
  · exact hgoes
  · exact hgoes
  · exact hrv

variable (key handlers) in
/-- The result of the loop is zero exactly if it ends for lack of data. -/
theorem rv_run {r : Reception σ} (a : List UInt8) (hrv : r.rv = 0) :
    match (pktReader key handlers).run r a with
    | .waiting r' _ => r'.rv = 0
    | .stopped r' => r'.rv ≠ 0
    | .failed => True := by
  induction hlen : a.length using Nat.strongRecOn generalizing r a with
  | ind k ih =>
      have hpass := rv_processPass key handlers r a hrv
      cases hstep : (pktReader key handlers).step r a with
      | wait r' =>
          rw [Reader.run_wait hstep]
          rwa [show processPass key handlers r a = .wait r' from hstep] at hpass
      | stop r' =>
          rw [Reader.run_stop hstep]
          rwa [show processPass key handlers r a = .stop r' from hstep] at hpass
      | fail => rw [Reader.run_fail hstep]; trivial
      | take r' n =>
          obtain ⟨hpos, hle⟩ := processPass_take_bounds hstep
          rw [Reader.run_take hstep]
          rw [show processPass key handlers r a = .take r' n from hstep] at hpass
          exact ih (a.drop n).length (by rw [List.length_drop]; omega) _ hpass rfl

variable (key handlers) in
/-- One call reads what was kept and what `recv` returned. -/
theorem ends_clientProcessPkt {r : Reception σ} (buf : RecvBuf) {received : List UInt8}
    (hrv : r.rv = 0) (hsome : received ≠ []) :
    Ends ((pktReader key handlers).run r (buf.saved ++ received))
      (clientProcessPkt key handlers r buf received) := by
  have hr : ({ r with rv := 0 } : Reception σ) = r := by rw [← hrv]
  have hcall : clientProcessPkt key handlers r buf received =
      match (pktReader key handlers).run r (buf.saved ++ received) with
      | .waiting r rest => some (r, saveRest buf rest)
      | .stopped r => some (r, .empty)
      | .failed => none := by
    rw [clientProcessPkt, if_neg hsome, hr]
    rfl
  have hend := rv_run key handlers (buf.saved ++ received) hrv
  rw [hcall]
  cases hrun : (pktReader key handlers).run r (buf.saved ++ received) with
  | waiting r' rest =>
      rw [hrun] at hend
      exact ⟨rfl, saved_saveRest buf rest, hend⟩
  | stopped r' =>
      rw [hrun] at hend
      exact ⟨rfl, saved_empty, hend⟩
  | failed => trivial

/-- The calls for the pieces read the stream piece by piece. -/
theorem ends_processPieces {r : Reception σ} (buf : RecvBuf) {pieces : List (List UInt8)}
    (hrv : r.rv = 0) (hsome : ∀ piece ∈ pieces, piece ≠ []) :
    Ends ((pktReader key handlers).feed r buf.saved pieces)
      (processPieces key handlers r buf pieces) := by
  induction pieces generalizing r buf with
  | nil => exact ⟨rfl, rfl, hrv⟩
  | cons piece pieces ih =>
      have hcall := ends_clientProcessPkt key handlers buf hrv
        (hsome piece (List.mem_cons_self ..))
      rw [Reader.feed, processPieces]
      cases hrun : (pktReader key handlers).run r (buf.saved ++ piece) with
      | waiting r' rest =>
          cases hpkt : clientProcessPkt key handlers r buf piece with
          | none => simp only [hrun, hpkt, Ends] at hcall
          | some result =>
              obtain ⟨r'', buf'⟩ := result
              rw [hrun, hpkt] at hcall
              obtain ⟨rfl, rfl, hzero⟩ := hcall
              simp only [if_pos hzero]
              exact ih buf' hzero fun p hp => hsome p (List.mem_cons_of_mem _ hp)
      | stopped r' =>
          cases hpkt : clientProcessPkt key handlers r buf piece with
          | none => simp only [hrun, hpkt, Ends] at hcall
          | some result =>
              obtain ⟨r'', buf'⟩ := result
              rw [hrun, hpkt] at hcall
              obtain ⟨rfl, hsaved, hzero⟩ := hcall
              simp only [if_neg hzero]
              exact ⟨rfl, hsaved, hzero⟩
      | failed =>
          cases hpkt : clientProcessPkt key handlers r buf piece with
          | none => trivial
          | some result => simp only [hrun, hpkt, Ends] at hcall

/-- The pieces end as one call for all of them does. -/
theorem ends_flatten {r : Reception σ} (buf : RecvBuf) {pieces : List (List UInt8)}
    (hrv : r.rv = 0) (hidle : (pktReader key handlers).run r buf.saved = .waiting r buf.saved)
    (hsome : ∀ piece ∈ pieces, piece ≠ []) :
    Ends ((pktReader key handlers).run r (buf.saved ++ pieces.flatten))
      (processPieces key handlers r buf pieces) := by
  rw [← Reader.feed_eq_run hidle]
  exact ends_processPieces buf hrv hsome

/-- Two calls for one outcome leave the same behind. -/
theorem Ends.eq {out : Outcome (Reception σ) UInt8} {one two : Reception σ × RecvBuf}
    (hone : Ends out (some one)) (htwo : Ends out (some two)) :
    one.1 = two.1 ∧ one.2.saved = two.2.saved := by
  cases out with
  | waiting r rest =>
      obtain ⟨hr, hsaved, -⟩ := hone
      obtain ⟨hr', hsaved', -⟩ := htwo
      exact ⟨hr.trans hr'.symm, hsaved.trans hsaved'.symm⟩
  | stopped r =>
      obtain ⟨hr, hsaved, -⟩ := hone
      obtain ⟨hr', hsaved', -⟩ := htwo
      exact ⟨hr.trans hr'.symm, hsaved.trans hsaved'.symm⟩
  | failed => exact hone.elim

end Pieces

end Sylverant.Ship
