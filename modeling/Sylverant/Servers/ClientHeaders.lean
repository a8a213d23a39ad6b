/-
# Headers that clients of the patch and the login server make up

When a call of `read_from_client` stays inside its buffers and gives its handlers whole
packets only. It does unless a header has a length of zero, for which no space is allocated,
or unless a length is kept that is smaller than the header, so that what is left of the body
is no size at all.
-/

import Sylverant.Servers.ReadFromClient

namespace Sylverant.Servers

open Ship (roundUp)

/-! ## What a call does -/

/-- A handler is given no less than a header, for which no less was received. -/
def Handed.Fine (h : Handed) : Prop := h.hdr ≤ h.pkt.length ∧ h.hdr ≤ h.taken

/-- The packets are fine, and nothing outside of the buffers is touched. -/
def Reading.Safe {κ : Type} : Reading κ → Prop
  | .go c => ∀ h ∈ c.handed, h.Fine
  | .error c => ∀ h ∈ c.handed, h.Fine
  | .fault => False

section Phases

variable {κ : Type} (R : Receiver κ)

/-- The phases of reading a packet. A body may be awaited whose length is too small. -/
inductive Phase : ReadClient κ → Prop
  | idle (c : ReadClient κ) (hbuf : c.recvbuf = none) (hsz : c.pktSz = 0) (htaken : c.taken = 0) :
      Phase c
  | header (c : ReadClient κ) (buf : List UInt8) (hbuf : c.recvbuf = some buf) (hsz : c.pktSz = 0)
      (hlen : buf.length = R.hs c.conn) (hcur : c.pktCur ≤ R.hs c.conn)
      (htaken : c.taken = c.pktCur) : Phase c
  | body (c : ReadClient κ) (buf : List UInt8) (hbuf : c.recvbuf = some buf) (hsz : c.pktSz ≠ 0)
      (hcur : R.hs c.conn ≤ c.pktCur) (htaken : c.taken = c.pktCur)
      (hfit : R.hs c.conn ≤ c.pktSz →
        c.pktCur ≤ c.pktSz ∧ buf.length = roundUp (R.hs c.conn) c.pktSz) : Phase c

/-- The states in which the calls go on as they should. -/
def Good : Reading κ → Prop
  | .go c => Phase R c ∧ ∀ h ∈ c.handed, h.Fine
  | .error c => ∀ h ∈ c.handed, h.Fine
  | .fault => False

/-- The header that a call completes, if it does. -/
def headerOf (c : ReadClient κ) (r : Recv) : Option (List UInt8) :=
  match c.recvbuf with
  | none => (r.ask (R.hs c.conn)).filter fun data => data.length = R.hs c.conn
  | some buf =>
      if c.pktSz = 0 then
        ((r.ask (R.hs c.conn - c.pktCur)).filter fun data =>
          data.length = R.hs c.conn - c.pktCur).map (buf.take c.pktCur ++ ·)
      else none

/-- The length field of a header, decrypted. -/
def lenOf (c : ReadClient κ) (hdr : List UInt8) : Nat :=
  R.pktLen (R.readHeader c.conn hdr).1 (R.readHeader c.conn hdr).2

/-- A header that a call completes has a length, and the body that it awaits is part of a
packet that is no smaller than a header. -/
def Sized : Reading κ → Recv → Prop
  | .go c, r =>
      (c.pktSz ≠ 0 → R.hs c.conn ≤ c.pktSz) ∧ ∀ hdr, headerOf R c r = some hdr → lenOf R c hdr ≠ 0
  | _, _ => True

end Phases

/-! ## Sizes -/

/-- What is allocated is the length, rounded up to whole headers. -/
theorem allocSz_eq {hs len : Nat} (hhs : hs = 4 ∨ hs = 8) (hlen : len < 0x10000) :
    allocSz hs len = roundUp hs len := by
  obtain ⟨k, hk, rfl⟩ : ∃ k, (k = 2 ∨ k = 3) ∧ hs = 2 ^ k := by
    rcases hhs with rfl | rfl
    · exact ⟨2, .inl rfl, rfl⟩
    · exact ⟨3, .inr rfl, rfl⟩
  rw [allocSz, Nat.and_two_pow_sub_one_eq_mod, Ship.and_clearLow (by omega) hlen, roundUp]
  rcases hk with rfl | rfl
  · split <;> omega
  · split <;> omega

theorem le_roundUp {hs len : Nat} (hhs : hs = 4 ∨ hs = 8) : len ≤ roundUp hs len := by
  rw [roundUp]
  rcases hhs with rfl | rfl <;> omega

theorem hs_le_roundUp {hs len : Nat} (hhs : hs = 4 ∨ hs = 8) (hlen : len ≠ 0) :
    hs ≤ roundUp hs len := by
  rw [roundUp]
  rcases hhs with rfl | rfl <;> omega

/-- A packet is its header and the blocks of its body. -/
theorem roundUp_body {hs len : Nat} (hhs : hs = 4 ∨ hs = 8) (hle : hs ≤ len) :
    hs + roundUp hs (len - hs) = roundUp hs len := by
  rw [roundUp, roundUp]
  rcases hhs with rfl | rfl <;> omega

theorem roundUp_roundUp {hs len : Nat} (hhs : hs = 4 ∨ hs = 8) :
    roundUp hs (roundUp hs len) = roundUp hs len := by
  simp only [roundUp]
  rcases hhs with rfl | rfl <;> omega

/-! ## Buffers -/

theorem length_ask {r : Recv} {n : Nat} {data : List UInt8} (h : r.ask n = some data) :
    data.length ≤ n := by
  cases r with
  | fail => cases h
  | bytes received =>
      cases h
      exact List.length_take_le ..

/-- Bytes that fit can be stored, and the size of the buffer stays. -/
theorem store_eq {buf data : List UInt8} {pos : Nat} (h : pos + data.length ≤ buf.length) :
    store buf pos data = some (buf.take pos ++ data ++ buf.drop (pos + data.length)) :=
  if_pos (.inr h)

theorem length_store {buf data : List UInt8} {pos : Nat} (h : pos + data.length ≤ buf.length) :
    (buf.take pos ++ data ++ buf.drop (pos + data.length)).length = buf.length := by
  rw [List.length_append, List.length_append, List.length_take, List.length_drop]
  omega

/-- What was stored in front of a position, and what is stored there. -/
theorem take_store {buf data : List UInt8} {pos : Nat} (h : pos + data.length ≤ buf.length) :
    (buf.take pos ++ data ++ buf.drop (pos + data.length)).take (pos + data.length) =
      buf.take pos ++ data := by
  apply List.take_left'
  rw [List.length_append, List.length_take]
  omega

/-! ## Steps -/

section Steps

variable {κ : Type} {R : Receiver κ} {c : ReadClient κ}

/-- A packet that is given to its handler is done. -/
theorem good_process (hfine : ∀ h ∈ c.handed, h.Fine) {buf : List UInt8}
    (hbuf : R.hs c.conn ≤ buf.length) (htaken : R.hs c.conn ≤ c.taken) :
    Good R (process R c buf) := by
  have hhanded : ∀ h ∈ c.handed ++ [⟨buf, R.hs c.conn, c.taken⟩], h.Fine := by
    intro h hmem
    rcases List.mem_append.mp hmem with hold | hnew
    · exact hfine h hold
    · rw [List.mem_singleton.mp hnew]
      exact ⟨hbuf, htaken⟩
  unfold process
  dsimp only
  split
  · exact ⟨.idle _ rfl rfl rfl, hhanded⟩
  · exact hhanded

/-- A header with a length starts a packet. -/
theorem good_readHeader (hfine : ∀ h ∈ c.handed, h.Fine) {hdr : List UInt8}
    (hhdr : hdr.length = R.hs c.conn) (htaken : c.taken = R.hs c.conn) (hlen : lenOf R c hdr ≠ 0) :
    Good R (readHeader R c hdr) := by
  have hhs := R.hs_eq c.conn
  have hconn := R.hs_readHeader c.conn hdr
  have hsz := allocSz_eq hhs (R.pktLen_lt (R.readHeader c.conn hdr).1 (R.readHeader c.conn hdr).2)
  have hlarge := hs_le_roundUp hhs hlen
  unfold readHeader
  dsimp only
  rw [hsz]
  rw [lenOf] at hlen hlarge
  generalize R.pktLen (R.readHeader c.conn hdr).1 (R.readHeader c.conn hdr).2 = len
    at hlen hlarge ⊢
  rw [if_neg (Nat.not_lt_of_le hlarge)]
  have hbuf : ((R.readHeader c.conn hdr).2 ++
      List.replicate (roundUp (R.hs c.conn) len - R.hs c.conn) (0 : UInt8)).length =
      roundUp (R.hs c.conn) len := by
    rw [List.length_append, List.length_replicate, R.length_readHeader, hhdr]
    omega
  split
  · apply good_process
    · exact hfine
    · rw [hconn, hbuf]
      exact hlarge
    · rw [hconn]
      exact Nat.le_of_eq htaken.symm
  · refine ⟨.body _ _ rfl ?_ ?_ htaken ?_, hfine⟩
    · dsimp only
      split
      · exact hlen
      · exact Nat.pos_iff_ne_zero.mp (Nat.lt_of_lt_of_le (by omega) hlarge)
    · dsimp only
      exact Nat.le_of_eq hconn
    · intro hkept
      dsimp only at hkept ⊢
      rw [hconn, hbuf]
      rw [hconn] at hkept
      split
      · rename_i hexact
        rw [if_pos hexact] at hkept
        exact ⟨hkept, rfl⟩
      · exact ⟨hlarge, (roundUp_roundUp hhs).symm⟩

/-- A header without a length is copied to where there is no space. -/
theorem readHeader_fault {hdr : List UInt8} (hlen : lenOf R c hdr = 0) :
    readHeader R c hdr = .fault := by
  unfold readHeader
  dsimp only
  rw [lenOf] at hlen
  rw [hlen, if_pos]
  show allocSz (R.hs c.conn) 0 < R.hs c.conn
  rcases R.hs_eq c.conn with hhs | hhs <;> rw [hhs] <;> decide

/-- The body of a packet that is no smaller than a header is read. -/
theorem good_readBody (hfine : ∀ h ∈ c.handed, h.Fine) {buf : List UInt8} (hsz : c.pktSz ≠ 0)
    (hcur : R.hs c.conn ≤ c.pktCur) (htaken : c.taken = c.pktCur)
    (hkept : R.hs c.conn ≤ c.pktSz) (hle : c.pktCur ≤ c.pktSz)
    (hbuf : buf.length = roundUp (R.hs c.conn) c.pktSz) (r : Recv) :
    Good R (readBody R c buf r) := by
  have hhs := R.hs_eq c.conn
  have hround : c.pktSz ≤ roundUp (R.hs c.conn) c.pktSz := le_roundUp hhs
  have hbody := roundUp_body hhs hkept
  unfold readBody
  dsimp only
  rw [if_neg (Nat.not_lt_of_le hle)]
  cases hask : r.ask (c.pktSz - c.pktCur) with
  | none => exact hfine
  | some data =>
      have hdata := length_ask hask
      have hroom : c.pktCur + data.length ≤ buf.length := by omega
      have hlen := length_store hroom
      dsimp only
      rw [store_eq hroom]
      dsimp only
      generalize buf.take c.pktCur ++ data ++ buf.drop (c.pktCur + data.length) = stored at hlen
      split
      · rename_i hmore
        split
        · exact hfine
        · refine ⟨.body _ stored rfl hsz ?_ ?_ ?_, hfine⟩
          · show R.hs c.conn ≤ c.pktCur + data.length
            omega
          · show c.taken + data.length = c.pktCur + data.length
            omega
          · intro _
            refine ⟨?_, hlen.trans hbuf⟩
            show c.pktCur + data.length ≤ c.pktSz
            omega
      · have hblocks : ¬(c.pktSz < R.hs c.conn ∨
            stored.length < R.hs c.conn + roundUp (R.hs c.conn) (c.pktSz - R.hs c.conn)) := by
          omega
        rw [if_neg hblocks]
        have hcrypt := R.hs_cryptBody c.conn
          ((stored.drop (R.hs c.conn)).take (roundUp (R.hs c.conn) (c.pktSz - R.hs c.conn)))
        generalize R.cryptBody c.conn ((stored.drop (R.hs c.conn)).take
          (roundUp (R.hs c.conn) (c.pktSz - R.hs c.conn))) = result at hcrypt
        apply good_process
        · exact hfine
        · dsimp only
          rw [hcrypt, List.length_append, List.length_append, List.length_take]
          omega
        · dsimp only
          omega

/-- The size of what is left of a body that is smaller than the header is none. -/
theorem readBody_fault {buf : List UInt8} (hcur : R.hs c.conn ≤ c.pktCur)
    (hkept : c.pktSz < R.hs c.conn) (r : Recv) : readBody R c buf r = .fault := by
  unfold readBody
  exact if_pos (Nat.lt_of_lt_of_le hkept hcur)

variable (R) in
/-- A call goes on as it should if its header has a length and its body is large enough. -/
theorem good_readFromClient (hphase : Phase R c) (hfine : ∀ h ∈ c.handed, h.Fine) {r : Recv}
    (hsized : Sized R (.go c) r) : Good R (readFromClient R c r) := by
  have hhs := R.hs_eq c.conn
  obtain ⟨hkept, hlen⟩ := hsized
  unfold readFromClient
  dsimp only
  cases hphase with
  | idle hbuf hsz htaken =>
      rw [headerOf, hbuf] at hlen
      rw [hbuf]
      dsimp only at hlen ⊢
      cases hask : r.ask (R.hs c.conn) with
      | none => exact hfine
      | some data =>
          have hdata := length_ask hask
          dsimp only
          split
          · rename_i hshort
            split
            · exact hfine
            · refine ⟨.header _ _ rfl hsz ?_ hdata ?_, hfine⟩
              · rw [List.length_append, List.length_replicate]
                dsimp only
                omega
              · dsimp only
                omega
          · have hwhole : data.length = R.hs c.conn := by omega
            apply good_readHeader
            · exact hfine
            · exact hwhole
            · dsimp only
              omega
            · refine hlen data ?_
              rw [hask]
              exact Option.filter_some_pos (by rw [hwhole]; exact decide_eq_true rfl)
  | header buf hbuf hsz hbuflen hcur htaken =>
      rw [headerOf, hbuf] at hlen
      rw [hbuf]
      dsimp only at hlen ⊢
      rw [if_pos hsz] at hlen ⊢
      cases hask : r.ask (R.hs c.conn - c.pktCur) with
      | none => exact hfine
      | some data =>
          have hdata := length_ask hask
          have hroom : c.pktCur + data.length ≤ buf.length := by omega
          have hstored := length_store hroom
          have hfront := take_store hroom
          dsimp only
          rw [store_eq hroom]
          dsimp only
          generalize buf.take c.pktCur ++ data ++ buf.drop (c.pktCur + data.length) = stored
            at hstored hfront
          split
          · split
            · exact hfine
            · refine ⟨.header _ stored rfl hsz ?_ ?_ ?_, hfine⟩
              · exact hstored.trans hbuflen
              · dsimp only
                omega
              · dsimp only
                omega
          · have hwhole : data.length = R.hs c.conn - c.pktCur := by omega
            have hsum : c.pktCur + data.length = R.hs c.conn := by omega
            rw [if_neg (by omega)]
            rw [hsum] at hfront
            apply good_readHeader
            · exact hfine
            · dsimp only
              rw [List.length_take]
              omega
            · dsimp only
              omega
            · rw [hfront]
              refine hlen (buf.take c.pktCur ++ data) ?_
              rw [hask, Option.filter_some_pos (by rw [hwhole]; exact decide_eq_true rfl)]
              rfl
  | body buf hbuf hsz hcur htaken hfit =>
      rw [hbuf]
      dsimp only
      rw [if_neg hsz]
      obtain ⟨hle, hbuflen⟩ := hfit (hkept hsz)
      exact good_readBody hfine hsz hcur htaken (hkept hsz) hle hbuflen r

variable (R) in
/-- A call touches memory outside of the buffers when it completes a header without a
length. -/
theorem readFromClient_fault (hphase : Phase R c) {r : Recv} {hdr : List UInt8}
    (hheader : headerOf R c r = some hdr) (hlen : lenOf R c hdr = 0) :
    readFromClient R c r = .fault := by
  unfold readFromClient
  dsimp only
  rw [headerOf] at hheader
  cases hphase with
  | idle hbuf hsz htaken =>
      rw [hbuf] at hheader ⊢
      dsimp only at hheader ⊢
      obtain ⟨hask, hwhole⟩ := Option.filter_eq_some_iff.mp hheader
      have hwhole := of_decide_eq_true hwhole
      rw [hask]
      dsimp only
      rw [if_neg (by omega), if_pos hsz]
      exact readHeader_fault hlen
  | header buf hbuf hsz hbuflen hcur htaken =>
      rw [hbuf] at hheader ⊢
      dsimp only at hheader ⊢
      rw [if_pos hsz] at hheader ⊢
      obtain ⟨data, hfilter, rfl⟩ := Option.map_eq_some_iff.mp hheader
      obtain ⟨hask, hwhole⟩ := Option.filter_eq_some_iff.mp hfilter
      have hwhole := of_decide_eq_true hwhole
      have hroom : c.pktCur + data.length ≤ buf.length := by omega
      have hsum : c.pktCur + data.length = R.hs c.conn := by omega
      have hstored := length_store hroom
      have hfront := take_store hroom
      rw [hask]
      dsimp only
      rw [store_eq hroom]
      dsimp only
      generalize buf.take c.pktCur ++ data ++ buf.drop (c.pktCur + data.length) = stored
        at hstored hfront
      rw [hsum] at hfront
      rw [if_neg (by omega), if_neg (by omega), hfront]
      exact readHeader_fault hlen
  | body buf hbuf hsz hcur htaken hfit =>
      rw [hbuf] at hheader
      dsimp only at hheader
      rw [if_neg hsz] at hheader
      cases hheader

theorem Good.safe {s : Reading κ} (hs : Good R s) : s.Safe := by
  cases s with
  | go c => exact hs.2
  | error c => exact hs
  | fault => exact hs

/-- A call is safe exactly if a header that it completes has a length, and a body that it
awaits is part of a packet that is no smaller than a header. -/
theorem safe_readStep_iff {s : Reading κ} (hs : Good R s) (r : Recv) :
    (readStep R s r).Safe ↔ Sized R s r := by
  cases s with
  | error c => exact ⟨fun _ => trivial, fun _ => hs⟩
  | fault => exact hs.elim
  | go c =>
      obtain ⟨hphase, hfine⟩ := hs
      constructor
      · intro hsafe
        refine ⟨?_, ?_⟩
        · intro hsz
          by_contra hsmall
          have hsmall := Nat.lt_of_not_le hsmall
          cases hphase with
          | idle hbuf hzero htaken => exact hsz hzero
          | header buf hbuf hzero hbuflen hcur htaken => exact hsz hzero
          | body buf hbuf hne hcur htaken hfit =>
              have hfault : readFromClient R c r = .fault := by
                unfold readFromClient
                dsimp only
                rw [hbuf]
                dsimp only
                rw [if_neg hne]
                exact readBody_fault hcur hsmall r
              rw [readStep, hfault] at hsafe
              exact hsafe
        · intro hdr hheader hlen
          rw [readStep, readFromClient_fault R hphase hheader hlen] at hsafe
          exact hsafe
      · intro hsized
        exact (good_readFromClient R hphase hfine hsized).safe

theorem good_readStep {s : Reading κ} (hs : Good R s) {r : Recv} (hsized : Sized R s r) :
    Good R (readStep R s r) := by
  cases s with
  | error c => exact hs
  | fault => exact hs.elim
  | go c => exact good_readFromClient R hs.1 hs.2 hsized

end Steps

/-! ## Runs -/

variable {κ : Type}

/-- In every run of calls for a client that was just connected, all calls are safe exactly if
all of them meet the condition on sizes. -/
theorem safe_runs_iff (R : Receiver κ) (conn : κ) (rs : List Recv) :
    Run.Guarded (readStep R) (fun s r => (readStep R s r).Safe) (.go (.new conn)) rs ↔
      Run.Guarded (readStep R) (Sized R) (.go (.new conn)) rs := by
  have hnew : Good R (.go (.new conn)) := ⟨.idle _ rfl rfl rfl, fun h hmem => nomatch hmem⟩
  apply Run.Guarded.congr
  · exact fun s r hs => safe_readStep_iff hs r
  · exact fun s r hs hsafe => good_readStep hs ((safe_readStep_iff hs r).mp hsafe)
  · exact hnew

end Sylverant.Servers
