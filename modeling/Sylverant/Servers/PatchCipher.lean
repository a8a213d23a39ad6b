/-
# The patch server with its cipher

The packets of a patch client, encrypted with the cipher that `CRYPT_CreateKeys` makes of a seed,
reach their handlers however they arrive. Nothing is assumed of the cipher. A receiver calls it
for whole headers and for bodies of whole headers only, whatever it reads, so it does with the
real cipher what it does with a keystream that is told as a byte for each position.
-/

import Sylverant.Encryption.Links
import Sylverant.Servers.PatchFraming

namespace Sylverant.Servers

open Encryption (PcSetup cryptPcCreateKeys cryptPcCryptData cryptPcGetNextKey pcStream
  pcCryptData_takes pcGetNextKey_gives pcCreateKeys_at pcLagged)
open Ship (roundUp)
open Socket (drain)
open WordCipher (calls calls_stream crypt_stream length_crypt streamByte streamStep_keeps)

/-! ## Receivers that do the same -/

section Simulation

variable {κ κ' : Type}

/-- A receiver does what another one does, where headers have their size and bodies are whole
headers. -/
structure Receiver.Simulates (R : Receiver κ) (R' : Receiver κ') (rel : κ → κ' → Prop) : Prop where
  hs_eq : ∀ {a b}, rel a b → R.hs a = R'.hs b
  readHeader : ∀ {a b hdr}, rel a b → hdr.length = R.hs a →
    rel (R.readHeader a hdr).1 (R'.readHeader b hdr).1 ∧
      (R.readHeader a hdr).2 = (R'.readHeader b hdr).2
  pktLen : ∀ {a b} hdr, rel a b → R.pktLen a hdr = R'.pktLen b hdr
  exact : ∀ {a b}, rel a b → R.exact a = R'.exact b
  cryptBody : ∀ {a b data}, rel a b → R.hs a ∣ data.length →
    rel (R.cryptBody a data).1 (R'.cryptBody b data).1 ∧
      (R.cryptBody a data).2 = (R'.cryptBody b data).2
  processPacket : ∀ {a b} pkt, rel a b →
    rel (R.processPacket a pkt).1 (R'.processPacket b pkt).1 ∧
      (R.processPacket a pkt).2 = (R'.processPacket b pkt).2

/-- Clients that differ in what is related only. -/
structure Alike (rel : κ → κ' → Prop) (c : ReadClient κ) (c' : ReadClient κ') : Prop where
  conn : rel c.conn c'.conn
  recvbuf : c.recvbuf = c'.recvbuf
  pktCur : c.pktCur = c'.pktCur
  pktSz : c.pktSz = c'.pktSz
  handed : c.handed = c'.handed
  taken : c.taken = c'.taken

/-- Calls that end alike. -/
inductive EndsAlike (rel : κ → κ' → Prop) : Reading κ → Reading κ' → Prop
  | go {c c'} (h : Alike rel c c') : EndsAlike rel (.go c) (.go c')
  | error {c c'} (h : Alike rel c c') : EndsAlike rel (.error c) (.error c')
  | fault : EndsAlike rel .fault .fault

variable {R : Receiver κ} {R' : Receiver κ'} {rel : κ → κ' → Prop} {c : ReadClient κ}
  {c' : ReadClient κ'}

theorem process_alike (hsim : R.Simulates R' rel) (h : Alike rel c c') (buf : List UInt8) :
    EndsAlike rel (process R c buf) (process R' c' buf) := by
  obtain ⟨hconn, hrv⟩ := hsim.processPacket buf h.conn
  have halike : Alike rel (⟨(R.processPacket c.conn buf).1, none, 0, 0,
      c.handed ++ [⟨buf, R.hs c.conn, c.taken⟩], 0⟩ : ReadClient κ)
      ⟨(R'.processPacket c'.conn buf).1, none, 0, 0,
        c'.handed ++ [⟨buf, R'.hs c'.conn, c'.taken⟩], 0⟩ :=
    ⟨hconn, rfl, rfl, rfl, by rw [h.handed, h.taken, hsim.hs_eq h.conn], rfl⟩
  rw [process, process, ← hrv]
  by_cases hzero : (R.processPacket c.conn buf).2 = 0
  · rw [if_pos hzero, if_pos hzero]
    exact .go halike
  · rw [if_neg hzero, if_neg hzero]
    exact .error halike

theorem readHeader_alike (hsim : R.Simulates R' rel) (h : Alike rel c c') {hdr : List UInt8}
    (hlen : hdr.length = R.hs c.conn) :
    EndsAlike rel (readHeader R c hdr) (readHeader R' c' hdr) := by
  obtain ⟨hconn, hout⟩ := hsim.readHeader h.conn hlen
  have hhs := hsim.hs_eq h.conn
  unfold readHeader
  dsimp only
  rw [← hout, ← hhs, ← hsim.pktLen _ hconn, ← hsim.exact hconn]
  split
  · exact .fault
  · split
    · refine process_alike hsim ?_ _
      exact ⟨hconn, rfl, rfl, rfl, h.handed, h.taken⟩
    · exact .go ⟨hconn, rfl, rfl, rfl, h.handed, h.taken⟩

theorem dvd_roundUp {hs len : Nat} (hhs : hs = 4 ∨ hs = 8) : hs ∣ roundUp hs len := by
  rw [roundUp]
  rcases hhs with rfl | rfl <;> omega

theorem readBody_alike (hsim : R.Simulates R' rel) (h : Alike rel c c') (buf : List UInt8)
    (r : Recv) : EndsAlike rel (readBody R c buf r) (readBody R' c' buf r) := by
  have hhs := hsim.hs_eq h.conn
  unfold readBody
  dsimp only
  rw [← hhs, ← h.pktSz, ← h.pktCur]
  split
  · exact .fault
  · cases r.ask (c.pktSz - c.pktCur) with
    | none => exact .error h
    | some data =>
        dsimp only
        cases store buf c.pktCur data with
        | none => exact .fault
        | some buf =>
            dsimp only
            split
            · split
              · exact .error h
              · exact .go ⟨h.conn, rfl, rfl, rfl, h.handed, by rw [h.taken]⟩
            · split
              · exact .fault
              · rename_i hfit
                have hwhole : R.hs c.conn ∣ ((buf.drop (R.hs c.conn)).take
                    (roundUp (R.hs c.conn) (c.pktSz - R.hs c.conn))).length := by
                  rw [List.length_take, List.length_drop, Nat.min_eq_left (by omega)]
                  exact dvd_roundUp (R.hs_eq _)
                obtain ⟨hconn, hout⟩ := hsim.cryptBody h.conn hwhole
                rw [← hout]
                refine process_alike hsim ?_ _
                exact ⟨hconn, h.recvbuf, rfl, rfl, h.handed, by rw [h.taken]⟩

/-- A call of a receiver ends like one of a receiver that does the same, whatever is read. -/
theorem readFromClient_alike (hsim : R.Simulates R' rel) (h : Alike rel c c') (r : Recv) :
    EndsAlike rel (readFromClient R c r) (readFromClient R' c' r) := by
  have hhs := hsim.hs_eq h.conn
  unfold readFromClient
  dsimp only
  rw [← hhs, ← h.recvbuf, ← h.pktSz, ← h.pktCur]
  cases hbuf : c.recvbuf with
  | none =>
      dsimp only
      cases hask : r.ask (R.hs c.conn) with
      | none => exact .error h
      | some data =>
          dsimp only
          split
          · split
            · exact .error h
            · exact .go ⟨h.conn, rfl, rfl, rfl, h.handed, by rw [h.taken]⟩
          · split
            · have hlen : data.length = R.hs c.conn := by
                have := length_ask hask
                omega
              refine readHeader_alike hsim ?_ hlen
              exact ⟨h.conn, rfl, rfl, rfl, h.handed, by rw [h.taken]⟩
            · exact .fault
  | some buf =>
      dsimp only
      split
      · cases r.ask (R.hs c.conn - c.pktCur) with
        | none => exact .error h
        | some data =>
            dsimp only
            cases store buf c.pktCur data with
            | none => exact .fault
            | some buf =>
                dsimp only
                split
                · split
                  · exact .error h
                  · exact .go ⟨h.conn, rfl, rfl, rfl, h.handed, by rw [h.taken]⟩
                · split
                  · exact .fault
                  · have hlen : (buf.take (R.hs c.conn)).length = R.hs c.conn := by
                      rw [List.length_take]
                      omega
                    refine readHeader_alike hsim ?_ hlen
                    exact ⟨h.conn, rfl, rfl, rfl, h.handed, by rw [h.taken]⟩
      · exact readBody_alike hsim h buf r

end Simulation

/-! ## The cipher of PSOPC -/

/-- `CRYPT_CryptData` for what is read. Whatever is not whole words is never given to it. -/
def pcCiphers : Ciphers PcSetup where
  cryptData pc data :=
    ((cryptPcCryptData pc data data.length).map fun r => (r.2, r.1)).getD (pc, data)
  length_cryptData pc data := by
    cases hcrypt : cryptPcCryptData pc data data.length with
    | none => rfl
    | some r => exact length_crypt (streamStep_keeps cryptPcGetNextKey) hcrypt

/-- The same stream as a byte for each position. -/
def pcKey (x : Nat → UInt32) (i : Nat) (b : UInt8) : UInt8 := b ^^^ streamByte x i

theorem pcCiphers_eq {x : Nat → UInt32} (hx : pcLagged.Follows x) {pc : PcSetup} {p n : Nat}
    (hpc : pc.At x p) {data : List UInt8} (hlen : data.length = n * 4) :
    (pcCiphers.cryptData pc data).2 = Ship.cryptData (pcKey x) (4 * p) data ∧
      (pcCiphers.cryptData pc data).1.At x (p + n) := by
  obtain ⟨pc', hcrypt, hend⟩ := crypt_stream (pcGetNextKey_gives hx) hlen hpc
  have hcall : cryptPcCryptData pc data data.length =
      some (Ship.cryptData (pcKey x) (4 * p) data, pc') :=
    (pcCryptData_takes pc n data hlen).trans hcrypt
  have hout : pcCiphers.cryptData pc data = (pc', Ship.cryptData (pcKey x) (4 * p) data) := by
    show ((cryptPcCryptData pc data data.length).map fun r => (r.2, r.1)).getD (pc, data) = _
    rw [hcall]
    rfl
  rw [hout]
  exact ⟨rfl, hend⟩

section Link

variable {σ : Type} {handlers : PatchHandlers σ}

/-- Clients whose ciphers are at the same place. -/
def AtPlace (x : Nat → UInt32) (a : PatchConn PcSetup σ) (b : PatchConn Nat σ) : Prop :=
  a.type = b.type ∧ a.handler = b.handler ∧
    ∃ p, a.clientCipher.At x p ∧ b.clientCipher = 4 * p

theorem AtPlace.crypt {x : Nat → UInt32} (hx : pcLagged.Follows x) {a : PatchConn PcSetup σ}
    {b : PatchConn Nat σ} (h : AtPlace x a b) {data : List UInt8} (hdata : 4 ∣ data.length) :
    AtPlace x (a.crypt pcCiphers data).1 (b.crypt (keystream (pcKey x)) data).1 ∧
      (a.crypt pcCiphers data).2 = (b.crypt (keystream (pcKey x)) data).2 := by
  obtain ⟨htype, hhandler, p, hp, hpos⟩ := h
  obtain ⟨n, hn⟩ := hdata
  obtain ⟨hout, hend⟩ := pcCiphers_eq hx hp (hn.trans (Nat.mul_comm 4 n))
  refine ⟨⟨htype, hhandler, p + n, hend, ?_⟩, ?_⟩
  · show b.clientCipher + data.length = 4 * (p + n)
    omega
  · show (pcCiphers.cryptData a.clientCipher data).2 = Ship.cryptData (pcKey x) b.clientCipher data
    rw [hout, hpos]

/-- Both receivers read alike, whatever clients send. -/
theorem patch_simulates {x : Nat → UInt32} (hx : pcLagged.Follows x) :
    (patchReceiver pcCiphers handlers).Simulates (patchReceiver (keystream (pcKey x)) handlers)
      (AtPlace x) where
  hs_eq _ := rfl
  readHeader {a b hdr} h hlen := h.crypt hx (hlen ▸ Nat.dvd_refl 4)
  pktLen _ _ := rfl
  exact _ := rfl
  cryptBody {a b data} h hdata := h.crypt hx hdata
  processPacket {a b} pkt h := by
    obtain ⟨type, cipher, handler⟩ := a
    obtain ⟨type', pos, handler'⟩ := b
    obtain ⟨rfl, rfl, hp⟩ := h
    exact ⟨⟨rfl, rfl, hp⟩, rfl⟩

/-- What a call leaves of a client, without its cipher. -/
def withoutCipher : Reading (PatchConn PcSetup σ) → Reading (PatchConn Nat σ)
  | .go c =>
      .go ⟨{ c.conn with clientCipher := 0 }, c.recvbuf, c.pktCur, c.pktSz, c.handed, c.taken⟩
  | .error c =>
      .error ⟨{ c.conn with clientCipher := 0 }, c.recvbuf, c.pktCur, c.pktSz, c.handed, c.taken⟩
  | .fault => .fault

/-- A call of `read_from_client` for the bytes that arrive. -/
def cipherNext (handlers : PatchHandlers σ) (s : Reading (PatchConn PcSetup σ))
    (data : List UInt8) : Reading (PatchConn PcSetup σ) :=
  match s with
  | .go c => patchReadFromClient pcCiphers handlers c (.bytes data)
  | s => s

section Same

variable {x : Nat → UInt32} {s : Reading (PatchConn PcSetup σ)} {t : Reading (PatchConn Nat σ)}

theorem EndsAlike.ask_eq (h : EndsAlike (AtPlace x) s t) :
    patchAsk (withoutCipher s) = patchAsk t := by
  cases h with
  | go h =>
      unfold patchAsk withoutCipher
      dsimp only
      rw [h.recvbuf, h.pktSz, h.pktCur]
  | error h => rfl
  | fault => rfl

theorem EndsAlike.delivered_eq (h : EndsAlike (AtPlace x) s t) :
    patchDelivered (withoutCipher s) = patchDelivered t := by
  cases h with
  | go h => exact congrArg (List.map Handed.pkt) h.handed
  | error h => exact congrArg (List.map Handed.pkt) h.handed
  | fault => rfl

theorem EndsAlike.idle_iff (h : EndsAlike (AtPlace x) s t) :
    PatchIdle (withoutCipher s) ↔ PatchIdle t := by
  cases h with
  | go h =>
      unfold PatchIdle withoutCipher
      dsimp only
      rw [h.recvbuf, h.pktSz, h.pktCur]
  | error h => exact Iff.rfl
  | fault => exact Iff.rfl

theorem EndsAlike.next (handlers : PatchHandlers σ) (hx : pcLagged.Follows x)
    (h : EndsAlike (AtPlace x) s t) (data : List UInt8) :
    EndsAlike (AtPlace x) (cipherNext handlers s data) (patchNext (pcKey x) handlers t data) := by
  cases h with
  | @go c c' h =>
      show EndsAlike _ (readFromClient (patchReceiver pcCiphers handlers) c (.bytes data))
        (readFromClient (patchReceiver (keystream (pcKey x)) handlers) c' (.bytes data))
      exact readFromClient_alike (patch_simulates hx) h _
  | error h => exact .error h
  | fault => exact .fault

end Same

/-- The packets that a patch client encrypts, each with a call of its own, are delivered by the
server that made its keys from the same seed, however their bytes arrive: as far as they are
complete, each once and in order, and nothing is left over on the boundaries between packets
only. -/
theorem patch_cipher_delivers (val : UInt32) (type : PatchType) (handler : σ)
    {pkts : List (List UInt8)} (hpackets : ∀ pkt ∈ pkts, PatchPacket pkt)
    (haccepts : Accepts (handlers.process type) handler pkts) :
    ∃ sent pc, calls (fun pc data => cryptPcCryptData pc data data.length) (cryptPcCreateKeys val)
        pkts = some (sent, pc) ∧
      ∀ (stream later : List UInt8) (ns : List Nat), stream ++ later = sent.flatten →
        let out := drain (fun s => patchAsk (withoutCipher s)) (cipherNext handlers)
          (.go (.new ⟨type, cryptPcCreateKeys val, handler⟩)) stream ns
        Delivers pkts (stream.length - out.2.length) (patchDelivered (withoutCipher out.1))
            (PatchIdle (withoutCipher out.1)) ∧
          (stream.length ≤ ns.length → out.2 = []) := by
  have hx : pcLagged.Follows (pcStream val) := pcLagged.follows_stream _
  have hwords : ∀ pkt ∈ pkts, 4 ∣ pkt.length := fun pkt hpkt =>
    Nat.dvd_of_mod_eq_zero (hpackets pkt hpkt).blocks
  obtain ⟨sent, pc, -, hcalls, -, hsent, -⟩ :=
    calls_stream pcCryptData_takes (pcGetNextKey_gives hx) hwords (pcCreateKeys_at val)
  refine ⟨sent, pc, hcalls, fun stream later ns hstream => ?_⟩
  have hkey (i : Nat) (b : UInt8) : pcKey (pcStream val) i (pcKey (pcStream val) i b) = b := by
    rw [pcKey, pcKey, UInt8.xor_assoc, UInt8.xor_self, UInt8.xor_zero]
  have hdelivers := @patch_delivers σ _ handlers _ hkey pkts stream later ⟨type, 4 * 275, handler⟩
    hpackets haccepts (hstream.trans hsent) ns
  have hstart : EndsAlike (AtPlace (pcStream val))
      (.go (.new ⟨type, cryptPcCreateKeys val, handler⟩)) (.go (.new ⟨type, 4 * 275, handler⟩)) :=
    .go ⟨⟨rfl, rfl, 275, pcCreateKeys_at val, rfl⟩, rfl, rfl, rfl, rfl, rfl⟩
  obtain ⟨hend, hrest⟩ := Socket.drain_related (fun s t h => h.ask_eq)
    (fun s t data h => h.next handlers hx data) hstart stream ns
  dsimp only at hdelivers ⊢
  rw [hend.delivered_eq, hend.idle_iff, hrest]
  exact hdelivers

/-- Two packets, of which three bytes arrive at a time. -/
theorem patch_cipher_delivers_pieces :
    ∃ sent pc, calls (fun pc data => cryptPcCryptData pc data data.length) (cryptPcCreateKeys 5)
        [[8, 0, 2, 0, 1, 2, 3, 4], [4, 0, 4, 0]] = some (sent, pc) ∧
      let out := drain (fun s => patchAsk (withoutCipher s))
        (cipherNext (σ := Unit) ⟨fun _ _ => ((), 0), fun _ _ => ((), 0)⟩)
        (.go (.new ⟨.pcData, cryptPcCreateKeys 5, ()⟩)) sent.flatten (List.replicate 12 2)
      Delivers [[8, 0, 2, 0, 1, 2, 3, 4], [4, 0, 4, 0]] (sent.flatten.length - out.2.length)
        (patchDelivered (withoutCipher out.1)) (PatchIdle (withoutCipher out.1)) := by
  have hpackets : ∀ pkt ∈ ([[8, 0, 2, 0, 1, 2, 3, 4], [4, 0, 4, 0]] : List (List UInt8)),
      PatchPacket pkt := by
    intro pkt hmem
    rcases List.mem_cons.mp hmem with rfl | hmem
    · exact ⟨by decide, by decide, by decide⟩
    · rw [List.mem_singleton.mp hmem]
      exact ⟨by decide, by decide, by decide⟩
  obtain ⟨sent, pc, hcalls, hdelivers⟩ :=
    @patch_cipher_delivers Unit ⟨fun _ _ => ((), 0), fun _ _ => ((), 0)⟩ 5 .pcData () _ hpackets
      ⟨rfl, rfl, trivial⟩
  exact ⟨sent, pc, hcalls, (hdelivers sent.flatten [] _ (List.append_nil _)).1⟩

end Link

end Sylverant.Servers
