/-
# Both ends of an encrypted connection

`CRYPT_CreateKeys` and `CRYPT_CryptData` for all types of encryption. Whatever state the two ends
of a connection are in, as long as it is the same, what one of them encrypts in any calls the
other one decrypts in any calls, and they end in the same state. For PSOPC and PSOGC the state is
a place in a stream that the seed determines, and the data is added to that stream.
-/

import Sylverant.Encryption.BlueBurst

namespace Sylverant.Encryption

open WordCipher (Gives Keeps Undoes Takes calls calls_undo calls_stream crypt_takes streamByte
  streamStep streamStep_keeps streamStep_undoes nth word)
open LaggedBlock (Lagged table)

/-- A `CRYPT_SETUP`, with the fields that its type uses. -/
inductive CryptSetup
  | pc (pc : PcSetup)
  | gamecube (cs : GcSetup)
  | blueburst (keys : Keys)
  | other (type : UInt8)

/-- `CRYPT_CreateKeys`, with the value that it returns. -/
def cryptCreateKeys (bbtable : Vector UInt32 1024) (key : List UInt8) (type : UInt8) :
    CryptSetup × Nat :=
  if type = 2 then (.pc (cryptPcCreateKeys (word key)), 1)
  else if type = 0 then (.gamecube (cryptGcCreateKeys (word key)), 1)
  else if type = 1 then (.blueburst (cryptBbCreateKeys bbtable key), 1)
  else (.other type, 0)

/-- `CRYPT_CryptData`, with the value that it returns. -/
def cryptCryptData (cs : CryptSetup) (data : List UInt8) (size : Nat) (encrypting : Bool) :
    Option (List UInt8 × CryptSetup × Nat) :=
  match cs with
  | .pc pc => (cryptPcCryptData pc data size).map fun r => (r.1, .pc r.2, 1)
  | .gamecube cs => (cryptGcCryptData cs data size).map fun r => (r.1, .gamecube r.2, 1)
  | .blueburst keys =>
      (if encrypting then cryptBbEncrypt keys data size else cryptBbDecrypt keys data size).map
        fun r => (r.1, .blueburst r.2, 1)
  | .other type => some (data, .other type, 0)

/-- Encrypt or decrypt all of a buffer. -/
def cryptAll (encrypting : Bool) (cs : CryptSetup) (data : List UInt8) :
    Option (List UInt8 × CryptSetup) :=
  (cryptCryptData cs data data.length encrypting).map fun r => (r.1, r.2.1)

/-- The size of the blocks of a cipher. -/
def CryptSetup.width : CryptSetup → Nat
  | .pc _ | .gamecube _ => 4
  | .blueburst _ => 8
  | .other _ => 1

section Links

variable {σ : Type} {call : σ → List UInt8 → Option (List UInt8 × σ)} {pieces : List (List UInt8)}

/-- Calls of a cipher are calls of `CRYPT_CryptData` with a setup of its type. -/
theorem calls_cryptAll (call : σ → List UInt8 → Option (List UInt8 × σ)) {encrypting : Bool}
    (mk : σ → CryptSetup)
    (hcall : ∀ s data, cryptAll encrypting (mk s) data = (call s data).map fun r => (r.1, mk r.2))
    (s : σ) (pieces : List (List UInt8)) :
    calls (cryptAll encrypting) (mk s) pieces =
      (calls call s pieces).map fun r => (r.1, mk r.2) := by
  induction pieces generalizing s with
  | nil => rfl
  | cons piece pieces ih =>
      rw [calls, calls, hcall]
      cases call s piece with
      | none => rfl
      | some r =>
          simp only [Option.map_some, ih]
          cases calls call r.2 pieces <;> rfl

/-- A cipher whose steps undo those of another one reads what the other one sends. -/
theorem link_of {undo : σ → List UInt8 → Option (List UInt8 × σ)} {w : Nat}
    {step other : WordCipher.Step UInt8 σ} {encrypting : Bool} (mk : σ → CryptSetup)
    (hcall : ∀ s data, cryptAll encrypting (mk s) data = (call s data).map fun r => (r.1, mk r.2))
    (hundo : ∀ s data, cryptAll (!encrypting) (mk s) data =
      (undo s data).map fun r => (r.1, mk r.2))
    (htakes : Takes w step call) (hkeeps : Keeps w step) (htakes' : Takes w other undo)
    (hundoes : Undoes w other step) (hpos : 0 < w)
    (hpieces : ∀ piece ∈ pieces, w ∣ piece.length) (s : σ) :
    ∃ outs cs', calls (cryptAll encrypting) (mk s) pieces = some (outs, cs') ∧
      ∀ cut : List (List UInt8), (∀ piece ∈ cut, w ∣ piece.length) → cut.flatten = outs.flatten →
        ∃ read, calls (cryptAll (!encrypting)) (mk s) cut = some (read, cs') ∧
          read.flatten = pieces.flatten := by
  obtain ⟨outs, s', hcalls, hread⟩ :=
    calls_undo htakes hkeeps htakes' hundoes hpos hpieces s
  refine ⟨outs, mk s', by rw [calls_cryptAll call mk hcall, hcalls]; rfl,
    fun cut hcut hflatten => ?_⟩
  obtain ⟨read, hcalls', hplain⟩ := hread cut hcut hflatten
  exact ⟨read, by rw [calls_cryptAll undo mk hundo, hcalls']; rfl, hplain⟩

theorem calls_other (encrypting : Bool) (type : UInt8) (pieces : List (List UInt8)) :
    calls (cryptAll encrypting) (.other type) pieces = some (pieces, .other type) := by
  induction pieces with
  | nil => rfl
  | cons piece pieces ih =>
      rw [calls, show cryptAll encrypting (.other type) piece = some (piece, .other type) from rfl]
      simp only [ih]

/-- The calls for the data of a PSOGC connection add to it a stream in which each word is the
sum of the ones 32 and 521 places before, from the fifth pass over the table on. -/
theorem gcStream_calls (seed : UInt32) (encrypting : Bool) {pieces : List (List UInt8)}
    (hpieces : ∀ piece ∈ pieces, 4 ∣ piece.length) :
    let x := gcStream seed
    (∀ i < 521, x i = table 0 (gcFill seed) i) ∧ (∀ i, x (i + 521) = x (i + 489) ^^^ x i) ∧
      ∃ outs cs', calls (cryptAll encrypting) (.gamecube (cryptGcCreateKeys seed)) pieces =
          some (outs, cs') ∧
        outs.flatten =
          Ship.cryptData (fun i b => b ^^^ streamByte x i) (4 * 2084) pieces.flatten := by
  intro x
  have hx : gcLagged.Follows x := gcLagged.follows_stream _
  refine ⟨fun i hi => gcLagged.stream_of_lt _ hi, hx, ?_⟩
  obtain ⟨outs, cs', -, hcalls, -, hout, -⟩ :=
    calls_stream gcCryptData_takes (gcGetNextKey_gives hx) hpieces (gcCreateKeys_at seed)
  refine ⟨outs, .gamecube cs', ?_, hout⟩
  rw [calls_cryptAll (fun cs data => cryptGcCryptData cs data data.length) CryptSetup.gamecube
    fun _ _ => Option.map_map .., hcalls]
  rfl

theorem gcStream_calls_word :
    let x := gcStream 0x12345678
    (∀ i < 521, x i = table 0 (gcFill 0x12345678) i) ∧ (∀ i, x (i + 521) = x (i + 489) ^^^ x i) ∧
      ∃ outs cs', calls (cryptAll false) (.gamecube (cryptGcCreateKeys 0x12345678))
          [[0x81, 0, 4, 0], [0x82, 0, 4, 0]] = some (outs, cs') ∧
        outs.flatten = Ship.cryptData (fun i b => b ^^^ streamByte x i) (4 * 2084)
          [0x81, 0, 4, 0, 0x82, 0, 4, 0] :=
  gcStream_calls 0x12345678 false (by decide)

/-- Every state of PSOPC is at a place of the stream from its own table. -/
theorem pcSetup_at (pc : PcSetup) :
    pc.At (pcLagged.stream (table 1 pc.keys)) (0 + (pc.pcPosn - 1)) := by
  have := pc.posn_le
  exact (Lagged.block_stream _).ready (by show _ ≤ 55; omega)

theorem gcSetup_at (cs : GcSetup) :
    cs.At (gcLagged.stream (table 0 cs.keys)) (0 + (cs.gcBlockPtr + 1)) :=
  (Lagged.block_stream _).ready cs.ptr_lt

/-- Whoever knows as many keys in a row as the table has knows all keys that follow: two
connections that agree on 55 keys of PSOPC, or on 521 of PSOGC, wherever they are in their
streams, agree on all later ones. -/
theorem keys_determined :
    (∀ a b : PcSetup,
      (∀ i < 55, nth cryptPcGetNextKey a i = nth cryptPcGetNextKey b i) →
        ∀ i, nth cryptPcGetNextKey a i = nth cryptPcGetNextKey b i) ∧
    ∀ a b : GcSetup,
      (∀ i < 521, nth cryptGcGetNextKey a i = nth cryptGcGetNextKey b i) →
        ∀ i, nth cryptGcGetNextKey a i = nth cryptGcGetNextKey b i := by
  refine ⟨fun a b hknown i => ?_, fun a b hknown i => ?_⟩
  · have hx := pcLagged.follows_stream (table 1 a.keys)
    have hy := pcLagged.follows_stream (table 1 b.keys)
    exact Gives.determined id (fun _ _ h => h) hx hy (pcGetNextKey_gives hx)
      (pcGetNextKey_gives hy) (pcSetup_at a) (pcSetup_at b) hknown i
  · have hx := gcLagged.follows_stream (table 0 a.keys)
    have hy := gcLagged.follows_stream (table 0 b.keys)
    exact Gives.determined id (fun _ _ h => h) hx hy (gcGetNextKey_gives hx)
      (gcGetNextKey_gives hy) (gcSetup_at a) (gcSetup_at b) hknown i

end Links

end Sylverant.Encryption
