/-
# The stream ciphers of PSOPC and PSOGC

Both ciphers keep a table of keys, hand out one key for each word of the data, and mix the whole
table when it is used up. What they add to the data is the stream of a recurrence with a lag: a
key of PSOPC is the one 55 places before less the one 24 places before, and a key of PSOGC is the
sum, bit by bit, of the ones 521 and 32 places before.

Words are little-endian. PSOGC adds a key to the word that a pointer is at in the statement that
moves the pointer on; here the word is the one before the pointer moves.
-/

import Sylverant.Library.LaggedBlock
import Sylverant.Library.WordCipher
import Sylverant.Ship.Framing

namespace Sylverant.Encryption

open LaggedBlock (Lagged fold_inv table table_of_lt)
open WordCipher (Gives Takes calls streamByte streamStep)

/-- The member `keys` of `CRYPT_SETUP`. -/
abbrev Keys := Vector UInt32 1042

/-- Set a key to what an operation makes of it and another one. -/
def combine (op : UInt32 → UInt32 → UInt32) (keys : Keys) (i j : Nat) (hi : i < 1042)
    (hj : j < 1042) : Keys :=
  keys.set i (op keys[i] keys[j])

/-- One key of a pass over the table. -/
theorem renewed_combine {g : Lagged UInt32} {op : UInt32 → UInt32 → UInt32}
    (hmake : ∀ a b c, g.make a b c = op a c) {x : Nat → UInt32} (hx : g.Follows x)
    {b k l i j start : Nat} {keys : Keys} (h : g.Renewed x b k (table start keys))
    (hk : k < g.size) {hi : i < 1042} {hj : j < 1042} (hik : i = start + k) (hjl : j = start + l)
    (hl : l = if k + g.lag < g.size then k + g.lag else k + g.lag - g.size) :
    g.Renewed x b (k + 1) (table start (combine op keys i j hi hj)) := by
  subst hik hjl
  refine h.set hx hk hi rfl rfl hl ?_
  rw [hmake, table_of_lt hi, table_of_lt hj]

/-! ## PSOPC -/

/-- A `CRYPT_SETUP` of type `CRYPT_PC`, after `CRYPT_CreateKeys`. -/
structure PcSetup where
  keys : Keys
  pcPosn : Nat
  posn_pos : 1 ≤ pcPosn
  posn_le : pcPosn ≤ 56

/-- `CRYPT_PC_MixKeys`. -/
def cryptPcMixKeys (keys : Keys) : Keys :=
  let keys := Nat.fold 0x18 (fun k _ keys =>
    combine (· - ·) keys (1 + k) (1 + k + 0x1F) (by omega) (by omega)) keys
  Nat.fold 0x1F (fun k _ keys =>
    combine (· - ·) keys (0x19 + k) (0x19 + k - 0x18) (by omega) (by omega)) keys

/-- The variables of the loop in `CRYPT_PC_CreateKeys`. -/
structure PcFill where
  esi : UInt32
  ebx : UInt32
  keys : Keys

/-- One round of it, in which `edi` is `0x15 * (j + 1)`. -/
def PcFill.round (j : Nat) (s : PcFill) : PcFill where
  esi := s.ebx - s.esi
  ebx := s.esi
  keys := s.keys.set (0x15 * (j + 1) % 55) s.esi

/-- The table that `CRYPT_PC_CreateKeys` fills, before it is mixed. -/
def pcFill (val : UInt32) : Keys :=
  let keys : Keys := ((Vector.replicate 1042 0).set 56 val).set 55 val
  (Nat.fold 54 (fun j _ s => s.round j) ⟨1, val, keys⟩ : PcFill).keys

/-- `CRYPT_PC_CreateKeys`. -/
def cryptPcCreateKeys (val : UInt32) : PcSetup where
  keys := cryptPcMixKeys (cryptPcMixKeys (cryptPcMixKeys (cryptPcMixKeys (pcFill val))))
  pcPosn := 56
  posn_pos := Nat.le_add_left 1 55
  posn_le := Nat.le_refl 56

/-- Mix the keys when all of them are used. -/
def PcSetup.refill (pc : PcSetup) : PcSetup :=
  if pc.pcPosn = 56 then ⟨cryptPcMixKeys pc.keys, 1, Nat.le_refl 1, Nat.le_add_right 1 55⟩ else pc

theorem PcSetup.refill_posn_lt (pc : PcSetup) : pc.refill.pcPosn < 56 := by
  have := pc.posn_le
  by_cases hend : pc.pcPosn = 56
  · rw [refill, if_pos hend]
    exact Nat.lt_add_of_pos_right (k := 55) (by decide)
  · rw [refill, if_neg hend]
    omega

/-- `CRYPT_PC_GetNextKey`. -/
def cryptPcGetNextKey (pc : PcSetup) : UInt32 × PcSetup :=
  have h := pc.refill_posn_lt
  (pc.refill.keys[pc.refill.pcPosn], ⟨pc.refill.keys, pc.refill.pcPosn + 1, Nat.le_add_left 1 _, h⟩)

/-- `CRYPT_PC_CryptData`. -/
def cryptPcCryptData (pc : PcSetup) (data : List UInt8) (size : Nat) :
    Option (List UInt8 × PcSetup) :=
  WordCipher.crypt 4 (streamStep cryptPcGetNextKey) ((size + 3) / 4) pc data

/-- The recurrence of PSOPC. -/
def pcLagged : Lagged UInt32 where
  size := 55
  lag := 31
  make a _ c := a - c
  one_lt := by decide
  lag_lt := by decide

/-- Mixing the keys makes the next 55 numbers of the stream. -/
theorem pcMixKeys_renews (keys : Keys) :
    pcLagged.Renews (table 1 keys) (table 1 (cryptPcMixKeys keys)) := by
  intro x b hx hblock
  have hlow : pcLagged.Renewed x b 0x18 (table 1 (Nat.fold 0x18 (fun k _ keys =>
      combine (· - ·) keys (1 + k) (1 + k + 0x1F) (by omega) (by omega)) keys)) := by
    refine fold_inv (fun k keys => pcLagged.Renewed x b k (table 1 keys))
      (Lagged.block_iff_renewed.mp hblock) fun k hk keys h => ?_
    exact renewed_combine (l := k + 31) (fun _ _ _ => rfl) hx h (by show k < 55; omega) rfl
      (by omega) (if_pos (by show k + 31 < 55; omega)).symm
  refine Lagged.Renewed.block ?_
  refine fold_inv (fun k keys => pcLagged.Renewed x b (0x18 + k) (table 1 keys)) hlow
    fun k hk keys h => ?_
  exact renewed_combine (l := k) (fun _ _ _ => rfl) hx h (by show 0x18 + k < 55; omega)
    (by omega) (by omega) (by rw [if_neg (by show ¬0x18 + k + 31 < 55; omega)]
                              show k = 0x18 + k + 31 - 55
                              omega)

/-- The setup is at a place of the stream. -/
def PcSetup.At (x : Nat → UInt32) (p : Nat) (pc : PcSetup) : Prop :=
  pcLagged.Ready x p (table 1 pc.keys) (pc.pcPosn - 1)

theorem PcSetup.At.refill {x : Nat → UInt32} (hx : pcLagged.Follows x) {p : Nat} {pc : PcSetup}
    (h : pc.At x p) : pc.refill.At x p := by
  by_cases hend : pc.pcPosn = 56
  · rw [PcSetup.refill, if_pos hend]
    rw [PcSetup.At, hend] at h
    exact h.renew hx (pcMixKeys_renews pc.keys)
  · rw [PcSetup.refill, if_neg hend]
    exact h

theorem pcGetNextKey_gives {x : Nat → UInt32} (hx : pcLagged.Follows x) :
    Gives cryptPcGetNextKey x (fun p pc => pc.At x p) := by
  intro p pc h
  have hready := h.refill hx
  have hpos := pc.refill.posn_pos
  have hlt := pc.refill_posn_lt
  have hused : pc.refill.pcPosn - 1 < pcLagged.size := by
    show _ < 55
    omega
  refine ⟨?_, ?_⟩
  · rw [← hready.value hused, table_of_lt (by omega)]
    simp only [cryptPcGetNextKey, Nat.add_sub_cancel' hpos]
  · show pcLagged.Ready x (p + 1) (table 1 pc.refill.keys) (pc.refill.pcPosn + 1 - 1)
    have hnext := hready.use hused
    rwa [Nat.sub_add_cancel hpos] at hnext

/-- The stream from the table that is filled with a seed. -/
def pcStream (val : UInt32) : Nat → UInt32 := pcLagged.stream (table 1 (pcFill val))

theorem pcCreateKeys_at (val : UInt32) : (cryptPcCreateKeys val).At (pcStream val) 275 := by
  have hx : pcLagged.Follows (pcStream val) := pcLagged.follows_stream _
  have hfill : pcLagged.Block (pcStream val) 0 (table 1 (pcFill val)) := Lagged.block_stream _
  have hmix (keys : Keys) {b : Nat} := pcMixKeys_renews keys (pcStream val) b hx
  exact (hmix _ (hmix _ (hmix _ (hmix _ hfill)))).ready (Nat.le_refl 55)

theorem pcCryptData_takes :
    Takes 4 (streamStep cryptPcGetNextKey) fun pc data => cryptPcCryptData pc data data.length :=
  WordCipher.crypt_takes (by decide)

/-! ## PSOGC -/

/-- A `CRYPT_SETUP` of type `CRYPT_GAMECUBE`, with the pointer into the keys as an index. The
end of the keys is always behind the first 521 ones. -/
structure GcSetup where
  keys : Keys
  gcBlockPtr : Nat
  ptr_lt : gcBlockPtr < 521

/-- `CRYPT_GC_MixKeys`. It also sets the pointer to the first key. -/
def cryptGcMixKeys (keys : Keys) : Keys :=
  let keys := Nat.fold 32 (fun k _ keys =>
    combine (fun r4 r0 => r0 ^^^ r4) keys k (489 + k) (by omega) (by omega)) keys
  Nat.fold 489 (fun k _ keys =>
    combine (fun r4 r0 => r0 ^^^ r4) keys (32 + k) k (by omega) (by omega)) keys

/-- The variables of the loops in `CRYPT_GC_CreateKeys` that make the first keys. -/
structure GcSeed where
  seed : UInt32
  basekey : UInt32

/-- Shift one bit of the seed into the key. -/
def GcSeed.bit (s : GcSeed) : GcSeed :=
  let seed : UInt32 := s.seed * 0x5D588B65 + 1
  let basekey : UInt32 := s.basekey >>> 1
  if seed &&& (0x80000000 : UInt32) ≠ 0 then ⟨seed, basekey ||| 0x80000000⟩
  else ⟨seed, basekey &&& 0x7FFFFFFF⟩

/-- The first 17 keys. -/
def gcSeedKeys (seed : UInt32) : Keys :=
  (Nat.fold 17 (fun x _ (s : GcSeed × Keys) =>
    let key := Nat.repeat GcSeed.bit 32 s.1
    (key, s.2.set x key.basekey)) (⟨seed, 0⟩, Vector.replicate 1042 0)).2

/-- A key behind them, from those that the three source pointers are at. -/
def gcNextKey (source1 source2 source3 : UInt32) : UInt32 :=
  let high : UInt32 := (source1 <<< 23) &&& (0xFF800000 : UInt32)
  let low : UInt32 := (source2 >>> 9) &&& (0x007FFFFF : UInt32)
  source3 ^^^ (high ^^^ low)

/-- The table that `CRYPT_GC_CreateKeys` fills, before it is mixed. -/
def gcFill (seed : UInt32) : Keys :=
  let keys := gcSeedKeys seed
  let keys := keys.set 16 (((keys[0] >>> 9) ^^^ (keys[16] <<< 23)) ^^^ keys[15])
  Nat.fold 504 (fun k _ keys =>
    keys.set (17 + k) (gcNextKey keys[k] keys[1 + k] keys[16 + k])) keys

/-- `CRYPT_GC_CreateKeys`. The seed that it keeps is never read. -/
def cryptGcCreateKeys (seed : UInt32) : GcSetup where
  keys := cryptGcMixKeys (cryptGcMixKeys (cryptGcMixKeys (gcFill seed)))
  gcBlockPtr := 520
  ptr_lt := Nat.lt_succ_self 520

/-- Move the pointer to the next key, and mix the keys when it reaches their end. -/
def GcSetup.advance (cs : GcSetup) : GcSetup :=
  if h : cs.gcBlockPtr + 1 < 521 then ⟨cs.keys, cs.gcBlockPtr + 1, h⟩
  else ⟨cryptGcMixKeys cs.keys, 0, Nat.succ_pos 520⟩

/-- `CRYPT_GC_GetNextKey`. -/
def cryptGcGetNextKey (cs : GcSetup) : UInt32 × GcSetup :=
  have h := cs.advance.ptr_lt
  (cs.advance.keys[cs.advance.gcBlockPtr], cs.advance)

/-- `CRYPT_GC_CryptData`. -/
def cryptGcCryptData (cs : GcSetup) (data : List UInt8) (size : Nat) :
    Option (List UInt8 × GcSetup) :=
  WordCipher.crypt 4 (streamStep cryptGcGetNextKey) ((size + 3) / 4) cs data

/-- The recurrence of PSOGC. -/
def gcLagged : Lagged UInt32 where
  size := 521
  lag := 489
  make a _ c := c ^^^ a
  one_lt := by decide
  lag_lt := by decide

/-- Mixing the keys makes the next 521 numbers of the stream. -/
theorem gcMixKeys_renews (keys : Keys) :
    gcLagged.Renews (table 0 keys) (table 0 (cryptGcMixKeys keys)) := by
  intro x b hx hblock
  have hlow : gcLagged.Renewed x b 32 (table 0 (Nat.fold 32 (fun k _ keys =>
      combine (fun r4 r0 => r0 ^^^ r4) keys k (489 + k) (by omega) (by omega)) keys)) := by
    refine fold_inv (fun k keys => gcLagged.Renewed x b k (table 0 keys))
      (Lagged.block_iff_renewed.mp hblock) fun k hk keys h => ?_
    exact renewed_combine (l := k + 489) (fun _ _ _ => rfl) hx h (by show k < 521; omega)
      (by omega) (by omega) (if_pos (by show k + 489 < 521; omega)).symm
  refine Lagged.Renewed.block ?_
  refine fold_inv (fun k keys => gcLagged.Renewed x b (32 + k) (table 0 keys)) hlow
    fun k hk keys h => ?_
  refine renewed_combine (l := k) (fun _ _ _ => rfl) hx h (by show 32 + k < 521; omega)
    (by omega) (by omega) ?_
  rw [if_neg (by show ¬32 + k + 489 < 521; omega)]
  show k = 32 + k + 489 - 521
  omega

/-- The setup is at a place of the stream. Its pointer is at the key that was used last. -/
def GcSetup.At (x : Nat → UInt32) (p : Nat) (cs : GcSetup) : Prop :=
  gcLagged.Ready x p (table 0 cs.keys) (cs.gcBlockPtr + 1)

theorem gcGetNextKey_gives {x : Nat → UInt32} (hx : gcLagged.Follows x) :
    Gives cryptGcGetNextKey x (fun p cs => cs.At x p) := by
  intro p cs h
  have hadvance : gcLagged.Ready x p (table 0 cs.advance.keys) cs.advance.gcBlockPtr := by
    by_cases hlt : cs.gcBlockPtr + 1 < 521
    · rw [GcSetup.advance, dif_pos hlt]
      exact h
    · have hend : cs.gcBlockPtr + 1 = gcLagged.size :=
        Nat.le_antisymm cs.ptr_lt (Nat.not_lt.mp hlt)
      rw [GcSetup.At, hend] at h
      rw [GcSetup.advance, dif_neg hlt]
      exact h.renew hx (gcMixKeys_renews cs.keys)
  have hlt := cs.advance.ptr_lt
  refine ⟨?_, hadvance.use hlt⟩
  rw [← hadvance.value hlt, table_of_lt (by omega)]
  simp only [cryptGcGetNextKey, Nat.zero_add]

/-- The stream from the table that is filled with a seed. -/
def gcStream (seed : UInt32) : Nat → UInt32 := gcLagged.stream (table 0 (gcFill seed))

theorem gcCreateKeys_at (seed : UInt32) : (cryptGcCreateKeys seed).At (gcStream seed) 2084 := by
  have hx : gcLagged.Follows (gcStream seed) := gcLagged.follows_stream _
  have hfill : gcLagged.Block (gcStream seed) 0 (table 0 (gcFill seed)) := Lagged.block_stream _
  have hmix (keys : Keys) {b : Nat} := gcMixKeys_renews keys (gcStream seed) b hx
  exact (hmix _ (hmix _ (hmix _ hfill))).ready (Nat.le_refl 521)

theorem gcCryptData_takes :
    Takes 4 (streamStep cryptGcGetNextKey) fun cs data => cryptGcCryptData cs data data.length :=
  WordCipher.crypt_takes (by decide)

end Sylverant.Encryption
