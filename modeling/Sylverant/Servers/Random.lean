/-
# Random numbers

The generator `mt19937` makes 624 numbers at a time, in place, and hands them out one by one. The
numbers are a stream with a recurrence, of which each is tempered before it is handed out.
Tempering loses nothing, so whoever has seen 624 numbers in a row knows all later ones.

`genrand_int32`, which keeps a state for the whole program, is left out: it ends without a value.
-/

import Sylverant.Library.WordCipher

namespace Sylverant.Servers

open LaggedBlock (Lagged fold_inv table table_of_lt table_set_ne table_set_self)
open WordCipher (Gives nth)

/-- `struct mt19937_state`, after `mt19937_init`. -/
structure Mt19937State where
  mt : Vector UInt32 624
  mti : Nat
  mti_le : mti ≤ 624

/-- The number behind another one in the table that `mt19937_init` fills. -/
def mtSeed (previous : UInt32) (mti : Nat) : UInt32 :=
  (1812433253 : UInt32) * (previous ^^^ (previous >>> 30)) + UInt32.ofNat mti

/-- The table that `mt19937_init` fills. -/
def mtFill (s : UInt32) : Vector UInt32 624 :=
  Nat.fold 623 (fun i _ mt => mt.set (i + 1) (mtSeed mt[i] (i + 1)))
    ((Vector.replicate 624 (0 : UInt32)).set 0 s)

/-- `mt19937_init`. -/
def mt19937Init (s : UInt32) : Mt19937State where
  mt := mtFill s
  mti := 624
  mti_le := Nat.le_refl 624

/-- A new number, from the one in its place, the one after it, and a third one. -/
def mtMake (here after third : UInt32) : UInt32 :=
  let y : UInt32 := (here &&& 0x80000000) ||| (after &&& 0x7fffffff)
  third ^^^ (y >>> 1) ^^^ (if y &&& (1 : UInt32) = 0 then 0 else 0x9908b0df)

/-- Put the new number in its place. -/
def mtSet (mt : Vector UInt32 624) (k i j : Nat) (hk : k < 624) (hi : i < 624) (hj : j < 624) :
    Vector UInt32 624 :=
  mt.set k (mtMake mt[k] mt[i] mt[j])

/-- The loops of `mt19937_genrand_int32` that generate the numbers. -/
def mtGenerate (mt : Vector UInt32 624) : Vector UInt32 624 :=
  let mt := Nat.fold 227 (fun kk _ mt =>
    mtSet mt kk (kk + 1) (kk + 397) (by omega) (by omega) (by omega)) mt
  let mt := Nat.fold 396 (fun k _ mt =>
    mtSet mt (227 + k) (227 + k + 1) k (by omega) (by omega) (by omega)) mt
  mtSet mt 623 0 396 (by decide) (by decide) (by decide)

/-- The tempering in `mt19937_genrand_int32`. -/
def temper (y : UInt32) : UInt32 :=
  let y := y ^^^ (y >>> 11)
  let y := y ^^^ ((y <<< 7) &&& 0x9d2c5680)
  let y := y ^^^ ((y <<< 15) &&& 0xefc60000)
  y ^^^ (y >>> 18)

/-- Generate the numbers when all of them are used. -/
def Mt19937State.refill (rng : Mt19937State) : Mt19937State :=
  if 624 ≤ rng.mti then ⟨mtGenerate rng.mt, 0, Nat.zero_le 624⟩ else rng

theorem Mt19937State.refill_lt (rng : Mt19937State) : rng.refill.mti < 624 := by
  by_cases hend : 624 ≤ rng.mti
  · rw [refill, if_pos hend]
    exact Nat.succ_pos 623
  · rw [refill, if_neg hend]
    exact Nat.not_le.mp hend

/-- `mt19937_genrand_int32`. -/
def mt19937GenrandInt32 (rng : Mt19937State) : UInt32 × Mt19937State :=
  have h := rng.refill_lt
  (temper rng.refill.mt[rng.refill.mti], ⟨rng.refill.mt, rng.refill.mti + 1, h⟩)

/-! ## The stream -/

/-- The recurrence of the generator. -/
def mtLagged : Lagged UInt32 where
  size := 624
  lag := 397
  make := mtMake
  one_lt := by decide
  lag_lt := by decide

/-- Generating the numbers makes the next 624 of the stream. -/
theorem mtGenerate_renews (mt : Vector UInt32 624) :
    mtLagged.Renews (table 0 mt) (table 0 (mtGenerate mt)) := by
  intro x b hx hblock
  have hset {k i j : Nat} {v : Vector UInt32 624} (h : mtLagged.Renewed x b k (table 0 v))
      (hk : k < 624) (hi : i < 624) (hj : j < 624)
      (hi' : i = if k + 1 < 624 then k + 1 else k + 1 - 624)
      (hj' : j = if k + 397 < 624 then k + 397 else k + 397 - 624) :
      mtLagged.Renewed x b (k + 1) (table 0 (mtSet v k i j hk hi hj)) := by
    refine h.set hx hk hk (Nat.zero_add k).symm hi' hj' ?_
    rw [table_of_lt (by omega), table_of_lt (by omega), table_of_lt (by omega)]
    simp only [Nat.zero_add]
    rfl
  have hlow : mtLagged.Renewed x b 227 (table 0 (Nat.fold 227 (fun kk _ mt =>
      mtSet mt kk (kk + 1) (kk + 397) (by omega) (by omega) (by omega)) mt)) := by
    refine fold_inv (fun k v => mtLagged.Renewed x b k (table 0 v))
      (Lagged.block_iff_renewed.mp hblock) fun k hk v h => ?_
    exact hset h (by omega) (by omega) (by omega) (if_pos (by omega)).symm
      (if_pos (by omega)).symm
  refine Lagged.Renewed.block ?_
  refine hset ?_ (by omega) (by omega) (by omega) rfl rfl
  refine fold_inv (fun k v => mtLagged.Renewed x b (227 + k) (table 0 v)) hlow fun k hk v h => ?_
  refine hset h (by omega) (by omega) (by omega) (if_pos (by omega)).symm ?_
  rw [if_neg (by omega)]
  omega

/-- The state is at a place of the stream. -/
def Mt19937State.At (x : Nat → UInt32) (p : Nat) (rng : Mt19937State) : Prop :=
  mtLagged.Ready x p (table 0 rng.mt) rng.mti

theorem genrandInt32_gives {x : Nat → UInt32} (hx : mtLagged.Follows x) :
    Gives mt19937GenrandInt32 (fun i => temper (x i)) (fun p rng => rng.At x p) := by
  intro p rng h
  have hrefill : mtLagged.Ready x p (table 0 rng.refill.mt) rng.refill.mti := by
    by_cases hend : 624 ≤ rng.mti
    · have hall : rng.mti = mtLagged.size := Nat.le_antisymm rng.mti_le hend
      rw [Mt19937State.At, hall] at h
      rw [Mt19937State.refill, if_pos hend]
      exact h.renew hx (mtGenerate_renews rng.mt)
    · rw [Mt19937State.refill, if_neg hend]
      exact h
  have hlt := rng.refill_lt
  refine ⟨?_, hrefill.use hlt⟩
  dsimp only
  rw [← hrefill.value hlt, table_of_lt (by omega)]
  simp only [mt19937GenrandInt32, Nat.zero_add]

/-! ## Tempering -/

theorem xor_swap {a b c d : UInt32} (h : a ^^^ b = c ^^^ d) : a ^^^ c = b ^^^ d := by
  have hsame : (a ^^^ c) ^^^ (b ^^^ d) = (a ^^^ b) ^^^ (c ^^^ d) := by ac_rfl
  rw [← UInt32.xor_eq_zero_iff, hsame, h, UInt32.xor_self]

theorem xor_and (a b m : UInt32) : (a ^^^ b) &&& m = (a &&& m) ^^^ (b &&& m) := by
  apply UInt32.eq_of_toBitVec_eq
  apply BitVec.eq_of_getLsbD_eq
  intro i _
  simp [Bool.and_xor_distrib_right]

theorem xor_shiftRight_inj {s x y : UInt32} (hs : 0 < s.toNat % 32)
    (h : x ^^^ (x >>> s) = y ^^^ (y >>> s)) : x = y := by
  have hdiff : x ^^^ y = (x ^^^ y) >>> s := by
    rw [UInt32.shiftRight_xor]
    exact xor_swap h
  have hnat : (x ^^^ y).toNat = (x ^^^ y).toNat / 2 ^ (s.toNat % 32) := by
    conv_lhs => rw [hdiff, UInt32.toNat_shiftRight, Nat.shiftRight_eq_div_pow]
  have hzero : (x ^^^ y).toNat = 0 := by
    by_contra hne
    have hlt := Nat.div_lt_self (Nat.pos_of_ne_zero hne) (Nat.one_lt_two_pow hs.ne')
    omega
  exact UInt32.xor_eq_zero_iff.mp (UInt32.toNat_inj.mp hzero)

theorem xor_shiftLeft_inj {s m x y : UInt32} (hs : 0 < s.toNat % 32)
    (h : x ^^^ ((x <<< s) &&& m) = y ^^^ ((y <<< s) &&& m)) : x = y := by
  have hdiff : x ^^^ y = ((x ^^^ y) <<< s) &&& m := by
    rw [UInt32.shiftLeft_xor, xor_and]
    exact xor_swap h
  have hbit (i : Nat) : (x ^^^ y).toBitVec.getLsbD i = false := by
    induction i using Nat.strongRecOn with
    | ind i ih =>
        rw [hdiff]
        by_cases hlow : i < s.toNat % 32
        · simp [hlow]
        · have hprev := ih (i - s.toNat % 32) (by omega)
          simp at hprev
          simp [hprev]
  refine UInt32.xor_eq_zero_iff.mp (UInt32.eq_of_toBitVec_eq (BitVec.eq_of_getLsbD_eq ?_))
  intro i _
  rw [hbit i]
  simp

/-- Different numbers are tempered to different ones. -/
theorem temper_injective (x y : UInt32) (h : temper x = temper y) : x = y :=
  xor_shiftRight_inj (by decide) (xor_shiftLeft_inj (by decide) (xor_shiftLeft_inj (by decide)
    (xor_shiftRight_inj (by decide) h)))

/-! ## The numbers of a seed -/

/-- The stream from the table that is filled with a seed. -/
def mtStream (s : UInt32) : Nat → UInt32 := mtLagged.stream (table 0 (mtFill s))

/-- The table starts with the seed, and each number is made from the one before it. -/
theorem mtFill_eq (s : UInt32) :
    table 0 (mtFill s) 0 = s ∧
      ∀ i < 623, table 0 (mtFill s) (i + 1) = mtSeed (table 0 (mtFill s) i) (i + 1) := by
  refine fold_inv (fun k (v : Vector UInt32 624) => table 0 v 0 = s ∧
    ∀ i < k, table 0 v (i + 1) = mtSeed (table 0 v i) (i + 1)) ?_ ?_
  · exact ⟨table_set_self (by omega) rfl, fun i hi => absurd hi (Nat.not_lt_zero i)⟩
  · rintro k hk v ⟨hfirst, hmade⟩
    have hkeep (i : Nat) (hi : i ≤ k) (a : UInt32) :
        table 0 (v.set (k + 1) a) i = table 0 v i := table_set_ne (by omega) (by omega)
    refine ⟨by rw [hkeep 0 (Nat.zero_le k), hfirst], fun i hi => ?_⟩
    rcases Nat.lt_or_eq_of_le (Nat.le_of_lt_succ hi) with hlt | rfl
    · rw [hkeep (i + 1) hlt, hkeep i (Nat.le_of_lt hlt), hmade i hlt]
    · have hcell : table 0 v i = v[i] := by
        rw [table_of_lt (by omega)]
        simp only [Nat.zero_add]
      rw [hkeep i (Nat.le_refl i), table_set_self (by omega) (by omega), hcell]

/-- The numbers that are handed out after a seed are those of the stream behind the table that
the seed fills, tempered. -/
theorem mt19937_numbers (s : UInt32) :
    mtStream s 0 = s ∧
      (∀ i < 623, mtStream s (i + 1) = mtSeed (mtStream s i) (i + 1)) ∧
      (∀ i, mtStream s (i + 624) =
        mtMake (mtStream s i) (mtStream s (i + 1)) (mtStream s (i + 397))) ∧
      ∀ i, nth mt19937GenrandInt32 (mt19937Init s) i = temper (mtStream s (624 + i)) := by
  have hx : mtLagged.Follows (mtStream s) := mtLagged.follows_stream _
  have hfill (i : Nat) (hi : i < 624) : mtStream s i = table 0 (mtFill s) i :=
    mtLagged.stream_of_lt _ hi
  obtain ⟨hfirst, hmade⟩ := mtFill_eq s
  refine ⟨by rw [hfill 0 (by omega), hfirst], fun i hi => ?_, hx, fun i => ?_⟩
  · rw [hfill (i + 1) (by omega), hfill i (by omega), hmade i hi]
  · have hstart : (mt19937Init s).At (mtStream s) (0 + 624) :=
      (Lagged.block_stream (table 0 (mtFill s))).ready (Nat.le_refl 624)
    rw [(genrandInt32_gives hx).nth_eq hstart, Nat.zero_add]

/-- Two generators, in any states, that hand out the same 624 numbers in a row hand out the same
numbers from there on. -/
theorem mt19937_determined (a b : Mt19937State)
    (hknown : ∀ i < 624, nth mt19937GenrandInt32 a i = nth mt19937GenrandInt32 b i) (i : Nat) :
    nth mt19937GenrandInt32 a i = nth mt19937GenrandInt32 b i := by
  have hstate (rng : Mt19937State) :
      rng.At (mtLagged.stream (table 0 rng.mt)) (0 + rng.mti) :=
    (Lagged.block_stream _).ready rng.mti_le
  have hx := mtLagged.follows_stream (table 0 a.mt)
  have hy := mtLagged.follows_stream (table 0 b.mt)
  exact Gives.determined temper temper_injective hx hy (genrandInt32_gives hx)
    (genrandInt32_gives hy) (hstate a) (hstate b) hknown i

/-- A generator that was just seeded, and one that has made its first numbers already. -/
theorem mt19937_determined_refilled :
    nth mt19937GenrandInt32 (mt19937Init 5) 5000 =
      nth mt19937GenrandInt32 ⟨mtGenerate (mtFill 5), 0, Nat.zero_le 624⟩ 5000 := by
  have hnext : mt19937GenrandInt32 (mt19937Init 5) =
      mt19937GenrandInt32 ⟨mtGenerate (mtFill 5), 0, Nat.zero_le 624⟩ := by
    have hrefill : (mt19937Init 5).refill = ⟨mtGenerate (mtFill 5), 0, Nat.zero_le 624⟩ := by
      rw [Mt19937State.refill, if_pos (by exact Nat.le_refl 624)]
      rfl
    have hstay : (⟨mtGenerate (mtFill 5), 0, Nat.zero_le 624⟩ : Mt19937State).refill =
        ⟨mtGenerate (mtFill 5), 0, Nat.zero_le 624⟩ := by
      rw [Mt19937State.refill, if_neg (by exact Nat.not_succ_le_zero 623)]
    simp only [mt19937GenrandInt32, hrefill, hstay]
  refine mt19937_determined _ _ (fun i _ => ?_) 5000
  cases i with
  | zero => exact congrArg Prod.fst hnext
  | succ i => rw [nth, nth, hnext]

end Sylverant.Servers
