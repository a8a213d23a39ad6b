/-
# Weapons by their weights

What the generators for weapons make, if the entry is valid: the type that is chosen by
the ratios of the types that can be made in the area, the rank of its weapons there, the
grind from the column for what is left of the area, and in each of three rounds at most
one percentage, for an attribute that has none yet. The element of a weapon is put over
the word that has the first percentage.
-/

import Sylverant.Library.BitMask
import Sylverant.Ship.WeightedDrops

namespace Sylverant.Ship.Pt

open BitMask Weighted

variable {ent : PtEntry} {area : Int} {percents : Nat} {s : GenState}

/-! ## Bytes of items -/

namespace GenItem

/-- `item_b[i]` of the second and the third word. -/
def byte (it : GenItem) (i : Nat) : UInt8 :=
  if i < 8 then (it.w1 >>> (8 * (i - 4)).toUInt32).toUInt8
  else (it.w2 >>> (8 * (i - 8)).toUInt32).toUInt8

/-- The place of a byte in a word, as a shift has it. -/
theorem toNat_shift : ∀ k < 4, ((8 * k).toUInt32.toBitVec % 32).toNat = 8 * k := by decide

theorem getLsbD_putByte (w : UInt32) (b : UInt8) {k : Nat} (i : Nat) (hk : k < 4) :
    (putByte w k b).toBitVec.getLsbD i =
      if 8 * k ≤ i ∧ i < 8 * k + 8 then b.toBitVec.getLsbD (i - 8 * k)
      else w.toBitVec.getLsbD i := by
  have hmask : (0xFF : UInt32).toBitVec = BitVec.setWidth 32 (BitVec.allOnes 8) := by decide
  have hshift := toNat_shift k hk
  simp only [putByte, UInt32.toBitVec_or, UInt32.toBitVec_and, UInt32.toBitVec_not,
    UInt32.toBitVec_shiftLeft, UInt8.toBitVec_toUInt32, hmask, BitVec.getLsbD_or,
    BitVec.getLsbD_and, BitVec.getLsbD_not, BitVec.shiftLeft_eq', BitVec.getLsbD_shiftLeft,
    hshift, BitVec.getLsbD_setWidth, BitVec.getLsbD_allOnes]
  by_cases hi : 32 ≤ i
  · have hout : ¬(8 * k ≤ i ∧ i < 8 * k + 8) := by omega
    rw [if_neg hout, w.toBitVec.getLsbD_of_ge i hi]
    simp [not_lt.mpr hi]
  · have h32 : i - 8 * k < 32 := by omega
    by_cases hlow : i < 8 * k
    · have hout : ¬(8 * k ≤ i ∧ i < 8 * k + 8) := by omega
      rw [if_neg hout]
      simp [hlow]
      omega
    · by_cases hhigh : i < 8 * k + 8
      · have hin : 8 * k ≤ i ∧ i < 8 * k + 8 := ⟨not_lt.mp hlow, hhigh⟩
        have h8 : i - 8 * k < 8 := by omega
        rw [if_pos hin]
        simp [hlow, h8, h32, not_le.mp hi]
      · have hout : ¬(8 * k ≤ i ∧ i < 8 * k + 8) := fun h => hhigh h.2
        have h8 : ¬i - 8 * k < 8 := by omega
        rw [if_neg hout, b.toBitVec.getLsbD_of_ge (i - 8 * k) (by omega)]
        simp [hlow, h8, h32, not_le.mp hi]

theorem getLsbD_byte (w : UInt32) {k j : Nat} (hk : k < 4) (hj : j < 8) :
    (w >>> (8 * k).toUInt32).toUInt8.toBitVec.getLsbD j = w.toBitVec.getLsbD (8 * k + j) := by
  have hshift := toNat_shift k hk
  rw [UInt32.toBitVec_toUInt8, UInt32.toBitVec_shiftRight, BitVec.getLsbD_setWidth,
    BitVec.ushiftRight_eq', BitVec.getLsbD_ushiftRight, hshift]
  simp [hj]

/-- A byte of a word after an assignment to one of its bytes. -/
theorem byte_putByte (w : UInt32) (b : UInt8) {k k' : Nat} (hk : k < 4) (hk' : k' < 4) :
    (putByte w k b >>> (8 * k').toUInt32).toUInt8 =
      if k' = k then b else (w >>> (8 * k').toUInt32).toUInt8 := by
  apply UInt8.eq_of_toBitVec_eq
  apply BitVec.eq_of_getLsbD_eq
  intro j hj
  rw [getLsbD_byte _ hk' hj, getLsbD_putByte w b _ hk]
  split
  next hin =>
    have heq : k' = k := by omega
    rw [if_pos heq]
    congr 1
    omega
  next hout =>
    have hne : k' ≠ k := by omega
    rw [if_neg hne, getLsbD_byte w hk' hj]

theorem byte_setByte (it : GenItem) {i i' : Nat} (b : UInt8) (hlow : 4 ≤ i) (hhigh : i < 12)
    (hlow' : 4 ≤ i') (hhigh' : i' < 12) :
    (it.setByte i b).byte i' = if i' = i then b else it.byte i' := by
  rw [setByte, byte, byte]
  by_cases hi : i < 8
  · rw [if_pos hi]
    by_cases hi' : i' < 8
    · simp only [hi', if_true, byte_putByte it.w1 b (show i - 4 < 4 by omega)
        (show i' - 4 < 4 by omega)]
      congr 1
      simp only [eq_iff_iff]
      omega
    · have hne : i' ≠ i := by omega
      simp only [hi', hne, if_false]
  · rw [if_neg hi]
    by_cases hi' : i' < 8
    · have hne : i' ≠ i := by omega
      simp only [hi', hne, if_true, if_false]
    · simp only [hi', if_false, byte_putByte it.w2 b (show i - 8 < 4 by omega)
        (show i' - 8 < 4 by omega)]
      congr 1
      simp only [eq_iff_iff]
      omega

end GenItem

/-! ## Types of weapons -/

section Types

variable (ent area) (k : Nat)

/-- A type of weapon that can be made in an area. -/
def Available : Prop := (ent.weaponMinrank k).toInt + area ≥ 0 ∧ (ent.weaponRatio k).toInt > 0

instance : DecidablePred (Available ent area) := fun _ => inferInstanceAs (Decidable (_ ∧ _))

/-- The weight of a type of weapon in an area. -/
def share : Int := if Available ent area k then (ent.weaponRatio k).toInt else 0

/-- The effective area for a type of weapon. -/
def effectiveArea : Int :=
  if 0 ≤ (ent.weaponMinrank k).toInt then area else (ent.weaponMinrank k).toInt + area

/-- The rank that weapons of a type have in an area. -/
def weaponRank : Int :=
  max (ent.weaponMinrank k).toInt 0 + effectiveArea ent area k / (ent.weaponUpgfloor k).toInt

/-- The column of the power patterns for weapons of a type. -/
def grindColumn : Int := min (effectiveArea ent area k % (ent.weaponUpgfloor k).toInt) 3

/-- Each type of weapon that can be made has a value that the loop over the areas ends for. -/
def Upgradable : Prop := ∀ k < 12, Available ent area k → 0 < (ent.weaponUpgfloor k).toInt

end Types

/-- The loop that raises a rank ends, with the quotient and the remainder. -/
theorem upgradeLoop_eq {upgfloor : Int} (hupg : 0 < upgfloor) {rounds : Nat} (rank : Int)
    {warea : Int} (h0 : 0 ≤ warea) (hrounds : warea < rounds) :
    upgradeLoop upgfloor rounds rank warea = (rank + warea / upgfloor, warea % upgfloor) := by
  induction rounds generalizing rank warea with
  | zero => omega
  | succ rounds ih =>
      rw [upgradeLoop]
      split
      next h =>
        have hdiv : (warea - upgfloor) / upgfloor = warea / upgfloor - 1 := by
          rw [Int.sub_ediv_of_dvd _ (dvd_refl _), Int.ediv_self hupg.ne']
        rw [ih (rank + 1) h (by omega), hdiv, Int.sub_emod_right, add_add_sub_cancel]
      next h =>
        have hlt : warea < upgfloor := by omega
        rw [Int.ediv_eq_zero_of_lt h0 hlt, Int.emod_eq_of_lt h0 hlt, add_zero]

theorem weaponType_eq (ha : 0 ≤ area) {k : Nat} (hav : Available ent area k)
    (hupg : 0 < (ent.weaponUpgfloor k).toInt) :
    weaponType ent area k =
      { kind := k, rank := weaponRank ent area k, pattern := grindColumn ent area k } := by
  have h0 : 0 ≤ effectiveArea ent area k := by
    have := hav.1
    rw [effectiveArea]
    split <;> omega
  have hloop (rank : Int) : upgradeLoop (ent.weaponUpgfloor k).toInt
      ((effectiveArea ent area k).toNat + 1) rank (effectiveArea ent area k) =
        (rank + effectiveArea ent area k / (ent.weaponUpgfloor k).toInt,
          effectiveArea ent area k % (ent.weaponUpgfloor k).toInt) :=
    upgradeLoop_eq hupg rank h0 (by omega)
  rw [weaponRank, grindColumn]
  by_cases hmin : 0 ≤ (ent.weaponMinrank k).toInt
  · have heff : effectiveArea ent area k = area := if_pos hmin
    rw [heff] at hloop ⊢
    simp only [weaponType, ge_iff_le, hmin, if_true, hloop, max_eq_left]
  · have heff : effectiveArea ent area k = (ent.weaponMinrank k).toInt + area := if_neg hmin
    rw [heff] at hloop ⊢
    rw [not_le] at hmin
    simp only [weaponType, ge_iff_le, not_le.mpr hmin, if_false, hloop, max_eq_right hmin.le]

theorem weaponTypes_succ (ent : PtEntry) (area : Int) (left i : Nat) :
    weaponTypes ent area (left + 1) i =
      if Available ent area i then
        if (ent.weaponUpgfloor i).toInt ≤ 0 then .error (-1)
        else (weaponTypes ent area left (i + 1)).map (weaponType ent area i :: ·)
      else weaponTypes ent area left (i + 1) := rfl

/-- The loop over the types gives up at one that it would not end for. -/
theorem weaponTypes_error {left i : Nat}
    (hk : ∃ k, i ≤ k ∧ k < i + left ∧ Available ent area k ∧
      (ent.weaponUpgfloor k).toInt ≤ 0) : weaponTypes ent area left i = .error (-1) := by
  induction left generalizing i with
  | zero =>
      obtain ⟨k, hle, hlt, -⟩ := hk
      omega
  | succ left ih =>
      obtain ⟨k, hle, hlt, hav, hupg⟩ := hk
      have hlater (hne : i ≠ k) : weaponTypes ent area left (i + 1) = .error (-1) :=
        ih ⟨k, by omega, by omega, hav, hupg⟩
      rw [weaponTypes_succ]
      split
      next hi =>
        split
        next hfloor => rfl
        next hfloor =>
          rw [hlater fun heq => hfloor (heq ▸ hupg)]
          rfl
      next hi => exact hlater fun heq => hi (heq ▸ hav)

/-- The loop over the types finds those that can be made. -/
theorem weaponTypes_ok {left i : Nat}
    (hupg : ∀ k, i ≤ k → k < i + left → Available ent area k →
      0 < (ent.weaponUpgfloor k).toInt) :
    weaponTypes ent area left i =
      .ok (((List.range' i left).filter (Available ent area)).map (weaponType ent area)) := by
  induction left generalizing i with
  | zero => rfl
  | succ left ih =>
      have hrest := ih (i := i + 1) fun k hle hlt => hupg k (by omega) (by omega)
      rw [weaponTypes_succ, List.range'_succ, List.filter_cons]
      by_cases hi : Available ent area i
      · have hfloor : ¬(ent.weaponUpgfloor i).toInt ≤ 0 :=
          not_le.mpr (hupg i (le_refl i) (by omega) hi)
        rw [if_pos hi, if_neg hfloor, hrest, if_pos (decide_eq_true hi)]
        rfl
      · rw [if_neg hi, hrest, if_neg (by simpa using hi)]

/-! ## The type of a common weapon -/

/-- The sum of the ratios of the types that can be made, `wchance`. -/
def totalShare (ent : PtEntry) (area : Int) : Nat := (before (share ent area) 12).toNat

/-- The code of the weapons of a type, without a grind. -/
def weaponCode (ent : PtEntry) (area : Int) (k : Nat) : UInt32 :=
  (UInt32.ofNat (k + 1) <<< 8) ||| (UInt32.ofInt (weaponRank ent area k) <<< 16)

theorem share_nonneg (ent : PtEntry) (area : Int) (k : Nat) : 0 ≤ share ent area k := by
  rw [share]
  split
  next h => exact (le_of_lt h.2)
  next h => exact le_refl 0

theorem share_lt (ent : PtEntry) (area : Int) (k : Nat) : share ent area k < 128 := by
  have := (ent.weaponRatio k).toInt_lt
  rw [share]
  split <;> omega

theorem share_available {k : Nat} (h : 0 < share ent area k) : Available ent area k := by
  by_contra hav
  rw [share, if_neg hav] at h
  exact absurd h (lt_irrefl 0)

theorem before_share_le (ent : PtEntry) (area : Int) (n : Nat) :
    before (share ent area) n ≤ 127 * n := by
  induction n with
  | zero => simp
  | succ n ih =>
      have := share_lt ent area n
      rw [before_succ]
      omega

theorem weaponCode_ne_zero {k : Nat} (hk : k < 12) : weaponCode ent area k ≠ 0 := by
  have hkind : ∀ k < 12, UInt32.ofNat (k + 1) <<< 8 ≠ 0 := by decide
  intro hzero
  exact hkind k hk (UInt32.or_eq_zero_iff.mp hzero).1

/-- The sum over the types that are found is the one over all types. -/
theorem sum_types (ent : PtEntry) (area : Int) (left i : Nat) :
    before (share ent area) i +
      ((((List.range' i left).filter (Available ent area)).map (weaponType ent area)).map
        fun t => (ent.weaponRatio t.kind).toInt).sum = before (share ent area) (i + left) := by
  induction left generalizing i with
  | zero => simp
  | succ left ih =>
      have hrest := ih (i + 1)
      rw [before_succ, show i + 1 + left = i + (left + 1) by omega] at hrest
      rw [← hrest, List.range'_succ, List.filter_cons]
      by_cases hav : Available ent area i
      · rw [if_pos (decide_eq_true hav), share, if_pos hav, List.map_cons, List.map_cons,
          List.sum_cons, ← add_assoc]
        rfl
      · rw [if_neg (by simpa using hav), share, if_neg hav, add_zero]

theorem totalShare_eq (ent : PtEntry) (area : Int) :
    (totalShare ent area : Int) = before (share ent area) 12 := by
  refine Int.toNat_of_nonneg ?_
  simpa using before_mono (fun k _ => share_nonneg ent area k) (Nat.zero_le 12) (le_refl 12)

/-- Where no type of weapon can be made, or one that would not end the loop over the areas,
there is no weapon. -/
theorem commonWeapon_error
    (h : (∀ k < 12, ¬Available ent area k) ∨ ¬Upgradable ent area) :
    commonWeapon ent area s = .error (-1) s := by
  by_cases hupg : Upgradable ent area
  · have hnone := h.resolve_right fun hnot => hnot hupg
    have htypes : weaponTypes ent area 12 0 = _ := weaponTypes_ok fun k _ hk => hupg k (by omega)
    have hfilter : (List.range' 0 12).filter (Available ent area) = [] := by
      refine List.filter_eq_nil_iff.mpr fun k hk => ?_
      rw [decide_eq_true_eq]
      exact hnone k (by simpa using hk)
    rw [hfilter] at htypes
    simp only [commonWeapon, htypes]
    rfl
  · have htypes : weaponTypes ent area 12 0 = .error (-1) := by
      refine weaponTypes_error ?_
      rw [Upgradable] at hupg
      push Not at hupg
      obtain ⟨k, hk, hav, hfloor⟩ := hupg
      exact ⟨k, Nat.zero_le k, by omega, hav, hfloor⟩
    simp only [commonWeapon, htypes]
    rfl

/-- The roll among the types that were found. -/
theorem pick_types (hsome : ∃ k < 12, Available ent area k) {l : List WeaponType}
    (hl : l = ((List.range' 0 12).filter (Available ent area)).map (weaponType ent area))
    {wchance : UInt32} (hchance : wchance.toNat = totalShare ent area) (rnd : UInt32) :
    ∃ i k, Chosen (share ent area) 12 (rnd.toNat % totalShare ent area : Nat) k ∧
      pick (fun i => word (ent.weaponRatio (l.getD i default).kind)) wchance l.length 0
        (rnd % wchance) = some i ∧ l.getD i default = weaponType ent area k := by
  have htotal := totalShare_eq ent area
  have hle := before_share_le ent area 12
  have hpos : 0 < totalShare ent area := by
    obtain ⟨k, hk, hav⟩ := hsome
    have hshare : share ent area k = (ent.weaponRatio k).toInt := if_pos hav
    have := le_before (fun k _ => share_nonneg ent area k) hk
    have := hav.2
    omega
  have hroll : (rnd % wchance).toNat = rnd.toNat % totalShare ent area := by
    rw [UInt32.toNat_mod, hchance]
  have hlt : rnd.toNat % totalShare ent area < totalShare ent area := Nat.mod_lt _ hpos
  have hweight : ∀ k < 12, (((if Available ent area k then
      word (ent.weaponRatio (weaponType ent area k).kind) else 0 : UInt32).toNat : Nat) : Int) =
        share ent area k := by
    intro k _
    rw [share]
    split
    next hav => exact toNat_word (le_of_lt hav.2)
    next hav => rfl
  have hless : (rnd % wchance).toNat < wchance.toNat := by omega
  obtain ⟨k, hpick, hk⟩ := pick_chosen hweight (by rw [← htotal, hchance]) (by omega) hless
  have hfilter := pick_filter (weaponType ent area) default
    (fun t => word (ent.weaponRatio t.kind)) (Available ent area) 12 0
    (UInt32.le_iff_toNat_le.mpr (by omega) : rnd % wchance ≤ wchance) hl
  rw [hpick, Option.map_some, Option.map_eq_some_iff] at hfilter
  obtain ⟨i, hi, hget⟩ := hfilter
  rw [hroll] at hk
  exact ⟨i, k, hk, hi, hget⟩

/-- Otherwise the type is the one that is chosen, with its rank in the area. -/
theorem commonWeapon_chosen (ha : 0 ≤ area) (hsome : ∃ k < 12, Available ent area k)
    (hupg : Upgradable ent area) :
    ∃ k, Chosen (share ent area) 12 (s.roll 0 (totalShare ent area)) k ∧
      commonWeapon ent area s =
        .ok (⟨weaponCode ent area k, 0, 0, 0⟩, grindColumn ent area k) (s.drawn 1) := by
  have htypes : weaponTypes ent area 12 0 = _ := weaponTypes_ok fun k _ hk => hupg k (by omega)
  have hsum := sum_types ent area 12 0
  generalize hl : ((List.range' 0 12).filter (Available ent area)).map (weaponType ent area) = l
    at htypes hsum
  rw [before_zero, zero_add, Nat.zero_add] at hsum
  have hchance : (UInt32.ofInt (l.map fun t => (ent.weaponRatio t.kind).toInt).sum).toNat =
      totalShare ent area := by
    have hle := before_share_le ent area 12
    have htotal := totalShare_eq ent area
    have hwrap : (totalShare ent area : Int) % 2 ^ 32 = totalShare ent area := by omega
    rw [hsum, ← htotal, UInt32.ofInt, hwrap, Int.toNat_natCast]
    exact UInt32.toNat_ofNat_of_lt' (show totalShare ent area < 2 ^ 32 by omega)
  obtain ⟨i, k, hk, hpick, hget⟩ := pick_types hsome hl.symm hchance (s.rng 0)
  have hav : Available ent area k := share_available (hk.selects.pos (share_nonneg ent area k))
  have hkind := weaponType_eq ha hav (hupg k hk.bound hav)
  refine ⟨k, hk, ?_⟩
  obtain ⟨t, ts, rfl⟩ : ∃ t ts, l = t :: ts := by
    cases l with
    | nil => exact absurd hpick (by simp [pick])
    | cons t ts => exact ⟨t, ts, rfl⟩
  simp only [commonWeapon, htypes, run_draw_bind, hpick, hget, hkind]
  exact congrFun (if_neg (weaponCode_ne_zero hk.bound)) _

/-! ## Percentages -/

/-- A percentage of a weapon: the type of its attribute, and the row of the percent patterns
that it is from. -/
structure Attribute where
  kind : Nat
  row : Nat

namespace Attribute

/-- Five times what the row comes after the third one. -/
def percent (a : Attribute) : Int := ((a.row : Int) - 2) * 5

/-- A type that there is, and a row that is not the one of 0%. -/
structure Sound (a : Attribute) : Prop where
  kind_pos : 0 < a.kind
  kind_lt : a.kind < 6
  row_lt : a.row < 23
  row_ne : a.row ≠ 2

/-- The bytes of a percentage, which are 0 where there is none. -/
def bytesAt (as : List Attribute) (n : Nat) : UInt8 × UInt8 :=
  match as[n]? with
  | some a => (UInt8.ofNat a.kind, UInt8.ofInt a.percent)
  | none => (0, 0)

theorem bytesAt_append (as : List Attribute) (a : Attribute) (n : Nat) :
    bytesAt (as ++ [a]) n =
      if n = as.length then (UInt8.ofNat a.kind, UInt8.ofInt a.percent) else bytesAt as n := by
  rw [bytesAt, bytesAt]
  split_ifs with hn
  · rw [hn, List.getElem?_concat_length]
  · rcases Nat.lt_or_ge n as.length with hlt | hge
    · rw [List.getElem?_append_left hlt]
    · rw [List.getElem?_eq_none hge, List.getElem?_eq_none (by simp; omega)]

end Attribute

/-- `item_b[(n << 1) + 6]` and `item_b[(n << 1) + 7]` -/
def GenItem.percentBytes (it : GenItem) (n : Nat) : UInt8 × UInt8 :=
  (it.byte (n * 2 + 6), it.byte (n * 2 + 7))

theorem GenItem.percentBytes_setByte (it : GenItem) {n m : Nat} (hn : n < 3) (hm : m < 3)
    (b b' : UInt8) :
    ((it.setByte (n * 2 + 6) b).setByte (n * 2 + 7) b').percentBytes m =
      if m = n then (b, b') else it.percentBytes m := by
  simp only [percentBytes]
  rw [byte_setByte _ b' (by omega) (by omega) (by omega) (by omega),
    byte_setByte _ b (by omega) (by omega) (by omega) (by omega),
    byte_setByte _ b' (by omega) (by omega) (by omega) (by omega),
    byte_setByte _ b (by omega) (by omega) (by omega) (by omega)]
  split_ifs <;> first | rfl | omega

/-- One of the rounds for percentages, with the number of random numbers that were drawn before
and after it, and the percentages that there are. A round is left where the pattern for
the area is negative, or the row is the one of 0%; it puts nothing for the type 0, nor for
a type that was put before. -/
inductive PercentRound (ent : PtEntry) (area : Int) (percents : Nat) (s : GenState) (i : Nat) :
    Nat × List Attribute → Nat × List Attribute → Prop
  | off {n : Nat} {as : List Attribute} (hoff : (ent.areaPattern i area).toInt < 0) :
      PercentRound ent area percents s i (n, as) (n, as)
  | zero {n : Nat} {as : List Attribute} (hon : 0 ≤ (ent.areaPattern i area).toInt)
      (hrow : Chosen
        (fun j => ((ent.percentPattern j (ent.areaPattern i area).toInt).toNat : Int)) 23
        (s.roll n percents) 2) :
      PercentRound ent area percents s i (n, as) (n + 1, as)
  | refused {n : Nat} {as : List Attribute} {a : Attribute}
      (hon : 0 ≤ (ent.areaPattern i area).toInt)
      (hrow : Chosen
        (fun j => ((ent.percentPattern j (ent.areaPattern i area).toInt).toNat : Int)) 23
        (s.roll n percents) a.row)
      (hkind : Chosen (fun k => (ent.percentAttachment k area).toInt) 6 (s.roll (n + 1) 100)
        a.kind)
      (hne : a.row ≠ 2) (hold : a.kind = 0 ∨ a.kind ∈ as.map Attribute.kind) :
      PercentRound ent area percents s i (n, as) (n + 2, as)
  | put {n : Nat} {as : List Attribute} {a : Attribute}
      (hon : 0 ≤ (ent.areaPattern i area).toInt)
      (hrow : Chosen
        (fun j => ((ent.percentPattern j (ent.areaPattern i area).toInt).toNat : Int)) 23
        (s.roll n percents) a.row)
      (hkind : Chosen (fun k => (ent.percentAttachment k area).toInt) 6 (s.roll (n + 1) 100)
        a.kind)
      (hne : a.row ≠ 2) (hpos : 0 < a.kind) (hnew : a.kind ∉ as.map Attribute.kind) :
      PercentRound ent area percents s i (n, as) (n + 2, as ++ [a])

/-- The rounds of a loop over several numbers. -/
inductive PercentRounds (ent : PtEntry) (area : Int) (percents : Nat) (s : GenState) :
    List Nat → Nat × List Attribute → Nat × List Attribute → Prop
  | done (st : Nat × List Attribute) : PercentRounds ent area percents s [] st st
  | round {i : Nat} {is : List Nat} {st st' st'' : Nat × List Attribute}
      (hround : PercentRound ent area percents s i st st')
      (hrest : PercentRounds ent area percents s is st' st'') :
      PercentRounds ent area percents s (i :: is) st st''

/-- The percentages are of different types, each of them as it may be. -/
structure DistinctSound (as : List Attribute) : Prop where
  sound : ∀ a ∈ as, a.Sound
  distinct : (as.map Attribute.kind).Nodup

theorem PercentRound.distinctSound {i : Nat} {st st' : Nat × List Attribute}
    (h : PercentRound ent area percents s i st st') (hst : DistinctSound st.2) :
    DistinctSound st'.2 ∧ st'.2.length ≤ st.2.length + 1 := by
  cases h with
  | off | zero | refused => exact ⟨hst, Nat.le_succ _⟩
  | put hon hrow hkind hne hpos hnew =>
      refine ⟨⟨?_, ?_⟩, by simp⟩
      · intro b hb
        rcases List.mem_append.mp hb with hb | hb
        · exact hst.sound b hb
        · rw [List.mem_singleton.mp hb]
          exact ⟨hpos, hkind.bound, hrow.bound, hne⟩
      · rw [List.map_append, List.map_singleton]
        exact List.nodup_append.mpr ⟨hst.distinct, List.nodup_singleton _, by
          intro x hx y hy
          rw [List.mem_singleton.mp hy]
          exact fun heq => hnew (heq ▸ hx)⟩

theorem PercentRounds.distinctSound {is : List Nat} {st st' : Nat × List Attribute}
    (h : PercentRounds ent area percents s is st st') (hst : DistinctSound st.2) :
    DistinctSound st'.2 ∧ st'.2.length ≤ st.2.length + is.length := by
  induction h with
  | done st => exact ⟨hst, Nat.le_refl _⟩
  | round hround _ ih =>
      obtain ⟨hmid, hlen⟩ := hround.distinctSound hst
      obtain ⟨hend, hlen'⟩ := ih hmid
      exact ⟨hend, by rw [List.length_cons]; omega⟩

/-- What the loop over the rounds keeps: the item has the percentages that were put, `npcts` of
them, and `upcts` has the bits for their types. -/
structure Carries (w0 : UInt32) (as : List Attribute) (st : GenItem × Nat × UInt32) : Prop where
  code : st.1.w0 = w0
  bytes : ∀ n < 3, st.1.percentBytes n = Attribute.bytesAt as n
  count : st.2.1 = as.length
  used : BitMask.members st.2.2.toBitVec = {k | k ∈ as.map Attribute.kind}

theorem toBitVec_one_shiftLeft : ∀ k < 6,
    ((1 : UInt32) <<< UInt32.ofNat k).toBitVec = 1#32 <<< k := by decide

theorem Carries.test_iff {w0 : UInt32} {as : List Attribute} {st : GenItem × Nat × UInt32}
    (h : Carries w0 as st) {k : Nat} (hk : k < 6) :
    st.2.2 &&& ((1 : UInt32) <<< UInt32.ofNat k) ≠ 0 ↔ k ∈ as.map Attribute.kind := by
  have hmem : k ∈ BitMask.members st.2.2.toBitVec ↔ k ∈ as.map Attribute.kind := by rw [h.used]; rfl
  rw [← hmem, ← test_ne_zero, ← toBitVec_one_shiftLeft k hk, ← UInt32.toBitVec_and, ne_eq, ne_eq,
    ← UInt32.toBitVec_inj]
  rfl

/-- Putting one more percentage. -/
theorem Carries.put {w0 : UInt32} {as : List Attribute} {item : GenItem} {npcts : Nat}
    {upcts : UInt32} (h : Carries w0 as (item, npcts, upcts)) (a : Attribute) (hk : a.kind < 6)
    (hlen : as.length < 3) :
    Carries w0 (as ++ [a])
      ((item.setByte (npcts * 2 + 6) (UInt8.ofNat a.kind)).setByte (npcts * 2 + 7)
        (UInt8.ofInt a.percent), npcts + 1, upcts ||| ((1 : UInt32) <<< UInt32.ofNat a.kind)) := by
  have hcount : npcts = as.length := h.count
  refine ⟨?_, ?_, ?_, ?_⟩
  · rw [← h.code]
    simp only [GenItem.setByte]
    split_ifs <;> rfl
  · intro n hn
    rw [GenItem.percentBytes_setByte _ (by omega) hn, Attribute.bytesAt_append, hcount]
    split_ifs
    · rfl
    · exact h.bytes n hn
  · rw [List.length_append, ← hcount]
    rfl
  · have hused : BitMask.members upcts.toBitVec = {k | k ∈ as.map Attribute.kind} := h.used
    rw [UInt32.toBitVec_or, toBitVec_one_shiftLeft a.kind hk,
      members_insert upcts.toBitVec (show a.kind < 32 by omega), hused]
    ext k
    simp [or_comm]

theorem rng_drawn {t : GenState} {n : Nat} (ht : t.rng = (s.drawn n).rng) (k : Nat) :
    (t.drawn k).rng = (s.drawn (n + k)).rng := by
  funext m
  rw [GenState.drawn_rng, ht, GenState.drawn_rng, GenState.drawn_rng, Nat.add_assoc, Nat.add_comm k]

/-- One of the rounds, from a state in which some random numbers have been drawn. -/
theorem weaponPercent_round {p : UInt32} (h : Valid ent p.toNat) (hp : 0 < p.toNat)
    (hp' : p.toNat < 2 ^ 31) (ha : InTable area) {i n : Nat} (hi : i < 3) {w0 : UInt32}
    {as : List Attribute} {st : GenItem × Nat × UInt32} (hst : Carries w0 as st)
    (hlen : as.length < 3) {t : GenState} (ht : t.rng = (s.drawn n).rng) :
    ∃ n' as' st' t', PercentRound ent area p.toNat s i (n, as) (n', as') ∧
      weaponPercent ent area p st i t = .ok st' t' ∧ t'.rng = (s.drawn n').rng ∧
      Carries w0 as' st' := by
  have hroll (m k : Nat) : ((t.rng m).toNat % k : Nat) = s.roll (n + m) k := by
    rw [ht, GenState.drawn_rng, Nat.add_comm]
    rfl
  rw [weaponPercent, run_access_bind]
  generalize ht₁ : { t with log := t.log ++ [Access.column area] } = t₁
  have hrng : t₁.rng = t.rng := by rw [← ht₁]
  by_cases hoff : (ent.areaPattern i area).toInt < 0
  · exact ⟨n, as, st, t₁, .off hoff, by rw [if_pos hoff]; rfl, hrng.trans ht, hst⟩
  have hon := not_lt.mp hoff
  obtain ⟨j, hpickj, hrow⟩ := pick_column
    (fun j => (ent.percentPattern j (ent.areaPattern i area).toInt).toUInt32) p (t.rng 0)
    (h.percent i hi area ha hon) (fun _ => by simp) hp hp'
  rw [hroll, Nat.add_zero] at hrow
  simp only [hoff, if_false, run_draw_bind, hrng, hpickj]
  by_cases hzero : j = 2
  · subst hzero
    exact ⟨n + 1, as, st, t₁.drawn 1, .zero hon hrow, rfl, rng_drawn (hrng.trans ht) 1, hst⟩
  obtain ⟨k, hpickk, hkind⟩ := pick_word 100 (t.rng 1) (h.attachment area ha) (by decide)
    (by decide)
  have hkind' := hroll 1 100 ▸ hkind
  simp only [hzero, if_false, run_draw_bind, GenState.drawn_rng, Nat.zero_add, hrng,
    run_access_bind, hpickk]
  generalize ht₂ : { (t₁.drawn 1).drawn 1 with
    log := ((t₁.drawn 1).drawn 1).log ++ [Access.column area] } = t₂
  have hrng₂ : t₂.rng = (s.drawn (n + 2)).rng := by
    rw [← ht₂, GenState.drawn_drawn]
    exact rng_drawn (hrng.trans ht) 2
  by_cases hold : k = 0 ∨ k ∈ as.map Attribute.kind
  · have hkept : k = 0 ∨ st.2.2 &&& ((1 : UInt32) <<< UInt32.ofNat k) ≠ 0 :=
      hold.imp_right (hst.test_iff hkind.bound).mpr
    exact ⟨n + 2, as, st, t₂, .refused (a := ⟨k, j⟩) hon hrow hkind' hzero hold,
      by rw [if_pos hkept]; rfl, hrng₂, hst⟩
  · have hput : ¬(k = 0 ∨ st.2.2 &&& ((1 : UInt32) <<< UInt32.ofNat k) ≠ 0) :=
      fun hkept => hold (hkept.imp_right (hst.test_iff hkind.bound).mp)
    rw [not_or] at hold
    exact ⟨n + 2, as ++ [⟨k, j⟩], _, t₂,
      .put hon hrow hkind' hzero (Nat.pos_of_ne_zero hold.1) hold.2,
      by rw [if_neg hput]; rfl, hrng₂, hst.put ⟨k, j⟩ hkind.bound hlen⟩

/-- The loop over the rounds. -/
theorem weaponPercent_rounds {p : UInt32} (h : Valid ent p.toNat) (hp : 0 < p.toNat)
    (hp' : p.toNat < 2 ^ 31) (ha : InTable area) {is : List Nat} (his : ∀ i ∈ is, i < 3) {n : Nat}
    {w0 : UInt32} {as : List Attribute} {st : GenItem × Nat × UInt32} (hst : Carries w0 as st)
    (has : DistinctSound as) (hlen : as.length + is.length ≤ 3) {t : GenState}
    (ht : t.rng = (s.drawn n).rng) :
    ∃ n' as' st' t', PercentRounds ent area p.toNat s is (n, as) (n', as') ∧
      is.foldlM (weaponPercent ent area p) st t = .ok st' t' ∧
      t'.rng = (s.drawn n').rng ∧ Carries w0 as' st' := by
  induction is generalizing n as st t with
  | nil => exact ⟨n, as, st, t, .done _, rfl, ht, hst⟩
  | cons i is ih =>
      rw [List.length_cons] at hlen
      obtain ⟨n₁, as₁, st₁, t₁, hround, hrun, ht₁, hst₁⟩ :=
        weaponPercent_round h hp hp' ha (his i (by simp)) hst (by omega) ht
      obtain ⟨has₁, hmore⟩ := hround.distinctSound has
      have hlen₁ : as₁.length ≤ as.length + 1 := hmore
      obtain ⟨n₂, as₂, st₂, t₂, hrounds, hrest, ht₂, hst₂⟩ :=
        ih (fun i hi => his i (List.mem_cons_of_mem _ hi)) hst₁ has₁ (by omega) ht₁
      refine ⟨n₂, as₂, st₂, t₂, .round hround hrounds, ?_, ht₂, hst₂⟩
      rw [List.foldlM_cons, Simulation.bind_ok hrun, hrest]

/-! ## Weapons -/

/-- The code and the column of the power patterns that a weapon starts with: those of the item
that was picked, with the last column, or those of the type that is chosen. -/
def WeaponBase (ent : PtEntry) (area : Int) (picked : Bool) (item : GenItem) (s : GenState)
    (code : UInt32) (column : Int) : Prop :=
  if picked then code = item.w0 ∧ column = 3
  else ∃ k, Chosen (share ent area) 12 (s.roll 0 (totalShare ent area)) k ∧
    code = weaponCode ent area k ∧ column = grindColumn ent area k

/-- A weapon as it is chosen: its code and the grind, and the bytes of at most three
percentages of different types. An element, or the flag that the weapon has to be
identified, may take the place of the first percentage. -/
structure WeaponMade (ent : PtEntry) (area : Int) (percents : Nat) (picked : Bool)
    (item : GenItem) (s : GenState) (made : GenItem) (as : List Attribute) : Prop where
  code : ∃ code column grind, WeaponBase ent area picked item s code column ∧
    Chosen (fun i => (ent.powerPattern i column).toInt) 9 (s.roll (drawsFor picked) 100) grind ∧
    made.w0 = code ||| (UInt32.ofNat grind <<< 24)
  rounds : ∃ n, PercentRounds ent area percents s [0, 1, 2] (drawsFor picked + 1, []) (n, as)
  sound : DistinctSound as
  length_le : as.length ≤ 3
  bytes : ∀ n < 3, made.percentBytes n = Attribute.bytesAt as n ∨
    n = 0 ∧ made.percentBytes n = (0, 0)

/-- Whether a common weapon can be made: there is a type, and the loop over the areas ends for
each of them. -/
def CanMake (ent : PtEntry) (area : Int) : Prop :=
  (∃ k < 12, Available ent area k) ∧ Upgradable ent area

/-- A generator makes a weapon as it is chosen, or fails if none can be made. -/
def WeaponChosen (ent : PtEntry) (area : Int) (percents : Nat) (picked : Bool) (item : GenItem)
    (s : GenState) (run : EStateM.Result Int GenState GenItem) : Prop :=
  (picked ∨ CanMake ent area →
    ∃ made as t, WeaponMade ent area percents picked item s made as ∧ run = .ok made t) ∧
  (¬(picked ∨ CanMake ent area) → run = .error (-1) s)

theorem weaponBase_chosen (ha : InTable area) (picked : Bool) (item : GenItem)
    (hmake : picked ∨ CanMake ent area) :
    ∃ code column, WeaponBase ent area picked item s code column ∧ 0 ≤ column ∧ column ≤ 3 ∧
      (if picked then pure (item.clear, 3) else commonWeapon ent area : Gen (GenItem × Int)) s =
        .ok (⟨code, 0, 0, 0⟩, column) (s.drawn (drawsFor picked)) := by
  cases picked with
  | true => exact ⟨item.w0, 3, ⟨rfl, rfl⟩, by decide, by decide, rfl⟩
  | false =>
      obtain ⟨hsome, hupg⟩ := hmake.resolve_left Bool.false_ne_true
      obtain ⟨k, hk, hrun⟩ := commonWeapon_chosen ha.1 hsome hupg
      have hav := share_available (hk.selects.pos (share_nonneg ent area k))
      have hpos := hupg k hk.bound hav
      refine ⟨_, _, ⟨k, hk, rfl, rfl⟩, ?_, min_le_right _ _, hrun⟩
      exact le_min (Int.emod_nonneg _ hpos.ne') (by decide)

theorem element_small : ∀ attr ∈ 0 :: attrList.flatten,
    (((0x80 : UInt32) ||| attr) >>> 16).toUInt8 = 0 ∧
      (((0x80 : UInt32) ||| attr) >>> 24).toUInt8 = 0 := by
  have hall : (0 :: attrList.flatten).all fun attr =>
      (((0x80 : UInt32) ||| attr) >>> 16).toUInt8 = 0 ∧
        (((0x80 : UInt32) ||| attr) >>> 24).toUInt8 = 0 := by decide
  exact fun attr hattr => of_decide_eq_true (List.all_eq_true.mp hall attr hattr)

theorem attr_mem (r i : Nat) : (attrList.getD r []).getD i 0 ∈ 0 :: attrList.flatten := by
  rw [List.getD_eq_getElem?_getD, List.getD_eq_getElem?_getD]
  cases hr : attrList[r]? with
  | none => exact List.mem_cons_self
  | some row =>
      rw [Option.getD_some]
      cases hi : row[i]? with
      | none => exact List.mem_cons_self
      | some attr =>
          exact List.mem_cons_of_mem _ (List.mem_flatten.mpr
            ⟨row, List.mem_of_getElem? hr, List.mem_of_getElem? hi⟩)

theorem percentBytes_zero (w0 : UInt32) :
    ∀ n < 3, (⟨w0, 0, 0, 0⟩ : GenItem).percentBytes n = (0, 0) :=
  show ∀ n < 3, (⟨0, 0, 0, 0⟩ : GenItem).percentBytes n = (0, 0) by decide

/-- An element in place of the second word. -/
theorem percentBytes_element (item : GenItem) {attr : UInt32}
    (h : attr ∈ 0 :: attrList.flatten) {n : Nat} (hn : n < 3) :
    { item with w1 := 0x80 ||| attr }.percentBytes n = item.percentBytes n ∨
      n = 0 ∧ { item with w1 := 0x80 ||| attr }.percentBytes n = (0, 0) := by
  obtain ⟨h16, h24⟩ := element_small attr h
  have hcases : n = 0 ∨ n = 1 ∨ n = 2 := by omega
  rcases hcases with rfl | rfl | rfl
  · exact .inr ⟨rfl, Prod.ext h16 h24⟩
  · exact .inl rfl
  · exact .inl rfl

/-- An element changes only the word that the first percentage is in. -/
theorem weaponElement_bytes (v1 semirare rare : Bool) (item : GenItem) (t : GenState) :
    ∃ made t', weaponElement ent area v1 semirare rare item t = .ok made t' ∧
      made.w0 = item.w0 ∧
      ∀ n < 3, made.percentBytes n = item.percentBytes n ∨
        n = 0 ∧ made.percentBytes n = (0, 0) := by
  have hsame : item.w0 = item.w0 ∧ ∀ n < 3, item.percentBytes n = item.percentBytes n ∨
      n = 0 ∧ item.percentBytes n = (0, 0) := ⟨rfl, fun _ _ => .inl rfl⟩
  have hflag := fun n (hn : n < 3) => percentBytes_element item (List.mem_cons_self) hn
  obtain ⟨t₁, haccess⟩ : ∃ t₁, accessIf (¬semirare) (.column area) t = .ok () t₁ := by
    rw [accessIf]
    split_ifs <;> exact ⟨_, rfl⟩
  rw [weaponElement, Simulation.bind_ok haccess]
  split_ifs with helement hrare
  · rw [run_draw_bind, run_access_bind]
    split_ifs with hlucky
    · exact ⟨_, _, rfl, rfl, fun n hn => percentBytes_element item (attr_mem _ _) hn⟩
    · exact ⟨item, _, rfl, hsame⟩
  · exact ⟨_, _, rfl, rfl, hflag⟩
  · exact ⟨item, _, rfl, hsame⟩

theorem generateWeapon_chosen {p : UInt32} (h : Valid ent p.toNat) (hp : 0 < p.toNat)
    (hp' : p.toNat < 2 ^ 31) (ha : InTable area) (v1 picked : Bool) (item : GenItem) :
    WeaponChosen ent area p.toNat picked item s (generateWeapon ent area p v1 item picked s) := by
  constructor
  · intro hmake
    obtain ⟨code, column, hbase, hlow, hhigh, hrun⟩ := weaponBase_chosen (s := s) ha picked item
      hmake
    obtain ⟨grind, hpick, hgrind⟩ := pick_word 100 (s.rng (drawsFor picked))
      (h.power column hlow hhigh) (by decide) (by decide)
    have hstart : Carries (code ||| (UInt32.ofNat grind <<< 24)) []
        (⟨code ||| (UInt32.ofNat grind <<< 24), 0, 0, 0⟩, 0, 0) :=
      ⟨rfl, fun n hn => percentBytes_zero _ n hn, rfl, by simp⟩
    have hnone : DistinctSound [] := ⟨by simp, by simp⟩
    have hrng : (s.drawn (drawsFor picked + 1)).rng = (s.drawn (drawsFor picked + 1)).rng := rfl
    obtain ⟨n, as, st, t, hrounds, hfold, -, hst⟩ := weaponPercent_rounds h hp hp' ha
      (show ∀ i ∈ [0, 1, 2], i < 3 by decide) hstart hnone (by decide) hrng
    obtain ⟨hsound, hlen⟩ := hrounds.distinctSound hnone
    rw [generateWeapon, Simulation.bind_ok hrun]
    simp only [run_draw_bind, GenState.drawn_rng, Nat.zero_add, hpick, GenState.drawn_drawn]
    rw [Simulation.bind_ok hfold]
    -- What the flags are does not matter for what is said of the weapon.
    suffices hmade : ∀ semirare rare, ∃ made as t',
        WeaponMade ent area p.toNat picked item s made as ∧
          weaponElement ent area v1 semirare rare st.1 t = .ok made t' from hmade _ _
    intro semirare rare
    obtain ⟨made, t', helement, hcode, hbytes⟩ := weaponElement_bytes v1 semirare rare st.1 t
    refine ⟨made, as, t', ⟨?_, ⟨n, hrounds⟩, hsound, hlen, ?_⟩, helement⟩
    · exact ⟨code, column, grind, hbase, hgrind, hcode.trans hst.code⟩
    · intro m hm
      rw [← hst.bytes m hm]
      exact hbytes m hm
  · intro hmake
    rw [not_or, CanMake, not_and_or] at hmake
    obtain rfl : picked = false := by simpa using hmake.1
    have hcommon := commonWeapon_error (s := s) (hmake.2.imp_left fun hnone k hk hav =>
      hnone ⟨k, hk, hav⟩)
    rw [generateWeapon]
    exact Simulation.bind_error hcommon

/-! ## All generators -/

/-- An entry with all the weight of a column in one row, for weapons of one type that have
a percentage of 5%. -/
def oneRow : PtEntry where
  weaponRatio i := if i = 0 then 1 else 0
  weaponMinrank _ := 0
  weaponUpgfloor _ := 2
  powerPattern i _ := if i = 0 then 100 else 0
  percentPattern j _ := if j = 3 then 100 else 0
  areaPattern _ _ := 0
  percentAttachment k _ := if k = 1 then 100 else 0
  elementRanking _ := 0
  elementProbability _ := 0
  armorRanking i := if i = 0 then 100 else 0
  slotRanking i := if i = 0 then 100 else 0
  unitLevel _ := 0
  toolFrequency i _ := if i = 0 then 10000 else 0
  techFrequency i _ := if i = 0 then 255 else if i < 4 then 248 else if i = 4 then 1 else 0
  techLevels _ _ := 0
  enemyDar _ := 100
  enemyMeseta _ := (0, 0)
  enemyDrop _ := 0
  boxMeseta _ := (0, 0)
  boxDrop _ _ := 0
  armorLevel := 0

theorem oneRow_valid : Valid oneRow 100 := by
  -- No column depends on the area, so each is one that can be summed up.
  have hpower : Weights (fun i => (oneRow.powerPattern i 0).toInt) 9 100 :=
    ⟨by decide, by decide⟩
  have hpercent : Weights (fun j => ((oneRow.percentPattern j 0).toNat : Int)) 23 100 :=
    ⟨by decide, by decide⟩
  have hattachment : Weights (fun k => (oneRow.percentAttachment k 0).toInt) 6 100 :=
    ⟨by decide, by decide⟩
  have hrow : Weights (fun i => (oneRow.armorRanking i).toInt) 5 100 := ⟨by decide, by decide⟩
  have htool : Weights (fun i => ((oneRow.toolFrequency i 0).toNat : Int)) 28 10000 :=
    ⟨by decide, by decide⟩
  have htech : Weights (fun i => ((oneRow.techFrequency i 0).toNat : Int)) 19 1000 :=
    ⟨by decide, by decide⟩
  exact ⟨fun _ _ _ => hpower, fun _ _ _ _ _ => hpercent, fun _ _ => hattachment, hrow, hrow,
    fun _ _ => htool, fun _ _ => htech⟩

/-- A state in which each random number is 7. -/
def sevens : GenState where
  lobby :=
    { toDropGame := ⟨1, 0, 0, 0, 0, fun _ => false, 0, fun _ => false⟩
      version := .gc
      itemId := 0
      qid := 0
      mids := none
      mtypes := none
      objs := fun _ => ⟨0, fun _ => 0⟩ }
  rng _ := 7
  log := []
  sent := []
  added := []

end Sylverant.Ship.Pt
