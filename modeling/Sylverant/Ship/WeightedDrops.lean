/-
# Weighted choices of the generators

The functions of `ptdata.c` that choose by weights: which index each of their loops finds
for a random number, if the entry is valid, and what they make of it. The loops find the
end of a row of weights by a number that falls below zero; for weights that are not
negative and sum up to the modulus this is the one index in whose part of the row the
number lies.
-/

import Mathlib.Algebra.Order.Ring.Int
import Sylverant.Library.Weighted
import Sylverant.Ship.DropItems

namespace Sylverant.Ship.Pt

open Weighted

/-! ## The loops -/

/-- One round of a loop, for a number and a weight that are small: a number below the weight
shows as one above the bound. -/
theorem sub_gt_iff {rnd weight bound : UInt32} (hr : rnd.toNat < 2 ^ 31)
    (hw : weight.toNat ≤ bound.toNat) (hrb : rnd.toNat ≤ bound.toNat)
    (hb : bound.toNat < 2 ^ 31) : rnd - weight > bound ↔ rnd.toNat < weight.toNat := by
  rw [gt_iff_lt, UInt32.lt_iff_toNat_lt, UInt32.toNat_sub]
  omega

/-- The rounds of a loop that has come to an index. -/
theorem pick_from {weight : Nat → UInt32} {w : Nat → Int} {bound : UInt32} {n i : Nat}
    {r : Int} {left : Nat} {rnd : UInt32} (hw : ∀ j < n, ((weight j).toNat : Int) = w j)
    (hsum : before w n = bound.toNat) (hb : bound.toNat < 2 ^ 31) (hn : i + left = n)
    (hrnd : (rnd.toNat : Int) = r - before w i) (hr : r < bound.toNat) :
    ∃ k, pick weight bound left i rnd = some k ∧ k < n ∧ Selects w r k := by
  have hnonneg : ∀ j < n, 0 ≤ w j := by
    intro j hj
    have := hw j hj
    omega
  induction left generalizing i rnd with
  | zero =>
      obtain rfl : i = n := hn
      omega
  | succ left ih =>
      have hi : i < n := by omega
      have hwi := hw i hi
      have hle := le_before hnonneg hi
      have hbefore : (0 : Int) ≤ before w i := by
        simpa using before_mono hnonneg (Nat.zero_le i) hi.le
      rw [pick]
      have hround : rnd - weight i > bound ↔ rnd.toNat < (weight i).toNat :=
        sub_gt_iff (by omega) (by omega) (by omega) hb
      split
      next h =>
        rw [hround] at h
        exact ⟨i, rfl, hi, ⟨by omega, by rw [before_succ]; omega⟩⟩
      next h =>
        rw [hround, not_lt] at h
        refine ih (by omega) ?_
        rw [UInt32.toNat_sub_of_le _ _ (UInt32.le_iff_toNat_le.mpr h), before_succ]
        omega

/-- A loop over weights finds the one index that its number selects. -/
theorem pick_chosen {weight : Nat → UInt32} {w : Nat → Int} {bound : UInt32} {n : Nat}
    {rnd : UInt32} (hw : ∀ j < n, ((weight j).toNat : Int) = w j)
    (hsum : before w n = bound.toNat) (hb : bound.toNat < 2 ^ 31)
    (hr : rnd.toNat < bound.toNat) :
    ∃ k, pick weight bound n 0 rnd = some k ∧ Chosen w n rnd.toNat k := by
  have hstart : (rnd.toNat : Int) = rnd.toNat - before w 0 := by simp
  obtain ⟨k, hpick, hk, hsel⟩ := pick_from hw hsum hb (Nat.zero_add n) hstart (by omega)
  refine ⟨k, hpick, hsel.chosen ?_ hk⟩
  intro j hj
  have := hw j hj
  omega

theorem toNat_word {x : Int8} (h : 0 ≤ x.toInt) : ((word x).toNat : Int) = x.toInt := by
  have hwide : x.toInt32.toInt = x.toInt := Int8.toInt_toInt32 x
  rw [word, ← hwide]
  rw [← hwide] at h
  have hval : x.toInt32.toInt = (x.toInt32.toUInt32.toNat : Int).bmod (2 ^ 32) :=
    BitVec.toInt_eq_toNat_bmod x.toInt32.toBitVec
  have hlt := x.toInt32.toUInt32.toNat_lt
  rw [hval, Int.bmod_def] at h ⊢
  omega

/-- A loop over a column of a table of signed bytes. -/
theorem pick_word {col : Nat → Int8} {n : Nat} (bound rnd : UInt32)
    (h : Weights (fun i => (col i).toInt) n bound.toNat) (h0 : 0 < bound.toNat)
    (hb : bound.toNat < 2 ^ 31) :
    ∃ k, pick (fun i => word (col i)) bound n 0 (rnd % bound) = some k ∧
      Chosen (fun i => (col i).toInt) n (rnd.toNat % bound.toNat : Nat) k := by
  rw [← UInt32.toNat_mod]
  refine pick_chosen (fun j hj => toNat_word (h.nonneg j hj)) h.sum hb ?_
  rw [UInt32.toNat_mod]
  exact Nat.mod_lt _ h0

/-- A loop over a column of a table of unsigned bytes or half words. -/
theorem pick_column {w : Nat → Int} {n : Nat} (weight : Nat → UInt32) (bound rnd : UInt32)
    (h : Weights w n bound.toNat) (hw : ∀ j, ((weight j).toNat : Int) = w j)
    (h0 : 0 < bound.toNat) (hb : bound.toNat < 2 ^ 31) :
    ∃ k, pick weight bound n 0 (rnd % bound) = some k ∧
      Chosen w n (rnd.toNat % bound.toNat : Nat) k := by
  rw [← UInt32.toNat_mod]
  refine pick_chosen (fun j _ => hw j) h.sum hb ?_
  rw [UInt32.toNat_mod]
  exact Nat.mod_lt _ h0

/-- A loop that starts at the next index. -/
theorem pick_succ (weight : Nat → UInt32) (bound : UInt32) (left i : Nat) (rnd : UInt32) :
    pick weight bound left (i + 1) rnd =
      (pick (fun m => weight (m + 1)) bound left i rnd).map (· + 1) := by
  induction left generalizing i rnd with
  | zero => rfl
  | succ left ih =>
      rw [pick, pick, ih, apply_ite (Option.map (· + 1)), Option.map_some]

/-- A loop over the elements of a list that are made from some of the indices finds what a
loop over all indices finds, if those that are left out have the weight 0. -/
theorem pick_filter {α : Type} (f : Nat → α) (d : α) (W : α → UInt32) (p : Nat → Prop)
    [DecidablePred p] {bound : UInt32} (left i : Nat) {rnd : UInt32} (hr : rnd ≤ bound)
    {l : List α} (hl : l = ((List.range' i left).filter p).map f) :
    (pick (fun m => W (l.getD m d)) bound l.length 0 rnd).map (l.getD · d) =
      (pick (fun k => if p k then W (f k) else 0) bound left i rnd).map f := by
  induction left generalizing i rnd l with
  | zero =>
      subst hl
      rfl
  | succ left ih =>
      by_cases hp : p i
      · simp only [List.range'_succ, List.filter_cons, hp, decide_true, if_true,
          List.map_cons] at hl
        subst hl
        rw [List.length_cons, pick, pick, if_pos hp, List.getD_cons_zero]
        split
        next h => rfl
        next h =>
          rw [← ih (i + 1) (UInt32.not_lt.mp h) rfl, pick_succ, Option.map_map]
          rfl
      · simp only [List.range'_succ, List.filter_cons, hp, decide_false, Bool.false_eq_true,
          if_false] at hl
        have hskip : pick (fun k => if p k then W (f k) else 0) bound (left + 1) i rnd =
            pick (fun k => if p k then W (f k) else 0) bound left (i + 1) rnd := by
          rw [pick, if_neg hp, UInt32.sub_zero, if_neg (UInt32.not_lt.mpr hr)]
        rw [hskip]
        exact ih (i + 1) hr hl

/-! ## Entries -/

/-- An area that there are columns for. -/
def InTable (area : Int) : Prop := 0 ≤ area ∧ area < 10

/-- An entry is valid: each column of weights that a generator uses is not negative and sums
up to the modulus that is used for it. The modulus for percentages depends on the version
of the tables. The ratios of weapons are summed up when they are used. -/
structure Valid (ent : PtEntry) (percents : Nat) : Prop where
  power : ∀ c : Int, 0 ≤ c → c ≤ 3 → Weights (fun i => (ent.powerPattern i c).toInt) 9 100
  percent : ∀ i < 3, ∀ area, InTable area → 0 ≤ (ent.areaPattern i area).toInt →
    Weights (fun j => ((ent.percentPattern j (ent.areaPattern i area).toInt).toNat : Int)) 23
      percents
  attachment : ∀ area, InTable area →
    Weights (fun k => (ent.percentAttachment k area).toInt) 6 100
  armor : Weights (fun i => (ent.armorRanking i).toInt) 5 100
  slot : Weights (fun i => (ent.slotRanking i).toInt) 5 100
  tool : ∀ area, InTable area →
    Weights (fun i => ((ent.toolFrequency i area).toNat : Int)) 28 10000
  tech : ∀ area, InTable area →
    Weights (fun i => ((ent.techFrequency i area).toNat : Int)) 19 1000

/-- The state when some random numbers have been drawn. -/
def GenState.drawn (s : GenState) (n : Nat) : GenState := { s with rng := fun m => s.rng (m + n) }

/-- What a random number is for a modulus. -/
def GenState.roll (s : GenState) (n modulus : Nat) : Int := ((s.rng n).toNat % modulus : Nat)

section Runs

variable {α : Type} (s : GenState)

@[simp]
theorem GenState.drawn_zero : s.drawn 0 = s := rfl

@[simp]
theorem GenState.drawn_drawn (m n : Nat) : (s.drawn m).drawn n = s.drawn (m + n) := by
  simp only [drawn, Nat.add_assoc, Nat.add_comm n m]

@[simp]
theorem GenState.drawn_rng (m n : Nat) : (s.drawn n).rng m = s.rng (m + n) := rfl

@[simp]
theorem run_draw_bind (f : UInt32 → Gen α) : (draw >>= f) s = f (s.rng 0) (s.drawn 1) := rfl

@[simp]
theorem run_access_bind (a : Access) (f : Unit → Gen α) :
    (access a >>= f) s = f () { s with log := s.log ++ [a] } := rfl

end Runs

/-! ## Armors, shields and tools -/

variable {ent : PtEntry} {area : Int} {percents : Nat} {pmt : Pmt} {item : GenItem}
  {s : GenState}

/-- The code of an armor or a shield, of which `base` is the lower half: the one that was
picked, or the one for the place that is chosen. -/
def GuardCode (ent : PtEntry) (area : Int) (base : UInt32) (picked : Bool) (item : GenItem)
    (s : GenState) (w0 : UInt32) : Prop :=
  if picked then w0 = item.w0
  else ∃ i, Chosen (fun j => (ent.armorRanking j).toInt) 5 (s.roll 0 100) i ∧
    w0 = base ||| (UInt32.ofInt (max 0 (ent.armorLevel - 3 + area + i)) <<< 16)

/-- The number of random numbers that are drawn for an item that may have been picked. -/
def drawsFor (picked : Bool) : Nat := if picked then 0 else 1

theorem guardCode_chosen (h : Valid ent percents) (area : Int) (item : GenItem) (s : GenState)
    (base : UInt32) (picked : Bool) :
    ∃ w0, GuardCode ent area base picked item s w0 ∧
      (if picked then pure item.w0 else commonGuard ent area base : Gen UInt32) s =
        .ok w0 (s.drawn (drawsFor picked)) := by
  cases picked with
  | true => exact ⟨item.w0, rfl, rfl⟩
  | false =>
      obtain ⟨i, hpick, hi⟩ := pick_word 100 (s.rng 0) h.armor (by decide) (by decide)
      refine ⟨_, ⟨i, hi, rfl⟩, ?_⟩
      simp only [Bool.false_eq_true, if_false, commonGuard, run_draw_bind, hpick]
      rfl

/-- What an armor is made of: a code, and the number of slots that is chosen. The boosts come
from the table of the armors. -/
def ArmorChosen (ent : PtEntry) (area : Int) (pmt : Pmt) (picked : Bool) (item : GenItem)
    (s : GenState) : Prop :=
  ∃ w0 n, GuardCode ent area 0x00000101 picked item s w0 ∧
    Chosen (fun i => (ent.slotRanking i).toInt) 5 (s.roll (drawsFor picked) 100) n ∧
    generateArmor ent area pmt item picked s =
      guardBoosts pmt (GenItem.setByte ⟨w0, 0, 0, 0⟩ 5 (UInt8.ofNat n))
        (s.drawn (drawsFor picked + 1))

/-- A shield has no slots. -/
def ShieldChosen (ent : PtEntry) (area : Int) (pmt : Pmt) (picked : Bool) (item : GenItem)
    (s : GenState) : Prop :=
  ∃ w0, GuardCode ent area 0x00000201 picked item s w0 ∧
    generateShield ent area pmt item picked s =
      guardBoosts pmt ⟨w0, 0, 0, 0⟩ (s.drawn (drawsFor picked))

/-- A tool is the one in the list at the index that is chosen. -/
def ToolChosen (ent : PtEntry) (area : Int) (s : GenState) : Prop :=
  ∃ i, Chosen (fun j => ((ent.toolFrequency j area).toNat : Int)) 28 (s.roll 0 10000) i ∧
    ∃ t, generateToolBase ent area s = .ok (toolBase.getD i itemNoSuchItem) t

/-- A technique is the one that is chosen, and its level is in the range for it and the area,
where there is one. -/
def TechChosen (ent : PtEntry) (area : Int) (item : GenItem) (s : GenState) : Prop :=
  ∃ i, Chosen (fun j => ((ent.techFrequency j area).toNat : Int)) 19 (s.roll 0 1000) i ∧
    ∃ t, generateTech ent area item s =
      let t1 := word (ent.techLevels i (area * 2))
      let t2 := word (ent.techLevels i (area * 2 + 1))
      if t1 = 0xFFFFFFFF ∨ t1 > t2 then .error (-1) t
      else
        let level := if t1 < t2 then (s.rng 0 / 1000) % ((t2 + 1) - t1) + t1 else t1
        .ok { item with w0 := item.w0 ||| (level <<< 16), w1 := UInt32.ofNat i } t

theorem armor_chosen (h : Valid ent percents) (picked : Bool) :
    ArmorChosen ent area pmt picked item s := by
  obtain ⟨w0, hcode, hrun⟩ := guardCode_chosen h area item s 0x00000101 picked
  obtain ⟨n, hpick, hn⟩ :=
    pick_word 100 (s.rng (drawsFor picked)) h.slot (by decide) (by decide)
  refine ⟨w0, n, hcode, hn, ?_⟩
  have hslots : armorSlots ent ⟨w0, 0, 0, 0⟩ (s.drawn (drawsFor picked)) =
      .ok (GenItem.setByte ⟨w0, 0, 0, 0⟩ 5 (UInt8.ofNat n)) (s.drawn (drawsFor picked + 1)) := by
    rw [armorSlots, run_draw_bind, GenState.drawn_rng, Nat.zero_add, hpick,
      GenState.drawn_drawn]
    rfl
  rw [generateArmor, Simulation.bind_ok hrun, Simulation.bind_ok hslots]

theorem shield_chosen (h : Valid ent percents) (picked : Bool) :
    ShieldChosen ent area pmt picked item s := by
  obtain ⟨w0, hcode, hrun⟩ := guardCode_chosen h area item s 0x00000201 picked
  exact ⟨w0, hcode, by rw [generateShield, Simulation.bind_ok hrun]⟩

theorem tool_chosen (h : Valid ent percents) (ha : InTable area) : ToolChosen ent area s := by
  obtain ⟨i, hpick, hi⟩ := pick_column (fun i => (ent.toolFrequency i area).toUInt32) 10000
    (s.rng 0) (h.tool area ha) (fun _ => by simp) (by decide) (by decide)
  refine ⟨i, hi, { s.drawn 1 with log := s.log ++ [.column area] }, ?_⟩
  rw [generateToolBase, run_draw_bind, run_access_bind, hpick]
  rfl

theorem tech_chosen (h : Valid ent percents) (ha : InTable area) :
    TechChosen ent area item s := by
  obtain ⟨i, hpick, hi⟩ := pick_column (fun i => (ent.techFrequency i area).toUInt32) 1000
    (s.rng 0) (h.tech area ha) (fun _ => by simp) (by decide) (by decide)
  refine ⟨i, hi, { s.drawn 1 with log := s.log ++ [.column area] }, ?_⟩
  rw [generateTech, run_draw_bind, run_access_bind, hpick]
  dsimp only
  split <;> rfl

end Sylverant.Ship.Pt
