/-
# The match search

The hash table of the encoder is a table of chains over the window, so that a
search visits every earlier position of the window with the same hash, newest
first. The result of a search is therefore a function of the input and the
position alone, `bestMatch`, whatever was searched and cut before.
-/

import Sylverant.Library.HashChain
import Sylverant.Prs.Comp

namespace Sylverant.Prs

open HashChain (Chains below live)

/-! ## The table -/

/-- The table after the strings at positions below `count` have been added and
positions more than a window before `horizon` have stopped to matter. -/
def HashCxt.Holds (base : Nat) (src : Nat → UInt8) (hc : HashCxt) (count horizon : Nat) : Prop :=
  Chains maxWindow (hashStr src) hc.hash (hc.prev base) count horizon

namespace HashCxt

variable {base : Nat} {src : Nat → UInt8} {hc : HashCxt} {count horizon : Nat}

/-- Positions less than a window apart have different slots. -/
theorem slot_ne {q e : Nat} (hlt : q < e) (hnear : e < q + maxWindow) :
    slot base q ≠ slot base e := by
  intro heq
  simp only [slot, maxWindow] at *
  omega

@[simp]
theorem prev_setPrev_self (s : Nat) (ent : Option Nat) :
    (hc.setPrev base s ent).prev base s = ent :=
  Function.update_self ..

theorem prev_setPrev_of_ne {s q : Nat} (hne : slot base q ≠ slot base s) (ent : Option Nat) :
    (hc.setPrev base s ent).prev base q = hc.prev base q :=
  Function.update_of_ne hne ..

@[simp]
theorem hash_setPrev (s : Nat) (ent : Option Nat) : (hc.setPrev base s ent).hash = hc.hash := rfl

@[simp]
theorem prev_setEnt (h : UInt8) (ent : Option Nat) :
    (hc.setEnt h ent).prev base = hc.prev base := rfl

theorem holds_empty (base : Nat) (src : Nat → UInt8) : empty.Holds base src 0 0 :=
  Chains.empty maxWindow (hashStr src) _

theorem Holds.add (h : hc.Holds base src count horizon) :
    (hc.addToHash base count (hashStr src count)).Holds base src (count + 1) horizon := by
  refine Chains.add h ?_ fun e he hin => ?_
  · exact prev_setPrev_self count _
  · exact prev_setPrev_of_ne (slot_ne he hin) _

theorem Holds.cut (h : hc.Holds base src count horizon) {e e' : Nat} (he : e < count)
    (hin : count ≤ e + maxWindow) (hp : hc.prev base e = some e')
    (hout : e' + maxWindow < horizon) :
    (hc.setPrev base e none).Holds base src count horizon := by
  refine Chains.cut h he hin hp hout (prev_setPrev_self e none) fun q hq hwin hne => ?_
  refine prev_setPrev_of_ne ?_ none
  rcases Nat.lt_or_gt_of_ne hne with hlt | hgt
  · exact slot_ne hlt (by omega)
  · exact (slot_ne hgt (by omega)).symm

end HashCxt

/-! ## The best match -/

/-- Take account of the match at `q` for the string at `p`. -/
def considerMatch (src : Nat → UInt8) (n p : Nat) (longest : Int × Option Nat) (q : Nat) :
    Int × Option Nat :=
  keepLongest (CInt.ofInt (matchLoop src p q (n - p))) q longest

/-- Whether `q` is in the window of `p` and has its hash. -/
def sameHash (src : Nat → UInt8) (p : Nat) : Nat → Bool :=
  live maxWindow (hashStr src) p (hashStr src p)

/-- The match a search at `p` settles on, in an input of `n` bytes. -/
def bestMatch (src : Nat → UInt8) (n p : Nat) : Int × Option Nat :=
  (below (sameHash src p) p).foldl (considerMatch src n p) (0, none)

/-- The offset of the best match, zero if there is none. -/
def bestOffset (src : Nat → UInt8) (n p : Nat) : Int :=
  match (bestMatch src n p).2 with
  | some q => CInt.ofInt (CInt.ofInt q - CInt.ofInt p)
  | none => 0

section Search

variable {base : Nat} {cxt : CompCxt} {hc : HashCxt} {horizon : Nat}

theorem beyondWindow_iff {p e : Nat} (h : e < p) :
    beyondWindow p e = true ↔ e + maxWindow < p := by
  simp only [beyondWindow, Bool.or_eq_true, decide_eq_true_eq]
  omega

/-- Where the link of a position of the window leads: nowhere, out of the window, or to the
next position that a search visits. -/
theorem HashCxt.Holds.link_cases {src : Nat → UInt8} {p e : Nat} (h : hc.Holds base src p p)
    (hlt : e < p) (hin : p ≤ e + maxWindow) (hkey : hashStr src e = hashStr src p) :
    (hc.prev base e = none ∧ below (sameHash src p) e = []) ∨
      (∃ e', hc.prev base e = some e' ∧ beyondWindow p e' = true ∧
        below (sameHash src p) e = [] ∧ (hc.setPrev base e none).Holds base src p p) ∨
      ∃ e', hc.prev base e = some e' ∧ beyondWindow p e' = false ∧ e' < e ∧
        p ≤ e' + maxWindow ∧ hashStr src e' = hashStr src p ∧
        below (sameHash src p) e = below (sameHash src p) (e' + 1) := by
  cases hp : hc.prev base e with
  | none =>
      refine .inl ⟨rfl, ?_⟩
      rw [sameHash, ← hkey]
      exact Chains.below_of_prev_none h hlt hin hp
  | some e' =>
      obtain ⟨hlt', hkey', -⟩ := Chains.prev_some h e hlt hin e' hp
      have hbeyond := beyondWindow_iff (p := p) (e := e') (by omega)
      cases hout : beyondWindow p e' with
      | true =>
          have hfar := hbeyond.mp hout
          refine .inr (.inl ⟨e', rfl, hout, ?_, h.cut hlt hin hp hfar⟩)
          rw [sameHash, ← hkey]
          exact Chains.below_of_prev_out h hlt hin hp hfar
      | false =>
          have hnear : p ≤ e' + maxWindow := by
            rw [← Bool.not_eq_true, hbeyond] at hout
            omega
          refine .inr (.inr ⟨e', rfl, hout, hlt', hnear, hkey'.trans hkey, ?_⟩)
          rw [sameHash, ← hkey]
          exact Chains.below_of_prev_some h hlt hin hp

/-- Where a search begins: nowhere, out of the window, or at the first position it visits. -/
theorem HashCxt.Holds.head_cases {src : Nat → UInt8} {p : Nat} (h : hc.Holds base src p p) :
    (hc.hash (hashStr src p) = none ∧ below (sameHash src p) p = []) ∨
      (∃ e, hc.hash (hashStr src p) = some e ∧ beyondWindow p e = true ∧
        below (sameHash src p) p = [] ∧
        (hc.setEnt (hashStr src p) none).Holds base src p p) ∨
      ∃ e, hc.hash (hashStr src p) = some e ∧ beyondWindow p e = false ∧ e < p ∧
        p ≤ e + maxWindow ∧ hashStr src e = hashStr src p ∧
        below (sameHash src p) p = below (sameHash src p) (e + 1) := by
  cases hhead : hc.hash (hashStr src p) with
  | none => exact .inl ⟨rfl, Chains.below_of_head_none h hhead⟩
  | some e =>
      obtain ⟨hlt, hkey, -⟩ := Chains.head_some h _ e hhead
      have hbeyond := beyondWindow_iff hlt
      cases hout : beyondWindow p e with
      | true =>
          have hfar := hbeyond.mp hout
          exact .inr (.inl ⟨e, rfl, hout, Chains.below_of_head_out h hhead hfar,
            Chains.dropHead h hhead hfar⟩)
      | false =>
          have hnear : p ≤ e + maxWindow := by
            rw [← Bool.not_eq_true, hbeyond] at hout
            omega
          exact .inr (.inr ⟨e, rfl, hout, hlt, hnear, hkey, Chains.below_of_head_some h hhead⟩)

/-- Following the chain from a position of the window considers every position
of the window from there on. -/
theorem followChain_eq (fuel : Nat) {e : Nat}
    (hc : HashCxt) (h : hc.Holds base cxt.src cxt.srcPos cxt.srcPos) (hlt : e < cxt.srcPos)
    (hin : cxt.srcPos ≤ e + maxWindow) (hkey : hashStr cxt.src e = hashStr cxt.src cxt.srcPos)
    (hfuel : e < fuel) (longest : Int × Option Nat) :
    ∃ hc', followChain base cxt fuel hc e longest =
        .ok ((below (sameHash cxt.src cxt.srcPos) (e + 1)).foldl
          (considerMatch cxt.src cxt.srcLen cxt.srcPos) longest, hc') ∧
      hc'.Holds base cxt.src cxt.srcPos cxt.srcPos := by
  induction fuel generalizing e longest with
  | zero => omega
  | succ fuel ih =>
      have hvisit : below (sameHash cxt.src cxt.srcPos) (e + 1) =
          e :: below (sameHash cxt.src cxt.srcPos) e := Chains.below_of_live hkey hin
      rw [hvisit, List.foldl_cons]
      obtain ⟨hp, hend⟩ | ⟨e', hp, hout, hend, hcut⟩ | ⟨e', hp, hout, hlt', hnear, hkey', hnext⟩ :=
        h.link_cases hlt hin hkey
      · refine ⟨hc, ?_, h⟩
        simp only [followChain, hp, hend, List.foldl_nil]
        rfl
      · refine ⟨hc.setPrev base e none, ?_, hcut⟩
        simp only [followChain, hp, hout, if_true, hend, List.foldl_nil]
        rfl
      · rw [hnext]
        simp only [followChain, hp, hout, if_false, Bool.false_eq_true]
        exact ih (by omega) hnear hkey' (by omega) _

/-- The table after a search that is not lazy has the current string as well. -/
def HashCxt.searched (lazy : Bool) (count : Nat) : Nat := if lazy then count else count + 1

theorem HashCxt.Holds.added (h : hc.Holds base cxt.src cxt.srcPos cxt.srcPos) (lazy : Bool) :
    (if lazy then hc else hc.addToHash base cxt.srcPos (hashStr cxt.src cxt.srcPos)).Holds base
      cxt.src (HashCxt.searched lazy cxt.srcPos) cxt.srcPos := by
  cases lazy with
  | true => exact h
  | false => exact h.add

/-- A search finds the best match and keeps the table. -/
theorem findLongestMatch_eq (cxt : CompCxt) (lazy : Bool)
    (h : hc.Holds base cxt.src cxt.srcPos horizon)
    (hle : horizon ≤ cxt.srcPos) (hmore : cxt.srcPos < cxt.srcLen) :
    ∃ hc', findLongestMatch base cxt hc lazy =
        .ok ((bestMatch cxt.src cxt.srcLen cxt.srcPos).1,
          bestOffset cxt.src cxt.srcLen cxt.srcPos, hc') ∧
      hc'.Holds base cxt.src (HashCxt.searched lazy cxt.srcPos) cxt.srcPos := by
  have hnow : hc.Holds base cxt.src cxt.srcPos cxt.srcPos := Chains.advance h hle
  have hsome : ¬ cxt.srcPos ≥ cxt.srcLen := Nat.not_le.mpr hmore
  have hnil : below (sameHash cxt.src cxt.srcPos) cxt.srcPos = [] →
      (bestMatch cxt.src cxt.srcLen cxt.srcPos).1 = 0 ∧
        bestOffset cxt.src cxt.srcLen cxt.srcPos = 0 := by
    intro hempty
    have hbest : bestMatch cxt.src cxt.srcLen cxt.srcPos = (0, none) := by
      rw [bestMatch, hempty, List.foldl_nil]
    simp only [bestOffset, hbest, and_self]
  obtain ⟨hhead, hempty⟩ | ⟨e, hhead, hout, hempty, hdrop⟩ |
    ⟨e, hhead, hout, hlt, hin, hkey, hall⟩ := hnow.head_cases
  · obtain ⟨hlen, hoff⟩ := hnil hempty
    refine ⟨_, ?_, hnow.added lazy⟩
    simp only [findLongestMatch, hsome, if_false, hhead, hlen, hoff]
  · obtain ⟨hlen, hoff⟩ := hnil hempty
    refine ⟨_, ?_, hdrop.added lazy⟩
    simp only [findLongestMatch, hsome, if_false, hhead, hout, if_true, hlen, hoff]
  · obtain ⟨hc', hfollow, hkept⟩ := followChain_eq (cxt.srcPos + 1) hc hnow hlt hin hkey
      (by omega) (0, none)
    rw [← hall] at hfollow
    change _ = Except.ok (bestMatch cxt.src cxt.srcLen cxt.srcPos, hc') at hfollow
    refine ⟨_, ?_, hkept.added lazy⟩
    simp only [findLongestMatch, hsome, if_false, hhead, hout, Bool.false_eq_true, hfollow,
      bestOffset]
    generalize bestMatch cxt.src cxt.srcLen cxt.srcPos = best
    obtain ⟨len, ent⟩ := best
    cases ent <;> rfl

end Search

end Sylverant.Prs
