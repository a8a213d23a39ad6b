/-
# Loops with a trace

A loop of which every round does a list of things and then goes on or ends. That it ends, and
that all it does is good, is one inductive predicate on the state that it starts in.
-/

import Mathlib.Data.Finset.Card
import Mathlib.Data.Set.Finite.Basic
import Mathlib.Data.Set.Finite.Range

namespace TracedLoop

universe u v

variable {α : Type u} {σ : Type v}

/-- What the loop does, if it ends within so many rounds. -/
def run (body : σ → List α × Option σ) : Nat → σ → Option (List α)
  | 0, _ => none
  | rounds + 1, s =>
      match (body s).2 with
      | none => some (body s).1
      | some next => (run body rounds next).map ((body s).1 ++ ·)

/-- The loop ends, and all that it does before is good. -/
inductive Ends (body : σ → List α × Option σ) (good : α → Prop) : σ → Prop
  | last {s : σ} (hlast : (body s).2 = none) (hgood : ∀ a ∈ (body s).1, good a) :
      Ends body good s
  | more {s next : σ} (hnext : (body s).2 = some next) (hgood : ∀ a ∈ (body s).1, good a)
      (hrest : Ends body good next) : Ends body good s

variable {body : σ → List α × Option σ} {good : α → Prop} {s next : σ}

/-- The predicate says what it is for. -/
theorem ends_iff : Ends body good s ↔
    ∃ rounds acts, run body rounds s = some acts ∧ ∀ a ∈ acts, good a := by
  constructor
  · intro h
    induction h with
    | @last s hlast hgood =>
        refine ⟨1, (body s).1, ?_, hgood⟩
        rw [run, hlast]
    | @more s next hnext hgood _ ih =>
        obtain ⟨rounds, acts, hrun, hacts⟩ := ih
        refine ⟨rounds + 1, (body s).1 ++ acts, ?_, ?_⟩
        · rw [run, hnext]
          exact congrArg (Option.map ((body s).1 ++ ·)) hrun
        · intro a ha
          rcases List.mem_append.mp ha with ha | ha
          · exact hgood a ha
          · exact hacts a ha
  · rintro ⟨rounds, acts, hrun, hacts⟩
    induction rounds generalizing s acts with
    | zero => cases hrun
    | succ rounds ih =>
        rw [run] at hrun
        cases hbody : (body s).2 with
        | none =>
            rw [hbody] at hrun
            rw [← Option.some.inj hrun] at hacts
            exact Ends.last hbody hacts
        | some next =>
            rw [hbody] at hrun
            obtain ⟨rest, hrest, rfl⟩ := Option.map_eq_some_iff.mp hrun
            refine Ends.more hbody (fun a ha => hacts a (List.mem_append_left rest ha)) ?_
            exact ih rest hrest fun a ha => hacts a (List.mem_append_right _ ha)

/-- A loop that never ends is not good. -/
theorem not_ends_of_forever {I : σ → Prop}
    (hforever : ∀ s, I s → ∃ next, (body s).2 = some next ∧ I next) (hs : I s) :
    ¬Ends body good s := by
  intro h
  induction h with
  | @last s hlast _ =>
      obtain ⟨next, hnext, -⟩ := hforever s hs
      rw [hnext] at hlast
      cases hlast
  | @more s next hnext _ _ ih =>
      obtain ⟨next', hnext', hinv⟩ := hforever s hs
      obtain rfl := Option.some.inj (hnext.symm.trans hnext')
      exact ih hinv

/-! ## The states that a loop comes to -/

/-- The state after a number of rounds, if there is another round then. -/
def stateAt (body : σ → List α × Option σ) (s : σ) : Nat → Option σ
  | 0 => some s
  | n + 1 => (stateAt body s n).bind fun t => (body t).2

theorem stateAt_add (body : σ → List α × Option σ) (s : σ) (m n : Nat) :
    stateAt body s (m + n) = (stateAt body s m).bind fun t => stateAt body t n := by
  induction n with
  | zero => exact (Option.bind_fun_some _).symm
  | succ n ih =>
      rw [← Nat.add_assoc, stateAt, ih, Option.bind_assoc]
      rfl

theorem stateAt_succ (body : σ → List α × Option σ) (s : σ) (n : Nat) :
    stateAt body s (n + 1) = (body s).2.bind fun t => stateAt body t n := by
  rw [Nat.add_comm, stateAt_add]
  rfl

theorem stateAt_none_of_le {m n : Nat} (h : stateAt body s m = none) (hmn : m ≤ n) :
    stateAt body s n = none := by
  obtain ⟨k, rfl⟩ := Nat.exists_eq_add_of_le hmn
  rw [stateAt_add, h, Option.bind_none]

/-- A number of rounds is too small where there is another one behind them. -/
theorem run_eq_none_iff {n : Nat} : run body n s = none ↔ (stateAt body s n).isSome := by
  induction n generalizing s with
  | zero => exact ⟨fun _ => rfl, fun _ => rfl⟩
  | succ n ih =>
      rw [run, stateAt_succ]
      cases hbody : (body s).2 with
      | none => simp
      | some next => simpa using ih

/-- A loop ends, and all that it does is good, where its rounds come to an end and each of
them is good. -/
theorem ends_iff_states : Ends body good s ↔ (∃ n, stateAt body s n = none) ∧
    ∀ n t, stateAt body s n = some t → ∀ a ∈ (body t).1, good a := by
  constructor
  · intro h
    induction h with
    | @last s hlast hgood =>
        refine ⟨⟨1, hlast⟩, fun n t ht => ?_⟩
        cases n with
        | zero => exact Option.some.inj ht ▸ hgood
        | succ n =>
            rw [stateAt_succ, hlast] at ht
            cases ht
    | @more s next hnext hgood _ ih =>
        obtain ⟨⟨n, hn⟩, hrest⟩ := ih
        refine ⟨⟨n + 1, by rw [stateAt_succ, hnext]; exact hn⟩, fun m t ht => ?_⟩
        cases m with
        | zero => exact Option.some.inj ht ▸ hgood
        | succ m =>
            rw [stateAt_succ, hnext] at ht
            exact hrest m t ht
  · rintro ⟨⟨n, hn⟩, hgood⟩
    induction n generalizing s with
    | zero => cases hn
    | succ n ih =>
        cases hnext : (body s).2 with
        | none => exact .last hnext (hgood 0 s rfl)
        | some next =>
            rw [stateAt_succ, hnext] at hn
            refine .more hnext (hgood 0 s rfl) (ih (fun m t ht => hgood (m + 1) t ?_) hn)
            rw [stateAt_succ, hnext]
            exact ht

/-- A loop that comes to a state again comes to it over and over. -/
theorem stateAt_again {t : σ} {m d : Nat} (h : stateAt body s m = some t)
    (hagain : stateAt body s (m + d) = some t) (k : Nat) :
    stateAt body s (m + k * d) = some t := by
  rw [stateAt_add, h] at hagain
  induction k with
  | zero => rwa [Nat.zero_mul]
  | succ k ih =>
      rw [Nat.succ_mul, ← Nat.add_assoc, stateAt_add, ih]
      exact hagain

/-- No state of a loop that ends is reached twice. -/
theorem Ends.apart (h : Ends body good s) {m n : Nat} {t : σ} (hm : stateAt body s m = some t)
    (hn : stateAt body s n = some t) : m = n := by
  obtain ⟨⟨last, hlast⟩, -⟩ := ends_iff_states.mp h
  -- Of two different rounds with one state, the later one comes to it again.
  have hnot {a b : Nat} (ha : stateAt body s a = some t) (hb : stateAt body s b = some t) :
      ¬a < b := by
    intro hab
    obtain ⟨d, rfl⟩ := Nat.exists_eq_add_of_lt hab
    have hlater : stateAt body s (a + (d + 1)) = some t := hb
    have hagain := stateAt_again ha hlater last
    have hle : last ≤ a + last * (d + 1) := by
      rw [Nat.mul_succ]
      omega
    rw [stateAt_none_of_le hlast hle] at hagain
    cases hagain
  have hmn := hnot hm hn
  have hnm := hnot hn hm
  omega

/-- A loop that comes only to finitely many states ends, and all that it does is good,
exactly where each round is good and no state is reached twice. -/
theorem ends_iff_apart (hfin : {t | ∃ n, stateAt body s n = some t}.Finite) :
    Ends body good s ↔ (∀ n t, stateAt body s n = some t → ∀ a ∈ (body t).1, good a) ∧
      ∀ m n t, stateAt body s m = some t → stateAt body s n = some t → m = n := by
  constructor
  · intro h
    exact ⟨(ends_iff_states.mp h).2, fun m n t hm hn => h.apart hm hn⟩
  · rintro ⟨hgood, hapart⟩
    refine ends_iff_states.mpr ⟨?_, hgood⟩
    by_contra hall
    have hsome (n : Nat) : ∃ t, stateAt body s n = some t :=
      Option.ne_none_iff_exists'.mp fun hnone => hall ⟨n, hnone⟩
    choose f hf using hsome
    have hinj : Function.Injective f := fun m n hmn =>
      hapart m n (f m) (hf m) (by rw [hmn]; exact hf n)
    exact Set.infinite_range_of_injective hinj
      (hfin.subset (Set.range_subset_iff.mpr fun n => ⟨n, hf n⟩))

/-- A loop that ends needs at most one round more than there are states from which it may
go on. -/
theorem Ends.run_isSome (h : Ends body good s) {S : Finset σ}
    (hS : ∀ t, (body t).2.isSome → t ∈ S) : (run body (S.card + 1) s).isSome := by
  by_contra hnone
  rw [Bool.not_eq_true, Option.isSome_eq_false_iff, Option.isNone_iff_eq_none,
    run_eq_none_iff] at hnone
  have hsome : ∀ n ∈ Finset.range (S.card + 1), ∃ t ∈ S, stateAt body s n = some t := by
    intro n hn
    have hnext : (stateAt body s (n + 1)).isSome := by
      by_contra hlast
      rw [Bool.not_eq_true, Option.isSome_eq_false_iff, Option.isNone_iff_eq_none] at hlast
      rw [stateAt_none_of_le hlast (Finset.mem_range.mp hn)] at hnone
      cases hnone
    rw [stateAt] at hnext
    cases ht : stateAt body s n with
    | none =>
        rw [ht] at hnext
        cases hnext
    | some t =>
        rw [ht] at hnext
        exact ⟨t, hS t hnext, rfl⟩
  have : Nonempty σ := ⟨s⟩
  choose! f hf hstate using hsome
  have hcard : S.card < (Finset.range (S.card + 1)).card := by
    rw [Finset.card_range]
    exact Nat.lt_succ_self _
  have hmaps : Set.MapsTo f (Finset.range (S.card + 1)) S := fun n hn => hf n hn
  obtain ⟨m, hm, n, hn, hne, heq⟩ := Finset.exists_ne_map_eq_of_card_lt_of_maps_to hcard hmaps
  exact hne (h.apart (hstate m hm) (heq ▸ hstate n hn))

end TracedLoop
