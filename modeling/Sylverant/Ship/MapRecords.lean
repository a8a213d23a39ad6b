/-
# The records of a map

What each record of a map stands for: how many entries it has of its own, how many that
duplicate the last one of them, and which of its entries `parse_map` assigns to. Some
records leave entries as they were cleared. The tables are by the type of a record, and
the `switch` of `parse_map` does what they say.
-/

import Sylverant.Ship.MapParse

namespace Sylverant.Ship

/-! ## Records -/

/-- `bp_entry` and `rt_index`, which make up what an enemy is. -/
abbrev EnemyType : Type := UInt32 × UInt8

/-- The type of an enemy. -/
def GameEnemy.type (e : GameEnemy) : EnemyType := (e.bpEntry, e.rtIndex)

/-- An enemy with another type. -/
def GameEnemy.withType (e : GameEnemy) (t : EnemyType) : GameEnemy :=
  { e with bpEntry := t.1, rtIndex := t.2 }

namespace MapEnemy

variable (en : MapEnemy) (ep : Nat) (alt : Bool)

/-- The clones of a record, which are four for a Sinow without a number of them. -/
def cloneCount : Nat := if en.base = 0x0082 ∧ en.numClones.toNat = 0 then 4 else en.numClones.toNat

/-- The entries that a record of some type has besides its first one and its clones. -/
def extraCount : Nat :=
  match en.base with
  | 0x0042 => 30
  | 0x0064 => 4
  | 0x0065 => 2
  | 0x0084 => 8
  | 0x00A1 => 2
  | 0x00A7 => 4
  | 0x00C8 => 512
  | 0x00CA => 512
  | 0x00CB => 47
  | 0x00CC => 5
  | 0x00D4 => 4
  | 0x00E0 => if ep = 2 ∧ alt then 4 else 0
  | _ => 0

/-- The entries that a record stands for. -/
def size : Nat := 1 + en.extraCount ep alt + en.cloneCount

/-- The clones that duplicate an entry. A Recobox has Recons instead. -/
def copies : Nat := if en.base = 0x00DF then 0 else en.cloneCount

/-- The entries of a record before those that duplicate the last one of them. -/
def ownSize : Nat := en.size ep alt - en.copies

/-- A record of which only the first entry is assigned to, and the others are left out. -/
def Skips : Prop :=
  en.base ∈ [0x00CA, 0x00CB, 0x00CC, 0x00D4] ∨ en.base = 0x00E0 ∧ ep = 2 ∧ alt

instance : Decidable (en.Skips ep alt) := inferInstanceAs (Decidable (_ ∨ _))

/-- A record of a type that the first entry is assigned to for. -/
def Known : Prop :=
  en.base ∈ [0x0040, 0x0041, 0x0042, 0x0043, 0x0044, 0x0060, 0x0061, 0x0062, 0x0063, 0x0064,
    0x0065, 0x0080, 0x0081, 0x0082, 0x0083, 0x0084, 0x00A0, 0x00A1, 0x00A2, 0x00A4, 0x00A5,
    0x00A6, 0x00A7, 0x00A8, 0x00C0, 0x00C1, 0x00C5, 0x00C8, 0x00CA, 0x00CB, 0x00CC, 0x00D4,
    0x00D5, 0x00D6, 0x00D7, 0x00D8, 0x00D9, 0x00DA, 0x00DB, 0x00DC, 0x00DD, 0x00DE, 0x00DF,
    0x00E0, 0x00E1, 0x0110, 0x0111, 0x0112, 0x0113, 0x0114, 0x0115, 0x0116, 0x0117, 0x0119]

instance : Decidable en.Known := inferInstanceAs (Decidable (_ ∈ _))

/-- The last entry of a record that is assigned to, counted from its first one. -/
def lastAssigned : Option Nat :=
  if 0 < en.cloneCount then some (en.extraCount ep alt + en.cloneCount)
  else if en.Skips ep alt then some 0
  else if en.Known then some (en.extraCount ep alt)
  else none

variable {en}

theorem ownSize_eq (h : en.base ≠ 0x00DF) : en.ownSize ep alt = en.extraCount ep alt + 1 := by
  rw [ownSize, size, copies, if_neg h]
  omega

/-- The records that have a single entry of their own. -/
theorem extraCount_eq_zero {ep : Nat} {alt : Bool} (hskips : ¬en.Skips ep alt)
    (hgroup : en.base ∉ [0x0042, 0x0064, 0x0065, 0x0084, 0x00A1, 0x00A7, 0x00C8]) :
    en.extraCount ep alt = 0 := by
  simp only [Skips, List.mem_cons, List.not_mem_nil, or_false, not_or, not_and] at hskips hgroup
  unfold extraCount
  split <;> simp_all

end MapEnemy

/-! ## What the `switch` does -/

namespace Parsed

/-- The type for a place in a list of types, some of which are left out. -/
def typeAt (ts : List (Option EnemyType)) (k : Nat) : Option EnemyType := (ts[k]?).join

/-- Put types into entries from the one that `count` is at on, where there are types, and go on
to the last one of these entries. -/
def lay (s : Parsed) (ts : List (Option EnemyType)) : Parsed where
  gen i :=
    if s.count ≤ i then (typeAt ts (i - s.count)).elim (s.gen i) (s.gen i).withType else s.gen i
  count := s.count + (ts.length - 1)

variable (s : Parsed) (bp : UInt32) (rt : UInt8) (ts : List (Option EnemyType))

theorem eq_of_gen {s t : Parsed} (hgen : ∀ i, s.gen i = t.gen i) (hcount : s.count = t.count) :
    s = t := by
  cases s
  cases t
  cases funext hgen
  cases hcount
  rfl

theorem typeAt_append_none (n k : Nat) :
    typeAt (ts ++ List.replicate n none) k = typeAt ts k := by
  rw [typeAt, typeAt]
  rcases Nat.lt_or_ge k ts.length with hlt | hge
  · rw [List.getElem?_append_left hlt]
  · rw [List.getElem?_append_right hge, List.getElem?_eq_none hge, List.getElem?_replicate]
    split_ifs <;> rfl

theorem typeAt_append_one (t : Option EnemyType) (k : Nat) :
    typeAt (ts ++ [t]) k = if k = ts.length then t else typeAt ts k := by
  rw [typeAt, typeAt]
  split_ifs with hk
  · rw [hk, List.getElem?_concat_length]
    rfl
  · rcases Nat.lt_or_ge k ts.length with hlt | hge
    · rw [List.getElem?_append_left hlt]
    · rw [List.getElem?_eq_none hge, List.getElem?_eq_none (by simp; omega)]

theorem eq_lay : s = s.lay [none] := by
  refine eq_of_gen (fun i => ?_) rfl
  have hnone : typeAt [none] (i - s.count) = none := typeAt_append_none [] 1 _
  rw [lay]
  dsimp only
  rw [hnone, Option.elim_none, ite_self]

theorem skip_lay (n : Nat) (hts : ts ≠ []) :
    (s.lay ts).skip n = s.lay (ts ++ List.replicate n none) := by
  have hlength := List.length_pos_iff.mpr hts
  refine eq_of_gen (fun i => ?_) ?_
  · simp only [skip, lay, typeAt_append_none]
  · simp only [skip, lay, List.length_append, List.length_replicate]
    omega

theorem here_lay : (s.lay (ts ++ [none])).here bp rt = s.lay (ts ++ [some (bp, rt)]) := by
  have hcount : (s.lay (ts ++ [none])).count = s.count + ts.length := by
    simp [lay]
  refine eq_of_gen (fun i => ?_) (by simp [here, set, lay])
  rw [here, set, hcount]
  dsimp only
  by_cases hi : i = s.count + ts.length
  · subst hi
    rw [Function.update_self]
    simp [lay, typeAt_append_one, GameEnemy.withType]
  · rw [Function.update_of_ne hi]
    have hne (hle : s.count ≤ i) : i - s.count ≠ ts.length := by omega
    simp only [lay, typeAt_append_one]
    split_ifs with hle hk
    · exact absurd hk (hne hle)
    · rfl
    · rfl

theorem after_lay (n : Nat) (hts : ts ≠ []) :
    (s.lay ts).after bp rt n = s.lay (ts ++ List.replicate n (some (bp, rt))) := by
  induction n generalizing ts with
  | zero => rw [after, List.replicate_zero, List.append_nil]
  | succ n ih =>
      rw [after, skip_lay s ts 1 hts, List.replicate_one, here_lay, ih _ (by simp),
        List.append_assoc, List.singleton_append, List.replicate_succ]

theorem before_lay (n : Nat) :
    (s.lay (ts ++ [none])).before bp rt n =
      s.lay (ts ++ List.replicate n (some (bp, rt)) ++ [none]) := by
  induction n generalizing ts with
  | zero => rw [before, List.replicate_zero, List.append_nil]
  | succ n ih =>
      rw [before, here_lay, skip_lay s _ 1 (by simp), List.replicate_one, ih, List.replicate_succ,
        List.append_assoc ts, List.singleton_append]

theorem here_eq_lay : s.here bp rt = s.lay [some (bp, rt)] := by
  conv_lhs => rw [s.eq_lay]
  exact here_lay s bp rt []

theorem before_eq_lay (n : Nat) :
    s.before bp rt n = s.lay (List.replicate n (some (bp, rt)) ++ [none]) := by
  conv_lhs => rw [s.eq_lay]
  exact before_lay s bp rt [] n

theorem ite_here (c : Prop) [Decidable c] (bp' : UInt32) (rt' : UInt8) :
    (if c then s.here bp rt else s.here bp' rt') =
      s.here (if c then bp else bp') (if c then rt else rt') := by
  split_ifs <;> rfl

/-- The types that the `switch` puts into the entries of a record: one into each of them, or
only into the first one, or into none. -/
inductive LaysOut (en : MapEnemy) (ep : Nat) (alt : Bool) : List (Option EnemyType) → Prop
  | full {ts : List (Option EnemyType)} (hlength : ts.length = en.ownSize ep alt)
      (hall : ∀ t ∈ ts, t.isSome) (hskips : ¬en.Skips ep alt) (hknown : en.Known) :
      LaysOut en ep alt ts
  | first {t : EnemyType} {n : Nat} (hlength : n + 1 = en.ownSize ep alt)
      (hskips : en.Skips ep alt) (hknown : en.Known) :
      LaysOut en ep alt ([some t] ++ List.replicate n none)
  | nothing (hlength : 1 = en.ownSize ep alt) (hskips : ¬en.Skips ep alt) (hknown : ¬en.Known) :
      LaysOut en ep alt [none]

/-- Nothing is put into the entry of a record of another type. -/
theorem parseBase_unknown {en : MapEnemy} (ep : Nat) (alt : Bool) (h : ¬en.Known) :
    s.parseBase en ep alt = (s, en.copies) ∧ en.ownSize ep alt = 1 ∧ ¬en.Skips ep alt := by
  simp only [MapEnemy.Known, List.mem_cons, List.not_mem_nil, or_false, not_or] at h
  refine ⟨?_, ?_, ?_⟩
  · simp [parseBase, MapEnemy.copies, MapEnemy.cloneCount, h]
  · simp [MapEnemy.ownSize, MapEnemy.size, MapEnemy.extraCount, MapEnemy.copies, h]
  · simp [MapEnemy.Skips, h]

/-- A Recobox has its Recons among its own entries. -/
theorem parseBase_recobox {en : MapEnemy} (ep : Nat) (alt : Bool) (h : en.base = 0x00DF) :
    s.parseBase en ep alt =
        (s.lay ([some (0x41, 0x43)] ++ List.replicate en.numClones.toNat (some (0x42, 0x44))),
          en.copies) ∧
      LaysOut en ep alt
        ([some (0x41, 0x43)] ++ List.replicate en.numClones.toNat (some (0x42, 0x44))) := by
  constructor
  · rw [← after_lay _ _ _ _ _ (by simp), ← here_eq_lay]
    simp [parseBase, h, MapEnemy.copies]
  · refine .full ?_ ?_ ?_ ?_
    · simp [MapEnemy.ownSize, MapEnemy.size, MapEnemy.extraCount, MapEnemy.copies,
        MapEnemy.cloneCount, h]
      exact Nat.add_comm ..
    · simp
    · simp [MapEnemy.Skips, h]
    · simp [MapEnemy.Known, h]

/-- A record that leaves entries out has a type put into the first one. -/
theorem parseBase_skips {en : MapEnemy} {ep : Nat} {alt : Bool} (h : en.Skips ep alt) :
    ∃ t : EnemyType, ∀ s : Parsed,
      s.parseBase en ep alt = ((s.here t.1 t.2).skip (en.extraCount ep alt), en.copies) := by
  simp only [MapEnemy.Skips, List.mem_cons, List.not_mem_nil, or_false] at h
  rcases h with (h | h | h | h) | ⟨h, hep, halt⟩
  all_goals
    refine ⟨(?_, ?_), fun s => ?_⟩
    rotate_left 2
    · simp only [parseBase, ite_here, MapEnemy.extraCount, MapEnemy.copies, MapEnemy.cloneCount, *]
      rfl

/-- A record with more entries than one has types put into all of them. -/
theorem parseBase_group {en : MapEnemy} (ep : Nat) (alt : Bool)
    (h : en.base ∈ [0x0042, 0x0064, 0x0065, 0x0084, 0x00A1, 0x00A7, 0x00C8]) :
    ∃ ts, (∀ s : Parsed, s.parseBase en ep alt = (s.lay ts, en.copies)) ∧
      ts.length = en.extraCount ep alt + 1 ∧ ∀ t ∈ ts, t.isSome := by
  simp only [List.mem_cons, List.not_mem_nil, or_false] at h
  rcases h with h | h | h | h | h | h | h
  all_goals
    refine ⟨?_, fun s => ?_, ?_, ?_⟩
    rotate_left
    · simp only [parseBase, MapEnemy.copies, MapEnemy.cloneCount, h]
      first
        | rw [here_eq_lay, after_lay _ _ _ _ _ (by simp), after_lay _ _ _ _ _ (by simp)]
        | rw [here_eq_lay, after_lay _ _ _ _ _ (by simp)]
        | rw [s.before_eq_lay, before_lay, before_lay, here_lay]
      rfl
    · simp [-List.reduceReplicate, MapEnemy.extraCount, h]
    · simp [-List.reduceReplicate]

theorem ite_here_mk (c : Prop) [Decidable c] (bp' : UInt32) (rt' : UInt8) (n : Nat) :
    (if c then (s.here bp rt, n) else (s.here bp' rt', n)) =
      (s.here (if c then bp else bp') (if c then rt else rt'), n) := by
  split_ifs <;> rfl

/-- A record with one entry has a type put into it. -/
theorem parseBase_single {en : MapEnemy} {ep : Nat} {alt : Bool} (hknown : en.Known)
    (hskips : ¬en.Skips ep alt)
    (hgroup : en.base ∉ [0x0042, 0x0064, 0x0065, 0x0084, 0x00A1, 0x00A7, 0x00C8])
    (hrecobox : en.base ≠ 0x00DF) :
    ∃ t : EnemyType, ∀ s : Parsed, s.parseBase en ep alt = (s.here t.1 t.2, en.copies) := by
  simp only [MapEnemy.Known, MapEnemy.Skips, List.mem_cons, List.not_mem_nil, or_false,
    not_or] at hknown hskips hgroup
  obtain ⟨hskips, hepsilon⟩ := hskips
  by_cases hbase : en.base = 0x00E0
  case pos =>
    simp only [hbase, true_and] at hepsilon
    refine ⟨(0x43 + en.odd, 0x45 + en.odd.toUInt8), fun s => ?_⟩
    simp only [parseBase, hbase, if_neg hepsilon, MapEnemy.copies, MapEnemy.cloneCount]
    rfl
  clear hepsilon
  casesm* _ ∨ _, _ ∧ _
  -- The branches of one `case` differ in the type only.
  all_goals first
    | contradiction
    | refine ⟨(?_, ?_), fun s => ?_⟩
      rotate_left 2
      · simp only [parseBase, ite_here, ite_here_mk, MapEnemy.copies, MapEnemy.cloneCount, true_and,
          hknown]
        rfl

/-- What the `switch` does with a record: types are put into its own entries, and then there are
the entries to make that duplicate the last one of them. -/
theorem parseBase_eq (en : MapEnemy) (ep : Nat) (alt : Bool) :
    ∃ ts, (∀ s : Parsed, s.parseBase en ep alt = (s.lay ts, en.copies)) ∧
      LaysOut en ep alt ts := by
  by_cases hknown : en.Known
  case neg =>
    have hunknown (s : Parsed) := s.parseBase_unknown ep alt hknown
    refine ⟨[none], fun s => ?_, .nothing (hunknown .empty).2.1.symm (hunknown .empty).2.2 hknown⟩
    rw [← s.eq_lay]
    exact (hunknown s).1
  by_cases hrecobox : en.base = 0x00DF
  case pos =>
    exact ⟨_, fun s => (s.parseBase_recobox ep alt hrecobox).1,
      (Parsed.empty.parseBase_recobox ep alt hrecobox).2⟩
  have hsize := MapEnemy.ownSize_eq ep alt hrecobox
  by_cases hskips : en.Skips ep alt
  case pos =>
    obtain ⟨t, ht⟩ := parseBase_skips hskips
    refine ⟨_, fun s => ?_, .first (t := t) hsize.symm hskips hknown⟩
    rw [ht, here_eq_lay, skip_lay s _ _ (by simp)]
  by_cases hgroup : en.base ∈ [0x0042, 0x0064, 0x0065, 0x0084, 0x00A1, 0x00A7, 0x00C8]
  case pos =>
    obtain ⟨ts, hts, hlength, hall⟩ := parseBase_group ep alt hgroup
    exact ⟨ts, hts, .full (hlength.trans hsize.symm) hall hskips hknown⟩
  obtain ⟨t, ht⟩ := parseBase_single hknown hskips hgroup hrecobox
  have hextra := MapEnemy.extraCount_eq_zero hskips hgroup
  refine ⟨[some t], fun s => ?_, .full ?_ (by simp) hskips hknown⟩
  · rw [ht, here_eq_lay]
  · rw [hsize, hextra, List.length_singleton]

end Parsed

end Sylverant.Ship
