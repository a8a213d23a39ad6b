/-
# How far the enemies of a map reach

`parse_map` makes of each record of a map the enemies that it stands for, one behind the
other in its array, and counts them. What it assigns to is told here by what stands behind
the array: that stays as it is, whatever it was, exactly where no record is assigned to an
entry behind the array. Some records leave entries as they were cleared, so the count
alone does not say how far the function writes.
-/

import Mathlib.Algebra.GroupWithZero.Nat
import Sylverant.Ship.MapRecords

namespace Sylverant.Ship

namespace Parsed

variable (s : Parsed)

/-! ## What a record does -/

section Record

variable {en : MapEnemy} {ep : Nat} {alt : Bool} {ts : List (Option EnemyType)}

theorem gen_clone (n i : Nat) :
    (s.clone n).gen i =
      if s.count < i ∧ i ≤ s.count + n then (s.gen i).withType (s.gen s.count).type
      else s.gen i := by
  induction n generalizing s with
  | zero =>
      have hout : ¬(s.count < i ∧ i ≤ s.count + 0) := by omega
      rw [clone, if_neg hout]
  | succ n ih =>
      have hset (j : Nat) : ((s.set (s.count + 1) (s.gen s.count).bpEntry
          (s.gen s.count).rtIndex).skip 1).gen j =
            if j = s.count + 1 then (s.gen j).withType (s.gen s.count).type else s.gen j := by
        rw [skip, set]
        dsimp only
        split_ifs with hj
        · subst hj
          rw [Function.update_self]
          rfl
        · rw [Function.update_of_ne hj]
      have hcount : ((s.set (s.count + 1) (s.gen s.count).bpEntry
          (s.gen s.count).rtIndex).skip 1).count = s.count + 1 := rfl
      rw [clone, ih, hcount, hset, hset, if_pos rfl]
      by_cases hi : i = s.count + 1
      · subst hi
        have hin : s.count < s.count + 1 ∧ s.count + 1 ≤ s.count + (n + 1) := by omega
        rw [if_neg (by omega), if_pos rfl, if_pos hin]
      · rw [if_neg hi]
        split_ifs <;> first | rfl | omega

theorem gen_lay (i : Nat) : (s.lay ts).gen i =
    if s.count ≤ i then (typeAt ts (i - s.count)).elim (s.gen i) (s.gen i).withType
    else s.gen i := rfl

theorem copies_le (en : MapEnemy) : en.copies ≤ en.cloneCount := by
  rw [MapEnemy.copies]
  split_ifs <;> omega

theorem ownSize_pos (en : MapEnemy) (ep : Nat) (alt : Bool) : 0 < en.ownSize ep alt := by
  have := copies_le en
  rw [MapEnemy.ownSize, MapEnemy.size]
  omega

theorem ownSize_add_copies (en : MapEnemy) (ep : Nat) (alt : Bool) :
    en.ownSize ep alt + en.copies = en.size ep alt := by
  have := copies_le en
  rw [MapEnemy.ownSize, MapEnemy.size]
  omega

theorem LaysOut.length_eq (h : LaysOut en ep alt ts) : ts.length = en.ownSize ep alt := by
  cases h with
  | full hlength => exact hlength
  | first hlength => rw [← hlength, List.length_append, List.length_replicate, Nat.add_comm]; rfl
  | nothing hlength => exact hlength

theorem lastAssigned_of_copies (h : 0 < en.copies) :
    en.lastAssigned ep alt = some (en.ownSize ep alt - 1 + en.copies) := by
  have hle := copies_le en
  have hclones : en.copies = en.cloneCount := by
    rw [MapEnemy.copies] at h ⊢
    split_ifs at h ⊢ <;> omega
  rw [MapEnemy.lastAssigned, if_pos (by omega), MapEnemy.ownSize, MapEnemy.size]
  congr 1
  omega

theorem lastAssigned_full (hcopies : en.copies = 0) (hskips : ¬en.Skips ep alt)
    (hknown : en.Known) : en.lastAssigned ep alt = some (en.ownSize ep alt - 1) := by
  rw [MapEnemy.lastAssigned, MapEnemy.ownSize, MapEnemy.size, if_neg hskips, if_pos hknown]
  split_ifs <;> congr 1 <;> omega

theorem cloneCount_eq_zero (hcopies : en.copies = 0) (hbase : en.base ≠ 0x00DF) :
    en.cloneCount = 0 := by
  rwa [MapEnemy.copies, if_neg hbase] at hcopies

theorem lastAssigned_first (hcopies : en.copies = 0) (hskips : en.Skips ep alt) :
    en.lastAssigned ep alt = some 0 := by
  have hbase : en.base ≠ 0x00DF := by
    intro hbase
    simp [MapEnemy.Skips, hbase] at hskips
  rw [MapEnemy.lastAssigned, cloneCount_eq_zero hcopies hbase, if_neg (by omega), if_pos hskips]

theorem lastAssigned_nothing (hcopies : en.copies = 0) (hskips : ¬en.Skips ep alt)
    (hknown : ¬en.Known) : en.lastAssigned ep alt = none := by
  have hbase : en.base ≠ 0x00DF := by
    intro hbase
    simp [MapEnemy.Known, hbase] at hknown
  rw [MapEnemy.lastAssigned, cloneCount_eq_zero hcopies hbase, if_neg (by omega), if_neg hskips,
    if_neg hknown]

theorem typeAt_of_le {k : Nat} (h : ts.length ≤ k) : typeAt ts k = none := by
  rw [typeAt, List.getElem?_eq_none h]
  rfl

/-- A record, with the types that its own entries get. -/
theorem parseEnemy_eq (en : MapEnemy) (ep : Nat) (alt : Bool) :
    ∃ ts, LaysOut en ep alt ts ∧
      ∀ s : Parsed, s.parseEnemy en ep alt = ((s.lay ts).clone en.copies).skip 1 := by
  obtain ⟨ts, hbase, hts⟩ := parseBase_eq en ep alt
  refine ⟨ts, hts, fun s => ?_⟩
  rw [parseEnemy, hbase]

theorem count_lay (h : LaysOut en ep alt ts) :
    (s.lay ts).count = s.count + (en.ownSize ep alt - 1) := by
  rw [lay, h.length_eq]

/-- A record is counted with its size. -/
theorem count_parseEnemy (en : MapEnemy) (ep : Nat) (alt : Bool) :
    (s.parseEnemy en ep alt).count = s.count + en.size ep alt := by
  obtain ⟨ts, hts, hrun⟩ := parseEnemy_eq en ep alt
  have hpos := ownSize_pos en ep alt
  have hsum := ownSize_add_copies en ep alt
  rw [hrun, count_skip, count_clone, count_lay s hts]
  omega

/-- Entries before those of a record, and behind the last one that is assigned to, stay. -/
theorem gen_parseEnemy (en : MapEnemy) (ep : Nat) (alt : Bool) {i : Nat}
    (h : i < s.count ∨ ∀ l, en.lastAssigned ep alt = some l → s.count + l < i) :
    (s.parseEnemy en ep alt).gen i = s.gen i := by
  obtain ⟨ts, hts, hrun⟩ := parseEnemy_eq en ep alt
  have hpos := ownSize_pos en ep alt
  rw [hrun, skip, gen_clone, count_lay s hts]
  rcases h with hbefore | hbehind
  · rw [if_neg (by omega), gen_lay, if_neg (by omega)]
  by_cases hlow : i < s.count
  · rw [if_neg (by omega), gen_lay, if_neg (by omega)]
  by_cases hcopies : 0 < en.copies
  · have hi := hbehind _ (lastAssigned_of_copies hcopies)
    have hnone : typeAt ts (i - s.count) = none := typeAt_of_le (by rw [hts.length_eq]; omega)
    rw [if_neg (by omega), gen_lay, hnone, Option.elim_none, ite_self]
  · have hzero : en.copies = 0 := by omega
    have hnone : typeAt ts (i - s.count) = none := by
      cases hts with
      | full hlength hall hskips hknown =>
          have hi := hbehind _ (lastAssigned_full hzero hskips hknown)
          exact typeAt_of_le (by omega)
      | first hlength hskips hknown =>
          have hi := hbehind _ (lastAssigned_first hzero hskips)
          rw [typeAt_append_none]
          exact typeAt_of_le (by rw [List.length_singleton]; omega)
      | nothing => exact typeAt_append_none [] 1 _
    rw [if_neg (by omega), gen_lay, hnone, Option.elim_none, ite_self]

/-- The entries that are made last have the type of the one before them. -/
theorem type_copies (en : MapEnemy) (ep : Nat) (alt : Bool) {k : Nat} (hk : k ≤ en.copies) :
    ((s.parseEnemy en ep alt).gen (s.count + (en.ownSize ep alt - 1) + k)).type =
      ((s.parseEnemy en ep alt).gen (s.count + (en.ownSize ep alt - 1))).type := by
  obtain ⟨ts, hts, hrun⟩ := parseEnemy_eq en ep alt
  have hself (a n : Nat) : ¬(a < a ∧ a ≤ a + n) := fun h => Nat.lt_irrefl a h.1
  rw [hrun, skip]
  dsimp only
  rw [gen_clone, gen_clone, count_lay s hts, if_neg (hself _ _)]
  split_ifs with hin
  · rfl
  · rw [show k = 0 by omega, Nat.add_zero]

/-- The last entry that is assigned to gets a type that does not depend on what it was: one of
its own, or that of an entry before it. -/
theorem bpEntry_last {l : Nat} (h : en.lastAssigned ep alt = some l) :
    ∃ (v : Option UInt32) (k : Nat), (v = none → k < l) ∧ ∀ s : Parsed,
      ((s.parseEnemy en ep alt).gen (s.count + l)).bpEntry =
        v.getD (s.gen (s.count + k)).bpEntry := by
  obtain ⟨ts, hts, hrun⟩ := parseEnemy_eq en ep alt
  have hpos := ownSize_pos en ep alt
  by_cases hcopies : 0 < en.copies
  · obtain rfl := Option.some.inj ((lastAssigned_of_copies hcopies).symm.trans h)
    refine ⟨(typeAt ts (en.ownSize ep alt - 1)).map Prod.fst, en.ownSize ep alt - 1,
      fun _ => by omega, fun s => ?_⟩
    have hin : s.count + (en.ownSize ep alt - 1) <
        s.count + (en.ownSize ep alt - 1 + en.copies) ∧
        s.count + (en.ownSize ep alt - 1 + en.copies) ≤
          s.count + (en.ownSize ep alt - 1) + en.copies := by omega
    rw [hrun, skip]
    dsimp only
    rw [gen_clone, count_lay s hts, if_pos hin, GameEnemy.withType, gen_lay s (s.count + _),
      if_pos (Nat.le_add_right _ _), Nat.add_sub_cancel_left]
    cases typeAt ts (en.ownSize ep alt - 1) <;> rfl
  · have hzero : en.copies = 0 := by omega
    -- Without duplicates it is one of the own entries, with a type of its own.
    suffices htype : ∃ t, typeAt ts l = some t by
      obtain ⟨t, ht⟩ := htype
      refine ⟨some t.1, 0, fun hnone => absurd hnone (Option.some_ne_none _), fun s => ?_⟩
      rw [hrun, hzero, clone, skip]
      dsimp only
      rw [gen_lay, if_pos (Nat.le_add_right _ _), Nat.add_sub_cancel_left, ht]
      rfl
    cases hts with
    | full hlength hall hskips hknown =>
        obtain rfl := Option.some.inj ((lastAssigned_full hzero hskips hknown).symm.trans h)
        have hlt : en.ownSize ep alt - 1 < ts.length := by omega
        obtain ⟨t, ht⟩ := Option.isSome_iff_exists.mp (hall _ (List.getElem_mem hlt))
        refine ⟨t, ?_⟩
        rw [typeAt, List.getElem?_eq_getElem hlt, ht]
        rfl
    | first hlength hskips hknown =>
        obtain rfl := Option.some.inj ((lastAssigned_first hzero hskips).symm.trans h)
        exact ⟨_, rfl⟩
    | nothing hlength hskips hknown =>
        rw [lastAssigned_nothing hzero hskips hknown] at h
        cases h

end Record

end Parsed

/-! ## What a list of records does -/

section Lists

variable (ep : Nat) (alt : Bool)

/-- The entries that some records stand for. -/
def totalSize (ens : List MapEnemy) : Nat := (ens.map fun en => en.size ep alt).sum

theorem totalSize_cons (en : MapEnemy) (ens : List MapEnemy) :
    totalSize ep alt (en :: ens) = en.size ep alt + totalSize ep alt ens := by
  rw [totalSize, List.map_cons, List.sum_cons]
  rfl

theorem parseEnemies_append (xs ys : List MapEnemy) (s : Parsed) :
    parseEnemies ep alt (xs ++ ys) s = parseEnemies ep alt ys (parseEnemies ep alt xs s) := by
  induction xs generalizing s with
  | nil => rfl
  | cons x xs ih => rw [List.cons_append, parseEnemies, parseEnemies, ih]

theorem count_parseEnemies (ens : List MapEnemy) (s : Parsed) :
    (parseEnemies ep alt ens s).count = s.count + totalSize ep alt ens := by
  induction ens generalizing s with
  | nil => rfl
  | cons en ens ih => rw [parseEnemies, ih, s.count_parseEnemy, totalSize_cons, Nat.add_assoc]

/-- Each entry that a record assigns to comes before a bound. -/
def EndsBelow (bound : Nat) (ens : List MapEnemy) : Prop :=
  ∀ pre en post, ens = pre ++ en :: post → ∀ l, en.lastAssigned ep alt = some l →
    totalSize ep alt pre + l < bound

variable {ep alt}

theorem lastAssigned_lt {en : MapEnemy} {l : Nat} (h : en.lastAssigned ep alt = some l) :
    l < en.size ep alt := by
  rw [MapEnemy.lastAssigned] at h
  rw [MapEnemy.size]
  split_ifs at h <;> cases h <;> omega

theorem gen_parseEnemies_before {ens : List MapEnemy} {s : Parsed} {i : Nat} (h : i < s.count) :
    (parseEnemies ep alt ens s).gen i = s.gen i := by
  induction ens generalizing s with
  | nil => rfl
  | cons en ens ih =>
      have hcount := s.count_parseEnemy en ep alt
      rw [parseEnemies, ih (by omega), s.gen_parseEnemy en ep alt (.inl h)]

theorem gen_parseEnemies_behind {ens : List MapEnemy} {s : Parsed} {i : Nat}
    (h : ∀ pre en post, ens = pre ++ en :: post → ∀ l, en.lastAssigned ep alt = some l →
      s.count + totalSize ep alt pre + l < i) :
    (parseEnemies ep alt ens s).gen i = s.gen i := by
  induction ens generalizing s with
  | nil => rfl
  | cons en ens ih =>
      have hrest : ∀ pre en' post, ens = pre ++ en' :: post →
          ∀ l, en'.lastAssigned ep alt = some l →
            (s.parseEnemy en ep alt).count + totalSize ep alt pre + l < i := by
        rintro pre en' post rfl l hl
        have hi := h (en :: pre) en' post rfl l hl
        rw [totalSize_cons] at hi
        rw [s.count_parseEnemy]
        omega
      rw [parseEnemies, ih hrest]
      exact s.gen_parseEnemy en ep alt (.inr fun l hl => h [] en ens rfl l hl)

/-- An entry from the one on that `count` is at in the end is as it was. -/
theorem gen_parseEnemies_end {ens : List MapEnemy} {s : Parsed} {i : Nat}
    (h : s.count + totalSize ep alt ens ≤ i) : (parseEnemies ep alt ens s).gen i = s.gen i := by
  refine gen_parseEnemies_behind ?_
  rintro pre en post rfl l hl
  have hlt := lastAssigned_lt hl
  have hsplit : totalSize ep alt (pre ++ en :: post) =
      totalSize ep alt pre + totalSize ep alt (en :: post) := by
    rw [totalSize, List.map_append, List.sum_append]
    rfl
  rw [hsplit, totalSize_cons] at h
  omega

/-! ## The array -/

/-- An entry that was cleared. -/
def cleared : GameEnemy := { bpEntry := 0, rtIndex := 0 }

/-- The array after it was cleared, with what stands behind it. -/
def Parsed.inMemory (mem : Nat → GameEnemy) : Parsed where
  gen i := if i < genSize then cleared else mem i
  count := 0

variable (ep alt)

/-- What `parse_map` makes of a list, with what then stands behind the array. -/
def expandMap (mem : Nat → GameEnemy) (ens : List MapEnemy) : Parsed :=
  parseEnemies ep alt ens (.inMemory mem)

/-- The list is expanded inside of the array, whatever stands behind it; it is counted with the
size of each record; and the entries that are made as duplicates have the type of the one
that they duplicate. -/
structure ExpandsRight (ens : List MapEnemy) : Prop where
  inside : ∀ mem, ∀ i ≥ genSize, (expandMap ep alt mem ens).gen i = mem i
  count : ∀ mem, (expandMap ep alt mem ens).count = totalSize ep alt ens
  copies : ∀ mem pre en post, ens = pre ++ en :: post → ∀ k ≤ en.copies,
    let last := totalSize ep alt pre + (en.ownSize ep alt - 1)
    ((expandMap ep alt mem ens).gen (last + k)).type = ((expandMap ep alt mem ens).gen last).type

/-- The enemies of a map are those of the array. -/
theorem parseMap_eq_expandMap (ens : List MapEnemy) :
    parseMap ens ep alt = (List.range (totalSize ep alt ens)).map
      (expandMap ep alt (fun _ => cleared) ens).gen := by
  have hempty : Parsed.inMemory (fun _ => cleared) = Parsed.empty :=
    Parsed.eq_of_gen (fun _ => ite_self _) rfl
  rw [expandMap, hempty, ← Nat.zero_add (totalSize ep alt ens)]
  exact congrArg (fun n => (List.range n).map _) (count_parseEnemies ep alt ens Parsed.empty)

/-- Where each record stays inside, nothing behind the array changes. -/
theorem inside_of_endsBelow {ens : List MapEnemy} (h : EndsBelow ep alt genSize ens)
    (mem : Nat → GameEnemy) {i : Nat} (hi : genSize ≤ i) :
    (expandMap ep alt mem ens).gen i = mem i := by
  have hmem : (Parsed.inMemory mem).gen i = mem i := if_neg (Nat.not_lt.mpr hi)
  rw [expandMap, gen_parseEnemies_behind, hmem]
  intro pre en post hsplit l hl
  have hlt := h pre en post hsplit l hl
  have hcount : (Parsed.inMemory mem).count = 0 := rfl
  omega

theorem count_expandMap (mem : Nat → GameEnemy) (ens : List MapEnemy) :
    (expandMap ep alt mem ens).count = totalSize ep alt ens := by
  rw [expandMap, count_parseEnemies]
  exact Nat.zero_add _

/-- What is made of a record, in the end. -/
theorem gen_expandMap {pre post : List MapEnemy} {en : MapEnemy} (mem : Nat → GameEnemy) {i : Nat}
    (hi : i < totalSize ep alt pre + en.size ep alt) :
    (expandMap ep alt mem (pre ++ en :: post)).gen i =
      ((expandMap ep alt mem pre).parseEnemy en ep alt).gen i := by
  rw [expandMap, parseEnemies_append, parseEnemies, ← expandMap, gen_parseEnemies_before]
  rw [Parsed.count_parseEnemy, count_expandMap]
  exact hi

/-- A record that does not stay inside can be seen in what stands behind the array. -/
theorem endsBelow_of_inside {ens : List MapEnemy}
    (h : ∀ mem, ∀ i ≥ genSize, (expandMap ep alt mem ens).gen i = mem i) :
    EndsBelow ep alt genSize ens := by
  rintro pre en post rfl l hl
  by_contra hout
  have hL : genSize ≤ totalSize ep alt pre + l := Nat.not_lt.mp hout
  obtain ⟨v, k, hk, hlast⟩ := Parsed.bpEntry_last hl
  -- Behind the array there is one entry that is not what the record makes of it.
  let mem := Function.update (fun _ => cleared) (totalSize ep alt pre + l)
    { cleared with bpEntry := v.getD 0 + 1 }
  have hkept : (expandMap ep alt mem pre).gen (totalSize ep alt pre + k) =
      (Parsed.inMemory mem).gen (totalSize ep alt pre + k) :=
    gen_parseEnemies_end (Nat.le_trans (Nat.le_of_eq (Nat.zero_add _)) (Nat.le_add_right _ _))
  have hsource : v = none →
      ((expandMap ep alt mem pre).gen (totalSize ep alt pre + k)).bpEntry = 0 := by
    intro hv
    have hne : totalSize ep alt pre + k ≠ totalSize ep alt pre + l := by
      have := hk hv
      omega
    have hclear : mem (totalSize ep alt pre + k) = cleared := Function.update_of_ne hne ..
    rw [hkept, Parsed.inMemory]
    dsimp only
    rw [hclear, ite_self]
    rfl
  have hmade : ((expandMap ep alt mem (pre ++ en :: post)).gen (totalSize ep alt pre + l)).bpEntry =
      v.getD 0 := by
    have hrun := hlast (expandMap ep alt mem pre)
    rw [count_expandMap] at hrun
    rw [gen_expandMap ep alt mem (Nat.add_lt_add_left (lastAssigned_lt hl) _), hrun]
    cases v with
    | none => exact hsource rfl
    | some b => rfl
  rw [h mem _ hL] at hmade
  have hput : (mem (totalSize ep alt pre + l)).bpEntry = v.getD 0 + 1 := by
    rw [show mem (totalSize ep alt pre + l) = _ from Function.update_self ..]
  rw [hput] at hmade
  simp at hmade

/-- The duplicates always have the type of what they duplicate. -/
theorem type_expand_copies (mem : Nat → GameEnemy) (pre : List MapEnemy) (en : MapEnemy)
    (post : List MapEnemy) {k : Nat} (hk : k ≤ en.copies) :
    ((expandMap ep alt mem (pre ++ en :: post)).gen
        (totalSize ep alt pre + (en.ownSize ep alt - 1) + k)).type =
      ((expandMap ep alt mem (pre ++ en :: post)).gen
        (totalSize ep alt pre + (en.ownSize ep alt - 1))).type := by
  have hpos := Parsed.ownSize_pos en ep alt
  have hsum := Parsed.ownSize_add_copies en ep alt
  have htype := (expandMap ep alt mem pre).type_copies en ep alt hk
  rw [count_expandMap] at htype
  rw [gen_expandMap ep alt mem (by omega), gen_expandMap ep alt mem (by omega), htype]

/-- Lists are expanded right exactly where each entry that a record assigns to is in the array. -/
theorem expandsRight_iff (ens : List MapEnemy) :
    ExpandsRight ep alt ens ↔ EndsBelow ep alt genSize ens := by
  constructor
  · intro h
    exact endsBelow_of_inside ep alt h.inside
  · intro h
    refine ⟨fun mem i hi => inside_of_endsBelow ep alt h mem hi,
      fun mem => count_expandMap ep alt mem ens, ?_⟩
    rintro mem pre en post rfl k hk
    exact type_expand_copies ep alt mem pre en post hk

/-- One Savage Wolf with as many clones as the array has room for. -/
def manyWolves : MapEnemy where
  base := 0x0043
  numClones := 0xB50
  reserved10 := 0
  skin := 0

theorem not_expandsRight :
    ¬∀ (ens : List MapEnemy) (ep : Nat) (alt : Bool), ExpandsRight ep alt ens := by
  intro hall
  have hends := endsBelow_of_inside 1 false (hall [manyWolves] 1 false).inside
  exact absurd (hends [] manyWolves [] rfl 0xB50 (by decide)) (by decide)

end Lists

end Sylverant.Ship
