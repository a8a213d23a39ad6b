/-
# The cache of a quest's objects and enemies

What a game loads of a quest is what the sections of the quest say, unless there are two
sections of a kind for one area: the cache then has the objects or enemies of the last
one only, but it counts the objects of both.
-/

import Sylverant.Ship.QuestSections

namespace Sylverant.Ship.QuestMap

open RandomAccess (Image Stream)
open Sylverant.Archive (le32 ofLe32 ofLe32_le32_of_lt length_le32)

/-! ## What a quest brings -/

/-- The objects of a section, as they are stored. -/
def Section.objects (s : Section) : List (List UInt8) :=
  (List.range (s.body.length / objectSize)).map fun j =>
    (s.body.drop (j * objectSize)).take objectSize

/-- The enemies that `parse_map` makes of a section. -/
def Section.enemies (episode : Nat) (s : Section) : List GameEnemy :=
  parseMap (mapEnemies (memory s.body) 0 s.body.length) episode (altArea episode s.area)

/-- The objects that are stored, in the order of the areas: of several sections for one
area, those of the last one. -/
def storedObjects (ss : List Section) : List (List UInt8) :=
  (List.range 17).flatMap fun a => (lastSection .objects a ss).elim [] Section.objects

/-- The enemies that are stored for the first areas. -/
def enemiesUpTo (episode : Nat) (ss : List Section) (n : Nat) : List GameEnemy :=
  (List.range n).flatMap fun a => (lastSection .enemies a ss).elim [] (Section.enemies episode)

/-- The enemies that are stored. -/
def storedEnemies (episode : Nat) (ss : List Section) : List GameEnemy := enemiesUpTo episode ss 17

/-- The enemies of all sections, in the order of the areas. -/
def questEnemies (episode : Nat) (ss : List Section) : List GameEnemy :=
  (List.range 17).flatMap fun a =>
    (ss.filter fun s => s.kind = .enemies ∧ s.area = a).flatMap (Section.enemies episode)

/-- A section is the last one of its kind for its area. -/
def Kept (kind : SectionKind) (ss : List Section) (s : Section) : Prop :=
  ∃ a < 17, lastSection kind a ss = some s

/-- A section has a later one of its kind for the same area. -/
def Superseded (s : Section) (back : List Section) : Prop :=
  ∃ s' ∈ back, s'.kind = s.kind ∧ s'.area = s.area

/-- Sections of a kind that have a later one for the same area are too small to hold one
entry. -/
def NoneLost (kind : SectionKind) (size : Nat) (ss : List Section) : Prop :=
  ∀ front s back, ss = front ++ s :: back → s.kind = kind → Superseded s back →
    s.body.length < size

/-! ## What is lost -/

section Lost

variable {kind : SectionKind} {ss : List Section} {s : Section} {w : Section → Nat} {a : Nat}

theorem lastSection_cons : lastSection kind a (s :: ss) =
    match lastSection kind a ss with
    | some x => some x
    | none => if s.kind = kind ∧ s.area = a then some s else none := by
  rw [lastSection, lastSection, List.findRev?]
  cases List.findRev? (fun s : Section => s.kind = kind ∧ s.area = a) ss with
  | some q => rfl
  | none => simp only [decide_eq_true_eq]

theorem lastSection_eq_none : lastSection kind a ss = none ↔
    ∀ x ∈ ss, ¬(x.kind = kind ∧ x.area = a) := by
  rw [lastSection, List.findRev?_eq_find?_reverse, List.find?_eq_none]
  simp only [List.mem_reverse, decide_eq_true_eq]

/-- What the sections measure that have a later one. -/
def lost (kind : SectionKind) (w : Section → Nat) : List Section → Nat
  | [] => 0
  | s :: ss =>
      (if s.kind = kind ∧ (lastSection kind s.area ss).isSome then w s else 0) + lost kind w ss

/-- A sum of which one summand is another one. -/
theorem sum_range_add_ite (f : Nat → Nat) (n c v : Nat) :
    ((List.range n).map fun a => f a + if c = a then v else 0).sum =
      ((List.range n).map f).sum + if c < n then v else 0 := by
  induction n with
  | zero => rfl
  | succ n ih =>
      rw [List.range_succ, List.map_append, List.sum_append, ih, List.map_append, List.sum_append,
        List.map_singleton, List.map_singleton, List.sum_singleton, List.sum_singleton]
      rcases Nat.lt_trichotomy c n with hlt | rfl | hgt
      · rw [if_pos hlt, if_neg (Nat.ne_of_lt hlt), if_pos (Nat.lt_succ_of_lt hlt)]
        omega
      · rw [if_neg (Nat.lt_irrefl c), if_pos rfl, if_pos (Nat.lt_succ_self c)]
        omega
      · rw [if_neg (Nat.lt_asymm hgt), if_neg (Nat.ne_of_gt hgt),
          if_neg (Nat.not_lt.mpr (Nat.succ_le_of_lt hgt))]
        rfl

/-- All sections together measure what the last ones for each area do, and what is lost. -/
theorem sum_eq_last_add_lost (kind : SectionKind) (w : Section → Nat)
    (hareas : ∀ s ∈ ss, s.area < 17) :
    (ss.map fun s => if s.kind = kind then w s else 0).sum =
      ((List.range 17).map fun a => (lastSection kind a ss).elim 0 w).sum + lost kind w ss := by
  induction ss with
  | nil =>
      have hnone : ∀ a, (lastSection kind a []).elim 0 w = 0 := fun _ => rfl
      simp only [hnone, List.map_const', List.sum_replicate_nat, lost]
      rfl
  | cons s ss ih =>
      have hlast : ∀ a, (lastSection kind a (s :: ss)).elim 0 w =
          (lastSection kind a ss).elim 0 w +
            if s.area = a then
              (if s.kind = kind ∧ lastSection kind s.area ss = none then w s else 0) else 0 := by
        intro a
        rw [lastSection_cons]
        by_cases harea : s.area = a
        · subst harea
          cases hsome : lastSection kind s.area ss with
          | some x => simp
          | none => by_cases hkind : s.kind = kind <;> simp [hkind]
        · rw [if_neg harea]
          cases lastSection kind a ss with
          | some x => rfl
          | none =>
              dsimp only
              rw [if_neg fun h => harea h.2]
              rfl
      have hrest := ih fun x hx => hareas x (List.mem_cons_of_mem s hx)
      have harea := hareas s List.mem_cons_self
      rw [List.map_cons, List.sum_cons, hrest, List.map_congr_left fun a _ => hlast a,
        sum_range_add_ite, if_pos harea, lost]
      by_cases hkind : s.kind = kind
      · cases lastSection kind s.area ss with
        | some x =>
            simp [hkind]
            omega
        | none =>
            simp [hkind]
            omega
      · simp [hkind]

/-- Nothing is lost where the sections with a later one measure nothing. -/
theorem lost_eq_zero_iff {size : Nat} (hw : ∀ s, w s = 0 ↔ s.body.length < size) :
    lost kind w ss = 0 ↔ NoneLost kind size ss := by
  induction ss with
  | nil =>
      refine iff_of_true rfl fun front s back h => ?_
      simp at h
  | cons s ss ih =>
      have hsuper : s.kind = kind → ((lastSection kind s.area ss).isSome ↔ Superseded s ss) := by
        intro hkind
        rw [Option.isSome_iff_ne_none, Ne, lastSection_eq_none, Superseded, hkind]
        push Not
        rfl
      rw [lost, Nat.add_eq_zero_iff, ih]
      constructor
      · rintro ⟨hzero, hrest⟩ front x back hss hkind hlater
        cases front with
        | nil =>
            obtain ⟨rfl, rfl⟩ := List.cons.inj hss
            rw [if_pos ⟨hkind, (hsuper hkind).mpr hlater⟩] at hzero
            exact (hw _).mp hzero
        | cons y front =>
            exact hrest front x back (List.cons.inj hss).2 hkind hlater
      · intro hnone
        refine ⟨?_, fun front x back hss => hnone (s :: front) x back (by rw [hss]; rfl)⟩
        split
        · rename_i hlater
          exact (hw s).mpr (hnone [] s ss rfl hlater.1 ((hsuper hlater.1).mp hlater.2))
        · rfl

end Lost

/-! ## Writing -/

section Writing

variable {dat : Nat → UInt8} {pos : Nat} {body : List UInt8} {ss : List Section}

theorem length_objects (s : Section) : s.objects.length = s.body.length / objectSize := by
  rw [Section.objects, List.length_map, List.length_range]

theorem length_objects_eq_zero (s : Section) :
    s.objects.length = 0 ↔ s.body.length < objectSize := by
  rw [length_objects, Nat.div_eq_zero_iff]
  exact or_iff_right (by decide)

theorem length_enemies_eq_zero (episode : Nat) (s : Section) :
    (s.enemies episode).length = 0 ↔ s.body.length < enemySize := by
  rw [Section.enemies, length_parseMap_eq_zero, mapEnemies, List.length_map, List.length_range,
    Nat.div_eq_zero_iff]
  exact or_iff_right (by decide)

/-- A byte of what stands at a position. -/
theorem byte_of_stands (h : Stands dat pos body) {k : Nat} (hk : k < body.length) :
    dat (pos + k) = memory body k := by
  have hbyte : (bytesAt dat pos body.length)[k]? = body[k]? := by rw [h]
  rw [bytesAt, List.getElem?_map, List.getElem?_range hk] at hbyte
  rw [memory, List.getD_eq_getElem?_getD, ← hbyte]
  rfl

/-- Bytes of what stands at a position. -/
theorem bytesAt_of_stands (h : Stands dat pos body) {m n : Nat} (hn : m + n ≤ body.length) :
    bytesAt dat (pos + m) n = bytesAt (memory body) m n := by
  rw [bytesAt, bytesAt]
  refine List.map_congr_left fun i hi => ?_
  rw [Nat.add_assoc]
  exact byte_of_stands h (by have := List.mem_range.mp hi; omega)

theorem bytesAt_memory {m n : Nat} (hn : m + n ≤ body.length) :
    bytesAt (memory body) m n = (body.drop m).take n := by
  refine List.ext_getElem ?_ fun i hi hi' => ?_
  · rw [length_bytesAt, List.length_take, List.length_drop]
    omega
  · rw [length_bytesAt] at hi
    simp only [bytesAt, List.getElem_map, List.getElem_range, memory, List.getElem_take,
      List.getElem_drop]
    rw [List.getD_eq_getElem?_getD, List.getElem?_eq_getElem (by omega), Option.getD_some]

theorem putObjects_eq (dat : Nat → UInt8) (pos n j : Nat) (fp : Stream) :
    putObjects dat pos n j fp = fp.put ((List.range n).map fun i =>
      bytesAt dat (pos + (j + i) * objectSize) objectSize).flatten := by
  induction n generalizing j fp with
  | zero => exact Stream.put_nil.symm
  | succ n ih =>
      rw [putObjects, ih, List.range_succ_eq_map, List.map_cons, List.flatten_cons,
        Stream.put_append,
        List.map_map, Nat.add_zero]
      refine congrArg (Stream.put _) (congrArg List.flatten (List.map_congr_left fun i _ => ?_))
      rw [Function.comp, Nat.succ_eq_add_one, Nat.add_right_comm j 1 i, Nat.add_assoc]

/-- The objects of a section are written as they stand in it. -/
theorem putObjects_section {s : Section} (h : Stands dat pos s.body) (fp : Stream) :
    putObjects dat pos (s.body.length / objectSize) 0 fp = fp.put s.objects.flatten := by
  rw [putObjects_eq, Section.objects]
  refine congrArg (Stream.put fp) (congrArg List.flatten (List.map_congr_left fun i hi => ?_))
  have hle : i * objectSize + objectSize ≤ s.body.length := by
    have hlt := List.mem_range.mp hi
    have hmul := Nat.mul_le_mul_right objectSize (Nat.succ_le_of_lt hlt)
    rw [Nat.succ_mul] at hmul
    exact Nat.le_trans hmul (Nat.div_mul_le_self _ _)
  rw [Nat.zero_add, bytesAt_of_stands h hle, bytesAt_memory hle]

/-- The enemies of a section do not depend on where it stands. -/
theorem mapEnemies_section {s : Section} (h : Stands dat pos s.body) :
    mapEnemies dat pos s.body.length = mapEnemies (memory s.body) 0 s.body.length := by
  refine List.map_congr_left fun j hj => ?_
  have hle : j * enemySize + enemySize ≤ s.body.length := by
    have hlt := List.mem_range.mp hj
    have hmul := Nat.mul_le_mul_right enemySize (Nat.succ_le_of_lt hlt)
    rw [Nat.succ_mul] at hmul
    exact Nat.le_trans hmul (Nat.div_mul_le_self _ _)
  have hsize : enemySize = 72 := rfl
  have hword : ∀ k, k + 4 ≤ enemySize →
      u32At dat (pos + j * enemySize + k) = u32At (memory s.body) (0 + j * enemySize + k) := by
    intro k hk
    rw [u32At, u32At, Nat.add_assoc, bytesAt_of_stands h (by omega), Nat.zero_add]
  have hbyte : ∀ k, k < enemySize →
      dat (pos + j * enemySize + k) = memory s.body (0 + j * enemySize + k) := by
    intro k hk
    rw [Nat.add_assoc, byte_of_stands h (by omega), Nat.zero_add]
  simp only [mapEnemyAt, ← hword 48 (by omega), ← hword 64 (by omega), ← hbyte 6 (by omega),
    ← hbyte 7 (by omega)]
  rw [← Nat.add_zero (pos + j * enemySize), ← Nat.add_zero (0 + j * enemySize), hword 0 (by omega)]

/-- What the loops over the areas go by: for each of them the last section. -/
theorem found_section {tail : List UInt8} (h : WellFormed ss tail) (kind : SectionKind) (a : Nat) :
    lastPlace kind a (places 0 ss) = none ∧ lastSection kind a ss = none ∨
    ∃ p, lastPlace kind a (places 0 ss) = some p ∧ lastSection kind a ss = some p.2 ∧
      hdrAt (memory (questData ss tail)) p.1 =
        ⟨kind.objType, p.2.bytes.length, p.2.area, p.2.body.length⟩ ∧
      Stands (memory (questData ss tail)) (p.1 + hdrSize) p.2.body := by
  have hmap := @lastPlace_map kind a (places 0 ss)
  rw [map_places] at hmap
  cases hplace : lastPlace kind a (places 0 ss) with
  | none =>
      rw [hplace] at hmap
      exact .inl ⟨rfl, hmap.symm⟩
  | some p =>
      rw [hplace] at hmap
      have hstands := (stands_append.mp (stands_memory (questData ss tail))).1
      obtain ⟨hmem, hkind, harea⟩ := of_lastSection hmap.symm
      have hlt : p.2.bytes.length < 2 ^ 32 := by
        have hsmall := h.small
        have hle : p.2.bytes.length ≤ (ss.flatMap Section.bytes).length := by
          obtain ⟨front, back, rfl⟩ := List.append_of_mem hmem
          rw [List.flatMap_append, List.flatMap_cons, List.length_append, List.length_append]
          omega
        rw [questData, List.length_append] at hsmall
        omega
      obtain ⟨hhdr, hbody⟩ := hdrAt_of_stands (of_lastPlace hstands hplace) (h.areas p.2 hmem) hlt
      rw [hkind] at hhdr
      exact .inr ⟨p, rfl, hmap.symm, hhdr, hbody⟩

/-- The loop over the areas writes the objects that are stored. -/
theorem foldl_cacheObjects {tail : List UInt8} (h : WellFormed ss tail) (n : Nat) (fp : Stream) :
    (List.range n).foldl
      (cacheObjects (memory (questData ss tail)) ((places 0 ss).foldl visit {})) fp =
      fp.put ((List.range n).flatMap fun a =>
        (lastSection .objects a ss).elim [] Section.objects).flatten := by
  induction n with
  | zero => exact Stream.put_nil.symm
  | succ n ih =>
      rw [List.range_succ, List.foldl_append, ih, List.flatMap_append, List.flatten_append,
        Stream.put_append, List.foldl_cons, List.foldl_nil, List.flatMap_singleton, cacheObjects,
        objects_foldl_visit]
      rcases found_section h .objects n with ⟨hplace, hsection⟩ | ⟨p, hplace, hsection, hhdr, hbody⟩
      · rw [hplace, hsection]
        exact Stream.put_nil.symm
      · rw [hplace, hsection]
        dsimp only
        rw [hhdr]
        exact putObjects_section hbody _

/-- A section that is kept has no enemies, and the C library returns nothing for an array
without entries. -/
def FreedTwice (mem : Memory) (ss : List Section) : Prop :=
  ¬mem.realloc 0 ∧ ∃ s, Kept .enemies ss s ∧ s.body.length < enemySize

/-- What a round of the loop over the areas does that writes enemies. -/
theorem cacheEnemies_eq {mem : Memory} (hmem : ∀ n, 0 < n → mem.malloc n) {tail : List UInt8}
    (h : WellFormed ss tail) (episode i : Nat) (st : Stream × Nat) :
    cacheEnemies mem (memory (questData ss tail)) episode ((places 0 ss).foldl visit {}) i st =
      match lastSection .enemies i ss with
      | none => .ok st
      | some s =>
          if (s.enemies episode).length = 0 ∧ ¬mem.realloc 0 then .error none
          else .ok (st.1.put ((s.enemies episode).flatMap enemyBytes),
            (st.2 + (s.enemies episode).length) % 2 ^ 32) := by
  rw [cacheEnemies, enemies_foldl_visit]
  rcases found_section h .enemies i with ⟨hplace, hsection⟩ | ⟨p, hplace, hsection, hhdr, hbody⟩
  · rw [hplace, hsection]
  · rw [hplace, hsection]
    dsimp only
    rw [if_neg (not_not.mpr (hmem _ (by decide))), hhdr]
    dsimp only
    rw [mapEnemies_section hbody]
    rfl

theorem count_cacheEnemies {mem : Memory} (hmem : ∀ n, 0 < n → mem.malloc n) {tail : List UInt8}
    (h : WellFormed ss tail) (episode : Nat) (hfreed : ¬FreedTwice mem ss) (fp : Stream) :
    Loop.count (cacheEnemies mem (memory (questData ss tail)) episode
      ((places 0 ss).foldl visit {})) 17 0 (fp, 0) =
      .ok (fp.put ((storedEnemies episode ss).flatMap enemyBytes),
        (storedEnemies episode ss).length % 2 ^ 32) := by
  have hloop := @Loop.count_inv _ _ (cacheEnemies mem (memory (questData ss tail)) episode
    ((places 0 ss).foldl visit {})) 17 0 (fp, 0)
    (fun i st => st = (fp.put ((enemiesUpTo episode ss i).flatMap enemyBytes),
      (enemiesUpTo episode ss i).length % 2 ^ 32))
    (Prod.ext Stream.put_nil.symm rfl) fun i st _ hi hst => by
      have hnext : enemiesUpTo episode ss (i + 1) = enemiesUpTo episode ss i ++
          (lastSection .enemies i ss).elim [] (Section.enemies episode) := by
        rw [enemiesUpTo, List.range_succ, List.flatMap_append, List.flatMap_singleton]
        rfl
      rw [cacheEnemies_eq hmem h, hnext, List.flatMap_append, List.length_append,
        Stream.put_append, hst]
      cases hsection : lastSection .enemies i ss with
      | none => exact ⟨_, rfl, Prod.ext Stream.put_nil.symm rfl⟩
      | some s =>
          have hsome : ¬((s.enemies episode).length = 0 ∧ ¬mem.realloc 0) := fun hnone =>
            hfreed ⟨hnone.2, s, ⟨i, by omega, hsection⟩,
              (length_enemies_eq_zero episode s).mp hnone.1⟩
          dsimp only
          rw [if_neg hsome]
          refine ⟨_, rfl, Prod.ext rfl ?_⟩
          dsimp only [Option.elim]
          omega
  obtain ⟨st, hcount, rfl⟩ := hloop
  exact hcount

/-- What is in a file where a number is put in front of what was written already. -/
theorem at_backpatched (front index back : List UInt8) :
    (((Image.empty.write 0 front).write (front.length + index.length) back).write front.length
      index).At 0 (front ++ index ++ back) := by
  rw [Image.at_append, Image.at_append, List.length_append, Nat.zero_add, Nat.zero_add]
  refine ⟨⟨?_, Image.at_write⟩, ?_⟩
  · refine (Image.at_write.keep Image.keeps_write fun i hi => .inl ?_).keep Image.keeps_write
      fun i hi => .inl ?_
    · omega
    · omega
  · exact Image.at_write.keep Image.keeps_write fun i _ => .inr (Nat.le_add_right _ i)

/-- The cache that is written. -/
theorem cacheQuestEnemies_eq {mem : Memory} (hmem : ∀ n, 0 < n → mem.malloc n) {tail : List UInt8}
    (h : WellFormed ss tail) (episode : Nat) (hfreed : ¬FreedTwice mem ss) :
    ∃ f, cacheQuestEnemies mem (memory (questData ss tail)) (questData ss tail).length episode =
        some (0, f) ∧
      f.At 0 (le32 ((places 0 ss).foldl visit {}).objCount ++ (storedObjects ss).flatten ++
        le32 ((storedEnemies episode ss).length % 2 ^ 32) ++
        (storedEnemies episode ss).flatMap enemyBytes) := by
  rw [cacheQuestEnemies, parseQuestObjects_eq h]
  dsimp only
  rw [foldl_cacheObjects h, count_cacheEnemies hmem h episode hfreed]
  refine ⟨_, rfl, ?_⟩
  set front := le32 ((places 0 ss).foldl visit {}).objCount ++ (storedObjects ss).flatten
    with hfront
  set index := le32 ((storedEnemies episode ss).length % 2 ^ 32) with hindex
  set back := (storedEnemies episode ss).flatMap enemyBytes with hback
  rw [← Stream.put_append]
  have hstored : le32 ((places 0 ss).foldl visit {}).objCount ++ ((List.range 17).flatMap fun a =>
      (lastSection .objects a ss).elim [] Section.objects).flatten = front := rfl
  rw [hstored]
  simp only [Stream.put_image, Stream.put_pos, Stream.seek_image, Stream.seek_pos, Nat.zero_add]
  exact at_backpatched front index back

/-- No cache is written where an array is freed twice. -/
theorem cacheQuestEnemies_none {mem : Memory} (hmem : ∀ n, 0 < n → mem.malloc n)
    {tail : List UInt8} (h : WellFormed ss tail) (episode : Nat) (hfreed : FreedTwice mem ss) :
    cacheQuestEnemies mem (memory (questData ss tail)) (questData ss tail).length episode =
      none := by
  obtain ⟨hnull, s, ⟨a, ha, hsection⟩, hsmall⟩ := hfreed
  rw [cacheQuestEnemies, parseQuestObjects_eq h]
  dsimp only
  rw [Loop.count_error (e := none)]
  · intro j st
    rw [cacheEnemies_eq hmem h]
    cases lastSection .enemies j ss with
    | none => exact .inr ⟨st, rfl⟩
    | some x =>
        dsimp only
        split
        · exact .inl rfl
        · exact .inr ⟨_, rfl⟩
  · refine ⟨a, Nat.zero_le a, by omega, fun st => ?_⟩
    rw [cacheEnemies_eq hmem h, hsection]
    dsimp only
    rw [if_pos ⟨(length_enemies_eq_zero episode s).mpr hsmall, hnull⟩]

end Writing

end Sylverant.Ship.QuestMap
