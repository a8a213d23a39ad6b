/-
# Loading the cache of a quest

A game that starts a quest reads from the cache what the quest has stored there. That is
what the sections of the quest say, unless objects or enemies were lost because there
are two sections of a kind for one area.
-/

import Sylverant.Ship.QuestCache

namespace Sylverant.Ship.QuestMap

open RandomAccess (Image Stream)
open Sylverant.Archive (le32 ofLe32 ofLe32_le32_of_lt length_le32
  le32_mod)

/-! ## Reading -/

section Reading

variable {mem : Memory} {f : Image} {l : QuestGame} {buf : List UInt8} {fp : Stream}

theorem get_stored {pos n : Nat} {bs : List UInt8} (h : f.At pos bs) (hn : bs.length = n) :
    (Stream.mk f pos).get n = (bs, ⟨f, pos + n⟩) := by
  subst hn
  exact Stream.get_of_at h

/-- The objects that stand in the file replace those that were there. -/
theorem readObjects_eq {os : List (List UInt8)} (hsize : ∀ o ∈ os, o.length = objectSize)
    {pos i : Nat} (hat : f.At pos os.flatten) (front back : List GameObject)
    (hfront : front.length = i) (hback : back.length ≤ os.length) :
    readObjects os.length i ⟨f, pos⟩ (front ++ back) =
      (⟨f, pos + os.flatten.length⟩, front ++ os.map fun o => { data := o }, true) := by
  induction os generalizing pos i front back with
  | nil =>
      rw [List.length_eq_zero_iff.mp (Nat.le_zero.mp hback)]
      rfl
  | cons o os ih =>
      rw [List.flatten_cons, Image.at_append] at hat
      have ho := hsize o List.mem_cons_self
      have hassign : assign (front ++ back) i { data := o } =
          (front ++ [{ data := o }]) ++ back.drop 1 := by
        rw [assign, ← hfront, List.take_left, List.drop_append, List.drop_eq_nil_of_le (by omega),
          Nat.add_sub_cancel_left, List.append_assoc]
        rfl
      have hrest := @ih (fun x hx => hsize x (List.mem_cons_of_mem o hx)) (pos + o.length) (i + 1)
        hat.2 (front ++ [{ data := o }]) (back.drop 1) (by simp [hfront])
        (by rw [List.length_drop]; rw [List.length_cons] at hback; omega)
      rw [List.length_cons, readObjects, get_stored hat.1 ho]
      dsimp only
      rw [if_neg (not_not.mpr ho), hassign, ← ho, hrest, List.flatten_cons, List.length_append,
        Nat.add_assoc, List.append_assoc]
      rfl

theorem enemyOf_enemyBytes (e : GameEnemy) : enemyOf (enemyBytes e) = e := by
  have hword : (ofLe32 (le32 e.bpEntry.toNat)).toUInt32 = e.bpEntry := by
    rw [ofLe32_le32_of_lt e.bpEntry.toNat_lt]
    exact UInt32.ofNat_toNat
  exact congrArg (fun bp => GameEnemy.mk bp e.rtIndex e.clientsHit e.lastClient e.dropDone) hword

theorem length_enemyBytes (es : List GameEnemy) :
    (es.flatMap enemyBytes).length = 8 * es.length := by
  induction es with
  | nil => rfl
  | cons e es ih =>
      rw [List.flatMap_cons, List.length_append, ih, List.length_cons]
      have hone : (enemyBytes e).length = 8 := rfl
      omega

/-- The enemies come back from the file as they were. -/
theorem enemiesOf_enemyBytes (es : List GameEnemy) : enemiesOf (es.flatMap enemyBytes) = es := by
  induction es with
  | nil => rfl
  | cons e es ih =>
      have hlength : ((e :: es).flatMap enemyBytes).length / 8 =
          (es.flatMap enemyBytes).length / 8 + 1 := by
        rw [length_enemyBytes, length_enemyBytes, List.length_cons]
        omega
      rw [enemiesOf, hlength, List.range_succ_eq_map, List.map_cons, List.map_map]
      refine congrArg₂ _ (enemyOf_enemyBytes e) ?_
      refine Eq.trans (List.map_congr_left fun i _ => ?_) ih
      rw [Function.comp, Nat.mul_succ, Nat.add_comm, ← List.drop_drop]
      rfl

/-- The number of objects that a game has is the one in the file, whatever comes of
reading them. -/
theorem objCount_readCache (hget : (Stream.mk f 0).get 4 = (buf, fp)) (hbuf : buf.length = 4) :
    (readCache mem f l).1.objCount = ofLe32 buf := by
  rw [readCache, hget]
  dsimp only
  rw [if_neg (not_not.mpr hbuf)]
  split_ifs <;> rfl

/-- Nothing is read where there is no memory for the objects. -/
theorem readCache_objs_fail (hget : (Stream.mk f 0).get 4 = (buf, fp)) (hbuf : buf.length = 4)
    (hrealloc : ¬mem.realloc (ofLe32 buf * 72)) : (readCache mem f l).2 = -3 := by
  rw [readCache, hget]
  dsimp only
  rw [if_neg (not_not.mpr hbuf), if_pos hrealloc]

section Read

variable {buf' bs : List UInt8} {fp₁ fp₂ fp₃ : Stream} {objs : List GameObject}

/-- No enemies are read where there is no memory for them. -/
theorem readCache_enemies_fail (hget : (Stream.mk f 0).get 4 = (buf, fp)) (hbuf : buf.length = 4)
    (hrealloc : mem.realloc (ofLe32 buf * 72))
    (hobjs : readObjects (ofLe32 buf) 0 fp (l.objs.take (ofLe32 buf)) = (fp₁, objs, true))
    (hget' : fp₁.get 4 = (buf', fp₂)) (hbuf' : buf'.length = 4)
    (hrealloc' : ¬mem.realloc (ofLe32 buf' * 8)) : (readCache mem f l).2 = -6 := by
  rw [readCache, hget]
  dsimp only
  rw [if_neg (not_not.mpr hbuf), if_neg (not_not.mpr hrealloc), hobjs]
  dsimp only
  rw [if_neg (not_not.mpr rfl), hget']
  dsimp only
  rw [if_neg (not_not.mpr hbuf'), if_pos hrealloc']

/-- What is read. -/
theorem readCache_done (hget : (Stream.mk f 0).get 4 = (buf, fp)) (hbuf : buf.length = 4)
    (hrealloc : mem.realloc (ofLe32 buf * 72))
    (hobjs : readObjects (ofLe32 buf) 0 fp (l.objs.take (ofLe32 buf)) = (fp₁, objs, true))
    (hget' : fp₁.get 4 = (buf', fp₂)) (hbuf' : buf'.length = 4)
    (hrealloc' : mem.realloc (ofLe32 buf' * 8))
    (hread : fp₂.get (8 * ofLe32 buf') = (bs, fp₃))
    (hlength : (enemiesOf bs).length = ofLe32 buf') :
    readCache mem f l =
      ({ l with
        objCount := ofLe32 buf
        objs
        enemyCount := ofLe32 buf'
        enemies := (enemiesOf bs).map (fixup l.difficulty l.event) }, 0) := by
  rw [readCache, hget]
  dsimp only
  rw [if_neg (not_not.mpr hbuf), if_neg (not_not.mpr hrealloc), hobjs]
  dsimp only
  rw [if_neg (not_not.mpr rfl), hget']
  dsimp only
  rw [if_neg (not_not.mpr hbuf'), if_neg (not_not.mpr hrealloc'), hread]
  dsimp only
  rw [if_neg (not_not.mpr hlength)]

end Read

theorem readCache_rv : -8 < (readCache mem f l).2 ∧ (readCache mem f l).2 ≤ 0 := by
  rw [readCache]
  dsimp only
  split_ifs <;> simp

end Reading

/-! ## Loading what a quest has stored -/

/-- The objects and the enemies of a game. -/
def QuestGame.contents (l : QuestGame) : Nat × List GameObject × Nat × List GameEnemy :=
  (l.objCount, l.objs, l.enemyCount, l.enemies)

section Load

variable {mem : Memory} {f : Image} {l : QuestGame}

/-- The monster list changes none of the objects and enemies. -/
theorem copyMonsters_contents (qptr : Nat → Option Quest) :
    (copyMonsters mem qptr l).1.contents = l.contents ∧
      ((copyMonsters mem qptr l).2 = 0 ∨ (copyMonsters mem qptr l).2 ≤ -8) := by
  rw [copyMonsters]
  cases monsterQuest qptr with
  | none => exact ⟨rfl, .inl rfl⟩
  | some q =>
      have hnine : (-9 : Int) ≤ -8 := by decide
      have hten : (-10 : Int) ≤ -8 := by decide
      dsimp only
      split
      · exact ⟨rfl, .inl rfl⟩
      split
      · exact ⟨rfl, .inr hnine⟩
      split
      · exact ⟨rfl, .inr hten⟩
      · exact ⟨rfl, .inl rfl⟩

/-- What a game has loaded is what was read, and reading is done where loading comes to
the monster list. -/
theorem loadQuestEnemies_contents (elem : Option (Nat → Nat → Option Quest)) (ver : Version)
    (hdrops : l.serverDrops) :
    let r := readCache mem f { l with serverDrops := false }
    let r' := loadQuestEnemies mem (some f) elem ver l
    r'.1.contents = r.1.contents ∧ ((r'.2 = 0 ∨ r'.2 ≤ -8) ↔ r.2 = 0) := by
  intro r r'
  have hrv : -8 < r.2 := readCache_rv.1
  by_cases hzero : r.2 = 0
  · cases elem with
    | none =>
        have hload : r' = (r.1, -8) :=
          (if_neg (not_not.mpr hdrops)).trans (if_neg (not_not.mpr hzero))
        rw [hload]
        exact ⟨rfl, iff_of_true (.inr (Int.le_refl _)) hzero⟩
    | some qptr =>
        have hload : r' = copyMonsters mem (qptr (if ver = .pc then .dcv2 else ver).code) r.1 :=
          (if_neg (not_not.mpr hdrops)).trans (if_neg (not_not.mpr hzero))
        obtain ⟨hcontents, hdone⟩ := @copyMonsters_contents mem r.1
          (qptr (if ver = .pc then .dcv2 else ver).code)
        rw [hload]
        exact ⟨hcontents, iff_of_true hdone hzero⟩
  · have hload : r' = r := (if_neg (not_not.mpr hdrops)).trans (if_pos hzero)
    rw [hload]
    refine ⟨rfl, iff_of_false ?_ hzero⟩
    omega

end Load

/-! ## How much is stored -/

section Stored

variable {kind : SectionKind} {ss : List Section} {episode : Nat}

/-- The sections of a kind measure together what they do area by area. -/
theorem sum_areas (w : Section → Nat) (hareas : ∀ s ∈ ss, s.area < 17) :
    ((List.range 17).map fun a => ((ss.filter fun s => s.kind = kind ∧ s.area = a).map w).sum).sum =
      (ss.map fun s => if s.kind = kind then w s else 0).sum := by
  induction ss with
  | nil =>
      simp only [List.filter_nil, List.map_nil, List.sum_nil, List.map_const',
        List.sum_replicate_nat]
      rfl
  | cons s ss ih =>
      have hcons : ∀ a, (((s :: ss).filter fun s => s.kind = kind ∧ s.area = a).map w).sum =
          ((ss.filter fun s => s.kind = kind ∧ s.area = a).map w).sum +
            if s.area = a then (if s.kind = kind then w s else 0) else 0 := by
        intro a
        rw [List.filter_cons]
        by_cases harea : s.area = a
        · by_cases hkind : s.kind = kind
          · simp [harea, hkind, Nat.add_comm]
          · simp [hkind]
        · simp [harea]
      rw [List.map_congr_left fun a _ => hcons a, sum_range_add_ite,
        if_pos (hareas s List.mem_cons_self), ih fun x hx => hareas x (List.mem_cons_of_mem s hx),
        List.map_cons, List.sum_cons, Nat.add_comm]

/-- As many objects are counted as are stored where none are lost. -/
theorem objectsIn_eq_iff (hareas : ∀ s ∈ ss, s.area < 17) :
    objectsIn ss = (storedObjects ss).length ↔ NoneLost .objects objectSize ss := by
  have hlength : ∀ a, ((lastSection .objects a ss).elim [] Section.objects).length =
      (lastSection .objects a ss).elim 0 fun s => s.body.length / objectSize := by
    intro a
    cases lastSection .objects a ss with
    | none => rfl
    | some s => exact length_objects s
  have hzero : ∀ s : Section, s.body.length / objectSize = 0 ↔ s.body.length < objectSize := by
    intro s
    rw [← length_objects, length_objects_eq_zero]
  rw [objectsIn, sum_eq_last_add_lost .objects _ hareas, storedObjects, List.length_flatMap,
    ← lost_eq_zero_iff hzero]
  simp only [hlength]
  exact Nat.add_eq_left

/-- As many enemies are stored as a quest has where none are lost. -/
theorem length_questEnemies_iff (hareas : ∀ s ∈ ss, s.area < 17) :
    (questEnemies episode ss).length = (storedEnemies episode ss).length ↔
      NoneLost .enemies enemySize ss := by
  have hlength : ∀ a, ((lastSection .enemies a ss).elim [] (Section.enemies episode)).length =
      (lastSection .enemies a ss).elim 0 fun s => (s.enemies episode).length := by
    intro a
    cases lastSection .enemies a ss with
    | none => rfl
    | some s => rfl
  rw [questEnemies, storedEnemies, enemiesUpTo, List.length_flatMap, List.length_flatMap,
    ← lost_eq_zero_iff (length_enemies_eq_zero episode)]
  simp only [hlength, List.length_flatMap]
  rw [sum_areas _ hareas, sum_eq_last_add_lost .enemies _ hareas]
  exact Nat.add_eq_left

/-- Where no enemies are lost, those of a quest are the ones that are stored. -/
theorem questEnemies_eq (hnone : NoneLost .enemies enemySize ss) :
    questEnemies episode ss = storedEnemies episode ss := by
  refine congrArg List.flatten (List.map_congr_left fun a _ => ?_)
  induction ss with
  | nil => rfl
  | cons s ss ih =>
      have hrest := ih fun front x back hss => hnone (s :: front) x back (by rw [hss]; rfl)
      rw [lastSection_cons, List.filter_cons]
      by_cases hthis : s.kind = .enemies ∧ s.area = a
      · rw [if_pos (decide_eq_true hthis), List.flatMap_cons, hrest]
        cases hlast : lastSection .enemies a ss with
        | none =>
            dsimp only
            rw [if_pos hthis]
            exact List.append_nil _
        | some x =>
            obtain ⟨hmem, hkind, harea⟩ := of_lastSection hlast
            have hempty := hnone [] s ss rfl hthis.1
              ⟨x, hmem, hkind.trans hthis.1.symm, harea.trans hthis.2.symm⟩
            rw [List.length_eq_zero_iff.mp ((length_enemies_eq_zero episode s).mpr hempty)]
            rfl
      · rw [if_neg (by rw [decide_eq_true_eq]; exact hthis), hrest]
        cases lastSection .enemies a ss with
        | none =>
            dsimp only
            rw [if_neg hthis]
        | some x => rfl

/-- A chain of sections has fewer objects than bytes. -/
theorem objectsIn_le (ss : List Section) : objectsIn ss ≤ (ss.flatMap Section.bytes).length := by
  induction ss with
  | nil => exact Nat.le_refl _
  | cons s ss ih =>
      have hbytes := length_bytes s
      have hdiv := Nat.div_le_self s.body.length objectSize
      rw [objectsIn] at ih ⊢
      rw [List.map_cons, List.sum_cons, List.flatMap_cons, List.length_append]
      split <;> omega

/-- There are few enemies where those of each section fit into the array. -/
theorem length_storedEnemies_lt
    (hfit : ∀ s ∈ ss, s.kind = .enemies → (s.enemies episode).length ≤ genSize) :
    (storedEnemies episode ss).length < 2 ^ 32 := by
  have hupTo : ∀ n, (enemiesUpTo episode ss n).length ≤ n * genSize := by
    intro n
    induction n with
    | zero => exact Nat.zero_le _
    | succ n ih =>
        rw [enemiesUpTo, List.range_succ, List.flatMap_append, List.length_append,
          List.flatMap_singleton, Nat.succ_mul]
        refine Nat.add_le_add ih ?_
        cases hlast : lastSection .enemies n ss with
        | none => exact Nat.zero_le _
        | some s =>
            obtain ⟨hmem, hkind, -⟩ := of_lastSection hlast
            exact hfit s hmem hkind
  exact Nat.lt_of_le_of_lt (hupTo 17) (by decide)

theorem storedObjects_eq_nil : storedObjects ss = [] ↔
    ∀ s, Kept .objects ss s → s.body.length < objectSize := by
  rw [storedObjects, List.flatMap_eq_nil_iff]
  constructor
  · rintro hnil s ⟨a, ha, hlast⟩
    have hempty := hnil a (List.mem_range.mpr ha)
    rw [hlast] at hempty
    exact (length_objects_eq_zero s).mp (congrArg List.length hempty)
  · intro hsmall a ha
    cases hlast : lastSection .objects a ss with
    | none => rfl
    | some s =>
        exact List.length_eq_zero_iff.mp
          ((length_objects_eq_zero s).mpr (hsmall s ⟨a, List.mem_range.mp ha, hlast⟩))

theorem storedEnemies_eq_nil : storedEnemies episode ss = [] ↔
    ∀ s, Kept .enemies ss s → s.body.length < enemySize := by
  rw [storedEnemies, enemiesUpTo, List.flatMap_eq_nil_iff]
  constructor
  · rintro hnil s ⟨a, ha, hlast⟩
    have hempty := hnil a (List.mem_range.mpr ha)
    rw [hlast] at hempty
    exact (length_enemies_eq_zero episode s).mp (congrArg List.length hempty)
  · intro hsmall a ha
    cases hlast : lastSection .enemies a ss with
    | none => rfl
    | some s =>
        exact List.length_eq_zero_iff.mp
          ((length_enemies_eq_zero episode s).mpr (hsmall s ⟨a, List.mem_range.mp ha, hlast⟩))

theorem length_of_mem_storedObjects {o : List UInt8} (h : o ∈ storedObjects ss) :
    o.length = objectSize := by
  obtain ⟨a, -, ho⟩ := List.mem_flatMap.mp h
  cases hlast : lastSection .objects a ss with
  | none =>
      rw [hlast] at ho
      cases ho
  | some s =>
      rw [hlast] at ho
      obtain ⟨j, hj, rfl⟩ := List.mem_map.mp ho
      have hmul := Nat.mul_le_mul_right objectSize (Nat.succ_le_of_lt (List.mem_range.mp hj))
      have hle := Nat.div_mul_le_self s.body.length objectSize
      rw [Nat.succ_mul] at hmul
      rw [List.length_take, List.length_drop, Nat.min_eq_left]
      omega

end Stored

/-! ## The round trip -/

section RoundTrip

variable {mem : Memory} {f : Image} {l : QuestGame} {os : List (List UInt8)}
  {es : List GameEnemy}

/-- The number of objects that a game has is the one in the file. -/
theorem objCount_stored {n : Nat} (hn : n < 2 ^ 32) {rest : List UInt8}
    (hat : f.At 0 (le32 n ++ rest)) : (readCache mem f l).1.objCount = n := by
  obtain ⟨buf, hbuf⟩ : ∃ buf, buf = le32 n := ⟨_, rfl⟩
  have hlen : buf.length = 4 := hbuf ▸ length_le32 _
  rw [← hbuf, Image.at_append] at hat
  rw [objCount_readCache (get_stored hat.1 hlen) hlen, hbuf, ofLe32_le32_of_lt hn]

/-- What comes of reading a file with some objects and enemies. -/
theorem readCache_stored (hsize : ∀ o ∈ os, o.length = objectSize)
    (hos : os.length < 2 ^ 32) (hes : es.length < 2 ^ 32)
    (hat : f.At 0 (le32 os.length ++ os.flatten ++ le32 es.length ++ es.flatMap enemyBytes)) :
    ((readCache mem f l).2 = 0 ↔ mem.realloc (os.length * 72) ∧ mem.realloc (es.length * 8)) ∧
    ((readCache mem f l).2 = 0 → (readCache mem f l).1.contents =
      (os.length, os.map fun o => { data := o }, es.length,
        es.map (fixup l.difficulty l.event))) := by
  -- The two numbers are only used as what the bytes stand for.
  obtain ⟨buf, hbuf⟩ : ∃ buf, buf = le32 os.length := ⟨_, rfl⟩
  obtain ⟨buf', hbuf'⟩ : ∃ buf', buf' = le32 es.length := ⟨_, rfl⟩
  have hlen : buf.length = 4 := hbuf ▸ length_le32 _
  have hlen' : buf'.length = 4 := hbuf' ▸ length_le32 _
  have hval : ofLe32 buf = os.length := hbuf ▸ ofLe32_le32_of_lt hos
  have hval' : ofLe32 buf' = es.length := hbuf' ▸ ofLe32_le32_of_lt hes
  rw [← hbuf, ← hbuf', Image.at_append, Image.at_append, Image.at_append] at hat
  simp only [List.length_append, hlen, hlen', Nat.zero_add] at hat
  obtain ⟨⟨⟨hcount, hobjs⟩, hcount'⟩, henemies⟩ := hat
  have hget := get_stored hcount hlen
  by_cases hrealloc : mem.realloc (os.length * 72)
  · have hread := readObjects_eq hsize hobjs [] (l.objs.take os.length) rfl
      (List.length_take_le _ _)
    have hget' := get_stored hcount' hlen'
    rw [List.nil_append, List.nil_append, ← hval] at hread
    rw [← hval] at hrealloc ⊢
    by_cases hrealloc' : mem.realloc (es.length * 8)
    · have hback := get_stored henemies (length_enemyBytes es)
      rw [← hval'] at hrealloc' hback ⊢
      have hdone := readCache_done hget hlen hrealloc hread hget' hlen' hrealloc' hback
        (by rw [enemiesOf_enemyBytes, hval'])
      rw [hdone, enemiesOf_enemyBytes]
      exact ⟨iff_of_true rfl ⟨hrealloc, hrealloc'⟩, fun _ => rfl⟩
    · rw [← hval'] at hrealloc' ⊢
      have hfail := readCache_enemies_fail hget hlen hrealloc hread hget' hlen' hrealloc'
      rw [hfail]
      exact ⟨iff_of_false (by decide) fun h => hrealloc' h.2, fun h => absurd h (by decide)⟩
  · rw [← hval] at hrealloc ⊢
    rw [readCache_objs_fail hget hlen hrealloc]
    exact ⟨iff_of_false (by decide) fun h => hrealloc h.1, fun h => absurd h (by decide)⟩

/-- The C library finds memory for what has some size. -/
structure Memory.Enough (mem : Memory) : Prop where
  malloc : ∀ n, 0 < n → mem.malloc n
  realloc : ∀ n, 0 < n → mem.realloc n

/-- Loading the cache file of a quest into a game gives the objects that are stored, and
all enemies of the quest. -/
def RoundTrips (mem : Memory) (ss : List Section) (tail : List UInt8) (episode : Nat)
    (elem : Option (Nat → Nat → Option Quest)) (ver : Version) (l : QuestGame) : Prop :=
  ∃ f, cacheQuestEnemies mem (memory (questData ss tail)) (questData ss tail).length episode =
      some (0, f) ∧
    let r := loadQuestEnemies mem (some f) elem ver l
    (r.2 = 0 ∨ r.2 ≤ -8) ∧ r.1.contents =
      ((storedObjects ss).length, (storedObjects ss).map fun o => { data := o },
        (questEnemies episode ss).length,
        (questEnemies episode ss).map (fixup l.difficulty l.event))

/-- An array without entries is asked for. -/
def AsksForNothing (ss : List Section) : Prop :=
  (∀ s, Kept .objects ss s → s.body.length < objectSize) ∨
    (∀ s, Kept .enemies ss s → s.body.length < enemySize) ∨
    ∃ s, Kept .enemies ss s ∧ s.body.length < enemySize

/-- There is memory for what is stored, unless an array without entries is asked for. -/
theorem realloc_stored_iff {mem : Memory} (henough : mem.Enough) {ss : List Section}
    {episode : Nat} (hfreed : ¬FreedTwice mem ss) :
    mem.realloc ((storedObjects ss).length * 72) ∧
        mem.realloc ((storedEnemies episode ss).length * 8) ↔
      mem.realloc 0 ∨ ¬AsksForNothing ss := by
  have hsize : ∀ n m, 0 < m → (mem.realloc (n * m) ↔ mem.realloc 0 ∨ n ≠ 0) := by
    intro n m hm
    rcases Nat.eq_zero_or_pos n with rfl | hn
    · rw [Nat.zero_mul]
      exact ⟨.inl, fun h => h.resolve_right fun hne => hne rfl⟩
    · exact iff_of_true (henough.realloc _ (Nat.mul_pos hn hm)) (.inr (Nat.ne_of_gt hn))
  rw [hsize _ 72 (by decide), hsize _ 8 (by decide), ← or_and_left, Ne, Ne,
    List.length_eq_zero_iff, List.length_eq_zero_iff, storedObjects_eq_nil, storedEnemies_eq_nil,
    AsksForNothing]
  by_cases hzero : mem.realloc 0
  · exact iff_of_true (.inl hzero) (.inl hzero)
  · have hkept : ¬∃ s, Kept .enemies ss s ∧ s.body.length < enemySize := fun hex =>
      hfreed ⟨hzero, hex⟩
    rw [or_iff_right hzero, or_iff_right hzero, or_iff_left hkept, not_or]

/-- The number of objects that is written is that of all sections. -/
theorem le32_objCount (ss : List Section) :
    le32 ((places 0 ss).foldl visit {}).objCount = le32 (objectsIn ss) := by
  have hcount := objCount_foldl_visit (places 0 ss) {}
  rw [map_places, Nat.zero_add] at hcount
  rw [← le32_mod, hcount, le32_mod]

variable {ss : List Section} {tail : List UInt8} {episode : Nat} {ver : Version}
  {elem : Option (Nat → Nat → Option Quest)}

theorem objectsIn_lt (h : WellFormed ss tail) : objectsIn ss < 2 ^ 32 := by
  have hle := objectsIn_le ss
  have hsmall := h.small
  rw [questData, List.length_append] at hsmall
  omega

/-- The cache that is written, with the number of objects of all sections. -/
theorem cacheQuestEnemies_stored (henough : mem.Enough) (h : WellFormed ss tail) (episode : Nat)
    (hfreed : ¬FreedTwice mem ss) :
    ∃ f, cacheQuestEnemies mem (memory (questData ss tail)) (questData ss tail).length episode =
        some (0, f) ∧
      f.At 0 (le32 (objectsIn ss) ++ (storedObjects ss).flatten ++
        le32 (storedEnemies episode ss).length ++
        (storedEnemies episode ss).flatMap enemyBytes) := by
  obtain ⟨f, hcache, hat⟩ := cacheQuestEnemies_eq henough.malloc h episode hfreed
  rw [le32_objCount, le32_mod] at hat
  exact ⟨f, hcache, hat⟩

/-- A round trip writes a cache. -/
theorem RoundTrips.not_freedTwice (henough : mem.Enough) (h : WellFormed ss tail)
    (htrip : RoundTrips mem ss tail episode elem ver l) : ¬FreedTwice mem ss := by
  intro hfreed
  obtain ⟨f, hcache, -⟩ := htrip
  rw [cacheQuestEnemies_none henough.malloc h episode hfreed] at hcache
  cases hcache

/-- In a round trip all objects that are counted are stored. -/
theorem RoundTrips.objectsIn_eq (henough : mem.Enough) (h : WellFormed ss tail)
    (hdrops : l.serverDrops) (htrip : RoundTrips mem ss tail episode elem ver l) :
    objectsIn ss = (storedObjects ss).length := by
  obtain ⟨f, hcache, hat⟩ := cacheQuestEnemies_stored henough h episode
    (htrip.not_freedTwice henough h)
  obtain ⟨f', hcache', -, hsame⟩ := htrip
  obtain rfl : f = f' := congrArg Prod.snd (Option.some.inj (hcache.symm.trans hcache'))
  rw [(loadQuestEnemies_contents elem ver hdrops).1] at hsame
  rw [List.append_assoc, List.append_assoc] at hat
  exact (objCount_stored (objectsIn_lt h) hat).symm.trans (congrArg Prod.fst hsame)

/-- A quest comes out of its cache as it went in exactly where nothing is lost, and no
array without entries is asked for that the C library does not have. -/
theorem savedMap_roundTrips_iff (henough : mem.Enough) (h : WellFormed ss tail)
    (hfit : ∀ s ∈ ss, s.kind = .enemies → (s.enemies episode).length ≤ genSize)
    (hdrops : l.serverDrops) :
    RoundTrips mem ss tail episode elem ver l ↔
      NoneLost .objects objectSize ss ∧ NoneLost .enemies enemySize ss ∧
        (mem.realloc 0 ∨ ¬AsksForNothing ss) := by
  have hcontents := fun f => @loadQuestEnemies_contents mem f l elem ver hdrops
  have hfew := length_storedEnemies_lt hfit
  constructor
  · intro htrip
    have hcount := htrip.objectsIn_eq henough h hdrops
    have hfreed := htrip.not_freedTwice henough h
    obtain ⟨f, hcache, hat⟩ := cacheQuestEnemies_stored henough h episode hfreed
    obtain ⟨f', hcache', hdone, hsame⟩ := htrip
    obtain rfl : f = f' := congrArg Prod.snd (Option.some.inj (hcache.symm.trans hcache'))
    rw [(hcontents f).1] at hsame
    rw [(hcontents f).2] at hdone
    rw [hcount] at hat
    obtain ⟨hiff, hread⟩ := @readCache_stored mem f { l with serverDrops := false } _ _
      (fun o ho => length_of_mem_storedObjects ho) (hcount ▸ objectsIn_lt h) hfew hat
    rw [hread hdone] at hsame
    have hcount' : (questEnemies episode ss).length = (storedEnemies episode ss).length :=
      (congrArg (fun contents => contents.2.2.1) hsame).symm
    exact ⟨(objectsIn_eq_iff h.areas).mp hcount, (length_questEnemies_iff h.areas).mp hcount',
      (realloc_stored_iff henough hfreed).mp (hiff.mp hdone)⟩
  · rintro ⟨hobjs, hens, hnull⟩
    have hfreed : ¬FreedTwice mem ss := fun hfreed =>
      hnull.elim hfreed.1 fun hasks => hasks (.inr (.inr hfreed.2))
    have hcount := (objectsIn_eq_iff h.areas).mpr hobjs
    obtain ⟨f, hcache, hat⟩ := cacheQuestEnemies_stored henough h episode hfreed
    rw [hcount] at hat
    obtain ⟨hiff, hread⟩ := @readCache_stored mem f { l with serverDrops := false } _ _
      (fun o ho => length_of_mem_storedObjects ho) (hcount ▸ objectsIn_lt h) hfew hat
    have hdone := hiff.mpr ((realloc_stored_iff henough hfreed).mpr hnull)
    refine ⟨f, hcache, (hcontents f).2.mpr hdone, ?_⟩
    rw [(hcontents f).1, hread hdone, questEnemies_eq hens]

/-- A section with one object, and one with one enemy. -/
def oneObject : Section := ⟨.objects, 0, List.replicate 68 0, []⟩

def oneEnemy : Section := ⟨.enemies, 0, List.replicate 72 0, []⟩

/-- A C library that always finds memory. -/
def plenty : Memory := ⟨fun _ => true, fun _ => true⟩

/-- A game without objects and enemies. -/
def freshGame : QuestGame := ⟨true, 0, 0, 0, [], 0, [], 0, [], 0, []⟩

theorem roundTrips_one : RoundTrips plenty [oneObject, oneEnemy] [] 1 none .dcv2 freshGame := by
  have hareas : ∀ s ∈ [oneObject, oneEnemy], s.area < 17 := by decide
  have hsmall : (questData [oneObject, oneEnemy] []).length < 2 ^ 32 := by
    simp [questData, length_bytes, oneObject, oneEnemy, hdrSize]
  have hobjs := (objectsIn_eq_iff hareas).mp (by decide)
  have hens := (@length_questEnemies_iff _ 1 hareas).mp (by decide)
  exact (savedMap_roundTrips_iff ⟨fun _ _ => rfl, fun _ _ => rfl⟩
    ⟨hareas, fun h => absurd rfl h, hsmall⟩ (by decide) rfl).mpr ⟨hobjs, hens, .inl rfl⟩

/-- Of two sections for an area only the objects of the second one are stored. -/
theorem not_roundTrips : ¬∀ (mem : Memory) (ss : List Section) (tail : List UInt8) (episode : Nat)
    (elem : Option (Nat → Nat → Option Quest)) (ver : Version) (l : QuestGame), mem.Enough →
    mem.realloc 0 → WellFormed ss tail →
    (∀ s ∈ ss, s.kind = .enemies → (s.enemies episode).length ≤ genSize) → l.serverDrops →
    RoundTrips mem ss tail episode elem ver l := by
  intro hall
  have hwell : WellFormed [oneObject, oneObject, oneEnemy] [] := by
    refine ⟨by decide, fun h => absurd rfl h, ?_⟩
    simp [questData, length_bytes, oneObject, oneEnemy, hdrSize]
  have htrip := hall plenty [oneObject, oneObject, oneEnemy] [] 1 none .dcv2 freshGame
    ⟨fun _ _ => rfl, fun _ _ => rfl⟩ rfl hwell (by decide) rfl
  have hcount := htrip.objectsIn_eq ⟨fun _ _ => rfl, fun _ _ => rfl⟩ hwell rfl
  revert hcount
  decide

end RoundTrip

end Sylverant.Ship.QuestMap
