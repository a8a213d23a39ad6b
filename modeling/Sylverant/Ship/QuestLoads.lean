/-
# Loading quests into a game

A game loads the objects and enemies of a quest from the cache, and then the monster lists. The
counts of the arrays are set before the arrays are resized and read, and a call may fail at any
point in between. The conditions below say exactly when the game is consistent after each call
all the same, and what a failed call may leave.
-/

import Sylverant.Library.Run
import Sylverant.Ship.MonsterLists
import Sylverant.Ship.QuestRoundTrip

namespace Sylverant.Ship.QuestMap

open RandomAccess (Image Stream)
open Sylverant.Archive (ofLe32)

/-! ## What a game should be like -/

/-- The counts are the lengths of the arrays. -/
structure QuestGame.Consistent (l : QuestGame) : Prop where
  objs : l.objCount = l.objs.length
  enemies : l.enemyCount = l.enemies.length
  mtypes : l.numMtypes = l.mtypes.length
  mids : l.numMids = l.mids.length

/-- An array and its count are as they were before, or empty. -/
def Leaves {α : Type} (count count' : Nat) (xs xs' : List α) : Prop :=
  count' = count ∧ xs' = xs ∨ count' = 0 ∧ xs' = []

/-- Each array is as it was before, or empty. -/
structure QuestGame.Left (l l' : QuestGame) : Prop where
  objs : Leaves l.objCount l'.objCount l.objs l'.objs
  enemies : Leaves l.enemyCount l'.enemyCount l.enemies l'.enemies
  mtypes : Leaves l.numMtypes l'.numMtypes l.mtypes l'.mtypes
  mids : Leaves l.numMids l'.numMids l.mids l'.mids

/-- The game is consistent after the call, and if the call fails, then it leaves the arrays that
were there or empty ones. -/
def Good (l : QuestGame) (c : Load) : Prop :=
  (l.load c).1.Consistent ∧ ((l.load c).2 ≠ 0 → l.Left (l.load c).1)

/-! ## What is in a file -/

/-- A count in the file. -/
def countAt (f : Image) (pos : Nat) : Nat := ofLe32 (f.read pos 4)

/-- So many objects in the file. -/
def objectsAt (f : Image) (pos n : Nat) : List GameObject :=
  (List.range n).map fun i => { data := f.read (pos + objectSize * i) objectSize }

/-- The enemies in the file, as many as are there of the ones that it says. -/
def enemiesAt (f : Image) (pos m : Nat) : List GameEnemy := enemiesOf (f.read pos (8 * m))

/-- Where the enemies begin behind `n` objects and the count of the enemies. -/
def enemiesStart (n : Nat) : Nat := 8 + objectSize * n

/-- The objects in the file are those that the game has, or there are none. -/
def ObjectsStay (l : QuestGame) (f : Image) (n : Nat) : Prop :=
  n = 0 ∨ n = l.objCount ∧ objectsAt f 4 n = l.objs

/-- The enemies in the file are those that the game has, or there are none. -/
def EnemiesStay (l : QuestGame) (f : Image) (n m : Nat) : Prop :=
  m = 0 ∨ m = l.enemyCount ∧
    (enemiesAt f (enemiesStart n) m).map (fixup l.difficulty l.event) = l.enemies

/-- The quest is found, and there is memory for its lists. -/
def Copies (c : Load) : Prop :=
  c.elem ≠ none ∧ ∀ q, monsterQuest c.quest = some q → q.Listed →
    c.mem.malloc (8 * q.monsterTypes.length) ∧ c.mem.malloc (8 * q.monsterIds.length)

/-- How many whole objects there are behind the first count. -/
def wholeObjects (f : Image) : Nat := (f.length - 4) / objectSize

/-- How many whole enemies there are behind the second count. -/
def wholeEnemies (f : Image) (n : Nat) : Nat := (f.length - enemiesStart n) / 8

/-- The bytes behind some objects, as many of one as are there. -/
def objectBehind (f : Image) (k : Nat) : List UInt8 := f.read (4 + objectSize * k) objectSize

/-- The bytes behind the whole ones of `m` enemies. -/
def enemyBehind (f : Image) (pos m : Nat) : List UInt8 :=
  (f.read pos (8 * m)).drop (8 * ((f.length - pos) / 8))

/-- What is read of the objects is what had been there. -/
def ObjectsAgain (l : QuestGame) (f : Image) : Prop :=
  objectsAt f 4 (wholeObjects f) = l.objs.take (wholeObjects f) ∧
    ∀ o, l.objs[wholeObjects f]? = some o → o.overlay (objectBehind f (wholeObjects f)) = o

/-- What is read of the enemies is what had been there. -/
def EnemiesAgain (l : QuestGame) (f : Image) (n m : Nat) : Prop :=
  enemiesAt f (enemiesStart n) m = l.enemies.take (wholeEnemies f n) ∧
    ∀ e, l.enemies[wholeEnemies f n]? = some e →
      overlayEnemy (enemyBehind f (enemiesStart n) m) e = e

/-- Nothing goes wrong with a file. Where an array cannot be resized its count is the old one or
zero. Where the file ends within an array the count is the old one, and what was read is what
had been there. And where the call fails later on, the arrays that were read before are those
that the game had, or empty. -/
def FineFile (l : QuestGame) (c : Load) (f : Image) : Prop :=
  let n := countAt f 0
  let m := countAt f (4 + objectSize * n)
  if ¬ c.mem.realloc (n * 72) then n = 0 ∨ n = l.objCount
  else if f.length < 4 + objectSize * n then n = l.objCount ∧ ObjectsAgain l f
  else if f.length < enemiesStart n then ObjectsStay l f n
  else if ¬ c.mem.realloc (m * 8) then ObjectsStay l f n ∧ (m = 0 ∨ m = l.enemyCount)
  else if f.length < enemiesStart n + 8 * m then
    ObjectsStay l f n ∧ m = l.enemyCount ∧ EnemiesAgain l f n m
  else Copies c ∨ ObjectsStay l f n ∧ EnemiesStay l f n m

/-- Nothing goes wrong with a call that gets as far as the first count. -/
def FineLoad (l : QuestGame) (c : Load) : Prop :=
  l.serverDrops → ∀ f, c.file = some f → 4 ≤ f.length → FineFile l c f

/-! ## Reading -/

section Reading

variable {mem : Memory} {f : Image} {l : QuestGame} {n : Nat}

theorem length_objectsAt (f : Image) (pos n : Nat) : (objectsAt f pos n).length = n := by
  rw [objectsAt, List.length_map, List.length_range]

theorem objectsAt_succ (f : Image) (pos n : Nat) :
    objectsAt f pos (n + 1) =
      { data := f.read pos objectSize } :: objectsAt f (pos + objectSize) n := by
  rw [objectsAt, objectsAt, List.range_succ_eq_map, List.map_cons, List.map_map]
  congr 1
  apply List.map_congr_left
  intro i _
  dsimp only [Function.comp_apply]
  rw [Nat.mul_succ, Nat.add_assoc, Nat.add_comm objectSize]

theorem assign_front (front back : List GameObject) (o : GameObject) :
    assign (front ++ back) front.length o = (front ++ [o]) ++ back.drop 1 := by
  rw [assign, List.take_left, List.drop_append, List.drop_eq_nil_of_le (by omega),
    Nat.add_sub_cancel_left, List.append_assoc]
  rfl

/-- Objects are read as far as the file goes, over those that were there. -/
theorem readObjects_some (pos : Nat) (front back : List GameObject) (short : back.length ≤ n) :
    readObjects n front.length ⟨f, pos⟩ (front ++ back) =
      ((readObjects n front.length ⟨f, pos⟩ (front ++ back)).1,
        front ++ objectsAt f pos (min n ((f.length - pos) / objectSize)) ++
          (back.drop (min n ((f.length - pos) / objectSize))).modifyHead
            (·.overlay (f.read (pos + objectSize * min n ((f.length - pos) / objectSize))
              objectSize)),
        decide (n ≤ (f.length - pos) / objectSize)) ∧
    (n ≤ (f.length - pos) / objectSize →
      (readObjects n front.length ⟨f, pos⟩ (front ++ back)).1 = ⟨f, pos + objectSize * n⟩) := by
  induction n generalizing pos front back with
  | zero =>
      obtain rfl : back = [] := List.length_eq_zero_iff.mp (Nat.le_zero.mp short)
      simp [readObjects, objectsAt]
  | succ n ih =>
      have size : objectSize = 68 := rfl
      have got : (f.read pos objectSize).length = min objectSize (f.length - pos) :=
        RandomAccess.Image.length_read
      by_cases whole : f.length - pos < objectSize
      · have none : (f.length - pos) / objectSize = 0 := Nat.div_eq_of_lt whole
        have cut : (f.read pos objectSize).length ≠ objectSize := by omega
        have stopped : readObjects (n + 1) front.length ⟨f, pos⟩ (front ++ back) =
            (((Stream.mk f pos).get objectSize).2,
              front ++ back.modifyHead (·.overlay (f.read pos objectSize)), false) := by
          rw [readObjects]
          refine (if_pos cut).trans ?_
          rw [List.modify_eq_take_drop, List.take_left, List.drop_left]
          rfl
        rw [stopped, none]
        simp [objectsAt]
      · have full : (f.read pos objectSize).length = objectSize := by omega
        have more : (f.length - pos) / objectSize =
            (f.length - (pos + objectSize)) / objectSize + 1 := by
          rw [size] at whole ⊢
          omega
        let o : GameObject := { data := f.read pos objectSize }
        have next : readObjects (n + 1) front.length ⟨f, pos⟩ (front ++ back) =
            readObjects n (front ++ [o]).length ⟨f, pos + objectSize⟩
              ((front ++ [o]) ++ back.drop 1) := by
          rw [readObjects]
          refine (if_neg (not_not.mpr full)).trans ?_
          rw [assign_front, List.length_append, List.length_singleton]
          congr 2
          exact congrArg (pos + ·) full
        obtain ⟨read, reached⟩ := ih (pos + objectSize) (front ++ [o]) (back.drop 1)
          (by rw [List.length_drop]; omega)
        rw [next, more]
        constructor
        · rw [read, Nat.succ_min_succ, objectsAt_succ, List.drop_drop, Nat.add_comm 1,
            Nat.mul_succ, Nat.add_comm (objectSize * _) objectSize, Nat.add_assoc]
          simp only [List.append_assoc, List.cons_append, Nat.succ_eq_add_one,
            Nat.add_le_add_iff_right]
          rfl
        · intro all
          rw [reached (Nat.le_of_succ_le_succ all), Nat.mul_succ, Nat.add_assoc,
            Nat.add_comm objectSize]

/-- The objects after the second step. -/
def readObjs (f : Image) (n : Nat) (objs : List GameObject) : List GameObject :=
  objectsAt f 4 (min n (wholeObjects f)) ++
    ((objs.take n).drop (min n (wholeObjects f))).modifyHead
      (·.overlay (objectBehind f (min n (wholeObjects f))))

theorem readObjects_cache (objs : List GameObject) :
    ∃ fp, readObjects n 0 ⟨f, 4⟩ (objs.take n) =
        (fp, readObjs f n objs, decide (n ≤ wholeObjects f)) ∧
      (n ≤ wholeObjects f → fp = ⟨f, 4 + objectSize * n⟩) := by
  obtain ⟨read, reached⟩ := @readObjects_some f n 4 [] (objs.take n) (List.length_take_le n objs)
  exact ⟨_, read, reached⟩

theorem le_wholeObjects_iff (h : 4 ≤ f.length) :
    n ≤ wholeObjects f ↔ 4 + objectSize * n ≤ f.length := by
  have size : 0 < objectSize := by decide
  rw [wholeObjects, Nat.le_div_iff_mul_le size, Nat.mul_comm n]
  omega

theorem readCache_short (h : f.length < 4) : readCache mem f l = (l, -2) := by
  have cut : (f.read 0 4).length ≠ 4 := by
    rw [Image.length_read]
    omega
  exact if_pos cut

theorem length_count {pos : Nat} (h : pos + 4 ≤ f.length) : (f.read pos 4).length = 4 := by
  rw [Image.length_read]
  omega

theorem readCache_objs_refused (h : 4 ≤ f.length) (no : ¬ mem.realloc (countAt f 0 * 72)) :
    readCache mem f l =
      ({ l with
          objCount := countAt f 0
          objs := if countAt f 0 = 0 then [] else l.objs }, -3) := by
  have whole : ¬ (f.read 0 4).length ≠ 4 := not_not.mpr (length_count h)
  refine (if_neg whole).trans ((if_pos no).trans ?_)
  by_cases none : countAt f 0 = 0
  · rw [if_pos none]
    exact congrArg (·, -3) (if_pos none)
  · rw [if_neg none]
    exact congrArg (·, -3) (if_neg none)

/-- The rest of `readCache`, which reads the enemies. -/
def readEnemies (mem : Memory) (fp : Stream) (l : QuestGame) : QuestGame × Int :=
  let (buf, fp) := fp.get 4
  if buf.length ≠ 4 then (l, -5)
  else
    let cnt := ofLe32 buf
    let l := { l with enemyCount := cnt }
    if ¬mem.realloc (cnt * 8) then (if cnt = 0 then { l with enemies := [] } else l, -6)
    else
      let (buf, _) := fp.get (8 * cnt)
      let enemies := enemiesOf buf
      if enemies.length ≠ cnt then
        let rest := (l.enemies.take cnt).drop enemies.length
        let part := buf.drop (8 * enemies.length)
        ({ l with enemies := enemies ++ rest.modifyHead (overlayEnemy part) }, -7)
      else ({ l with enemies := enemies.map (fixup l.difficulty l.event) }, 0)

/-- The game with the objects that were read. -/
def QuestGame.withObjects (l : QuestGame) (f : Image) : QuestGame :=
  { l with objCount := countAt f 0, objs := readObjs f (countAt f 0) l.objs }

theorem readCache_objs_read (h : 4 ≤ f.length) (yes : mem.realloc (countAt f 0 * 72)) :
    readCache mem f l =
      if f.length < 4 + objectSize * countAt f 0 then (l.withObjects f, -4)
      else readEnemies mem ⟨f, 4 + objectSize * countAt f 0⟩ (l.withObjects f) := by
  have whole : ¬ (f.read 0 4).length ≠ 4 := not_not.mpr (length_count h)
  have behind : (Stream.mk f 0).get 4 = (f.read 0 4, ⟨f, 4⟩) := by
    rw [Stream.get]
    dsimp only
    rw [length_count h]
  have count : ofLe32 (f.read 0 4) = countAt f 0 := rfl
  obtain ⟨fp, read, reached⟩ := @readObjects_cache f (countAt f 0) l.objs
  rw [readCache, behind]
  dsimp only
  rw [count, if_neg whole, if_neg (not_not.mpr yes), read, QuestGame.withObjects]
  generalize countAt f 0 = n at reached
  by_cases all : n ≤ wholeObjects f
  · obtain rfl := reached all
    have room : ¬ f.length < 4 + objectSize * n :=
      Nat.not_lt.mpr ((le_wholeObjects_iff h).mp all)
    dsimp only
    rw [if_neg room, if_neg (not_not.mpr (decide_eq_true all)), readEnemies]
  · have cut : f.length < 4 + objectSize * n :=
      Nat.lt_of_not_le fun room => all ((le_wholeObjects_iff h).mpr room)
    dsimp only
    rw [if_pos cut, if_pos fun yes => all (of_decide_eq_true yes)]

variable {pos : Nat}

theorem readEnemies_short (h : f.length < pos + 4) : readEnemies mem ⟨f, pos⟩ l = (l, -5) := by
  have cut : (f.read pos 4).length ≠ 4 := by
    rw [Image.length_read]
    omega
  exact if_pos cut

theorem readEnemies_refused (h : pos + 4 ≤ f.length) (no : ¬ mem.realloc (countAt f pos * 8)) :
    readEnemies mem ⟨f, pos⟩ l =
      ({ l with
          enemyCount := countAt f pos
          enemies := if countAt f pos = 0 then [] else l.enemies }, -6) := by
  have whole : ¬ (f.read pos 4).length ≠ 4 := not_not.mpr (length_count h)
  refine (if_neg whole).trans ((if_pos no).trans ?_)
  by_cases none : countAt f pos = 0
  · rw [if_pos none]
    exact congrArg (·, -6) (if_pos none)
  · rw [if_neg none]
    exact congrArg (·, -6) (if_neg none)

theorem length_enemiesAt (f : Image) (pos m : Nat) :
    (enemiesAt f pos m).length = min m ((f.length - pos) / 8) := by
  rw [enemiesAt, enemiesOf, List.length_map, List.length_range, Image.length_read]
  omega

theorem readEnemies_read (h : pos + 4 ≤ f.length) (yes : mem.realloc (countAt f pos * 8)) :
    readEnemies mem ⟨f, pos⟩ l =
      if f.length < pos + 4 + 8 * countAt f pos then
        ({ l with
            enemyCount := countAt f pos
            enemies := enemiesAt f (pos + 4) (countAt f pos) ++
              ((l.enemies.take (countAt f pos)).drop ((f.length - (pos + 4)) / 8)).modifyHead
                (overlayEnemy (enemyBehind f (pos + 4) (countAt f pos))) }, -7)
      else
        ({ l with
            enemyCount := countAt f pos
            enemies := (enemiesAt f (pos + 4) (countAt f pos)).map
              (fixup l.difficulty l.event) }, 0) := by
  have whole : ¬ (f.read pos 4).length ≠ 4 := not_not.mpr (length_count h)
  have behind : (Stream.mk f pos).get 4 = (f.read pos 4, ⟨f, pos + 4⟩) := by
    rw [Stream.get]
    dsimp only
    rw [length_count h]
  have count : ofLe32 (f.read pos 4) = countAt f pos := rfl
  have size := length_enemiesAt f (pos + 4) (countAt f pos)
  rw [readEnemies, behind]
  dsimp only
  rw [count, if_neg whole, if_neg (not_not.mpr yes)]
  by_cases cut : f.length < pos + 4 + 8 * countAt f pos
  · have less : (f.length - (pos + 4)) / 8 < countAt f pos := by omega
    rw [Nat.min_eq_right (Nat.le_of_lt less)] at size
    rw [if_pos cut]
    refine (if_pos ?_).trans ?_
    · exact fun same => absurd (size.symm.trans same) (Nat.ne_of_lt less)
    · rw [enemyBehind, ← size]
      rfl
  · have all : countAt f pos ≤ (f.length - (pos + 4)) / 8 := by omega
    rw [Nat.min_eq_left all] at size
    rw [if_neg cut]
    exact if_neg (not_not.mpr size)

end Reading

/-! ## One call -/

section Call

variable {l l' : QuestGame} {c : Load} {f : Image} {rv : Int}

theorem modifyHead_eq_self_iff {α : Type} {g : α → α} {zs : List α} :
    zs.modifyHead g = zs ↔ ∀ z, zs.head? = some z → g z = z := by
  cases zs with
  | nil => simp
  | cons z zs => simp

/-- An array of which only the beginning was read, and a part of the entry there. -/
theorem overwrite_iff {α : Type} {g : α → α} {xs zs : List α} {k n count : Nat}
    (part : xs.length = k) (less : k < n) (known : count = zs.length) :
    (n = (xs ++ ((zs.take n).drop k).modifyHead g).length ∧
        Leaves count n zs (xs ++ ((zs.take n).drop k).modifyHead g)) ↔
      n = count ∧ xs = zs.take k ∧ ∀ z, zs[k]? = some z → g z = z := by
  have head : zs[k]? = (zs.drop k).head? := List.head?_drop.symm
  rw [head, ← modifyHead_eq_self_iff]
  constructor
  · rintro ⟨-, ⟨same, whole⟩ | ⟨none, -⟩⟩
    · have start := congrArg (List.take k) whole
      have rest := congrArg (List.drop k) whole
      rw [← part, List.take_left] at start
      rw [← part, List.drop_left, part, same, known, List.take_length] at rest
      rw [part] at start
      exact ⟨same, start, rest⟩
    · omega
  · rintro ⟨same, start, rest⟩
    have whole : xs ++ ((zs.take n).drop k).modifyHead g = zs := by
      rw [same, known, List.take_length, rest, start, List.take_append_drop]
    rw [whole]
    exact ⟨same.trans known, Or.inl ⟨same, rfl⟩⟩

/-- An array that was read as a whole. -/
theorem replaced_iff {α : Type} {xs zs : List α} {n count : Nat} (full : xs.length = n) :
    Leaves count n zs xs ↔ n = 0 ∨ n = count ∧ xs = zs := by
  constructor
  · rintro (⟨same, whole⟩ | ⟨none, -⟩)
    · exact Or.inr ⟨same, whole⟩
    · exact Or.inl none
  · rintro (none | ⟨same, whole⟩)
    · exact Or.inr ⟨none, List.length_eq_zero_iff.mp (full.trans none)⟩
    · exact Or.inl ⟨same, whole⟩

/-- An array that could not be resized. -/
theorem refused_iff {α : Type} {zs : List α} {n count : Nat} (known : count = zs.length) :
    (n = (if n = 0 then [] else zs).length ∧ Leaves count n zs (if n = 0 then [] else zs)) ↔
      n = 0 ∨ n = count := by
  by_cases none : n = 0
  · rw [if_pos none]
    exact iff_of_true ⟨none, Or.inr ⟨none, rfl⟩⟩ (Or.inl none)
  · rw [if_neg none]
    constructor
    · rintro ⟨same, -⟩
      exact Or.inr (same.trans known.symm)
    · rintro (zero | same)
      · exact absurd zero none
      · exact ⟨same.trans known, Or.inl ⟨same, rfl⟩⟩

/-- A call that stops with the file. -/
theorem load_of_failed (drops : l.serverDrops) (file : c.file = some f)
    (read : readCache c.mem f { l with serverDrops := false } = (l', rv)) (failed : rv ≠ 0) :
    l.load c = (l', rv) := by
  rw [QuestGame.load, loadQuestEnemies, if_neg (not_not.mpr drops), file]
  dsimp only
  rw [read]
  exact if_pos failed

theorem good_of_failed (load : l.load c = (l', rv)) (failed : rv ≠ 0) :
    Good l c ↔ l'.Consistent ∧ l.Left l' := by
  rw [Good, load]
  exact ⟨fun h => ⟨h.1, h.2 failed⟩, fun h => ⟨h.1, fun _ => h.2⟩⟩

/-- What becomes of the arrays when only those of the file were touched. -/
theorem consistent_left_iff (old : l.Consistent) (mtypes : l'.numMtypes = l.numMtypes)
    (mtypes' : l'.mtypes = l.mtypes) (mids : l'.numMids = l.numMids) (mids' : l'.mids = l.mids) :
    l'.Consistent ∧ l.Left l' ↔
      (l'.objCount = l'.objs.length ∧ Leaves l.objCount l'.objCount l.objs l'.objs) ∧
      (l'.enemyCount = l'.enemies.length ∧
        Leaves l.enemyCount l'.enemyCount l.enemies l'.enemies) := by
  constructor
  · rintro ⟨consistent, left⟩
    exact ⟨⟨consistent.objs, left.objs⟩, consistent.enemies, left.enemies⟩
  · rintro ⟨objs, enemies⟩
    refine ⟨⟨objs.1, enemies.1, ?_, ?_⟩, ⟨objs.2, enemies.2, ?_, ?_⟩⟩
    · rw [mtypes, mtypes', old.mtypes]
    · rw [mids, mids', old.mids]
    · exact Or.inl ⟨mtypes, mtypes'⟩
    · exact Or.inl ⟨mids, mids'⟩

/-- The arrays of the file are the same. -/
structure QuestGame.SameMap (l l' : QuestGame) : Prop where
  objCount : l'.objCount = l.objCount
  objs : l'.objs = l.objs
  enemyCount : l'.enemyCount = l.enemyCount
  enemies : l'.enemies = l.enemies

/-- What the lists of monsters are after they were copied, or could not be. -/
structure Copied (mem : Memory) (qptr : Nat → Option Quest) (l : QuestGame) : Prop where
  map : l.SameMap (copyMonsters mem qptr l).1
  done : (copyMonsters mem qptr l).2 = 0 ↔ ∀ q, monsterQuest qptr = some q → q.Listed →
    mem.malloc (8 * q.monsterTypes.length) ∧ mem.malloc (8 * q.monsterIds.length)
  mtypes : l.numMtypes = l.mtypes.length →
    (copyMonsters mem qptr l).1.numMtypes = (copyMonsters mem qptr l).1.mtypes.length
  mids : l.numMids = l.mids.length →
    (copyMonsters mem qptr l).1.numMids = (copyMonsters mem qptr l).1.mids.length
  left : (copyMonsters mem qptr l).2 ≠ 0 →
    Leaves l.numMtypes (copyMonsters mem qptr l).1.numMtypes l.mtypes
      (copyMonsters mem qptr l).1.mtypes ∧
    Leaves l.numMids (copyMonsters mem qptr l).1.numMids l.mids (copyMonsters mem qptr l).1.mids

theorem copied (mem : Memory) (qptr : Nat → Option Quest) (l : QuestGame) : Copied mem qptr l := by
  cases found : monsterQuest qptr with
  | none =>
      have copy : copyMonsters mem qptr l = ({ l with serverDrops := true }, 0) := by
        rw [copyMonsters, found]
      constructor
      all_goals rw [copy]
      · exact ⟨rfl, rfl, rfl, rfl⟩
      · rw [found]
        exact iff_of_true rfl fun q h => absurd h.symm (Option.some_ne_none q)
      · exact id
      · exact id
      · exact fun h => absurd rfl h
  | some q =>
      by_cases unlisted : q.monsterIds.length = 0 ∧ q.monsterTypes.length = 0
      · have copy : copyMonsters mem qptr l = ({ l with serverDrops := true }, 0) := by
          rw [copyMonsters, found]
          exact if_pos unlisted
        constructor
        all_goals rw [copy]
        · exact ⟨rfl, rfl, rfl, rfl⟩
        · rw [found]
          refine iff_of_true rfl fun p h listed => ?_
          obtain rfl := Option.some.inj h
          exact absurd listed fun h => h.elim (fun h => h unlisted.1) fun h => h unlisted.2
        · exact id
        · exact id
        · exact fun h => absurd rfl h
      · have listed : q.Listed := by
          by_contra no
          exact unlisted ⟨not_not.mp fun h => no (Or.inl h), not_not.mp fun h => no (Or.inr h)⟩
        by_cases types : ¬ mem.malloc (8 * q.monsterTypes.length)
        · have copy : copyMonsters mem qptr l = ({ l with numMtypes := 0, mtypes := [] }, -9) := by
            rw [copyMonsters, found]
            exact (if_neg unlisted).trans (if_pos types)
          constructor
          all_goals rw [copy]
          · exact ⟨rfl, rfl, rfl, rfl⟩
          · exact iff_of_false (show (-9 : Int) ≠ 0 by decide) fun h => types (h q found listed).1
          · exact fun _ => rfl
          · exact id
          · exact fun _ => ⟨Or.inr ⟨rfl, rfl⟩, Or.inl ⟨rfl, rfl⟩⟩
        · by_cases ids : ¬ mem.malloc (8 * q.monsterIds.length)
          · have copy : copyMonsters mem qptr l =
                ({ l with numMtypes := 0, mtypes := [], numMids := 0, mids := [] }, -10) := by
              rw [copyMonsters, found]
              exact (if_neg unlisted).trans ((if_neg types).trans (if_pos ids))
            constructor
            all_goals rw [copy]
            · exact ⟨rfl, rfl, rfl, rfl⟩
            · exact iff_of_false (show (-10 : Int) ≠ 0 by decide) fun h => ids (h q found listed).2
            · exact fun _ => rfl
            · exact fun _ => rfl
            · exact fun _ => ⟨Or.inr ⟨rfl, rfl⟩, Or.inr ⟨rfl, rfl⟩⟩
          · have copy : copyMonsters mem qptr l =
                ({ l with
                  serverDrops := true
                  numMtypes := q.monsterTypes.length
                  mtypes := q.monsterTypes
                  numMids := q.monsterIds.length
                  mids := q.monsterIds }, 0) := by
              rw [copyMonsters, found]
              exact (if_neg unlisted).trans ((if_neg types).trans (if_neg ids))
            constructor
            all_goals rw [copy]
            · exact ⟨rfl, rfl, rfl, rfl⟩
            · rw [found]
              refine iff_of_true rfl fun p h _ => ?_
              obtain rfl := Option.some.inj h
              exact ⟨not_not.mp types, not_not.mp ids⟩
            · exact fun _ => rfl
            · exact fun _ => rfl
            · exact fun h => absurd rfl h

/-- A call that has read the whole file. -/
theorem good_of_read (old : l.Consistent) (drops : l.serverDrops) (file : c.file = some f)
    (read : readCache c.mem f { l with serverDrops := false } = (l', 0))
    (objs : l'.objCount = l'.objs.length) (enemies : l'.enemyCount = l'.enemies.length)
    (same : l'.numMtypes = l.numMtypes ∧ l'.mtypes = l.mtypes ∧ l'.numMids = l.numMids ∧
      l'.mids = l.mids) :
    Good l c ↔ Copies c ∨ Leaves l.objCount l'.objCount l.objs l'.objs ∧
      Leaves l.enemyCount l'.enemyCount l.enemies l'.enemies := by
  obtain ⟨numMtypes, mtypes, numMids, mids⟩ := same
  cases elem : c.elem with
  | none =>
      have loaded : l.load c = (l', -8) := by
        rw [QuestGame.load, loadQuestEnemies, if_neg (not_not.mpr drops), file, elem]
        dsimp only
        rw [read]
        exact if_neg (not_not.mpr rfl)
      have never : ¬ Copies c := fun h => h.1 elem
      rw [good_of_failed loaded (by decide), or_iff_right never,
        consistent_left_iff old numMtypes mtypes numMids mids]
      exact ⟨fun h => ⟨h.1.2, h.2.2⟩, fun h => ⟨⟨objs, h.1⟩, enemies, h.2⟩⟩
  | some qptr =>
      have quest : c.quest = qptr (if c.ver = .pc then .dcv2 else c.ver).code := by
        funext lang
        rw [Load.quest, elem]
        rfl
      have loaded : l.load c = copyMonsters c.mem c.quest l' := by
        rw [QuestGame.load, loadQuestEnemies, if_neg (not_not.mpr drops), file, elem, quest]
        dsimp only
        rw [read]
        exact if_neg (not_not.mpr rfl)
      have copy := copied c.mem c.quest l'
      have found : Copies c ↔ (copyMonsters c.mem c.quest l').2 = 0 := by
        rw [copy.done, Copies, elem]
        exact and_iff_right (Option.some_ne_none qptr)
      have consistent : (copyMonsters c.mem c.quest l').1.Consistent :=
        { objs := by rw [copy.map.objCount, copy.map.objs, objs]
          enemies := by rw [copy.map.enemyCount, copy.map.enemies, enemies]
          mtypes := copy.mtypes (by rw [numMtypes, mtypes, old.mtypes])
          mids := copy.mids (by rw [numMids, mids, old.mids]) }
      have map : Leaves l.objCount (copyMonsters c.mem c.quest l').1.objCount l.objs
            (copyMonsters c.mem c.quest l').1.objs ∧
          Leaves l.enemyCount (copyMonsters c.mem c.quest l').1.enemyCount l.enemies
            (copyMonsters c.mem c.quest l').1.enemies ↔
          Leaves l.objCount l'.objCount l.objs l'.objs ∧
            Leaves l.enemyCount l'.enemyCount l.enemies l'.enemies := by
        rw [copy.map.objCount, copy.map.objs, copy.map.enemyCount, copy.map.enemies]
      rw [found, ← map, Good, loaded]
      constructor
      · rintro ⟨-, left⟩
        by_cases done : (copyMonsters c.mem c.quest l').2 = 0
        · exact Or.inl done
        · exact Or.inr ⟨(left done).objs, (left done).enemies⟩
      · intro right
        refine ⟨consistent, fun failed => ?_⟩
        have lists := copy.left failed
        rw [numMtypes, mtypes, numMids, mids] at lists
        have arrays := right.resolve_left failed
        exact ⟨arrays.1, arrays.2, lists.1, lists.2⟩

/-- A call that stops with the file, and has touched only the arrays of the file. -/
theorem good_of_rejected (old : l.Consistent) (load : l.load c = (l', rv)) (failed : rv ≠ 0)
    (mtypes : l'.numMtypes = l.numMtypes ∧ l'.mtypes = l.mtypes)
    (mids : l'.numMids = l.numMids ∧ l'.mids = l.mids) :
    Good l c ↔
      (l'.objCount = l'.objs.length ∧ Leaves l.objCount l'.objCount l.objs l'.objs) ∧
      (l'.enemyCount = l'.enemies.length ∧
        Leaves l.enemyCount l'.enemyCount l.enemies l'.enemies) :=
  (good_of_failed load failed).trans
    (consistent_left_iff old mtypes.1 mtypes.2 mids.1 mids.2)

theorem readObjs_cut {n : Nat} (objs : List GameObject) (less : wholeObjects f < n) :
    readObjs f n objs = objectsAt f 4 (wholeObjects f) ++
      ((objs.take n).drop (wholeObjects f)).modifyHead
        (·.overlay (objectBehind f (wholeObjects f))) := by
  rw [readObjs, Nat.min_eq_right (Nat.le_of_lt less)]

theorem readObjs_whole {n : Nat} (objs : List GameObject) (all : n ≤ wholeObjects f) :
    readObjs f n objs = objectsAt f 4 n := by
  have none : (objs.take n).drop n = [] :=
    List.drop_eq_nil_of_le (List.length_take_le n objs)
  rw [readObjs, Nat.min_eq_left all, none, List.modifyHead_nil, List.append_nil]

/-- A call that stops behind the objects. -/
theorem objs_iff {n : Nat} :
    (n = (objectsAt f 4 n).length ∧ Leaves l.objCount n l.objs (objectsAt f 4 n)) ↔
      ObjectsStay l f n := by
  have size := length_objectsAt f 4 n
  rw [ObjectsStay, replaced_iff size]
  exact and_iff_right size.symm

/-- A call that gets as far as the first count. -/
theorem good_iff_fineFile (old : l.Consistent) (drops : l.serverDrops) (file : c.file = some f)
    (long : 4 ≤ f.length) : Good l c ↔ FineFile l c f := by
  have mtypes : l.numMtypes = l.numMtypes ∧ l.mtypes = l.mtypes := ⟨rfl, rfl⟩
  have mids : l.numMids = l.numMids ∧ l.mids = l.mids := ⟨rfl, rfl⟩
  have enemiesStay : l.enemyCount = l.enemies.length ∧
      Leaves l.enemyCount l.enemyCount l.enemies l.enemies := ⟨old.enemies, Or.inl ⟨rfl, rfl⟩⟩
  rw [FineFile]
  by_cases objs : ¬ c.mem.realloc (countAt f 0 * 72)
  · have load := load_of_failed drops file (readCache_objs_refused long objs) (by decide)
    rw [if_pos objs, good_of_rejected old load (by decide) mtypes mids]
    exact (and_iff_left enemiesStay).trans (refused_iff old.objs)
  rw [if_neg objs]
  have readObjs := @readCache_objs_read c.mem f { l with serverDrops := false } long
    (not_not.mp objs)
  by_cases cut : f.length < 4 + objectSize * countAt f 0
  · have less : wholeObjects f < countAt f 0 :=
      Nat.lt_of_not_le fun all => Nat.not_lt.mpr ((le_wholeObjects_iff long).mp all) cut
    have load := load_of_failed drops file (readObjs.trans (if_pos cut)) (by decide)
    rw [if_pos cut, good_of_rejected old load (by decide) mtypes mids]
    refine (and_iff_left enemiesStay).trans ?_
    dsimp only [QuestGame.withObjects]
    rw [readObjs_cut l.objs less]
    exact overwrite_iff (length_objectsAt f 4 _) less old.objs
  rw [if_neg cut] at readObjs ⊢
  have all : countAt f 0 ≤ wholeObjects f :=
    (le_wholeObjects_iff long).mpr (Nat.le_of_not_lt cut)
  have start : enemiesStart (countAt f 0) = 4 + objectSize * countAt f 0 + 4 := by
    rw [enemiesStart]
    omega
  have withObjects : QuestGame.withObjects { l with serverDrops := false } f =
      { l with serverDrops := false, objCount := countAt f 0,
               objs := objectsAt f 4 (countAt f 0) } := by
    rw [QuestGame.withObjects, readObjs_whole l.objs all]
  rw [withObjects] at readObjs
  by_cases end₁ : f.length < enemiesStart (countAt f 0)
  · have read := readObjs.trans (readEnemies_short (start ▸ end₁))
    have load := load_of_failed drops file read (by decide)
    rw [if_pos end₁, good_of_rejected old load (by decide) mtypes mids]
    exact (and_iff_left enemiesStay).trans objs_iff
  rw [if_neg end₁]
  have long₂ : 4 + objectSize * countAt f 0 + 4 ≤ f.length := start ▸ Nat.le_of_not_lt end₁
  by_cases enemies : ¬ c.mem.realloc (countAt f (4 + objectSize * countAt f 0) * 8)
  · have read := readObjs.trans (readEnemies_refused long₂ enemies)
    have load := load_of_failed drops file read (by decide)
    rw [if_pos enemies, good_of_rejected old load (by decide) mtypes mids]
    dsimp only
    exact and_congr objs_iff (refused_iff old.enemies)
  rw [if_neg enemies]
  have readEnemies := readObjs.trans (readEnemies_read long₂ (not_not.mp enemies))
  have size := length_enemiesAt f (enemiesStart (countAt f 0))
    (countAt f (4 + objectSize * countAt f 0))
  have whole : (f.length - enemiesStart (countAt f 0)) / 8 = wholeEnemies f (countAt f 0) := rfl
  dsimp only at readEnemies
  rw [← start, whole] at readEnemies
  rw [whole] at size
  generalize countAt f 0 = n at *
  generalize countAt f (4 + objectSize * n) = m at *
  by_cases cut₂ : f.length < enemiesStart n + 8 * m
  · have less : wholeEnemies f n < m := by omega
    rw [if_pos cut₂] at readEnemies
    have load := load_of_failed drops file readEnemies (by decide)
    rw [if_pos cut₂, good_of_rejected old load (by decide) mtypes mids]
    refine and_congr objs_iff ?_
    rw [Nat.min_eq_right (Nat.le_of_lt less)] at size
    exact overwrite_iff size less old.enemies
  · rw [if_neg cut₂] at readEnemies
    have size' :
        ((enemiesAt f (enemiesStart n) m).map (fixup l.difficulty l.event)).length = m := by
      rw [List.length_map, size]
      omega
    have good := good_of_read old drops file readEnemies (length_objectsAt f 4 n).symm size'.symm
      ⟨rfl, rfl, rfl, rfl⟩
    rw [if_neg cut₂, good]
    exact or_congr_right
      (and_congr (replaced_iff (length_objectsAt f 4 n)) (replaced_iff size'))

theorem good_iff (old : l.Consistent) : Good l c ↔ FineLoad l c := by
  by_cases drops : l.serverDrops
  · cases file : c.file with
    | none =>
        have load : l.load c = ({ l with serverDrops := false }, -1) := by
          rw [QuestGame.load, loadQuestEnemies, if_neg (not_not.mpr drops), file]
        rw [good_of_rejected old load (by decide) ⟨rfl, rfl⟩ ⟨rfl, rfl⟩]
        refine iff_of_true ⟨⟨old.objs, Or.inl ⟨rfl, rfl⟩⟩, old.enemies, Or.inl ⟨rfl, rfl⟩⟩ ?_
        intro _ f h
        rw [file] at h
        cases h
    | some f =>
        by_cases long : 4 ≤ f.length
        · have body : FineLoad l c ↔ FineFile l c f := by
            constructor
            · exact fun fine => fine drops f file long
            · intro fine _ f' same _
              obtain rfl := Option.some.inj (file.symm.trans same)
              exact fine
          exact (good_iff_fineFile old drops file long).trans body.symm
        · have load := load_of_failed drops file (readCache_short (Nat.lt_of_not_le long))
            (by decide)
          rw [good_of_rejected old load (by decide) ⟨rfl, rfl⟩ ⟨rfl, rfl⟩]
          refine iff_of_true ⟨⟨old.objs, Or.inl ⟨rfl, rfl⟩⟩, old.enemies, Or.inl ⟨rfl, rfl⟩⟩ ?_
          intro _ f' same long'
          obtain rfl := Option.some.inj (file.symm.trans same)
          exact absurd long' long
  · have load : l.load c = (l, 0) := by
      rw [QuestGame.load, loadQuestEnemies, if_pos drops]
    refine iff_of_true ?_ fun on => absurd on drops
    rw [Good, load]
    exact ⟨old, fun failed => absurd rfl failed⟩

end Call

/-! ## Any number of calls -/

/-- A game that is consistent at first stays so, and each failed call leaves the arrays that were
there or empty ones, exactly when nothing goes wrong with any call. -/
theorem loads_good_iff (start : QuestGame) (consistent : start.Consistent) (cs : List Load) :
    (∀ front c back, cs = front ++ c :: back → Good (start.loads front) c) ↔
      Run.Guarded (fun l c => (l.load c).1) FineLoad start cs := by
  have good := @Run.Guarded.congr _ _ (fun l c => (QuestGame.load l c).1) Good FineLoad start cs
    QuestGame.Consistent (fun l c old => good_iff old) (fun l c _ h => h.1) consistent
  rw [← good]
  exact Run.Guarded.iff_each.symm

/-- A cache file with so many objects and no enemies, as far as some byte. -/
def cutAt (objects bytes : Nat) : Load where
  mem := { malloc := fun _ => true, realloc := fun _ => true }
  file := some (Image.empty.write 0
    ((Archive.le32 objects ++ List.replicate (objectSize * objects + 4) 0).take bytes))
  elem := some fun _ _ => none
  ver := .dcv2

/-- One quest that is loaded, and then one that has no cache file. -/
theorem loads_good_two :
    (∀ front c back, [cutAt 0 8, { cutAt 0 8 with file := none }] = front ++ c :: back →
        Good (newGame.loads front) c) ↔
      Run.Guarded (fun l c => (l.load c).1) FineLoad newGame
        [cutAt 0 8, { cutAt 0 8 with file := none }] :=
  loads_good_iff newGame ⟨rfl, rfl, rfl, rfl⟩ _

/-- A file that ends behind the number of its objects leaves a count of one for an array without
entries. -/
theorem cut_inconsistent :
    newGame.Consistent ∧ ¬ Good newGame (cutAt 1 4) := by
  refine ⟨⟨rfl, rfl, rfl, rfl⟩, ?_⟩
  rintro ⟨⟨objs, -, -, -⟩, -⟩
  have count : (newGame.load (cutAt 1 4)).1.objCount = 1 := by decide
  have none : (newGame.load (cutAt 1 4)).1.objs.length = 0 := by decide
  rw [count, none] at objs
  exact nomatch objs

end Sylverant.Ship.QuestMap
