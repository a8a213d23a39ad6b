/-
# The monster lists of a quest

A game that loads a quest looks through the languages of the quest for a monster list. Its
cursor is moved on in the step of the loop too, so that after the last language the pointer
behind them is read, and used if it is to a quest with a list. The lists of a quest that was
loaded before stay when there are none.
-/

import Sylverant.Ship.QuestMap

namespace Sylverant.Ship.QuestMap

open RandomAccess (Image)

/-- There is a monster list for the quest. -/
def Quest.Listed (q : Quest) : Prop := q.monsterIds.length ≠ 0 ∨ q.monsterTypes.length ≠ 0

instance (q : Quest) : Decidable q.Listed := inferInstanceAs (Decidable (_ ∨ _))

/-! ## The search -/

/-- The loop of the search from language `i` on, for so many rounds: where its cursor `q` is
afterwards, and the languages whose pointers were read. -/
def searchLists (qptr : Nat → Option Quest) :
    Nat → Nat → Option Quest → List Nat → Option Quest × List Nat
  | 0, _, q, reads => (q, reads)
  | rounds + 1, i, _, reads =>
      match qptr i with
      | none => searchLists qptr rounds (i + 1) (qptr (i + 1)) (reads ++ [i, i + 1])
      | some q =>
          if q.Listed then (some q, reads ++ [i])
          else searchLists qptr rounds (i + 1) (qptr (i + 1)) (reads ++ [i, i + 1])

/-- The first quest with a list, of so many languages from `i` on. -/
def firstListed (qptr : Nat → Option Quest) (rounds i : Nat) : Option Quest :=
  (List.range' i rounds).findSome? fun k => (qptr k).filter fun q => q.Listed

variable {qptr : Nat → Option Quest} {rounds i : Nat} {q : Option Quest} {reads : List Nat}

theorem firstListed_succ :
    firstListed qptr (rounds + 1) i =
      (((qptr i).filter fun q => q.Listed) <|> firstListed qptr rounds (i + 1)) := by
  rw [firstListed, List.range'_succ, List.findSome?_cons]
  cases (qptr i).filter fun q => q.Listed <;> rfl

/-- A round that finds no list leaves the cursor at the next language. -/
theorem searchLists_skip (h : (qptr i).filter (fun q => q.Listed) = none) :
    searchLists qptr (rounds + 1) i q reads =
      searchLists qptr rounds (i + 1) (qptr (i + 1)) (reads ++ [i, i + 1]) := by
  rw [searchLists]
  cases here : qptr i with
  | none => rfl
  | some p =>
      rw [here, Option.filter_some] at h
      by_cases listed : p.Listed
      · rw [if_pos (decide_eq_true listed)] at h
        exact nomatch h
      · exact if_neg listed

theorem searchLists_found {p : Quest} (h : (qptr i).filter (fun q => q.Listed) = some p) :
    searchLists qptr (rounds + 1) i q reads = (some p, reads ++ [i]) := by
  obtain ⟨here, listed⟩ := Option.filter_eq_some_iff.mp h
  rw [searchLists, here]
  exact if_pos (of_decide_eq_true listed)

/-- The cursor is at the first quest with a list, or behind the last language. -/
theorem searchLists_cursor (atCursor : q = qptr i) :
    (searchLists qptr rounds i q reads).1 =
      (firstListed qptr rounds i <|> qptr (i + rounds)) := by
  induction rounds generalizing i q reads with
  | zero => exact atCursor
  | succ rounds ih =>
      rw [firstListed_succ]
      cases here : (qptr i).filter fun q => q.Listed with
      | none => rw [searchLists_skip here, ih rfl, Nat.add_assoc, Nat.add_comm 1]; rfl
      | some p => rw [searchLists_found here]; rfl

/-- Only pointers of the languages are read, unless none of them has a list. -/
theorem searchLists_reads (inside : ∀ k ∈ reads, k < i + rounds) (some : 0 < rounds) :
    (∀ k ∈ (searchLists qptr rounds i q reads).2, k < i + rounds) ↔
      firstListed qptr rounds i ≠ none := by
  induction rounds generalizing i q reads with
  | zero => exact absurd some (Nat.lt_irrefl 0)
  | succ rounds ih =>
      rw [firstListed_succ]
      cases here : (qptr i).filter fun q => q.Listed with
      | some p =>
          rw [searchLists_found here]
          refine iff_of_true ?_ fun h => nomatch h
          intro k hk
          rcases List.mem_append.mp hk with before | last
          · exact inside k before
          · rw [List.mem_singleton.mp last]
            omega
      | none =>
          rw [searchLists_skip here]
          cases rounds with
          | zero =>
              refine iff_of_false (fun h => ?_) fun h => h rfl
              have behind := h (i + 1) (List.mem_append_right reads (by simp))
              omega
          | succ rounds =>
              rw [show i + (rounds + 1 + 1) = i + 1 + (rounds + 1) by omega]
              apply ih _ (Nat.succ_pos rounds)
              intro k hk
              rcases List.mem_append.mp hk with before | now
              · have old := inside k before
                omega
              · rcases List.mem_cons.mp now with rfl | next
                · omega
                · rw [List.mem_singleton.mp next]
                  omega

/-- The search finds what the loading takes its lists from. -/
theorem searchLists_eq (qptr : Nat → Option Quest) (q : Option Quest) :
    (searchLists qptr langCount 0 q []).1 = monsterQuest qptr := by
  have start : (searchLists qptr langCount 0 q []).1 =
      (searchLists qptr langCount 0 (qptr 0) []).1 := rfl
  rw [start, searchLists_cursor rfl, Nat.zero_add, firstListed, ← List.range_eq_range']
  rfl

/-! ## Loading one quest after another -/

/-- A call of `load_quest_enemies`: which allocations succeed, the cache file, the quest that
is found, and the version of the game. -/
structure Load where
  mem : Memory
  file : Option Image
  elem : Option (Nat → Nat → Option Quest)
  ver : Version

/-- The quest in a language, of the version that the game takes its quests from. -/
def Load.quest (c : Load) (lang : Nat) : Option Quest :=
  c.elem.bind fun qptr => qptr (if c.ver = .pc then .dcv2 else c.ver).code lang

/-- The call, with what it returns. -/
def QuestGame.load (l : QuestGame) (c : Load) : QuestGame × Int :=
  loadQuestEnemies c.mem c.file c.elem c.ver l

/-- The game after some calls. -/
def QuestGame.loads (l : QuestGame) (cs : List Load) : QuestGame :=
  cs.foldl (fun l c => (l.load c).1) l

/-- The languages whose pointers the call reads, if it gets as far. -/
def Load.langs (c : Load) : List Nat := (searchLists c.quest langCount 0 none []).2

/-- The lists of the first quest with a list, or none. -/
def Load.wanted (c : Load) : List QuestEnemy × List QuestEnemy :=
  match firstListed c.quest langCount 0 with
  | none => ([], [])
  | some q => (q.monsterTypes, q.monsterIds)

/-- The game has the lists that it should have after the call, and only pointers of the
languages were read for them. -/
def RightLists (l : QuestGame) (c : Load) : Prop :=
  let after := (l.load c).1
  ((after.mtypes, after.mids) = c.wanted ∧ after.numMtypes = c.wanted.1.length ∧
    after.numMids = c.wanted.2.length) ∧ ∀ lang ∈ c.langs, lang < langCount

variable {l : QuestGame} {c : Load}

/-- A call that returns 0 in a game with server-side drops has got as far as the lists. -/
theorem load_succeeded (drops : l.serverDrops) (done : (l.load c).2 = 0) :
    ∃ after, l.load c = copyMonsters c.mem c.quest after := by
  have on : ¬ ¬ l.serverDrops := not_not.mpr drops
  rw [QuestGame.load, loadQuestEnemies, if_neg on] at done ⊢
  dsimp only at done ⊢
  cases file : c.file with
  | none =>
      rw [file] at done
      exact nomatch done
  | some f =>
      rw [file] at done
      dsimp only at done ⊢
      by_cases failed : (readCache c.mem f { l with serverDrops := false }).2 ≠ 0
      · rw [if_pos failed] at done
        exact absurd done failed
      · rw [if_neg failed] at done ⊢
        cases elem : c.elem with
        | none =>
            rw [elem] at done
            exact nomatch done
        | some qptr =>
            have quest : c.quest = qptr (if c.ver = .pc then .dcv2 else c.ver).code := by
              funext lang
              rw [Load.quest, elem]
              rfl
            exact ⟨_, by rw [quest]⟩

/-- The lists that are copied are those of the quest that the search ends at. -/
theorem copyMonsters_lists {mem : Memory} {qptr : Nat → Option Quest} {q : Quest}
    (found : monsterQuest qptr = some q) (listed : q.Listed)
    (done : (copyMonsters mem qptr l).2 = 0) :
    (copyMonsters mem qptr l).1 =
      { l with
        serverDrops := true
        numMtypes := q.monsterTypes.length
        mtypes := q.monsterTypes
        numMids := q.monsterIds.length
        mids := q.monsterIds } := by
  have some : ¬ (q.monsterIds.length = 0 ∧ q.monsterTypes.length = 0) := by
    rintro ⟨ids, types⟩
    exact listed.elim (fun h => h ids) fun h => h types
  rw [copyMonsters, found] at done ⊢
  dsimp only at done ⊢
  rw [if_neg some] at done ⊢
  by_cases types : ¬ mem.malloc (8 * q.monsterTypes.length)
  · rw [if_pos types] at done
    exact nomatch done
  · rw [if_neg types] at done ⊢
    by_cases ids : ¬ mem.malloc (8 * q.monsterIds.length)
    · rw [if_pos ids] at done
      exact nomatch done
    · rw [if_neg ids]

theorem firstListed_listed {q : Quest} (h : firstListed qptr rounds i = some q) : q.Listed := by
  obtain ⟨k, -, found⟩ := List.exists_of_findSome?_eq_some h
  exact of_decide_eq_true (Option.filter_eq_some_iff.mp found).2

theorem firstListed_ne_none_iff :
    firstListed qptr rounds 0 ≠ none ↔ ∃ lang < rounds, ∃ q, qptr lang = some q ∧ q.Listed := by
  rw [firstListed, ← List.range_eq_range', Option.ne_none_iff_isSome, List.findSome?_isSome_iff]
  constructor
  · rintro ⟨lang, small, found⟩
    obtain ⟨q, hq⟩ := Option.isSome_iff_exists.mp found
    obtain ⟨here, listed⟩ := Option.filter_eq_some_iff.mp hq
    exact ⟨lang, List.mem_range.mp small, q, here, of_decide_eq_true listed⟩
  · rintro ⟨lang, small, q, here, listed⟩
    refine ⟨lang, List.mem_range.mpr small, ?_⟩
    rw [here, Option.filter_some, if_pos (decide_eq_true listed)]
    rfl

/-- After any quests that were loaded before, the lists are right exactly when the quest has one
in some language. -/
theorem rightLists_iff (start : QuestGame) (before : List Load) (c : Load)
    (drops : (start.loads before).serverDrops) (done : ((start.loads before).load c).2 = 0) :
    RightLists (start.loads before) c ↔
      ∃ lang < langCount, ∃ q, c.quest lang = some q ∧ q.Listed := by
  rw [← firstListed_ne_none_iff]
  have reads := @searchLists_reads c.quest langCount 0 none [] (fun _ h => nomatch h) (by decide)
  constructor
  · rintro ⟨-, inside⟩
    exact reads.mp fun k hk => by simpa using inside k hk
  · intro some
    obtain ⟨q, first⟩ := Option.ne_none_iff_exists'.mp some
    obtain ⟨after, copied⟩ := load_succeeded drops done
    have found : monsterQuest c.quest = Option.some q := by
      rw [← searchLists_eq c.quest none]
      have cursor : (searchLists c.quest langCount 0 none []).1 =
          (searchLists c.quest langCount 0 (c.quest 0) []).1 := rfl
      rw [cursor, searchLists_cursor rfl, first]
      rfl
    rw [copied] at done
    have lists := copyMonsters_lists found (firstListed_listed first) done
    refine ⟨?_, fun lang h => by simpa using reads.mpr some lang h⟩
    rw [copied, lists, Load.wanted, first]
    exact ⟨rfl, rfl, rfl⟩

/-- A game that has loaded no quest yet. -/
def newGame : QuestGame where
  serverDrops := true
  difficulty := 0
  event := 0
  objCount := 0
  objs := []
  enemyCount := 0
  enemies := []

/-- A quest with one monster list, for the version and language given, and without objects and
enemies. Behind the languages of a version are those of the next one. -/
def loadList (ver lang : Nat) : Load where
  mem := { malloc := fun _ => true, realloc := fun _ => true }
  file := some (Image.empty.write 0 (List.replicate 8 0))
  elem := some fun v i =>
    if v * langCount + i = ver * langCount + lang then some ⟨[⟨1, 2⟩], []⟩ else none
  ver := .dcv2

/-- With a list for English the game has it. -/
theorem rightLists_english :
    RightLists (newGame.loads []) (loadList 1 1) ↔
      ∃ lang < langCount, ∃ q, (loadList 1 1).quest lang = some q ∧ q.Listed :=
  rightLists_iff newGame [] (loadList 1 1) rfl (by decide)

/-- With a list for the PC version only, a game of version 2 takes that one. -/
theorem next_version_taken :
    (newGame.load (loadList 2 0)).2 = 0 ∧ ¬ RightLists newGame (loadList 2 0) := by
  refine ⟨by decide, ?_⟩
  rintro ⟨⟨-, types, -⟩, -⟩
  have none : (loadList 2 0).wanted.1.length = 0 := by decide
  have one : (newGame.load (loadList 2 0)).1.numMtypes = 1 := by decide
  rw [none, one] at types
  exact nomatch types

end Sylverant.Ship.QuestMap
