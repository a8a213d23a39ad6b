/-
# Bans across a restart

The bans that are written to the file are read again when the ship starts. A ban that ends at
some second still holds in that second when a card is checked, and it is still written then,
but it is not read any more.
-/

import Sylverant.Library.Decimal
import Sylverant.Ship.Bans

namespace Sylverant.Ship.Bans

variable {s : State} {b : Ban} {bans : List Ban} {io : Saving} {now : Time}

/-! ## What should come back -/

/-- Every card is answered for as it was, from some time on. -/
def SameAnswers (bans read : List Ban) (start : Time) : Prop :=
  ∀ guildcard now, start ≤ now →
    isGuildcardBanned read guildcard now = isGuildcardBanned bans guildcard now

/-- A ban that ends when the file is read comes after another one that holds then. -/
def Outlasted (bans : List Ban) (now : Time) : Prop :=
  ∀ front b back, bans = front ++ b :: back → b.endTime = now → b.endTime ≠ -1 →
    ∃ a ∈ front, a.Holds b.bannedGc now

/-! ## The file -/

theorem addNodes_eq {nodes : List Node} (n : Nat) (h : addNodes io n bans = some nodes) :
    nodes = (bans.filter fun b => ¬ b.Over io.now).map Ban.node := by
  induction bans generalizing n nodes with
  | nil => exact (Option.some.inj h).symm
  | cons b bans ih =>
      rw [addNodes] at h
      by_cases gone : b.Over io.now
      · rw [if_pos gone] at h
        rw [List.filter_cons_of_neg (by simp [gone])]
        exact ih n h
      · rw [if_neg gone] at h
        rw [List.filter_cons_of_pos (by simp [gone]), List.map_cons]
        by_cases created : io.node n
        · rw [if_pos created] at h
          obtain ⟨rest, more, rfl⟩ := Option.map_eq_some_iff.mp h
          rw [ih (n + 1) more]
        · rw [if_neg created] at h
          exact nomatch h

/-- A file that was written has an element for each ban that was not over. -/
theorem file_of_written {rv : Int} {lock : Lock} {file : List Node}
    (h : writeBansList s io = some (rv, lock, some file)) :
    file = (s.guildcardBans.filter fun b => ¬ b.Over io.now).map Ban.node := by
  rw [writeBansList] at h
  by_cases unnamed : s.bansFile = ""
  · rw [if_pos unnamed] at h
    exact nomatch h
  rw [if_neg unnamed] at h
  by_cases doc : ¬ io.doc
  · rw [if_pos doc] at h
    exact nomatch h
  rw [if_neg doc] at h
  by_cases root : ¬ io.root
  · rw [if_pos root] at h
    exact nomatch h
  rw [if_neg root] at h
  by_cases dtd : ¬ io.dtd
  · rw [if_pos dtd] at h
    exact nomatch h
  rw [if_neg dtd] at h
  obtain ⟨held, -, h⟩ := Option.bind_eq_some_iff.mp h
  cases made : addNodes io 0 s.guildcardBans with
  | none =>
      rw [made] at h
      exact nomatch h
  | some nodes =>
      rw [made] at h
      have result := (Prod.mk.inj (Prod.mk.inj (Option.some.inj h)).2).2
      by_cases written : io.written
      · rw [if_pos written] at result
        obtain rfl := Option.some.inj result
        exact addNodes_eq 0 made
      · rw [if_neg written] at result
        exact nomatch result

/-- The numbers of a ban are read as they were written. -/
theorem parse_node (b : Ban) :
    b.node.parse = some (b.setBy, b.bannedGc, b.startTime, b.endTime, b.reason) := by
  have word (n : UInt32) : CString.strtoul (toString n.toNat) 0 = some n.toNat :=
    CString.strtoul_toString (Nat.lt_trans n.toNat_lt (by decide))
  have time (t : Time) : CString.strtol (toString t.toInt) 0 = some t.toInt :=
    CString.strtol_toString t.le_toInt t.toInt_lt
  simp only [Node.parse, Ban.node, word, time, Option.bind_eq_bind, Option.bind_some,
    UInt32.ofNat_toNat, Int64.ofInt_toInt]

/-- The ban without the number of its entry. -/
def Ban.text (b : Ban) : Ban := { b with id := 0 }

/-- What is still to come when the file is read. -/
def Ban.Ahead (b : Ban) (now : Time) : Prop := b.endTime = -1 ∨ b.endTime > now

instance (b : Ban) (now : Time) : Decidable (b.Ahead now) :=
  inferInstanceAs (Decidable (_ ∨ _))

theorem readNode_node (lock : s.banlock = {}) (b : Ban) :
    readNode now s b.node =
      some (if b.Ahead now then
        { s with guildcardBans := s.guildcardBans ++ [{ b with id := s.next }], next := s.next + 1 }
      else s) := by
  rw [readNode, parse_node]
  by_cases ahead : b.endTime = -1 ∨ b.endTime > now
  · have ahead' : b.Ahead now := ahead
    dsimp only
    rw [if_pos ahead, if_pos ahead', banGcInt, if_neg (by decide), lock]
    rfl
  · have gone : ¬ b.Ahead now := ahead
    dsimp only
    rw [if_neg ahead, if_neg gone]

/-- The bans that are still to come are put behind what there is. -/
theorem read_nodes (lock : s.banlock = {}) (bans : List Ban) :
    ∃ s', (bans.map Ban.node).foldlM (readNode now) s = some s' ∧
      s'.guildcardBans.map Ban.text =
        s.guildcardBans.map Ban.text ++ (bans.filter fun b => b.Ahead now).map Ban.text := by
  induction bans generalizing s with
  | nil => exact ⟨s, rfl, (List.append_nil _).symm⟩
  | cons b bans ih =>
      rw [List.map_cons, List.foldlM_cons, readNode_node lock]
      by_cases ahead : b.Ahead now
      · rw [if_pos ahead, List.filter_cons_of_pos (by simp [ahead])]
        obtain ⟨s', read, listed⟩ := @ih { s with
          guildcardBans := s.guildcardBans ++ [{ b with id := s.next }], next := s.next + 1 } lock
        refine ⟨s', read, ?_⟩
        rw [listed, List.map_append, List.append_assoc]
        rfl
      · rw [if_neg ahead, List.filter_cons_of_neg (by simp [ahead])]
        exact ih lock

/-! ## The answers -/

/-- An answer does not depend on the numbers of the entries. -/
theorem isGuildcardBanned_text (bans : List Ban) (guildcard : UInt32) (now : Time) :
    isGuildcardBanned (bans.map Ban.text) guildcard now = isGuildcardBanned bans guildcard now := by
  rw [isGuildcardBanned, isGuildcardBanned, List.find?_map, Option.map_map]
  rfl

/-- What is still to come when the file is read was not over when it was written. -/
theorem not_over_of_ahead {later : Time} (order : now ≤ later) (h : b.Ahead later) :
    ¬ b.Over now := by
  rintro ⟨ends, past⟩
  rcases h with forever | ahead
  · exact ends forever
  · have ahead : later < b.endTime := ahead
    rw [Int64.lt_iff_toInt_lt] at past ahead
    rw [Int64.le_iff_toInt_le] at order
    omega

/-- A ban that holds and is not read ends just then. -/
theorem endTime_of_holds {start : Time} {guildcard : UInt32} (order : start ≤ now)
    (holds : b.Holds guildcard now) (lost : ¬ b.Ahead start) :
    now = start ∧ b.endTime = start ∧ b.endTime ≠ -1 := by
  have ends : b.endTime ≠ -1 := fun h => lost (Or.inl h)
  have past : ¬ start < b.endTime := fun h => lost (Or.inr h)
  have still : now ≤ b.endTime := holds.2.resolve_right ends
  rw [Int64.lt_iff_toInt_lt] at past
  rw [Int64.le_iff_toInt_le] at order still
  refine ⟨Int64.toInt_inj.mp (by omega), Int64.toInt_inj.mp (by omega), ends⟩

/-- Reading only what is still to come changes an answer exactly when a ban that ends just then
is the first one of its card that holds. -/
theorem sameAnswers_iff (bans : List Ban) (start : Time) :
    SameAnswers bans (bans.filter fun b => b.Ahead start) start ↔ Outlasted bans start := by
  constructor
  · intro same front b back split ends finite
    by_contra first
    have holds : b.Holds b.bannedGc start := ⟨rfl, Or.inl (by rw [ends]; exact Int64.le_refl _)⟩
    have before : front.find? (fun a => a.Holds b.bannedGc start) = none := by
      rw [List.find?_eq_none]
      intro a ha
      rw [decide_eq_true_eq]
      exact fun h => first ⟨a, ha, h⟩
    have answer : isGuildcardBanned bans b.bannedGc start = some (b.reason, start) := by
      rw [isGuildcardBanned, split, List.find?_append, before, Option.none_or,
        List.find?_cons_of_pos (by simp [holds]), Option.map_some, ends]
    have read := same b.bannedGc start (Int64.le_refl _)
    rw [answer, isGuildcardBanned] at read
    obtain ⟨a, found, same⟩ := Option.map_eq_some_iff.mp read
    have ahead := of_decide_eq_true (List.mem_filter.mp (List.mem_of_find?_eq_some found)).2
    have late : a.endTime = start := (Prod.mk.inj same).2
    rcases ahead with forever | later
    · exact finite (by rw [ends, ← late, forever])
    · rw [late] at later
      exact Int64.lt_irrefl later
  · intro outlasted guildcard now order
    rw [isGuildcardBanned, isGuildcardBanned, List.find?_filter]
    congr 1
    cases found : bans.find? fun b => b.Holds guildcard now with
    | none =>
        rw [List.find?_eq_none] at found ⊢
        intro b hb both
        exact found b hb (of_decide_eq_true both).2
    | some b =>
        obtain ⟨holds, front, back, split, before⟩ := List.find?_eq_some_iff_append.mp found
        have holds : b.Holds guildcard now := of_decide_eq_true holds
        have none : ∀ a ∈ front, ¬ a.Holds guildcard now := by
          intro a ha h
          have not := before a ha
          rw [decide_eq_true h] at not
          exact Bool.false_ne_true not
        -- The first ban that holds is read, or else another one before it would hold.
        have ahead : b.Ahead start := by
          by_contra lost
          obtain ⟨rfl, ends, finite⟩ := endTime_of_holds order holds lost
          obtain ⟨a, ha, h⟩ := outlasted front b back split ends finite
          rw [holds.1] at h
          exact none a ha h
        rw [List.find?_eq_some_iff_append]
        refine ⟨by simp [ahead, holds], front, back, split, fun a ha => ?_⟩
        simp [none a ha]

/-- A ship that reads a file answers as from the bans that were still to come. -/
theorem banListRead_file {lock : Lock} {file : List Node} (order : io.now ≤ now)
    (saved : writeBansList s io = some (0, lock, some file)) :
    ∃ s', banListRead { bansFile := s.bansFile } file now = some (0, s') ∧
      ∀ guildcard later, isGuildcardBanned s'.guildcardBans guildcard later =
        isGuildcardBanned (s.guildcardBans.filter fun b => b.Ahead now) guildcard later := by
  rw [file_of_written saved]
  obtain ⟨s', read, listed⟩ := @read_nodes { bansFile := s.bansFile } now rfl
    (s.guildcardBans.filter fun b => ¬ b.Over io.now)
  refine ⟨s', ?_, fun guildcard later => ?_⟩
  · rw [banListRead, if_neg (not_not.mpr rfl), read]
    rfl
  · have kept : ((s.guildcardBans.filter fun b => ¬ b.Over io.now).filter fun b => b.Ahead now) =
        s.guildcardBans.filter fun b => b.Ahead now := by
      rw [List.filter_filter]
      apply List.filter_congr
      intro b _
      by_cases ahead : b.Ahead now
      · simp [ahead, not_over_of_ahead order ahead]
      · simp [ahead]
    rw [List.map_nil, List.nil_append, kept] at listed
    rw [← isGuildcardBanned_text, listed, isGuildcardBanned_text]

/-- After a restart every card is answered for as before exactly when each ban that ends in the
second in which the file is read comes after one that holds then. -/
theorem answers_survive_iff {lock : Lock} {file : List Node} (order : io.now ≤ now)
    (saved : writeBansList s io = some (0, lock, some file)) :
    ∃ s', banListRead { bansFile := s.bansFile } file now = some (0, s') ∧
      (SameAnswers s.guildcardBans s'.guildcardBans now ↔ Outlasted s.guildcardBans now) := by
  obtain ⟨s', read, answers⟩ := banListRead_file order saved
  refine ⟨s', read, ?_⟩
  rw [← sameAnswers_iff]
  simp only [SameAnswers, answers]

/-- A ban until second 100. -/
def lastSecond : State where
  bansFile := "bans.xml"
  guildcardBans := [⟨0, "", 0, 100, 42, 5⟩]

/-- It is saved at second 50, and the file is read in its last second. -/
theorem answers_survive_last_second :
    ∃ s', banListRead { bansFile := "bans.xml" } (lastSecond.guildcardBans.map Ban.node) 100 =
        some (0, s') ∧
      (SameAnswers lastSecond.guildcardBans s'.guildcardBans 100 ↔
        Outlasted lastSecond.guildcardBans 100) :=
  @answers_survive_iff lastSecond { now := 50 } 100 {} _ (by decide) rfl

/-- The ban is lost, though it still holds. -/
theorem last_second_lost :
    ∃ file s', writeBansList lastSecond { now := 50 } = some (0, {}, some file) ∧
      banListRead { bansFile := "bans.xml" } file 100 = some (0, s') ∧
      ¬ SameAnswers lastSecond.guildcardBans s'.guildcardBans 100 := by
  obtain ⟨s', read, answers⟩ := @banListRead_file lastSecond { now := 50 } 100 {}
    (lastSecond.guildcardBans.map Ban.node) (by decide) rfl
  refine ⟨_, s', rfl, read, fun same => ?_⟩
  have held := same 5 100 (by decide)
  rw [answers] at held
  exact absurd held (by decide)

end Sylverant.Ship.Bans
