/-
# Block numbers from the shipgate

Blocks are numbered from one on, and the handlers for the packets of the shipgate check the
number of a block by hand, for the most part only against the number of blocks. Which packets
are handled without a look outside the array of blocks, the use of a block that was not
started, and a loop that leaves the packet or never ends.
-/

import Sylverant.Ship.FromShipgate

namespace Sylverant.Ship.FromShipgate

open Shipgate

/-! ## What should hold -/

/-- Entries of the array of blocks are read only where there are some, only blocks that were
started are used, and loops read inside the packet. -/
def Act.Good (s : ShipState) (pkt : Mem) : Act → Prop
  | .index i => i < s.blocks
  | .block i => i < s.blocks ∧ s.started i = true
  | .read offset size => offset + size ≤ pkt.net16 0
  | .string offset => ∃ k, offset + k < pkt.net16 0 ∧ pkt (offset + k) = 0
  | _ => True

/-- A handler ends, and all that it does is good. -/
def Ok (s : ShipState) (pkt : Mem) (handler : Nat → Option (List Act)) : Prop :=
  ∃ rounds acts, handler rounds = some acts ∧ ∀ a ∈ acts, a.Good s pkt

/-- A packet is handled well. -/
def Safe (s : ShipState) (pkt : Mem) : Prop := Ok s pkt fun rounds => handlePkt rounds s pkt

/-! ## When it does -/

/-- A number up to that of the blocks is that of a block that was started. -/
def NamesStarted (s : ShipState) (block : Nat) : Prop :=
  block ≤ s.blocks → block ≠ 0 ∧ s.started (block - 1) = true

/-- A client with the guildcard is on the block of a number. -/
def IsOn (s : ShipState) (block gc : Nat) : Prop :=
  block ≤ s.blocks ∧ ∃ c ∈ s.clients (block - 1), c.guildcard = gc

/-- A friend list has whole entries, and the names of those that are shown end in it. -/
def EntriesFine (s : ShipState) (pkt : Mem) : Prop :=
  ∃ n, pkt.net16 0 = 16 + 48 * n ∧ ∀ j < n, entryShown s pkt j = true →
    ∃ k, 16 + 48 * j + 16 + k < pkt.net16 0 ∧ pkt (16 + 48 * j + 16 + k) = 0

/-- The options from a place in the packet on: there are none, or an empty one is the last, or
there is one that is not of no length, and goes on with the next. What is read of them is in
the packet. -/
inductive OptionsFine (pkt : Mem) : Nat → Prop
  | past {opt : Nat} (hpast : pkt.net16 0 ≤ opt) : OptionsFine pkt opt
  | last {opt : Nat} (hin : opt + 4 ≤ pkt.net16 0) (hzero : pkt.net32 opt = 0) :
      OptionsFine pkt opt
  | option {opt : Nat} (hin : opt + 8 ≤ pkt.net16 0) (hopt : pkt.net32 opt ≠ 0)
      (hlength : pkt.net32 (opt + 4) ≠ 0)
      (hdata : pkt.net32 (opt + 4) = 16 → pkt.net32 opt ≤ 4 → opt + 9 ≤ pkt.net16 0)
      (hrest : OptionsFine pkt (opt + pkt.net32 (opt + 4))) : OptionsFine pkt opt

/-- What a handler needs of a packet: those that look whether the block was started need a
number that is not zero, the others that of a block that was started, and the loops lists that
end with the packet. -/
def Handler.Fine (s : ShipState) (pkt : Mem) : Handler → Prop
  | .gmlogin => pkt.net16 6 &&& SHDR_RESPONSE ≠ 0 → NamesStarted s (pkt.net32 12)
  | .gmloginErr => pkt.net16 6 &&& SHDR_RESPONSE ≠ 0 → NamesStarted s (pkt.net32 20)
  | .bloginErr => pkt.net32 20 ≠ 0
  | .friend => pkt.net32 12 ≠ 0
  | .kick => NamesStarted s (pkt.net32 20)
  | .frlist =>
      NamesStarted s (pkt.net32 12) ∧
        (IsOn s (pkt.net32 12) (pkt.net32 8) → EntriesFine s pkt)
  | .useropt =>
      NamesStarted s (pkt.net32 12) ∧
        (IsOn s (pkt.net32 12) (pkt.net32 8) → OptionsFine pkt 24)
  | .bbopts => NamesStarted s (pkt.net32 12)
  | .bbGreply => pkt.net32 20 ≠ 0

/-- The handler that gets the packet, if one does, has what it needs. -/
def Fine (s : ShipState) (pkt : Mem) : Prop := ∀ h, dispatch s pkt = some h → h.Fine s pkt

/-! ## Blocks -/

variable {s : ShipState} {pkt : Mem}

theorem blockIndex_zero : blockIndex 0 = 2 ^ 32 - 1 := by decide

theorem blockIndex_of_pos {block : Nat} (hpos : block ≠ 0) (hle : block ≤ s.blocks) :
    blockIndex block = block - 1 := by
  have hlt := s.blocks_lt
  rw [blockIndex]
  omega

/-- The entry that is looked up is one of the array just if the number is not zero. -/
theorem blockIndex_lt_iff {block : Nat} (hle : block ≤ s.blocks) :
    blockIndex block < s.blocks ↔ block ≠ 0 := by
  constructor
  · rintro hlt rfl
    have hblocks := s.blocks_lt
    rw [blockIndex_zero] at hlt
    omega
  · intro hpos
    rw [blockIndex_of_pos hpos hle]
    omega

theorem ok_some (acts : List Act) :
    (Ok s pkt fun _ => some acts) ↔ ∀ a ∈ acts, a.Good s pkt :=
  ⟨fun ⟨_, _, hsome, hacts⟩ => Option.some.inj hsome ▸ hacts, fun h => ⟨0, acts, rfl, h⟩⟩

theorem ok_cons (act : Act) (handler : Nat → Option (List Act)) :
    (Ok s pkt fun rounds => (handler rounds).map (act :: ·)) ↔
      act.Good s pkt ∧ Ok s pkt handler := by
  constructor
  · rintro ⟨rounds, acts, hsome, hacts⟩
    obtain ⟨rest, hrest, rfl⟩ := Option.map_eq_some_iff.mp hsome
    exact ⟨hacts act List.mem_cons_self, rounds, rest, hrest, fun a ha =>
      hacts a (List.mem_cons_of_mem act ha)⟩
  · rintro ⟨hact, rounds, rest, hrest, hgood⟩
    refine ⟨rounds, act :: rest, congrArg (Option.map (act :: ·)) hrest, ?_⟩
    intro a ha
    rcases List.mem_cons.mp ha with rfl | ha
    · exact hact
    · exact hgood a ha

theorem ok_append (handler : Nat → Option (List Act)) (more : List Act)
    (hmore : ∀ a ∈ more, a.Good s pkt) :
    (Ok s pkt fun rounds => (handler rounds).map (· ++ more)) ↔ Ok s pkt handler := by
  constructor
  · rintro ⟨rounds, acts, hsome, hacts⟩
    obtain ⟨first, hfirst, rfl⟩ := Option.map_eq_some_iff.mp hsome
    exact ⟨rounds, first, hfirst, fun a ha => hacts a (List.mem_append_left more ha)⟩
  · rintro ⟨rounds, first, hfirst, hgood⟩
    refine ⟨rounds, first ++ more, congrArg (Option.map (· ++ more)) hfirst, ?_⟩
    intro a ha
    rcases List.mem_append.mp ha with ha | ha
    · exact hgood a ha
    · exact hmore a ha

/-- With the check of the number alone, what comes next is for the block before. -/
theorem ok_withBlock (block : Nat) (use : Nat → Nat → Option (List Act)) :
    (Ok s pkt fun rounds => withBlock s block (use rounds)) ↔
      (block ≤ s.blocks → block ≠ 0 ∧ Ok s pkt fun rounds => use rounds (block - 1)) := by
  unfold withBlock
  by_cases hle : block ≤ s.blocks
  · simp only [if_neg (Nat.not_lt.mpr hle)]
    rw [ok_cons, Act.Good, blockIndex_lt_iff hle]
    constructor
    · rintro ⟨hpos, hrest⟩ _
      rw [blockIndex_of_pos hpos hle] at hrest
      exact ⟨hpos, hrest⟩
    · intro h
      obtain ⟨hpos, hrest⟩ := h hle
      rw [blockIndex_of_pos hpos hle]
      exact ⟨hpos, hrest⟩
  · simp only [if_pos (Nat.not_le.mp hle)]
    exact ⟨fun _ h => absurd h hle, fun _ => (ok_some []).mpr fun a ha => nomatch ha⟩

/-- With the check whether the block was started, only a number of zero is bad. -/
theorem ok_withStarted (block : Nat) (use : Nat → Nat → Option (List Act))
    (huse : block ≤ s.blocks → s.started (block - 1) = true → block ≠ 0 →
      Ok s pkt fun rounds => use rounds (block - 1)) :
    (Ok s pkt fun rounds => withStarted s block (use rounds)) ↔ block ≠ 0 := by
  unfold withStarted
  by_cases hle : block ≤ s.blocks
  · simp only [if_neg (Nat.not_lt.mpr hle)]
    by_cases hstarted : s.started (blockIndex block) = true
    · simp only [if_pos hstarted]
      rw [ok_cons, Act.Good, blockIndex_lt_iff hle]
      refine ⟨fun h => h.1, fun hpos => ⟨hpos, ?_⟩⟩
      rw [blockIndex_of_pos hpos hle] at hstarted ⊢
      exact huse hle hstarted hpos
    · simp only [if_neg hstarted]
      rw [ok_some, List.forall_mem_singleton, Act.Good, blockIndex_lt_iff hle]
  · simp only [if_pos (Nat.not_le.mp hle)]
    refine ⟨fun _ hzero => hle (hzero ▸ Nat.zero_le _), fun _ => ?_⟩
    exact (ok_some []).mpr fun a ha => nomatch ha

/-- The block is used, and what is done then depends on whether the client is there. -/
theorem ok_forClient (i gc : Nat) (use : Nat → BlockClient → Option (List Act)) :
    (Ok s pkt fun rounds => forClient s i gc (use rounds)) ↔
      (i < s.blocks ∧ s.started i = true) ∧
        ∀ c, (s.clients i).find? (fun c => c.guildcard == gc) = some c →
          Ok s pkt fun rounds => use rounds c := by
  unfold forClient
  cases hfind : (s.clients i).find? fun c => c.guildcard == gc with
  | none =>
      dsimp only
      rw [ok_some, List.forall_mem_singleton, Act.Good]
      exact ⟨fun h => ⟨h, fun c hc => nomatch hc⟩, fun h => h.1⟩
  | some c =>
      dsimp only
      rw [ok_cons, Act.Good]
      refine and_congr_right fun _ => ⟨fun h c' hc' => ?_, fun h => h c rfl⟩
      rw [← Option.some.inj hc']
      exact h

/-- A handler that does no harm to a block that was started needs only the number of one. -/
theorem ok_withBlock_forClient (block gc : Nat)
    (use : Nat → BlockClient → Option (List Act)) (fine : Prop)
    (huse : ∀ c, (Ok s pkt fun rounds => use rounds c) ↔ fine) :
    (Ok s pkt fun rounds => withBlock s block fun i => forClient s i gc (use rounds)) ↔
      NamesStarted s block ∧ (IsOn s block gc → fine) := by
  rw [ok_withBlock block fun rounds i => forClient s i gc (use rounds), NamesStarted, IsOn]
  simp only [ok_forClient, huse]
  constructor
  · intro h
    refine ⟨fun hle => ⟨(h hle).1, (h hle).2.1.2⟩, ?_⟩
    rintro ⟨hle, c, hc, hgc⟩
    cases hfind : (s.clients (block - 1)).find? fun c => c.guildcard == gc with
    | none => exact absurd (beq_iff_eq.mpr hgc) (List.find?_eq_none.mp hfind c hc)
    | some c' => exact (h hle).2.2 c' hfind
  · rintro ⟨hnames, hon⟩ hle
    obtain ⟨hpos, hstarted⟩ := hnames hle
    refine ⟨hpos, ⟨by omega, hstarted⟩, fun c hfind => hon ⟨hle, c, ?_, ?_⟩⟩
    · exact List.mem_of_find?_eq_some hfind
    · exact beq_iff_eq.mp (@List.find?_some _ (fun c : BlockClient => c.guildcard == gc) c _ hfind)

/-! ## Loops -/

/-- The loop over a friend list ends just at a whole number of entries. -/
theorem frlist_ends_iff (good : Act → Prop) (j : Nat) (total : Int) :
    TracedLoop.Ends (frlistPass s pkt) good (j, total) ↔
      ∃ n : Nat, total = 48 * n ∧ ∀ i < n, ∀ a ∈ (frlistPass s pkt (j + i, 1)).1, good a := by
  have hnone (j : Nat) : (frlistPass s pkt (j, 0)).2 = none := rfl
  have hmore {total : Int} (hne : total ≠ 0) (j : Nat) :
      frlistPass s pkt (j, total) =
        ((frlistPass s pkt (j, 1)).1, some (j + 1, total - 48)) := by
    unfold frlistPass
    dsimp only
    rw [if_neg hne, if_neg Int.one_ne_zero]
  constructor
  · intro h
    generalize hloop : (j, total) = loop at h
    induction h generalizing j total with
    | @last loop hlast _ =>
        subst hloop
        by_cases hne : total = 0
        · exact ⟨0, hne, fun i hi => absurd hi (Nat.not_lt_zero i)⟩
        · rw [hmore hne] at hlast
          cases hlast
    | @more loop next hnext hgood _ ih =>
        subst hloop
        by_cases hne : total = 0
        · rw [hne, hnone] at hnext
          cases hnext
        · rw [hmore hne] at hnext hgood
          obtain ⟨n, hn, hentries⟩ := ih (j + 1) (total - 48) (Option.some.inj hnext)
          refine ⟨n + 1, by omega, ?_⟩
          intro i hi
          cases i with
          | zero => exact hgood
          | succ i =>
              rw [Nat.add_comm i 1, ← Nat.add_assoc]
              exact hentries i (Nat.lt_of_succ_lt_succ hi)
  · rintro ⟨n, rfl, hentries⟩
    induction n generalizing j with
    | zero => exact .last (hnone j) fun a ha => nomatch ha
    | succ n ih =>
        have hne : (48 * (n + 1 : Nat) : Int) ≠ 0 := by omega
        have hnext :
            (frlistPass s pkt (j, 48 * (n + 1 : Nat))).2 = some (j + 1, 48 * (n : Int)) := by
          rw [hmore hne]
          have htotal : (48 * (n + 1 : Nat) : Int) - 48 = 48 * n := by omega
          rw [htotal]
        refine .more hnext ?_ (ih (j + 1) fun i hi => ?_)
        · rw [hmore hne]
          exact hentries 0 (Nat.succ_pos n)
        · rw [Nat.add_assoc, Nat.add_comm 1 i]
          exact hentries (i + 1) (Nat.succ_lt_succ hi)

/-- What is read of an entry. -/
theorem entry_good_iff {n j : Nat} (hlen : pkt.net16 0 = 16 + 48 * n) (hj : j < n) :
    (∀ a ∈ (frlistPass s pkt (j, 1)).1, a.Good s pkt) ↔
      (entryShown s pkt j = true →
        ∃ k, 16 + 48 * j + 16 + k < pkt.net16 0 ∧ pkt (16 + 48 * j + 16 + k) = 0) := by
  unfold frlistPass
  dsimp only
  rw [if_neg Int.one_ne_zero]
  have hreads : ∀ a ∈ ([.read (16 + 48 * j + 4) 4, .read (16 + 48 * j + 8) 4,
      .read (16 + 48 * j) 4] : List Act), a.Good s pkt := by
    intro a ha
    simp only [List.mem_cons, List.not_mem_nil, or_false] at ha
    rcases ha with rfl | rfl | rfl
    all_goals
      rw [Act.Good]
      omega
  constructor
  · intro h hshown
    refine h (.string (16 + 48 * j + 16)) (List.mem_append_right _ ?_)
    rw [if_pos hshown]
    exact List.mem_singleton_self _
  · intro h a ha
    rcases List.mem_append.mp ha with ha | ha
    · exact hreads a ha
    · split at ha
      · rename_i hshown
        rw [List.mem_singleton.mp ha]
        exact h hshown
      · cases ha

theorem ok_frlist (c : BlockClient) :
    (Ok s pkt fun rounds =>
      (TracedLoop.run (frlistPass s pkt) rounds (0, (pkt.net16 0 : Int) - 16)).map
        (· ++ [.send c])) ↔ EntriesFine s pkt := by
  have hsend : ∀ a ∈ [Act.send c], a.Good s pkt := by
    intro a ha
    rw [List.mem_singleton.mp ha]
    trivial
  rw [ok_append _ _ hsend, Ok, ← TracedLoop.ends_iff, frlist_ends_iff, EntriesFine]
  constructor
  · rintro ⟨n, hn, hentries⟩
    have hlen : pkt.net16 0 = 16 + 48 * n := by omega
    refine ⟨n, hlen, fun j hj => (entry_good_iff hlen hj).mp ?_⟩
    have hentry := hentries j hj
    rwa [Nat.zero_add] at hentry
  · rintro ⟨n, hlen, hnames⟩
    refine ⟨n, by omega, fun j hj => ?_⟩
    rw [Nat.zero_add]
    exact (entry_good_iff hlen hj).mpr (hnames j hj)

/-- What is read for an option, beside its type and its length. -/
theorem useOption_good_iff (c : BlockClient) (opt : Nat) (hopt : pkt.net32 opt ≠ 0) :
    (∀ a ∈ useOption pkt c opt, a.Good s pkt) ↔
      (pkt.net32 (opt + 4) = 16 → pkt.net32 opt ≤ 4 → opt + 9 ≤ pkt.net16 0) := by
  unfold useOption
  by_cases hlength : pkt.net32 (opt + 4) = 16
  · -- the byte of data is read for each of the four options, and nothing else
    have hread {acts : List Act} (hle : pkt.net32 opt ≤ 4)
        (hacts : ∃ more, acts = .read (opt + 8) 1 :: more ∧ ∀ a ∈ more, a.Good s pkt) :
        (∀ a ∈ acts, a.Good s pkt) ↔
          (pkt.net32 (opt + 4) = 16 → pkt.net32 opt ≤ 4 → opt + 9 ≤ pkt.net16 0) := by
      obtain ⟨more, rfl, hmore⟩ := hacts
      rw [List.forall_mem_cons, Act.Good]
      exact ⟨fun h _ _ => h.1, fun h => ⟨h hlength hle, hmore⟩⟩
    have heffect {test : Prop} [Decidable test] {more : List Act}
        (hmore : ∀ a ∈ more, a.Good s pkt) :
        ∃ rest, (if test then Act.read (opt + 8) 1 :: more else [.read (opt + 8) 1]) =
          .read (opt + 8) 1 :: rest ∧ ∀ a ∈ rest, a.Good s pkt := by
      split
      · exact ⟨more, rfl, hmore⟩
      · exact ⟨[], rfl, fun a ha => nomatch ha⟩
    rw [if_neg (not_not.mpr hlength)]
    dsimp only
    split
    · rename_i hone
      exact hread (by omega) ⟨_, rfl, by simp [Act.Good]⟩
    · rename_i htwo
      exact hread (by omega) (heffect (by simp [Act.Good]))
    · rename_i hthree
      exact hread (by omega) (heffect (by simp [Act.Good]))
    · rename_i hfour
      exact hread (by omega) (heffect (by simp [Act.Good]))
    · rename_i h1 h2 h3 h4
      have hlarge : ¬pkt.net32 opt ≤ 4 := by
        intro hle
        have hcases : pkt.net32 opt = 1 ∨ pkt.net32 opt = 2 ∨ pkt.net32 opt = 3 ∨
            pkt.net32 opt = 4 := by omega
        rcases hcases with h | h | h | h
        · exact h1 h
        · exact h2 h
        · exact h3 h
        · exact h4 h
      exact ⟨fun _ _ hle => absurd hle hlarge, fun _ a ha => nomatch ha⟩
  · rw [if_pos hlength]
    exact ⟨fun _ h => absurd h hlength, fun _ a ha => nomatch ha⟩

/-- The options are read to an end, inside the packet, just if they are fine. -/
theorem useropt_ends_iff (c : BlockClient) (opt : Nat) :
    TracedLoop.Ends (useroptPass pkt c) (Act.Good s pkt) opt ↔ OptionsFine pkt opt := by
  have hpast {opt : Nat} (h : pkt.net16 0 ≤ opt) : useroptPass pkt c opt = ([], none) :=
    if_neg (Nat.not_lt.mpr h)
  have hzero {opt : Nat} (hin : opt < pkt.net16 0) (h : pkt.net32 opt = 0) :
      useroptPass pkt c opt = ([.read opt 4], none) := (if_pos hin).trans (if_pos h)
  have hmore {opt : Nat} (hin : opt < pkt.net16 0) (h : pkt.net32 opt ≠ 0) :
      useroptPass pkt c opt = ([.read opt 4, .read (opt + 4) 4] ++ useOption pkt c opt,
        some (opt + pkt.net32 (opt + 4))) := (if_pos hin).trans (if_neg h)
  constructor
  · intro h
    induction h with
    | @last opt hlast hgood =>
        by_cases hin : opt < pkt.net16 0
        · by_cases hopt : pkt.net32 opt = 0
          · rw [hzero hin hopt, List.forall_mem_singleton] at hgood
            exact .last hgood hopt
          · rw [hmore hin hopt] at hlast
            cases hlast
        · exact .past (Nat.not_lt.mp hin)
    | @more opt next hnext hgood hends ih =>
        by_cases hin : opt < pkt.net16 0
        · by_cases hopt : pkt.net32 opt = 0
          · rw [hzero hin hopt] at hnext
            cases hnext
          · rw [hmore hin hopt] at hnext hgood
            obtain rfl := Option.some.inj hnext
            have hlength : pkt.net32 (opt + 4) ≠ 0 := by
              -- an option of no length is met again and again
              intro hzeroLen
              refine TracedLoop.not_ends_of_forever (I := fun o => o = opt) ?_ rfl
                (by rwa [hzeroLen] at hends)
              rintro o rfl
              rw [hmore hin hopt, hzeroLen]
              exact ⟨o, rfl, rfl⟩
            have hread := hgood (.read (opt + 4) 4)
              (List.mem_append_left _ (List.mem_cons_of_mem _ List.mem_cons_self))
            rw [Act.Good] at hread
            refine .option (by omega) hopt hlength ?_ ih
            exact (useOption_good_iff c opt hopt).mp fun a ha =>
              hgood a (List.mem_append_right _ ha)
        · rw [hpast (Nat.not_lt.mp hin)] at hnext
          cases hnext
  · intro h
    induction h with
    | @past opt h =>
        refine .last (by rw [hpast h]) ?_
        rw [hpast h]
        exact fun a ha => nomatch ha
    | @last opt hin h =>
        have hbody := hzero (by omega) h
        refine .last (by rw [hbody]) ?_
        rw [hbody, List.forall_mem_singleton]
        exact hin
    | @option opt hin hopt hlength hdata _ ih =>
        have hbody := hmore (by omega) hopt
        refine .more (by rw [hbody]) ?_ ih
        rw [hbody]
        intro a ha
        rcases List.mem_append.mp ha with ha | ha
        · simp only [List.mem_cons, List.not_mem_nil, or_false] at ha
          rcases ha with rfl | rfl
          all_goals
            rw [Act.Good]
            omega
        · exact (useOption_good_iff c opt hopt).mpr hdata a ha

/-! ## All packets -/

/-- A handler does what it should just if it has what it needs. -/
theorem ok_handle_iff (h : Handler) :
    (Ok s pkt fun rounds => h.handle rounds s pkt) ↔ h.Fine s pkt := by
  have hone (acts : BlockClient → List Act) (hacts : ∀ c, ∀ a ∈ acts c, a.Good s pkt)
      (block gc : Nat) :
      (Ok s pkt fun _ => withBlock s block fun i => forClient s i gc fun c => some (acts c)) ↔
        NamesStarted s block := by
    rw [ok_withBlock_forClient block gc (fun _ c => some (acts c)) True fun c =>
      ⟨fun _ => trivial, fun _ => (ok_some (acts c)).mpr (hacts c)⟩]
    exact ⟨fun h => h.1, fun h => ⟨h, fun _ => trivial⟩⟩
  have hflag (block : Nat) (handler : Option (List Act)) (hiff : (Ok s pkt fun _ => handler) ↔
      NamesStarted s block) :
      (Ok s pkt fun _ => if pkt.net16 6 &&& SHDR_RESPONSE = 0 then some [] else handler) ↔
        (pkt.net16 6 &&& SHDR_RESPONSE ≠ 0 → NamesStarted s block) := by
    by_cases hzero : pkt.net16 6 &&& SHDR_RESPONSE = 0
    · rw [if_pos hzero]
      exact ⟨fun _ h => absurd hzero h,
        fun _ => (ok_some []).mpr fun a ha => absurd ha List.not_mem_nil⟩
    · rw [if_neg hzero, hiff]
      exact ⟨fun h _ => h, fun h => h hzero⟩
  have hblock {block : Nat} (hle : block ≤ s.blocks) (hpos : block ≠ 0) : block - 1 < s.blocks := by
    omega
  cases h with
  | gmlogin => exact hflag _ _ (hone _ (by simp [Act.Good]) _ _)
  | gmloginErr => exact hflag _ _ (hone _ (by simp [Act.Good]) _ _)
  | bloginErr =>
      refine ok_withStarted (pkt.net32 20) (fun _ i =>
        some (.block i :: ((s.clients i).filter fun c => c.guildcard == pkt.net32 16).map
          fun c => .setFlags c CLIENT_FLAG_DISCONNECTED)) ?_
      intro hle hstarted hpos
      refine (ok_some _).mpr fun a ha => ?_
      rcases List.mem_cons.mp ha with rfl | ha
      · exact ⟨hblock hle hpos, hstarted⟩
      · obtain ⟨c, -, rfl⟩ := List.mem_map.mp ha
        trivial
  | friend =>
      change (Ok s pkt fun _ => handleFriend s pkt) ↔ pkt.net32 12 ≠ 0
      unfold handleFriend
      refine ok_withStarted (pkt.net32 12) (fun _ => _) ?_
      intro hle hstarted hpos
      cases hship : shipFindShip s (pkt.net32 20) with
      | none => exact (ok_some []).mpr fun a ha => absurd ha List.not_mem_nil
      | some ms =>
          refine (ok_forClient _ _ fun _ c => some [.send c]).mpr ⟨⟨hblock hle hpos, hstarted⟩, ?_⟩
          exact fun c _ => (ok_some _).mpr (by simp [Act.Good])
  | kick => exact hone _ (by simp [Act.Good]) _ _
  | frlist => exact ok_withBlock_forClient _ _ _ _ ok_frlist
  | useropt =>
      refine ok_withBlock_forClient _ _ (fun rounds c =>
        TracedLoop.run (useroptPass pkt c) rounds 24) _ fun c => ?_
      rw [Ok, ← TracedLoop.ends_iff]
      exact useropt_ends_iff c 24
  | bbopts =>
      exact hone (fun c => [.setBbOpts c (pkt.bytes 16 bbOptsSize), .send c])
        (fun c => by simp [Act.Good]) (pkt.net32 12) (pkt.net32 8)
  | bbGreply =>
      refine ok_withStarted (pkt.net32 20)
        (fun _ i => forClient s i (gcSearch pkt) fun c => some [.send c]) ?_
      intro hle hstarted hpos
      refine (ok_forClient _ _ fun _ c => some [.send c]).mpr ⟨⟨hblock hle hpos, hstarted⟩, ?_⟩
      exact fun c _ => (ok_some _).mpr (by simp [Act.Good])

/-- A packet of the shipgate is handled well if and only if the handler that gets it has what
it needs. -/
theorem blockNumbers_safe_iff (s : ShipState) (pkt : Mem) : Safe s pkt ↔ Fine s pkt := by
  unfold Safe Fine handlePkt
  cases hdispatch : dispatch s pkt with
  | none => exact ⟨fun _ h hh => (nomatch hh), fun _ => (ok_some []).mpr fun a ha => nomatch ha⟩
  | some h =>
      dsimp only
      rw [ok_handle_iff]
      exact ⟨fun hfine h' hh => Option.some.inj hh ▸ hfine, fun hfine => hfine h rfl⟩

/-- A ship of one block, which was started, without clients. -/
def oneBlock : ShipState where
  blocks := 1
  blocks_lt := by decide
  started := fun i => i == 0
  clients := fun _ => []
  ships := []
  hasKey := true

/-- The reply to the login of a GM, with zero for the block: the entry before the array is
looked up. -/
theorem not_safe_gmlogin :
    ¬Safe oneBlock (Mem.ofList [0, 24, 0, 0x16, 0, 0, 0x80, 0, 0, 0, 0, 1, 0, 0, 0, 0]) := by
  rintro ⟨rounds, acts, hacts, hgood⟩
  have hindex : Act.index (2 ^ 32 - 1) ∈ acts := by
    have hhandled : handlePkt rounds oneBlock
        (Mem.ofList [0, 24, 0, 0x16, 0, 0, 0x80, 0, 0, 0, 0, 1, 0, 0, 0, 0]) =
          some [.index (2 ^ 32 - 1), .block (2 ^ 32 - 1)] := rfl
    rw [← Option.some.inj (hhandled.symm.trans hacts)]
    exact List.mem_cons_self
  have hlt : 2 ^ 32 - 1 < oneBlock.blocks := hgood _ hindex
  revert hlt
  decide

end Sylverant.Ship.FromShipgate
