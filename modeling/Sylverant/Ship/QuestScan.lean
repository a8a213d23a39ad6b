/-
# Walking through the sections of a quest

`parse_quest_objects` as it touches memory: the fields of headers that it reads, and the
entries of `ptrs` that it assigns to. It goes from header to header by what they say, and
checks neither that it comes forward, nor where a header ends, nor which area a section
is for.
-/

import Sylverant.Library.TracedLoop
import Sylverant.Ship.QuestSections

namespace Sylverant.Ship.QuestMap

open TracedLoop (run stateAt)

/-! ## The walk -/

/-- What a round does with memory: it reads a field of a header, or assigns to the entry of
`ptrs[0]` or `ptrs[1]` for an area. -/
inductive Touch
  | read (pos n : Nat)
  | store (kind : SectionKind) (area : Nat)

/-- Within the buffer, or within the array. -/
def Touch.Inside (len : Nat) : Touch → Prop
  | .read pos n => pos + n ≤ len
  | .store _ area => area < 17

/-- A round of the loop of `parse_quest_objects` at a position, with the position that it goes
on at. -/
def scanRound (dat : Nat → UInt8) (len ptr : Nat) : List Touch × Option Nat :=
  if ptr < len then
    let hdr := hdrAt dat ptr
    let next := (ptr + hdr.nextHdr) % 2 ^ 32
    if hdr.objType = 0x01 then
      ([.read ptr 4, .read (ptr + 8) 4, .store .objects hdr.area, .read (ptr + 12) 4,
        .read (ptr + 4) 4], some next)
    else if hdr.objType = 0x02 then
      ([.read ptr 4, .read (ptr + 8) 4, .store .enemies hdr.area, .read (ptr + 4) 4], some next)
    else if hdr.objType = 0x03 then ([.read ptr 4, .read (ptr + 4) 4], some next)
    -- Padding: the position is set to the end.
    else ([.read ptr 4], none)
  else ([], none)

/-- The parsing comes to an end, and all that it touches is inside. -/
def ScansSafely (dat : Nat → UInt8) (len : Nat) : Prop :=
  TracedLoop.Ends (scanRound dat len) (Touch.Inside len) 0

variable {dat : Nat → UInt8} {len : Nat}

/-- The rounds are those of the loop. -/
theorem parseLoop_isSome (dat : Nat → UInt8) (len rounds ptr : Nat) (s : Sections) :
    (parseLoop dat len rounds ptr s).isSome = (run (scanRound dat len) rounds ptr).isSome := by
  induction rounds generalizing ptr s with
  | zero => rfl
  | succ rounds ih =>
      rw [parseLoop, run, scanRound]
      dsimp only
      split_ifs <;> first | rfl | simp only [Option.isSome_map, ih]

theorem lt_of_scanRound {ptr : Nat} (h : (scanRound dat len ptr).2.isSome) : ptr < len := by
  by_contra hge
  rw [scanRound, if_neg hge] at h
  cases h

/-- Where the loop ends at all, it does so within a round for each position. -/
theorem parseQuestObjects_isSome_iff :
    (parseQuestObjects dat len).isSome ↔ TracedLoop.Ends (scanRound dat len) (fun _ => True) 0 := by
  rw [parseQuestObjects, parseLoop_isSome]
  constructor
  · intro h
    obtain ⟨acts, hacts⟩ := Option.isSome_iff_exists.mp h
    exact TracedLoop.ends_iff.mpr ⟨len + 1, acts, hacts, fun _ _ => trivial⟩
  · intro h
    have hrun := h.run_isSome (S := Finset.range len) fun t ht =>
      Finset.mem_range.mpr (lt_of_scanRound ht)
    rwa [Finset.card_range] at hrun

/-! ## Chains of headers -/

/-- Where a header leads to. -/
def hop (dat : Nat → UInt8) (pos : Nat) : Option Nat :=
  if (hdrAt dat pos).objType ∈ [0x01, 0x02, 0x03] then
    some ((pos + (hdrAt dat pos).nextHdr) % 2 ^ 32)
  else none

/-- The position that some number of headers lead to. -/
def position (dat : Nat → UInt8) (len : Nat) : Nat → Option Nat
  | 0 => some 0
  | n + 1 => (position dat len n).bind fun pos => if pos < len then hop dat pos else none

/-- Up to the last byte of a header that is read, for its type. -/
def headerBytes (objType : Nat) : Nat :=
  if objType = 0x01 then 16 else if objType = 0x02 then 12 else if objType = 0x03 then 8 else 4

/-- The chain of headers of a buffer: what is read of them is in the buffer, the sections with
objects or enemies are for areas that there are, and no position comes twice. -/
structure SafeChain (dat : Nat → UInt8) (len : Nat) : Prop where
  headers : ∀ n pos, position dat len n = some pos → pos < len →
    pos + headerBytes (hdrAt dat pos).objType ≤ len
  areas : ∀ n pos, position dat len n = some pos → pos < len →
    (hdrAt dat pos).objType ∈ [0x01, 0x02] → (hdrAt dat pos).area < 17
  apart : ∀ m n pos, position dat len m = some pos → position dat len n = some pos → m = n

theorem scanRound_next (pos : Nat) :
    (scanRound dat len pos).2 = if pos < len then hop dat pos else none := by
  rw [scanRound, hop]
  dsimp only
  split_ifs <;> simp_all

theorem stateAt_eq_position (n : Nat) :
    stateAt (scanRound dat len) 0 n = position dat len n := by
  induction n with
  | zero => rfl
  | succ n ih =>
      rw [stateAt, ih, position]
      simp only [scanRound_next]

theorem position_lt {n pos : Nat} (h : position dat len n = some pos) : pos < 2 ^ 32 := by
  cases n with
  | zero =>
      obtain rfl : 0 = pos := Option.some.inj h
      decide
  | succ n =>
      rw [position, Option.bind_eq_some_iff] at h
      obtain ⟨p, -, hp⟩ := h
      rw [hop] at hp
      split_ifs at hp
      rw [← Option.some.inj hp]
      exact Nat.mod_lt _ (by decide)

/-- What a round touches. -/
theorem scanRound_inside (pos : Nat) :
    (∀ a ∈ (scanRound dat len pos).1, a.Inside len) ↔
      (pos < len → pos + headerBytes (hdrAt dat pos).objType ≤ len) ∧
        (pos < len → (hdrAt dat pos).objType ∈ [0x01, 0x02] → (hdrAt dat pos).area < 17) := by
  rw [scanRound, headerBytes]
  by_cases hpos : pos < len
  · dsimp only
    rw [if_pos hpos]
    split_ifs with hone htwo hthree
    · simp [Touch.Inside, hpos, hone]
      omega
    · simp [Touch.Inside, hpos, htwo]
      omega
    · simp [Touch.Inside, hpos, hthree]
      omega
    · simp [Touch.Inside, hpos, hone, htwo]
  · simp [hpos]

/-- The parsing ends and stays inside exactly where the chain of headers is safe. -/
theorem scansSafely_iff (dat : Nat → UInt8) (len : Nat) :
    ScansSafely dat len ↔ SafeChain dat len := by
  have hfin : {pos | ∃ n, stateAt (scanRound dat len) 0 n = some pos}.Finite := by
    refine (Set.finite_lt_nat (2 ^ 32)).subset ?_
    rintro pos ⟨n, hn⟩
    rw [stateAt_eq_position] at hn
    exact position_lt hn
  rw [ScansSafely, TracedLoop.ends_iff_apart hfin]
  simp only [stateAt_eq_position, scanRound_inside]
  constructor
  · rintro ⟨hinside, hapart⟩
    exact ⟨fun n pos hn => (hinside n pos hn).1, fun n pos hn => (hinside n pos hn).2, hapart⟩
  · rintro ⟨hheaders, hareas, hapart⟩
    exact ⟨fun n pos hn => ⟨hheaders n pos hn, hareas n pos hn⟩, hapart⟩

/-- A header that leads to itself. -/
theorem not_scansSafely : ¬∀ (dat : Nat → UInt8) (len : Nat), ScansSafely dat len := by
  intro hall
  have hsafe := hall (memory [3, 0, 0, 0, 0, 0, 0, 0]) 8
  -- The loop is at the position 0 after each round.
  exact TracedLoop.not_ends_of_forever (I := fun pos => pos = 0)
    (fun pos hpos => ⟨0, by rw [hpos]; decide, rfl⟩) rfl hsafe

/-! ## Well-formed quests -/

/-- From a section the loop goes on behind it. -/
theorem scanRound_section {pos : Nat} {x : Section} (harea : x.area < 17)
    (hstands : Stands dat pos x.bytes) (hlen : pos + x.bytes.length ≤ len) (hlt : len < 2 ^ 32) :
    (scanRound dat len pos).2 = some (pos + x.bytes.length) ∧
      ∀ a ∈ (scanRound dat len pos).1, a.Inside len := by
  have hx := length_bytes x
  have hsize : hdrSize = 16 := rfl
  obtain ⟨hhdr, -⟩ := hdrAt_of_stands hstands harea (by omega)
  have hneed : headerBytes x.kind.objType ≤ 16 := by
    cases x.kind <;> decide
  have htype : x.kind.objType ∈ [0x01, 0x02, 0x03] := by
    cases x.kind <;> decide
  constructor
  · rw [scanRound_next, if_pos (by omega), hop, hhdr, if_pos htype,
      Nat.mod_eq_of_lt (show pos + x.bytes.length < 2 ^ 32 by omega)]
  · rw [scanRound_inside, hhdr]
    exact ⟨fun _ => by dsimp only; omega, fun _ _ => harea⟩

/-- From the first of several sections, behind which there is the end or no header. -/
theorem ends_of_stands {ss : List Section} {pos : Nat} (harea : ∀ x ∈ ss, x.area < 17)
    (hstands : Stands dat pos (ss.flatMap Section.bytes)) (hlt : len < 2 ^ 32)
    (hend : pos + (ss.flatMap Section.bytes).length = len ∨
      pos + (ss.flatMap Section.bytes).length + 4 ≤ len ∧
        u32At dat (pos + (ss.flatMap Section.bytes).length) ∉ [1, 2, 3]) :
    TracedLoop.Ends (scanRound dat len) (Touch.Inside len) pos := by
  induction ss generalizing pos with
  | nil =>
      rw [List.flatMap_nil, List.length_nil, Nat.add_zero] at hend
      rcases hend with hpos | ⟨hroom, htype⟩
      · have hover : ¬pos < len := by omega
        refine .last ?_ ?_
        · rw [scanRound_next, if_neg hover]
        · rw [scanRound_inside]
          exact ⟨fun h => absurd h hover, fun h => absurd h hover⟩
      · have hno : (hdrAt dat pos).objType ∉ [0x01, 0x02, 0x03] := htype
        refine .last ?_ ?_
        · rw [scanRound_next, hop, if_neg hno, ite_self]
        · rw [scanRound_inside]
          simp only [List.mem_cons, List.not_mem_nil, or_false, not_or] at hno
          obtain ⟨hone, htwo, hthree⟩ := hno
          simp only [headerBytes, hone, htwo, hthree, if_false]
          exact ⟨fun _ => hroom, fun _ h => by simp [hone, htwo] at h⟩
  | cons x ss ih =>
      rw [List.flatMap_cons, stands_append] at hstands
      rw [List.flatMap_cons, List.length_append, ← Nat.add_assoc] at hend
      have hroom : pos + x.bytes.length ≤ len := by omega
      obtain ⟨hnext, hinside⟩ := scanRound_section (harea x List.mem_cons_self) hstands.1 hroom hlt
      have hareas := fun y hy => harea y (List.mem_cons_of_mem x hy)
      exact .more hnext hinside (ih hareas hstands.2 hend)

/-- A well-formed quest is parsed safely. -/
theorem scansSafely_questData {ss : List Section} {tail : List UInt8} (h : WellFormed ss tail) :
    ScansSafely (memory (questData ss tail)) (questData ss tail).length := by
  have hstands := stands_append.mp (stands_memory (questData ss tail))
  have hlength : (questData ss tail).length = (ss.flatMap Section.bytes).length + tail.length :=
    List.length_append
  refine ends_of_stands h.areas hstands.1 h.small ?_
  by_cases htail : tail = []
  · left
    rw [hlength, htail, List.length_nil, Nat.zero_add, Nat.add_zero]
  · right
    obtain ⟨hfour, htype⟩ := h.behind htail
    refine ⟨by omega, ?_⟩
    rw [u32At_of_stands_take hstands.2 hfour, ← u32At_of_stands_take (stands_memory tail) hfour]
    exact htype

end Sylverant.Ship.QuestMap
