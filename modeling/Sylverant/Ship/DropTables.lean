/-
# The tables that drops are generated from

The server generates the drops of a game from a table with an entry for each episode,
difficulty and section id. An entry is looked up before anything is drawn from it, and
this module follows the generators up to their first draw: to the entry, the area and
the set of rare items that they go on with. The generators for boxes count the episodes
from 1 where those for enemies count from 0.
-/

import Sylverant.Ship.Version

namespace Sylverant.Ship

/-! ## Entries -/

/-- The indices of an entry of `gc_ptdata`, `bb_ptdata` or `gc_rtdata`, which are arrays
of dimensions 2, 4 and 10. -/
@[ext]
structure TableIndex where
  episode : Int
  difficulty : Nat
  sectionId : Nat
  deriving DecidableEq

namespace TableIndex

/-- The entry is in the table. -/
def Inside (i : TableIndex) : Prop :=
  0 ≤ i.episode ∧ i.episode < 2 ∧ i.difficulty < 4 ∧ i.sectionId < 10

instance (i : TableIndex) : Decidable i.Inside :=
  inferInstanceAs (Decidable (_ ∧ _ ∧ _ ∧ _))

/-- The place of the entry in memory, counted from the first one. -/
def offset (i : TableIndex) : Int := (i.episode * 4 + i.difficulty) * 10 + i.sectionId

/-- The number of entries. -/
def size : Int := 80

theorem Inside.offset_lt {i : TableIndex} (h : i.Inside) : 0 ≤ i.offset ∧ i.offset < size := by
  obtain ⟨hlow, hhigh, hdifficulty, hsection⟩ := h
  simp only [offset, size]
  omega

end TableIndex

/-! ## Requests -/

/-- What the generators read of a game and of the player data of its leader, where
`v1Section` and `bbSection` are the fields `v1.section` and `bb.character.section`. -/
structure DropGame where
  episode : Nat
  difficulty : Nat
  v1Section : Nat
  bbSection : Nat
  /-- `map_objs->count` -/
  objCount : Nat
  /-- Whether the box was opened. -/
  opened : Nat → Bool
  /-- `map_enemies->count` -/
  enemyCount : Nat
  /-- `drop_done` of the enemy. -/
  dropDone : Nat → Bool

/-- A request for a drop, for an enemy or a box. -/
structure ItemReq where
  ptIndex : Nat
  req : Nat

/-- What a generator goes on with when it has checked the request. -/
structure Drop where
  entry : TableIndex
  area : Int
  rareSet : TableIndex

/-- The area of a table that stands for the area a client is in. -/
def dropArea (episode curArea : Nat) : Except Int Int :=
  match episode with
  | 0 | 1 =>
      if curArea = 11 then .ok 2
      else if curArea = 12 then .ok 5
      else if curArea = 13 then .ok 7
      else if curArea = 14 then .ok 9
      else if curArea > 14 then .ok 9
      else if curArea = 0 then .error (-1)
      else .ok (curArea - 1)
  | 2 =>
      if curArea = 14 then .ok 2
      else if curArea = 15 then .ok 5
      else if curArea = 12 then .ok 8
      else if curArea = 13 then .ok 9
      else if curArea > 10 then .ok 9
      else if curArea = 0 then .error (-1)
      else .ok (curArea - 1)
  | _ => .ok (curArea - 1)

section Generators

variable (g : DropGame)

/-- The set of rare items in `rt_generate_gc_rare`. -/
def gcRareSet : TableIndex := ⟨g.episode - 1, g.difficulty, g.v1Section⟩

/-- The entry in `pt_generate_gc_drop`. -/
def gcDropEntry : TableIndex := ⟨g.episode - 1, g.difficulty, g.v1Section⟩

/-- The entry in `pt_generate_gc_boxdrop`. -/
def gcBoxdropEntry : TableIndex := ⟨g.episode, g.difficulty, g.v1Section⟩

/-- The entry in `pt_generate_bb_drop`. -/
def bbDropEntry : TableIndex := ⟨g.episode - 1, g.difficulty, g.bbSection⟩

/-- The entry in `pt_generate_bb_boxdrop`. -/
def bbBoxdropEntry : TableIndex := ⟨g.episode, g.difficulty, g.bbSection⟩

/-- The checks of a request about a box, which are the same for both versions. -/
def boxdrop (entry : TableIndex) (curArea : Nat) (r : ItemReq) : Except Int Drop :=
  if r.ptIndex ≠ 0x30 then .error (-1)
  else if r.req > g.objCount then .error (-1)
  else if g.opened r.req then .error 0
  else (dropArea g.episode curArea).map fun area => ⟨entry, area, gcRareSet g⟩

/-- The checks of a request about an enemy, which are the same for both versions. -/
def enemyDrop (entry : TableIndex) (curArea : Nat) (r : ItemReq) : Except Int Drop :=
  match dropArea g.episode curArea with
  | .error rv => .error rv
  | .ok area =>
      if r.req > g.enemyCount then .error (-1)
      else if g.dropDone r.req then .error 0
      else .ok ⟨entry, area, gcRareSet g⟩

/-- `pt_generate_gc_boxdrop`, up to the first draw. -/
def ptGenerateGcBoxdrop (curArea : Nat) (r : ItemReq) : Except Int Drop :=
  boxdrop g (gcBoxdropEntry g) curArea r

/-- `pt_generate_gc_drop`, up to the first draw. -/
def ptGenerateGcDrop (curArea : Nat) (r : ItemReq) : Except Int Drop :=
  if r.ptIndex = 0x30 then ptGenerateGcBoxdrop g curArea r
  else enemyDrop g (gcDropEntry g) curArea r

/-- `pt_generate_bb_boxdrop`, up to the first draw. There is nothing in episode 4, which
has the number 3. -/
def ptGenerateBbBoxdrop (curArea : Nat) (r : ItemReq) : Except Int Drop :=
  if g.episode = 3 then .error 0 else boxdrop g (bbBoxdropEntry g) curArea r

/-- `pt_generate_bb_drop`, up to the first draw. -/
def ptGenerateBbDrop (curArea : Nat) (r : ItemReq) : Except Int Drop :=
  if g.episode = 3 then .error 0
  else if r.ptIndex = 0x30 then ptGenerateBbBoxdrop g curArea r
  else enemyDrop g (bbDropEntry g) curArea r

end Generators

/-! ## The entries that are used -/

section Entries

variable {g : DropGame}

/-- The entry for boxes is the one that enemies and rare items use, by its place in
memory, and is in the table. -/
def SameTable (box enemy rareSet : TableIndex) : Prop :=
  box.offset = enemy.offset ∧ box.offset = rareSet.offset ∧ box.Inside

/-- The entry for boxes is one episode further than that for enemies. -/
theorem offset_box (difficulty sect : Nat) (episode : Int) :
    (TableIndex.mk episode difficulty sect).offset =
      (TableIndex.mk (episode - 1) difficulty sect).offset + 40 := by
  simp only [TableIndex.offset]
  omega

/-- In episode 2 the entries for boxes lie past the end of the tables. -/
theorem boxdropEntry_outside (hepisode : g.episode = 2) :
    TableIndex.size ≤ (gcBoxdropEntry g).offset ∧ TableIndex.size ≤ (bbBoxdropEntry g).offset := by
  simp only [gcBoxdropEntry, bbBoxdropEntry, TableIndex.offset, TableIndex.size, hepisode]
  omega

/-- Boxes never use the table that enemies use. -/
theorem not_sameTable (g : DropGame) :
    ¬SameTable (gcBoxdropEntry g) (gcDropEntry g) (gcRareSet g) ∧
      ¬SameTable (bbBoxdropEntry g) (bbDropEntry g) (gcRareSet g) := by
  refine ⟨fun h => ?_, fun h => ?_⟩
  · have hbox : (gcBoxdropEntry g).offset = (gcDropEntry g).offset + 40 := offset_box ..
    have hsame := h.1
    omega
  · have hbox : (bbBoxdropEntry g).offset = (bbDropEntry g).offset + 40 := offset_box ..
    have hsame := h.1
    omega

/-- An easy game in the second episode. -/
def easyGame : DropGame where
  episode := 2
  difficulty := 0
  v1Section := 0
  bbSection := 0
  objCount := 1
  opened _ := false
  enemyCount := 1
  dropDone _ := false

/-- A box in the second episode is looked up past the end of the table. -/
theorem boxdrop_easyGame :
    (∃ d, ptGenerateGcBoxdrop easyGame 1 ⟨0x30, 0⟩ = .ok d ∧
      ¬SameTable d.entry (gcDropEntry easyGame) d.rareSet) ∧
    ∃ d, ptGenerateBbBoxdrop easyGame 1 ⟨0x30, 0⟩ = .ok d ∧
      ¬SameTable d.entry (bbDropEntry easyGame) d.rareSet :=
  ⟨⟨_, rfl, fun h => absurd h.2.2 (by decide)⟩, ⟨_, rfl, fun h => absurd h.2.2 (by decide)⟩⟩

end Entries

end Sylverant.Ship
