/-
# The tables of rare items

The server reads the rare items of a version from an archive, with a record for each
difficulty and section id, and on the Gamecube for each episode. A record has an entry
for each kind of enemy, an area for each of 30 boxes, and an entry for each of these. The
definitions follow `rtdata.c`. A table is only looked at after it was read without an
error, so that an error leaves none. A file is given by its contents.
-/

import Sylverant.Archive.Files
import Sylverant.Library.Loop

namespace Sylverant.Ship.Rt

open Function (update)
open RandomAccess (Image Stream)
open Sylverant.Archive (ofLe32 le32)

/-- `rt_entry_t` -/
structure RtEntry where
  prob : UInt8
  item0 : UInt8
  item1 : UInt8
  item2 : UInt8

/-- The code that the bytes `item_data` of an entry stand for. -/
def RtEntry.itemData (ent : RtEntry) : UInt32 :=
  ent.item0.toUInt32 ||| (ent.item1.toUInt32 <<< 8) ||| (ent.item2.toUInt32 <<< 16)

/-- `rt_data_t`, with the probability in units of one in 2 ^ 32. -/
structure RtData where
  prob : UInt32 := 0
  itemData : UInt32 := 0
  area : UInt32 := 0
  deriving DecidableEq

/-- `rt_set_t`, with 101 enemies and 30 boxes. -/
structure RtSet where
  enemyRares : Nat → RtData := fun _ => {}
  boxRares : Nat → RtData := fun _ => {}

/-- `expand_rate`, before the division by 2 ^ 32, which is exact. -/
def expandRate (rate : UInt8) : UInt32 :=
  -- The difference is negative for small rates, and 0 is taken then.
  let tmp := (rate >>> 3).toNat - 4
  ((2 : UInt32) <<< tmp.toUInt32) * ((rate &&& 7) + 7).toUInt32

/-- An entry as it is kept. -/
def RtEntry.expand (ent : RtEntry) (area : UInt32) : RtData where
  prob := expandRate ent.prob
  itemData := ent.itemData
  area := area

/-! ## Reading a record -/

/-- Read an entry. -/
def readEntry (fp : Stream) : Except Int (RtEntry × Stream) :=
  match fp.get 4 with
  | ([prob, item0, item1, item2], fp) => .ok (⟨prob, item0, item1, item2⟩, fp)
  | _ => .error (-2)

/-- A round of the loop over the enemies. -/
def readEnemy (k : Nat) (s : Stream × RtSet) : Except Int (Stream × RtSet) :=
  match readEntry s.1 with
  | .error rv => .error rv
  | .ok (ent, fp) =>
      .ok (fp, { s.2 with enemyRares := update s.2.enemyRares k (ent.expand 0) })

/-- A round of the loop over the boxes, with the place in the buffer that the area of the
box is taken from. -/
def readBox (buf : List UInt8) (place k : Nat) (s : Stream × RtSet) :
    Except Int (Stream × RtSet) :=
  match readEntry s.1 with
  | .error rv => .error rv
  | .ok (ent, fp) =>
      let area := (buf.getD place 0).toUInt32
      .ok (fp, { s.2 with boxRares := update s.2.boxRares k (ent.expand area) })

/-- Read the set at a position of the file, with the place of the area for each box. -/
def readSet (place : Nat → Nat) (offset : Nat) (s : Stream × RtSet) :
    Except Int (Stream × RtSet) :=
  match Loop.count readEnemy 0x65 0 (s.1.seek offset, s.2) with
  | .error rv => .error rv
  | .ok (fp, set) =>
      let (buf, fp) := fp.get 30
      if buf.length ≠ 30 then .error (-2)
      else Loop.count (fun k => readBox buf (place k) k) 30 0 (fp, set)

/-- A loop that reads a row of a table, with what reads the cell in a column. -/
def readRow {α : Type} (read : Nat → Stream × α → Except Int (Stream × α)) (n : Nat)
    (s : Stream × (Nat → α)) : Except Int (Stream × (Nat → α)) :=
  Loop.count (fun j s =>
    match read j (s.1, s.2 j) with
    | .error rv => .error rv
    | .ok (fp, cell) => .ok (fp, update s.2 j cell)) n 0 s

/-! ## ItemRT.afs -/

/-- A round of the loop over the offsets in `rt_read_v2`. -/
def readV2Offset (i : Nat) (s : Stream × (Nat → Nat)) : Except Int (Stream × (Nat → Nat)) :=
  let (buf, fp) := s.1.get 4
  if buf.length ≠ 4 then .error (-2)
  else
    let offsets := update s.2 i (ofLe32 buf)
    let (buf, fp) := fp.get 4
    if buf.length ≠ 4 then .error (-2)
    else if buf ≠ [0x80, 0x02, 0, 0] then .error 5
    else .ok (fp, offsets)

/-- `rt_read_v2`, with the table that it reads, for each difficulty and section id. -/
def rtReadV2 (f : Image) : Except Int (Nat → Nat → RtSet) :=
  let (buf, fp) := (Stream.mk f 0).get 4
  if buf.length ≠ 4 then .error (-2)
  else if buf ≠ [0x41, 0x46, 0x53, 0x00] then .error (-3)
  else
    let (buf, fp) := fp.get 4
    if buf.length ≠ 4 then .error (-2)
    else if buf ≠ [40, 0, 0, 0] then .error (-4)
    else
      match Loop.count readV2Offset 40 0 (fp, fun _ => 0) with
      | .error rv => .error rv
      | .ok (fp, offsets) =>
          let readCell := fun i j => readSet (fun k => k) (offsets (i * 10 + j))
          let rows := readRow (fun i => readRow (readCell i) 10) 4 (fp, fun _ _ => {})
          rows.map Prod.snd

/-! ## ItemRT.gsl -/

/-- A round of the loop over the offsets in `rt_read_gc`. The offsets are in blocks of
2048 bytes. -/
def readGcOffset (i : Nat) (s : Stream × (Nat → Nat)) : Except Int (Stream × (Nat → Nat)) :=
  let (buf, fp) := (s.1.seek (s.1.pos + 32)).get 4
  if buf.length ≠ 4 then .error (-2)
  else
    let offsets := update s.2 i (ofLe32 buf.reverse * 2 ^ 11 % 2 ^ 32)
    let (buf, fp) := fp.get 4
    if buf.length ≠ 4 then .error (-2)
    else if buf ≠ [0, 0, 0x02, 0x80] then .error 5
    else .ok (fp.seek (fp.pos + 8), offsets)

/-- `rt_read_gc`, with the table that it reads, for each episode, difficulty and section
id. -/
def rtReadGc (f : Image) : Except Int (Nat → Nat → Nat → RtSet) :=
  match Loop.count readGcOffset 80 0 (⟨f, 0⟩, fun _ => 0) with
  | .error rv => .error rv
  | .ok (fp, offsets) =>
      -- The area of a box is `buf[k]` where `k` is the section id.
      let readCell := fun i j k => readSet (fun _ => k) (offsets (i * 40 + j * 10 + k))
      let table := readRow (fun i => readRow (fun j => readRow (readCell i j) 10) 4) 2
        (fp, fun _ _ _ => {})
      table.map Prod.snd

/-! ## What is in a file -/

/-- The entry at a position. -/
def entryAt (f : Image) (pos : Nat) : RtEntry :=
  ⟨f.byte pos, f.byte (pos + 1), f.byte (pos + 2), f.byte (pos + 3)⟩

/-- A record: the entries for the enemies, and the areas and the entries for the boxes. -/
structure RtRecord where
  enemy : Nat → RtEntry
  area : Nat → UInt8
  box : Nat → RtEntry

/-- The number of bytes that a record has, before it is padded to 0x280. -/
def recordSize : Nat := 4 * 101 + 30 + 4 * 30

/-- The record at a position. -/
def recordAt (f : Image) (pos : Nat) : RtRecord where
  enemy k := entryAt f (pos + 4 * k)
  area k := f.byte (pos + 4 * 101 + k)
  box k := entryAt f (pos + 4 * 101 + 30 + 4 * k)

/-- The position of a record of ItemRT.afs. -/
def v2Offset (f : Image) (i : Nat) : Nat := ofLe32 (f.read (8 + 8 * i) 4)

/-- The position of a record of ItemRT.gsl. -/
def gcOffset (f : Image) (i : Nat) : Nat :=
  ofLe32 (f.read (48 * i + 32) 4).reverse * 2 ^ 11 % 2 ^ 32

/-- The record of ItemRT.afs for a difficulty and a section id. -/
def v2Record (f : Image) (i j : Nat) : RtRecord := recordAt f (v2Offset f (i * 10 + j))

/-- The record of ItemRT.gsl for an episode, a difficulty and a section id. -/
def gcRecord (f : Image) (i j k : Nat) : RtRecord :=
  recordAt f (gcOffset f (i * 40 + j * 10 + k))

/-- A well-formed ItemRT.afs. -/
structure V2File (f : Image) : Prop where
  magic : f.read 0 4 = [0x41, 0x46, 0x53, 0x00]
  count : f.read 4 4 = [40, 0, 0, 0]
  size : ∀ i < 40, f.read (8 + 8 * i + 4) 4 = [0x80, 0x02, 0, 0]
  inside : ∀ i < 40, v2Offset f i + recordSize ≤ f.length

/-- A well-formed ItemRT.gsl. -/
structure GcFile (f : Image) : Prop where
  size : ∀ i < 80, f.read (48 * i + 36) 4 = [0, 0, 0x02, 0x80]
  inside : ∀ i < 80, gcOffset f i + recordSize ≤ f.length

/-- A set that holds the entries of a record, with the areas for the boxes. -/
structure Holds (set : RtSet) (record : RtRecord) (area : Nat → UInt8) : Prop where
  enemy : ∀ k < 101, set.enemyRares k = (record.enemy k).expand 0
  box : ∀ k < 30, set.boxRares k = (record.box k).expand (area k).toUInt32

/-- A set that pairs the items for the boxes with their areas. -/
def Pairs (set : RtSet) (record : RtRecord) : Prop := Holds set record record.area

/-! ## What is read -/

section Reading

variable {f : Image} {pos : Nat}

/-- Bytes that are in the file are read. -/
theorem get_inside {n : Nat} (h : pos + n ≤ f.length) :
    (Stream.mk f pos).get n = (f.read pos n, ⟨f, pos + n⟩) ∧ (f.read pos n).length = n := by
  have hlength : (f.read pos n).length = n := by
    rw [Image.length_read]
    omega
  refine ⟨?_, hlength⟩
  rw [Stream.get]
  dsimp only
  rw [hlength]

theorem readEntry_inside (h : pos + 4 ≤ f.length) :
    readEntry ⟨f, pos⟩ = .ok (entryAt f pos, ⟨f, pos + 4⟩) := by
  have hread : f.read pos 4 =
      [f.byte pos, f.byte (pos + 1), f.byte (pos + 2), f.byte (pos + 3)] := by
    rw [Image.read, Nat.min_eq_left (by omega)]
    rfl
  rw [readEntry, (get_inside h).1, hread]
  rfl

/-- The loop over the enemies reads the entries one after the other. -/
theorem readEnemies_inside (set : RtSet) (h : pos + 4 * 101 ≤ f.length) :
    ∃ set', Loop.count readEnemy 0x65 0 (⟨f, pos⟩, set) = .ok (⟨f, pos + 4 * 101⟩, set') ∧
      ∀ k < 101, set'.enemyRares k = (entryAt f (pos + 4 * k)).expand 0 := by
  obtain ⟨s', hloop, hend, hcells⟩ := @Loop.count_fills _ _ _ readEnemy 0x65
    (⟨f, pos⟩, set) (fun s => s.2.enemyRares) (fun j s => s.1 = ⟨f, pos + 4 * j⟩)
    (fun k cell => cell = (entryAt f (pos + 4 * k)).expand 0) rfl
    fun j hj s hs => by
      have hentry := @readEntry_inside f (pos + 4 * j) (by omega)
      rw [readEnemy, hs, hentry]
      refine ⟨_, rfl, rfl, Function.update_self .., fun k hk => Function.update_of_ne hk ..⟩
  exact ⟨s'.2, hloop.trans (congrArg Except.ok (Prod.ext hend rfl)), hcells⟩

/-- The loop over the boxes leaves the enemies alone. -/
theorem readBoxes_inside (buf : List UInt8) (place : Nat → Nat) (set : RtSet)
    (h : pos + 4 * 30 ≤ f.length) :
    ∃ s', Loop.count (fun k => readBox buf (place k) k) 30 0 (⟨f, pos⟩, set) = .ok s' ∧
      s'.1.image = f ∧ s'.2.enemyRares = set.enemyRares ∧
      ∀ k < 30, s'.2.boxRares k =
        (entryAt f (pos + 4 * k)).expand (buf.getD (place k) 0).toUInt32 := by
  obtain ⟨s', hloop, ⟨hend, henemies⟩, hcells⟩ := @Loop.count_fills _ _ _
    (fun k => readBox buf (place k) k) 30 (⟨f, pos⟩, set) (fun s => s.2.boxRares)
    (fun j s => s.1 = ⟨f, pos + 4 * j⟩ ∧ s.2.enemyRares = set.enemyRares)
    (fun k cell => cell = (entryAt f (pos + 4 * k)).expand (buf.getD (place k) 0).toUInt32)
    ⟨rfl, rfl⟩ fun j hj s hs => by
      have hentry := @readEntry_inside f (pos + 4 * j) (by omega)
      rw [readBox, hs.1, hentry]
      exact ⟨_, rfl, ⟨rfl, hs.2⟩, Function.update_self .., fun k hk => Function.update_of_ne hk ..⟩
  exact ⟨s', hloop, by rw [hend], henemies, hcells⟩

/-- A set is filled with the record at the position, and the boxes get the areas at the
places that are given. -/
theorem readSet_inside (place : Nat → Nat) (hplace : ∀ k < 30, place k < 30) {fp : Stream}
    (hfp : fp.image = f) (set : RtSet) (h : pos + recordSize ≤ f.length) :
    ∃ s', readSet place pos (fp, set) = .ok s' ∧ s'.1.image = f ∧
      Holds s'.2 (recordAt f pos) fun k => (recordAt f pos).area (place k) := by
  have hsize : recordSize = 4 * 101 + 30 + 4 * 30 := rfl
  have hseek : fp.seek pos = ⟨f, pos⟩ := by rw [Stream.seek, hfp]
  obtain ⟨set₁, henemies, henemy⟩ := @readEnemies_inside f pos set (by omega)
  obtain ⟨hget, hlength⟩ := @get_inside f (pos + 4 * 101) 30 (by omega)
  obtain ⟨s', hboxes, himage, hsame, hbox⟩ := @readBoxes_inside f (pos + 4 * 101 + 30)
    (f.read (pos + 4 * 101) 30) place set₁ (by omega)
  refine ⟨s', ?_, himage, fun k hk => ?_, fun k hk => ?_⟩
  · rw [readSet, hseek, henemies]
    dsimp only
    rw [hget]
    dsimp only
    rw [if_neg (not_not.mpr hlength)]
    exact hboxes
  · rw [hsame]
    exact henemy k hk
  · have harea :
        (f.read (pos + 4 * 101) 30).getD (place k) 0 = (recordAt f pos).area (place k) := by
      have hlt := hplace k hk
      rw [List.getD_eq_getElem?_getD, List.getElem?_eq_getElem (by omega), Option.getD_some]
      simp only [Image.read, List.getElem_map, List.getElem_range]
      rfl
    rw [hbox k hk, harea]
    rfl

/-- A row is filled where every cell can be read, wherever the file stands. -/
theorem readRow_fills {α : Type} {read : Nat → Stream × α → Except Int (Stream × α)} {n : Nat}
    (P : Nat → α → Prop)
    (hread : ∀ j < n, ∀ fp : Stream, fp.image = f → ∀ cell, ∃ s', read j (fp, cell) = .ok s' ∧
      s'.1.image = f ∧ P j s'.2) {fp : Stream} (hfp : fp.image = f) (row : Nat → α) :
    ∃ s', readRow read n (fp, row) = .ok s' ∧ s'.1.image = f ∧ ∀ j < n, P j (s'.2 j) :=
  @Loop.count_fills _ _ _ _ n (fp, row) (fun s => s.2) (fun _ s => s.1.image = f) P hfp
    fun j hj s hs => by
      obtain ⟨s', hcell, himage, hP⟩ := hread j hj s.1 hs (s.2 j)
      rw [hcell]
      refine ⟨_, rfl, himage, ?_, fun k hk => Function.update_of_ne hk ..⟩
      dsimp only
      rw [Function.update_self]
      exact hP

/-- The offsets of ItemRT.afs. -/
theorem readV2Offsets (h : V2File f) (hlength : 8 + 8 * 39 + 4 + 4 ≤ f.length) :
    ∃ s', Loop.count readV2Offset 40 0 (⟨f, 8⟩, fun _ => 0) = .ok s' ∧ s'.1.image = f ∧
      ∀ i < 40, s'.2 i = v2Offset f i := by
  obtain ⟨s', hloop, hend, hcells⟩ := @Loop.count_fills _ _ _ readV2Offset 40 (⟨f, 8⟩, fun _ => 0)
    (fun s => s.2) (fun i s => s.1 = ⟨f, 8 + 8 * i⟩) (fun i x => x = v2Offset f i) rfl
    fun i hi s hs => by
      obtain ⟨hoffset, hfour⟩ := @get_inside f (8 + 8 * i) 4 (by omega)
      obtain ⟨hsize, hfour'⟩ := @get_inside f (8 + 8 * i + 4) 4 (by omega)
      rw [readV2Offset, hs, hoffset]
      dsimp only
      rw [if_neg (not_not.mpr hfour), hsize]
      dsimp only
      rw [if_neg (not_not.mpr hfour'), if_neg (not_not.mpr (h.size i hi))]
      exact ⟨_, rfl, rfl, Function.update_self .., fun k hk => Function.update_of_ne hk ..⟩
  exact ⟨s', hloop, by rw [hend], hcells⟩

/-- The offsets of ItemRT.gsl. -/
theorem readGcOffsets (h : GcFile f) (hlength : 48 * 79 + 36 + 4 ≤ f.length) :
    ∃ s', Loop.count readGcOffset 80 0 (⟨f, 0⟩, fun _ => 0) = .ok s' ∧ s'.1.image = f ∧
      ∀ i < 80, s'.2 i = gcOffset f i := by
  obtain ⟨s', hloop, hend, hcells⟩ := @Loop.count_fills _ _ _ readGcOffset 80 (⟨f, 0⟩, fun _ => 0)
    (fun s => s.2) (fun i s => s.1 = ⟨f, 48 * i⟩) (fun i x => x = gcOffset f i) rfl
    fun i hi s hs => by
      obtain ⟨hoffset, hfour⟩ := @get_inside f (48 * i + 32) 4 (by omega)
      obtain ⟨hsize, hfour'⟩ := @get_inside f (48 * i + 36) 4 (by omega)
      rw [readGcOffset, hs, Stream.seek, hoffset]
      dsimp only
      rw [if_neg (not_not.mpr hfour), hsize]
      dsimp only
      rw [if_neg (not_not.mpr hfour'), if_neg (not_not.mpr (h.size i hi))]
      exact ⟨_, rfl, rfl, Function.update_self .., fun k hk => Function.update_of_ne hk ..⟩
  exact ⟨s', hloop, by rw [hend], hcells⟩

end Reading

/-! ## What the tables hold -/

section Tables

variable {f : Image}

/-- Reading what has some length needs that many bytes. -/
theorem length_of_read {pos n : Nat} {bs : List UInt8} (h : f.read pos n = bs)
    (hn : bs.length = n) (hpos : 0 < n) : pos + n ≤ f.length := by
  have hlength := @Image.length_read f pos n
  rw [h] at hlength
  omega

/-- The table that is read from ItemRT.afs. -/
theorem rtReadV2_holds (h : V2File f) :
    ∃ t, rtReadV2 f = .ok t ∧
      ∀ i < 4, ∀ j < 10, Pairs (t i j) (v2Record f i j) := by
  have hlength := length_of_read (h.size 39 (by omega)) rfl (by omega)
  obtain ⟨hmagic, hfour⟩ := @get_inside f (0) 4 (by omega)
  obtain ⟨hcount, hfour'⟩ := @get_inside f (4) 4 (by omega)
  obtain ⟨s₁, hoffsets, himage, hoffset⟩ := readV2Offsets h hlength
  have hrow : ∀ i < 4, ∀ fp : Stream, fp.image = f → ∀ row, ∃ s',
      readRow (fun j => readSet (fun k => k) (s₁.2 (i * 10 + j))) 10 (fp, row) = .ok s' ∧
        s'.1.image = f ∧ ∀ j < 10, Pairs (s'.2 j) (v2Record f i j) := by
    intro i hi fp hfp row
    refine readRow_fills (fun j set => Pairs set (v2Record f i j))
      (fun j hj fp hfp set => ?_) hfp row
    rw [hoffset _ (by omega)]
    exact readSet_inside (fun k => k) (fun _ hk => hk) hfp set (h.inside _ (by omega))
  obtain ⟨s₂, htable, -, hcells⟩ := readRow_fills (fun i (row : Nat → RtSet) => ∀ j < 10,
    Pairs (row j) (v2Record f i j)) hrow himage fun _ _ => {}
  refine ⟨s₂.2, ?_, hcells⟩
  rw [rtReadV2, hmagic]
  dsimp only
  rw [if_neg (not_not.mpr hfour), if_neg (not_not.mpr h.magic), Nat.zero_add, hcount]
  dsimp only
  rw [if_neg (not_not.mpr hfour'), if_neg (not_not.mpr h.count), hoffsets]
  dsimp only
  rw [htable]
  rfl

/-- The table that is read from ItemRT.gsl: all boxes of a set get the same area. -/
theorem rtReadGc_holds (h : GcFile f) :
    ∃ t, rtReadGc f = .ok t ∧ ∀ i < 2, ∀ j < 4, ∀ k < 10,
      Holds (t i j k) (gcRecord f i j k) fun _ => (gcRecord f i j k).area k := by
  have hlength := length_of_read (h.size 79 (by omega)) rfl (by omega)
  obtain ⟨s₁, hoffsets, himage, hoffset⟩ := readGcOffsets h hlength
  have hrow : ∀ i < 2, ∀ j < 4, ∀ fp : Stream, fp.image = f → ∀ row, ∃ s',
      readRow (fun k => readSet (fun _ => k) (s₁.2 (i * 40 + j * 10 + k))) 10 (fp, row) = .ok s' ∧
        s'.1.image = f ∧ ∀ k < 10, Holds (s'.2 k) (gcRecord f i j k) fun _ =>
          (gcRecord f i j k).area k := by
    intro i hi j hj fp hfp row
    refine readRow_fills
      (fun k set => Holds set (gcRecord f i j k) fun _ => (gcRecord f i j k).area k)
      (fun k hk fp hfp set => ?_) hfp row
    rw [hoffset _ (by omega)]
    exact readSet_inside (fun _ => k) (fun _ _ => by omega) hfp set (h.inside _ (by omega))
  have hrows : ∀ i < 2, ∀ fp : Stream, fp.image = f → ∀ rows, ∃ s',
      readRow (fun j => readRow (fun k => readSet (fun _ => k) (s₁.2 (i * 40 + j * 10 + k))) 10) 4
        (fp, rows) = .ok s' ∧ s'.1.image = f ∧ ∀ j < 4, ∀ k < 10,
          Holds (s'.2 j k) (gcRecord f i j k) fun _ => (gcRecord f i j k).area k := by
    intro i hi fp hfp rows
    exact readRow_fills (fun j (row : Nat → RtSet) => ∀ k < 10, Holds (row k) (gcRecord f i j k)
      fun _ => (gcRecord f i j k).area k) (hrow i hi) hfp rows
  obtain ⟨s₂, htable, -, hcells⟩ := readRow_fills (fun i (rows : Nat → Nat → RtSet) =>
    ∀ j < 4, ∀ k < 10, Holds (rows j k) (gcRecord f i j k) fun _ => (gcRecord f i j k).area k)
    hrows himage fun _ _ _ => {}
  refine ⟨s₂.2, ?_, hcells⟩
  unfold rtReadGc
  rw [hoffsets]
  dsimp only
  rw [htable]
  rfl

/-- The areas of a record that a section id makes no difference to. -/
def SameAreas (record : RtRecord) (k : Nat) : Prop := ∀ i < 30, record.area i = record.area k

/-- When a set with one area for all boxes pairs the items with their areas. -/
theorem pairs_iff {set : RtSet} {record : RtRecord} {k : Nat}
    (h : Holds set record fun _ => record.area k) : Pairs set record ↔ SameAreas record k := by
  constructor
  · intro hpairs i hi
    have hsame := congrArg RtData.area ((hpairs.box i hi).symm.trans (h.box i hi))
    exact UInt8.toUInt32_inj.mp hsame
  · intro hsame
    refine ⟨h.enemy, fun i hi => ?_⟩
    rw [h.box i hi, hsame i hi]

/-- What the tables pair: on the Gamecube the areas have to be the same for all boxes. -/
theorem rtRead_pairs_iff (f g : Image) (hf : V2File f) (hg : GcFile g) :
    (∃ t, rtReadV2 f = .ok t ∧ ∀ i < 4, ∀ j < 10, Pairs (t i j) (v2Record f i j)) ∧
    ∃ t, rtReadGc g = .ok t ∧ ((∀ i < 2, ∀ j < 4, ∀ k < 10, Pairs (t i j k) (gcRecord g i j k)) ↔
      ∀ i < 2, ∀ j < 4, ∀ k < 10, SameAreas (gcRecord g i j k) k) := by
  refine ⟨rtReadV2_holds hf, ?_⟩
  obtain ⟨t, hread, hcells⟩ := rtReadGc_holds hg
  refine ⟨t, hread, ?_⟩
  constructor
  · intro hpairs i hi j hj k hk
    exact (pairs_iff (hcells i hi j hj k hk)).mp (hpairs i hi j hj k hk)
  · intro hsame i hi j hj k hk
    exact (pairs_iff (hcells i hi j hj k hk)).mpr (hsame i hi j hj k hk)

/-- An ItemRT.afs whose records are all the same, with bytes that are 0. -/
def v2Sample : Image where
  length := 4096 + recordSize
  byte i :=
    if i < 8 then [0x41, 0x46, 0x53, 0x00, 40, 0, 0, 0].getD i 0
    else if i < 328 then [0, 0x10, 0, 0, 0x80, 0x02, 0, 0].getD (i % 8) 0
    else 0
  byte_of_le i h := by
    have hsize : recordSize = 554 := rfl
    rw [if_neg (by omega), if_neg (by omega)]

/-- An ItemRT.gsl whose records are all the same, with bytes that count up. -/
def gcSample : Image where
  length := 4096 + recordSize
  byte i :=
    if i < 3840 then
      if i % 48 = 35 then 2
      else if i % 48 = 38 then 0x02
      else if i % 48 = 39 then 0x80
      else 0
    else if i < 4096 + recordSize then UInt8.ofNat i
    else 0
  byte_of_le i h := by
    rw [if_neg (by omega), if_neg (by omega)]

theorem v2Sample_file : V2File v2Sample where
  magic := by decide +kernel
  count := by decide +kernel
  size := by decide +kernel
  inside := by decide +kernel

theorem gcSample_file : GcFile gcSample where
  size := by decide +kernel
  inside := by decide +kernel

/-- What the tables of these files pair. -/
theorem rtRead_pairs_samples :
    (∃ t, rtReadV2 v2Sample = .ok t ∧
      ∀ i < 4, ∀ j < 10, Pairs (t i j) (v2Record v2Sample i j)) ∧
    ∃ t, rtReadGc gcSample = .ok t ∧
      ((∀ i < 2, ∀ j < 4, ∀ k < 10, Pairs (t i j k) (gcRecord gcSample i j k)) ↔
        ∀ i < 2, ∀ j < 4, ∀ k < 10, SameAreas (gcRecord gcSample i j k) k) :=
  rtRead_pairs_iff v2Sample gcSample v2Sample_file gcSample_file

/-- On the Gamecube the boxes of a set do not get their areas. -/
theorem not_rtReadGc_pairs : ¬∀ f, GcFile f → ∃ t, rtReadGc f = .ok t ∧
    ∀ i < 2, ∀ j < 4, ∀ k < 10, Pairs (t i j k) (gcRecord f i j k) := by
  intro h
  obtain ⟨t, hread, hpairs⟩ := h gcSample gcSample_file
  obtain ⟨t', hread', hcells⟩ := rtReadGc_holds gcSample_file
  rw [hread] at hread'
  obtain rfl := Except.ok.inj hread'
  have hsame := (pairs_iff (hcells 0 (by omega) 0 (by omega) 0 (by omega))).mp
    (hpairs 0 (by omega) 0 (by omega) 0 (by omega)) 1 (by omega)
  exact absurd hsame (by decide +kernel)

end Tables

end Sylverant.Ship.Rt
