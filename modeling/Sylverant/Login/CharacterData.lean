/-
# Characters on the login server

The login server reads and writes the characters of Blue Burst in the table that the shipgate
stores them in: it shows them for selection, creates them, and changes their appearance in the
dressing room. A row has a size just if its record is compressed, which the login server looks
at when it reads a character, but not when it changes one.

The queries succeed, what is escaped arrives as it was, and a column that is not named in an
insert is null. Left out are the packets that are sent, but for the preview of a character,
and the reset of the flags in the database.
-/

import Sylverant.Library.Bounded
import Sylverant.Shipgate.Boundaries
import Sylverant.Shipgate.CharacterStore

namespace Sylverant.Login

open Buffer (memcpy)
open Function (update)
open Packed (Codec Row)
open Shipgate (Mem bbDbCharSize)

/-! ## The code -/

/-- The table `character_data`, by guildcard and slot. -/
abbrev CharacterTable := Nat × Nat → Option (Row UInt8)

/-- What `handle_update_char` uses of the connection. -/
structure LoginClient where
  guildcard : Nat
  flags : Nat

/-- `default_chars` and `char_stats.start_stats`, with what is in memory behind them. -/
structure ClassTables where
  defaultChars : Nat → List UInt8
  startStats : Nat → List UInt8
  length_defaultChars : ∀ cl, (defaultChars cl).length = bbDbCharSize
  length_startStats : ∀ cl, (startStats cl).length = 14

/-- Where the stats and the appearance are in a record. -/
def statsOffset : Nat := 844
def appearanceOffset : Nat := 880

/-- So many bytes from a row on, which may have less: what is behind it is read then. -/
def rowBytes (data : List UInt8) (behind : Mem) (len : Nat) : List UInt8 :=
  data.take len ++ behind.bytes 0 (len - data.length)

/-- The field `slot` of the packets, and what they have of a character's looks. -/
def pktSlot (pkt : Mem) : Nat := (pkt 8).toNat
def pktAppearance (pkt : Mem) : List UInt8 := pkt.bytes 20 0x70
def pktClass (pkt : Mem) : Nat := (pkt 69).toNat

/-- Put the data of a class together, and store it as a new row. -/
def createChar (tables : ClassTables) (c : LoginClient) (pkt : Mem) (rows : CharacterTable) :
    CharacterTable :=
  let charData := tables.defaultChars (pktClass pkt)
  let charData := memcpy charData statsOffset (tables.startStats (pktClass pkt))
  let charData := memcpy charData appearanceOffset (pktAppearance pkt)
  let key := (c.guildcard, pktSlot pkt)
  update (update rows key none) key (some { data := charData, size := none })

/-- Change the appearance in the row that is there. -/
def dressChar (c : LoginClient) (pkt : Mem) (behind : Mem) (rows : CharacterTable) :
    CharacterTable :=
  let key := (c.guildcard, pktSlot pkt)
  match rows key with
  | none => rows
  | some row =>
      let charData := rowBytes row.data behind bbDbCharSize
      let charData := memcpy charData appearanceOffset (pktAppearance pkt)
      update rows key (some { row with data := charData })

def handleUpdateChar (tables : ClassTables) (c : LoginClient) (pkt : Mem) (behind : Mem)
    (rows : CharacterTable) : CharacterTable :=
  if c.flags &&& 0x00000001 ≠ 0 then createChar tables c pkt rows
  else if c.flags &&& 0x00000002 ≠ 0 then dressChar c pkt behind rows
  else rows

/-- The preview of a character: `sylverant_bb_mini_char_t`. Four of the bytes of the appearance
are the time that was played, which is cleared there and follows at the end. -/
def preview (charData : List UInt8) : List UInt8 :=
  let character := charData.drop statsOffset
  let exp := (character.drop 28).take 4
  let level := (character.drop 24).take 4
  let looks := (character.drop 36).take 0x70
  let playTime := (character.drop 76).take 4
  exp ++ level ++ memcpy looks 40 [0, 0, 0, 0] ++ playTime

/-- What a client is told that selects a character. -/
inductive Selection
  /-- The return value, when the connection is given up. -/
  | failure (rv : Int)
  | nonexistent
  | shown (preview : List UInt8)
  | selected
deriving DecidableEq, Repr

/-- What is shown of a row. -/
def showRow (z : Codec UInt8) : Option (Row UInt8) → Selection
  | none => .nonexistent
  | some row =>
      match row.size with
      | some n =>
          if n ≠ bbDbCharSize then .failure (-2)
          else
            match z.uncompress row.data bbDbCharSize with
            | none => .failure (-3)
            | some charData => .shown (preview charData)
      | none => if row.data.length ≠ bbDbCharSize then .failure (-2) else .shown (preview row.data)

def handleCharSelect (z : Codec UInt8) (c : LoginClient) (pkt : Mem) (rows : CharacterTable) :
    Selection :=
  if pktSlot pkt > 3 then .failure (-1)
  else if pkt 12 = 0 then showRow z (rows (c.guildcard, pktSlot pkt))
  else .selected

/-! ## What should hold -/

/-- A record with bytes in place of those from an offset on. -/
def patched (record : Nat → UInt8) (offset : Nat) (bytes : List UInt8) (i : Nat) : UInt8 :=
  if offset ≤ i ∧ i < offset + bytes.length then bytes.getD (i - offset) 0 else record i

/-- The record of which the bytes are given. -/
def recordOf (bytes : Nat → UInt8) : List UInt8 := (List.range bbDbCharSize).map bytes

def bytesOf (record : List UInt8) (i : Nat) : UInt8 := record.getD i 0

/-- A record with another appearance, which is all that changes. -/
def withAppearance (record looks : List UInt8) : List UInt8 :=
  recordOf (patched (bytesOf record) appearanceOffset looks)

/-- A new character has the defaults of its class, the stats that the class starts with, and the
appearance that was chosen. There are twelve classes. -/
def newCharacter (tables : ClassTables) (cl : Nat) (looks : List UInt8) : Option (List UInt8) :=
  if cl < 12 then
    some (recordOf (patched (patched (bytesOf (tables.defaultChars cl)) statsOffset
      (tables.startStats cl)) appearanceOffset looks))
  else none

/-- The rows, beside the records that should be in them. -/
structure Characters where
  rows : CharacterTable
  current : Nat × Nat → Option (List UInt8)

/-- A Blue Burst character is saved by the shipgate; a connection of the login server updates
one, with what is behind a row in memory then; or one of them reads. -/
inductive CharacterEvent
  | save (pkt : Mem) (bb : 1056 < Shipgate.bodyLen pkt 20)
  | update (c : LoginClient) (pkt : Mem) (behind : Mem)
  | charSelect (c : LoginClient) (pkt : Mem)
  | creq (pkt : Mem)

namespace Characters

def empty : Characters where
  rows := fun _ => none
  current := fun _ => none

variable (z : Codec UInt8) (tables : ClassTables)

/-- The record that an update should leave, with the one before. -/
def updated (c : LoginClient) (pkt : Mem) (old : Option (List UInt8)) : Option (List UInt8) :=
  if c.flags &&& 0x00000001 ≠ 0 then newCharacter tables (pktClass pkt) (pktAppearance pkt)
  else if c.flags &&& 0x00000002 ≠ 0 then old.map fun r => withAppearance r (pktAppearance pkt)
  else old

def next (s : Characters) : CharacterEvent → Characters
  | .save pkt _ =>
      { rows := (Shipgate.saveCdata z ⟨s.rows, fun _ => none⟩ pkt).characterData
        current := update s.current (Shipgate.slotKey pkt) (some (Shipgate.charRecord pkt 20)) }
  | .update c pkt behind =>
      let key := (c.guildcard, pktSlot pkt)
      { rows := handleUpdateChar tables c pkt behind s.rows
        current := update s.current key (updated tables c pkt (s.current key)) }
  | .charSelect _ _ | .creq _ => s

/-- What should be shown of a character. -/
def shown : Option (List UInt8) → Selection
  | none => .nonexistent
  | some record => .shown (preview record)

/-- Both servers read what should be in a row, the login server in the first four slots. -/
structure RowAgrees (key : Nat × Nat) (row : Option (Row UInt8)) (record : Option (List UInt8)) :
    Prop where
  creq : Shipgate.rowAnswer z row = Shipgate.Storage.lastSave record
  select : key.2 ≤ 3 → showRow z row = shown record

/-- Both servers read what should be there. -/
def Agreeing (s : Characters) : Prop := ∀ key, RowAgrees z key (s.rows key) (s.current key)

/-- After an event, both servers read what should be there. -/
def Kept (s : Characters) (e : CharacterEvent) : Prop := (s.next z tables e).Agreeing z

/-- A character that is created is of one of the classes, and one that is changed in the
dressing room is stored raw, or what is made of its compressed form happens to be right. -/
def Harmless (s : Characters) : CharacterEvent → Prop
  | .save _ _ | .charSelect _ _ | .creq _ => True
  | .update c pkt behind =>
      if c.flags &&& 0x00000001 ≠ 0 then pktClass pkt < 12
      else if c.flags &&& 0x00000002 ≠ 0 then
        ∀ row n, s.rows (c.guildcard, pktSlot pkt) = some row → row.size = some n →
          z.uncompress (memcpy (rowBytes row.data behind bbDbCharSize) appearanceOffset
              (pktAppearance pkt)) n =
            (z.unpack row).map fun r => withAppearance r (pktAppearance pkt)
      else True

/-! ## Records -/

end Characters

theorem length_recordOf (bytes : Nat → UInt8) : (recordOf bytes).length = bbDbCharSize := by
  rw [recordOf, List.length_map, List.length_range]

theorem bytesOf_recordOf (bytes : Nat → UInt8) {i : Nat} (hi : i < bbDbCharSize) :
    bytesOf (recordOf bytes) i = bytes i := by
  rw [bytesOf, recordOf, List.getD_eq_getElem?_getD, List.getElem?_map, List.getElem?_range hi]
  rfl

theorem recordOf_congr {f g : Nat → UInt8} (h : ∀ i < bbDbCharSize, f i = g i) :
    recordOf f = recordOf g :=
  List.map_congr_left fun i hi => h i (List.mem_range.mp hi)

theorem recordOf_bytesOf {record : List UInt8} (h : record.length = bbDbCharSize) :
    recordOf (bytesOf record) = record := by
  refine List.ext_getElem? fun i => ?_
  rw [recordOf, List.getElem?_map]
  by_cases hi : i < bbDbCharSize
  · have hlt : i < record.length := by rwa [h]
    rw [List.getElem?_range hi, List.getElem?_eq_getElem hlt, Option.map_some, bytesOf,
      List.getD_eq_getElem?_getD, List.getElem?_eq_getElem hlt, Option.getD_some]
  · rw [List.getElem?_eq_none (by rw [List.length_range]; omega),
      List.getElem?_eq_none (by omega), Option.map_none]

/-- Bytes that are copied into a record replace those that are there. -/
theorem memcpy_eq {buf src : List UInt8} {offset : Nat} (hbuf : buf.length = bbDbCharSize)
    (hsrc : offset + src.length ≤ bbDbCharSize) :
    memcpy buf offset src = recordOf (patched (bytesOf buf) offset src) := by
  rw [← hbuf] at hsrc
  rw [← recordOf_bytesOf ((Buffer.length_memcpy hsrc).trans hbuf)]
  exact recordOf_congr fun i _ => Buffer.getD_memcpy hsrc i 0

theorem length_pktAppearance (pkt : Mem) : (pktAppearance pkt).length = 0x70 :=
  Shipgate.length_bytes pkt 20 0x70

/-- What is copied into a record as its appearance is all that changes. -/
theorem memcpy_appearance {buf : List UInt8} (hbuf : buf.length = bbDbCharSize) (pkt : Mem) :
    memcpy buf appearanceOffset (pktAppearance pkt) = withAppearance buf (pktAppearance pkt) :=
  memcpy_eq hbuf (by rw [length_pktAppearance]; decide)

/-- The record that is put together for a class is that of a new character. -/
theorem memcpy_newCharacter (tables : ClassTables) (cl : Nat) (pkt : Mem) :
    memcpy (memcpy (tables.defaultChars cl) statsOffset (tables.startStats cl)) appearanceOffset
        (pktAppearance pkt) =
      recordOf (patched (patched (bytesOf (tables.defaultChars cl)) statsOffset
        (tables.startStats cl)) appearanceOffset (pktAppearance pkt)) := by
  have hstats : statsOffset + (tables.startStats cl).length ≤ bbDbCharSize := by
    rw [tables.length_startStats]
    decide
  rw [memcpy_eq (tables.length_defaultChars cl) hstats, memcpy_appearance (length_recordOf _)]
  refine recordOf_congr fun i hi => ?_
  unfold patched
  split
  · rfl
  · exact bytesOf_recordOf _ hi

theorem rowBytes_of_length {data : List UInt8} (h : data.length = bbDbCharSize) (behind : Mem) :
    rowBytes data behind bbDbCharSize = data := by
  rw [rowBytes, h, Nat.sub_self, ← h, List.take_length]
  exact List.append_nil data

namespace Characters

/-! ## Rows -/

variable {z}

theorem rowAgrees_none (key : Nat × Nat) : RowAgrees z key none none := ⟨rfl, fun _ => rfl⟩

/-- A record that is stored raw. -/
theorem rowAgrees_raw (key : Nat × Nat) {record : List UInt8}
    (hlen : record.length = bbDbCharSize) :
    RowAgrees z key (some { data := record, size := none }) (some record) where
  creq := rfl
  select := fun _ => if_neg (not_not.mpr hlen)

/-- A record that was compressed or not. -/
theorem rowAgrees_pack (key : Nat × Nat) {record : List UInt8}
    (hlen : record.length = bbDbCharSize) :
    RowAgrees z key (some (z.pack record)) (some record) where
  creq := (Shipgate.Storage.rowAnswer_some_iff _ _).mpr (Codec.unpack_pack _)
  select := fun _ => by
    unfold Codec.pack
    cases h : z.shorter record with
    | none => exact if_neg (not_not.mpr hlen)
    | some c =>
        have hc := z.inverts record c bbDbCharSize (Codec.shorter_eq_some h).1 (Nat.le_of_eq hlen)
        unfold showRow
        dsimp only
        rw [if_neg (not_not.mpr hlen), hc]
        rfl

/-- A row of a size, with other data. -/
theorem rowAgrees_sized_iff (key : Nat × Nat) {n : Nat} (hn : key.2 ≤ 3 → n = bbDbCharSize)
    (data record : List UInt8) :
    RowAgrees z key (some { data := data, size := some n }) (some record) ↔
      z.uncompress data n = some record := by
  have hcreq := Shipgate.Storage.rowAnswer_some_iff (z := z) { data := data, size := some n } record
  refine ⟨fun h => hcreq.mp h.creq, fun h => ⟨hcreq.mpr h, fun hslot => ?_⟩⟩
  have hsize := hn hslot
  subst hsize
  unfold showRow
  dsimp only
  rw [if_neg (not_not.mpr rfl), h]
  rfl

/-- Where there should be no record, no row of which something can be read is right. -/
theorem not_rowAgrees_raw (key : Nat × Nat) (data : List UInt8) :
    ¬RowAgrees z key (some { data := data, size := none }) none :=
  fun h => nomatch h.creq

/-- Where there should be no record, there is no row. -/
theorem RowAgrees.eq_none {key : Nat × Nat} {row : Option (Row UInt8)}
    (h : RowAgrees z key row none) : row = none := by
  cases row with
  | none => rfl
  | some r =>
      have hcreq := h.creq
      unfold Shipgate.rowAnswer at hcreq
      dsimp only at hcreq
      cases hr : z.unpack r with
      | none =>
          rw [hr] at hcreq
          injection hcreq with herr
          exact absurd herr (by decide)
      | some data =>
          rw [hr] at hcreq
          cases hcreq

/-- Where there should be a record, there is a row from which it comes out, and which is of the
size of a record in the first four slots. -/
theorem RowAgrees.eq_some {key : Nat × Nat} {row : Option (Row UInt8)} {record : List UInt8}
    (h : RowAgrees z key row (some record)) :
    ∃ r, row = some r ∧ z.unpack r = some record ∧
      ∀ n, r.size = some n → key.2 ≤ 3 → n = bbDbCharSize := by
  cases row with
  | none => exact nomatch h.creq
  | some r =>
      refine ⟨r, rfl, (Shipgate.Storage.rowAnswer_some_iff r record).mp h.creq, ?_⟩
      intro n hn hslot
      have hselect := h.select hslot
      unfold showRow at hselect
      dsimp only at hselect
      rw [hn] at hselect
      dsimp only at hselect
      split at hselect
      · cases hselect
      · rename_i hsize
        exact not_not.mp hsize

variable {s : Characters} {tables : ClassTables}

theorem Agreeing.empty : Agreeing z .empty := fun key => rowAgrees_none key

/-- With another row and another record at a key, all depends on these. -/
theorem Agreeing.update_iff (h : s.Agreeing z) (key : Nat × Nat) (row : Option (Row UInt8))
    (record : Option (List UInt8)) :
    Agreeing z { rows := update s.rows key row, current := update s.current key record } ↔
      RowAgrees z key row record := by
  constructor
  · intro hnext
    have hkey := hnext key
    dsimp only at hkey
    rwa [Function.update_self, Function.update_self] at hkey
  · intro hrow key'
    dsimp only
    by_cases hkey : key' = key
    · subst hkey
      rwa [Function.update_self, Function.update_self]
    · rw [Function.update_of_ne hkey, Function.update_of_ne hkey]
      exact h key'

/-- All records have the size of one. -/
def Sized (s : Characters) : Prop :=
  ∀ key record, s.current key = some record → record.length = bbDbCharSize

theorem Sized.empty : Sized .empty := fun _ _ hnone => nomatch hnone

theorem length_charRecord {pkt : Mem} (bb : 1056 < Shipgate.bodyLen pkt 20) :
    (Shipgate.charRecord pkt 20).length = bbDbCharSize := by
  rw [Shipgate.charRecord, Shipgate.length_bytes, Shipgate.recordLen, if_pos bb]

theorem Sized.next (h : s.Sized) (e : CharacterEvent) : (s.next z tables e).Sized := by
  have hupdate (key : Nat × Nat) (record : Option (List UInt8))
      (hrecord : ∀ r, record = some r → r.length = bbDbCharSize) (rows : CharacterTable) :
      Sized { rows := rows, current := update s.current key record } := by
    intro key' r hr
    dsimp only at hr
    by_cases hkey : key' = key
    · subst hkey
      rw [Function.update_self] at hr
      exact hrecord r hr
    · rw [Function.update_of_ne hkey] at hr
      exact h key' r hr
  cases e with
  | save pkt bb =>
      exact hupdate _ _ (fun r hr => Option.some.inj hr ▸ length_charRecord bb) _
  | update c pkt behind =>
      refine hupdate _ _ (fun r hr => ?_) _
      unfold updated newCharacter at hr
      split at hr
      · split at hr
        · rw [← Option.some.inj hr]
          exact length_recordOf _
        · cases hr
      · split at hr
        · obtain ⟨old, -, rfl⟩ := Option.map_eq_some_iff.mp hr
          exact length_recordOf _
        · exact h _ r hr
  | charSelect c pkt => exact h
  | creq pkt => exact h

/-! ## Events -/

/-- A character that is saved by the shipgate is read by both. -/
theorem kept_save (h : s.Agreeing z) (pkt : Mem) (bb : 1056 < Shipgate.bodyLen pkt 20) :
    s.Kept z tables (.save pkt bb) := by
  have hrow := (h.update_iff (Shipgate.slotKey pkt)
    (some (z.pack (Shipgate.charRecord pkt 20))) (some (Shipgate.charRecord pkt 20))).mpr
      (rowAgrees_pack _ (length_charRecord bb))
  unfold Kept next Shipgate.saveCdata
  dsimp only
  rwa [Function.update_idem]

/-- The row of a character that was saved. -/
theorem rows_save (pkt : Mem) (bb : 1056 < Shipgate.bodyLen pkt 20) :
    (s.next z tables (.save pkt bb)).rows (Shipgate.slotKey pkt) =
      some (z.pack (Shipgate.charRecord pkt 20)) := by
  unfold next Shipgate.saveCdata
  dsimp only
  exact Function.update_self ..

/-- A character that is created is read by both just if it is of a class. -/
theorem kept_create_iff (h : s.Agreeing z) {c : LoginClient} (pkt behind : Mem)
    (hflag : c.flags &&& 0x00000001 ≠ 0) :
    s.Kept z tables (.update c pkt behind) ↔ pktClass pkt < 12 := by
  unfold Kept next handleUpdateChar updated newCharacter createChar
  dsimp only
  rw [if_pos hflag, if_pos hflag, Function.update_idem, h.update_iff, memcpy_newCharacter]
  by_cases hclass : pktClass pkt < 12
  · rw [if_pos hclass]
    exact ⟨fun _ => hclass, fun _ => rowAgrees_raw _ (length_recordOf _)⟩
  · rw [if_neg hclass]
    exact ⟨fun hrow => absurd hrow (not_rowAgrees_raw _ _), fun hlt => absurd hlt hclass⟩

/-- A character that is changed in the dressing room is read by both just if it was stored raw,
or by chance. -/
theorem kept_dress_iff (h : s.Agreeing z) (hsized : s.Sized) {c : LoginClient} (pkt behind : Mem)
    (hflag : ¬c.flags &&& 0x00000001 ≠ 0) (hdress : c.flags &&& 0x00000002 ≠ 0) :
    s.Kept z tables (.update c pkt behind) ↔
      ∀ row n, s.rows (c.guildcard, pktSlot pkt) = some row → row.size = some n →
        z.uncompress (memcpy (rowBytes row.data behind bbDbCharSize) appearanceOffset
            (pktAppearance pkt)) n =
          (z.unpack row).map fun r => withAppearance r (pktAppearance pkt) := by
  have hkey := h (c.guildcard, pktSlot pkt)
  unfold Kept next handleUpdateChar updated dressChar
  dsimp only
  rw [if_neg hflag, if_neg hflag, if_pos hdress, if_pos hdress]
  cases hcurrent : s.current (c.guildcard, pktSlot pkt) with
  | none =>
      rw [hcurrent] at hkey
      have hnone := hkey.eq_none
      rw [hnone]
      refine ⟨fun _ row n hrow => (nomatch hrow), fun _ => ?_⟩
      intro key
      have hsame : Function.update s.current (c.guildcard, pktSlot pkt) none = s.current := by
        rw [← hcurrent, Function.update_eq_self]
      dsimp only
      rw [Option.map_none, hsame]
      exact h key
  | some record =>
      rw [hcurrent] at hkey
      have hlen := hsized _ _ hcurrent
      obtain ⟨row, hrow, hunpack, hsize⟩ := hkey.eq_some
      rw [hrow, Option.map_some]
      dsimp only
      rw [h.update_iff]
      cases hrowsize : row.size with
      | none =>
          have hdata : row.data = record := by
            unfold Codec.unpack at hunpack
            rw [hrowsize] at hunpack
            exact Option.some.inj hunpack
          rw [hdata, rowBytes_of_length hlen, memcpy_appearance hlen]
          refine ⟨fun _ row' n hrow' hn => ?_, fun _ => rowAgrees_raw _ (length_recordOf _)⟩
          rw [← Option.some.inj hrow', hrowsize] at hn
          cases hn
      | some n =>
          rw [rowAgrees_sized_iff _ (hsize n hrowsize)]
          constructor
          · intro huncompress row' n' hrow' hn'
            obtain rfl := Option.some.inj hrow'
            obtain rfl := Option.some.inj (hrowsize.symm.trans hn')
            rw [huncompress, hunpack, Option.map_some]
          · intro hall
            have huncompress := hall row n rfl hrowsize
            rwa [hunpack, Option.map_some] at huncompress

/-- After an event, both servers read what should be there just if the event is harmless. -/
theorem kept_iff (h : s.Agreeing z) (hsized : s.Sized) (e : CharacterEvent) :
    s.Kept z tables e ↔ s.Harmless z e := by
  unfold Harmless
  cases e with
  | save pkt bb => exact ⟨fun _ => trivial, fun _ => kept_save h pkt bb⟩
  | update c pkt behind =>
      dsimp only
      by_cases hflag : c.flags &&& 0x00000001 ≠ 0
      · rw [if_pos hflag]
        exact kept_create_iff h pkt behind hflag
      · rw [if_neg hflag]
        by_cases hdress : c.flags &&& 0x00000002 ≠ 0
        · rw [if_pos hdress]
          exact kept_dress_iff h hsized pkt behind hflag hdress
        · rw [if_neg hdress]
          refine ⟨fun _ => trivial, fun _ key => ?_⟩
          unfold next handleUpdateChar updated
          dsimp only
          rw [if_neg hflag, if_neg hflag, if_neg hdress, if_neg hdress, Function.update_eq_self]
          exact h key
  | charSelect c pkt => exact ⟨fun _ => trivial, fun _ => h⟩
  | creq pkt => exact ⟨fun _ => trivial, fun _ => h⟩

/-- In a run from an empty table on, both servers always read what should be there, if and only
if all events are harmless. -/
theorem kept_runs_iff (z : Codec UInt8) (tables : ClassTables) (events : List CharacterEvent) :
    Run.Guarded (next z tables) (Kept z tables) .empty events ↔
      Run.Guarded (next z tables) (Harmless z) .empty events := by
  have hiff (s : Characters) (e : CharacterEvent) (h : s.Agreeing z ∧ s.Sized) :
      s.Kept z tables e ↔ s.Harmless z e := kept_iff h.1 h.2 e
  have hstep (s : Characters) (e : CharacterEvent) (h : s.Agreeing z ∧ s.Sized)
      (hkept : s.Kept z tables e) : (s.next z tables e).Agreeing z ∧ (s.next z tables e).Sized :=
    ⟨hkept, h.2.next e⟩
  exact Run.Guarded.congr hiff hstep ⟨Agreeing.empty, Sized.empty⟩

/-! ## What the handlers answer -/

/-- A client that asks for one of its four characters is shown the one that should be there. -/
theorem Agreeing.handleCharSelect (h : s.Agreeing z) (c : LoginClient) {pkt : Mem}
    (hslot : pktSlot pkt ≤ 3) (hreason : pkt 12 = 0) :
    Login.handleCharSelect z c pkt s.rows = shown (s.current (c.guildcard, pktSlot pkt)) := by
  unfold Login.handleCharSelect
  rw [if_neg (Nat.not_lt.mpr hslot), if_pos hreason]
  exact (h _).select hslot

/-- A ship that asks for a character gets the one that should be there. -/
theorem Agreeing.creqAnswer (h : s.Agreeing z) (backups : Nat × List UInt8 → Option (Row UInt8))
    (pkt : Mem) :
    Shipgate.creqAnswer z ⟨s.rows, backups⟩ pkt =
      Shipgate.Storage.lastSave (s.current (Shipgate.slotKey pkt)) :=
  (h (Shipgate.slotKey pkt)).creq

/-- The dressing room changes the bytes of the appearance, and no others. -/
theorem bytesOf_withAppearance (record : List UInt8) (pkt : Mem) {i : Nat} (hi : i < bbDbCharSize) :
    bytesOf (withAppearance record (pktAppearance pkt)) i =
      if 880 ≤ i ∧ i < 880 + 0x70 then pkt (20 + (i - 880)) else bytesOf record i := by
  rw [withAppearance, bytesOf_recordOf _ hi, patched, length_pktAppearance, appearanceOffset]
  split
  · rename_i hinside
    have hlt : i - 880 < 0x70 := by omega
    rw [pktAppearance, Shipgate.Mem.bytes, List.getD_eq_getElem?_getD, List.getElem?_map,
      List.getElem?_range hlt]
    rfl
  · rfl

/-! ## A change of a compressed character -/

/-- A Blue Burst character of zeros is saved. -/
def savedZeros : CharacterEvent := .save (Shipgate.Storage.zeroPkt 0x1E 0xE0) (by decide)

/-- All classes start with zeros. -/
def zeroTables : ClassTables where
  defaultChars := fun _ => List.replicate bbDbCharSize 0
  startStats := fun _ => List.replicate 14 0
  length_defaultChars := fun _ => List.length_replicate
  length_startStats := fun _ => List.length_replicate

/-- The character looks different now. -/
def newLooks : Mem := fun i => if i = 20 then 1 else 0

/-- The compressed form of zeros, with another appearance in a buffer for the whole record, is
still that of zeros. -/
theorem uncompress_dressed (high low : UInt8) (behind : Mem) (looks : List UInt8) (n : Nat)
    (hn : 256 * high.toNat + low.toNat ≤ n) :
    Shipgate.Storage.zeroRuns.uncompress
        (memcpy (rowBytes [high, low] behind bbDbCharSize) appearanceOffset looks) n =
      some (List.replicate (256 * high.toNat + low.toNat) 0) := by
  have hbuf : ∃ rest, memcpy (rowBytes [high, low] behind bbDbCharSize) appearanceOffset looks =
      high :: low :: rest := by
    have hshort : [high, low].length ≤ bbDbCharSize := (by decide : 2 ≤ 7884)
    rw [rowBytes, List.take_of_length_le hshort]
    generalize behind.bytes 0 (bbDbCharSize - [high, low].length) = rest
    exact ⟨_, rfl⟩
  obtain ⟨rest, hrest⟩ := hbuf
  rw [hrest]
  exact if_pos hn

/-- A character of zeros is saved compressed, and then changed in the dressing room: what comes
out is the one before. -/
theorem not_kept_runs :
    ¬Run.Guarded (next Shipgate.Storage.zeroRuns zeroTables)
      (Kept Shipgate.Storage.zeroRuns zeroTables) .empty
      [savedZeros, .update { guildcard := 0, flags := 2 } newLooks fun _ => 0] := by
  rintro ⟨hfirst, hsecond, -⟩
  have hagree : Agreeing Shipgate.Storage.zeroRuns
      (Characters.empty.next Shipgate.Storage.zeroRuns zeroTables savedZeros) := hfirst
  have hsized : Sized (Characters.empty.next Shipgate.Storage.zeroRuns zeroTables savedZeros) :=
    Sized.next Sized.empty savedZeros
  have hrecord : Shipgate.charRecord (Shipgate.Storage.zeroPkt 0x1E 0xE0) 20 =
      List.replicate 7884 0 := by
    have hlen : Shipgate.recordLen (Shipgate.bodyLen (Shipgate.Storage.zeroPkt 0x1E 0xE0) 20) =
        7884 := by decide
    rw [Shipgate.charRecord, Shipgate.Storage.zeroPkt_bytes _ _ (by decide), hlen]
  have hrow : (Characters.empty.next Shipgate.Storage.zeroRuns zeroTables savedZeros).rows (0, 0) =
      some { data := [30, 204], size := some 7884 } := by
    have hpack : Shipgate.Storage.zeroRuns.pack (List.replicate 7884 0) =
        { data := [30, 204], size := some 7884 } := by
      rw [Codec.pack, Shipgate.Storage.zeroRuns_shorter (by decide) (by decide),
        List.length_replicate]
      rfl
    have hkey : Shipgate.slotKey (Shipgate.Storage.zeroPkt 0x1E 0xE0) = (0, 0) := by decide
    rw [← hpack, ← hrecord, ← hkey]
    exact rows_save (Shipgate.Storage.zeroPkt 0x1E 0xE0) (by decide)
  have hdress := (kept_dress_iff hagree hsized newLooks (fun _ => 0) (by decide)
    (by decide)).mp hsecond _ 7884 hrow rfl
  have hzeros : Shipgate.Storage.zeroRuns.unpack { data := [30, 204], size := some 7884 } =
      some (List.replicate 7884 0) := rfl
  rw [uncompress_dressed 30 204 _ _ 7884 (by decide), hzeros, Option.map_some] at hdress
  have hbyte : bytesOf (List.replicate 7884 0) 880 =
      bytesOf (withAppearance (List.replicate 7884 0) (pktAppearance newLooks)) 880 :=
    congrArg (bytesOf · 880) (Option.some.inj hdress)
  have hold : bytesOf (List.replicate 7884 0) 880 = 0 := by
    rw [bytesOf, List.getD_eq_getElem?_getD, List.getElem?_replicate]
    rfl
  rw [hold, bytesOf_withAppearance _ _ (by decide), if_pos (by decide)] at hbyte
  exact absurd hbyte (by decide)

end Characters

end Sylverant.Login
