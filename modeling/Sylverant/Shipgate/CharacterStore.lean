/-
# Stored characters

The shipgate stores the characters of the players in one table, by guildcard and slot, and
their backups in another, by guildcard and name. A row has the record, compressed if that
made it shorter, and then its size. A character replaces the row of the one before; a backup
is inserted, and where there is one already only its data is updated.

The queries succeed, and what is escaped arrives as it was. Left out are the packets that are
sent, but for what they answer, and the log file.
-/

import Mathlib.Logic.Function.Basic
import Sylverant.Library.Packed
import Sylverant.Library.Run
import Sylverant.Shipgate.Requests

namespace Sylverant.Shipgate

open Function (update)
open Packed (Codec Row)

/-! ## The code -/

/-- `sizeof(sylverant_bb_db_char_t)` -/
def bbDbCharSize : Nat := 7884

def ERR_CREQ_NO_DATA : Nat := 0x00000001

/-- The tables `character_data` and `character_backup`. -/
structure Database where
  characterData : Nat × Nat → Option (Row UInt8)
  characterBackup : Nat × List UInt8 → Option (Row UInt8)

/-- How much is behind a header of the size, in 16 bits. -/
def bodyLen (pkt : Mem) (header : Nat) : Nat := (pkt.net16 0 + (2 ^ 16 - header)) % 2 ^ 16

/-- Is it a Blue Burst character or not? -/
def recordLen (len : Nat) : Nat := if len > 1056 then bbDbCharSize else 1052

/-- The record behind a header of the size. -/
def charRecord (pkt : Mem) (header : Nat) : List UInt8 :=
  pkt.bytes header (recordLen (bodyLen pkt header))

/-- The guildcard and the slot, which are in the packets that save a character and in those
that ask for it. -/
def slotKey (pkt : Mem) : Nat × Nat := (pkt.net32 8, pkt.net32 12)

/-- The guildcard and the name, of up to 31 characters. -/
def nameKey (pkt : Mem) : Nat × List UInt8 := (pkt.net32 8, (pkt.bytes 16 31).takeWhile (· ≠ 0))

variable (z : Codec UInt8)

/-- `handle_cdata`: what was there is deleted, and the character inserted. -/
def saveCdata (db : Database) (pkt : Mem) : Database :=
  let deleted := update db.characterData (slotKey pkt) none
  { db with
    characterData := update deleted (slotKey pkt) (some (z.pack (charRecord pkt 20))) }

/-- What is answered with a row that was asked for. -/
def rowAnswer : Option (Row UInt8) → Answer (List UInt8)
  | none => .failure ERR_CREQ_NO_DATA
  | some row =>
      match z.unpack row with
      | none => .failure ERR_BAD_ERROR
      | some data => .success data

/-- The answer of `handle_creq`. -/
def creqAnswer (db : Database) (pkt : Mem) : Answer (List UInt8) :=
  rowAnswer z (db.characterData (slotKey pkt))

/-- The answer of `handle_cbkup_req`. -/
def cbkupReqAnswer (db : Database) (gc : Nat) (name : List UInt8) : Answer (List UInt8) :=
  rowAnswer z (db.characterBackup (gc, name))

/-- A packet with a backup is refused, asks for the backup, or has one. -/
inductive Cbkup
  | refused
  | restore
  | save

/-- Only ships of version 11 of the protocol or later send backups. -/
def cbkupKind (protoVer : Nat) (pkt : Mem) : Cbkup :=
  if protoVer < 11 then .refused
  else if bodyLen pkt 48 = 0 then .restore
  else .save

/-- `handle_cbkup`, when the packet has a backup: it is inserted, or else `ON DUPLICATE KEY
UPDATE data=VALUES(data)`. -/
def saveCbkup (db : Database) (pkt : Mem) : Database :=
  let record := charRecord pkt 48
  let row :=
    match db.characterBackup (nameKey pkt) with
    | none => z.pack record
    | some old => z.repack old record
  { db with characterBackup := update db.characterBackup (nameKey pkt) (some row) }

/-! ## What should hold -/

/-- What was last saved under each key. -/
structure Saves where
  characters : Nat × Nat → Option (List UInt8)
  backups : Nat × List UInt8 → Option (List UInt8)

/-- The tables, beside what was saved. -/
structure Storage where
  db : Database
  saves : Saves

/-- A packet of a ship: a character, a request for one, or a backup or a request for one, with
the version of the ship's protocol. -/
inductive StorageEvent
  | cdata (pkt : Mem)
  | creq (pkt : Mem)
  | cbkup (protoVer : Nat) (pkt : Mem)

namespace Storage

def empty : Storage where
  db := { characterData := fun _ => none, characterBackup := fun _ => none }
  saves := { characters := fun _ => none, backups := fun _ => none }

def next (s : Storage) : StorageEvent → Storage
  | .cdata pkt =>
      { db := saveCdata z s.db pkt
        saves :=
          { s.saves with
            characters := update s.saves.characters (slotKey pkt) (some (charRecord pkt 20)) } }
  | .creq _ => s
  | .cbkup protoVer pkt =>
      match cbkupKind protoVer pkt with
      | .refused | .restore => s
      | .save =>
          { db := saveCbkup z s.db pkt
            saves :=
              { s.saves with
                backups := update s.saves.backups (nameKey pkt) (some (charRecord pkt 48)) } }

/-- What should be answered, with what was last saved. -/
def lastSave : Option (List UInt8) → Answer (List UInt8)
  | none => .failure ERR_CREQ_NO_DATA
  | some data => .success data

/-- Who asks now gets what was last saved. -/
structure ReturnsLast (s : Storage) : Prop where
  character : ∀ pkt, creqAnswer z s.db pkt = lastSave (s.saves.characters (slotKey pkt))
  backup : ∀ gc name, cbkupReqAnswer z s.db gc name = lastSave (s.saves.backups (gc, name))

/-- After an event, who asks gets what was last saved. -/
def Returning (s : Storage) (e : StorageEvent) : Prop := (s.next z e).ReturnsLast z

/-- A backup that is not the first under its name fits the row that is there: it is compressed
just if the row has a size, and is not longer than that. -/
def Fitting (s : Storage) : StorageEvent → Prop
  | .cdata _ | .creq _ => True
  | .cbkup protoVer pkt =>
      match cbkupKind protoVer pkt with
      | .refused | .restore => True
      | .save =>
          ∀ old, s.db.characterBackup (nameKey pkt) = some old →
            z.Repacks old (charRecord pkt 48)

/-! ## What is answered -/

variable {z}

@[simp]
theorem rowAnswer_none : rowAnswer z none = lastSave none := rfl

theorem rowAnswer_some_iff (row : Row UInt8) (data : List UInt8) :
    rowAnswer z (some row) = lastSave (some data) ↔ z.unpack row = some data := by
  unfold rowAnswer lastSave
  dsimp only
  cases h : z.unpack row with
  | none => exact ⟨fun heq => (nomatch heq), fun heq => (nomatch heq)⟩
  | some data' =>
      constructor
      · intro heq
        injection heq with heq
        rw [heq]
      · intro heq
        rw [Option.some.inj heq]

variable {s : Storage}

theorem ReturnsLast.empty : ReturnsLast z .empty := ⟨fun _ => rfl, fun _ _ => rfl⟩

/-- A character that was saved is what comes next, and the others stay. -/
theorem ReturnsLast.cdata (h : s.ReturnsLast z) (pkt : Mem) :
    (s.next z (.cdata pkt)).ReturnsLast z where
  character := fun pkt' => by
    unfold next creqAnswer saveCdata
    dsimp only
    by_cases hkey : slotKey pkt' = slotKey pkt
    · rw [hkey, Function.update_self, Function.update_self]
      exact (rowAnswer_some_iff _ _).mpr (Codec.unpack_pack _)
    · rw [Function.update_of_ne hkey, Function.update_of_ne hkey, Function.update_of_ne hkey]
      exact h.character pkt'
  backup := h.backup

/-- A backup that was saved is what comes next just if it fits the row. -/
theorem returnsLast_cbkup_iff (h : s.ReturnsLast z) (pkt : Mem) :
    ReturnsLast z
        { db := saveCbkup z s.db pkt
          saves :=
            { s.saves with
              backups := update s.saves.backups (nameKey pkt) (some (charRecord pkt 48)) } } ↔
      ∀ old, s.db.characterBackup (nameKey pkt) = some old →
        z.Repacks old (charRecord pkt 48) := by
  have hrow : rowAnswer z ((saveCbkup z s.db pkt).characterBackup (nameKey pkt)) =
      lastSave (some (charRecord pkt 48)) ↔
        ∀ old, s.db.characterBackup (nameKey pkt) = some old →
          z.Repacks old (charRecord pkt 48) := by
    unfold saveCbkup
    dsimp only
    rw [Function.update_self, rowAnswer_some_iff]
    cases hold : s.db.characterBackup (nameKey pkt) with
    | none => exact ⟨fun _ old hsome => (nomatch hsome), fun _ => Codec.unpack_pack _⟩
    | some old =>
        dsimp only
        rw [Codec.unpack_repack_iff]
        exact ⟨fun hfits old' hsome => Option.some.inj hsome ▸ hfits, fun hfits => hfits old rfl⟩
  rw [← hrow]
  constructor
  · intro hnext
    have hanswer : rowAnswer z ((saveCbkup z s.db pkt).characterBackup (nameKey pkt)) =
        lastSave (update s.saves.backups (nameKey pkt) (some (charRecord pkt 48)) (nameKey pkt)) :=
      hnext.backup (nameKey pkt).1 (nameKey pkt).2
    rwa [Function.update_self] at hanswer
  · intro hanswer
    refine ⟨h.character, fun gc name => ?_⟩
    unfold cbkupReqAnswer
    dsimp only
    by_cases hkey : (gc, name) = nameKey pkt
    · rw [hkey, Function.update_self]
      exact hanswer
    · unfold saveCbkup
      dsimp only
      rw [Function.update_of_ne hkey, Function.update_of_ne hkey]
      exact h.backup gc name

/-- The first backup under a name has a row of its own. -/
theorem next_cbkup_first {protoVer : Nat} {pkt : Mem} (hkind : cbkupKind protoVer pkt = .save)
    (hfirst : s.db.characterBackup (nameKey pkt) = none) :
    (s.next z (.cbkup protoVer pkt)).db.characterBackup (nameKey pkt) =
      some (z.pack (charRecord pkt 48)) := by
  unfold next saveCbkup
  dsimp only
  rw [hkind, hfirst]
  exact Function.update_self ..

/-- A backup fits just if it fits the row that is there. -/
theorem fitting_cbkup_iff {protoVer : Nat} {pkt : Mem} (hkind : cbkupKind protoVer pkt = .save) :
    s.Fitting z (.cbkup protoVer pkt) ↔
      ∀ old, s.db.characterBackup (nameKey pkt) = some old →
        z.Repacks old (charRecord pkt 48) := by
  unfold Fitting
  dsimp only
  rw [hkind]

/-- After an event, who asks gets what was last saved just if a backup fits its row. -/
theorem returning_iff (h : s.ReturnsLast z) (e : StorageEvent) :
    s.Returning z e ↔ s.Fitting z e := by
  unfold Returning Fitting
  cases e with
  | cdata pkt => exact ⟨fun _ => trivial, fun _ => h.cdata pkt⟩
  | creq pkt => exact ⟨fun _ => trivial, fun _ => h⟩
  | cbkup protoVer pkt =>
      unfold next
      dsimp only
      cases cbkupKind protoVer pkt with
      | refused => exact ⟨fun _ => trivial, fun _ => h⟩
      | restore => exact ⟨fun _ => trivial, fun _ => h⟩
      | save => exact returnsLast_cbkup_iff h pkt

/-- In a run from empty tables on, who asks always gets what was last saved, if and only if all
backups fit the rows that are there. -/
theorem returning_runs_iff (z : Codec UInt8) (events : List StorageEvent) :
    Run.Guarded (next z) (Returning z) .empty events ↔
      Run.Guarded (next z) (Fitting z) .empty events :=
  Run.Guarded.congr (fun _ e h => returning_iff h e) (fun _ _ _ hreturning => hreturning)
    ReturnsLast.empty

/-! ## What is sent -/

theorem drop_take_body {header : List UInt8} {n : Nat} (hheader : header.length = n)
    (body pad : List UInt8) : (((header ++ body) ++ pad).take (n + body.length)).drop n = body := by
  subst hheader
  rw [← List.length_append, List.take_left, List.drop_left]

/-- The packet with a record has it behind its header. -/
theorem sendCdata_record (gc slot : Nat) (record : List UInt8) (block : Nat) :
    ∃ pkt, sendCdata gc slot record block = [pkt] ∧ pkt.drop 20 = record := by
  have hlen : ¬20 + record.length < 8 := by omega
  refine ⟨_, if_neg hlen, ?_⟩
  have hassoc := List.append_assoc
    (htons (20 + record.length) ++ htons SHDR_TYPE_CREQ ++ [0, 0] ++ htons SHDR_RESPONSE)
    (htonl gc ++ htonl slot ++ (htonl block).reverse) record
  rw [packet, field, ← hassoc]
  exact drop_take_body (n := 20) rfl record _

/-- A ship that asks for a character gets the record that was last saved. -/
theorem ReturnsLast.sent_character (h : s.ReturnsLast z) (c : OnlineShip) (pkt : Mem)
    {record : List UInt8} (hsaved : s.saves.characters (slotKey pkt) = some record) :
    ∃ p, handleCreq c pkt (creqAnswer z s.db pkt) = [(c.conn, p)] ∧ p.drop 20 = record := by
  obtain ⟨p, hp, hrecord⟩ := sendCdata_record (pkt.net32 8) (pkt.net32 12) record 0
  refine ⟨p, ?_, hrecord⟩
  rw [h.character, hsaved]
  exact congrArg (sendTo c.conn) hp

/-- A ship that asks for a backup gets the record that was last saved. -/
theorem ReturnsLast.sent_backup (h : s.ReturnsLast z) (c : OnlineShip) (pkt : Mem)
    {record : List UInt8} (hsaved : s.saves.backups (nameKey pkt) = some record) :
    ∃ p, handleCbkupReq c pkt (cbkupReqAnswer z s.db (nameKey pkt).1 (nameKey pkt).2) =
      [(c.conn, p)] ∧ p.drop 20 = record := by
  obtain ⟨p, hp, hrecord⟩ := sendCdata_record (pkt.net32 8) 0xFFFFFFFF record (pkt.net32 12)
  refine ⟨p, ?_, hrecord⟩
  have hanswer : cbkupReqAnswer z s.db (nameKey pkt).1 (nameKey pkt).2 =
      lastSave (s.saves.backups (nameKey pkt)) := h.backup _ _
  rw [hanswer, hsaved]
  exact congrArg (sendTo c.conn) hp

/-! ## A backup that does not fit -/

/-- Compress zeros to their number. -/
def compressZeros (d : List UInt8) : Option (List UInt8) :=
  if d = List.replicate d.length 0 ∧ d.length < 65536 then
    some [.ofNat (d.length / 256), .ofNat d.length]
  else none

/-- As many zeros as the number says. What is behind it does not matter. -/
def uncompressZeros (c : List UInt8) (n : Nat) : Option (List UInt8) :=
  match c with
  | high :: low :: _ =>
      let count := 256 * high.toNat + low.toNat
      if count ≤ n then some (List.replicate count 0) else none
  | _ => none

theorem uncompress_compressZeros (d c : List UInt8) (n : Nat) (hc : compressZeros d = some c)
    (hn : d.length ≤ n) : uncompressZeros c n = some d := by
  unfold compressZeros at hc
  split_ifs at hc with hzeros
  obtain rfl := Option.some.inj hc
  have hcount : 256 * (UInt8.ofNat (d.length / 256)).toNat + (UInt8.ofNat d.length).toNat =
      d.length := by
    rw [UInt8.toNat_ofNat', UInt8.toNat_ofNat']
    omega
  unfold uncompressZeros
  dsimp only
  rw [hcount, if_pos hn, ← hzeros.1]

theorem length_uncompressZeros (c d : List UInt8) (n : Nat) (hd : uncompressZeros c n = some d) :
    d.length ≤ n := by
  unfold uncompressZeros at hd
  split at hd
  · dsimp only at hd
    split_ifs at hd with hle
    rw [← Option.some.inj hd, List.length_replicate]
    exact hle
  · cases hd

def zeroRuns : Codec UInt8 where
  compress := compressZeros
  uncompress := uncompressZeros
  inverts := uncompress_compressZeros
  fits := length_uncompressZeros

/-- A packet with a length and zeros. -/
def zeroPkt (high low : UInt8) : Mem := Mem.ofList [high, low]

theorem zeroPkt_bytes (high low : UInt8) {offset : Nat} (h : 2 ≤ offset) (n : Nat) :
    (zeroPkt high low).bytes offset n = List.replicate n 0 := by
  unfold Mem.bytes
  rw [List.eq_replicate_iff]
  refine ⟨by rw [List.length_map, List.length_range], fun b hb => ?_⟩
  obtain ⟨i, -, rfl⟩ := List.mem_map.mp hb
  have hpast : [high, low].length ≤ offset + i := Nat.le_trans h (Nat.le_add_right offset i)
  rw [zeroPkt, Mem.ofList, List.getD_eq_getElem?_getD, List.getElem?_eq_none hpast,
    Option.getD_none]

theorem zeroRuns_shorter {n : Nat} (hshort : 2 < n) (hlong : n < 65536) :
    zeroRuns.shorter (List.replicate n 0) = some [.ofNat (n / 256), .ofNat n] := by
  unfold Codec.shorter zeroRuns compressZeros
  dsimp only
  rw [List.length_replicate, if_pos ⟨rfl, hlong⟩, Option.filter_some, if_pos]
  exact decide_eq_true hshort

/-- A row for so many zeros has no room for more. -/
theorem zeroRuns_not_repacks {n m : Nat} (hn : 2 < n) (hlt : n < m) (hm : m < 65536) :
    ¬zeroRuns.Repacks (zeroRuns.pack (List.replicate n 0)) (List.replicate m 0) := by
  rw [Codec.pack, zeroRuns_shorter hn (by omega), Codec.Repacks,
    zeroRuns_shorter (by omega) hm, List.length_replicate]
  dsimp only
  rw [List.length_replicate]
  exact Nat.not_le.mpr hlt

/-- A backup of 1052 zeros, and then one of a Blue Burst character of zeros under the same
name: the row keeps the size 1052, and the second does not come out. -/
theorem not_returning_runs :
    ¬Run.Guarded (next zeroRuns) (Returning zeroRuns) .empty
      [.cbkup 11 (zeroPkt 0x04 0x4C), .cbkup 11 (zeroPkt 0x1E 0xFC)] := by
  rintro ⟨hfirst, hsecond, -⟩
  have hshort : charRecord (zeroPkt 0x04 0x4C) 48 = List.replicate 1052 0 := by
    have hlen : recordLen (bodyLen (zeroPkt 0x04 0x4C) 48) = 1052 := by decide
    rw [charRecord, zeroPkt_bytes _ _ (by decide), hlen]
  have hlong : charRecord (zeroPkt 0x1E 0xFC) 48 = List.replicate 7884 0 := by
    have hlen : recordLen (bodyLen (zeroPkt 0x1E 0xFC) 48) = 7884 := by decide
    rw [charRecord, zeroPkt_bytes _ _ (by decide), hlen]
  have hname : nameKey (zeroPkt 0x1E 0xFC) = nameKey (zeroPkt 0x04 0x4C) := by decide
  have hkind : cbkupKind 11 (zeroPkt 0x04 0x4C) = .save :=
    (if_neg (by decide)).trans (if_neg (by decide))
  have hkind' : cbkupKind 11 (zeroPkt 0x1E 0xFC) = .save :=
    (if_neg (by decide)).trans (if_neg (by decide))
  have hold : ((Storage.empty.next zeroRuns (.cbkup 11 (zeroPkt 0x04 0x4C))).db.characterBackup
      (nameKey (zeroPkt 0x1E 0xFC))) = some (zeroRuns.pack (List.replicate 1052 0)) := by
    rw [hname, ← hshort]
    exact next_cbkup_first hkind rfl
  have hstate : ReturnsLast zeroRuns
      (Storage.empty.next zeroRuns (.cbkup 11 (zeroPkt 0x04 0x4C))) := hfirst
  have hfitting := (returning_iff hstate (.cbkup 11 (zeroPkt 0x1E 0xFC))).mp hsecond
  rw [fitting_cbkup_iff hkind'] at hfitting
  have hbad := @zeroRuns_not_repacks 1052 7884 (by decide) (by decide) (by decide)
  rw [← hlong] at hbad
  generalize zeroRuns.pack (List.replicate 1052 0) = row at hold hbad
  exact hbad (hfitting row hold)

end Storage

end Sylverant.Shipgate
