/-
# The list of ships

The login server shows a client the ships of a menu code, out of the table of the ships that are
online, and behind them the other menu codes. There are three functions for it: they differ in
the ships that they leave out, in the size of an entry and in how a name gets into it.

The queries succeed. What they return is as SQL has it: the rows that match, sorted by the column
that is given, and each of the menu codes once.
-/

import Mathlib.Data.List.Dedup
import Sylverant.Library.Iconv
import Sylverant.Servers.ReadFromClient
import Sylverant.Shipgate.OnlineShips

namespace Sylverant.Login.ShipMenu

open Iconv
open Shipgate (field htonl)
open Servers (LoginType)
open Shipgate.OnlineShips (OnlineShip isalpha)

/-! ## Clients -/

def SYLVERANT_QUEST_V1 : Nat := 1

structure LoginClient where
  type : LoginType
  version : Nat
  isGm : BitVec 32

/-- `IS_GLOBAL_GM` -/
def LoginClient.isGlobalGm (c : LoginClient) : Bool := c.isGm &&& 0x02 ≠ 0

/-! ## Text -/

/-- The string in a column. -/
def cString (bytes : List UInt8) : List UInt8 := bytes.takeWhile (· ≠ 0)

/-- `%02X` -/
def format02X (n : Nat) : List UInt8 :=
  let digits := (Nat.toDigits 16 n).map fun d => UInt8.ofNat d.toUpper.toNat
  List.replicate (2 - digits.length) 48 ++ digits

/-- The two letters of a menu code. -/
def letters (menuCode : Nat) : List UInt8 := [.ofNat menuCode, .ofNat (menuCode / 256)]

/-- `SHIP/` -/
def ship : List UInt8 := [83, 72, 73, 80, 47]

/-- `US` -/
def us : List UInt8 := [85, 83]

/-- `Main` -/
def main : List UInt8 := [77, 97, 105, 110]

/-- `No Ships` -/
def noShipMsg : List UInt8 := [78, 111, 32, 83, 104, 105, 112, 115]

/-- The format `%02X:%c%c/%s`, or `%02X:%s` for the main menu. -/
def shipText (menuCode : Nat) (row : OnlineShip) : List UInt8 :=
  if menuCode ≠ 0 then
    format02X row.shipNumber ++ [58] ++ letters menuCode ++ [47] ++ cString row.name
  else format02X row.shipNumber ++ [58] ++ cString row.name

/-- `sprintf` to a buffer of a size, with the zero that it puts behind the text. -/
def sprintf (size : Nat) (text : List UInt8) : Option (List UInt8) :=
  if text.length < size then some text else none

/-! ## Packets -/

/-- An entry, with all bytes of its name. -/
structure Entry where
  menuId : Nat
  itemId : Nat
  flags : Nat
  name : List UInt8
deriving DecidableEq, Repr

/-- `BLOCK_LIST_TYPE` -/
def BLOCK_LIST_TYPE : Nat := 0x07

/-- A number of 16 bits, in the byte order of the games. -/
def le16 (n : Nat) : List UInt8 := [.ofNat n, .ofNat (n / 256)]

def le32 (n : Nat) : List UInt8 := le16 n ++ le16 (n / 65536)

/-- What one of the functions has of its own. -/
structure Layout where
  headerLen : Nat
  /-- The header with the number of entries and the length. -/
  header : Nat → Nat → List UInt8
  nameSize : Nat
  /-- The numbers that fit into the field for the number of entries. -/
  countSize : Nat
  /-- The buffer that names are formatted in, which has room for all but the names of ships. -/
  formatSize : Nat
  /-- How a text gets into an entry. -/
  name : List UInt8 → List UInt8
  /-- The name of the first entry. -/
  title : Nat → List UInt8
  room : 9 < formatSize
  /-- No list has just the length that the field for it does not have any more. -/
  not_full : ∀ n, headerLen + (10 + nameSize) * n ≠ 65536
  length_header : ∀ count len, (header count len).length = headerLen
  length_name : ∀ text, (name text).length = nameSize
  length_title : ∀ menuCode, (title menuCode).length = nameSize

/-- `sizeof(pkt->entries[0])` -/
def Layout.entrySize (L : Layout) : Nat := 10 + L.nameSize

/-- The packet that is sent. -/
structure Packet where
  pktLen : Nat
  count : Nat
  entries : List Entry
deriving DecidableEq, Repr

def Entry.bytes (e : Entry) : List UInt8 :=
  le32 e.menuId ++ le32 e.itemId ++ le16 e.flags ++ e.name

/-- What is written to the buffer. -/
def Packet.bytes (L : Layout) (p : Packet) : List UInt8 :=
  L.header p.count p.pktLen ++ p.entries.flatMap Entry.bytes

/-- The entries that were written, their number and the length that have been counted. -/
structure Building where
  entries : List Entry
  numShips : UInt32
  len : Nat

/-- Write the next entry. -/
def Building.put (L : Layout) (b : Building) (e : Entry) : Building where
  entries := b.entries ++ [e]
  numShips := b.numShips + 1
  len := b.len + L.entrySize

/-- The entry with the menu code itself. -/
def titleEntry (L : Layout) (menuCode : Nat) : Entry := ⟨0x00040000, 0, 0x0004, L.title menuCode⟩

def shipEntry (L : Layout) (menuCode : Nat) (row : OnlineShip) : Entry :=
  ⟨0x00000001, row.shipId, 0x0F04, L.name (shipText menuCode row)⟩

def codeText (code : Nat) : List UInt8 :=
  if code % 256 ≠ 0 ∧ code / 256 ≠ 0 then ship ++ letters code else ship ++ main

def codeEntry (L : Layout) (code : Nat) : Entry :=
  ⟨0x00000001 ||| (code <<< 8), 0, 0x0F04, L.name (codeText code)⟩

def noShipsEntry (L : Layout) : Entry := ⟨0xDEADBEEF, 0, 0, L.name noShipMsg⟩

/-- A row of the first query. -/
def addShip (L : Layout) (gm : Bool) (menuCode : Nat) (b : Building) (row : OnlineShip) :
    Option Building :=
  if !row.gmOnly || gm then
    (sprintf L.formatSize (shipText menuCode row)).map fun _ => b.put L (shipEntry L menuCode row)
  else some b

/-- Letters are in-bounds, and no letters at all. -/
def inBounds (code : Nat) : Bool :=
  !((decide (code % 256 ≠ 0) || decide (code / 256 ≠ 0)) &&
    (!isalpha (code % 256) || !isalpha (code / 256)))

/-- A row of the second query. -/
def addCode (L : Layout) (menuCode : Nat) (b : Building) (code : Nat) : Option Building :=
  if code = menuCode then some b
  else if inBounds code then
    (sprintf L.formatSize (codeText code)).map fun _ => b.put L (codeEntry L code)
  else some b

/-- Fill in the header, when there is something behind the first entry. -/
def finish (L : Layout) (b : Building) : Packet :=
  let b := if b.numShips = 1 then b.put L (noShipsEntry L) else b
  ⟨b.len % 65536, (b.numShips - 1).toNat % L.countSize, b.entries⟩

/-- The function that builds and sends the list, where nothing is written outside of a buffer. -/
def sendList (L : Layout) (gm : Bool) (menuCode : Nat) (rows : List OnlineShip)
    (codes : List Nat) : Option Packet := do
  let b : Building := ⟨[titleEntry L menuCode], 1, L.headerLen + L.entrySize⟩
  let b ← rows.foldlM (addShip L gm menuCode) b
  let b ← codes.foldlM (addCode L menuCode) b
  pure (finish L b)

/-! ## The three functions -/

theorem length_field_append (n : Nat) (a b : List UInt8) :
    (field n a ++ b).length = n + b.length := by
  rw [List.length_append, Shipgate.length_field]

/-- `send_ship_list_dc` formats a name in the entry itself. -/
def dcLayout : Layout where
  headerLen := 4
  header count len := [.ofNat BLOCK_LIST_TYPE, .ofNat count] ++ le16 len
  nameSize := 0x12
  countSize := 256
  formatSize := 0x12
  name text := field 0x12 text
  title menuCode := field 0x11 (ship ++ if menuCode ≠ 0 then letters menuCode else us) ++ [0x08]
  room := by decide
  not_full n := by omega
  length_header _ _ := rfl
  length_name := Shipgate.length_field 0x12
  length_title _ := length_field_append ..

/-- The name of an entry, in two bytes for a character. -/
def wideName (text : List UInt8) : List UInt8 :=
  field 0x22 (iconv fromUtf8 toUtf16 0x22 (cString text))

/-- Two bytes for each of the characters of the title. -/
def wideTitle (menuCode : Nat) : List UInt8 :=
  field 0x22 ((ship ++ if menuCode ≠ 0 then letters menuCode else us).flatMap fun b => [b, 0])

/-- `send_ship_list_pc` -/
def pcLayout : Layout where
  headerLen := 4
  header count len := le16 len ++ [.ofNat BLOCK_LIST_TYPE, .ofNat count]
  nameSize := 0x22
  countSize := 256
  formatSize := 18
  name := wideName
  title := wideTitle
  room := by decide
  not_full n := by omega
  length_header _ _ := rfl
  length_name _ := Shipgate.length_field ..
  length_title _ := Shipgate.length_field ..

/-- `send_ship_list_bb` -/
def bbLayout : Layout where
  headerLen := 8
  header count len := le16 len ++ le16 BLOCK_LIST_TYPE ++ le32 count
  nameSize := 0x22
  countSize := 2 ^ 32
  formatSize := 18
  name := wideName
  title := wideTitle
  room := by decide
  not_full n := by omega
  length_header _ _ := rfl
  length_name _ := Shipgate.length_field ..
  length_title _ := Shipgate.length_field ..

/-- The flags of the ships that are left out. -/
def dcFlags (c : LoginClient) : Nat :=
  match c.type with
  | .gc => 0x80
  | .ep3 => 0x100
  | .dcnte => 0x400
  | _ => if c.version = SYLVERANT_QUEST_V1 then 0x10 else 0x20

def pcFlags : Nat := 0x40

def bbFlags : Nat := 0x200

/-- The table, and what the two queries return. -/
structure Database where
  onlineShips : List OnlineShip
  menuCode_lt : ∀ row ∈ onlineShips, row.menuCode < 65536
  /-- The ships with a menu code, and without some flags. -/
  ships : Nat → Nat → List OnlineShip
  menuCodes : List Nat
  ships_perm : ∀ menuCode flags, List.Perm (ships menuCode flags)
    (onlineShips.filter fun row => row.menuCode = menuCode ∧ row.flags &&& flags = 0)
  ships_sorted : ∀ menuCode flags,
    (ships menuCode flags).Pairwise fun i j => i.shipNumber ≤ j.shipNumber
  codes_sorted : menuCodes.Pairwise (· < ·)
  mem_codes : ∀ code, code ∈ menuCodes ↔ ∃ row ∈ onlineShips, row.menuCode = code

def sendShipListDc (db : Database) (c : LoginClient) (menuCode : UInt16) : Option Packet :=
  sendList dcLayout c.isGlobalGm menuCode.toNat (db.ships menuCode.toNat (dcFlags c)) db.menuCodes

def sendShipListPc (db : Database) (c : LoginClient) (menuCode : UInt16) : Option Packet :=
  sendList pcLayout c.isGlobalGm menuCode.toNat (db.ships menuCode.toNat pcFlags) db.menuCodes

def sendShipListBb (db : Database) (c : LoginClient) (menuCode : UInt16) : Option Packet :=
  sendList bbLayout c.isGlobalGm menuCode.toNat (db.ships menuCode.toNat bbFlags) db.menuCodes

/-- What is sent, or that something was written outside of a buffer. -/
inductive Answer
  | refused
  | overrun
  | sent (p : Packet)
deriving DecidableEq, Repr

def Answer.ofOption : Option Packet → Answer
  | none => .overrun
  | some p => .sent p

def sendShipList (db : Database) (c : LoginClient) (menuCode : UInt16) : Answer :=
  match c.type with
  | .dcnte | .dc | .gc | .ep3 => .ofOption (sendShipListDc db c menuCode)
  | .pc => .ofOption (sendShipListPc db c menuCode)
  | .bbCharacter => .ofOption (sendShipListBb db c menuCode)
  | .bbLogin => .refused

/-! ## What the list should be -/

/-- The ships that a client gets to see. -/
def Visible (flags : Nat) (gm : Bool) (menuCode : Nat) (row : OnlineShip) : Prop :=
  row.menuCode = menuCode ∧ row.flags &&& flags = 0 ∧ (row.gmOnly = true → gm = true)

instance {flags : Nat} {gm : Bool} {menuCode : Nat} :
    DecidablePred (Visible flags gm menuCode) := fun _ => inferInstanceAs (Decidable (_ ∧ _))

/-- The other menu codes. -/
def Listed (table : List OnlineShip) (menuCode code : Nat) : Prop :=
  code ≠ menuCode ∧ inBounds code = true ∧ ∃ row ∈ table, row.menuCode = code

/-- The entries are those for the menu code, for the ships and for the other codes, and the header
is right. -/
def IsShipList (L : Layout) (flags : Nat) (gm : Bool) (menuCode : Nat) (table : List OnlineShip)
    (p : Packet) : Prop :=
  ∃ (ships : List OnlineShip) (codes : List Nat),
    ships.Perm (table.filter fun row => Visible flags gm menuCode row) ∧
    ships.Pairwise (fun i j => i.shipNumber ≤ j.shipNumber) ∧
    codes.Nodup ∧ (∀ code, code ∈ codes ↔ Listed table menuCode code) ∧
    p.entries = titleEntry L menuCode ::
      (if ships = [] ∧ codes = [] then [noShipsEntry L]
        else ships.map (shipEntry L menuCode) ++ codes.map (codeEntry L)) ∧
    p.count + 1 = p.entries.length ∧ p.pktLen = (p.bytes L).length

/-! ## The loops -/

variable {L : Layout} {gm : Bool} {menuCode : Nat}

/-- The rows of the first query that are shown. -/
def shown (gm : Bool) (rows : List OnlineShip) : List OnlineShip :=
  rows.filter fun row => !row.gmOnly || gm

/-- The rows of the second query that are shown. -/
def others (menuCode : Nat) (codes : List Nat) : List Nat :=
  codes.filter fun code => decide (code ≠ menuCode) && inBounds code

/-- The text of all names of ships fits into the buffer. -/
def Fits (L : Layout) (gm : Bool) (menuCode : Nat) (rows : List OnlineShip) : Prop :=
  ∀ row ∈ shown gm rows, (shipText menuCode row).length < L.formatSize

instance {rows : List OnlineShip} : Decidable (Fits L gm menuCode rows) :=
  inferInstanceAs (Decidable (∀ row ∈ _, _))

theorem addShips (rows : List OnlineShip) (b : Building) :
    rows.foldlM (addShip L gm menuCode) b =
      if Fits L gm menuCode rows then
        some (((shown gm rows).map (shipEntry L menuCode)).foldl (Building.put L) b)
      else none := by
  induction rows generalizing b with
  | nil => rfl
  | cons row rows ih =>
      rw [List.foldlM_cons, addShip]
      by_cases seen : (!row.gmOnly || gm) = true
      · have first : shown gm (row :: rows) = row :: shown gm rows := List.filter_cons_of_pos seen
        rw [if_pos seen, sprintf]
        by_cases fits : (shipText menuCode row).length < L.formatSize
        · have all : Fits L gm menuCode (row :: rows) ↔ Fits L gm menuCode rows := by
            rw [Fits, first, List.forall_mem_cons]
            exact and_iff_right fits
          rw [if_pos fits, first]
          simp only [all]
          exact ih _
        · have short : ¬Fits L gm menuCode (row :: rows) := by
            intro all
            rw [Fits, first] at all
            exact fits (all row List.mem_cons_self)
          rw [if_neg fits, if_neg short]
          rfl
      · have skipped : shown gm (row :: rows) = shown gm rows := List.filter_cons_of_neg seen
        rw [if_neg seen]
        simp only [Fits, skipped]
        exact ih b

theorem length_codeText (code : Nat) : (codeText code).length ≤ 9 := by
  rw [codeText]
  split
  · exact Nat.le_of_ble_eq_true rfl
  · exact Nat.le_refl 9

theorem addCodes (codes : List Nat) (b : Building) :
    codes.foldlM (addCode L menuCode) b =
      some (((others menuCode codes).map (codeEntry L)).foldl (Building.put L) b) := by
  induction codes generalizing b with
  | nil => rfl
  | cons code codes ih =>
      rw [List.foldlM_cons, addCode]
      by_cases same : code = menuCode
      · have skipped : others menuCode (code :: codes) = others menuCode codes :=
          List.filter_cons_of_neg (by
            rw [decide_eq_false (not_not.mpr same)]
            exact Bool.false_ne_true)
        rw [if_pos same, skipped]
        exact ih b
      · rw [if_neg same]
        by_cases good : inBounds code = true
        · have first : others menuCode (code :: codes) = code :: others menuCode codes :=
            List.filter_cons_of_pos (by rw [decide_eq_true same, good]; rfl)
          have fits : (codeText code).length < L.formatSize :=
            Nat.lt_of_le_of_lt (length_codeText code) L.room
          rw [if_pos good, sprintf, if_pos fits, first]
          exact ih _
        · have skipped : others menuCode (code :: codes) = others menuCode codes :=
            List.filter_cons_of_neg (by
              rw [Bool.eq_false_iff.mpr good, Bool.and_false]
              exact Bool.false_ne_true)
          rw [if_neg good, skipped]
          exact ih b

/-- All that is counted on the way. -/
theorem puts (es : List Entry) (b : Building) :
    es.foldl (Building.put L) b =
      ⟨b.entries ++ es, b.numShips + .ofNat es.length, b.len + L.entrySize * es.length⟩ := by
  induction es generalizing b with
  | nil =>
      rw [List.append_nil]
      show b = ⟨_, b.numShips + 0, b.len + 0⟩
      rw [UInt32.add_zero, Nat.add_zero]
  | cons e es ih =>
      rw [List.foldl_cons, ih, Building.put, List.length_cons, List.append_assoc]
      congr 1
      · rw [UInt32.add_assoc, UInt32.add_comm 1]
        exact congrArg (b.numShips + ·) (UInt32.ofNat_add es.length 1).symm
      · rw [Nat.mul_succ, Nat.add_assoc, Nat.add_comm L.entrySize]

/-- What the header gets, with some entries behind the first one. -/
theorem finish_eq (first : Entry) (es : List Entry) (few : es.length + 1 < 2 ^ 32) :
    finish L (es.foldl (Building.put L) ⟨[first], 1, L.headerLen + L.entrySize⟩) =
      let entries := first :: if es = [] then [noShipsEntry L] else es
      ⟨(L.headerLen + L.entrySize * entries.length) % 65536, (entries.length - 1) % L.countSize,
        entries⟩ := by
  rw [puts, finish]
  cases es with
  | nil =>
      have two : L.entrySize * 2 = L.entrySize + L.entrySize := Nat.mul_two _
      have one : (1 : UInt32) + .ofNat ([] : List Entry).length = 1 := rfl
      have count : ((1 : UInt32) + .ofNat ([] : List Entry).length + 1 - 1).toNat = 1 := by decide
      rw [if_pos one, if_pos rfl]
      dsimp only [Building.put]
      rw [count, List.length_nil, Nat.mul_zero, Nat.add_zero, Nat.add_assoc, ← two]
      rfl
  | cons e es =>
      have number : (UInt32.ofNat (e :: es).length).toNat = es.length + 1 := by
        rw [UInt32.toNat_ofNat', List.length_cons]
        exact Nat.mod_eq_of_lt (Nat.lt_of_succ_lt few)
      have more : ¬(1 : UInt32) + .ofNat (e :: es).length = 1 := by
        intro one
        have value := congrArg UInt32.toNat one
        rw [UInt32.toNat_add, number] at value
        rw [List.length_cons] at few
        change (1 + (es.length + 1)) % 2 ^ 32 = 1 at value
        omega
      have counted : (1 : UInt32) + .ofNat (e :: es).length - 1 = .ofNat (e :: es).length := by
        rw [UInt32.add_comm, UInt32.add_sub_cancel]
      have length : L.headerLen + L.entrySize + L.entrySize * (es.length + 1) =
          L.headerLen + L.entrySize * (es.length + 1 + 1) := by
        rw [Nat.mul_succ L.entrySize (es.length + 1)]
        omega
      rw [if_neg more, if_neg (List.cons_ne_nil e es)]
      dsimp only
      rw [counted, number, List.length_cons, length]
      rfl

/-- The entries for some ships and codes. -/
def listEntries (L : Layout) (menuCode : Nat) (ships : List OnlineShip) (codes : List Nat) :
    List Entry :=
  titleEntry L menuCode ::
    (if ships = [] ∧ codes = [] then [noShipsEntry L]
      else ships.map (shipEntry L menuCode) ++ codes.map (codeEntry L))

theorem length_listEntries (L : Layout) (menuCode : Nat) (ships : List OnlineShip)
    (codes : List Nat) :
    (listEntries L menuCode ships codes).length = 1 + max 1 (ships.length + codes.length) := by
  rw [listEntries, List.length_cons]
  split
  · rename_i empty
    rw [empty.1, empty.2]
    rfl
  · rename_i some
    have one : 1 ≤ ships.length + codes.length := by
      by_contra zero
      exact some ⟨List.length_eq_zero_iff.mp (by omega), List.length_eq_zero_iff.mp (by omega)⟩
    rw [List.length_append, List.length_map, List.length_map, Nat.max_eq_right one, Nat.add_comm]

/-- The list fits into the buffer. -/
def InBuffer (L : Layout) (ships : List OnlineShip) (codes : List Nat) : Prop :=
  L.headerLen + L.entrySize * (1 + max 1 (ships.length + codes.length)) ≤ 65536

theorem sendList_eq {rows : List OnlineShip} {codes : List Nat}
    (hbuf : InBuffer L (shown gm rows) (others menuCode codes)) :
    sendList L gm menuCode rows codes =
      if Fits L gm menuCode rows then
        let entries := listEntries L menuCode (shown gm rows) (others menuCode codes)
        some ⟨L.headerLen + L.entrySize * entries.length, (entries.length - 1) % L.countSize,
          entries⟩
      else none := by
  by_cases fits : Fits L gm menuCode rows
  · have most := hbuf
    rw [InBuffer] at most
    have size : 10 ≤ L.entrySize := Nat.le_add_right 10 _
    have few : 10 * (1 + max 1 ((shown gm rows).length + (others menuCode codes).length)) ≤
        65536 :=
      Nat.le_trans (Nat.mul_le_mul_right _ size) (Nat.le_trans (Nat.le_add_left _ _) most)
    have short : L.headerLen +
        L.entrySize * (1 + max 1 ((shown gm rows).length + (others menuCode codes).length)) <
        65536 := Nat.lt_of_le_of_ne most (L.not_full _)
    have finished := @finish_eq L (titleEntry L menuCode)
      ((shown gm rows).map (shipEntry L menuCode) ++ (others menuCode codes).map (codeEntry L))
      (by rw [List.length_append, List.length_map, List.length_map]; omega)
    have entries : (titleEntry L menuCode :: if (shown gm rows).map (shipEntry L menuCode) ++
        (others menuCode codes).map (codeEntry L) = [] then [noShipsEntry L]
        else (shown gm rows).map (shipEntry L menuCode) ++
          (others menuCode codes).map (codeEntry L)) =
        listEntries L menuCode (shown gm rows) (others menuCode codes) := by
      simp only [listEntries, List.append_eq_nil_iff, List.map_eq_nil_iff]
    rw [List.foldl_append, entries] at finished
    dsimp only at finished
    rw [length_listEntries, Nat.mod_eq_of_lt short] at finished
    rw [sendList, addShips, if_pos fits, if_pos fits]
    simp only [Option.bind_eq_bind, Option.bind_some, addCodes, finished, length_listEntries]
    rfl
  · rw [sendList, addShips, if_neg fits, if_neg fits]
    rfl

/-! ## The packet -/

theorem length_bytes {e : Entry} (h : e.name.length = L.nameSize) :
    e.bytes.length = L.entrySize := by
  rw [Entry.bytes, List.length_append, h]
  rfl

theorem name_listEntries {ships : List OnlineShip} {codes : List Nat} {e : Entry}
    (h : e ∈ listEntries L menuCode ships codes) : e.name.length = L.nameSize := by
  rcases List.mem_cons.mp h with rfl | h
  · exact L.length_title menuCode
  · split at h
    · rw [List.mem_singleton.mp h]
      exact L.length_name _
    · rcases List.mem_append.mp h with h | h
      · obtain ⟨row, -, rfl⟩ := List.mem_map.mp h
        exact L.length_name _
      · obtain ⟨code, -, rfl⟩ := List.mem_map.mp h
        exact L.length_name _

theorem length_entries {es : List Entry} (h : ∀ e ∈ es, e.name.length = L.nameSize) :
    (es.flatMap Entry.bytes).length = L.entrySize * es.length := by
  induction es with
  | nil => rfl
  | cons e es ih =>
      rw [List.flatMap_cons, List.length_append, length_bytes (h e List.mem_cons_self),
        ih fun x hx => h x (List.mem_cons_of_mem e hx), List.length_cons, Nat.mul_succ,
        Nat.add_comm]

/-- What a client is shown of the rows that are returned for it. -/
theorem shown_perm (db : Database) (flags : Nat) :
    (shown gm (db.ships menuCode flags)).Perm
      (db.onlineShips.filter fun row => Visible flags gm menuCode row) := by
  have rows := (db.ships_perm menuCode flags).filter fun row => !row.gmOnly || gm
  have both : (db.onlineShips.filter fun row => Visible flags gm menuCode row) =
      (db.onlineShips.filter fun row =>
        decide (row.menuCode = menuCode ∧ row.flags &&& flags = 0)).filter
          fun row => !row.gmOnly || gm := by
    rw [List.filter_filter]
    apply List.filter_congr
    intro row _
    rw [Bool.eq_iff_iff, Bool.and_eq_true, decide_eq_true_iff, decide_eq_true_iff, Visible]
    cases row.gmOnly <;> cases gm <;> simp
  rw [both]
  exact rows

theorem mem_shown (db : Database) (flags : Nat) (row : OnlineShip) :
    row ∈ shown gm (db.ships menuCode flags) ↔
      row ∈ db.onlineShips ∧ Visible flags gm menuCode row := by
  rw [(shown_perm db flags).mem_iff, List.mem_filter, decide_eq_true_iff]

theorem mem_others (db : Database) (code : Nat) :
    code ∈ others menuCode db.menuCodes ↔ Listed db.onlineShips menuCode code := by
  rw [others, List.mem_filter, db.mem_codes, Bool.and_eq_true, decide_eq_true_iff, Listed]
  constructor
  · rintro ⟨used, other, good⟩
    exact ⟨other, good, used⟩
  · rintro ⟨other, good, used⟩
    exact ⟨used, other, good⟩

/-- The entries that are written are those that the list should have. The header is right exactly
if the number fits into its field. -/
theorem isShipList_iff (db : Database) (flags : Nat) :
    let entries := listEntries L menuCode (shown gm (db.ships menuCode flags))
      (others menuCode db.menuCodes)
    IsShipList L flags gm menuCode db.onlineShips
      ⟨L.headerLen + L.entrySize * entries.length, (entries.length - 1) % L.countSize, entries⟩ ↔
      (entries.length - 1) % L.countSize = entries.length - 1 := by
  intro entries
  have some : 1 ≤ entries.length := by
    rw [length_listEntries]
    exact Nat.le_add_right 1 _
  constructor
  · rintro ⟨ships, codes, -, -, -, -, -, count, -⟩
    change (entries.length - 1) % L.countSize + 1 = entries.length at count
    omega
  · intro count
    refine ⟨_, _, shown_perm db flags, (db.ships_sorted _ _).filter _, ?_, mem_others db, rfl,
      ?_, ?_⟩
    · exact (db.codes_sorted.imp Nat.ne_of_lt).filter _
    · dsimp only
      omega
    · have names : ∀ e ∈ entries, e.name.length = L.nameSize := fun e h => name_listEntries h
      rw [Packet.bytes, List.length_append, L.length_header, length_entries names]

/-! ## The answer -/

def layoutOf (type : LoginType) : Layout :=
  match type with
  | .pc => pcLayout
  | .bbCharacter => bbLayout
  | _ => dcLayout

def flagsOf (c : LoginClient) : Nat :=
  match c.type with
  | .pc => pcFlags
  | .bbCharacter => bbFlags
  | _ => dcFlags c

/-- The ships and the menu codes that are in the list. -/
def shipsFor (db : Database) (c : LoginClient) (menuCode : UInt16) : List OnlineShip :=
  shown c.isGlobalGm (db.ships menuCode.toNat (flagsOf c))

def codesFor (db : Database) (menuCode : UInt16) : List Nat := others menuCode.toNat db.menuCodes

theorem sendShipList_eq (db : Database) {c : LoginClient} (menuCode : UInt16)
    (hc : c.type ≠ .bbLogin) :
    sendShipList db c menuCode = .ofOption (sendList (layoutOf c.type) c.isGlobalGm
      menuCode.toNat (db.ships menuCode.toNat (flagsOf c)) db.menuCodes) := by
  rw [sendShipList, flagsOf]
  cases type : c.type with
  | bbLogin => exact absurd type hc
  | _ => rfl

theorem length_format02X {n : Nat} (h : n < 256) : (format02X n).length = 2 := by
  have all : ∀ n : Fin 256, (format02X n).length = 2 := by decide +kernel
  exact all ⟨n, h⟩

/-- Only the longest names behind two letters are too long. -/
theorem length_shipText {row : OnlineShip} (hname : row.name.length ≤ 12)
    (hnumber : row.shipNumber < 256) :
    (shipText menuCode row).length < 18 ↔ menuCode = 0 ∨ (cString row.name).length < 12 := by
  have most : (cString row.name).length ≤ 12 :=
    Nat.le_trans (List.takeWhile_prefix _).length_le hname
  have two := length_format02X hnumber
  rw [shipText]
  by_cases first : menuCode = 0
  · rw [if_neg (not_not.mpr first), List.length_append, List.length_append, two,
      List.length_singleton]
    exact ⟨fun _ => .inl first, fun _ => by omega⟩
  · rw [if_pos first]
    simp only [List.length_append, two, letters, List.length_cons, List.length_nil]
    omega

theorem formatSize_layoutOf (type : LoginType) : (layoutOf type).formatSize = 18 := by
  cases type with
  | _ => rfl

/-- The names that fit. -/
theorem fits_iff (db : Database) (c : LoginClient) (menuCode : UInt16)
    (hnames : ∀ row ∈ db.onlineShips, row.name.length ≤ 12)
    (hnumbers : ∀ row ∈ db.onlineShips, row.shipNumber < 256) :
    Fits (layoutOf c.type) c.isGlobalGm menuCode.toNat
        (db.ships menuCode.toNat (flagsOf c)) ↔
      menuCode = 0 ∨ ∀ row ∈ db.onlineShips,
        Visible (flagsOf c) c.isGlobalGm menuCode.toNat row → (cString row.name).length < 12 := by
  have zero : menuCode = 0 ↔ menuCode.toNat = 0 := UInt16.toNat_inj.symm
  rw [Fits, formatSize_layoutOf, zero]
  constructor
  · intro fits
    by_cases main : menuCode.toNat = 0
    · exact .inl main
    · right
      intro row hrow visible
      have short := fits row ((mem_shown db _ row).mpr ⟨hrow, visible⟩)
      rw [length_shipText (hnames row hrow) (hnumbers row hrow)] at short
      exact short.resolve_left main
  · intro short row hrow
    obtain ⟨inside, visible⟩ := (mem_shown db _ row).mp hrow
    rw [length_shipText (hnames row inside) (hnumbers row inside)]
    exact short.imp_right fun all => all row inside visible

/-- The numbers of entries that fit. -/
theorem count_iff {type : LoginType} {n : Nat} (few : n < 2 ^ 32) :
    max 1 n % (layoutOf type).countSize = max 1 n ↔ type = .bbCharacter ∨ n < 256 := by
  by_cases bb : type = .bbCharacter
  · have big : (layoutOf type).countSize = 2 ^ 32 := by
      rw [bb]
      rfl
    rw [big]
    exact ⟨fun _ => .inl bb, fun _ => Nat.mod_eq_of_lt (by omega)⟩
  · have byte : (layoutOf type).countSize = 256 := by
      cases type with
      | bbCharacter => exact absurd rfl bb
      | _ => rfl
    rw [byte, or_iff_right bb]
    omega

/-- The list is as it should be exactly if no ship that is shown behind two letters has a name of
twelve bytes, and the number of entries fits into the header: there it has one byte, except for
Blue Burst. -/
theorem ship_list_iff (db : Database) (c : LoginClient) (menuCode : UInt16)
    (hc : c.type ≠ .bbLogin) (hnames : ∀ row ∈ db.onlineShips, row.name.length ≤ 12)
    (hnumbers : ∀ row ∈ db.onlineShips, row.shipNumber < 256)
    (hbuf : InBuffer (layoutOf c.type) (shipsFor db c menuCode) (codesFor db menuCode)) :
    (∃ p, sendShipList db c menuCode = .sent p ∧ IsShipList (layoutOf c.type) (flagsOf c)
      c.isGlobalGm menuCode.toNat db.onlineShips p) ↔
      (menuCode = 0 ∨ ∀ row ∈ db.onlineShips,
        Visible (flagsOf c) c.isGlobalGm menuCode.toNat row → (cString row.name).length < 12) ∧
      (c.type = .bbCharacter ∨
        (shipsFor db c menuCode).length + (codesFor db menuCode).length < 256) := by
  have few : (shipsFor db c menuCode).length + (codesFor db menuCode).length < 2 ^ 32 := by
    have size : 10 ≤ (layoutOf c.type).entrySize := Nat.le_add_right 10 _
    have most := Nat.le_trans (Nat.mul_le_mul_right _ size)
      (Nat.le_trans (Nat.le_add_left _ _) hbuf)
    omega
  have number := @count_iff c.type _ few
  have right := @isShipList_iff (layoutOf c.type) c.isGlobalGm menuCode.toNat db (flagsOf c)
  dsimp only at right
  rw [length_listEntries, Nat.add_sub_cancel_left] at right
  rw [sendShipList_eq db menuCode hc, sendList_eq hbuf, ← fits_iff db c menuCode hnames hnumbers,
    ← number]
  by_cases fits : Fits (layoutOf c.type) c.isGlobalGm menuCode.toNat
      (db.ships menuCode.toNat (flagsOf c))
  · rw [if_pos fits, and_iff_right fits, shipsFor, codesFor, ← right]
    dsimp only
    rw [length_listEntries, Nat.add_sub_cancel_left]
    constructor
    · rintro ⟨p, sent, good⟩
      rw [Answer.ofOption] at sent
      rw [Answer.sent.inj sent]
      exact good
    · intro good
      exact ⟨_, rfl, good⟩
  · rw [if_neg fits]
    constructor
    · rintro ⟨p, sent, -⟩
      cases sent
    · rintro ⟨fits', -⟩
      exact absurd fits' fits

/-- One ship is online, with a menu code of two letters. -/
def alone (name : List UInt8) : Database :=
  let row : OnlineShip :=
    { name := name, players := 0, ip := 0, port := 0, intIp := 0, shipId := 1, gmOnly := false,
      games := 0, menuCode := 0x4241, flags := 0, shipNumber := 7, shipIp6 := (0, 0),
      protocolVer := 13 }
  { onlineShips := [row]
    menuCode_lt := fun r h => by
      rw [List.mem_singleton.mp h]
      exact Nat.le_of_ble_eq_true rfl
    ships := fun menuCode flags =>
      [row].filter fun row => row.menuCode = menuCode ∧ row.flags &&& flags = 0
    menuCodes := [0x4241]
    ships_perm := fun _ _ => List.Perm.refl _
    ships_sorted := fun _ _ => (List.pairwise_singleton _ row).filter _
    codes_sorted := List.pairwise_singleton _ _
    mem_codes := fun code => by
      constructor
      · intro h
        exact ⟨row, List.mem_singleton_self row, (List.mem_singleton.mp h).symm⟩
      · rintro ⟨r, h, rfl⟩
        rw [List.mem_singleton.mp h]
        exact List.mem_singleton_self _ }

/-- A short name. -/
theorem ship_list_sample :
    let db := alone [83, 111, 110, 105, 99]
    let c : LoginClient := ⟨.pc, 2, 0⟩
    (c.type ≠ .bbLogin ∧ (∀ row ∈ db.onlineShips, row.name.length ≤ 12) ∧
      (∀ row ∈ db.onlineShips, row.shipNumber < 256) ∧
      InBuffer (layoutOf c.type) (shipsFor db c 0x4241) (codesFor db 0x4241)) ∧
    ((∃ p, sendShipList db c 0x4241 = .sent p ∧ IsShipList (layoutOf c.type) (flagsOf c)
      c.isGlobalGm (0x4241 : UInt16).toNat db.onlineShips p) ↔
      ((0x4241 : UInt16) = 0 ∨ ∀ row ∈ db.onlineShips,
        Visible (flagsOf c) c.isGlobalGm (0x4241 : UInt16).toNat row →
          (cString row.name).length < 12) ∧
      (c.type = .bbCharacter ∨
        (shipsFor db c 0x4241).length + (codesFor db 0x4241).length < 256)) := by
  intro db c
  have type : c.type ≠ .bbLogin := by decide
  have names : ∀ row ∈ db.onlineShips, row.name.length ≤ 12 := by decide
  have numbers : ∀ row ∈ db.onlineShips, row.shipNumber < 256 := by decide
  have buffer : InBuffer (layoutOf c.type) (shipsFor db c 0x4241) (codesFor db 0x4241) :=
    Nat.le_of_ble_eq_true (by decide +kernel)
  exact ⟨⟨type, names, numbers, buffer⟩, ship_list_iff db c 0x4241 type names numbers buffer⟩

/-- The name of a ship has twelve bytes, and its text with the zero behind it has one byte too
many for the buffer. -/
theorem long_name_overruns :
    ¬∀ (db : Database) (c : LoginClient) (menuCode : UInt16), c.type ≠ .bbLogin →
      (∀ row ∈ db.onlineShips, row.name.length ≤ 12) →
      (∀ row ∈ db.onlineShips, row.shipNumber < 256) →
      InBuffer (layoutOf c.type) (shipsFor db c menuCode) (codesFor db menuCode) →
      ∃ p, sendShipList db c menuCode = .sent p ∧ IsShipList (layoutOf c.type) (flagsOf c)
        c.isGlobalGm menuCode.toNat db.onlineShips p := by
  intro claim
  obtain ⟨p, sent, -⟩ := claim (alone (List.replicate 12 83)) ⟨.pc, 2, 0⟩ 0x4241 (by decide)
    (by decide) (by decide) (Nat.le_of_ble_eq_true (by decide +kernel))
  have overrun : sendShipList (alone (List.replicate 12 83)) ⟨.pc, 2, 0⟩ 0x4241 = .overrun := by
    decide +kernel
  rw [overrun] at sent
  cases sent

end Sylverant.Login.ShipMenu
