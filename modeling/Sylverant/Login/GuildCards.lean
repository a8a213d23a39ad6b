/-
# Guild card data

A Blue Burst client asks the login server for its guild cards, and then for the data in chunks, in
any order and with any numbers. The data stays with the connection until the client asks for its
guild cards again.

What is in the database is what its queries answer when a request comes. A number in a row is what
`strtoul` makes of it, and no column is `NULL`.
-/

import Sylverant.Library.Bounded
import Sylverant.Library.Pieces
import Sylverant.Library.Run
import Sylverant.Servers.Checksum

namespace Sylverant.Login.GuildCards

open Bounded (Buf)
open Pieces (piece)
open Servers (crc32)

/-! ## The data -/

/-- What `blocked` and `entries` of `bb_gc_data_t` have in common. -/
structure Card where
  guildcard : UInt32 := 0
  name : List UInt8 := []
  team : List UInt8 := []
  desc : List UInt8 := []
  reserved1 : UInt8 := 0
  language : UInt8 := 0
  sectionId : UInt8 := 0
  chClass : UInt8 := 0

/-- An element of `entries`. -/
structure Entry extends Card where
  comment : List UInt8 := []

/-- `bb_gc_data_t` -/
structure GcData where
  blocked : Buf Card 29
  entries : Buf Entry 104

/-- The `memset` of the data. -/
def GcData.clear : GcData where
  blocked := Bounded.full 29 {}
  entries := Bounded.full 104 {}

/-- A field of `n` cleared bytes, with what `memcpy` puts there. -/
def field (n : Nat) (src : List UInt8) : List UInt8 :=
  src.take n ++ List.replicate (n - src.length) 0

/-- A number as it is sent. -/
def le32 (x : UInt32) : List UInt8 :=
  [x.toUInt8, (x >>> 8).toUInt8, (x >>> 16).toUInt8, (x >>> 24).toUInt8]

/-- The bytes of an element of `blocked`. -/
def Card.bytes (c : Card) : List UInt8 :=
  le32 c.guildcard ++ field 48 c.name ++ field 32 c.team ++ field 176 c.desc ++
    [c.reserved1, c.language, c.sectionId, c.chClass]

/-- The bytes of an element of `entries`. -/
def Entry.bytes (e : Entry) : List UInt8 :=
  e.toCard.bytes ++ List.replicate 4 0 ++ field 176 e.comment

/-- The bytes of the data. -/
def GcData.bytes (d : GcData) : List UInt8 :=
  List.replicate 0x0114 0 ++ d.blocked.val.flatMap Card.bytes ++ List.replicate 0x78 0 ++
    d.entries.val.flatMap Entry.bytes ++ List.replicate 0x01BC 0

/-- `sizeof(bb_gc_data_t)` -/
def gcDataSize : Nat := 54672

/-! ## The code -/

/-- A row of `blueburst_blacklist`. -/
structure Row where
  gc : Nat
  name : List UInt8
  teamName : List UInt8
  text : List UInt8
  language : Nat
  sectionId : Nat
  chClass : Nat

/-- A row of `blueburst_guildcards`. -/
structure CardRow extends Row where
  comment : List UInt8

/-- What the loops write for a row. -/
def Row.card (r : Row) : Card where
  guildcard := r.gc.toUInt32
  name := r.name
  team := r.teamName
  desc := r.text
  reserved1 := 1
  language := r.language.toUInt8
  sectionId := r.sectionId.toUInt8
  chClass := r.chClass.toUInt8

/-- What the first loop writes. -/
def CardRow.entry (r : CardRow) : Entry := { r.toRow.card with comment := r.comment }

/-- The loops of `handle_guild_request`. -/
def fill {α β : Type} {n : Nat} (f : α → β) : List α → Nat → Buf β n → Option (Buf β n)
  | [], _, b => some b
  | row :: rows, i, b =>
      if i < n then (Bounded.write b i [f row]).bind (fill f rows (i + 1)) else some b

/-- What comes of a request. -/
inductive Reply
  /-- Nothing is sent. -/
  | nothing (rv : Int)
  /-- `bb_guildcard_hdr_pkt` -/
  | header (len : UInt16) (checksum : UInt32)
  /-- `bb_guildcard_chunk_pkt` -/
  | chunk (number : UInt32) (data : List UInt8)
  /-- Something outside the data is read. -/
  | outside
  deriving DecidableEq

/-- `send_bb_guild_header` -/
def sendBbGuildHeader (checksum : UInt32) : Reply := .header gcDataSize.toUInt16 checksum

/-- `send_bb_guild_chunk`, for the data that the connection has. -/
def sendBbGuildChunk (gcData : Option GcData) (chunk : UInt32) : Reply :=
  let offset := chunk * 0x6800
  let size : UInt16 := (gcDataSize.toUInt64 - offset.toUInt64).toUInt16
  if offset.toNat > gcDataSize then .nothing (-1)
  else
    let size := if size > 0x6800 then 0x6800 else size
    match gcData with
    | none => .outside
    | some d =>
        if offset.toNat + size.toNat ≤ gcDataSize then
          .chunk chunk ((d.bytes.drop offset.toNat).take size.toNat)
        else .outside

/-- A request of a client, with what the server finds. -/
inductive Request
  /-- A request for the guild cards. The queries may fail, and so may the allocation of the
  data. -/
  | guild (alloc : Bool) (cards : Option (List CardRow)) (blocked : Option (List Row))
  /-- A request for a chunk. -/
  | chunk (number cont : UInt32)

/-- `handle_guild_request` -/
def handleGuildRequest (gcData : Option GcData) (alloc : Bool) (cards : Option (List CardRow))
    (blocked : Option (List Row)) : Option GcData × Reply :=
  if gcData.isNone ∧ !alloc then (none, .nothing (-1))
  else
    let d := GcData.clear
    match cards with
    | none => (some d, .nothing (-1))
    | some rows =>
        match fill CardRow.entry rows 0 d.entries with
        | none => (some d, .outside)
        | some entries =>
            let d := { d with entries := entries }
            match blocked with
            | none => (some d, .nothing (-1))
            | some rows =>
                match fill Row.card rows 0 d.blocked with
                | none => (some d, .outside)
                | some cells =>
                    let d := { d with blocked := cells }
                    (some d, sendBbGuildHeader (crc32 d.bytes))

/-- `handle_guild_chunk` -/
def handleGuildChunk (gcData : Option GcData) (number cont : UInt32) : Reply :=
  if cont ≠ 0 then sendBbGuildChunk gcData number else .nothing 0

/-- A connection: the data that the latest request for guild cards prepared, and whether such a
request was answered yet. -/
structure Connection where
  gcData : Option GcData := none
  answered : Bool := false

/-- Whether the reply is the header. -/
def Reply.isHeader : Reply → Bool
  | .header _ _ => true
  | _ => false

/-- A request, and its reply. -/
def Connection.handle (w : Connection) : Request → Connection × Reply
  | .guild alloc cards blocked =>
      let result := handleGuildRequest w.gcData alloc cards blocked
      ({ gcData := result.1, answered := w.answered || result.2.isHeader }, result.2)
  | .chunk number cont => (w, handleGuildChunk w.gcData number cont)

/-- The connection after a request. -/
def Connection.next (w : Connection) (r : Request) : Connection := (w.handle r).1

/-! ## What the replies should be -/

/-- The cells that are filled from a query, in its order and as far as they go. -/
def Filled {α β : Type} {n : Nat} (f : α → β) (rows : List α) (empty : β) (b : Buf β n) : Prop :=
  b.val = (rows.take n).map f ++ List.replicate (n - rows.length) empty

/-- A request for the guild cards that is answered announces the data, which its chunks are. -/
def Announces (w' : Connection) (cards : Option (List CardRow)) (blocked : Option (List Row))
    (len : UInt16) (checksum : UInt32) : Prop :=
  ∃ d rows rows', w'.gcData = some d ∧ cards = some rows ∧ blocked = some rows' ∧
    Filled CardRow.entry rows {} d.entries ∧ Filled Row.card rows' {} d.blocked ∧
    d.bytes.length = gcDataSize ∧ len.toNat = gcDataSize ∧ checksum = crc32 d.bytes ∧
    ∃ datas : List (List UInt8), datas.flatten = d.bytes ∧
      ∀ (number cont : UInt32) (data : List UInt8), cont ≠ 0 →
        datas[number.toNat]? = some data → (w'.handle (.chunk number cont)).2 = .chunk number data

/-- The law for a request on a connection. -/
def Exact (w : Connection) (r : Request) : Prop :=
  (w.handle r).2 ≠ .outside ∧
    match r with
    | .guild _ cards blocked =>
        ∀ len checksum, (w.handle r).2 = .header len checksum →
          Announces (w.next r) cards blocked len checksum
    | .chunk number cont => cont ≠ 0 →
        ((∃ k data, (w.handle r).2 = .chunk k data) ↔
          w.answered ∧ 0x6800 * number.toNat < gcDataSize) ∧
        ∀ k data, (w.handle r).2 = .chunk k data → k = number ∧
          ∃ d, w.gcData = some d ∧ data = piece 0x6800 d.bytes number.toNat

/-- A request for a chunk comes after an answer to a request for the guild cards, and its number
does not wrap around to a place in the data. -/
def Proper (w : Connection) : Request → Prop
  | .guild _ _ _ => True
  | .chunk number cont => cont ≠ 0 → (number * 0x6800).toNat ≤ gcDataSize →
      w.answered ∧ 0x6800 * number.toNat < gcDataSize

/-! ## Sizes -/

theorem length_field (n : Nat) (src : List UInt8) : (field n src).length = n := by
  rw [field, List.length_append, List.length_take, List.length_replicate]
  omega

theorem length_card (c : Card) : c.bytes.length = 264 := by
  rw [Card.bytes]
  simp only [List.length_append, length_field]
  rfl

theorem length_entry (e : Entry) : e.bytes.length = 444 := by
  rw [Entry.bytes]
  simp only [List.length_append, length_field, length_card, List.length_replicate]

theorem length_flatMap_const {α β : Type} {n m : Nat} {f : α → List β} (h : ∀ a, (f a).length = m)
    (b : Buf α n) : (b.val.flatMap f).length = n * m := by
  rw [List.length_flatMap, List.map_congr_left (fun a _ => h a), List.map_const', b.property,
    List.sum_replicate_nat]

/-- The data has the size that the code says. -/
theorem length_bytes (d : GcData) : d.bytes.length = gcDataSize := by
  rw [GcData.bytes]
  simp only [List.length_append, List.length_replicate, length_flatMap_const length_card,
    length_flatMap_const length_entry]
  rfl

/-! ## Filling the data -/

/-- The loop fills the cells from some place on, as long as there are rows and cells. -/
theorem fill_from {α β : Type} {n : Nat} {f : α → β} {rows : List α} {i : Nat} {b : Buf β n}
    {before : List β} {empty : β} (hi : before.length = i) (inside : i ≤ n)
    (hb : b.val = before ++ List.replicate (n - i) empty) :
    ∃ b', fill f rows i b = some b' ∧
      b'.val = before ++
        ((rows.take (n - i)).map f ++ List.replicate (n - i - rows.length) empty) := by
  induction rows generalizing i b before with
  | nil =>
      refine ⟨b, rfl, ?_⟩
      rw [List.take_nil, List.map_nil, List.nil_append, List.length_nil, Nat.sub_zero]
      exact hb
  | cons row rows ih =>
      by_cases room : i < n
      · have next : n - i = (n - (i + 1)) + 1 := by omega
        have here : b.val = before ++ ([empty] ++ List.replicate (n - (i + 1)) empty) := by
          rw [hb, next, List.replicate_succ]
          rfl
        obtain ⟨c, written, hc⟩ := Bounded.write_middle (s := [f row]) here hi rfl
        have length : (before ++ [f row]).length = i + 1 := by
          rw [List.length_append, hi, List.length_singleton]
        rw [← List.append_assoc] at hc
        obtain ⟨b', filled, hb'⟩ := ih length (by omega) hc
        refine ⟨b', ?_, ?_⟩
        · rw [fill, if_pos room, written]
          exact filled
        · have short : n - (i + 1) + 1 - (rows.length + 1) = n - (i + 1) - rows.length := by omega
          rw [hb', next, List.take_succ_cons, List.map_cons, List.length_cons, short,
            List.append_assoc]
          rfl
      · have full : n - i = 0 := by omega
        refine ⟨b, ?_, ?_⟩
        · rw [fill, if_neg room]
        · rw [hb, full, Nat.zero_sub]
          rfl

/-- All cells are filled in the order of the rows. -/
theorem fill_filled {α β : Type} (n : Nat) (f : α → β) (rows : List α) (empty : β) :
    ∃ b : Buf β n, fill f rows 0 (Bounded.full n empty) = some b ∧ Filled f rows empty b := by
  obtain ⟨b, filled, hb⟩ := @fill_from α β n f rows 0 (Bounded.full n empty) [] empty rfl
    (Nat.zero_le _) rfl
  exact ⟨b, filled, hb⟩

/-! ## Chunks -/

variable {w : Connection} {number cont : UInt32}

/-- How much is sent from a place in the data. -/
theorem toNat_size {offset : UInt32} (h : offset.toNat ≤ gcDataSize) :
    let size : UInt16 := (gcDataSize.toUInt64 - offset.toUInt64).toUInt16
    (if size > 0x6800 then 0x6800 else size).toNat = min 0x6800 (gcDataSize - offset.toNat) := by
  have le : offset.toUInt64 ≤ gcDataSize.toUInt64 := by
    rw [UInt64.le_iff_toNat_le]
    exact h
  have size : (gcDataSize.toUInt64 - offset.toUInt64).toUInt16.toNat =
      gcDataSize - offset.toNat := by
    rw [UInt64.toNat_toUInt16, UInt64.toNat_sub_of_le _ _ le]
    exact Nat.mod_eq_of_lt (Nat.lt_of_le_of_lt (Nat.sub_le _ _) (by decide))
  dsimp only
  by_cases large : (gcDataSize.toUInt64 - offset.toUInt64).toUInt16 > 0x6800
  · have more : 0x6800 < gcDataSize - offset.toNat := by
      rw [← size]
      exact large
    rw [if_pos large, Nat.min_eq_left (Nat.le_of_lt more)]
    rfl
  · have less : ¬ 0x6800 < gcDataSize - offset.toNat := by
      rw [← size]
      exact large
    rw [if_neg large, size, Nat.min_eq_right (Nat.le_of_not_lt less)]

/-- What is sent when the place is not behind the data. -/
theorem sendBbGuildChunk_inside {gcData : Option GcData}
    (h : (number * 0x6800).toNat ≤ gcDataSize) :
    sendBbGuildChunk gcData number =
      match gcData with
      | none => .outside
      | some d => .chunk number ((d.bytes.drop (number * 0x6800).toNat).take 0x6800) := by
  have size := toNat_size h
  rw [sendBbGuildChunk]
  dsimp only at size ⊢
  rw [if_neg (Nat.not_lt_of_le h), size]
  cases gcData with
  | none => rfl
  | some d =>
      dsimp only
      rw [if_pos (by omega)]
      refine congrArg (Reply.chunk number) ?_
      rw [List.take_eq_take_iff, List.length_drop, length_bytes, Nat.min_assoc, Nat.min_self]

theorem sendBbGuildChunk_behind {gcData : Option GcData}
    (h : gcDataSize < (number * 0x6800).toNat) :
    sendBbGuildChunk gcData number = .nothing (-1) := by
  rw [sendBbGuildChunk]
  exact if_pos h

/-- A place in the data that did not wrap around. -/
theorem toNat_offset (h : 0x6800 * number.toNat < gcDataSize) :
    (number * 0x6800).toNat = number.toNat * 0x6800 := by
  have small : number.toNat * 0x6800 < 2 ^ 32 := by
    rw [Nat.mul_comm]
    exact Nat.lt_trans h (by decide)
  rw [UInt32.toNat_mul]
  exact Nat.mod_eq_of_lt small

/-- A chunk of the data that is there. -/
theorem sendBbGuildChunk_piece {d : GcData} (h : 0x6800 * number.toNat < gcDataSize) :
    sendBbGuildChunk (some d) number = .chunk number (piece 0x6800 d.bytes number.toNat) := by
  have offset := toNat_offset h
  have inside : (number * 0x6800).toNat ≤ gcDataSize := by
    rw [offset, Nat.mul_comm]
    exact Nat.le_of_lt h
  rw [sendBbGuildChunk_inside inside, offset]
  rfl

/-! ## Requests for the guild cards -/

/-- A request for the guild cards that finds everything prepares the data, and announces it. -/
theorem handleGuildRequest_found {gcData : Option GcData} {alloc : Bool}
    (space : ¬ (gcData.isNone ∧ !alloc)) (rows : List CardRow) (rows' : List Row) :
    ∃ d, handleGuildRequest gcData alloc (some rows) (some rows') =
        (some d, sendBbGuildHeader (crc32 d.bytes)) ∧
      Filled CardRow.entry rows {} d.entries ∧ Filled Row.card rows' {} d.blocked := by
  obtain ⟨entries, hentries, filled⟩ := fill_filled 104 CardRow.entry rows {}
  obtain ⟨cells, hcells, filled'⟩ := fill_filled 29 Row.card rows' {}
  refine ⟨⟨cells, entries⟩, ?_, filled, filled'⟩
  rw [handleGuildRequest, if_neg space]
  simp only [GcData.clear, hentries, hcells]

/-- The pieces of the data are what its chunks have. -/
theorem announces_data {d : GcData} {rows : List CardRow} {rows' : List Row} {answered : Bool}
    (filled : Filled CardRow.entry rows {} d.entries)
    (filled' : Filled Row.card rows' {} d.blocked) :
    Announces ⟨some d, answered⟩ (some rows) (some rows') gcDataSize.toUInt16 (crc32 d.bytes) := by
  refine ⟨d, rows, rows', rfl, rfl, rfl, filled, filled', length_bytes d, rfl, rfl,
    (List.range (Pieces.count 0x6800 d.bytes.length)).map (piece 0x6800 d.bytes), ?_, ?_⟩
  · rw [← List.flatMap_def]
    exact Pieces.flatMap_count (by decide) d.bytes
  · intro number cont data more hdata
    obtain ⟨i, hi, rfl⟩ := (List.getElem?_map ▸ hdata |> Option.map_eq_some_iff.mp)
    have few := (List.getElem?_eq_some_iff.mp hi).1
    rw [List.getElem?_range (by rw [List.length_range] at few; exact few)] at hi
    obtain rfl := Option.some.inj hi
    rw [List.length_range, Pieces.lt_count_iff (by decide), length_bytes, Nat.mul_comm] at few
    rw [Connection.handle, handleGuildChunk, if_pos more]
    exact sendBbGuildChunk_piece few

/-- Requests for the guild cards are always handled as they should be. -/
theorem exact_guild (w : Connection) (alloc : Bool) (cards : Option (List CardRow))
    (blocked : Option (List Row)) : Exact w (.guild alloc cards blocked) := by
  unfold Exact Connection.next
  rw [Connection.handle]
  dsimp only
  by_cases space : w.gcData.isNone ∧ !alloc
  · rw [handleGuildRequest, if_pos space]
    exact ⟨nofun, nofun⟩
  cases cards with
  | none =>
      rw [handleGuildRequest, if_neg space]
      exact ⟨nofun, nofun⟩
  | some rows =>
      cases blocked with
      | none =>
          obtain ⟨entries, hentries, -⟩ := fill_filled 104 CardRow.entry rows {}
          rw [handleGuildRequest, if_neg space]
          simp only [GcData.clear, hentries]
          exact ⟨nofun, nofun⟩
      | some rows' =>
          obtain ⟨d, found, filled, filled'⟩ := handleGuildRequest_found space rows rows'
          rw [found]
          refine ⟨nofun, fun len checksum h => ?_⟩
          rw [sendBbGuildHeader, Reply.header.injEq] at h
          obtain ⟨rfl, rfl⟩ := h
          exact announces_data filled filled'

/-- A connection with an answered request has data. -/
def Backed (w : Connection) : Prop := w.answered = true → w.gcData.isSome = true

theorem backed_next (w : Connection) (r : Request) (h : Backed w) : Backed (w.next r) := by
  cases r with
  | chunk number cont => exact h
  | guild alloc cards blocked =>
      unfold Backed Connection.next
      rw [Connection.handle]
      dsimp only
      by_cases space : w.gcData.isNone ∧ !alloc
      · rw [handleGuildRequest, if_pos space]
        dsimp only
        intro answered
        have data := h ((Bool.or_false _).symm.trans answered)
        have empty := space.1
        rw [Option.isNone_iff_eq_none] at empty
        rw [empty] at data
        exact data
      · intro _
        rw [handleGuildRequest, if_neg space]
        cases cards with
        | none => rfl
        | some rows =>
            obtain ⟨entries, hentries, -⟩ := fill_filled 104 CardRow.entry rows {}
            simp only [GcData.clear, hentries]
            cases blocked with
            | none => rfl
            | some rows' =>
                obtain ⟨cells, hcells, -⟩ := fill_filled 29 Row.card rows' {}
                simp only [hcells, Option.isSome_some]

/-! ## The requests of a connection -/

/-- A request for a chunk is answered as it should be just when it is a proper one. -/
theorem exact_chunk_iff (h : Backed w) :
    Exact w (.chunk number cont) ↔ Proper w (.chunk number cont) := by
  unfold Exact Proper
  rw [Connection.handle]
  dsimp only
  by_cases more : cont ≠ 0
  · rw [handleGuildChunk, if_pos more]
    by_cases behind : gcDataSize < (number * 0x6800).toNat
    · rw [sendBbGuildChunk_behind behind]
      refine iff_of_true ⟨nofun, fun _ => ⟨iff_of_false nofun ?_, nofun⟩⟩
        fun _ inside => absurd behind (Nat.not_lt_of_le inside)
      rintro ⟨-, small⟩
      rw [toNat_offset small, Nat.mul_comm] at behind
      omega
    have inside : (number * 0x6800).toNat ≤ gcDataSize := Nat.le_of_not_lt behind
    constructor
    · rintro ⟨defined, law⟩ _ _
      apply (law more).1.mp
      rw [sendBbGuildChunk_inside inside] at defined ⊢
      cases hdata : w.gcData with
      | none =>
          rw [hdata] at defined
          exact absurd rfl defined
      | some d => exact ⟨number, _, rfl⟩
    · intro proper
      obtain ⟨answered, small⟩ := proper more inside
      obtain ⟨d, hd⟩ := Option.isSome_iff_exists.mp (h answered)
      rw [hd, sendBbGuildChunk_piece small]
      refine ⟨nofun, fun _ => ⟨iff_of_true ⟨_, _, rfl⟩ ⟨answered, small⟩, fun k data same => ?_⟩⟩
      rw [Reply.chunk.injEq] at same
      exact ⟨same.1.symm, d, rfl, same.2.symm⟩
  · rw [handleGuildChunk, if_neg more]
    exact iff_of_true ⟨nofun, fun wants => absurd wants more⟩ fun wants => absurd wants more

theorem exact_iff (w : Connection) (r : Request) (h : Backed w) : Exact w r ↔ Proper w r := by
  cases r with
  | guild alloc cards blocked => exact iff_of_true (exact_guild w alloc cards blocked) trivial
  | chunk number cont => exact exact_chunk_iff h

/-- All requests of a connection are handled as they should be just when each of them is proper
when it comes. -/
theorem downloads_exact_iff (requests : List Request) :
    Run.Guarded Connection.next Exact {} requests ↔
      Run.Guarded Connection.next Proper {} requests :=
  Run.Guarded.congr exact_iff (fun w r h _ => backed_next w r h) nofun

/-- The first request may be one for a chunk. -/
theorem chunk_first : ¬ Run.Guarded Connection.next Exact {} [.chunk 0 1] := by
  intro run
  exact run.1.1 (by decide)

end Sylverant.Login.GuildCards
