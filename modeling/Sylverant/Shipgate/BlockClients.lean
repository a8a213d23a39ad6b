/-
# Lists of the clients on a block

When a ship has its connection to the shipgate back, it sends a list of the clients on each of
its blocks, and the shipgate puts them into its table in place of those that it has for the
block. The number of entries is in the packet, and it is checked against the length of the
packet with a multiplication of 32 bits. A number that is large enough passes this check and
has entries read that are not in the packet.

The queries succeed. What is escaped arrives as it was.
-/

import Mathlib.Algebra.Group.Nat.Defs
import Mathlib.Tactic.Common

namespace Sylverant.Shipgate.BlockClients

/-- `ntohl` of a field. -/
def ntohl (bytes : List UInt8) (offset : Nat) : Nat :=
  ((bytes.drop offset).take 4).foldl (fun value b => value * 256 + b.toNat) 0

/-- A string in a field of some bytes. -/
def string (bytes : List UInt8) : List UInt8 := bytes.takeWhile (· ≠ 0)

/-- The lobby of a client: its number, its name, and the last lobby that is not a game. -/
structure Lobby where
  lobbyId : Nat
  lobby : List UInt8
  dlobbyId : Nat
  deriving DecidableEq

/-- A row of `online_clients`. -/
structure Row where
  guildcard : Nat
  name : List UInt8
  shipId : UInt16
  block : UInt32
  lobby : Option Lobby
  deriving DecidableEq

/-- `shipgate_bclients_pkt` or `shipgate_bclients_12_pkt`, with the bytes behind its fields. -/
structure BClientsPkt where
  pktLen : UInt16
  count : UInt32
  block : UInt32
  entries : List UInt8
  fits : entries.length = pktLen.toNat - 16

/-- What an entry looks like: its size, where the name of the client is in it, and the last
lobby that is not a game. -/
structure Layout where
  size : UInt32
  chName : Nat
  dlobby : List UInt8 → Nat

/-- The entries that `handle_block_clients` reads. -/
def blockClients : Layout where
  size := 72
  chName := 8
  dlobby entry := if ntohl entry 4 ≤ 20 then ntohl entry 4 else 1

/-- The entries that `handle_clients12` reads. -/
def clients12 : Layout where
  size := 80
  chName := 16
  dlobby entry := ntohl entry 8

section Handlers

variable (iconv : List UInt8 → List UInt8) (keyIdx : UInt16)

/-- The name of a client, and whether it can be used. A name in UTF-16 is converted with its
length, and what comes out is shorter than the cleared buffer for it. -/
def chName (field : List UInt8) : Option (List UInt8) :=
  if field.getD 0 0 = 9 then some (string (iconv field))
  else if field.getD 31 0 ≠ 0 then none
  else some (string field)

/-- The row for an entry, if its names look sane. -/
def entryRow (f : Layout) (block : UInt32) (entry : List UInt8) : Option Row :=
  match chName iconv ((entry.drop f.chName).take 32) with
  | none => none
  | some name =>
      let lobbyName := (entry.drop (f.chName + 32)).take 32
      if lobbyName.getD 31 0 ≠ 0 then none
      else
        let lid := ntohl entry 4
        some {
          guildcard := ntohl entry 0
          name := name
          shipId := keyIdx
          block := block
          lobby := if lid = 0 then none else some ⟨lid, string lobbyName, f.dlobby entry⟩ }

/-- The entry with some number. There is none if it is not all in the packet. -/
def BClientsPkt.entry? (p : BClientsPkt) (size i : Nat) : Option (List UInt8) :=
  if (i + 1) * size ≤ p.entries.length then some ((p.entries.drop (i * size)).take size) else none

/-- The loop of the handlers, from entry `i` on, with `n` entries left. -/
def insertEntries (f : Layout) (p : BClientsPkt) : Nat → Nat → List Row → Option (List Row)
  | 0, _, table => some table
  | n + 1, i, table =>
      match p.entry? f.size.toNat i with
      | none => none
      | some entry =>
          insertEntries f p n (i + 1) (table ++ (entryRow iconv keyIdx f p.block entry).toList)

/-- A row of another ship or block. -/
def Row.Other (block : UInt32) (r : Row) : Prop := ¬ (r.shipId = keyIdx ∧ r.block = block)

instance (block : UInt32) (r : Row) : Decidable (r.Other keyIdx block) :=
  inferInstanceAs (Decidable (¬ _))

/-- The length check. The length is compared with 32 bits of the product. -/
def Passes (f : Layout) (p : BClientsPkt) : Prop :=
  ¬ (p.pktLen.toUInt32 ≠ 16 + p.count * f.size ∨ p.count < 1)

instance (f : Layout) (p : BClientsPkt) : Decidable (Passes f p) :=
  inferInstanceAs (Decidable (¬_))

/-- What both handlers do: what they return, and the table afterwards. There is no result if an
entry is read that is not in the packet. -/
def handleClients (f : Layout) (p : BClientsPkt) (table : List Row) : Option (Int × List Row) :=
  if ¬ Passes f p then some (-1, table)
  else
    (insertEntries iconv keyIdx f p p.count.toNat 0
      (table.filter fun r => r.Other keyIdx p.block)).map fun table => (0, table)

/-- `handle_block_clients` -/
def handleBlockClients (p : BClientsPkt) (table : List Row) : Option (Int × List Row) :=
  handleClients iconv keyIdx blockClients p table

/-- `handle_clients12` -/
def handleClients12 (p : BClientsPkt) (table : List Row) : Option (Int × List Row) :=
  handleClients iconv keyIdx clients12 p table

end Handlers

/-- The entries that a ship sends, by the version of its protocol. -/
def layout (protoVer : Nat) : Layout := if protoVer < 12 then blockClients else clients12

/-- What is done with `SHDR_TYPE_BCLIENTS`. -/
def processBClients (iconv : List UInt8 → List UInt8) (keyIdx : UInt16) (protoVer : Nat)
    (p : BClientsPkt) (table : List Row) : Option (Int × List Row) :=
  if protoVer < 12 then handleBlockClients iconv keyIdx p table
  else handleClients12 iconv keyIdx p table

/-! ## Reading inside the packet -/

/-- The entries of a packet. -/
def BClientsPkt.list (p : BClientsPkt) (size : Nat) : List (List UInt8) :=
  (List.range p.count.toNat).map fun i => (p.entries.drop (i * size)).take size

/-- The entries are in the packet, and for the block the table holds afterwards those of them
with names that look sane. -/
def Right (iconv : List UInt8 → List UInt8) (keyIdx : UInt16) (protoVer : Nat) (p : BClientsPkt)
    (table : List Row) : Prop :=
  p.count.toNat ≤ (p.pktLen.toNat - 16) / (layout protoVer).size.toNat ∧
    processBClients iconv keyIdx protoVer p table =
      some (0, table.filter (fun r => r.Other keyIdx p.block) ++
        (p.list (layout protoVer).size.toNat).filterMap
          (entryRow iconv keyIdx (layout protoVer) p.block))

variable {iconv : List UInt8 → List UInt8} {keyIdx : UInt16} {f : Layout} {p : BClientsPkt}

/-- As long as the entries are in the packet, a row is inserted for each that has one. -/
theorem insertEntries_of_le {n : Nat} (i : Nat) (table : List Row)
    (inside : (i + n) * f.size.toNat ≤ p.entries.length) :
    insertEntries iconv keyIdx f p n i table =
      some (table ++ ((List.range' i n).map fun k =>
        (p.entries.drop (k * f.size.toNat)).take f.size.toNat).filterMap
          (entryRow iconv keyIdx f p.block)) := by
  induction n generalizing i table with
  | zero =>
      rw [insertEntries, List.range'_zero, List.map_nil, List.filterMap_nil, List.append_nil]
  | succ n ih =>
      have first : (i + 1) * f.size.toNat ≤ p.entries.length :=
        Nat.le_trans (Nat.mul_le_mul_right _ (by omega)) inside
      have rest : (i + 1 + n) * f.size.toNat ≤ p.entries.length := by
        rw [Nat.add_assoc, Nat.add_comm 1 n]
        exact inside
      rw [insertEntries, BClientsPkt.entry?, if_pos first, List.range'_succ, List.map_cons,
        List.filterMap_cons]
      dsimp only
      rw [ih (i + 1) _ rest]
      cases entryRow iconv keyIdx f p.block
          ((p.entries.drop (i * f.size.toNat)).take f.size.toNat) with
      | none => rw [Option.toList_none, List.append_nil]
      | some row => rw [Option.toList_some, List.append_assoc, List.singleton_append]

/-- When the product does not wrap, the length is what it says. -/
theorem pktLen_of_passes (passes : Passes f p)
    (small : 16 + p.count.toNat * f.size.toNat < 2 ^ 32) :
    p.pktLen.toNat = 16 + p.count.toNat * f.size.toNat := by
  have same : p.pktLen.toUInt32 = 16 + p.count * f.size := by
    by_contra other
    exact passes (Or.inl other)
  have lengths := congrArg UInt32.toNat same
  rw [UInt16.toNat_toUInt32, UInt32.toNat_add, UInt32.toNat_mul] at lengths
  change p.pktLen.toNat = (16 + p.count.toNat * f.size.toNat % 2 ^ 32) % 2 ^ 32 at lengths
  omega

/-- A packet that passes the check is handled as it should be exactly when the product does not
wrap. -/
theorem right_iff (protoVer : Nat) (table : List Row) (passes : Passes (layout protoVer) p) :
    Right iconv keyIdx protoVer p table ↔
      16 + p.count.toNat * (layout protoVer).size.toNat < 2 ^ 32 := by
  have sized : 0 < (layout protoVer).size.toNat := by
    rw [layout]
    split <;> decide
  have width := p.pktLen.toNat_lt
  constructor
  · rintro ⟨inside, -⟩
    have room := (Nat.le_div_iff_mul_le sized).mp inside
    omega
  · intro small
    have length := pktLen_of_passes passes small
    have all : p.count.toNat * (layout protoVer).size.toNat ≤ p.entries.length := by
      rw [p.fits]
      omega
    have handled : processBClients iconv keyIdx protoVer p table =
        handleClients iconv keyIdx (layout protoVer) p table := by
      rw [processBClients, layout]
      by_cases old : protoVer < 12
      · rw [if_pos old, if_pos old, handleBlockClients]
      · rw [if_neg old, if_neg old, handleClients12]
    refine ⟨(Nat.le_div_iff_mul_le sized).mpr (by omega), ?_⟩
    rw [handled, handleClients, if_neg (not_not.mpr passes),
      insertEntries_of_le 0 _ (by rw [Nat.zero_add]; exact all), Option.map_some,
      BClientsPkt.list, List.range_eq_range']

/-- A list with one client, whose name is `A`, and who is in no lobby. -/
def oneClient : BClientsPkt where
  pktLen := 88
  count := 1
  block := 1
  entries := [0, 0, 0, 42, 0, 0, 0, 0, 65] ++ List.replicate 63 0
  fits := by decide

theorem right_oneClient : Right (fun bytes => bytes.filter (· ≠ 0)) 1 11 oneClient [] :=
  (right_iff 11 [] (by decide)).mpr (by decide)

/-- A number of entries that fits a packet without any. -/
def wrapping : BClientsPkt where
  pktLen := 16
  count := 0x20000000
  block := 1
  entries := []
  fits := by decide

/-- Its entries are not in the packet. -/
theorem wrapping_not_right :
    Passes (layout 11) wrapping ∧ ¬ Right (fun _ => []) 1 11 wrapping [] := by
  refine ⟨by decide, ?_⟩
  rintro ⟨inside, -⟩
  exact absurd inside (by decide)

end Sylverant.Shipgate.BlockClients
