/-
# Flag bits interleaved with data bytes

Several compressed formats store one-bit flags and whole data bytes in a single
byte stream. The flags are collected eight at a time, lowest bit first, and the
byte that holds a group of flags stands where the first flag of the group is
needed; the data bytes that follow are read between the flags. This module
describes such a stream as a list of items, packs it into bytes, and reads it
back with a cursor. Packing takes the bits that fill up the last flag byte as an
argument, so that the same function describes a stream that ends and the front
part of a stream that goes on.
-/

import Mathlib.Tactic.Common
import Mathlib.Data.List.Basic

namespace FlagStream

/-- One unit of the stream: a flag, or a byte of data. -/
inductive Item
  | bit (b : Bool)
  | byte (v : UInt8)
  deriving DecidableEq, Repr

/-- The flags of a stream, in order. -/
def bitsOf : List Item → List Bool
  | [] => []
  | .bit b :: rest => b :: bitsOf rest
  | .byte _ :: rest => bitsOf rest

/-- The byte that holds the first eight of `bits`, lowest bit first; flags that
are missing are zero. -/
def flagByte (bits : List Bool) : UInt8 :=
  ⟨(BitVec.ofBoolListLE bits).setWidth 8⟩

/-- The bytes of a stream, when `left` more flags fit in the flag byte that was
written last. The flags of `pad` follow the stream. -/
def pack (pad : List Bool) : Nat → List Item → List UInt8
  | _, [] => []
  | left, .byte v :: rest => v :: pack pad left rest
  | 0, .bit b :: rest => flagByte (b :: (bitsOf rest ++ pad)) :: pack pad 7 rest
  | left + 1, .bit _ :: rest => pack pad left rest

/-- How many flags still fit in the last flag byte after a stream. -/
def leftAfter : Nat → List Item → Nat
  | left, [] => left
  | left, .byte _ :: rest => leftAfter left rest
  | 0, .bit _ :: rest => leftAfter 7 rest
  | left + 1, .bit _ :: rest => leftAfter left rest

/-- The number of bytes a stream packs into. -/
def packedSize : Nat → List Item → Nat
  | _, [] => 0
  | left, .byte _ :: rest => packedSize left rest + 1
  | 0, .bit _ :: rest => packedSize 7 rest + 1
  | left + 1, .bit _ :: rest => packedSize left rest

/-! ## Packing -/

@[simp]
theorem bitsOf_append (xs ys : List Item) : bitsOf (xs ++ ys) = bitsOf xs ++ bitsOf ys := by
  induction xs with
  | nil => rfl
  | cons item rest ih => cases item <;> simp [bitsOf, ih]

theorem flagByte_getLsbD (bits : List Bool) {i : Nat} (h : i < 8) :
    (flagByte bits).toBitVec.getLsbD i = bits.getD i false := by
  simp [flagByte, h]

/-- A byte is the flag byte of any list that agrees with its eight bits. -/
theorem eq_flagByte {f : UInt8} {bits : List Bool}
    (h : ∀ i < 8, f.toBitVec.getLsbD i = bits.getD i false) : f = flagByte bits := by
  apply UInt8.toBitVec_inj.mp
  apply BitVec.eq_of_getLsbD_eq
  intro i hi
  rw [h i hi, flagByte_getLsbD bits hi]

/-- Flags past the eighth do not reach the byte. -/
theorem flagByte_append {bits : List Bool} (h : 8 ≤ bits.length) (pad : List Bool) :
    flagByte (bits ++ pad) = flagByte bits := by
  apply eq_flagByte
  intro i hi
  rw [flagByte_getLsbD _ hi, List.getD_eq_getElem?_getD, List.getD_eq_getElem?_getD,
    List.getElem?_append_left (by omega)]

/-- A stream followed by another is padded by the flags of the second. -/
theorem pack_append (pad : List Bool) (left : Nat) (xs ys : List Item) :
    pack pad left (xs ++ ys) =
      pack (bitsOf ys ++ pad) left xs ++ pack pad (leftAfter left xs) ys := by
  induction xs generalizing left with
  | nil => rfl
  | cons item rest ih =>
      cases item with
      | byte v => simp [pack, leftAfter, ih]
      | bit b => cases left <;> simp [pack, leftAfter, ih]

@[simp]
theorem length_pack (pad : List Bool) (left : Nat) (items : List Item) :
    (pack pad left items).length = packedSize left items := by
  induction items generalizing left with
  | nil => rfl
  | cons item rest ih =>
      cases item with
      | byte v => simp [pack, packedSize, ih]
      | bit b => cases left <;> simp [pack, packedSize, ih]

theorem packedSize_append (left : Nat) (xs ys : List Item) :
    packedSize left (xs ++ ys) = packedSize left xs + packedSize (leftAfter left xs) ys := by
  rw [← length_pack [], pack_append, List.length_append, length_pack, length_pack]

theorem leftAfter_append (left : Nat) (xs ys : List Item) :
    leftAfter left (xs ++ ys) = leftAfter (leftAfter left xs) ys := by
  induction xs generalizing left with
  | nil => rfl
  | cons item rest ih =>
      cases item with
      | byte v => simp [leftAfter, ih]
      | bit b => cases left <;> simp [leftAfter, ih]

theorem leftAfter_lt {left : Nat} (items : List Item) (h : left < 8) :
    leftAfter left items < 8 := by
  induction items generalizing left with
  | nil => exact h
  | cons item rest ih =>
      cases item with
      | byte v => exact ih h
      | bit b =>
          cases left with
          | zero => exact ih (by omega)
          | succ left => exact ih (by omega)

/-- The number of data bytes of a stream. -/
def byteCount : List Item → Nat
  | [] => 0
  | .bit _ :: rest => byteCount rest
  | .byte _ :: rest => byteCount rest + 1

@[simp]
theorem byteCount_append (xs ys : List Item) :
    byteCount (xs ++ ys) = byteCount xs + byteCount ys := by
  induction xs with
  | nil => simp [byteCount]
  | cons item rest ih => cases item <;> simp [byteCount, ih]; omega

/-- The size of a stream: its data bytes and one byte for every eight flags or
part of eight that do not fit in the byte already there. -/
theorem packedSize_eq {left : Nat} (hleft : left ≤ 7) (items : List Item) :
    packedSize left items =
      byteCount items + ((bitsOf items).length + 7 - left) / 8 := by
  induction items generalizing left with
  | nil => simp only [packedSize, byteCount, bitsOf, List.length_nil]; omega
  | cons item rest ih =>
      cases item with
      | byte v => simp only [packedSize, byteCount, bitsOf, ih hleft]; omega
      | bit b =>
          cases left with
          | zero =>
              simp only [packedSize, byteCount, bitsOf, List.length_cons, ih (Nat.le_refl 7)]
              omega
          | succ left =>
              simp only [packedSize, byteCount, bitsOf, List.length_cons,
                ih (Nat.le_of_succ_le hleft)]
              omega

/-! ## Reading -/

/-- A place in a stream of bytes: the flags of the current flag byte that are
still unread, in the low bits, how many they are, and the bytes that follow. -/
structure Cursor where
  flags : UInt8
  left : Nat
  rest : List UInt8

namespace Cursor

/-- Read one flag, fetching a new flag byte when none is left. -/
def nextBit : Cursor → Option (Bool × Cursor)
  | ⟨_, 0, []⟩ => none
  | ⟨_, 0, f :: rest⟩ => some (f &&& 1 == 1, ⟨f >>> 1, 7, rest⟩)
  | ⟨f, left + 1, rest⟩ => some (f &&& 1 == 1, ⟨f >>> 1, left, rest⟩)

/-- Read one data byte. -/
def nextByte : Cursor → Option (UInt8 × Cursor)
  | ⟨_, _, []⟩ => none
  | ⟨f, left, v :: rest⟩ => some (v, ⟨f, left, rest⟩)

/-- The cursor stands before `items`; after them the flag byte goes on with
`pad` and the bytes go on with `trailing`. -/
structure At (cur : Cursor) (items : List Item) (pad : List Bool)
    (trailing : List UInt8) : Prop where
  rest_eq : cur.rest = pack pad cur.left items ++ trailing
  flags_eq : ∀ i < cur.left, cur.flags.toBitVec.getLsbD i = (bitsOf items ++ pad).getD i false

variable {cur next : Cursor} {items : List Item} {pad : List Bool} {trailing : List UInt8}

theorem lowBit_eq (f : UInt8) : (f &&& 1 == 1) = f.toBitVec.getLsbD 0 := by
  have key : ∀ b : BitVec 8, (UInt8.ofBitVec b &&& 1 == 1) = b.getLsbD 0 := by decide
  exact key f.toBitVec

theorem shiftRight_getLsbD (f : UInt8) (i : Nat) :
    (f >>> 1).toBitVec.getLsbD i = f.toBitVec.getLsbD (i + 1) := by
  rw [UInt8.toBitVec_shiftRight]
  have hone : (UInt8.toBitVec 1 % 8).toNat = 1 := by decide
  rw [BitVec.ushiftRight_eq', hone, BitVec.getLsbD_ushiftRight, Nat.add_comm]

/-- Before a flag, reading a flag yields it and moves past it. -/
theorem At.nextBit {b : Bool} (h : cur.At (.bit b :: items) pad trailing) :
    ∃ next, cur.nextBit = some (b, next) ∧ next.At items pad trailing := by
  obtain ⟨flags, left, rest⟩ := cur
  obtain ⟨hrest, hflags⟩ := h
  cases left with
  | zero =>
      simp only [pack, List.cons_append] at hrest
      subst hrest
      refine ⟨_, by rw [Cursor.nextBit, lowBit_eq, flagByte_getLsbD _ (by omega)]; rfl, rfl, ?_⟩
      intro i hi
      rw [shiftRight_getLsbD, flagByte_getLsbD _ (Nat.succ_lt_succ hi)]
      simp
  | succ left =>
      have hfirst := hflags 0 (by simp)
      refine ⟨_, by rw [Cursor.nextBit, lowBit_eq, hfirst]; rfl, hrest, ?_⟩
      intro i hi
      rw [shiftRight_getLsbD, hflags (i + 1) (by simpa using hi)]
      simp [bitsOf]

/-- A flag that was read stands before what follows it. -/
theorem At.of_nextBit {b : Bool} (hread : cur.nextBit = some (b, next))
    (h : next.At items pad trailing) : cur.At (.bit b :: items) pad trailing := by
  obtain ⟨flags, left, rest⟩ := cur
  cases left with
  | zero =>
      cases rest with
      | nil => simp [Cursor.nextBit] at hread
      | cons f rest =>
          simp only [Cursor.nextBit, Option.some.injEq, Prod.mk.injEq, lowBit_eq] at hread
          obtain ⟨hb, rfl⟩ := hread
          obtain ⟨hrest, hflags⟩ := h
          have hbyte : f = flagByte (b :: (bitsOf items ++ pad)) := by
            apply eq_flagByte
            intro i hi
            cases i with
            | zero => simpa using hb
            | succ i =>
                rw [← shiftRight_getLsbD, hflags i (Nat.lt_of_succ_lt_succ hi)]
                simp
          refine ⟨?_, fun i hi => absurd hi (by simp)⟩
          simp only at hrest
          simp only [pack, List.cons_append, ← hbyte, hrest]
  | succ left =>
      simp only [Cursor.nextBit, Option.some.injEq, Prod.mk.injEq, lowBit_eq] at hread
      obtain ⟨hb, rfl⟩ := hread
      obtain ⟨hrest, hflags⟩ := h
      refine ⟨hrest, fun i hi => ?_⟩
      cases i with
      | zero => simpa [bitsOf] using hb
      | succ i =>
          rw [← shiftRight_getLsbD, hflags i (by simpa using hi)]
          simp [bitsOf]

/-- Before a data byte, reading a byte yields it and moves past it. -/
theorem At.nextByte {v : UInt8} (h : cur.At (.byte v :: items) pad trailing) :
    ∃ next, cur.nextByte = some (v, next) ∧ next.At items pad trailing := by
  obtain ⟨flags, left, rest⟩ := cur
  obtain ⟨hrest, hflags⟩ := h
  simp only [pack, List.cons_append] at hrest
  subst hrest
  exact ⟨_, rfl, rfl, hflags⟩

/-- A data byte that was read stands before what follows it. -/
theorem At.of_nextByte {v : UInt8} (hread : cur.nextByte = some (v, next))
    (h : next.At items pad trailing) : cur.At (.byte v :: items) pad trailing := by
  obtain ⟨flags, left, rest⟩ := cur
  cases rest with
  | nil => simp [Cursor.nextByte] at hread
  | cons f rest =>
      simp only [Cursor.nextByte, Option.some.injEq, Prod.mk.injEq] at hread
      obtain ⟨rfl, rfl⟩ := hread
      obtain ⟨hrest, hflags⟩ := h
      simp only at hrest
      exact ⟨by simp only [pack, List.cons_append, hrest], hflags⟩

/-- Every cursor stands at the end of the empty stream: its unread flags are the
padding and its bytes are what follows. -/
theorem at_nil (cur : Cursor) :
    cur.At [] ((List.range cur.left).map cur.flags.toBitVec.getLsbD) cur.rest := by
  refine ⟨by simp [pack], fun i hi => ?_⟩
  simp [bitsOf, hi]

/-- A cursor at the first byte of a packed stream stands before its items. -/
theorem at_start (items : List Item) (pad : List Bool) (trailing : List UInt8) (f : UInt8) :
    At ⟨f, 0, pack pad 0 items ++ trailing⟩ items pad trailing :=
  ⟨rfl, fun _ hi => absurd hi (by simp)⟩

/-! ### Reading several items -/

/-- Reading `items` one after the other moves the cursor to `next`. -/
inductive Reads : Cursor → List Item → Cursor → Prop
  | nil (cur : Cursor) : Reads cur [] cur
  | bit {cur mid next : Cursor} {b : Bool} {items : List Item}
      (read : cur.nextBit = some (b, mid)) (rest : Reads mid items next) :
      Reads cur (.bit b :: items) next
  | byte {cur mid next : Cursor} {v : UInt8} {items : List Item}
      (read : cur.nextByte = some (v, mid)) (rest : Reads mid items next) :
      Reads cur (.byte v :: items) next

/-- Reading a list of items is reading its front and then the rest. -/
theorem Reads.split (items : List Item) {more : List Item}
    (h : Reads cur (items ++ more) next) :
    ∃ mid, Reads cur items mid ∧ Reads mid more next := by
  induction items generalizing cur with
  | nil => exact ⟨cur, .nil cur, h⟩
  | cons item items ih =>
      cases h with
      | bit read rest =>
          obtain ⟨mid, hfront, hback⟩ := ih rest
          exact ⟨mid, .bit read hfront, hback⟩
      | byte read rest =>
          obtain ⟨mid, hfront, hback⟩ := ih rest
          exact ⟨mid, .byte read hfront, hback⟩

theorem Reads.append {mid : Cursor} {items more : List Item} (hfront : Reads cur items mid)
    (hback : Reads mid more next) : Reads cur (items ++ more) next := by
  induction hfront with
  | nil cur => exact hback
  | bit read _ ih => exact .bit read (ih hback)
  | byte read _ ih => exact .byte read (ih hback)

/-- Items that were read stand before whatever follows them. -/
theorem Reads.at {items more : List Item} (h : Reads cur items next)
    (hat : next.At more pad trailing) : cur.At (items ++ more) pad trailing := by
  induction h with
  | nil cur => exact hat
  | bit read _ ih => exact At.of_nextBit read (ih hat)
  | byte read _ ih => exact At.of_nextByte read (ih hat)

/-- Items the cursor stands before can be read. -/
theorem At.reads {items more : List Item} (h : cur.At (items ++ more) pad trailing) :
    ∃ next, Reads cur items next ∧ next.At more pad trailing := by
  induction items generalizing cur with
  | nil => exact ⟨cur, .nil cur, h⟩
  | cons item items ih =>
      cases item with
      | bit b =>
          obtain ⟨mid, hread, hmid⟩ := At.nextBit h
          obtain ⟨next, hreads, hnext⟩ := ih hmid
          exact ⟨next, .bit hread hreads, hnext⟩
      | byte v =>
          obtain ⟨mid, hread, hmid⟩ := At.nextByte h
          obtain ⟨next, hreads, hnext⟩ := ih hmid
          exact ⟨next, .byte hread hreads, hnext⟩

/-- The number of flags that could still be read, if no byte were data. -/
def unread (cur : Cursor) : Nat := 8 * cur.rest.length + cur.left

theorem unread_nextBit {b : Bool} (h : cur.nextBit = some (b, next)) :
    next.unread + 1 = cur.unread := by
  obtain ⟨flags, left, rest⟩ := cur
  cases left with
  | zero =>
      cases rest with
      | nil => simp [Cursor.nextBit] at h
      | cons f rest =>
          simp only [Cursor.nextBit, Option.some.injEq, Prod.mk.injEq] at h
          obtain ⟨-, rfl⟩ := h
          simp only [unread, List.length_cons]
          omega
  | succ left =>
      simp only [Cursor.nextBit, Option.some.injEq, Prod.mk.injEq] at h
      obtain ⟨-, rfl⟩ := h
      simp only [unread]
      omega

theorem unread_nextByte {v : UInt8} (h : cur.nextByte = some (v, next)) :
    next.unread + 8 = cur.unread := by
  obtain ⟨flags, left, rest⟩ := cur
  cases rest with
  | nil => simp [Cursor.nextByte] at h
  | cons f rest =>
      simp only [Cursor.nextByte, Option.some.injEq, Prod.mk.injEq] at h
      obtain ⟨-, rfl⟩ := h
      simp only [unread, List.length_cons]
      omega

/-- Every item that is read uses up part of the stream. -/
theorem Reads.unread_le {items : List Item} (h : Reads cur items next) :
    next.unread + items.length ≤ cur.unread := by
  induction h with
  | nil cur => simp
  | bit read _ ih =>
      have := unread_nextBit read
      simp only [List.length_cons]
      omega
  | byte read _ ih =>
      have := unread_nextByte read
      simp only [List.length_cons]
      omega

end Cursor

end FlagStream
