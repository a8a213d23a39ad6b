/-
# MD5

The password of an account is kept as the MD5 hash of it and a salt, and `polarssl/md5.c` makes
the hash in words of the type `unsigned long`. The C standard gives the type 32 bits or more, and
most machines give it 64, so that what is above the first 32 bits is of no meaning. The digest
has nothing of it, and nothing of the pieces that the message came in.

`md5_file` and the HMAC functions are left out: no server calls them.
-/

import Mathlib.Algebra.Group.Nat.Defs
import Sylverant.Library.BlockHash
import Sylverant.Library.Bounded

namespace Sylverant.Servers

open Buffer (memcpy)

variable {w : Nat}

/-- The state of a context, or `A`, `B`, `C` and `D`. -/
structure Md5Words (w : Nat) where
  a : BitVec w
  b : BitVec w
  c : BitVec w
  d : BitVec w

/-- `GET_ULONG_LE`. -/
def getUlongLe (w : Nat) (b : List UInt8) (i : Nat) : BitVec w :=
  (b.getD i 0).toBitVec.setWidth w |||
    (b.getD (i + 1) 0).toBitVec.setWidth w <<< 8 |||
    (b.getD (i + 2) 0).toBitVec.setWidth w <<< 16 |||
    (b.getD (i + 3) 0).toBitVec.setWidth w <<< 24

/-- `PUT_ULONG_LE`. -/
def putUlongLe (n : BitVec w) : List UInt8 :=
  [0, 8, 16, 24].map fun shift => .ofBitVec ((n >>> shift).setWidth 8)

/-- The macro `S`. -/
def md5S (x : BitVec w) (n : Nat) : BitVec w :=
  (x <<< n) ||| ((x &&& BitVec.ofNat w 0xFFFFFFFF) >>> (32 - n))

/-- The macro `F` of each round. -/
def md5F (round : Fin 4) (x y z : BitVec w) : BitVec w :=
  match round with
  | 0 => z ^^^ (x &&& (y ^^^ z))
  | 1 => y ^^^ (z &&& (x ^^^ y))
  | 2 => x ^^^ y ^^^ z
  | 3 => y ^^^ (x ||| ~~~z)

/-- The macro `P`. The names of the words move by one, as they do from each use to the next. -/
def md5P (round : Fin 4) (x : Nat → BitVec w) (v : Md5Words w) (row : Nat × Nat × Nat) :
    Md5Words w :=
  let a := v.a + (md5F round v.b v.c v.d + x row.1 + BitVec.ofNat w row.2.2)
  ⟨v.d, md5S a row.2.1 + v.b, v.b, v.c⟩

/-- The rounds of `md5_process`. -/
def md5Rounds (x : Nat → BitVec w) (v : Md5Words w) : Md5Words w :=
  let v := List.foldl (md5P 0 x) v
    [(0, 7, 0xD76AA478), (1, 12, 0xE8C7B756), (2, 17, 0x242070DB), (3, 22, 0xC1BDCEEE),
     (4, 7, 0xF57C0FAF), (5, 12, 0x4787C62A), (6, 17, 0xA8304613), (7, 22, 0xFD469501),
     (8, 7, 0x698098D8), (9, 12, 0x8B44F7AF), (10, 17, 0xFFFF5BB1), (11, 22, 0x895CD7BE),
     (12, 7, 0x6B901122), (13, 12, 0xFD987193), (14, 17, 0xA679438E), (15, 22, 0x49B40821)]
  let v := List.foldl (md5P 1 x) v
    [(1, 5, 0xF61E2562), (6, 9, 0xC040B340), (11, 14, 0x265E5A51), (0, 20, 0xE9B6C7AA),
     (5, 5, 0xD62F105D), (10, 9, 0x02441453), (15, 14, 0xD8A1E681), (4, 20, 0xE7D3FBC8),
     (9, 5, 0x21E1CDE6), (14, 9, 0xC33707D6), (3, 14, 0xF4D50D87), (8, 20, 0x455A14ED),
     (13, 5, 0xA9E3E905), (2, 9, 0xFCEFA3F8), (7, 14, 0x676F02D9), (12, 20, 0x8D2A4C8A)]
  let v := List.foldl (md5P 2 x) v
    [(5, 4, 0xFFFA3942), (8, 11, 0x8771F681), (11, 16, 0x6D9D6122), (14, 23, 0xFDE5380C),
     (1, 4, 0xA4BEEA44), (4, 11, 0x4BDECFA9), (7, 16, 0xF6BB4B60), (10, 23, 0xBEBFBC70),
     (13, 4, 0x289B7EC6), (0, 11, 0xEAA127FA), (3, 16, 0xD4EF3085), (6, 23, 0x04881D05),
     (9, 4, 0xD9D4D039), (12, 11, 0xE6DB99E5), (15, 16, 0x1FA27CF8), (2, 23, 0xC4AC5665)]
  List.foldl (md5P 3 x) v
    [(0, 6, 0xF4292244), (7, 10, 0x432AFF97), (14, 15, 0xAB9423A7), (5, 21, 0xFC93A039),
     (12, 6, 0x655B59C3), (3, 10, 0x8F0CCC92), (10, 15, 0xFFEFF47D), (1, 21, 0x85845DD1),
     (8, 6, 0x6FA87E4F), (15, 10, 0xFE2CE6E0), (6, 15, 0xA3014314), (13, 21, 0x4E0811A1),
     (4, 6, 0xF7537E82), (11, 10, 0xBD3AF235), (2, 15, 0x2AD7D2BB), (9, 21, 0xEB86D391)]

/-- `md5_process`. -/
def md5Process (state : Md5Words w) (data : List UInt8) : Md5Words w :=
  let v := md5Rounds (fun k => getUlongLe w data (4 * k)) state
  ⟨state.a + v.a, state.b + v.b, state.c + v.c, state.d + v.d⟩

/-- `md5_context`. -/
structure Md5Context (w : Nat) where
  total0 : BitVec w
  total1 : BitVec w
  state : Md5Words w
  buffer : List UInt8

/-- The state that `md5_starts` sets. -/
def md5Start (w : Nat) : Md5Words w :=
  ⟨.ofNat w 0x67452301, .ofNat w 0xEFCDAB89, .ofNat w 0x98BADCFE, .ofNat w 0x10325476⟩

/-- `md5_starts`. -/
def md5Starts (ctx : Md5Context w) : Md5Context w :=
  { ctx with total0 := 0, total1 := 0, state := md5Start w }

/-- The totals that `md5_update` sets. -/
def Md5Context.count (ctx : Md5Context w) (ilen : Nat) : Md5Context w :=
  let total0 := (ctx.total0 + BitVec.ofNat w ilen) &&& BitVec.ofNat w 0xFFFFFFFF
  { ctx with
    total0 := total0
    total1 := if total0 < BitVec.ofNat w ilen then ctx.total1 + 1 else ctx.total1 }

/-- The loop of `md5_update`, with what is left of the input. -/
def md5Blocks (state : Md5Words w) (input : List UInt8) : Md5Words w × List UInt8 :=
  if 64 ≤ input.length then md5Blocks (md5Process state (input.take 64)) (input.drop 64)
  else (state, input)
termination_by input.length
decreasing_by rw [List.length_drop]; omega

/-- The loop of `md5_update`, and the copy after it. -/
def Md5Context.blocks (ctx : Md5Context w) (left : Nat) (input : List UInt8) : Md5Context w :=
  let (state, rest) := md5Blocks ctx.state input
  { ctx with
    state := state
    buffer := if 0 < rest.length then memcpy ctx.buffer left rest else ctx.buffer }

/-- `md5_update`. -/
def md5Update (ctx : Md5Context w) (input : List UInt8) : Md5Context w :=
  if input.length = 0 then ctx
  else
    let left := (ctx.total0 &&& BitVec.ofNat w 0x3F).toNat
    let fill := 64 - left
    let ctx := ctx.count input.length
    if left ≠ 0 ∧ fill ≤ input.length then
      let buffer := memcpy ctx.buffer left (input.take fill)
      Md5Context.blocks { ctx with buffer, state := md5Process ctx.state buffer } 0
        (input.drop fill)
    else ctx.blocks left input

def md5Padding : List UInt8 :=
  0x80 :: List.replicate 63 0

/-- The number `padn` of `md5_finish`. -/
def md5Padn (last : Nat) : Nat :=
  if last < 56 then 56 - last else 120 - last

/-- The digest that `md5_finish` puts out. -/
def Md5Words.output (state : Md5Words w) : List UInt8 :=
  putUlongLe state.a ++ putUlongLe state.b ++ putUlongLe state.c ++ putUlongLe state.d

/-- `md5_finish`. -/
def md5Finish (ctx : Md5Context w) : List UInt8 :=
  let high := (ctx.total0 >>> 29) ||| (ctx.total1 <<< 3)
  let low := ctx.total0 <<< 3
  let msglen := putUlongLe low ++ putUlongLe high
  let last := (ctx.total0 &&& BitVec.ofNat w 0x3F).toNat
  (md5Update (md5Update ctx (md5Padding.take (md5Padn last))) msglen).state.output

/-- What the digest of a message is: its blocks are taken in words of 32 bits, with the padding
and the number of its bits behind it. -/
def md5Digest (msg : List UInt8) : List UInt8 :=
  let padded := msg ++ md5Padding.take (md5Padn (msg.length % 64)) ++
    (putUlongLe (BitVec.ofNat 32 (8 * msg.length)) ++
      putUlongLe (BitVec.ofNat 32 (8 * msg.length / 2 ^ 32)))
  (BlockHash.absorb 64 md5Process (padded.length / 64) (md5Start 32) padded).output

/-! ## What is above the first 32 bits -/

/-- The first 32 bits of each word. -/
def Md5Words.low (v : Md5Words w) : Md5Words 32 :=
  ⟨v.a.setWidth 32, v.b.setWidth 32, v.c.setWidth 32, v.d.setWidth 32⟩

theorem getUlongLe_low (hw : 32 ≤ w) (b : List UInt8) (i : Nat) :
    (getUlongLe w b i).setWidth 32 = getUlongLe 32 b i := by
  simp only [getUlongLe, BitVec.setWidth_or, BitVec.setWidth_shiftLeft_of_le hw,
    BitVec.setWidth_setWidth_of_le _ hw]

theorem putUlongLe_low (n : BitVec w) : putUlongLe (n.setWidth 32) = putUlongLe n := by
  have hbyte : ∀ shift ≤ 24,
      ((n.setWidth 32) >>> shift).setWidth 8 = (n >>> shift).setWidth 8 := by
    intro shift hshift
    ext i hi
    simp only [BitVec.getElem_setWidth, BitVec.getLsbD_ushiftRight, BitVec.getLsbD_setWidth]
    rw [decide_eq_true (by omega : shift + i < 32), Bool.true_and]
  simp only [putUlongLe, List.map_cons, List.map_nil, hbyte, Nat.zero_le, Nat.reduceLeDiff]

/-- A mask of bits takes what is above them away. -/
theorem toNat_and_mask (x : BitVec w) (k : Nat) (hk : k ≤ w) :
    (x &&& BitVec.ofNat w (2 ^ k - 1)).toNat = x.toNat % 2 ^ k := by
  have hpow : 2 ^ k ≤ 2 ^ w := Nat.pow_le_pow_right Nat.two_pos hk
  have hpos : 0 < 2 ^ k := Nat.two_pow_pos k
  rw [BitVec.toNat_and, BitVec.toNat_ofNat, Nat.mod_eq_of_lt (by omega),
    Nat.and_two_pow_sub_one_eq_mod]

theorem and_mask (hw : 32 ≤ w) (x : BitVec w) :
    x &&& BitVec.ofNat w 0xFFFFFFFF = (x.setWidth 32).setWidth w := by
  have hlt : x.toNat % 2 ^ 32 < 2 ^ w :=
    Nat.lt_of_lt_of_le (Nat.mod_lt _ (Nat.two_pow_pos 32)) (Nat.pow_le_pow_right Nat.two_pos hw)
  apply BitVec.eq_of_toNat_eq
  rw [BitVec.toNat_setWidth, BitVec.toNat_setWidth, Nat.mod_eq_of_lt hlt]
  exact toNat_and_mask x 32 hw

/-- Rotating brings nothing down from above. -/
theorem md5S_low (hw : 32 ≤ w) (x : BitVec w) (n : Nat) :
    (md5S x n).setWidth 32 = md5S (x.setWidth 32) n := by
  rw [md5S, md5S, BitVec.setWidth_or, BitVec.setWidth_shiftLeft_of_le hw, and_mask hw,
    and_mask (Nat.le_refl 32)]
  congr 1
  ext i hi
  simp
  omega

theorem md5F_low (hw : 32 ≤ w) (round : Fin 4) (x y z : BitVec w) :
    (md5F round x y z).setWidth 32 =
      md5F round (x.setWidth 32) (y.setWidth 32) (z.setWidth 32) := by
  match round with
  | 0 | 1 | 2 => simp only [md5F, BitVec.setWidth_xor, BitVec.setWidth_and]
  | 3 => simp only [md5F, BitVec.setWidth_xor, BitVec.setWidth_or, BitVec.setWidth_not hw]

theorem md5P_low (hw : 32 ≤ w) (round : Fin 4) (x : Nat → BitVec w) (v : Md5Words w)
    (row : Nat × Nat × Nat) :
    (md5P round x v row).low = md5P round (fun k => (x k).setWidth 32) v.low row := by
  simp only [md5P, Md5Words.low, BitVec.setWidth_add _ _ hw, md5S_low hw, md5F_low hw,
    BitVec.setWidth_ofNat_of_le hw]

theorem md5Rounds_low (hw : 32 ≤ w) (x : Nat → BitVec w) (v : Md5Words w) :
    (md5Rounds x v).low = md5Rounds (fun k => (x k).setWidth 32) v.low := by
  have hpass : ∀ round v rows, (List.foldl (md5P round x) v rows).low =
      List.foldl (md5P round fun k => (x k).setWidth 32) v.low rows := fun round v rows =>
    (List.foldl_hom Md5Words.low fun v row => (md5P_low hw round x v row).symm).symm
  simp only [md5Rounds, hpass]

theorem md5Process_low (hw : 32 ≤ w) (state : Md5Words w) (data : List UInt8) :
    (md5Process state data).low = md5Process state.low data := by
  have hrounds := md5Rounds_low hw (fun k => getUlongLe w data (4 * k)) state
  simp only [getUlongLe_low hw] at hrounds
  simp only [md5Process, ← hrounds]
  simp only [Md5Words.low, BitVec.setWidth_add _ _ hw]

theorem output_low (state : Md5Words w) : state.low.output = state.output := by
  simp only [Md5Words.output, Md5Words.low, putUlongLe_low]

/-! ## What a context has of a message -/

theorem md5Blocks_append {body tail : List UInt8} {m : Nat} (hbody : body.length = m * 64)
    (htail : tail.length < 64) (state : Md5Words w) :
    md5Blocks state (body ++ tail) = (BlockHash.absorb 64 md5Process m state body, tail) := by
  induction m generalizing body state with
  | zero =>
      rw [Nat.zero_mul] at hbody
      rw [List.eq_nil_of_length_eq_zero hbody, List.nil_append, md5Blocks, if_neg (by omega)]
      rfl
  | succ m ih =>
      rw [Nat.succ_mul] at hbody
      rw [md5Blocks, if_pos (by rw [List.length_append]; omega),
        List.take_append_of_le_length (by omega), List.drop_append_of_le_length (by omega),
        ih (by rw [List.length_drop]; omega), BlockHash.absorb]

/-- A state has the whole blocks of a message. -/
abbrev Md5Words.Has (state : Md5Words w) (msg pending : List UInt8) : Prop :=
  BlockHash.Holds 64 md5Process (md5Start w) msg state pending

/-- A context has the bytes of a message. -/
structure Md5Context.Has (ctx : Md5Context w) (msg : List UInt8) : Prop where
  room : ctx.buffer.length = 64
  holds : ctx.state.Has msg (ctx.buffer.take (msg.length % 64))

/-- A context has the bytes of a message, and their number. -/
structure Md5Context.After (ctx : Md5Context w) (msg : List UInt8) : Prop extends ctx.Has msg where
  total0 : ctx.total0.toNat = msg.length % 2 ^ 32
  total1 : ctx.total1.toNat % 2 ^ 32 = msg.length / 2 ^ 32 % 2 ^ 32

variable {ctx : Md5Context w} {msg input : List UInt8} {state : Md5Words w} {left : Nat}

theorem starts_after (room : ctx.buffer.length = 64) : (md5Starts ctx).After [] where
  room := room
  holds := BlockHash.holds_nil (by decide)
  total0 := BitVec.toNat_zero
  total1 := congrArg (· % 2 ^ 32) BitVec.toNat_zero

/-- The bytes of a message that are in no block are those of its length modulo 64. -/
theorem Md5Context.After.left_eq (h : ctx.After msg) (hw : 32 ≤ w) :
    (ctx.total0 &&& BitVec.ofNat w 0x3F).toNat = msg.length % 64 := by
  have hmask := toNat_and_mask ctx.total0 6 (by omega)
  rw [h.total0, Nat.mod_mod_of_dvd _ (by decide)] at hmask
  exact hmask

theorem Md5Context.After.count_total0 (h : ctx.After msg) (hw : 32 ≤ w) (n : Nat) :
    (ctx.count n).total0.toNat = (msg.length + n) % 2 ^ 32 := by
  have hdvd : 2 ^ 32 ∣ 2 ^ w := Nat.pow_dvd_pow 2 hw
  have hmask := toNat_and_mask (ctx.total0 + BitVec.ofNat w n) 32 hw
  rw [BitVec.toNat_add, BitVec.toNat_ofNat, Nat.add_mod_mod, Nat.mod_mod_of_dvd _ hdvd, h.total0,
    Nat.mod_add_mod] at hmask
  exact hmask

/-- The second total counts how often the first one starts again. -/
theorem Md5Context.After.count_total1 (h : ctx.After msg) (hw : 32 ≤ w) {n : Nat}
    (hn : n < 2 ^ 31) :
    (ctx.count n).total1.toNat % 2 ^ 32 = (msg.length + n) / 2 ^ 32 % 2 ^ 32 := by
  have hdvd : 2 ^ 32 ∣ 2 ^ w := Nat.pow_dvd_pow 2 hw
  have hle : 2 ^ 32 ≤ 2 ^ w := Nat.le_of_dvd (Nat.two_pow_pos w) hdvd
  have htotal := h.count_total0 hw n
  have hbefore := h.total1
  have hone : (1 : BitVec w).toNat = 1 := BitVec.toNat_one (by omega)
  have hword : (BitVec.ofNat w n).toNat = n := by
    rw [BitVec.toNat_ofNat, Nat.mod_eq_of_lt (by omega)]
  have hcount : (ctx.count n).total1 =
      if (ctx.count n).total0 < BitVec.ofNat w n then ctx.total1 + 1 else ctx.total1 := rfl
  rw [hcount]
  split
  case isTrue hlt =>
    rw [BitVec.lt_def, htotal, hword] at hlt
    rw [BitVec.toNat_add, Nat.mod_mod_of_dvd _ hdvd, hone]
    omega
  case isFalse hge =>
    rw [BitVec.lt_def, htotal, hword] at hge
    omega

theorem blocks_eq {rest : List UInt8} (h : md5Blocks ctx.state input = (state, rest)) :
    ctx.blocks left input =
      { ctx with state := state, buffer := memcpy ctx.buffer left rest } := by
  cases rest with
  | nil => simp [Md5Context.blocks, h, memcpy]
  | cons b bs => simp [Md5Context.blocks, h]

/-- What is copied behind the pending bytes is pending, too. -/
theorem has_memcpy {rest : List UInt8} (room : ctx.buffer.length = 64) (hleft : left < 64)
    (h : state.Has msg (ctx.buffer.take left ++ rest)) :
    Md5Context.Has { ctx with state := state, buffer := memcpy ctx.buffer left rest } msg := by
  have hlen : (ctx.buffer.take left ++ rest).length = left + rest.length := by
    rw [List.length_append, List.length_take_of_le (by omega)]
  have hlt := h.1
  rw [hlen] at hlt
  refine ⟨(Buffer.length_memcpy (by omega)).trans room, ?_⟩
  rw [h.length_mod, memcpy, List.take_left]
  exact h

/-- Where nothing is pending, the whole blocks go into the state. -/
theorem blocks_whole (room : ctx.buffer.length = 64) (h : ctx.state.Has msg []) :
    (ctx.blocks 0 input).Has (msg ++ input) := by
  have hbody : (input.take (input.length / 64 * 64)).length = input.length / 64 * 64 :=
    List.length_take_of_le (Nat.div_mul_le_self _ _)
  have htail : (input.drop (input.length / 64 * 64)).length < 64 := by
    rw [List.length_drop]
    omega
  have hsplit := List.take_append_drop (input.length / 64 * 64) input
  have hblocks := md5Blocks_append hbody htail ctx.state
  have hholds := h.blocks hbody htail
  rw [hsplit] at hblocks hholds
  rw [blocks_eq hblocks]
  exact has_memcpy room (by decide) hholds

/-- Where no block is completed, the input is pending behind what was. -/
theorem blocks_short (room : ctx.buffer.length = 64)
    (h : ctx.state.Has msg (ctx.buffer.take left))
    (hlt : left + input.length < 64) : (ctx.blocks left input).Has (msg ++ input) := by
  have hblocks : md5Blocks ctx.state input = (ctx.state, input) := by
    rw [md5Blocks, if_neg (by omega)]
  rw [blocks_eq hblocks]
  refine has_memcpy room (by omega) (h.short ?_)
  rw [List.length_append, List.length_take_of_le (by omega)]
  exact hlt

theorem update_has (h : ctx.After msg) (hw : 32 ≤ w) (input : List UInt8) :
    (md5Update ctx input).Has (msg ++ input) := by
  have hlt : msg.length % 64 < 64 := Nat.mod_lt _ (by decide)
  have hholds := h.holds
  unfold md5Update
  simp only [h.left_eq hw]
  split
  case isTrue hnil =>
    rw [List.eq_nil_of_length_eq_zero hnil, List.append_nil]
    exact h.toHas
  split
  case isTrue hfill =>
    have hfront : (input.take (64 - msg.length % 64)).length = 64 - msg.length % 64 :=
      List.length_take_of_le hfill.2
    have hcopy : memcpy ctx.buffer (msg.length % 64) (input.take (64 - msg.length % 64)) =
        ctx.buffer.take (msg.length % 64) ++ input.take (64 - msg.length % 64) := by
      rw [memcpy, List.drop_of_length_le (by rw [h.room, hfront]; omega), List.append_nil]
    have hlen : (memcpy ctx.buffer (msg.length % 64)
        (input.take (64 - msg.length % 64))).length = 64 :=
      (Buffer.length_memcpy (by rw [h.room, hfront]; omega)).trans h.room
    rw [← List.take_append_drop (64 - msg.length % 64) input, ← List.append_assoc]
    simp only [List.take_append_drop]
    refine blocks_whole hlen ?_
    rw [hcopy] at hlen
    have hfull := hholds.full hlen
    rw [← hcopy] at hfull
    exact hfull
  case isFalse hfill =>
    by_cases hzero : msg.length % 64 = 0
    · rw [hzero] at hholds ⊢
      exact blocks_whole h.room hholds
    · exact blocks_short h.room hholds (by omega)

theorem update_totals (ctx : Md5Context w) (hinput : input ≠ []) :
    (md5Update ctx input).total0 = (ctx.count input.length).total0 ∧
      (md5Update ctx input).total1 = (ctx.count input.length).total1 := by
  rw [md5Update, if_neg (fun h => hinput (List.eq_nil_of_length_eq_zero h))]
  dsimp only
  split <;> exact ⟨rfl, rfl⟩

theorem update_after (h : ctx.After msg) (hw : 32 ≤ w) (hinput : input.length < 2 ^ 31) :
    (md5Update ctx input).After (msg ++ input) := by
  have hhas : (md5Update ctx input).Has (msg ++ input) := update_has h hw input
  by_cases hnil : input = []
  · subst hnil
    rw [List.append_nil]
    exact h
  · obtain ⟨htotal0, htotal1⟩ := update_totals ctx hnil
    exact { hhas with
      total0 := by rw [htotal0, h.count_total0 hw, List.length_append]
      total1 := by rw [htotal1, h.count_total1 hw hinput, List.length_append] }

theorem updates_after (hw : 32 ≤ w) {pieces : List (List UInt8)}
    (hpieces : ∀ p ∈ pieces, p.length < 2 ^ 31) (h : ctx.After msg) :
    (pieces.foldl md5Update ctx).After (msg ++ pieces.flatten) := by
  induction pieces generalizing ctx msg with
  | nil => rwa [List.flatten_nil, List.append_nil]
  | cons p ps ih =>
      rw [List.forall_mem_cons] at hpieces
      rw [List.flatten_cons, ← List.append_assoc]
      exact ih hpieces.2 (update_after h hw hpieces.1)

/-! ## The digest -/

/-- The number of bits, as `md5_finish` puts it. -/
theorem Md5Context.After.msglen_eq (h : ctx.After msg) (hw : 32 ≤ w) :
    putUlongLe (ctx.total0 <<< 3) ++ putUlongLe ((ctx.total0 >>> 29) ||| (ctx.total1 <<< 3)) =
      putUlongLe (BitVec.ofNat 32 (8 * msg.length)) ++
        putUlongLe (BitVec.ofNat 32 (8 * msg.length / 2 ^ 32)) := by
  have hdvd : 2 ^ 32 ∣ 2 ^ w := Nat.pow_dvd_pow 2 hw
  have htotal0 := h.total0
  have htotal1 := h.total1
  have hlow : (ctx.total0 <<< 3).setWidth 32 = BitVec.ofNat 32 (8 * msg.length) := by
    apply BitVec.eq_of_toNat_eq
    rw [BitVec.toNat_setWidth, BitVec.toNat_shiftLeft, Nat.mod_mod_of_dvd _ hdvd,
      BitVec.toNat_ofNat, Nat.shiftLeft_eq]
    omega
  have hhigh : ((ctx.total0 >>> 29) ||| (ctx.total1 <<< 3)).setWidth 32 =
      BitVec.ofNat 32 (8 * msg.length / 2 ^ 32) := by
    apply BitVec.eq_of_toNat_eq
    have hsmall : ctx.total0.toNat / 2 ^ 29 < 2 ^ 3 := by omega
    rw [BitVec.setWidth_or, BitVec.toNat_or, BitVec.toNat_setWidth, BitVec.toNat_setWidth,
      BitVec.toNat_ushiftRight, BitVec.toNat_shiftLeft, Nat.mod_mod_of_dvd _ hdvd,
      BitVec.toNat_ofNat, Nat.shiftLeft_eq, Nat.shiftRight_eq_div_pow,
      Nat.mod_eq_of_lt (by omega : ctx.total0.toNat / 2 ^ 29 < 2 ^ 32),
      show ctx.total1.toNat * 2 ^ 3 % 2 ^ 32 = 2 ^ 3 * (ctx.total1.toNat % 2 ^ 29) by omega,
      Nat.or_comm, ← Nat.two_pow_add_eq_or_of_lt hsmall]
    omega
  rw [← putUlongLe_low (ctx.total0 <<< 3), hlow, ← putUlongLe_low (_ ||| _), hhigh]

theorem md5Padn_le (last : Nat) : md5Padn last ≤ 120 := by
  unfold md5Padn
  split <;> omega

/-- The padding and the number of bits complete a block. -/
theorem length_padded (msg : List UInt8) {bits : List UInt8} (hbits : bits.length = 8) :
    (msg ++ md5Padding.take (md5Padn (msg.length % 64)) ++ bits).length % 64 = 0 := by
  have hpadding : md5Padding.length = 64 := rfl
  rw [List.length_append, List.length_append, List.length_take, hpadding, hbits, md5Padn]
  split <;> omega

theorem finish_eq (h : ctx.After msg) (hw : 32 ≤ w) : md5Finish ctx = md5Digest msg := by
  have hpadding : (md5Padding.take (md5Padn (msg.length % 64))).length < 2 ^ 31 :=
    Nat.lt_of_le_of_lt (List.length_take_le _ _)
      (Nat.lt_of_le_of_lt (md5Padn_le _) (by decide))
  have hholds := (update_has (update_after h hw hpadding) hw
    (putUlongLe (BitVec.ofNat 32 (8 * msg.length)) ++
      putUlongLe (BitVec.ofNat 32 (8 * msg.length / 2 ^ 32)))).holds
  rw [length_padded msg rfl, List.take_zero] at hholds
  rw [md5Finish, h.left_eq hw, h.msglen_eq hw, hholds.state_eq, ← output_low,
    BlockHash.absorb_map Md5Words.low (md5Process_low hw)]
  simp only [Md5Words.low, md5Start, BitVec.setWidth_ofNat_of_le hw]
  rfl

/-- The digest is that of the whole message, whatever pieces it comes in and however wide the
words are. -/
theorem md5_pieces (hw : 32 ≤ w) (room : ctx.buffer.length = 64) (pieces : List (List UInt8))
    (hpieces : ∀ p ∈ pieces, p.length < 2 ^ 31) :
    md5Finish (pieces.foldl md5Update (md5Starts ctx)) = md5Digest pieces.flatten :=
  finish_eq (updates_after hw hpieces (starts_after room)) hw

theorem md5_pieces_two :
    md5Finish (List.foldl md5Update (md5Starts ⟨7, 9, md5Start 64, List.replicate 64 5⟩)
        [[112, 97], [], [115, 115]]) = md5Digest [112, 97, 115, 115] :=
  md5_pieces (by decide) rfl [[112, 97], [], [115, 115]] (by decide)

end Sylverant.Servers
