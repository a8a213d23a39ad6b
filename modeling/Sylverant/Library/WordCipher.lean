/-
# Ciphers that go block by block

A cipher with a state takes the bytes of a buffer in blocks of one width, and leaves what is
behind them alone. What it does with some blocks it does with the first of them and then with the
rest, so a stream may be cut into calls in any way. Where a step of one cipher undoes a step of
another one in the same state, its calls undo the other's calls, whatever the cuts of the two
are. A stream cipher adds the numbers of a generator to the words of the data, and a Feistel
network adds to each half of a block in turn what it makes of the other half.
-/

import Mathlib.Data.UInt
import Sylverant.Library.LaggedBlock

namespace WordCipher

universe u v

variable {α : Type u} {σ : Type v} {w m n p : Nat}

/-! ## Blocks -/

/-- A step of a cipher, with the state that it leaves. -/
abbrev Step (α : Type u) (σ : Type v) : Type (max u v) := σ → List α → List α × σ

/-- Take some blocks at the front of a buffer. A buffer that ends before them is an error. -/
def crypt (w : Nat) (step : Step α σ) : Nat → σ → List α → Option (List α × σ)
  | 0, s, data => some (data, s)
  | n + 1, s, data =>
      if data.length < w then none
      else
        (crypt w step n (step s (data.take w)).2 (data.drop w)).map fun result =>
          ((step s (data.take w)).1 ++ result.1, result.2)

variable {step other : Step α σ} {s s' : σ} {data out a b c : List α}

theorem crypt_cons (hc : c.length = w) :
    crypt w step (n + 1) s (c ++ data) =
      (crypt w step n (step s c).2 data).map fun result =>
        ((step s c).1 ++ result.1, result.2) := by
  rw [crypt, if_neg (by rw [List.length_append]; omega), List.take_left' hc, List.drop_left' hc]

/-- A buffer of whole blocks has a first one. -/
theorem exists_block (hlen : data.length = (n + 1) * w) :
    ∃ c rest, data = c ++ rest ∧ c.length = w ∧ rest.length = n * w := by
  rw [Nat.succ_mul] at hlen
  exact ⟨data.take w, data.drop w, (List.take_append_drop w data).symm,
    by rw [List.length_take]; omega, by rw [List.length_drop]; omega⟩

/-- A step keeps the width of a block. -/
def Keeps (w : Nat) (step : Step α σ) : Prop :=
  ∀ s c, c.length = w → (step s c).1.length = w

theorem length_crypt (hkeeps : Keeps w step) (hcrypt : crypt w step n s data = some (out, s')) :
    out.length = data.length := by
  induction n generalizing data s out with
  | zero =>
      obtain ⟨rfl, -⟩ : data = out ∧ s = s' := by simpa [crypt] using hcrypt
      rfl
  | succ n ih =>
      rw [crypt] at hcrypt
      by_cases hlt : data.length < w
      · rw [if_pos hlt] at hcrypt
        cases hcrypt
      · rw [if_neg hlt, Option.map_eq_some_iff] at hcrypt
        obtain ⟨⟨out', s''⟩, hcrypt, heq⟩ := hcrypt
        obtain ⟨rfl, rfl⟩ := Prod.mk.inj heq
        rw [List.length_append, ih hcrypt, hkeeps s _ (by rw [List.length_take]; omega),
          List.length_drop]
        omega

/-- Whole blocks that are there are taken. -/
theorem crypt_isSome (hlen : data.length = n * w) (s : σ) :
    ∃ out s', crypt w step n s data = some (out, s') := by
  induction n generalizing data s with
  | zero => exact ⟨data, s, rfl⟩
  | succ n ih =>
      obtain ⟨c, rest, rfl, hc, hrest⟩ := exists_block hlen
      obtain ⟨out, s', hcrypt⟩ := ih hrest (step s c).2
      exact ⟨(step s c).1 ++ out, s', by rw [crypt_cons hc, hcrypt]; rfl⟩

/-- What is behind the blocks stays as it is. -/
theorem crypt_append_left (hlen : a.length = m * w) (hcrypt : crypt w step m s a = some (out, s')) :
    crypt w step (m + n) s (a ++ b) =
      (crypt w step n s' b).map fun result => (out ++ result.1, result.2) := by
  induction m generalizing a s out with
  | zero =>
      rw [Nat.zero_mul] at hlen
      obtain rfl : a = [] := List.eq_nil_of_length_eq_zero hlen
      obtain ⟨rfl, rfl⟩ : [] = out ∧ s = s' := by simpa [crypt] using hcrypt
      rw [Nat.zero_add, List.nil_append]
      cases crypt w step n s b <;> rfl
  | succ m ih =>
      obtain ⟨c, rest, rfl, hc, hrest⟩ := exists_block hlen
      rw [crypt_cons hc, Option.map_eq_some_iff] at hcrypt
      obtain ⟨⟨out', s''⟩, hcrypt, heq⟩ := hcrypt
      obtain ⟨rfl, rfl⟩ := Prod.mk.inj heq
      rw [Nat.add_right_comm, List.append_assoc, crypt_cons hc, ih hrest hcrypt, Option.map_map]
      congr 1
      funext result
      simp only [Function.comp_apply, List.append_assoc]

/-! ## Calls -/

/-- Calls for the pieces of a stream, one after another. -/
def calls (call : σ → List α → Option (List α × σ)) : σ → List (List α) →
    Option (List (List α) × σ)
  | s, [] => some ([], s)
  | s, piece :: pieces =>
      match call s piece with
      | none => none
      | some (out, s') =>
          match calls call s' pieces with
          | none => none
          | some (outs, s'') => some (out :: outs, s'')

/-- A cipher that takes all blocks of a piece. -/
def Takes (w : Nat) (step : Step α σ) (call : σ → List α → Option (List α × σ)) : Prop :=
  ∀ s n data, data.length = n * w → call s data = crypt w step n s data

/-- The number of blocks is rounded up, which makes no difference to whole ones. -/
theorem crypt_takes (hpos : 0 < w) :
    Takes w step fun s data => crypt w step ((data.length + (w - 1)) / w) s data := by
  intro s n data hlen
  have hround : (n * w + (w - 1)) / w = n := by
    rw [Nat.mul_comm, Nat.mul_add_div hpos, Nat.div_eq_of_lt (Nat.sub_one_lt_of_lt hpos),
      Nat.add_zero]
  simp only [hlen, hround]

variable {call undo : σ → List α → Option (List α × σ)} {pieces : List (List α)}

/-- Calls for pieces that are whole blocks do what one call for all of them does. -/
theorem calls_flatten (htakes : Takes w step call)
    (hpieces : ∀ piece ∈ pieces, w ∣ piece.length) (s : σ) :
    ∃ outs s' n, calls call s pieces = some (outs, s') ∧ pieces.flatten.length = n * w ∧
      crypt w step n s pieces.flatten = some (outs.flatten, s') := by
  induction pieces generalizing s with
  | nil => exact ⟨[], s, 0, rfl, (Nat.zero_mul w).symm, rfl⟩
  | cons piece pieces ih =>
      obtain ⟨hpiece, hpieces⟩ := List.forall_mem_cons.mp hpieces
      obtain ⟨m, hm⟩ := hpiece
      rw [Nat.mul_comm] at hm
      obtain ⟨out, s₁, hcrypt⟩ := crypt_isSome hm s
      obtain ⟨outs, s₂, n, hcalls, hlen, hrest⟩ := ih hpieces s₁
      refine ⟨out :: outs, s₂, m + n, ?_, ?_, ?_⟩
      · rw [calls, htakes s m piece hm, hcrypt]
        simp only [hcalls]
      · rw [List.flatten_cons, List.length_append, hm, hlen, Nat.add_mul]
      · rw [List.flatten_cons, List.flatten_cons, crypt_append_left hm hcrypt, hrest]
        rfl

/-- Each step of a cipher undoes the step of another one that is in the same state, and both go
on in the same state. -/
def Undoes (w : Nat) (other step : Step α σ) : Prop :=
  ∀ s c, c.length = w → other s (step s c).1 = (c, (step s c).2)

theorem crypt_undoes (hkeeps : Keeps w step) (hundoes : Undoes w other step)
    (hlen : data.length = n * w) (hcrypt : crypt w step n s data = some (out, s')) :
    crypt w other n s out = some (data, s') := by
  induction n generalizing data s out with
  | zero =>
      obtain ⟨rfl, rfl⟩ : data = out ∧ s = s' := by simpa [crypt] using hcrypt
      rfl
  | succ n ih =>
      obtain ⟨c, rest, rfl, hc, hrest⟩ := exists_block hlen
      rw [crypt_cons hc, Option.map_eq_some_iff] at hcrypt
      obtain ⟨⟨out', s''⟩, hcrypt, heq⟩ := hcrypt
      obtain ⟨rfl, rfl⟩ := Prod.mk.inj heq
      rw [crypt_cons (hkeeps s c hc), hundoes s c hc, ih hrest hcrypt]
      rfl

/-- What one end of a link sends in some pieces, the other end reads in any pieces. -/
theorem calls_undo (htakes : Takes w step call) (hkeeps : Keeps w step)
    (htakes' : Takes w other undo) (hundoes : Undoes w other step)
    (hpos : 0 < w) (hpieces : ∀ piece ∈ pieces, w ∣ piece.length) (s : σ) :
    ∃ outs s', calls call s pieces = some (outs, s') ∧
      ∀ cut : List (List α), (∀ piece ∈ cut, w ∣ piece.length) → cut.flatten = outs.flatten →
        ∃ read, calls undo s cut = some (read, s') ∧ read.flatten = pieces.flatten := by
  obtain ⟨outs, s', n, hcalls, hlen, hcrypt⟩ := calls_flatten htakes hpieces s
  refine ⟨outs, s', hcalls, fun cut hcut hflatten => ?_⟩
  obtain ⟨read, s₁, m, hread, hlen', hcrypt'⟩ := calls_flatten htakes' hcut s
  have hsame : m = n := by
    apply Nat.eq_of_mul_eq_mul_right hpos
    rw [← hlen', ← hlen, hflatten, length_crypt hkeeps hcrypt]
  rw [hsame, hflatten, crypt_undoes hkeeps hundoes hlen hcrypt, Option.some_inj] at hcrypt'
  obtain ⟨hdata, rfl⟩ := Prod.mk.inj hcrypt'
  exact ⟨read, hread, hdata.symm⟩

/-! ## Words -/

/-- A word from its bytes, the lowest first. -/
def word (bytes : List UInt8) : UInt32 :=
  (bytes.getD 0 0).toUInt32 ||| (bytes.getD 1 0).toUInt32 <<< 8 |||
    (bytes.getD 2 0).toUInt32 <<< 16 ||| (bytes.getD 3 0).toUInt32 <<< 24

/-- The bytes of a word, the lowest first. -/
def wordBytes (x : UInt32) : List UInt8 :=
  [x.toUInt8, (x >>> 8).toUInt8, (x >>> 16).toUInt8, (x >>> 24).toUInt8]

@[simp]
theorem length_wordBytes (x : UInt32) : (wordBytes x).length = 4 := rfl

/-- The bits of a word are those of its bytes. -/
theorem getLsbD_word (a b c d : UInt8) {i : Nat} (hi : i < 32) :
    (word [a, b, c, d]).toBitVec.getLsbD i =
      if i < 8 then a.toBitVec.getLsbD i
      else if i < 16 then b.toBitVec.getLsbD (i - 8)
      else if i < 24 then c.toBitVec.getLsbD (i - 16)
      else d.toBitVec.getLsbD (i - 24) := by
  simp only [word, List.getD_cons_zero, List.getD_cons_succ, UInt32.toBitVec_or,
    UInt32.toBitVec_shiftLeft, UInt8.toBitVec_toUInt32, BitVec.getLsbD_or]
  simp [hi]
  grind

theorem byte_ext {x y : UInt8} (same : ∀ i < 8, x.toBitVec.getLsbD i = y.toBitVec.getLsbD i) :
    x = y :=
  UInt8.eq_of_toBitVec_eq (BitVec.eq_of_getLsbD_eq same)

theorem getLsbD_toUInt8 (x : UInt32) {i : Nat} (hi : i < 8) :
    x.toUInt8.toBitVec.getLsbD i = x.toBitVec.getLsbD i := by
  simp only [UInt32.toBitVec_toUInt8, BitVec.getLsbD_setWidth, hi, decide_true, Bool.true_and]

theorem getLsbD_shiftRight (x k : UInt32) (i : Nat) :
    (x >>> k).toBitVec.getLsbD i = x.toBitVec.getLsbD (k.toNat % 32 + i) := by
  simp [BitVec.getLsbD_ushiftRight]

theorem exists_bytes {c : List UInt8} (hc : c.length = 4) :
    ∃ b₀ b₁ b₂ b₃, c = [b₀, b₁, b₂, b₃] := by
  rcases c with _ | ⟨b₀, _ | ⟨b₁, _ | ⟨b₂, _ | ⟨b₃, rest⟩⟩⟩⟩
  case cons.cons.cons.cons =>
    obtain rfl : rest = [] := List.eq_nil_of_length_eq_zero (by simpa using hc)
    exact ⟨b₀, b₁, b₂, b₃, rfl⟩
  all_goals exact absurd hc (by simp)

theorem wordBytes_word {c : List UInt8} (hc : c.length = 4) : wordBytes (word c) = c := by
  obtain ⟨b₀, b₁, b₂, b₃, rfl⟩ := exists_bytes hc
  have hbit {i : Nat} (hi : i < 32) := getLsbD_word b₀ b₁ b₂ b₃ hi
  simp only [wordBytes, List.cons.injEq, and_true]
  refine ⟨byte_ext fun i hi => ?_, byte_ext fun i hi => ?_, byte_ext fun i hi => ?_,
    byte_ext fun i hi => ?_⟩
  · rw [getLsbD_toUInt8 _ hi, hbit (by omega), if_pos hi]
  · rw [getLsbD_toUInt8 _ hi, getLsbD_shiftRight, show (8 : UInt32).toNat % 32 = 8 from rfl,
      hbit (by omega), if_neg (by omega), if_pos (by omega), Nat.add_sub_cancel_left]
  · rw [getLsbD_toUInt8 _ hi, getLsbD_shiftRight, show (16 : UInt32).toNat % 32 = 16 from rfl,
      hbit (by omega), if_neg (by omega), if_neg (by omega), if_pos (by omega),
      Nat.add_sub_cancel_left]
  · rw [getLsbD_toUInt8 _ hi, getLsbD_shiftRight, show (24 : UInt32).toNat % 32 = 24 from rfl,
      hbit (by omega), if_neg (by omega), if_neg (by omega), if_neg (by omega),
      Nat.add_sub_cancel_left]

theorem word_wordBytes (x : UInt32) : word (wordBytes x) = x := by
  apply UInt32.eq_of_toBitVec_eq
  apply BitVec.eq_of_getLsbD_eq
  intro i hi
  rw [wordBytes, getLsbD_word _ _ _ _ hi]
  simp
  grind

theorem wordBytes_xor (x y : UInt32) :
    wordBytes (x ^^^ y) = List.zipWith (· ^^^ ·) (wordBytes x) (wordBytes y) := by
  simp only [wordBytes, UInt32.shiftRight_xor, UInt32.toUInt8_xor, List.zipWith_cons_cons,
    List.zipWith_nil_left]

/-! ## Stream ciphers -/

/-- Add the next number of a generator to a word. -/
def streamStep (next : σ → UInt32 × σ) : Step UInt8 σ := fun s c =>
  (wordBytes (word c ^^^ (next s).1), (next s).2)

theorem streamStep_keeps (next : σ → UInt32 × σ) : Keeps 4 (streamStep next) :=
  fun _ _ _ => rfl

theorem streamStep_undoes (next : σ → UInt32 × σ) :
    Undoes 4 (streamStep next) (streamStep next) := by
  intro s c hc
  show (wordBytes (word (wordBytes (word c ^^^ (next s).1)) ^^^ (next s).1), (next s).2) = _
  rw [word_wordBytes, UInt32.xor_assoc, UInt32.xor_self, UInt32.xor_zero,
    wordBytes_word hc]
  rfl

/-- A generator gives the numbers of a stream. Its state tells how many it gave. -/
def Gives (next : σ → UInt32 × σ) (x : Nat → UInt32) (At : Nat → σ → Prop) : Prop :=
  ∀ p s, At p s → (next s).1 = x p ∧ At (p + 1) (next s).2

/-- The numbers that a generator gives from a state on. -/
def nth (next : σ → UInt32 × σ) (s : σ) : Nat → UInt32
  | 0 => (next s).1
  | i + 1 => nth next (next s).2 i

theorem Gives.nth_eq {next : σ → UInt32 × σ} {x : Nat → UInt32} {At : Nat → σ → Prop}
    (hgives : Gives next x At) (hs : At p s) (i : Nat) : nth next s i = x (p + i) := by
  induction i generalizing p s with
  | zero => exact (hgives p s hs).1
  | succ i ih =>
      rw [nth, ih (hgives p s hs).2]
      congr 1
      omega

/-- Two generators that give as many numbers alike as their tables have give all numbers alike,
if what they give tells what they have. -/
theorem Gives.determined {g : LaggedBlock.Lagged α} {x y : Nat → α} (f : α → UInt32)
    (hf : ∀ a b, f a = f b → a = b) (hx : g.Follows x) (hy : g.Follows y)
    {next : σ → UInt32 × σ} {At Bt : Nat → σ → Prop} (ha : Gives next (fun i => f (x i)) At)
    (hb : Gives next (fun i => f (y i)) Bt) {q : Nat} {t : σ} (hs : At p s) (ht : Bt q t)
    (hknown : ∀ i < g.size, nth next s i = nth next t i) (i : Nat) :
    nth next s i = nth next t i := by
  rw [ha.nth_eq hs, hb.nth_eq ht]
  refine congrArg f (hx.ext_of_window hy (fun j hj => hf _ _ ?_) i)
  rw [← ha.nth_eq hs, ← hb.nth_eq ht, hknown j hj]

/-- The bytes of a stream of words. -/
def streamByte (x : Nat → UInt32) (i : Nat) : UInt8 := (wordBytes (x (i / 4))).getD (i % 4) 0

/-- Each byte of the data is added to the byte of the stream at its place. -/
theorem crypt_stream {next : σ → UInt32 × σ} {x : Nat → UInt32} {At : Nat → σ → Prop}
    (hgives : Gives next x At) {data : List UInt8} (hlen : data.length = n * 4) (hs : At p s) :
    ∃ s', crypt 4 (streamStep next) n s data =
        some (data.mapIdx fun i b => b ^^^ streamByte x (4 * p + i), s') ∧ At (p + n) s' := by
  induction n generalizing data p s with
  | zero =>
      rw [Nat.zero_mul] at hlen
      obtain rfl : data = [] := List.eq_nil_of_length_eq_zero hlen
      exact ⟨s, rfl, hs⟩
  | succ n ih =>
      obtain ⟨c, rest, rfl, hc, hrest⟩ := exists_block hlen
      obtain ⟨hvalue, hnext⟩ := hgives p s hs
      obtain ⟨s', hcrypt, hend⟩ := ih hrest hnext
      refine ⟨s', ?_, by rwa [Nat.add_right_comm] at hend⟩
      have hfirst : (streamStep next s c).1 =
          c.mapIdx fun i b => b ^^^ streamByte x (4 * p + i) := by
        rw [streamStep, wordBytes_xor, wordBytes_word hc, hvalue]
        obtain ⟨b₀, b₁, b₂, b₃, rfl⟩ := exists_bytes hc
        simp [streamByte, Nat.mul_add_div, wordBytes]
      rw [crypt_cons hc]
      rw [show (streamStep next s c).2 = (next s).2 from rfl, hcrypt, Option.map_some, hfirst,
        List.mapIdx_append, hc]
      simp only [Nat.mul_add, Nat.mul_one, Nat.add_assoc, Nat.add_comm 4]

/-- Calls for the pieces of a stream go on in the keystream. -/
theorem calls_stream {next : σ → UInt32 × σ} {x : Nat → UInt32} {At : Nat → σ → Prop}
    {call : σ → List UInt8 → Option (List UInt8 × σ)} {pieces : List (List UInt8)}
    (htakes : Takes 4 (streamStep next) call) (hgives : Gives next x At)
    (hpieces : ∀ piece ∈ pieces, 4 ∣ piece.length) (hs : At p s) :
    ∃ outs s' n, calls call s pieces = some (outs, s') ∧ pieces.flatten.length = n * 4 ∧
      outs.flatten = pieces.flatten.mapIdx (fun i b => b ^^^ streamByte x (4 * p + i)) ∧
      At (p + n) s' := by
  obtain ⟨outs, s', n, hcalls, hlen, hcrypt⟩ := calls_flatten htakes hpieces s
  obtain ⟨s₁, hstream, hend⟩ := crypt_stream hgives hlen hs
  rw [hcrypt, Option.some_inj] at hstream
  obtain ⟨hout, rfl⟩ := Prod.mk.inj hstream
  exact ⟨outs, s', n, hcalls, hlen, hout, hend⟩

/-! ## Feistel networks -/

section Feistel

variable {β : Type u} {κ : Type v} (f : κ → β → β) (add : β → β → β)

/-- Rounds of a network. Each adds to one half what it makes of the other one, and exchanges
them. -/
def rounds : List κ → β × β → β × β
  | [], h => h
  | k :: ks, h => rounds ks (add h.2 (f k h.1), h.1)

theorem rounds_append (ks ls : List κ) (h : β × β) :
    rounds f add (ks ++ ls) h = rounds f add ls (rounds f add ks h) := by
  induction ks generalizing h with
  | nil => rfl
  | cons k ks ih => exact ih _

/-- The rounds in the other order, from the exchanged halves, lead back. -/
theorem rounds_reverse (hcancel : ∀ a b, add (add a b) b = a) (ks : List κ) (h : β × β) :
    rounds f add ks.reverse (rounds f add ks h).swap = h.swap := by
  induction ks generalizing h with
  | nil => rfl
  | cons k ks ih =>
      rw [List.reverse_cons, rounds_append]
      show rounds f add [k] (rounds f add ks.reverse
        (rounds f add ks (add h.2 (f k h.1), h.1)).swap) = h.swap
      rw [ih]
      show (add (add h.2 (f k h.1)) (f k h.1), h.1) = h.swap
      rw [hcancel]
      rfl

end Feistel

end WordCipher
