/-
# The block cipher of PSOBB

PSOBB encrypts blocks of two words. A block goes through four rounds of a network with the first
six keys, and the same rounds with these keys in the other order decrypt it. The other keys are
tables that the rounds look bytes up in. All of the keys are made by sixteen rounds of the same
network, from a table of constants that is a parameter here, and from a salt of 48 bytes.
-/

import Sylverant.Encryption.Streams

namespace Sylverant.Encryption

open LaggedBlock (fold_inv table table_of_lt table_set_ne table_set_self)
open WordCipher (Keeps Undoes Step rounds rounds_reverse word wordBytes word_wordBytes
  wordBytes_word length_wordBytes)

theorem shiftRight_lt (x : UInt32) : (x >>> 0x18).toNat < 256 := by
  rw [UInt32.toNat_shiftRight, Nat.shiftRight_eq_div_pow]
  exact Nat.div_lt_of_lt_mul (show x.toNat < 2 ^ 24 * 256 from x.toNat_lt)

theorem and_lt (x : UInt32) : (x &&& 0xff).toNat < 256 := by
  rw [UInt32.toNat_and]
  exact Nat.lt_succ_of_le Nat.and_le_right

/-- What a round makes of a word: the keys at the places that its bytes tell, from the tables
behind the first 18 keys. -/
def bbRound (keys : Keys) (x : UInt32) : UInt32 :=
  have h₀ := shiftRight_lt x
  have h₁ := and_lt (x >>> 0x10)
  have h₂ := and_lt (x >>> 0x8)
  have h₃ := and_lt x
  ((keys[(x >>> 0x18).toNat + 0x12] + keys[((x >>> 0x10) &&& 0xff).toNat + 0x112]) ^^^
    keys[((x >>> 0x8) &&& 0xff).toNat + 0x212]) + keys[(x &&& 0xff).toNat + 0x312]

/-- The four rounds that `CRYPT_BB_Encrypt` and `CRYPT_BB_Decrypt` have for a block, with the
first keys in the order in which they are used. -/
def bbBlock (keys : Keys) (k₀ k₁ k₂ k₃ k₄ k₅ first second : UInt32) : UInt32 × UInt32 :=
  let ebx := first ^^^ k₀
  let ebp := bbRound keys ebx ^^^ k₁ ^^^ second
  let edi := bbRound keys ebp ^^^ k₂
  let ebx := ebx ^^^ edi
  let esi := bbRound keys ebx
  let ebp := ebp ^^^ esi ^^^ k₃
  let edi := bbRound keys ebp ^^^ k₄
  (ebp ^^^ k₅, ebx ^^^ edi)

/-- A block in `CRYPT_BB_Encrypt`. -/
def bbEncryptBlock (keys : Keys) : UInt32 → UInt32 → UInt32 × UInt32 :=
  bbBlock keys (keys.get 0) (keys.get 1) (keys.get 2) (keys.get 3) (keys.get 4) (keys.get 5)

/-- A block in `CRYPT_BB_Decrypt`. -/
def bbDecryptBlock (keys : Keys) : UInt32 → UInt32 → UInt32 × UInt32 :=
  bbBlock keys (keys.get 5) (keys.get 4) (keys.get 3) (keys.get 2) (keys.get 1) (keys.get 0)

/-- What is done with the two words of a block is done with its bytes. The keys stay. -/
def bbStep (block : Keys → UInt32 → UInt32 → UInt32 × UInt32) : Step UInt8 Keys := fun keys c =>
  let result := block keys (word (c.take 4)) (word (c.drop 4))
  (wordBytes result.1 ++ wordBytes result.2, keys)

/-- `CRYPT_BB_Encrypt`. -/
def cryptBbEncrypt (keys : Keys) (data : List UInt8) (length : Nat) :
    Option (List UInt8 × Keys) :=
  WordCipher.crypt 8 (bbStep bbEncryptBlock) ((length + 7) / 8) keys data

/-- `CRYPT_BB_Decrypt`. -/
def cryptBbDecrypt (keys : Keys) (data : List UInt8) (length : Nat) :
    Option (List UInt8 × Keys) :=
  WordCipher.crypt 8 (bbStep bbDecryptBlock) ((length + 7) / 8) keys data

/-! ## The network -/

/-- A word is added before the rounds, and one after them to the half that comes first. -/
def network (keys : Keys) (before : UInt32) (ks : List UInt32) (after : UInt32)
    (h : UInt32 × UInt32) : UInt32 × UInt32 :=
  let out := rounds (fun k x => bbRound keys x ^^^ k) (· ^^^ ·) ks (h.1 ^^^ before, h.2)
  (out.2 ^^^ after, out.1)

theorem xor_cancel (a b : UInt32) : a ^^^ b ^^^ b = a := by
  rw [UInt32.xor_assoc, UInt32.xor_self, UInt32.xor_zero]

/-- The rounds in the other order undo a network. -/
theorem network_reverse (keys : Keys) (before after : UInt32) (ks : List UInt32)
    (h : UInt32 × UInt32) :
    network keys after ks.reverse before (network keys before ks after h) = h := by
  have hback := rounds_reverse (fun k x => bbRound keys x ^^^ k) (· ^^^ ·) xor_cancel ks
    (h.1 ^^^ before, h.2)
  simp only [network, xor_cancel]
  rw [show (∀ q : UInt32 × UInt32, (q.2, q.1) = q.swap) from fun _ => rfl, hback]
  exact Prod.ext (xor_cancel h.1 before) rfl

/-- The four rounds are a network. -/
theorem bbBlock_eq (keys : Keys) (k₀ k₁ k₂ k₃ k₄ k₅ first second : UInt32) :
    bbBlock keys k₀ k₁ k₂ k₃ k₄ k₅ first second =
      network keys k₀ [k₁, k₂, k₃, k₄] k₅ (first, second) := by
  have hsecond := UInt32.xor_comm (bbRound keys (first ^^^ k₀) ^^^ k₁) second
  simp only [bbBlock, network, rounds, hsecond, UInt32.xor_assoc]

theorem bbDecryptBlock_encrypt (keys : Keys) (h : UInt32 × UInt32) :
    bbDecryptBlock keys (bbEncryptBlock keys h.1 h.2).1 (bbEncryptBlock keys h.1 h.2).2 = h := by
  rw [bbDecryptBlock, bbEncryptBlock, bbBlock_eq, bbBlock_eq]
  exact network_reverse keys _ _ [keys.get 1, keys.get 2, keys.get 3, keys.get 4] h

theorem bbEncryptBlock_decrypt (keys : Keys) (h : UInt32 × UInt32) :
    bbEncryptBlock keys (bbDecryptBlock keys h.1 h.2).1 (bbDecryptBlock keys h.1 h.2).2 = h := by
  rw [bbDecryptBlock, bbEncryptBlock, bbBlock_eq, bbBlock_eq]
  exact network_reverse keys _ _ [keys.get 4, keys.get 3, keys.get 2, keys.get 1] h

/-! ## Blocks of bytes -/

theorem bbStep_keeps (block : Keys → UInt32 → UInt32 → UInt32 × UInt32) :
    Keeps 8 (bbStep block) :=
  fun _ _ _ => rfl

/-- Blocks of bytes are undone as blocks of words are. -/
theorem bbStep_undoes {block undo : Keys → UInt32 → UInt32 → UInt32 × UInt32}
    (hundo : ∀ keys (h : UInt32 × UInt32),
      undo keys (block keys h.1 h.2).1 (block keys h.1 h.2).2 = h) :
    Undoes 8 (bbStep undo) (bbStep block) := by
  intro keys c hc
  have hlow : (c.take 4).length = 4 := by
    rw [List.length_take]
    omega
  have hhigh : (c.drop 4).length = 4 := by
    rw [List.length_drop]
    omega
  have hback := hundo keys (word (c.take 4), word (c.drop 4))
  simp only [bbStep, List.take_left' (length_wordBytes _), List.drop_left' (length_wordBytes _),
    word_wordBytes]
  rw [hback, wordBytes_word hlow, wordBytes_word hhigh, List.take_append_drop]

/-! ## The keys -/

/-- The keys that `CRYPT_BB_CreateKeys` starts with, in front of the table of constants. -/
def bbFirstKeys : List UInt32 :=
  [0x243F6A88, 0x85A308D3, 0x13198A2E, 0x03707344, 0xA4093822, 0x299F31D0, 0x082EFA98, 0xEC4E6C89,
    0x452821E6, 0x38D01377, 0xBE5466CF, 0x34E90C6C, 0xC0AC29B7, 0xC97C50DD, 0x3F84D5B5, 0xB5470917,
    0x9216D5D9, 0x8979FB1B]

/-- `L_CRYPT_BB_InitKey`. -/
def bbInitKey (data : List UInt8) : List UInt8 :=
  data.mapIdx fun x b => b ^^^ [0x19, 0x16, 0x18].getD (x % 3) 0

/-- Four bytes of the salt from a place on, the first one highest. -/
def bbSaltWord (s : List UInt8) (ecx : Nat) : UInt32 :=
  word [s.getD ((ecx + 3) % 48) 0, s.getD ((ecx + 2) % 48) 0, s.getD ((ecx + 1) % 48) 0,
    s.getD ecx 0]

/-- The keys before the rounds: the first 18 have the salt added to them. -/
def bbSaltedKeys (bbtable : Vector UInt32 1024) (salt : List UInt8) : Keys :=
  let s := bbInitKey salt
  Vector.ofFn fun i =>
    if h : i.val < 18 then bbFirstKeys.getD i.val 0 ^^^ bbSaltWord s (4 * i.val % 48)
    else bbtable[i.val - 18]

/-- The variables of the sixteen rounds. -/
structure BbHalves where
  esi : UInt32
  ecx : UInt32
  ebx : UInt32

/-- A pass of the loop over `x`, which is two rounds. -/
def BbHalves.pass (keys : Keys) (x : Nat) (hx : x < 6) (s : BbHalves) : BbHalves :=
  let esi := s.esi ^^^ (s.ebx ^^^ keys[x * 2 + 2])
  let ecx := s.ecx ^^^ (bbRound keys esi ^^^ keys[x * 2 + 3])
  ⟨esi, ecx, bbRound keys ecx⟩

/-- What `CRYPT_BB_CreateKeys` makes of two words before it puts them into the table. -/
def bbEncipher (keys : Keys) (h : UInt32 × UInt32) : UInt32 × UInt32 :=
  let esi := h.1 ^^^ keys.get 0
  let ecx := h.2 ^^^ (bbRound keys esi ^^^ keys.get 1)
  let s := Nat.fold 6 (fun x hx s => s.pass keys x hx) (⟨esi, ecx, bbRound keys ecx⟩ : BbHalves)
  let esi := s.esi ^^^ (s.ebx ^^^ keys.get 14)
  let eax := s.ecx ^^^ (bbRound keys esi ^^^ keys.get 15)
  (keys.get 17 ^^^ eax, bbRound keys eax ^^^ keys.get 16 ^^^ esi)

/-- The table, and the words that went into it last. -/
structure BbChain where
  keys : Keys
  last : UInt32 × UInt32

/-- Put the next two words into the table. -/
def BbChain.put (s : BbChain) (i : Nat) (hi : i + 1 < 1042) : BbChain :=
  let h := bbEncipher s.keys s.last
  ⟨(s.keys.set i h.1).set (i + 1) h.2, h⟩

/-- `CRYPT_BB_CreateKeys`. The seed that it keeps is never read. -/
def cryptBbCreateKeys (bbtable : Vector UInt32 1024) (salt : List UInt8) : Keys :=
  let s := Nat.fold 9 (fun n _ s => s.put (2 * n) (by omega))
    (⟨bbSaltedKeys bbtable salt, (0, 0)⟩ : BbChain)
  (Nat.fold 4 (fun j _ s =>
    Nat.fold 128 (fun i _ s => s.put (0x100 * j + (0x12 + 2 * i)) (by omega)) s) s).keys

/-- A network with the first 18 keys. -/
def sixteenRounds (keys : Keys) : UInt32 × UInt32 → UInt32 × UInt32 :=
  network keys (keys.get 0) [keys.get 1, keys.get 2, keys.get 3, keys.get 4, keys.get 5,
    keys.get 6, keys.get 7, keys.get 8, keys.get 9, keys.get 10, keys.get 11, keys.get 12,
    keys.get 13, keys.get 14, keys.get 15, keys.get 16] (keys.get 17)

theorem bbEncipher_eq (keys : Keys) (h : UInt32 × UInt32) :
    bbEncipher keys h = sixteenRounds keys h := by
  simp only [bbEncipher, Nat.fold_succ, Nat.fold_zero, BbHalves.pass, sixteenRounds, network,
    rounds]
  exact Prod.ext (UInt32.xor_comm _ _) (UInt32.xor_comm _ _)

/-- Two words of the table. -/
def pair (keys : Keys) (n : Nat) : UInt32 × UInt32 :=
  (table 0 keys (2 * n), table 0 keys (2 * n + 1))

/-- The two words before them. There are zeros before the table. -/
def pairBefore (keys : Keys) : Nat → UInt32 × UInt32
  | 0 => (0, 0)
  | n + 1 => pair keys n

/-- A table of which some pairs are renewed. -/
def renewedPairs (start keys : Keys) (n : Nat) : Keys :=
  Vector.ofFn fun i => if i.val < 2 * n then keys[i.val] else start[i.val]

/-- Some pairs are made, each from the one before it and with the table as it was then. -/
structure BbChain.Made (start : Keys) (n : Nat) (s : BbChain) : Prop where
  later : ∀ i, 2 * n ≤ i → table 0 s.keys i = table 0 start i
  last_eq : s.last = pairBefore s.keys n
  made : ∀ m < n, pair s.keys m = bbEncipher (renewedPairs start s.keys m) (pairBefore s.keys m)

theorem BbChain.Made.put {start : Keys} {n i : Nat} {s : BbChain} (h : s.Made start n)
    (hi : i + 1 < 1042) (hn : i = 2 * n) : (s.put i hi).Made start (n + 1) := by
  subst hn
  have hlow (j : Nat) (hj : j < 2 * n) : table 0 (s.put (2 * n) hi).keys j = table 0 s.keys j := by
    rw [BbChain.put, table_set_ne hi (by omega), table_set_ne (by omega) (by omega)]
  have hpair : pair (s.put (2 * n) hi).keys n = bbEncipher s.keys s.last := by
    refine Prod.ext ?_ (table_set_self hi (Nat.zero_add _).symm)
    show table 0 (s.put (2 * n) hi).keys (2 * n) = _
    rw [BbChain.put, table_set_ne hi (by omega), table_set_self (by omega) (by omega)]
  have hsame : ∀ m < n, pair (s.put (2 * n) hi).keys m = pair s.keys m := fun m hm =>
    Prod.ext (hlow _ (by omega)) (hlow _ (by omega))
  have hbefore : ∀ m ≤ n, pairBefore (s.put (2 * n) hi).keys m = pairBefore s.keys m := by
    intro m hm
    cases m with
    | zero => rfl
    | succ m => exact hsame m hm
  have htable : ∀ m ≤ n, renewedPairs start (s.put (2 * n) hi).keys m =
      renewedPairs start s.keys m := by
    intro m hm
    refine Vector.ext fun j hj => ?_
    rw [renewedPairs, renewedPairs, Vector.getElem_ofFn, Vector.getElem_ofFn]
    by_cases hlt : j < 2 * m
    · have hj' := hlow j (by omega)
      rw [table_of_lt (by omega), table_of_lt (by omega)] at hj'
      simpa only [if_pos hlt, Nat.zero_add] using hj'
    · rw [if_neg hlt, if_neg hlt]
  have hall : renewedPairs start s.keys n = s.keys := by
    refine Vector.ext fun j hj => ?_
    rw [renewedPairs, Vector.getElem_ofFn]
    by_cases hlt : j < 2 * n
    · rw [if_pos hlt]
    · have hj' := h.later j (by omega)
      rw [table_of_lt (by omega), table_of_lt (by omega)] at hj'
      rw [if_neg hlt]
      simpa only [Nat.zero_add] using hj'.symm
  refine ⟨fun j hj => ?_, ?_, fun m hm => ?_⟩
  · rw [BbChain.put, table_set_ne hi (by omega), table_set_ne (by omega) (by omega)]
    exact h.later j (by omega)
  · exact hpair.symm
  · rw [htable m (by omega), hbefore m (by omega)]
    rcases Nat.lt_or_eq_of_le (Nat.le_of_lt_succ hm) with hlt | rfl
    · rw [hsame m hlt, h.made m hlt]
    · rw [hpair, hall, h.last_eq]

/-- All pairs are made, in order. -/
theorem made_createKeys (bbtable : Vector UInt32 1024) (salt : List UInt8) :
    ∃ s : BbChain, cryptBbCreateKeys bbtable salt = s.keys ∧
      s.Made (bbSaltedKeys bbtable salt) 521 := by
  refine ⟨_, rfl, ?_⟩
  show BbChain.Made _ (9 + 128 * 4) _
  refine fold_inv (fun j (s : BbChain) => s.Made (bbSaltedKeys bbtable salt) (9 + 128 * j)) ?_ ?_
  · refine fold_inv (fun n (s : BbChain) => s.Made (bbSaltedKeys bbtable salt) n) ?_ ?_
    · exact ⟨fun _ _ => rfl, rfl, fun m hm => absurd hm (Nat.not_lt_zero m)⟩
    · exact fun n hn s h => h.put (by omega) rfl
  · intro j hj s h
    rw [Nat.mul_succ, ← Nat.add_assoc]
    refine fold_inv (fun i (s : BbChain) =>
      s.Made (bbSaltedKeys bbtable salt) (9 + 128 * j + i)) h ?_
    exact fun i hi s h => h.put (by omega) (by omega)

/-- The table of PSOBB is made pair by pair. Each pair is what sixteen rounds with the table as
it is at that time, with the earlier pairs in place of what the table started with, make of the
pair before it. -/
theorem bbCreateKeys_chain (bbtable : Vector UInt32 1024) (salt : List UInt8) :
    let keys := cryptBbCreateKeys bbtable salt
    ∀ n < 521,
      pair keys n = sixteenRounds (renewedPairs (bbSaltedKeys bbtable salt) keys n)
        (pairBefore keys n) := by
  intro keys n hn
  obtain ⟨s, hkeys, hmade⟩ := made_createKeys bbtable salt
  rw [← bbEncipher_eq]
  have h := hmade.made n hn
  rwa [← hkeys] at h

end Sylverant.Encryption
