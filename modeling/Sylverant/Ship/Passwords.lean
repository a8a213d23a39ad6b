/-
# Passwords of games

A game gets its password from a field of the packet that creates it, and a client that selects
the game sends one after its menu packet. The fields are sixteen characters long, and a password
that fills its field has no zero behind it.

A buffer on the stack has some memory behind it. Reading a string there takes as many rounds as
it takes to come by a zero.
-/

import Sylverant.Library.Iconv
import Sylverant.Ship.Version
import Sylverant.Shipgate.Packets

namespace Sylverant.Ship.Passwords

open Iconv
open Shipgate (Mem field)

/-! ## Copies -/

/-- A buffer with what is behind it. -/
def before (buf : List UInt8) (behind : Mem) : Mem := fun i =>
  if i < buf.length then buf.getD i 0 else behind (i - buf.length)

/-- The string that `strncpy` copies. -/
def strncpy (m : Mem) (p : Nat) : Nat → List UInt8
  | 0 => []
  | n + 1 => if m p = 0 then [] else m p :: strncpy m (p + 1) n

/-- A copy of a string, and where the reading of the original ended. -/
structure Copied where
  text : List UInt8
  readEnd : Nat

def copyString (m : Mem) (p n : Nat) : Copied where
  text := strncpy m p n
  readEnd := p + min n ((strncpy m p n).length + 1)

def strlen16 (m : Mem) : Nat → Nat → Option Nat
  | 0, _ => none
  | rounds + 1, p => if m.le16 p = 0 then some 0 else (strlen16 m rounds (p + 2)).map (· + 1)

/-- The buffer that `istrncpy16` leaves, and where its reading ended. -/
def istrncpy16 (encode : Encoder) (rounds : Nat) (m : Mem) (p outLen : Nat) :
    Option (List UInt8 × Nat) :=
  (strlen16 m rounds p).map fun len =>
    (field outLen (iconv fromUtf16 encode outLen (m.bytes p (2 * len))), p + 2 * (len + 1))

/-! ## Creating a game -/

/-- The password of a game from `lobby_create_game`. -/
def lobbyCreateGame (m : Mem) (passwd : Nat) : Copied := copyString m passwd 64

def lobbyCreateEp3Game (m : Mem) (passwd : Nat) : Copied := copyString m passwd 16

def dcnteProcessGameCreate (pkt : Mem) : Copied := lobbyCreateGame pkt 28

def dcProcessGameCreate (pkt : Mem) : Copied := lobbyCreateGame pkt 28

def gcProcessGameCreate (pkt : Mem) : Copied := lobbyCreateGame pkt 28

def ep3ProcessGameCreate (pkt : Mem) : Copied := lobbyCreateEp3Game pkt 28

/-- The password is converted to a buffer of 16 bytes first. -/
def pcProcessGameCreate (rounds : Nat) (stack pkt : Mem) : Option Copied :=
  (istrncpy16 toAscii rounds pkt 44 16).map fun r =>
    { text := (lobbyCreateGame (before r.1 stack) 0).text, readEnd := r.2 }

/-- The password is converted to the first 64 bytes of a buffer. -/
def bbProcessGameCreate (rounds : Nat) (stack pkt : Mem) : Option Copied :=
  (istrncpy16 toUtf8 rounds pkt 48 64).map fun r =>
    { text := (lobbyCreateGame (before r.1 stack) 0).text, readEnd := r.2 }

/-- The handlers of the packets that create a game. -/
inductive Creator
  | dcnte
  | dc
  | pc
  | gc
  | ep3
  | bb
deriving DecidableEq, Repr

/-- The password of the game, and where the reading of the packet ended. -/
def Creator.create (rounds : Nat) (stack pkt : Mem) : Creator → Option Copied
  | .dcnte => some (dcnteProcessGameCreate pkt)
  | .dc => some (dcProcessGameCreate pkt)
  | .pc => pcProcessGameCreate rounds stack pkt
  | .gc => some (gcProcessGameCreate pkt)
  | .ep3 => some (ep3ProcessGameCreate pkt)
  | .bb => bbProcessGameCreate rounds stack pkt

/-- Whether the characters have two bytes. -/
def Creator.wide : Creator → Bool
  | .pc | .bb => true
  | _ => false

/-- Where the field `password` is in the packet. -/
def Creator.passwordAt : Creator → Nat
  | .pc => 44
  | .bb => 48
  | _ => 28

/-- The end of the field. -/
def Creator.fieldEnd (creator : Creator) : Nat :=
  creator.passwordAt + if creator.wide then 32 else 16

/-! ## Selecting a game -/

inductive Outcome
  /-- The client is disconnected. -/
  | tooLong
  | gone
  | wrong
  | joins
deriving DecidableEq, Repr

/-- A client that selects a game, with the password it sends and the memory behind the buffer that
this is copied to. -/
structure Attempt where
  version : Version
  override : Bool
  passwd : List UInt8
  stack : Mem

def Attempt.wide (a : Attempt) : Bool := a.version = .pc || a.version = .bb

/-- The size of the field. -/
def Attempt.limit (a : Attempt) : Nat := if a.wide then 0x20 else 0x10

/-- The string in `passwd_cmp`. -/
def passwdCmp (rounds : Nat) (a : Attempt) : Option (List UInt8) :=
  let tmp := before (field 32 a.passwd) a.stack
  if a.wide then (istrncpy16 toAscii rounds tmp 0 16).map fun r => r.1.takeWhile (· ≠ 0)
  else some (strncpy tmp 0 16)

/-- `process_menu` for the selection of a game, with the password of the game if it is there. -/
def processMenu (rounds : Nat) (a : Attempt) (l : Option (List UInt8)) : Option Outcome :=
  if a.passwd.length > a.limit then some .tooLong
  else
    (passwdCmp rounds a).map fun cmp =>
      match l with
      | none => .gone
      | some passwd =>
          if !a.override && (passwd ≠ [] && cmp ≠ passwd) then .wrong else .joins

/-! ## Text in a field -/

/-- The bytes of a character. -/
def width (wide : Bool) : Nat := if wide then 2 else 1

def character (wide : Bool) (m : Mem) (p : Nat) : Nat := if wide then m.le16 p else (m p).toNat

/-- The characters before a zero, of at most so many. -/
def characters (wide : Bool) (m : Mem) (p : Nat) : Nat → List Nat
  | 0 => []
  | n + 1 =>
      if character wide m p = 0 then []
      else character wide m p :: characters wide m (p + width wide) n

/-- The field of the packet has this password in it, of ASCII characters. -/
def FieldHolds (creator : Creator) (pkt : Mem) (pw : List UInt8) : Prop :=
  characters creator.wide pkt creator.passwordAt 16 = pw.map UInt8.toNat ∧ ∀ b ∈ pw, b < 0x80

/-- The text that a client sends. -/
def Attempt.text (a : Attempt) : List Nat := characters a.wide (Mem.ofList a.passwd) 0 16

/-- The client sends the password in a field of its own. -/
def Supplies (a : Attempt) (pw : List UInt8) : Prop :=
  a.passwd.length ≤ a.limit ∧ a.text = pw.map UInt8.toNat

/-- The game is created without reading behind the field, and the client gets past the check if it
has the password, and only then if there is one and nothing else lets the client in. -/
def OpensExactly (creator : Creator) (pkt stack : Mem) (pw : List UInt8) (a : Attempt) : Prop :=
  ∃ rounds copied, creator.create rounds stack pkt = some copied ∧
    copied.readEnd ≤ creator.fieldEnd ∧
    ∃ rounds outcome, processMenu rounds a (some copied.text) = some outcome ∧
      (Supplies a pw → outcome = .joins) ∧
      (¬Supplies a pw → pw ≠ [] → a.override = false → outcome ≠ .joins)

/-- The password does not fill a field that is read on. -/
def Terminated (creator : Creator) (pw : List UInt8) : Prop := creator = .ep3 ∨ pw.length < 16

/-- There is a zero somewhere behind the characters that the client sends. -/
def ScanEnds (a : Attempt) : Prop :=
  a.wide = true → a.passwd.length ≤ a.limit → a.text.length < 16 ∨ ∃ i, a.stack.le16 (2 * i) = 0

/-- The client sends the password with other characters than ASCII behind it. -/
def CutShort (a : Attempt) (pw : List UInt8) : Prop :=
  a.wide = true ∧ a.passwd.length ≤ a.limit ∧ a.override = false ∧ pw ≠ [] ∧
    a.text ≠ pw.map UInt8.toNat ∧ a.text.takeWhile (· < 0x80) = pw.map UInt8.toNat

/-! ## What is read -/

variable {m : Mem} {p n : Nat} {wide : Bool}

theorem length_characters : (characters wide m p n).length ≤ n := by
  induction n generalizing p with
  | zero => exact Nat.le_refl 0
  | succ n ih =>
      rw [characters]
      split
      · exact Nat.zero_le _
      · exact Nat.succ_le_succ ih

theorem characters_lt {c : Nat} (h : c ∈ characters wide m p n) : c ≠ 0 ∧ c < 65536 := by
  induction n generalizing p with
  | zero => cases h
  | succ n ih =>
      rw [characters] at h
      split at h
      · cases h
      · rename_i nonzero
        rcases List.mem_cons.mp h with rfl | h
        · refine ⟨nonzero, ?_⟩
          have low := (m p).toNat_lt
          have high := (m (p + 1)).toNat_lt
          cases wide
          · exact Nat.lt_of_lt_of_le low (by decide)
          · exact Nat.lt_of_le_of_lt (Nat.le_refl (m.le16 p)) (by rw [Mem.le16]; omega)
        · exact ih h

theorem strncpy_characters : (strncpy m p n).map UInt8.toNat = characters false m p n := by
  induction n generalizing p with
  | zero => rfl
  | succ n ih =>
      rw [strncpy, characters]
      by_cases zero : m p = 0
      · have none : character false m p = 0 := congrArg UInt8.toNat zero
        rw [if_pos zero, if_pos none, List.map_nil]
      · have one : ¬character false m p = 0 := fun h => zero (UInt8.toNat_inj.mp h)
        rw [if_neg zero, if_neg one, List.map_cons, ih]
        rfl

/-- Reading on, more characters are found only if there is no zero. -/
theorem characters_more {k : Nat} (more : n ≤ k) (short : (characters wide m p n).length < n) :
    characters wide m p k = characters wide m p n := by
  induction n generalizing p k with
  | zero => cases short
  | succ n ih =>
      cases k with
      | zero => cases more
      | succ k =>
          rw [characters] at short ⊢
          rw [characters]
          split
          · rfl
          · rename_i nonzero
            rw [if_neg nonzero] at short
            rw [ih (Nat.le_of_succ_le_succ more) (Nat.lt_of_succ_lt_succ short)]

theorem characters_take {k : Nat} (fewer : n ≤ k) :
    (characters wide m p k).take n = characters wide m p n := by
  induction n generalizing p k with
  | zero => rfl
  | succ n ih =>
      cases k with
      | zero => cases fewer
      | succ k =>
          rw [characters, characters]
          split
          · exact List.take_nil
          · rw [List.take_succ_cons, ih (Nat.le_of_succ_le_succ fewer)]

/-- The characters only depend on the memory that they are in. -/
theorem characters_congr {m' : Mem} (same : ∀ i, i < p + n * width wide → m i = m' i) :
    characters wide m p n = characters wide m' p n := by
  induction n generalizing p with
  | zero => rfl
  | succ n ih =>
      rw [Nat.succ_mul, Nat.add_comm (n * _), ← Nat.add_assoc] at same
      have first : character wide m p = character wide m' p := by
        cases wide
        · have one : width false = 1 := rfl
          rw [one] at same
          exact congrArg UInt8.toNat (same p (by omega))
        · have two : width true = 2 := rfl
          rw [two] at same
          show m.le16 p = m'.le16 p
          rw [Mem.le16, Mem.le16, same p (by omega), same (p + 1) (by omega)]
      rw [characters, characters, first, ih same]

theorem bytes_add (m : Mem) (p a b : Nat) :
    m.bytes p (a + b) = m.bytes p a ++ m.bytes (p + a) b := by
  rw [Mem.bytes, List.range_add, List.map_append, List.map_map, Mem.bytes, Mem.bytes]
  congr 1
  apply List.map_congr_left
  intro i _
  rw [Function.comp_apply, Nat.add_assoc]

theorem bytes_two (m : Mem) (p : Nat) : m.bytes p 2 = unit (m.le16 p) := by
  have low := (m p).toNat_lt
  have high := (m (p + 1)).toNat_lt
  have first : UInt8.ofNat (m.le16 p) = m p := by
    apply UInt8.toNat_inj.mp
    rw [UInt8.toNat_ofNat', Mem.le16]
    omega
  have second : UInt8.ofNat (m.le16 p / 256) = m (p + 1) := by
    apply UInt8.toNat_inj.mp
    rw [UInt8.toNat_ofNat', Mem.le16]
    omega
  rw [unit, first, second]
  rfl

/-- The bytes up to a zero are those of the characters, and of more of them behind as many as are
looked for. -/
theorem scanned {rounds k : Nat} (h : strlen16 m rounds p = some k) (n : Nat) :
    (characters true m p n).length = min n k ∧
      ∃ rest, m.bytes p (2 * k) = (characters true m p n).flatMap unit ++ rest ∧
        (n ≤ (characters true m p n).length ∨ rest = []) := by
  induction rounds generalizing p k n with
  | zero => cases h
  | succ rounds ih =>
      rw [strlen16] at h
      split at h
      · rename_i zero
        obtain rfl := Option.some.inj h
        have nothing : characters true m p n = [] := by
          cases n with
          | zero => rfl
          | succ n => exact if_pos zero
        rw [nothing, Nat.min_zero]
        exact ⟨rfl, [], rfl, .inr rfl⟩
      · rename_i nonzero
        obtain ⟨k, hk, rfl⟩ := Option.map_eq_some_iff.mp h
        cases n with
        | zero =>
            rw [Nat.zero_min]
            exact ⟨rfl, _, rfl, .inl (Nat.zero_le _)⟩
        | succ n =>
            obtain ⟨length, rest, bytes, ends⟩ := ih hk n
            have chars : characters true m p (n + 1) = m.le16 p :: characters true m (p + 2) n :=
              if_neg nonzero
            rw [chars, List.length_cons, length, Nat.add_min_add_right]
            refine ⟨rfl, rest, ?_, ?_⟩
            · rw [Nat.mul_add, Nat.add_comm, bytes_add, bytes_two, bytes, List.flatMap_cons,
                List.append_assoc]
            · rw [length] at ends
              exact ends.imp_left Nat.succ_le_succ

/-- The scan comes to an end where there is a zero. -/
theorem scan_ends {i : Nat} (zero : m.le16 (p + 2 * i) = 0) :
    ∃ k ≤ i, strlen16 m (i + 1) p = some k := by
  induction i generalizing p with
  | zero => exact ⟨0, Nat.le_refl 0, if_pos zero⟩
  | succ i ih =>
      rw [strlen16]
      split
      · exact ⟨0, Nat.zero_le _, rfl⟩
      · obtain ⟨k, hk, found⟩ := ih (p := p + 2) (by rwa [Nat.add_assoc, Nat.add_comm 2])
        rw [found]
        exact ⟨k + 1, Nat.succ_le_succ hk, rfl⟩

theorem zero_of_scanned {rounds k : Nat} (h : strlen16 m rounds p = some k) :
    m.le16 (p + 2 * k) = 0 := by
  induction rounds generalizing p k with
  | zero => cases h
  | succ rounds ih =>
      rw [strlen16] at h
      split at h
      · rename_i zero
        rw [← Option.some.inj h]
        exact zero
      · obtain ⟨k, hk, rfl⟩ := Option.map_eq_some_iff.mp h
        have zero := ih hk
        rwa [Nat.add_assoc, Nat.add_comm 2] at zero

theorem zero_of_short (short : (characters true m p n).length < n) :
    ∃ i, m.le16 (p + 2 * i) = 0 := by
  induction n generalizing p with
  | zero => cases short
  | succ n ih =>
      rw [characters] at short
      split at short
      · rename_i zero
        exact ⟨0, zero⟩
      · obtain ⟨i, zero⟩ := ih (Nat.lt_of_succ_lt_succ short)
        refine ⟨i + 1, ?_⟩
        rw [Nat.mul_succ, Nat.add_comm (2 * i), ← Nat.add_assoc]
        exact zero

/-! ## The password of a client -/

theorem getD_field (size : Nat) (bytes : List UInt8) (i : Nat) :
    (field size bytes).getD i 0 = if i < size then bytes.getD i 0 else 0 := by
  rw [field, List.getD_eq_getElem?_getD, List.getElem?_take, List.getD_eq_getElem?_getD]
  split
  · by_cases inside : i < bytes.length
    · rw [List.getElem?_append_left inside]
    · have outside : bytes.length ≤ i := Nat.le_of_not_lt inside
      rw [List.getElem?_append_right outside, List.getElem?_replicate,
        List.getElem?_eq_none outside]
      split
      · rfl
      · rfl
  · rfl

/-- A string in a buffer that it does not fill. -/
theorem strncpy_text {pw : List UInt8} (nonzero : ∀ b ∈ pw, b ≠ 0)
    (copy : ∀ i, i < pw.length → m (p + i) = pw.getD i 0) (least : pw.length ≤ n)
    (ends : n ≤ pw.length ∨ m (p + pw.length) = 0) : strncpy m p n = pw := by
  induction pw generalizing p n with
  | nil =>
      cases n with
      | zero => rfl
      | succ n => exact if_pos (ends.resolve_left (Nat.not_succ_le_zero n))
  | cons b pw ih =>
      cases n with
      | zero => exact absurd least (Nat.not_succ_le_zero _)
      | succ n =>
          have first : m p = b := copy 0 (Nat.succ_pos _)
          have rest : strncpy m (p + 1) n = pw := by
            apply ih (fun x hx => nonzero x (List.mem_cons_of_mem b hx))
            · intro i hi
              rw [Nat.add_assoc, Nat.add_comm 1]
              exact copy (i + 1) (Nat.succ_lt_succ hi)
            · exact Nat.le_of_succ_le_succ least
            · rw [Nat.add_assoc, Nat.add_comm 1]
              exact ends.imp_left Nat.le_of_succ_le_succ
          rw [strncpy, first, if_neg (nonzero b List.mem_cons_self), rest]

/-- Text in a buffer that was cleared. -/
theorem takeWhile_field {text : List UInt8} (nonzero : ∀ b ∈ text, b ≠ 0) (fits : text.length ≤ n) :
    (field n text).takeWhile (· ≠ 0) = text := by
  have zeros : field n text = text ++ List.replicate (n - text.length) 0 := by
    rw [field, List.take_append, List.take_of_length_le fits, List.take_replicate,
      Nat.min_eq_left (Nat.sub_le _ _)]
  rw [zeros, List.takeWhile_append_of_pos fun b hb => decide_eq_true (nonzero b hb)]
  have none : (List.replicate (n - text.length) (0 : UInt8)).takeWhile (· ≠ 0) = [] := by
    cases n - text.length with
    | zero => rfl
    | succ k => rfl
  rw [none, List.append_nil]

theorem map_toNat_ofNat {text : List Nat} (bytes : ∀ c ∈ text, c < 256) :
    (text.map UInt8.ofNat).map UInt8.toNat = text := by
  rw [List.map_map]
  have same : ∀ c ∈ text, (UInt8.toNat ∘ UInt8.ofNat) c = id c := by
    intro c hc
    exact UInt8.toNat_ofNat_of_lt' (bytes c hc)
  rw [List.map_congr_left same, List.map_id]

variable {a : Attempt}

/-- The buffer that the password is copied to. -/
def Attempt.tmp (a : Attempt) : Mem := before (field 32 a.passwd) a.stack

theorem tmp_inside {i : Nat} (inside : i < 32) : a.tmp i = Mem.ofList a.passwd i := by
  rw [Attempt.tmp, before, Shipgate.length_field, if_pos inside, getD_field, if_pos inside]
  rfl

theorem tmp_behind (i : Nat) : a.tmp.le16 (32 + i) = a.stack.le16 i := by
  have behind : ∀ j, a.tmp (32 + j) = a.stack j := by
    intro j
    rw [Attempt.tmp, before, Shipgate.length_field, if_neg (by omega), Nat.add_sub_cancel_left]
  rw [Mem.le16, Mem.le16, Nat.add_assoc, behind, behind]

theorem text_tmp (a : Attempt) : characters a.wide a.tmp 0 16 = a.text := by
  apply characters_congr
  intro i hi
  apply tmp_inside
  rw [width] at hi
  split at hi
  all_goals omega

/-- The string that the password of the game is compared with. -/
theorem passwdCmp_text {rounds : Nat} {cmp : List UInt8} (h : passwdCmp rounds a = some cmp) :
    cmp.map UInt8.toNat = if a.wide then a.text.takeWhile (· < 0x80) else a.text := by
  rw [← text_tmp]
  rw [passwdCmp] at h
  change (if a.wide then (istrncpy16 toAscii rounds a.tmp 0 16).map _ else
    some (strncpy a.tmp 0 16)) = _ at h
  cases wide : a.wide with
  | false =>
      rw [wide, if_neg Bool.false_ne_true] at h
      rw [← Option.some.inj h]
      exact strncpy_characters
  | true =>
      rw [wide, if_pos rfl, istrncpy16, Option.map_map] at h
      obtain ⟨k, scan, rfl⟩ := Option.map_eq_some_iff.mp h
      obtain ⟨-, rest, bytes, ends⟩ := scanned scan 16
      have few : ((characters true a.tmp 0 16).takeWhile (· < 0x80)).length ≤ 16 :=
        Nat.le_trans (List.takeWhile_prefix _).length_le length_characters
      have ascii : ∀ c ∈ (characters true a.tmp 0 16).takeWhile (· < 0x80), c < 256 ∧ c ≠ 0 := by
        intro c hc
        have small : c < 0x80 := of_decide_eq_true (List.all_eq_true.mp List.all_takeWhile c hc)
        have inside := (List.takeWhile_prefix _).subset hc
        exact ⟨by omega, (characters_lt inside).1⟩
      have written := iconv_toAscii (fun u hu => (characters_lt hu).2) ends
      rw [List.take_of_length_le few] at written
      rw [if_pos rfl, Function.comp_apply, bytes, written, takeWhile_field,
        map_toNat_ofNat fun c hc => (ascii c hc).1]
      · intro b hb
        obtain ⟨c, hc, rfl⟩ := List.mem_map.mp hb
        intro zero
        have value := UInt8.toNat_ofNat_of_lt' (ascii c hc).1
        rw [zero] at value
        exact (ascii c hc).2 value.symm
      · rw [List.length_map]
        exact few

/-- The string is there as soon as the scan ends. -/
theorem passwdCmp_ends (fits : a.passwd.length ≤ a.limit) :
    (∃ rounds cmp, passwdCmp rounds a = some cmp) ↔ ScanEnds a := by
  rw [ScanEnds, ← text_tmp]
  cases wide : a.wide with
  | false =>
      constructor
      · rintro - w
        cases w
      · intro _
        refine ⟨0, strncpy a.tmp 0 16, ?_⟩
        rw [passwdCmp, wide]
        rfl
  | true =>
      constructor
      · rintro ⟨rounds, cmp, h⟩ - -
        rw [passwdCmp, wide, if_pos rfl, istrncpy16, Option.map_map] at h
        obtain ⟨k, scan, -⟩ := Option.map_eq_some_iff.mp h
        change strlen16 a.tmp rounds 0 = some k at scan
        obtain ⟨length, -⟩ := scanned scan 16
        by_cases short : k < 16
        · left
          omega
        · right
          obtain ⟨i, rfl⟩ := Nat.exists_eq_add_of_le (Nat.le_of_not_lt short)
          have zero := zero_of_scanned scan
          rw [Nat.zero_add, Nat.mul_add, tmp_behind] at zero
          exact ⟨i, zero⟩
      · intro ends
        have zero : ∃ i, a.tmp.le16 (0 + 2 * i) = 0 := by
          rcases ends rfl fits with short | ⟨i, zero⟩
          · exact zero_of_short short
          · refine ⟨16 + i, ?_⟩
            rw [Nat.zero_add, Nat.mul_add, tmp_behind]
            exact zero
        obtain ⟨i, zero⟩ := zero
        obtain ⟨k, -, scan⟩ := scan_ends zero
        refine ⟨i + 1, ?_⟩
        rw [passwdCmp, wide, if_pos rfl, istrncpy16]
        change ∃ cmp, ((strlen16 a.tmp (i + 1) 0).map _).map _ = some cmp
        rw [scan]
        exact ⟨_, rfl⟩

/-! ## The password of a game -/

variable {creator : Creator} {pkt stack : Mem} {pw : List UInt8}

theorem FieldHolds.nonzero (h : FieldHolds creator pkt pw) : ∀ b ∈ pw, b ≠ 0 := by
  intro b hb zero
  have inside : b.toNat ∈ characters creator.wide pkt creator.passwordAt 16 := by
    rw [h.1]
    exact List.mem_map_of_mem hb
  exact (characters_lt inside).1 (congrArg UInt8.toNat zero)

theorem FieldHolds.length_le (h : FieldHolds creator pkt pw) : pw.length ≤ 16 := by
  rw [← List.length_map (f := UInt8.toNat), ← h.1]
  exact length_characters

/-- A copy of a narrow field, of more than its size. -/
theorem copyString_field (h : characters false pkt p 16 = pw.map UInt8.toNat) (hn : 16 < n) :
    if pw.length < 16 then copyString pkt p n = ⟨pw, p + (pw.length + 1)⟩
    else p + 16 < (copyString pkt p n).readEnd := by
  have length : (characters false pkt p 16).length = pw.length := by
    rw [h, List.length_map]
  have same : (strncpy pkt p n).map UInt8.toNat = characters false pkt p n := strncpy_characters
  split
  · rename_i short
    have before : (characters false pkt p 16).length < 16 := by
      rw [length]
      exact short
    have text : strncpy pkt p n = pw := by
      apply (List.map_inj_right fun _ _ => UInt8.toNat_inj.mp).mp
      rw [same, characters_more (Nat.le_of_lt hn) before, h]
    rw [copyString, text, Nat.min_eq_right (by omega)]
  · rename_i full
    have first := congrArg List.length (@characters_take pkt p 16 false n (Nat.le_of_lt hn))
    have all := congrArg List.length same
    rw [List.length_take] at first
    rw [List.length_map] at all
    rw [copyString]
    dsimp only
    omega

/-- The conversion of a wide field ends if there is a zero in it. -/
theorem istrncpy16_ends (encode : Encoder) (n : Nat)
    (short : (characters true pkt p 16).length < 16) :
    ∃ rounds r, istrncpy16 encode rounds pkt p n = some r := by
  obtain ⟨i, zero⟩ := zero_of_short short
  obtain ⟨k, -, scan⟩ := scan_ends zero
  refine ⟨i + 1, ?_⟩
  rw [istrncpy16, scan]
  exact ⟨_, rfl⟩

/-- The conversion of a wide field, to a buffer of its size or a larger one. -/
theorem istrncpy16_field {encode : Encoder} (keeps : KeepsAscii encode)
    (h : characters true pkt p 16 = pw.map UInt8.toNat) (ascii : ∀ b ∈ pw, b < 0x80)
    (hn : 16 ≤ n) {rounds : Nat} {r : List UInt8 × Nat}
    (hr : istrncpy16 encode rounds pkt p n = some r) :
    if pw.length < 16 then r = (field n pw, p + 2 * (pw.length + 1)) else p + 32 < r.2 := by
  have length : (characters true pkt p 16).length = pw.length := by
    rw [h, List.length_map]
  rw [istrncpy16] at hr
  obtain ⟨k, scan, rfl⟩ := Option.map_eq_some_iff.mp hr
  obtain ⟨count, rest, bytes, ends⟩ := scanned scan 16
  split
  · rename_i short
    obtain rfl : k = pw.length := by omega
    obtain rfl : rest = [] := ends.resolve_left (by omega)
    have written := @iconv_units encode n keeps (pw.map UInt8.toNat)
      (fun u hu => by
        obtain ⟨b, hb, rfl⟩ := List.mem_map.mp hu
        exact UInt8.lt_iff_toNat_lt.mp (ascii b hb))
      (by rw [List.length_map]; omega)
    have back : (pw.map UInt8.toNat).map UInt8.ofNat = pw := by
      rw [List.map_map]
      exact (List.map_congr_left fun b _ => UInt8.ofNat_toNat).trans (List.map_id pw)
    rw [bytes, List.append_nil, h, written, back]
  · dsimp only
    omega

/-- The password in the buffer that it was converted to. -/
theorem strncpy_buffer (nonzero : ∀ b ∈ pw, b ≠ 0) (short : pw.length < n) (most : n ≤ 64) :
    strncpy (before (field n pw) stack) 0 64 = pw := by
  have inside : ∀ i, i < n → before (field n pw) stack (0 + i) = pw.getD i 0 := by
    intro i hi
    rw [Nat.zero_add, before, Shipgate.length_field, if_pos hi, getD_field, if_pos hi]
  apply strncpy_text nonzero
  · intro i hi
    exact inside i (Nat.lt_trans hi short)
  · exact Nat.le_of_lt (Nat.lt_of_lt_of_le short most)
  · right
    rw [inside _ short, List.getD_eq_getElem?_getD, List.getElem?_eq_none (Nat.le_refl _)]
    rfl

theorem copyString_inside (h : characters false pkt p 16 = pw.map UInt8.toNat) :
    ((copyString pkt p 64).readEnd ≤ p + 16 ↔ pw.length < 16) ∧
      (pw.length < 16 → (copyString pkt p 64).text = pw) := by
  have copied := copyString_field h (n := 64) (by decide)
  by_cases short : pw.length < 16
  · rw [if_pos short] at copied
    rw [copied]
    exact ⟨⟨fun _ => short, fun _ => by dsimp only; omega⟩, fun _ => rfl⟩
  · rw [if_neg short] at copied
    exact ⟨⟨fun inside => absurd copied (Nat.not_lt.mpr inside), fun s => absurd s short⟩,
      fun s => absurd s short⟩

theorem istrncpy16_inside {encode : Encoder} (keeps : KeepsAscii encode)
    (h : characters true pkt p 16 = pw.map UInt8.toNat) (ascii : ∀ b ∈ pw, b < 0x80)
    (nonzero : ∀ b ∈ pw, b ≠ 0) (hn : 16 ≤ n) (most : n ≤ 64) {rounds : Nat}
    {r : List UInt8 × Nat} (hr : istrncpy16 encode rounds pkt p n = some r) :
    (r.2 ≤ p + 32 ↔ pw.length < 16) ∧
      (pw.length < 16 → (lobbyCreateGame (before r.1 stack) 0).text = pw) := by
  have converted := istrncpy16_field keeps h ascii hn hr
  by_cases short : pw.length < 16
  · rw [if_pos short] at converted
    rw [converted]
    refine ⟨⟨fun _ => short, fun _ => by dsimp only; omega⟩, fun _ => ?_⟩
    exact strncpy_buffer nonzero (Nat.lt_of_lt_of_le short hn) most
  · rw [if_neg short] at converted
    exact ⟨⟨fun inside => absurd converted (Nat.not_lt.mpr inside), fun s => absurd s short⟩,
      fun s => absurd s short⟩

theorem terminated_iff (hc : creator ≠ .ep3) : Terminated creator pw ↔ pw.length < 16 :=
  or_iff_right hc

/-- A game gets created if its password has a zero behind it. -/
theorem create_ends (stack : Mem) (h : FieldHolds creator pkt pw)
    (terminated : Terminated creator pw) :
    ∃ rounds copied, creator.create rounds stack pkt = some copied := by
  have length := congrArg List.length h.1
  rw [List.length_map] at length
  cases creator with
  | dcnte => exact ⟨0, _, rfl⟩
  | dc => exact ⟨0, _, rfl⟩
  | gc => exact ⟨0, _, rfl⟩
  | ep3 => exact ⟨0, _, rfl⟩
  | pc =>
      rw [terminated_iff (by decide), ← length] at terminated
      obtain ⟨rounds, r, hr⟩ := istrncpy16_ends toAscii 16 terminated
      exact ⟨rounds, _, congrArg (Option.map _) hr⟩
  | bb =>
      rw [terminated_iff (by decide), ← length] at terminated
      obtain ⟨rounds, r, hr⟩ := istrncpy16_ends toUtf8 64 terminated
      exact ⟨rounds, _, congrArg (Option.map _) hr⟩

/-- The reading ends in the field exactly if the password is terminated, and then the game gets
the password. -/
theorem create_inside (h : FieldHolds creator pkt pw) {rounds : Nat} {copied : Copied}
    (hc : creator.create rounds stack pkt = some copied) :
    (copied.readEnd ≤ creator.fieldEnd ↔ Terminated creator pw) ∧
      (Terminated creator pw → copied.text = pw) := by
  cases creator with
  | dcnte =>
      rw [terminated_iff (by decide), ← Option.some.inj hc]
      exact copyString_inside h.1
  | dc =>
      rw [terminated_iff (by decide), ← Option.some.inj hc]
      exact copyString_inside h.1
  | gc =>
      rw [terminated_iff (by decide), ← Option.some.inj hc]
      exact copyString_inside h.1
  | ep3 =>
      have text : strncpy pkt 28 16 = pw := by
        apply (List.map_inj_right fun _ _ => UInt8.toNat_inj.mp).mp
        rw [strncpy_characters]
        exact h.1
      rw [← Option.some.inj hc]
      refine ⟨⟨fun _ => .inl rfl, fun _ => ?_⟩, fun _ => text⟩
      exact Nat.add_le_add_left (Nat.min_le_left _ _) 28
  | pc =>
      obtain ⟨r, hr, rfl⟩ := Option.map_eq_some_iff.mp hc
      rw [terminated_iff (by decide)]
      exact istrncpy16_inside keepsAscii_toAscii h.1 h.2 h.nonzero (by decide) (by decide) hr
  | bb =>
      obtain ⟨r, hr, rfl⟩ := Option.map_eq_some_iff.mp hc
      rw [terminated_iff (by decide)]
      exact istrncpy16_inside keepsAscii_toUtf8 h.1 h.2 h.nonzero (by decide) (by decide) hr

/-! ## The check -/

/-- The client gets into a game with a password exactly if the strings are the same. -/
theorem processMenu_joins (fits : a.passwd.length ≤ a.limit) {rounds : Nat} {cmp : List UInt8}
    (h : passwdCmp rounds a = some cmp) :
    ∃ outcome, processMenu rounds a (some pw) = some outcome ∧
      (outcome = .joins ↔ a.override = true ∨ pw = [] ∨ cmp = pw) := by
  rw [processMenu, if_neg (Nat.not_lt.mpr fits), h, Option.map_some]
  refine ⟨_, rfl, ?_⟩
  dsimp only
  cases a.override with
  | true => exact ⟨fun _ => .inl rfl, fun _ => rfl⟩
  | false =>
      by_cases empty : pw = []
      · rw [empty]
        exact ⟨fun _ => .inr (.inl rfl), fun _ => rfl⟩
      · by_cases equal : cmp = pw
        · have passes : (!false && (decide (pw ≠ []) && decide (cmp ≠ pw))) = false := by
            rw [decide_eq_false (not_not.mpr equal), Bool.and_false, Bool.and_false]
          rw [passes]
          exact ⟨fun _ => .inr (.inr equal), fun _ => rfl⟩
        · have fails : (!false && (decide (pw ≠ []) && decide (cmp ≠ pw))) = true := by
            rw [decide_eq_true empty, decide_eq_true equal]
            rfl
          rw [fails, if_pos rfl]
          exact ⟨nofun, fun h => by
            rcases h with h | h | h
            · cases h
            · exact absurd h empty
            · exact absurd h equal⟩

/-- What makes the strings the same. -/
theorem cmp_eq_iff {rounds : Nat} {cmp : List UInt8} (h : passwdCmp rounds a = some cmp) :
    cmp = pw ↔ (if a.wide then a.text.takeWhile (· < 0x80) else a.text) = pw.map UInt8.toNat := by
  rw [← passwdCmp_text h]
  exact (List.map_inj_right fun _ _ => UInt8.toNat_inj.mp).symm

/-- A game that is not let into for another reason. -/
theorem cmp_of_processMenu (fits : a.passwd.length ≤ a.limit) {rounds : Nat} {outcome : Outcome}
    (h : processMenu rounds a (some pw) = some outcome) : ∃ cmp, passwdCmp rounds a = some cmp := by
  rw [processMenu, if_neg (Nat.not_lt.mpr fits)] at h
  obtain ⟨cmp, hcmp, -⟩ := Option.map_eq_some_iff.mp h
  exact ⟨cmp, hcmp⟩

theorem takeWhile_ascii (ascii : ∀ b ∈ pw, b < 0x80) :
    (pw.map UInt8.toNat).takeWhile (· < 0x80) = pw.map UInt8.toNat := by
  rw [← List.append_nil (pw.map UInt8.toNat), List.takeWhile_append_of_pos, List.takeWhile_nil]
  intro c hc
  obtain ⟨b, hb, rfl⟩ := List.mem_map.mp hc
  exact decide_eq_true (UInt8.lt_iff_toNat_lt.mp (ascii b hb))

/-- The password opens its game as it should exactly if the field of the game has a zero in it, or
the game is one of Episode 3, if the field of the client has a zero behind its characters, and
if these are not the password with others behind it that are dropped. -/
theorem opens_exactly_iff (h : FieldHolds creator pkt pw) :
    OpensExactly creator pkt stack pw a ↔
      Terminated creator pw ∧ ScanEnds a ∧ ¬CutShort a pw := by
  constructor
  · rintro ⟨rounds, copied, hc, inside, rounds', outcome, ho, same, other⟩
    have terminated := (create_inside h hc).1.mp inside
    rw [(create_inside h hc).2 terminated] at ho
    refine ⟨terminated, ?_, ?_⟩
    · by_cases fits : a.passwd.length ≤ a.limit
      · obtain ⟨cmp, hcmp⟩ := cmp_of_processMenu fits ho
        exact (passwdCmp_ends fits).mp ⟨rounds', cmp, hcmp⟩
      · exact fun _ f => absurd f fits
    · rintro ⟨wide, fits, override, locked, differ, cut⟩
      obtain ⟨cmp, hcmp⟩ := cmp_of_processMenu fits ho
      obtain ⟨outcome', ho', joins⟩ := @processMenu_joins a pw fits rounds' cmp hcmp
      obtain rfl := Option.some.inj (ho.symm.trans ho')
      have equal : cmp = pw := by
        rw [cmp_eq_iff hcmp, if_pos wide]
        exact cut
      exact other (fun supplies => differ supplies.2) locked override
        (joins.mpr (.inr (.inr equal)))
  · rintro ⟨terminated, ends, uncut⟩
    obtain ⟨rounds, copied, hc⟩ := create_ends stack h terminated
    refine ⟨rounds, copied, hc, (create_inside h hc).1.mpr terminated, ?_⟩
    rw [(create_inside h hc).2 terminated]
    by_cases fits : a.passwd.length ≤ a.limit
    · obtain ⟨rounds', cmp, hcmp⟩ := (passwdCmp_ends fits).mpr ends
      obtain ⟨outcome, ho, joins⟩ := @processMenu_joins a pw fits rounds' cmp hcmp
      refine ⟨rounds', outcome, ho, ?_, ?_⟩
      · rintro ⟨-, text⟩
        apply joins.mpr
        right
        right
        rw [cmp_eq_iff hcmp, text, takeWhile_ascii h.2, ite_self]
      · intro lacks locked override joined
        rcases joins.mp joined with free | empty | equal
        · rw [override] at free
          cases free
        · exact locked empty
        · rw [cmp_eq_iff hcmp] at equal
          cases wide : a.wide with
          | false =>
              rw [wide, if_neg Bool.false_ne_true] at equal
              exact lacks ⟨fits, equal⟩
          | true =>
              rw [wide, if_pos rfl] at equal
              exact uncut ⟨wide, fits, override, locked, fun text => lacks ⟨fits, text⟩, equal⟩
    · refine ⟨0, .tooLong, if_pos (Nat.lt_of_not_le fits), ?_, ?_⟩
      · exact fun supplies => absurd supplies.1 fits
      · exact fun _ _ _ => nofun

/-- A packet of a Dreamcast client for a game with a password. -/
def samplePacket (pw : List UInt8) : Mem :=
  Mem.ofList (List.replicate 28 0 ++ field 16 pw ++ [1, 0, 0, 1])

/-- A client on a PC that selects a game. -/
def pcAttempt (passwd : List UInt8) : Attempt := ⟨.pc, false, passwd, Mem.ofList []⟩

/-- `abc` -/
theorem opens_exactly_sample :
    FieldHolds .dc (samplePacket [97, 98, 99]) [97, 98, 99] ∧
      (OpensExactly .dc (samplePacket [97, 98, 99]) (Mem.ofList []) [97, 98, 99]
          (pcAttempt [97, 0, 98, 0, 99, 0]) ↔
        Terminated .dc [97, 98, 99] ∧ ScanEnds (pcAttempt [97, 0, 98, 0, 99, 0]) ∧
          ¬CutShort (pcAttempt [97, 0, 98, 0, 99, 0]) [97, 98, 99]) :=
  have holds : FieldHolds .dc (samplePacket [97, 98, 99]) [97, 98, 99] :=
    ⟨by decide, by decide +kernel⟩
  ⟨holds, opens_exactly_iff holds⟩

/-- With sixteen characters, the difficulty of the game is read as a part of its password, and the
password does not open the game. -/
theorem full_password_refused :
    let pw : List UInt8 := List.replicate 16 97
    let a : Attempt := ⟨.dcv2, false, pw, Mem.ofList []⟩
    FieldHolds .dc (samplePacket pw) pw ∧ Supplies a pw ∧
      processMenu 0 a (some (dcProcessGameCreate (samplePacket pw)).text) = some .wrong ∧
      ¬OpensExactly .dc (samplePacket pw) (Mem.ofList []) pw a := by
  refine ⟨⟨by decide, by decide +kernel⟩, ⟨by decide, by decide⟩, by decide +kernel, ?_⟩
  rintro ⟨rounds, copied, hc, inside, -⟩
  have created : dcProcessGameCreate (samplePacket (List.replicate 16 97)) = copied :=
    Option.some.inj hc
  rw [← created] at inside
  exact absurd inside (by decide +kernel)

end Sylverant.Ship.Passwords
