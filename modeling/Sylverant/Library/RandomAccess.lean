/-
# Files with random access

A file is a finite run of bytes, and writing past its end fills the gap with zeros. A
stream is a file that is open at some position. What a program has written is described
by the bytes that stand at a position, and what it leaves alone by the set of positions
whose bytes are kept.
-/

import Mathlib.Data.List.Basic
import Mathlib.Tactic.Common

namespace RandomAccess

/-- The contents of a file: its length, and the byte at each position, which is 0 past
the end. -/
@[ext]
structure Image where
  length : Nat
  byte : Nat → UInt8
  byte_of_le : ∀ i, length ≤ i → byte i = 0

namespace Image

/-- A new file. -/
def empty : Image where
  length := 0
  byte _ := 0
  byte_of_le _ _ := rfl

/-- Write bytes at a position. -/
def write (f : Image) (pos : Nat) (bs : List UInt8) : Image where
  length := if bs = [] then f.length else max f.length (pos + bs.length)
  byte i := if pos ≤ i then (bs[i - pos]?).getD (f.byte i) else f.byte i
  byte_of_le i h := by
    have hlen : f.length ≤ i := by
      split_ifs at h
      · exact h
      · exact Nat.le_trans (Nat.le_max_left ..) h
    split_ifs with hpos
    · have hnone : bs[i - pos]? = none := by
        refine List.getElem?_eq_none ?_
        split_ifs at h with hnil
        · rw [hnil]
          exact Nat.zero_le _
        · have hend := Nat.le_trans (Nat.le_max_right f.length (pos + bs.length)) h
          omega
      rw [hnone, Option.getD_none]
      exact f.byte_of_le i hlen
    · exact f.byte_of_le i hlen

/-- Read at most `n` bytes from a position. -/
def read (f : Image) (pos n : Nat) : List UInt8 :=
  (List.range (min n (f.length - pos))).map fun i => f.byte (pos + i)

/-- The bytes stand at the position. -/
def At (f : Image) (pos : Nat) (bs : List UInt8) : Prop :=
  ∀ i b, bs[i]? = some b → pos + i < f.length ∧ f.byte (pos + i) = b

/-- The bytes at the positions of `S` are kept, and none are cut off. -/
structure Keeps (S : Nat → Prop) (f g : Image) : Prop where
  length_le : f.length ≤ g.length
  byte_eq : ∀ i, S i → g.byte i = f.byte i

section Lemmas

variable {f g h : Image} {S T : Nat → Prop} {pos n : Nat} {as bs : List UInt8}

theorem Keeps.refl (S : Nat → Prop) (f : Image) : Keeps S f f := ⟨Nat.le_refl _, fun _ _ => rfl⟩

theorem Keeps.trans (hfg : Keeps S f g) (hgh : Keeps S g h) : Keeps S f h :=
  ⟨Nat.le_trans hfg.length_le hgh.length_le,
    fun i hi => (hgh.byte_eq i hi).trans (hfg.byte_eq i hi)⟩

theorem Keeps.mono (hfg : Keeps T f g) (hsub : ∀ i, S i → T i) : Keeps S f g :=
  ⟨hfg.length_le, fun i hi => hfg.byte_eq i (hsub i hi)⟩

@[simp]
theorem at_nil : f.At pos [] := fun _ _ hi => (nomatch hi)

theorem at_append : f.At pos (as ++ bs) ↔ f.At pos as ∧ f.At (pos + as.length) bs := by
  refine ⟨fun hat => ⟨fun i b hi => ?_, fun i b hi => ?_⟩, fun ⟨has, hbs⟩ i b hi => ?_⟩
  · have hlt : i < as.length := (List.getElem?_eq_some_iff.mp hi).1
    exact hat i b (by rw [List.getElem?_append_left hlt, hi])
  · have hget : (as ++ bs)[as.length + i]? = some b := by
      rw [List.getElem?_append_right (Nat.le_add_right ..), Nat.add_sub_cancel_left, hi]
    rw [Nat.add_assoc]
    exact hat _ b hget
  · by_cases hlt : i < as.length
    · rw [List.getElem?_append_left hlt] at hi
      exact has i b hi
    · have hle : as.length ≤ i := Nat.le_of_not_lt hlt
      rw [List.getElem?_append_right hle] at hi
      have hplace : pos + i = pos + as.length + (i - as.length) := by omega
      rw [hplace]
      exact hbs _ b hi

/-- Bytes that are not written to stay where they are. -/
theorem At.keep (hat : f.At pos bs) (hkeeps : Keeps S f g)
    (hS : ∀ i < bs.length, S (pos + i)) : g.At pos bs := by
  intro i b hi
  obtain ⟨hlt, hbyte⟩ := hat i b hi
  refine ⟨Nat.lt_of_lt_of_le hlt hkeeps.length_le, ?_⟩
  rw [hkeeps.byte_eq _ (hS i (List.getElem?_eq_some_iff.mp hi).1), hbyte]

theorem At.le_length (hat : f.At pos bs) (hne : bs ≠ []) : pos + bs.length ≤ f.length := by
  have hpos : 0 < bs.length := List.length_pos_iff.mpr hne
  have hlast := (hat (bs.length - 1) _ (List.getElem?_eq_getElem (by omega))).1
  omega

theorem length_le_write : f.length ≤ (f.write pos bs).length := by
  simp only [write]
  split_ifs
  · exact Nat.le_refl _
  · exact Nat.le_max_left ..

theorem length_write_le {m : Nat} (hf : f.length ≤ m) (hend : pos + bs.length ≤ m) :
    (f.write pos bs).length ≤ m := by
  simp only [write]
  split_ifs
  · exact hf
  · exact Nat.max_le.mpr ⟨hf, hend⟩

@[simp]
theorem write_nil : f.write pos [] = f := by
  ext i
  · simp [write]
  · simp [write]

/-- What was written stands there. -/
theorem at_write : (f.write pos bs).At pos bs := by
  intro i b hi
  have hlt : i < bs.length := (List.getElem?_eq_some_iff.mp hi).1
  have hne : bs ≠ [] := List.length_pos_iff.mp (Nat.zero_lt_of_lt hlt)
  refine ⟨?_, ?_⟩
  · simp only [write, if_neg hne]
    omega
  · simp only [write, if_pos (Nat.le_add_right pos i), Nat.add_sub_cancel_left, hi,
      Option.getD_some]

/-- Writing keeps everything else. -/
theorem keeps_write : Keeps (fun i => i < pos ∨ pos + bs.length ≤ i) f (f.write pos bs) := by
  refine ⟨length_le_write, fun i hi => ?_⟩
  simp only [write]
  split_ifs with hle
  · have hnone : bs[i - pos]? = none := List.getElem?_eq_none (by omega)
    rw [hnone, Option.getD_none]
  · rfl

/-- A byte that is the same before writing is the same afterwards. -/
theorem byte_write_congr {x : Nat} (hx : f.byte x = g.byte x) :
    (f.write pos bs).byte x = (g.write pos bs).byte x := by
  simp only [write, hx]

/-- Writing zeros keeps zeros. -/
theorem byte_write_zero {x : Nat} (hx : f.byte x = 0) (hbs : ∀ c ∈ bs, c = 0) :
    (f.write pos bs).byte x = 0 := by
  simp only [write]
  split_ifs
  · cases hget : bs[x - pos]? with
    | none => rw [Option.getD_none, hx]
    | some c => rw [Option.getD_some, hbs c (List.mem_of_getElem? hget)]
  · exact hx

/-- Writing in two parts. -/
theorem write_append : f.write pos (as ++ bs) = (f.write pos as).write (pos + as.length) bs := by
  by_cases has : as = []
  · simp [has]
  by_cases hbs : bs = []
  · simp [hbs]
  ext i
  · have hne : as ++ bs ≠ [] := by simp [has]
    simp only [write, if_neg has, if_neg hbs, if_neg hne, List.length_append]
    omega
  · simp only [write]
    congr 1
    by_cases hpos : pos ≤ i
    · by_cases hlt : i < pos + as.length
      · have hlt' : i - pos < as.length := by omega
        rw [if_pos hpos, if_neg (by omega), if_pos hpos, List.getElem?_append_left hlt']
      · have hle : as.length ≤ i - pos := by omega
        have hnone : as[i - pos]? = none := List.getElem?_eq_none hle
        rw [if_pos hpos, if_pos (by omega), if_pos hpos, List.getElem?_append_right hle, hnone,
          Option.getD_none, Nat.sub_sub]
    · rw [if_neg hpos, if_neg (by omega), if_neg hpos]

theorem length_read : (f.read pos n).length = min n (f.length - pos) := by
  rw [read, List.length_map, List.length_range]

/-- Reading returns the bytes that stand there. -/
theorem At.read (hat : f.At pos bs) : f.read pos bs.length = bs := by
  have hlen : bs.length ≤ f.length - pos := by
    by_cases hne : bs = []
    · rw [hne]
      exact Nat.zero_le _
    · have hle := hat.le_length hne
      omega
  refine List.ext_getElem (by rw [length_read, Nat.min_eq_left hlen]) fun i hi hi' => ?_
  simp only [Image.read, List.getElem_map, List.getElem_range]
  exact (hat i bs[i] (List.getElem?_eq_getElem hi')).2

/-- What is read stands there. -/
theorem at_read (f : Image) (pos n : Nat) : f.At pos (f.read pos n) := by
  intro i b hi
  obtain ⟨hlt, hget⟩ := List.getElem?_eq_some_iff.mp hi
  rw [length_read] at hlt
  refine ⟨by omega, ?_⟩
  rw [← hget]
  simp only [Image.read, List.getElem_map, List.getElem_range]

end Lemmas

end Image

/-! ## Streams -/

/-- A file that is open at a position. -/
@[ext]
structure Stream where
  image : Image
  pos : Nat

namespace Stream

/-- Go to a position. -/
def seek (s : Stream) (pos : Nat) : Stream := { s with pos := pos }

/-- Write at the position, and go on behind. -/
def put (s : Stream) (bs : List UInt8) : Stream where
  image := s.image.write s.pos bs
  pos := s.pos + bs.length

/-- Read at most `n` bytes at the position, and go on behind. -/
def get (s : Stream) (n : Nat) : List UInt8 × Stream :=
  let bs := s.image.read s.pos n
  (bs, { s with pos := s.pos + bs.length })

variable {s : Stream} {as bs : List UInt8} {pos : Nat}

@[simp] theorem seek_image : (s.seek pos).image = s.image := rfl

@[simp] theorem seek_pos : (s.seek pos).pos = pos := rfl

@[simp] theorem put_image : (s.put bs).image = s.image.write s.pos bs := rfl

@[simp] theorem put_pos : (s.put bs).pos = s.pos + bs.length := rfl

@[simp]
theorem put_nil : s.put [] = s := by
  ext <;> simp [put]

theorem put_append : s.put (as ++ bs) = (s.put as).put bs := by
  ext1
  · exact Image.write_append
  · simp only [put_pos, List.length_append, Nat.add_assoc]

/-- Reading what stands at the position. -/
theorem get_of_at (h : s.image.At s.pos bs) :
    s.get bs.length = (bs, { s with pos := s.pos + bs.length }) := by
  simp only [get, h.read]

end Stream

end RandomAccess
