/-
# What the archive tools share

Each tool has its own copy of `copy_file` and `pad_file`. Copying goes through a buffer
of 512 bytes, and padding writes only the last byte, so that the gap is filled with zeros.
Seeking, and writing to a file that is open, do not fail here.
-/

import Mathlib.Algebra.Group.Nat.Defs
import Sylverant.Library.Layout

namespace Sylverant.Archive

open RandomAccess (Image Stream)

/-! ## Numbers in files -/

/-- The four bytes of a number, lowest first. -/
def le32 (n : Nat) : List UInt8 :=
  [UInt8.ofNat n, UInt8.ofNat (n / 2 ^ 8), UInt8.ofNat (n / 2 ^ 16), UInt8.ofNat (n / 2 ^ 24)]

/-- The number that four bytes stand for, lowest first. -/
def ofLe32 (bs : List UInt8) : Nat :=
  match bs with
  | [b₀, b₁, b₂, b₃] => b₀.toNat + b₁.toNat * 2 ^ 8 + b₂.toNat * 2 ^ 16 + b₃.toNat * 2 ^ 24
  | _ => 0

@[simp] theorem length_le32 (n : Nat) : (le32 n).length = 4 := rfl

theorem ofLe32_le32 (n : Nat) : ofLe32 (le32 n) = n % 2 ^ 32 := by
  simp only [ofLe32, le32, UInt8.toNat_ofNat']
  omega

theorem le32_mod (n : Nat) : le32 (n % 2 ^ 32) = le32 n := by
  have hbyte : ∀ k : Nat, k ≤ 24 → UInt8.ofNat (n % 2 ^ 32 / 2 ^ k) = UInt8.ofNat (n / 2 ^ k) := by
    intro k hk
    apply UInt8.toNat.inj
    rw [UInt8.toNat_ofNat', UInt8.toNat_ofNat', ← Nat.mod_mul_right_div_self,
      ← Nat.mod_mul_right_div_self n, ← Nat.pow_add,
      Nat.mod_mod_of_dvd n (Nat.pow_dvd_pow 2 (by omega))]
  have hzero := hbyte 0 (by omega)
  simp only [Nat.pow_zero, Nat.div_one] at hzero
  rw [le32, le32, hzero, hbyte 8 (by omega), hbyte 16 (by omega), hbyte 24 (by omega)]

theorem ofLe32_le32_of_lt {n : Nat} (h : n < 2 ^ 32) : ofLe32 (le32 n) = n := by
  rw [ofLe32_le32, Nat.mod_eq_of_lt h]

/-- A mask of high bits rounds down. -/
theorem and_highMask {k x : Nat} (hk : k ≤ 32) (hx : x < 2 ^ 32) :
    x &&& (2 ^ 32 - 2 ^ k) = x / 2 ^ k * 2 ^ k := by
  have hmask : 2 ^ 32 - 2 ^ k = (2 ^ (32 - k) - 1) <<< k := by
    rw [Nat.shiftLeft_eq, Nat.sub_mul, ← Nat.pow_add, Nat.sub_add_cancel hk, Nat.one_mul]
  have hround : x / 2 ^ k * 2 ^ k = (x >>> k) <<< k := by
    rw [Nat.shiftLeft_eq, Nat.shiftRight_eq_div_pow]
  rw [hmask, hround]
  apply Nat.eq_of_testBit_eq
  intro i
  rw [Nat.testBit_and, Nat.testBit_shiftLeft, Nat.testBit_shiftLeft, Nat.testBit_shiftRight,
    Nat.testBit_two_pow_sub_one]
  by_cases hi : k ≤ i
  · by_cases hlarge : i < 32
    · have hless : i - k < 32 - k := by omega
      have hback : k + (i - k) = i := by omega
      simp [hi, hless, hback]
    · have hzero : x.testBit i = false :=
        Nat.testBit_lt_two_pow (Nat.lt_of_lt_of_le hx (Nat.pow_le_pow_right (by decide) (by omega)))
      have hback : k + (i - k) = i := by omega
      simp [hi, hzero, hback]
  · simp [hi]

/-! ## Copying -/

/-- The loop of `copy_file`, and the last chunk. -/
def copyLoop : Nat → Stream → Stream → Nat → Except Int (Stream × Stream)
  | fuel + 1, dst, src, size =>
      if size > 512 then
        let (xbuf, src) := src.get 512
        if xbuf.length ≠ 512 then .error (-1)
        else copyLoop fuel (dst.put xbuf) src (size - 512)
      else if size = 0 then .ok (dst, src)
      else
        let (xbuf, src) := src.get size
        if xbuf.length ≠ size then .error (-3) else .ok (dst.put xbuf, src)
  | 0, dst, src, _ => .ok (dst, src)

/-- `copy_file`. -/
def copyFile (dst src : Stream) (size : Nat) : Except Int (Stream × Stream) :=
  copyLoop (size / 512 + 1) dst src size

/-- `pad_file`, for a boundary that is a power of two. -/
def padFile (fp : Stream) (boundary : Nat) : Stream × Nat :=
  let pos := Layout.padTo boundary fp.pos
  ((fp.seek (pos - 1)).put [0], pos)

/-- The contents of a file that is read. -/
def ofList (bs : List UInt8) : Image := Image.empty.write 0 bs

/-- A file of zeros. -/
def zeros (n : Nat) : List UInt8 := List.replicate n 0

theorem map_length_zeros (ns : List Nat) : (ns.map zeros).map List.length = ns := by
  rw [List.map_map]
  exact List.map_id'' (fun n => List.length_replicate) ns

/-! ## The files that a tool leaves behind -/

/-- The files of a directory, each under its name. -/
abbrev Directory (ν : Type) := List (ν × Image)

/-- Opening a file for writing drops the file that had its name. -/
def Directory.save {ν : Type} [DecidableEq ν] (d : Directory ν) (name : ν) (f : Image) :
    Directory ν :=
  d.filter (fun x => x.1 ≠ name) ++ [(name, f)]

theorem Directory.save_of_new {ν : Type} [DecidableEq ν] {d : Directory ν} {name : ν}
    (h : ∀ x ∈ d, x.1 ≠ name) (f : Image) : d.save name f = d ++ [(name, f)] := by
  have hkeep : d.filter (fun x => x.1 ≠ name) = d :=
    List.filter_eq_self.mpr fun x hx => decide_eq_true (h x hx)
  rw [Directory.save, hkeep]

section Copying

variable {dst src : Stream} {bs : List UInt8}

theorem at_ofList : (ofList bs).At 0 bs := Image.at_write

/-- A file is determined by its contents. -/
theorem ofList_inj {as bs : List UInt8} (h : ofList as = ofList bs) : as = bs := by
  have hread : ∀ cs : List UInt8, (ofList cs).read 0 (ofList cs).length = cs := by
    intro cs
    have hlen : (ofList cs).length = cs.length := by
      simp only [ofList, Image.write, Image.empty]
      split_ifs with hnil
      · rw [hnil, List.length_nil]
      · omega
    rw [hlen]
    exact at_ofList.read
  rw [← hread as, ← hread bs, h]

theorem copyLoop_eq {fuel : Nat} (h : src.image.At src.pos bs) (hfuel : bs.length / 512 < fuel) :
    copyLoop fuel dst src bs.length =
      .ok (dst.put bs, { src with pos := src.pos + bs.length }) := by
  induction fuel generalizing dst src bs with
  | zero => omega
  | succ fuel ih =>
      rw [copyLoop]
      split_ifs with hmore hnone
      · -- the first 512 bytes, and the rest
        obtain ⟨as, cs, rfl, hlen⟩ : ∃ as cs, bs = as ++ cs ∧ as.length = 512 :=
          ⟨bs.take 512, bs.drop 512, (List.take_append_drop 512 bs).symm,
            List.length_take_of_le (by omega)⟩
        obtain ⟨has, hcs⟩ := Image.at_append.mp h
        rw [List.length_append, hlen] at hmore hfuel ⊢
        rw [hlen] at hcs
        have hget := Stream.get_of_at has
        rw [hlen] at hget
        have hrest := @ih (dst.put as) { src with pos := src.pos + 512 } cs hcs (by omega)
        simp only [hget, hlen, ne_eq, not_true_eq_false, if_false, Nat.add_sub_cancel_left]
        rw [hrest, Stream.put_append]
        simp only [Nat.add_assoc]
      · rw [List.length_eq_zero_iff.mp hnone]
        simp
      · have hget := Stream.get_of_at h
        simp only [hget, ne_eq, not_true_eq_false, if_false]

/-- Copying bytes that are there writes them. -/
theorem copyFile_eq (h : src.image.At src.pos bs) :
    copyFile dst src bs.length = .ok (dst.put bs, { src with pos := src.pos + bs.length }) :=
  copyLoop_eq h (Nat.lt_succ_self _)

/-- Copying that succeeds has found the bytes. -/
theorem exists_of_copyLoop {fuel size : Nat} {dst' src' : Stream} (hfuel : size / 512 < fuel)
    (h : copyLoop fuel dst src size = .ok (dst', src')) :
    ∃ bs, bs.length = size ∧ src.image.At src.pos bs ∧ dst' = dst.put bs := by
  induction fuel generalizing dst src size with
  | zero => omega
  | succ fuel ih =>
      rw [copyLoop] at h
      by_cases hmore : size > 512
      · rw [if_pos hmore] at h
        by_cases hlen : (src.image.read src.pos 512).length = 512
        · simp only [Stream.get, ne_eq, hlen, not_true_eq_false, if_false] at h
          obtain ⟨bs, hbs, hat, rfl⟩ := ih (by omega) h
          refine ⟨src.image.read src.pos 512 ++ bs, ?_, ?_, Stream.put_append.symm⟩
          · rw [List.length_append, hlen, hbs]
            omega
          · rw [Image.at_append, hlen]
            exact ⟨Image.at_read _ _ _, hat⟩
        · simp [Stream.get, hlen] at h
      · rw [if_neg hmore] at h
        by_cases hnone : size = 0
        · rw [if_pos hnone] at h
          obtain ⟨rfl, rfl⟩ := Prod.mk.inj (Except.ok.inj h)
          exact ⟨[], hnone.symm, Image.at_nil, Stream.put_nil.symm⟩
        · rw [if_neg hnone] at h
          by_cases hlen : (src.image.read src.pos size).length = size
          · simp only [Stream.get, ne_eq, hlen, not_true_eq_false, if_false] at h
            obtain ⟨rfl, rfl⟩ := Prod.mk.inj (Except.ok.inj h)
            exact ⟨_, hlen, Image.at_read _ _ _, rfl⟩
          · simp [Stream.get, hlen] at h

theorem exists_of_copyFile {size : Nat} {dst' src' : Stream}
    (h : copyFile dst src size = .ok (dst', src')) :
    ∃ bs, bs.length = size ∧ src.image.At src.pos bs ∧ dst' = dst.put bs :=
  exists_of_copyLoop (Nat.lt_succ_self _) h

/-- Copying to a position and padding there is writing a piece. -/
theorem padFile_put {f : Image} {w : Nat} (boundary : Nat) :
    padFile ((Stream.mk f w).put bs) boundary =
      (⟨Layout.putPiece boundary f w bs, Layout.padTo boundary (w + bs.length) - 1 + 1⟩,
        Layout.padTo boundary (w + bs.length)) :=
  rfl

end Copying

end Sylverant.Archive
