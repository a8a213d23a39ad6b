/-
# A table and the blocks it leads to

An archive that is written item by item grows in two places: a record goes into a table
of fixed-width records, and the pieces of the item go behind the blocks that are there,
each padded to a boundary. This module says where everything goes, when the two places
stay clear of each other, and what stands in the file afterwards.
-/

import Sylverant.Library.RandomAccess

namespace Layout

open RandomAccess (Image)

/-- The next multiple of the boundary, which is always further on. -/
def padTo (b n : Nat) : Nat := n / b * b + b

theorem lt_padTo {b : Nat} (hb : 0 < b) (n : Nat) : n < padTo b n := by
  have hmod := Nat.mod_lt n hb
  have hdiv := Nat.div_add_mod n b
  rw [Nat.mul_comm] at hdiv
  rw [padTo]
  omega

theorem dvd_padTo (b n : Nat) : b ∣ padTo b n :=
  ⟨n / b + 1, by rw [padTo, Nat.mul_succ, Nat.mul_comm]⟩

/-! ## Pieces -/

/-- Write a piece, and a zero at the end of its padding. -/
def putPiece (b : Nat) (f : Image) (w : Nat) (p : List UInt8) : Image :=
  (f.write w p).write (padTo b (w + p.length) - 1) [0]

/-- Write pieces one behind the other. -/
def putPieces (b : Nat) : Image → Nat → List (List UInt8) → Image
  | f, _, [] => f
  | f, w, p :: ps => putPieces b (putPiece b f w p) (padTo b (w + p.length)) ps

/-- Where the pieces end. -/
def behind (b : Nat) : Nat → List (List UInt8) → Nat
  | w, [] => w
  | w, p :: ps => behind b (padTo b (w + p.length)) ps

/-- The pieces stand one behind the other. -/
def PiecesAt (b : Nat) (f : Image) : Nat → List (List UInt8) → Prop
  | _, [] => True
  | w, p :: ps => f.At w p ∧ PiecesAt b f (padTo b (w + p.length)) ps

/-- The pieces stay clear of a table that ends at `limit`, and their padding of the part of
it up to `t`. -/
def PiecesFit (b limit t : Nat) : Nat → List (List UInt8) → Prop
  | _, [] => True
  | w, p :: ps => (p ≠ [] → limit ≤ w) ∧ t < padTo b (w + p.length) ∧
      PiecesFit b limit t (padTo b (w + p.length)) ps

/-- The places that are not written to any more: the table up to `t`, and the blocks behind
the table up to `w`. -/
def Spared (limit t w i : Nat) : Prop := i < t ∨ limit ≤ i ∧ i < w

section Pieces

variable {b limit t w : Nat} {f g : Image} {p : List UInt8} {ps qs : List (List UInt8)}

theorem le_behind (hb : 0 < b) : w ≤ behind b w ps := by
  induction ps generalizing w with
  | nil => exact Nat.le_refl _
  | cons p ps ih =>
      have hnext := lt_padTo hb (w + p.length)
      have hrest := @ih (padTo b (w + p.length))
      rw [behind]
      omega

theorem behind_append : behind b w (ps ++ qs) = behind b (behind b w ps) qs := by
  induction ps generalizing w with
  | nil => rfl
  | cons p ps ih => exact ih

theorem keeps_putPiece (hb : 0 < b) (htable : t ≤ limit) (hclear : p ≠ [] → limit ≤ w)
    (hpad : t < padTo b (w + p.length)) : Image.Keeps (Spared limit t w) f (putPiece b f w p) := by
  have hnext := lt_padTo hb (w + p.length)
  refine (Image.keeps_write.mono fun i hi => ?_).trans (Image.keeps_write.mono fun i hi => ?_)
  · obtain hi | hi := hi
    · by_cases hp : p = []
      · -- nothing is written
        rw [hp, List.length_nil]
        exact Nat.lt_or_ge i w
      · have hle := hclear hp
        exact .inl (by omega)
    · exact .inl hi.2
  · obtain hi | hi := hi <;> exact .inl (by omega)

theorem at_putPiece (hb : 0 < b) : (putPiece b f w p).At w p := by
  have hnext := lt_padTo hb (w + p.length)
  refine Image.at_write.keep Image.keeps_write fun i hi => .inl ?_
  omega

theorem padTo_le_length_putPiece (hb : 0 < b) :
    padTo b (w + p.length) ≤ (putPiece b f w p).length := by
  have hat : (putPiece b f w p).At (padTo b (w + p.length) - 1) [0] := Image.at_write
  have hle := hat.le_length (by decide)
  have hnext := lt_padTo hb (w + p.length)
  simp only [List.length_singleton] at hle
  omega

theorem keeps_putPieces (hb : 0 < b) (htable : t ≤ limit) (hfit : PiecesFit b limit t w ps) :
    Image.Keeps (Spared limit t w) f (putPieces b f w ps) := by
  induction ps generalizing f w with
  | nil => exact .refl _ _
  | cons p ps ih =>
      obtain ⟨hclear, hpad, hrest⟩ := hfit
      have hnext := lt_padTo hb (w + p.length)
      refine (keeps_putPiece hb htable hclear hpad).trans ((ih hrest).mono fun i hi => ?_)
      exact hi.imp_right fun hi => ⟨hi.1, by omega⟩

theorem PiecesAt.keep (hb : 0 < b) (hat : PiecesAt b f w ps) {S : Nat → Prop}
    (hkeeps : Image.Keeps S f g) (hfit : PiecesFit b limit t w ps)
    (hS : ∀ i, limit ≤ i → i < behind b w ps → S i) : PiecesAt b g w ps := by
  induction ps generalizing w with
  | nil => trivial
  | cons p ps ih =>
      have hnext := lt_padTo hb (w + p.length)
      refine ⟨hat.1.keep hkeeps fun i hi => ?_, ih hat.2 hfit.2.2 hS⟩
      have hclear := hfit.1 (List.length_pos_iff.mp (Nat.zero_lt_of_lt hi))
      have hend : padTo b (w + p.length) ≤ behind b w (p :: ps) := le_behind hb
      exact hS _ (by omega) (by omega)

/-- The pieces that were written stand there. -/
theorem piecesAt_putPieces (hb : 0 < b) (htable : t ≤ limit) (hfit : PiecesFit b limit t w ps) :
    PiecesAt b (putPieces b f w ps) w ps := by
  induction ps generalizing f w with
  | nil => trivial
  | cons p ps ih =>
      refine ⟨(at_putPiece hb).keep (keeps_putPieces hb htable hfit.2.2) fun i hi => ?_,
        ih hfit.2.2⟩
      have hclear := hfit.1 (List.length_pos_iff.mp (Nat.zero_lt_of_lt hi))
      have hnext := lt_padTo hb (w + p.length)
      exact .inr (by omega)

/-- Writing the same pieces keeps two files equal where they are. -/
theorem byte_putPieces_congr {x : Nat} (hx : f.byte x = g.byte x) :
    (putPieces b f w ps).byte x = (putPieces b g w ps).byte x := by
  induction ps generalizing f g w with
  | nil => exact hx
  | cons p ps ih => exact ih (Image.byte_write_congr (Image.byte_write_congr hx))

/-- Pieces behind the table fit. -/
theorem piecesFit_of_le (hb : 0 < b) (htable : t ≤ limit) (hle : limit ≤ w) :
    PiecesFit b limit t w ps := by
  induction ps generalizing w with
  | nil => trivial
  | cons p ps ih =>
      have hnext := lt_padTo hb (w + p.length)
      exact ⟨fun _ => hle, by omega, ih (by omega)⟩

/-- Pieces leave everything before them alone. -/
theorem keeps_putPieces_low (hb : 0 < b) : Image.Keeps (· < w) f (putPieces b f w ps) :=
  (keeps_putPieces hb (Nat.le_refl w) (piecesFit_of_le hb (Nat.le_refl w) (Nat.le_refl w))).mono
    fun _ hi => .inl hi

end Pieces

/-! ## Items -/

/-- Something to put into an archive: its record, which may depend on where its pieces are,
and the pieces. -/
structure Item (width : Nat) where
  record : Nat → List UInt8
  pieces : List (List UInt8)
  length_record : ∀ w, (record w).length = width

/-- Write an item. -/
def putItem {width : Nat} (b : Nat) (f : Image) (t w : Nat) (x : Item width) : Image :=
  putPieces b (f.write t (x.record w)) w x.pieces

/-- Write items one after the other. -/
def putItems {width : Nat} (b : Nat) : Image → Nat → Nat → List (Item width) → Image
  | f, _, _, [] => f
  | f, t, w, x :: xs => putItems b (putItem b f t w x) (t + width) (behind b w x.pieces) xs

/-- Where the blocks of the items end. -/
def ends {width : Nat} (b w : Nat) (xs : List (Item width)) : Nat :=
  behind b w (xs.flatMap Item.pieces)

/-- The records and the pieces of the items stand in the file. -/
def Stored {width : Nat} (b : Nat) (f : Image) : Nat → Nat → List (Item width) → Prop
  | _, _, [] => True
  | t, w, x :: xs => f.At t (x.record w) ∧ PiecesAt b f w x.pieces ∧
      Stored b f (t + width) (behind b w x.pieces) xs

/-- The items stay clear of each other in a table that ends at `limit`. -/
def Fit {width : Nat} (b limit : Nat) : Nat → Nat → List (Item width) → Prop
  | t, _, [] => t ≤ limit
  | t, w, x :: xs => PiecesFit b limit (t + width) w x.pieces ∧
      Fit b limit (t + width) (behind b w x.pieces) xs

section Items

variable {width b limit t w : Nat} {f g : Image} {x : Item width} {xs ys : List (Item width)}

theorem ends_cons : ends b w (x :: xs) = ends b (behind b w x.pieces) xs := by
  rw [ends, List.flatMap_cons, behind_append]
  rfl

theorem le_ends (hb : 0 < b) : w ≤ ends b w xs := le_behind hb

theorem Fit.le (h : Fit b limit t w xs) : t + width * xs.length ≤ limit := by
  induction xs generalizing t w with
  | nil => exact h
  | cons x xs ih =>
      have hrest := ih h.2
      rw [List.length_cons, Nat.mul_succ]
      omega

theorem keeps_putItem (hb : 0 < b) (htable : t + width ≤ limit)
    (hfit : PiecesFit b limit (t + width) w x.pieces) :
    Image.Keeps (Spared limit t w) f (putItem b f t w x) := by
  refine (Image.keeps_write.mono fun i hi => ?_).trans
    ((keeps_putPieces hb htable hfit).mono fun i hi => ?_)
  · obtain hi | hi := hi
    · exact .inl hi
    · rw [x.length_record]
      exact .inr (by omega)
  · obtain hi | hi := hi
    · exact .inl (by omega)
    · exact .inr hi

theorem keeps_putItems (hb : 0 < b) (hfit : Fit b limit t w xs) :
    Image.Keeps (Spared limit t w) f (putItems b f t w xs) := by
  induction xs generalizing f t w with
  | nil => exact .refl _ _
  | cons x xs ih =>
      have htable := hfit.le
      rw [List.length_cons, Nat.mul_succ] at htable
      have hbehind : w ≤ behind b w x.pieces := le_behind hb
      refine (keeps_putItem hb (by omega) hfit.1).trans ((ih hfit.2).mono fun i hi => ?_)
      obtain hi | hi := hi
      · exact .inl (by omega)
      · exact .inr ⟨hi.1, by omega⟩

/-- Items leave everything before their part of the table and their blocks alone, even when they
do not fit. -/
theorem keeps_putItems_low (hb : 0 < b) :
    Image.Keeps (fun i => i < t ∧ i < w) f (putItems b f t w xs) := by
  induction xs generalizing f t w with
  | nil => exact .refl _ _
  | cons x xs ih =>
      have hbehind : w ≤ behind b w x.pieces := le_behind hb
      refine (Image.keeps_write.mono fun i hi => .inl hi.1).trans
        (((keeps_putPieces_low hb).mono fun i hi => hi.2).trans (ih.mono fun i hi => ?_))
      exact ⟨by omega, by omega⟩

/-- The items that were written stand in the file. -/
theorem stored_putItems (hb : 0 < b) (hfit : Fit b limit t w xs) :
    Stored b (putItems b f t w xs) t w xs := by
  induction xs generalizing f t w with
  | nil => trivial
  | cons x xs ih =>
      have htable := hfit.le
      rw [List.length_cons, Nat.mul_succ] at htable
      have htable' : t + width ≤ limit := by omega
      have hlater := @keeps_putItems width b limit (t + width) (behind b w x.pieces)
        (putItem b f t w x) xs hb hfit.2
      refine ⟨?_, ?_, ih hfit.2⟩
      · have hrecord : (putItem b f t w x).At t (x.record w) := by
          refine Image.at_write.keep (keeps_putPieces hb htable' hfit.1) fun i hi => .inl ?_
          rw [x.length_record] at hi
          omega
        refine hrecord.keep hlater fun i hi => .inl ?_
        rw [x.length_record] at hi
        omega
      · exact (piecesAt_putPieces hb htable' hfit.1).keep hb hlater hfit.1
          fun i hlimit hi => .inr ⟨hlimit, hi⟩

/-- Items stay stored when their part of the table and their blocks are kept. -/
theorem Stored.keep (h : Stored b f t w xs) (hb : 0 < b) {S : Nat → Prop}
    (hkeeps : Image.Keeps S f g) (hfit : Fit b limit t w xs)
    (htable : ∀ i, t ≤ i → i < t + width * xs.length → S i)
    (hblocks : ∀ i, limit ≤ i → i < ends b w xs → S i) : Stored b g t w xs := by
  induction xs generalizing t w with
  | nil => trivial
  | cons x xs ih =>
      rw [List.length_cons, Nat.mul_succ] at htable
      rw [ends_cons] at hblocks
      have hbehind : behind b w x.pieces ≤ ends b (behind b w x.pieces) xs := le_ends hb
      refine ⟨h.1.keep hkeeps fun i hi => ?_, h.2.1.keep hb hkeeps hfit.1 fun i hlimit hi => ?_,
        ih h.2.2 hfit.2 (fun i hle hi => ?_) hblocks⟩
      · rw [x.length_record] at hi
        exact htable _ (by omega) (by omega)
      · exact hblocks i hlimit (by omega)
      · exact htable i (by omega) (by omega)

theorem stored_append : Stored b f t w (xs ++ ys) ↔
    Stored b f t w xs ∧ Stored b f (t + width * xs.length) (ends b w xs) ys := by
  induction xs generalizing t w with
  | nil => exact ⟨fun h => ⟨trivial, h⟩, fun h => h.2⟩
  | cons x xs ih =>
      have htable : t + width * (x :: xs).length = t + width + width * xs.length := by
        rw [List.length_cons, Nat.mul_succ]
        omega
      rw [List.cons_append, Stored, Stored, ih, ends_cons, htable]
      simp only [and_assoc]

/-- Writing the same items keeps two files equal where they are. -/
theorem byte_putItems_congr {i : Nat} (hi : f.byte i = g.byte i) :
    (putItems b f t w xs).byte i = (putItems b g t w xs).byte i := by
  induction xs generalizing f g t w with
  | nil => exact hi
  | cons x xs ih => exact ih (byte_putPieces_congr (Image.byte_write_congr hi))

theorem putItems_append : putItems b f t w (xs ++ ys) =
    putItems b (putItems b f t w xs) (t + width * xs.length) (ends b w xs) ys := by
  induction xs generalizing f t w with
  | nil => rfl
  | cons x xs ih =>
      rw [List.cons_append, putItems, ih, ends_cons, putItems, List.length_cons, Nat.mul_succ]
      congr 1
      omega

theorem fit_of_le (hb : 0 < b) (htable : t + width * xs.length ≤ limit) (hle : limit ≤ w) :
    Fit b limit t w xs := by
  induction xs generalizing t w with
  | nil => exact htable
  | cons x xs ih =>
      rw [List.length_cons, Nat.mul_succ] at htable
      have hbehind : w ≤ behind b w x.pieces := le_behind hb
      exact ⟨piecesFit_of_le hb (by omega) hle, ih (by omega) (by omega)⟩

end Items

end Layout
