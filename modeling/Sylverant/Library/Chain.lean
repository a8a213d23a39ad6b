/-
# Pieces that are found by their sizes

Some archives do not say where their pieces are: a reader adds up the sizes and rounds. A
chain is a list of pieces, each of which stands where the step function puts it behind the one
before. The writer of `Layout` always goes on to the next multiple, while a reader may round up
only where it has to, and then the two agree as long as no piece but the last ends at
a multiple. Where one does, the reader looks into the padding, and there is a zero.
-/

import Mathlib.Algebra.GroupWithZero.Nat
import Sylverant.Library.Layout

namespace Layout

open RandomAccess (Image)

/-- Round up to a multiple. -/
def roundTo (b n : Nat) : Nat := (n + (b - 1)) / b * b

/-- Where pieces end, when a piece that ends at `n` is followed by one at `next n`. -/
def endBy (next : Nat → Nat) : Nat → List (List UInt8) → Nat
  | w, [] => w
  | w, p :: ps => endBy next (next (w + p.length)) ps

/-- Each piece stands where `next` puts it. -/
def ChainAt (next : Nat → Nat) (f : Image) : Nat → List (List UInt8) → Prop
  | _, [] => True
  | w, p :: ps => f.At w p ∧ ChainAt next f (next (w + p.length)) ps

/-- No piece but the last has a size that is a multiple. -/
def Ragged (b : Nat) (ps : List (List UInt8)) : Prop := ∀ p ∈ ps.dropLast, ¬ b ∣ p.length

instance (b : Nat) (ps : List (List UInt8)) : Decidable (Ragged b ps) :=
  inferInstanceAs (Decidable (∀ p ∈ ps.dropLast, ¬ b ∣ p.length))

section Rounding

variable {b n : Nat}

theorem dvd_roundTo : b ∣ roundTo b n := ⟨(n + (b - 1)) / b, Nat.mul_comm ..⟩

theorem le_roundTo (hb : 0 < b) : n ≤ roundTo b n := by
  have hmod := Nat.mod_lt (n + (b - 1)) hb
  have hdiv := Nat.div_add_mod (n + (b - 1)) b
  rw [Nat.mul_comm] at hdiv
  rw [roundTo]
  omega

theorem roundTo_mono {m : Nat} (h : n ≤ m) : roundTo b n ≤ roundTo b m :=
  Nat.mul_le_mul_right b (Nat.div_le_div_right (Nat.add_le_add_right h _))

theorem roundTo_of_dvd (h : b ∣ n) : roundTo b n = n := by
  obtain ⟨k, rfl⟩ := h
  by_cases hb : b = 0
  · rw [hb, roundTo, Nat.mul_zero, Nat.zero_mul]
  · rw [roundTo, Nat.mul_add_div (by omega), Nat.div_eq_of_lt (by omega), Nat.add_zero,
      Nat.mul_comm]

/-- Behind a multiple, a size is rounded on its own. -/
theorem roundTo_add {w : Nat} (hw : b ∣ w) : roundTo b (w + n) = w + roundTo b n := by
  obtain ⟨k, rfl⟩ := hw
  by_cases hb : b = 0
  · rw [hb, roundTo, roundTo, Nat.mul_zero, Nat.mul_zero, Nat.zero_mul]
  · rw [roundTo, Nat.add_assoc, Nat.mul_add_div (by omega), Nat.add_mul, Nat.mul_comm k, roundTo]

theorem roundTo_le {m : Nat} (hm : b ∣ m) (h : n ≤ m) : roundTo b n ≤ m := by
  rw [← roundTo_of_dvd hm]
  exact roundTo_mono h

theorem padTo_of_not_dvd (h : ¬ b ∣ n) : padTo b n = roundTo b n := by
  obtain rfl | hb := Nat.eq_zero_or_pos b
  · rw [padTo, roundTo, Nat.mul_zero, Nat.mul_zero]
  have hmod : 0 < n % b := Nat.pos_of_ne_zero fun hzero => h (Nat.dvd_of_mod_eq_zero hzero)
  have hlt := Nat.mod_lt n hb
  have hsplit : n + (b - 1) = b * (n / b + 1) + (n % b - 1) := by
    have hdiv := Nat.div_add_mod n b
    rw [Nat.mul_succ]
    omega
  have hsmall : (n % b - 1) / b = 0 := Nat.div_eq_of_lt (by omega)
  rw [padTo, roundTo, hsplit, Nat.mul_add_div hb, hsmall, Nat.add_zero, Nat.succ_mul]

end Rounding

section Chains

variable {next : Nat → Nat} {b w : Nat} {f g : Image} {p q : List UInt8}
  {ps as bs : List (List UInt8)}

theorem endBy_append : endBy next w (as ++ bs) = endBy next (endBy next w as) bs := by
  induction as generalizing w with
  | nil => rfl
  | cons a as ih => exact ih

theorem endBy_concat : endBy next w (as ++ [p]) = next (endBy next w as + p.length) := endBy_append

theorem chainAt_append :
    ChainAt next f w (as ++ bs) ↔ ChainAt next f w as ∧ ChainAt next f (endBy next w as) bs := by
  induction as generalizing w with
  | nil => exact ⟨fun h => ⟨trivial, h⟩, fun h => h.2⟩
  | cons a as ih => rw [List.cons_append, ChainAt, ChainAt, ih, and_assoc, endBy]

/-- A chain is known by where each of its pieces stands. -/
theorem chainAt_iff :
    ChainAt next f w ps ↔ ∀ as p bs, ps = as ++ p :: bs → f.At (endBy next w as) p := by
  refine ⟨?_, fun h => ?_⟩
  · rintro h as p bs rfl
    exact (chainAt_append.mp h).2.1
  · induction ps generalizing w with
    | nil => trivial
    | cons p ps ih =>
        exact ⟨h [] p ps rfl, ih fun as q bs hps => h (p :: as) q bs (by rw [hps]; rfl)⟩

theorem behind_eq_endBy : behind b w ps = endBy (padTo b) w ps := by
  induction ps generalizing w with
  | nil => rfl
  | cons p ps ih => exact ih

theorem piecesAt_iff_chainAt : PiecesAt b f w ps ↔ ChainAt (padTo b) f w ps := by
  induction ps generalizing w with
  | nil => exact Iff.rfl
  | cons p ps ih => rw [PiecesAt, ChainAt, ih]

/-- The pieces of stored items are a chain. -/
theorem chainAt_of_stored {width t : Nat} {xs : List (Item width)} (h : Stored b f t w xs) :
    ChainAt (padTo b) f w (xs.flatMap Item.pieces) := by
  induction xs generalizing t w with
  | nil => trivial
  | cons x xs ih =>
      rw [List.flatMap_cons, chainAt_append, ← behind_eq_endBy, ← piecesAt_iff_chainAt]
      exact ⟨h.2.1, ih h.2.2⟩

theorem le_endBy (h : ∀ n, n ≤ next n) : w ≤ endBy next w ps := by
  induction ps generalizing w with
  | nil => exact Nat.le_refl _
  | cons p ps ih =>
      exact Nat.le_trans (Nat.le_trans (Nat.le_add_right _ _) (h _)) ih

theorem dvd_endBy_roundTo (hw : b ∣ w) : b ∣ endBy (roundTo b) w ps := by
  induction ps generalizing w with
  | nil => exact hw
  | cons p ps ih => exact ih dvd_roundTo

/-- Behind a multiple, the sizes of the pieces are rounded on their own. -/
theorem endBy_roundTo (hw : b ∣ w) :
    endBy (roundTo b) w ps = w + (ps.map fun p => roundTo b p.length).sum := by
  induction ps generalizing w with
  | nil => rfl
  | cons p ps ih =>
      rw [endBy, ih dvd_roundTo, roundTo_add hw, List.map_cons, List.sum_cons, Nat.add_assoc]

theorem Ragged.of_append (h : Ragged b (as ++ p :: bs)) : ∀ a ∈ as, ¬ b ∣ a.length := by
  intro a ha
  refine h a ?_
  rw [List.dropLast_append_of_ne_nil (List.cons_ne_nil _ _)]
  exact List.mem_append_left _ ha

/-- Where pieces are not ragged, there is a first one that shows it. -/
theorem exists_of_not_ragged (h : ¬ Ragged b ps) :
    ∃ as p q bs, ps = as ++ p :: q :: bs ∧ b ∣ p.length ∧ ∀ a ∈ as, ¬ b ∣ a.length := by
  induction ps with
  | nil => exact absurd (fun p hp => absurd hp List.not_mem_nil) h
  | cons p ps ih =>
      cases ps with
      | nil => exact absurd (fun p hp => absurd hp List.not_mem_nil) h
      | cons q bs =>
          by_cases hp : b ∣ p.length
          · exact ⟨[], p, q, bs, rfl, hp, fun a ha => absurd ha List.not_mem_nil⟩
          · have hrest : ¬ Ragged b (q :: bs) := fun hragged =>
              h fun a ha => by
                rw [List.dropLast_cons_cons] at ha
                obtain rfl | ha := List.mem_cons.mp ha
                · exact hp
                · exact hragged a ha
            obtain ⟨as, p', q', bs', heq, hdvd, has⟩ := ih hrest
            refine ⟨p :: as, p', q', bs', by rw [heq]; rfl, hdvd, fun a ha => ?_⟩
            obtain rfl | ha := List.mem_cons.mp ha
            · exact hp
            · exact has a ha

/-- The writer goes on where a reader that rounds up does, behind pieces none of which ends at a
multiple. -/
theorem behind_eq_roundTo (hw : b ∣ w) (h : ∀ p ∈ ps, ¬ b ∣ p.length) :
    behind b w ps = endBy (roundTo b) w ps := by
  induction ps generalizing w with
  | nil => rfl
  | cons p ps ih =>
      have hp : ¬ b ∣ w + p.length := fun hdvd =>
        h p List.mem_cons_self ((Nat.dvd_add_right hw).mp hdvd)
      rw [behind, endBy, padTo_of_not_dvd hp]
      exact ih dvd_roundTo fun q hq => h q (List.mem_cons_of_mem _ hq)

end Chains

/-! ## Padding -/

/-- The position is in one of the pieces. -/
def Inside (b : Nat) : Nat → List (List UInt8) → Nat → Prop
  | _, [], _ => False
  | w, p :: ps, i => w ≤ i ∧ i < w + p.length ∨ Inside b (padTo b (w + p.length)) ps i

section Padding

variable {width b t w i : Nat} {f : Image} {p : List UInt8} {ps as bs : List (List UInt8)}
  {xs : List (Item width)}

theorem inside_append :
    Inside b w (as ++ bs) i ↔ Inside b w as i ∨ Inside b (behind b w as) bs i := by
  induction as generalizing w with
  | nil => exact ⟨.inr, fun h => h.elim False.elim id⟩
  | cons a as ih => rw [List.cons_append, Inside, Inside, ih, or_assoc, behind]

theorem Inside.le (hb : 0 < b) (h : Inside b w ps i) : w ≤ i := by
  induction ps generalizing w with
  | nil => exact h.elim
  | cons p ps ih =>
      obtain h | h := h
      · exact h.1
      · have hnext := lt_padTo hb (w + p.length)
        have hle := ih h
        omega

theorem Inside.lt (hb : 0 < b) (h : Inside b w ps i) : i < behind b w ps := by
  induction ps generalizing w with
  | nil => exact h.elim
  | cons p ps ih =>
      obtain h | h := h
      · have hnext := lt_padTo hb (w + p.length)
        have hrest : padTo b (w + p.length) ≤ behind b w (p :: ps) := le_behind hb
        omega
      · exact ih h

/-- The end of a piece is not in a piece. -/
theorem not_inside_end (hb : 0 < b) :
    ¬ Inside b w (as ++ p :: bs) (behind b w as + p.length) := by
  intro h
  obtain h | h | h := inside_append.mp h
  · have hlt := h.lt hb
    omega
  · omega
  · have hle := Inside.le hb h
    have hnext := lt_padTo hb (behind b w as + p.length)
    omega

theorem byte_putPieces_zero (hf : f.byte i = 0) (hi : ¬ Inside b w ps i) :
    (putPieces b f w ps).byte i = 0 := by
  induction ps generalizing f w with
  | nil => exact hf
  | cons p ps ih =>
      have hdata : (f.write w p).byte i = 0 := by
        have hout : i < w ∨ w + p.length ≤ i := by
          by_contra hin
          exact hi (.inl (by omega))
        rw [Image.keeps_write.byte_eq i hout, hf]
      exact ih (Image.byte_write_zero hdata fun c hc => List.mem_singleton.mp hc)
        fun h => hi (.inr h)

/-- A zero behind the table that is not covered by a piece stays. -/
theorem byte_putItems_padding (hf : f.byte i = 0) (htable : t + width * xs.length ≤ i)
    (hi : ¬ Inside b w (xs.flatMap Item.pieces) i) : (putItems b f t w xs).byte i = 0 := by
  induction xs generalizing f t w with
  | nil => exact hf
  | cons x xs ih =>
      rw [List.length_cons, Nat.mul_succ] at htable
      rw [List.flatMap_cons, inside_append, not_or] at hi
      have hrecord : (f.write t (x.record w)).byte i = 0 := by
        rw [Image.keeps_write.byte_eq i (.inr (by rw [x.length_record]; omega)), hf]
      exact ih (byte_putPieces_zero hrecord hi.1) (by omega) hi.2

end Padding

end Layout
