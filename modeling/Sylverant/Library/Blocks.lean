/-
# Archives of single blocks

In many archives an item is a record and one block of data. Then the sizes alone say where
every block is, and this is what the records should say. A block that is put into the table,
or that a record cannot describe, is where such an archive breaks, so the lemmas also say
what stands in the file when the items do not fit.
-/

import Mathlib.Data.List.Forall2
import Sylverant.Library.Layout

namespace Layout

open RandomAccess (Image)

/-! ## Where blocks go -/

/-- Where a block of data is. -/
structure Region where
  offset : Nat
  size : Nat
  deriving DecidableEq

/-- Where blocks of these sizes are put, one behind the other from a position on. -/
def places (b : Nat) : Nat → List Nat → List Region
  | _, [] => []
  | w, n :: ns => ⟨w, n⟩ :: places b (padTo b (w + n)) ns

/-- Where blocks of these sizes end. -/
def dataEnd (b : Nat) : Nat → List Nat → Nat
  | w, [] => w
  | w, n :: ns => dataEnd b (padTo b (w + n)) ns

/-- The data stands in the region. -/
def Occupies (f : Image) (e : Region) (c : List UInt8) : Prop :=
  e.size = c.length ∧ f.At e.offset c

/-- The data of two regions does not overlap. -/
def Apart (a b : Region) : Prop :=
  a.size = 0 ∨ b.size = 0 ∨ a.offset + a.size ≤ b.offset ∨ b.offset + b.size ≤ a.offset

section Places

variable {b w : Nat} {ns ms : List Nat} {e : Region}

theorem length_places : (places b w ns).length = ns.length := by
  induction ns generalizing w with
  | nil => rfl
  | cons n ns ih => rw [places, List.length_cons, List.length_cons, ih]

theorem map_size_places : (places b w ns).map Region.size = ns := by
  induction ns generalizing w with
  | nil => rfl
  | cons n ns ih => rw [places, List.map_cons, ih]

theorem places_append :
    places b w (ns ++ ms) = places b w ns ++ places b (dataEnd b w ns) ms := by
  induction ns generalizing w with
  | nil => rfl
  | cons n ns ih => rw [List.cons_append, places, ih, places, dataEnd, List.cons_append]

theorem le_dataEnd (hb : 0 < b) : w ≤ dataEnd b w ns := by
  induction ns generalizing w with
  | nil => exact Nat.le_refl _
  | cons n ns ih =>
      have hpad := lt_padTo hb (w + n)
      have hrest := @ih (padTo b (w + n))
      rw [dataEnd]
      omega

theorem le_offset (hb : 0 < b) (h : e ∈ places b w ns) : w ≤ e.offset := by
  induction ns generalizing w with
  | nil => exact (List.not_mem_nil h).elim
  | cons n ns ih =>
      obtain rfl | h := List.mem_cons.mp h
      · exact Nat.le_refl _
      · have hpad := lt_padTo hb (w + n)
        have hrest := ih h
        omega

theorem size_mem (h : e ∈ places b w ns) : e.size ∈ ns := by
  rw [← @map_size_places b w ns]
  exact List.mem_map_of_mem h

/-- Each region splits the sizes into those before it and those behind it. -/
theorem exists_of_mem_places (h : e ∈ places b w ns) :
    ∃ before after, ns = before ++ e.size :: after ∧ e.offset = dataEnd b w before := by
  induction ns generalizing w with
  | nil => exact (List.not_mem_nil h).elim
  | cons n ns ih =>
      obtain rfl | h := List.mem_cons.mp h
      · exact ⟨[], ns, rfl, rfl⟩
      · obtain ⟨before, after, hns, hoffset⟩ := ih h
        exact ⟨n :: before, after, by rw [hns, List.cons_append], hoffset⟩

/-- Blocks that are put one behind the other do not overlap. -/
theorem pairwise_places (hb : 0 < b) :
    (places b w ns).Pairwise fun a b => a.offset + a.size ≤ b.offset := by
  induction ns generalizing w with
  | nil => exact List.Pairwise.nil
  | cons n ns ih =>
      refine List.pairwise_cons.mpr ⟨fun e he => ?_, ih⟩
      exact Nat.le_trans (Nat.le_of_lt (lt_padTo hb (w + n))) (le_offset hb he)

/-- From the second position on, blocks are put at multiples of the boundary. -/
theorem dvd_dataEnd {n : Nat} : b ∣ dataEnd b w (n :: ns) := by
  induction ns generalizing w n with
  | nil =>
      rw [dataEnd, dataEnd]
      exact dvd_padTo _ _
  | cons m ns ih =>
      rw [dataEnd]
      exact ih

/-- Every block takes up room. -/
theorem le_dataEnd_mul (hb : 0 < b) : b * ns.length ≤ dataEnd b w ns := by
  suffices hbound : b * (ns.length + w / b) ≤ dataEnd b w ns from
    Nat.le_trans (Nat.mul_le_mul_left b (Nat.le_add_right _ _)) hbound
  induction ns generalizing w with
  | nil =>
      rw [dataEnd, List.length_nil, Nat.zero_add]
      exact Nat.mul_div_le w b
  | cons n ns ih =>
      have hnext : w / b + 1 ≤ padTo b (w + n) / b := by
        have hmono : w / b ≤ (w + n) / b := Nat.div_le_div_right (Nat.le_add_right w n)
        rw [padTo, Nat.add_div_right _ hb, Nat.mul_div_cancel _ hb]
        omega
      have hmul : b * (ns.length + 1 + w / b) ≤ b * (ns.length + padTo b (w + n) / b) :=
        Nat.mul_le_mul_left b (by omega)
      exact Nat.le_trans hmul (@ih (padTo b (w + n)))

end Places

/-! ## Items of one block -/

section Blocks

variable {α : Type} {width : Nat} {mk : α → Item width} {data : α → List UInt8}
  {b limit t w i : Nat} {f g : Image} {as bs xs : List α} {a a' : α}

/-- The sizes of the data. -/
def sizes (data : α → List UInt8) (xs : List α) : List Nat := xs.map fun a => (data a).length

theorem length_sizes : (sizes data xs).length = xs.length := List.length_map _

theorem behind_block (hmk : ∀ a, (mk a).pieces = [data a]) :
    behind b w (mk a).pieces = padTo b (w + (data a).length) := by
  rw [hmk]
  rfl

theorem ends_blocks (hmk : ∀ a, (mk a).pieces = [data a]) :
    ends b w (xs.map mk) = dataEnd b w (sizes data xs) := by
  induction xs generalizing w with
  | nil => rfl
  | cons x xs ih =>
      rw [List.map_cons, ends_cons, ih, behind_block hmk]
      rfl

/-- The data of stored items stands at its place. -/
theorem occupies_of_stored (hmk : ∀ a, (mk a).pieces = [data a])
    (h : Stored b f t w (xs.map mk)) :
    List.Forall₂ (fun e a => Occupies f e (data a)) (places b w (sizes data xs)) xs := by
  induction xs generalizing t w with
  | nil => exact .nil
  | cons x xs ih =>
      obtain ⟨-, hpieces, hrest⟩ := h
      rw [behind_block hmk] at hrest
      rw [hmk] at hpieces
      exact .cons ⟨rfl, hpieces.1⟩ (ih hrest)

/-- The data of one stored item. -/
theorem at_of_stored (hmk : ∀ a, (mk a).pieces = [data a])
    (h : Stored b f t w ((as ++ a :: bs).map mk)) :
    f.At (dataEnd b w (sizes data as)) (data a) := by
  rw [List.map_append, stored_append, ends_blocks hmk] at h
  have hpieces := h.2.2.1
  rw [hmk] at hpieces
  exact hpieces.1

/-- Items whose data is behind the table fit, wherever the first of them is, when a step in the
table is no larger than a block. -/
theorem fit_blocks (hmk : ∀ a, (mk a).pieces = [data a]) (hwidth : width ≤ b) (hb : 0 < b)
    (hroom : t + width < padTo b w) (htable : t + width * xs.length ≤ limit)
    (hclear : ∀ e ∈ places b w (sizes data xs), e.size ≠ 0 → limit ≤ e.offset) :
    Fit b limit t w (xs.map mk) := by
  induction xs generalizing t w with
  | nil => exact htable
  | cons x xs ih =>
      rw [List.length_cons, Nat.mul_succ] at htable
      have hmono : padTo b w ≤ padTo b (w + (data x).length) := by
        have hdiv : w / b ≤ (w + (data x).length) / b :=
          Nat.div_le_div_right (Nat.le_add_right _ _)
        exact Nat.add_le_add_right (Nat.mul_le_mul_right b hdiv) b
      have hnext : padTo b (w + (data x).length) + b ≤
          padTo b (padTo b (w + (data x).length)) := by
        obtain ⟨k, hk⟩ := dvd_padTo b (w + (data x).length)
        rw [hk, padTo, Nat.mul_div_cancel_left k hb]
        exact Nat.le_of_eq (congrArg (· + b) (Nat.mul_comm b k))
      refine ⟨?_, ?_⟩
      · rw [hmk]
        exact ⟨fun hne => hclear ⟨w, _⟩ List.mem_cons_self
          (Nat.ne_of_gt (List.length_pos_iff.mpr hne)), by omega, trivial⟩
      · rw [behind_block hmk]
        exact ih (by omega) (by omega) fun e he => hclear e (List.mem_cons_of_mem _ he)

/-- The record of an item survives when it is before the item's data. -/
theorem record_putItems (hmk : ∀ a, (mk a).pieces = [data a]) (hb : 0 < b)
    (hle : t + width * as.length + width ≤ dataEnd b w (sizes data as)) :
    (putItems b f t w ((as ++ a :: bs).map mk)).At (t + width * as.length)
      ((mk a).record (dataEnd b w (sizes data as))) := by
  rw [List.map_append, putItems_append, ends_blocks hmk, List.length_map, List.map_cons, putItems]
  generalize dataEnd b w (sizes data as) = v at hle
  generalize putItems b f t w (as.map mk) = g
  have hrecord : (g.write (t + width * as.length) ((mk a).record v)).At (t + width * as.length)
      ((mk a).record v) := Image.at_write
  have hbehind : v ≤ behind b v (mk a).pieces := le_behind hb
  refine (hrecord.keep (keeps_putPieces_low hb) fun i hi => ?_).keep (keeps_putItems_low hb)
    fun i hi => ?_
  · rw [(mk a).length_record] at hi
    omega
  · rw [(mk a).length_record] at hi
    exact ⟨by omega, by omega⟩

/-- Archives whose items differ in the data of one have the same bytes where that data does not
differ. -/
theorem byte_putItems (hmk : ∀ a, (mk a).pieces = [data a])
    (hlen : (data a).length = (data a').length) (hrecord : (mk a).record = (mk a').record)
    (hi : dataEnd b w (sizes data as) ≤ i →
      (data a)[i - dataEnd b w (sizes data as)]? = (data a')[i - dataEnd b w (sizes data as)]?) :
    (putItems b f t w ((as ++ a :: bs).map mk)).byte i =
      (putItems b f t w ((as ++ a' :: bs).map mk)).byte i := by
  rw [List.map_append, List.map_append, putItems_append, putItems_append, ends_blocks hmk]
  generalize putItems b f t w (as.map mk) = g
  generalize dataEnd b w (sizes data as) = v at hi
  rw [List.map_cons, List.map_cons, putItems, putItems, putItem, putItem, behind_block hmk,
    behind_block hmk, hmk, hmk, hrecord, ← hlen]
  simp only [putPieces, putPiece, ← hlen]
  refine byte_putItems_congr (Image.byte_write_congr ?_)
  by_cases hle : v ≤ i
  · simp only [Image.write, if_pos hle, hi hle]
  · simp only [Image.write, if_neg hle]

/-- A zero behind the table stays, when no data covers it. -/
theorem byte_putItems_zero (hmk : ∀ a, (mk a).pieces = [data a]) (hf : f.byte i = 0)
    (htable : t + width * xs.length ≤ i)
    (hclear : ∀ e ∈ places b w (sizes data xs), e.size ≠ 0 → i < e.offset) :
    (putItems b f t w (xs.map mk)).byte i = 0 := by
  induction xs generalizing f t w with
  | nil => exact hf
  | cons x xs ih =>
      rw [List.length_cons, Nat.mul_succ] at htable
      rw [List.map_cons, putItems, putItem, behind_block hmk, hmk]
      refine ih ?_ (by omega) fun e he => hclear e (List.mem_cons_of_mem _ he)
      have hrecord : (f.write t ((mk x).record w)).byte i = 0 := by
        rw [Image.keeps_write.byte_eq i (.inr (by rw [(mk x).length_record]; omega)), hf]
      have hdata : ((f.write t ((mk x).record w)).write w (data x)).byte i = 0 := by
        by_cases hnil : data x = []
        · rw [hnil, Image.write_nil, hrecord]
        · have hlt := hclear ⟨w, (data x).length⟩ List.mem_cons_self
            (Nat.ne_of_gt (List.length_pos_iff.mpr hnil))
          rw [Image.keeps_write.byte_eq i (.inl hlt), hrecord]
      exact Image.byte_write_zero hdata fun c hc => List.mem_singleton.mp hc

theorem length_putItems_le (hmk : ∀ a, (mk a).pieces = [data a]) (hb : 0 < b) {m : Nat}
    (hf : f.length ≤ m) (htable : t + width * xs.length ≤ m)
    (hdata : dataEnd b w (sizes data xs) ≤ m) : (putItems b f t w (xs.map mk)).length ≤ m := by
  induction xs generalizing f t w with
  | nil => exact hf
  | cons x xs ih =>
      rw [List.length_cons, Nat.mul_succ] at htable
      have hnext := lt_padTo hb (w + (data x).length)
      have hend : padTo b (w + (data x).length) ≤ m := Nat.le_trans (le_dataEnd hb) hdata
      rw [List.map_cons, putItems, putItem, behind_block hmk, hmk]
      refine ih (Image.length_write_le (Image.length_write_le (Image.length_write_le hf ?_) ?_) ?_)
        (by omega) hdata
      · rw [(mk x).length_record]
        omega
      · omega
      · rw [List.length_singleton]
        omega

theorem dataEnd_le_length (hmk : ∀ a, (mk a).pieces = [data a]) (hb : 0 < b) (hne : xs ≠ []) :
    dataEnd b w (sizes data xs) ≤ (putItems b f t w (xs.map mk)).length := by
  induction xs generalizing f t w with
  | nil => exact absurd rfl hne
  | cons x xs ih =>
      rw [List.map_cons, putItems, putItem, behind_block hmk, hmk]
      cases xs with
      | nil => exact padTo_le_length_putPiece hb
      | cons y ys => exact ih (List.cons_ne_nil y ys)

/-- The length of an archive that starts empty, when its table is no longer than its data. -/
theorem length_putItems (hmk : ∀ a, (mk a).pieces = [data a]) (hb : 0 < b) (hne : xs ≠ [])
    (hf : f.length ≤ w) (htable : t + width * xs.length ≤ dataEnd b w (sizes data xs)) :
    (putItems b f t w (xs.map mk)).length = dataEnd b w (sizes data xs) :=
  Nat.le_antisymm
    (length_putItems_le hmk hb (Nat.le_trans hf (le_dataEnd hb)) htable (Nat.le_refl _))
    (dataEnd_le_length hmk hb hne)

end Blocks

end Layout
