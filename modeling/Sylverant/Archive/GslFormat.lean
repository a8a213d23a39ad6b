/-
# The format of GSL archives

The names in a table are not empty and leave room for the zero that ends them. Scanning a
table reads every record, with the order of bytes that was given or guessed, and goes on
until it finds an empty name.
-/

import Sylverant.Archive.Gsl

namespace Sylverant.Archive.Gsl

open RandomAccess (Image Stream)
open Layout (padTo Region places dataEnd sizes putItems)

/-- A name that fits into its field, without the zero that ends it. -/
structure Name where
  bytes : List UInt8
  ne_nil : bytes ≠ []
  no_nul : 0 ∉ bytes
  length_lt : bytes.length < 32

instance : DecidableEq Name := fun a b =>
  decidable_of_iff (a.bytes = b.bytes)
    ⟨fun h => by cases a; cases b; cases h; rfl, fun h => congrArg Name.bytes h⟩

/-- A name as it is stored. -/
def Name.field (name : Name) : List UInt8 :=
  name.bytes ++ List.replicate (32 - name.bytes.length) 0

/-- The records of these files stand in the table, from this position on. -/
def TableAt (e : Endianness) (f : Image) : Nat → List (Name × Region) → Prop
  | _, [] => True
  | t, x :: xs => f.At t (record e x.1.bytes x.2.offset x.2.size) ∧ TableAt e f (t + 48) xs

/-- The region that is read, when it was written with the order of bytes `e` and is read with
the order `r`. -/
def inTable (r e : Endianness) (x : Region) : Region :=
  ⟨ofNum r (num e (x.offset / 2048)) * 2048, ofNum r (num e x.size)⟩

/-- The callback for each record in turn. -/
def visit {σ : Type} (p : Callback σ) (f : Image) :
    Nat → List (Name × Region) → σ → Except Int σ
  | _, [], d => .ok d
  | i, x :: xs, d =>
      match p ⟨f, x.2.offset⟩ i x.2.size x.1.bytes d with
      | .error rv => .error rv
      | .ok d => visit p f (i + 1) xs d

section Names

variable {name : Name}

theorem Name.length_field : name.field.length = 32 := by
  have hlt := name.length_lt
  rw [Name.field, List.length_append, List.length_replicate]
  omega

theorem Name.head_field : name.field.head? ≠ some 0 := by
  obtain ⟨b, bs, hbytes⟩ := List.exists_cons_of_ne_nil name.ne_nil
  have hne : b ≠ 0 := by
    rintro rfl
    exact name.no_nul (hbytes ▸ List.mem_cons_self)
  rw [Name.field, hbytes, List.cons_append, List.head?_cons]
  exact fun h => hne (Option.some.inj h)

/-- The name is what is in front of the first zero. -/
theorem Name.takeWhile_field : name.field.takeWhile (· ≠ 0) = name.bytes := by
  have hlt := name.length_lt
  obtain ⟨k, hk⟩ : ∃ k, 32 - name.bytes.length = k + 1 := ⟨31 - name.bytes.length, by omega⟩
  have hall : ∀ b ∈ name.bytes, decide (b ≠ 0) = true := by
    intro b hb
    refine decide_eq_true ?_
    rintro rfl
    exact name.no_nul hb
  rw [Name.field, hk, List.replicate_succ, List.takeWhile_append_of_pos hall,
    List.takeWhile_cons_of_neg (by decide), List.append_nil]

end Names

section Numbers

variable {e r : Endianness} {n total : Nat} {buf : List UInt8} {o : Nat}

theorem length_num : (num e n).length = 4 := by
  cases e <;> rfl

theorem ofNum_num_zero : ofNum r (num e 0) = 0 := by
  cases r <;> cases e <;> decide

theorem length_record {name : Name} {w : Nat} : (record e name.bytes w n).length = 48 := by
  have hlt := name.length_lt
  simp only [record, List.length_append, List.length_replicate, length_num]
  omega

theorem readOffset_self (h : r ≠ .auto) : readOffset r total buf = .ok (r, ofNum r buf) := by
  cases r with
  | auto => exact absurd rfl h
  | big => rfl
  | little => rfl

/-- Whatever order of bytes is guessed, the offset is read with it. -/
theorem of_readOffset (h : readOffset e total buf = .ok (r, o)) :
    r ≠ .auto ∧ o = ofNum r buf := by
  cases e with
  | auto =>
      simp only [readOffset] at h
      split_ifs at h
      · obtain ⟨rfl, rfl⟩ := Prod.mk.inj (Except.ok.inj h)
        exact ⟨by decide, rfl⟩
      · obtain ⟨rfl, rfl⟩ := Prod.mk.inj (Except.ok.inj h)
        exact ⟨by decide, rfl⟩
  | big =>
      obtain ⟨rfl, rfl⟩ := Prod.mk.inj (Except.ok.inj h)
      exact ⟨by decide, rfl⟩
  | little =>
      obtain ⟨rfl, rfl⟩ := Prod.mk.inj (Except.ok.inj h)
      exact ⟨by decide, rfl⟩

end Numbers

section Scanning

variable {σ : Type} {p : Callback σ} {f : Image} {e r : Endianness} {xs : List (Name × Region)}
  {total rounds i t w n : Nat} {d : σ}

/-- One round of the scan, at a record. -/
theorem scanLoop_record {name : Name} (h : f.At t (record e name.bytes w n)) :
    scanLoop p total (rounds + 1) r i ⟨f, t⟩ d =
      match readOffset r total (num e (w / 2048)) with
      | .error rv => .error rv
      | .ok (r, offset) =>
          match p ⟨f, offset * 2048⟩ i (ofNum r (num e n)) name.bytes d with
          | .error _ => .error (-7)
          | .ok d => scanLoop p total rounds r (i + 1) ⟨f, t + 48⟩ d := by
  obtain ⟨h, -⟩ := Image.at_append.mp h
  obtain ⟨h, hsize⟩ := Image.at_append.mp h
  obtain ⟨hname, hoffset⟩ := Image.at_append.mp h
  have hlen := @Name.length_field name
  rw [Name.field] at hlen
  have hget : (Stream.mk f t).get 32 = (name.field, ⟨f, t + 32⟩) := by
    have hread := @Stream.get_of_at ⟨f, t⟩ _ hname
    rwa [hlen] at hread
  have hget' : (Stream.mk f (t + 32)).get 4 = (num e (w / 2048), ⟨f, t + 36⟩) := by
    rw [hlen] at hoffset
    have hread := @Stream.get_of_at ⟨f, t + 32⟩ _ hoffset
    rwa [length_num] at hread
  have hget'' : (Stream.mk f (t + 36)).get 4 = (num e n, ⟨f, t + 40⟩) := by
    rw [List.length_append, hlen, length_num] at hsize
    have hread := @Stream.get_of_at ⟨f, t + 36⟩ _ hsize
    rwa [length_num] at hread
  rw [scanLoop, hget]
  simp only [Name.length_field, ne_eq, not_true_eq_false, if_false, Name.head_field, hget',
    length_num, Name.takeWhile_field, Stream.seek]
  cases readOffset r total (num e (w / 2048)) with
  | error rv => rfl
  | ok x =>
      cases hfound : p ⟨f, x.2 * 2048⟩ i (ofNum x.1 (num e n)) name.bytes d with
      | error rv => simp only [hget'', length_num, not_true_eq_false, if_false, hfound]
      | ok d' => simp only [hget'', length_num, not_true_eq_false, if_false, hfound]

/-- A guess that succeeds is kept for the rest of the scan. -/
theorem scanLoop_guess {name : Name} {a : Endianness} {o : Nat}
    (h : f.At t (record e name.bytes w n))
    (hguess : readOffset a total (num e (w / 2048)) = .ok (r, o)) :
    scanLoop p total (rounds + 1) a i ⟨f, t⟩ d = scanLoop p total (rounds + 1) r i ⟨f, t⟩ d := by
  obtain ⟨hr, rfl⟩ := of_readOffset hguess
  rw [scanLoop_record h, scanLoop_record h, hguess, readOffset_self hr]

/-- Scanning the records of a table, and then what is behind them. -/
theorem scanLoop_table (hr : r ≠ .auto) (h : TableAt e f t xs) :
    scanLoop p total (xs.length + rounds) r i ⟨f, t⟩ d =
      match visit p f i (xs.map fun x => (x.1, inTable r e x.2)) d with
      | .error _ => .error (-7)
      | .ok d => scanLoop p total rounds r (i + xs.length) ⟨f, t + 48 * xs.length⟩ d := by
  induction xs generalizing i t d with
  | nil => rw [List.length_nil, Nat.zero_add]; rfl
  | cons x xs ih =>
      obtain ⟨hrecord, hrest⟩ := h
      have hlen : (x :: xs).length + rounds = (xs.length + rounds) + 1 := by
        rw [List.length_cons]
        omega
      have hpos : t + 48 * (x :: xs).length = t + 48 + 48 * xs.length := by
        rw [List.length_cons]
        omega
      have hindex : i + (x :: xs).length = i + 1 + xs.length := by
        rw [List.length_cons]
        omega
      rw [hlen, hpos, hindex, scanLoop_record hrecord, readOffset_self hr, List.map_cons, visit]
      simp only [inTable]
      cases p ⟨f, ofNum r (num e (x.2.offset / 2048)) * 2048⟩ i (ofNum r (num e x.2.size))
        x.1.bytes d with
      | error rv => rfl
      | ok d => exact ih hrest

/-- A scan stops at a zero. -/
theorem scanLoop_zero (hzero : f.byte t = 0) (hlen : t + 32 ≤ f.length) :
    scanLoop p total (rounds + 1) r i ⟨f, t⟩ d = .ok (i, d) := by
  have hfull : min 32 (f.length - t) = 32 := by omega
  have hread : ((Stream.mk f t).get 32).1.length = 32 := by
    simp only [Stream.get, Image.length_read]
    exact hfull
  have hhead : ((Stream.mk f t).get 32).1.head? = some 0 := by
    simp only [Stream.get, Image.read, hfull, List.range_succ_eq_map, List.map_cons,
      List.head?_cons, Nat.add_zero, hzero]
  rw [scanLoop]
  generalize (Stream.mk f t).get 32 = x at hread hhead
  obtain ⟨filename, fp⟩ := x
  simp only [hread, hhead, ne_eq, not_true_eq_false, if_false, if_true]

/-- A scan that comes to an end has found an empty name, or has called back and gone on. -/
theorem of_scanLoop {fp : Stream} {j : Nat} {d' : σ}
    (h : scanLoop p total (rounds + 1) r i fp d = .ok (j, d')) :
    (j = i ∧ d' = d ∧ (fp.get 32).1.head? = some 0) ∨
      ∃ r' fp' fp'' m fn d'', p fp' i m fn d = .ok d'' ∧
        scanLoop p total rounds r' (i + 1) fp'' d'' = .ok (j, d') := by
  rw [scanLoop] at h
  simp only at h
  by_cases hlen : (fp.get 32).1.length = 32
  · rw [if_neg (not_not.mpr hlen)] at h
    by_cases hend : (fp.get 32).1.head? = some 0
    · rw [if_pos hend] at h
      obtain ⟨rfl, rfl⟩ := Prod.mk.inj (Except.ok.inj h)
      exact .inl ⟨rfl, rfl, hend⟩
    · rw [if_neg hend] at h
      generalize (fp.get 32).2.get 4 = x at h
      refine .inr ?_
      by_cases hbuf : x.1.length = 4
      · rw [if_neg (not_not.mpr hbuf)] at h
        cases hguess : readOffset r total x.1 with
        | error rv =>
            rw [hguess] at h
            cases h
        | ok y =>
            rw [hguess] at h
            simp only at h
            generalize x.2.get 4 = z at h
            by_cases hbuf' : z.1.length = 4
            · rw [if_neg (not_not.mpr hbuf')] at h
              cases hp : p (z.2.seek (y.2 * 2048)) i (ofNum y.1 z.1)
                  ((fp.get 32).1.takeWhile (· ≠ 0)) d with
              | error rv =>
                  rw [hp] at h
                  cases h
              | ok d'' =>
                  rw [hp] at h
                  exact ⟨y.1, _, _, _, _, d'', hp, h⟩
            · rw [if_pos hbuf'] at h
              cases h
      · rw [if_pos hbuf] at h
        cases h
  · rw [if_pos hlen] at h
    cases h

theorem of_scanGsl {rv : Int} {d' : σ} (h : scanGsl r f p d = .ok (rv, d')) :
    ∃ j, scanLoop p f.length (f.length / 48 + 1) r 0 ⟨f, 0⟩ d = .ok (j, d') := by
  rw [scanGsl] at h
  cases hloop : scanLoop p f.length (f.length / 48 + 1) r 0 ⟨f, 0⟩ d with
  | error rv =>
      rw [hloop] at h
      cases h
  | ok x =>
      rw [hloop] at h
      obtain ⟨-, rfl⟩ := Prod.mk.inj (Except.ok.inj h)
      exact ⟨x.1, rfl⟩

end Scanning

end Sylverant.Archive.Gsl
