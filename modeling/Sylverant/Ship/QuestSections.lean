/-
# The sections of a quest

The data of a quest as a chain of sections, and what `parse_quest_objects` makes of such
a chain: of several sections of a kind for one area it keeps the last one, but it counts
the objects of all of them.
-/

import Mathlib.Algebra.GroupWithZero.Nat
import Sylverant.Ship.QuestMap

namespace Sylverant.Ship.QuestMap

open Function (update)
open Sylverant.Archive (le32 ofLe32 ofLe32_le32_of_lt length_le32)

/-! ## Chains of sections -/

inductive SectionKind
  | objects
  | enemies
  | other
  deriving DecidableEq

/-- `obj_type` -/
def SectionKind.objType : SectionKind → Nat
  | .objects => 0x01
  | .enemies => 0x02
  | .other => 0x03

/-- A section, with its body and what stands between that and the next header. -/
structure Section where
  kind : SectionKind
  area : Nat
  body : List UInt8
  pad : List UInt8

/-- A section as it is stored. -/
def Section.bytes (s : Section) : List UInt8 :=
  le32 s.kind.objType ++ le32 (hdrSize + s.body.length + s.pad.length) ++ le32 s.area ++
    le32 s.body.length ++ s.body ++ s.pad

/-- The data of a quest, with what stands behind the sections. -/
def questData (ss : List Section) (tail : List UInt8) : List UInt8 :=
  ss.flatMap Section.bytes ++ tail

/-- A list of bytes as the memory it is in. -/
def memory (bs : List UInt8) (i : Nat) : UInt8 := bs.getD i 0

/-- A well-formed chain of sections. What stands behind it is no header. -/
structure WellFormed (ss : List Section) (tail : List UInt8) : Prop where
  areas : ∀ s ∈ ss, s.area < 17
  behind : tail ≠ [] → 4 ≤ tail.length ∧ u32At (memory tail) 0 ∉ [1, 2, 3]
  small : (questData ss tail).length < 2 ^ 32

/-- The sections with their positions. -/
def places : Nat → List Section → List (Nat × Section)
  | _, [] => []
  | pos, s :: ss => (pos, s) :: places (pos + s.bytes.length) ss

/-- The last section of a kind for an area. -/
def lastSection (kind : SectionKind) (area : Nat) (ss : List Section) : Option Section :=
  ss.findRev? fun s => s.kind = kind ∧ s.area = area

/-- The last section of a kind for an area, with its position. -/
def lastPlace (kind : SectionKind) (area : Nat) (ps : List (Nat × Section)) :
    Option (Nat × Section) :=
  ps.findRev? fun p => p.2.kind = kind ∧ p.2.area = area

/-- The number of objects in all sections. -/
def objectsIn (ss : List Section) : Nat :=
  (ss.map fun s => if s.kind = .objects then s.body.length / objectSize else 0).sum

/-! ## Bytes at a position -/

section Bytes

variable {dat : Nat → UInt8} {pos : Nat} {as bs : List UInt8}

/-- The bytes stand at the position. -/
def Stands (dat : Nat → UInt8) (pos : Nat) (bs : List UInt8) : Prop :=
  bytesAt dat pos bs.length = bs

theorem bytesAt_add (dat : Nat → UInt8) (pos m n : Nat) :
    bytesAt dat pos (m + n) = bytesAt dat pos m ++ bytesAt dat (pos + m) n := by
  rw [bytesAt, bytesAt, bytesAt, List.range_add, List.map_append, List.map_map]
  refine congrArg _ (List.map_congr_left fun i _ => ?_)
  rw [Function.comp, Nat.add_assoc]

@[simp] theorem length_bytesAt (n : Nat) : (bytesAt dat pos n).length = n := by
  rw [bytesAt, List.length_map, List.length_range]

theorem stands_append : Stands dat pos (as ++ bs) ↔
    Stands dat pos as ∧ Stands dat (pos + as.length) bs := by
  rw [Stands, Stands, Stands, List.length_append, bytesAt_add]
  constructor
  · intro h
    exact List.append_inj h (length_bytesAt _)
  · rintro ⟨has, hbs⟩
    rw [has, hbs]

theorem stands_memory (bs : List UInt8) : Stands (memory bs) 0 bs := by
  refine List.ext_getElem (length_bytesAt _) fun i hi hi' => ?_
  simp only [bytesAt, List.getElem_map, List.getElem_range, Nat.zero_add, memory]
  rw [List.getD_eq_getElem?_getD, List.getElem?_eq_getElem hi', Option.getD_some]

/-- A number that stands at a position. -/
theorem u32At_of_stands {n : Nat} (h : Stands dat pos (le32 n)) (hn : n < 2 ^ 32) :
    u32At dat pos = n := by
  have hread : bytesAt dat pos 4 = le32 n := h
  rw [u32At, hread, ofLe32_le32_of_lt hn]

/-- A word at the start of bytes that stand at a position. -/
theorem u32At_of_stands_take (h : Stands dat pos bs) (hfour : 4 ≤ bs.length) :
    u32At dat pos = ofLe32 (bs.take 4) := by
  have hsplit := (stands_append.mp ((List.take_append_drop 4 bs).symm ▸ h)).1
  rw [Stands, List.length_take, Nat.min_eq_left hfour] at hsplit
  rw [u32At, hsplit]

theorem length_bytes (s : Section) :
    s.bytes.length = hdrSize + s.body.length + s.pad.length := by
  simp only [Section.bytes, List.length_append, length_le32]
  rfl

/-- The header of a section. -/
theorem hdrAt_of_stands {s : Section} (h : Stands dat pos s.bytes) (harea : s.area < 17)
    (hlength : s.bytes.length < 2 ^ 32) :
    hdrAt dat pos = ⟨s.kind.objType, s.bytes.length, s.area, s.body.length⟩ ∧
      Stands dat (pos + hdrSize) s.body := by
  rw [length_bytes] at hlength
  simp only [Section.bytes, stands_append, List.length_append, length_le32] at h
  obtain ⟨⟨⟨⟨⟨htype, hnext⟩, harea'⟩, hsize⟩, hbody⟩, -⟩ := h
  have htypeLt : s.kind.objType < 2 ^ 32 := by
    cases s.kind <;> decide
  refine ⟨?_, hbody⟩
  rw [hdrAt, u32At_of_stands htype htypeLt, u32At_of_stands hnext hlength,
    u32At_of_stands harea' (by omega), u32At_of_stands hsize (by omega), length_bytes]

end Bytes

/-! ## What is made of a chain -/

section Parse

variable {dat : Nat → UInt8} {pos len : Nat} {ss : List Section}

/-- What a round of the loop does with the section that it comes to. -/
def visit (s : Sections) (p : Nat × Section) : Sections :=
  match p.2.kind with
  | .objects =>
      { s with
        objects := update s.objects p.2.area (some p.1)
        objCount := (s.objCount + p.2.body.length / objectSize) % 2 ^ 32 }
  | .enemies => { s with enemies := update s.enemies p.2.area (some p.1) }
  | .other => s

/-- The loop comes to each of the sections, and ends behind them. -/
theorem parseLoop_eq {rounds : Nat} (s : Sections) (harea : ∀ x ∈ ss, x.area < 17)
    (hstands : Stands dat pos (ss.flatMap Section.bytes))
    (hlen : pos + (ss.flatMap Section.bytes).length ≤ len) (hlt : len < 2 ^ 32)
    (hend : pos + (ss.flatMap Section.bytes).length = len ∨
      u32At dat (pos + (ss.flatMap Section.bytes).length) ∉ [1, 2, 3])
    (hrounds : ss.length < rounds) :
    parseLoop dat len rounds pos s = some ((places pos ss).foldl visit s) := by
  induction ss generalizing pos s rounds with
  | nil =>
      obtain ⟨rounds, rfl⟩ := Nat.exists_eq_add_one_of_ne_zero (Nat.ne_of_gt hrounds)
      rw [parseLoop]
      simp only [List.flatMap_nil, List.length_nil, Nat.add_zero, List.mem_cons,
        List.not_mem_nil, or_false, not_or] at hend
      by_cases hpos : pos < len
      · have htype : (hdrAt dat pos).objType = u32At dat pos := rfl
        rw [← htype] at hend
        obtain ⟨hone, htwo, hthree⟩ := hend.resolve_left (Nat.ne_of_lt hpos)
        rw [if_pos hpos]
        dsimp only
        rw [if_neg hone, if_neg htwo, if_neg hthree]
        rfl
      · rw [if_neg hpos]
        rfl
  | cons x ss ih =>
      obtain ⟨rounds, rfl⟩ := Nat.exists_eq_add_one_of_ne_zero
        (Nat.ne_of_gt (Nat.lt_of_le_of_lt (Nat.zero_le _) hrounds))
      rw [List.flatMap_cons, stands_append] at hstands
      rw [List.flatMap_cons, List.length_append, ← Nat.add_assoc] at hlen hend
      have hx := length_bytes x
      have hsize : hdrSize = 16 := rfl
      obtain ⟨hhdr, -⟩ := hdrAt_of_stands hstands.1 (harea x List.mem_cons_self) (by omega)
      have hrest := fun s' => @ih (pos + x.bytes.length) rounds s'
        (fun y hy => harea y (List.mem_cons_of_mem x hy)) hstands.2 hlen hend
        (Nat.lt_of_succ_lt_succ hrounds)
      rw [parseLoop, if_pos (by omega)]
      simp only [hhdr]
      rw [Nat.mod_eq_of_lt (show pos + x.bytes.length < 2 ^ 32 by omega), places, List.foldl_cons,
        visit]
      cases hkind : x.kind with
      | objects => exact hrest _
      | enemies => exact hrest _
      | other => exact hrest _

/-- What the loop has made of a chain when it ends. -/
theorem parseQuestObjects_eq {tail : List UInt8} (h : WellFormed ss tail) :
    parseQuestObjects (memory (questData ss tail)) (questData ss tail).length =
      some ((places 0 ss).foldl visit {}) := by
  have hstands := stands_append.mp (stands_memory (questData ss tail))
  have hcount : ss.length ≤ (ss.flatMap Section.bytes).length := by
    clear h hstands
    induction ss with
    | nil => exact Nat.le_refl _
    | cons x ss ih =>
        have hx := length_bytes x
        have hsize : hdrSize = 16 := rfl
        rw [List.flatMap_cons, List.length_append, List.length_cons]
        omega
  have hlength : (questData ss tail).length = (ss.flatMap Section.bytes).length + tail.length :=
    List.length_append
  refine parseLoop_eq {} h.areas hstands.1 (by omega) h.small ?_ (by omega)
  by_cases htail : tail = []
  · left
    rw [hlength, htail, List.length_nil, Nat.zero_add, Nat.add_zero]
  · right
    obtain ⟨hfour, htype⟩ := h.behind htail
    rw [u32At_of_stands_take hstands.2 hfour, ← u32At_of_stands_take (stands_memory tail) hfour]
    exact htype

section Found

variable {kind : SectionKind} {area a : Nat} {p : Nat × Section} {ps : List (Nat × Section)}

theorem lastPlace_cons : lastPlace kind area (p :: ps) =
    match lastPlace kind area ps with
    | some q => some q
    | none => if p.2.kind = kind ∧ p.2.area = area then some p else none := by
  rw [lastPlace, lastPlace, List.findRev?]
  cases List.findRev? (fun p : Nat × Section => p.2.kind = kind ∧ p.2.area = area) ps with
  | some q => rfl
  | none => simp only [decide_eq_true_eq]

/-- Of the sections for an area the loop keeps the position of the last one. -/
theorem objects_foldl_visit (ps : List (Nat × Section)) (s : Sections) :
    (ps.foldl visit s).objects a =
      match lastPlace .objects a ps with
      | some p => some p.1
      | none => s.objects a := by
  induction ps generalizing s with
  | nil => rfl
  | cons p ps ih =>
      rw [List.foldl_cons, ih, lastPlace_cons]
      cases lastPlace .objects a ps with
      | some q => rfl
      | none =>
          dsimp only
          rw [visit]
          cases hkind : p.2.kind with
          | objects =>
              by_cases harea : p.2.area = a
              · rw [if_pos ⟨rfl, harea⟩]
                subst harea
                exact Function.update_self ..
              · rw [if_neg fun h => harea h.2]
                exact Function.update_of_ne (Ne.symm harea) ..
          | enemies => rfl
          | other => rfl

theorem enemies_foldl_visit (ps : List (Nat × Section)) (s : Sections) :
    (ps.foldl visit s).enemies a =
      match lastPlace .enemies a ps with
      | some p => some p.1
      | none => s.enemies a := by
  induction ps generalizing s with
  | nil => rfl
  | cons p ps ih =>
      rw [List.foldl_cons, ih, lastPlace_cons]
      cases lastPlace .enemies a ps with
      | some q => rfl
      | none =>
          dsimp only
          rw [visit]
          cases hkind : p.2.kind with
          | enemies =>
              by_cases harea : p.2.area = a
              · rw [if_pos ⟨rfl, harea⟩]
                subst harea
                exact Function.update_self ..
              · rw [if_neg fun h => harea h.2]
                exact Function.update_of_ne (Ne.symm harea) ..
          | objects => rfl
          | other => rfl

/-- The loop counts the objects of all sections. -/
theorem objCount_foldl_visit (ps : List (Nat × Section)) (s : Sections) :
    (ps.foldl visit s).objCount % 2 ^ 32 = (s.objCount + objectsIn (ps.map Prod.snd)) % 2 ^ 32 := by
  induction ps generalizing s with
  | nil => rfl
  | cons p ps ih =>
      rw [List.foldl_cons, ih, visit, List.map_cons, objectsIn, objectsIn, List.map_cons,
        List.sum_cons]
      cases hkind : p.2.kind with
      | objects =>
          rw [if_pos rfl]
          dsimp only
          omega
      | enemies => rw [if_neg (by decide), Nat.zero_add]
      | other => rw [if_neg (by decide), Nat.zero_add]

theorem map_places (pos : Nat) (ss : List Section) : (places pos ss).map Prod.snd = ss := by
  induction ss generalizing pos with
  | nil => rfl
  | cons s ss ih => rw [places, List.map_cons, ih]

/-- The last section, without its position. -/
theorem lastPlace_map (ps : List (Nat × Section)) :
    (lastPlace kind area ps).map Prod.snd = lastSection kind area (ps.map Prod.snd) := by
  induction ps with
  | nil => rfl
  | cons p ps ih =>
      rw [lastPlace_cons, List.map_cons, lastSection, List.findRev?]
      rw [lastSection] at ih
      rw [← ih]
      cases lastPlace kind area ps with
      | some q => rfl
      | none =>
          simp only [Option.map_none, decide_eq_true_eq]
          split <;> rfl

theorem of_lastSection {ss : List Section} {s : Section} (h : lastSection kind area ss = some s) :
    s ∈ ss ∧ s.kind = kind ∧ s.area = area := by
  rw [lastSection, List.findRev?_eq_find?_reverse] at h
  have hmem := List.mem_of_find?_eq_some h
  have hthis := List.find?_some h
  exact ⟨List.mem_reverse.mp hmem, of_decide_eq_true hthis⟩

/-- A section that is found stands at its position. -/
theorem of_lastPlace {dat : Nat → UInt8} {pos : Nat} {ss : List Section}
    (hstands : Stands dat pos (ss.flatMap Section.bytes))
    (h : lastPlace kind area (places pos ss) = some p) : Stands dat p.1 p.2.bytes := by
  rw [lastPlace, List.findRev?_eq_find?_reverse] at h
  have hmem := List.mem_reverse.mp (List.mem_of_find?_eq_some h)
  clear h
  induction ss generalizing pos with
  | nil => cases hmem
  | cons s ss ih =>
      rw [List.flatMap_cons, stands_append] at hstands
      rcases List.mem_cons.mp hmem with rfl | hmem
      · exact hstands.1
      · exact ih hstands.2 hmem

end Found

end Parse

end Sylverant.Ship.QuestMap
