/-
# The list of ships and their menu codes

Each ship keeps a list of the ships that the shipgate tells of, in the order of their
numbers, and beside it a sorted array of the menu codes of these ships. The two are kept by
different code when a ship comes up, changes or goes down, and when the connection to the
shipgate is made again.

Left out are the log file and memory that there is none of.
-/

import Mathlib.Data.List.Nodup
import Mathlib.Order.Nat
import Sylverant.Library.Run
import Sylverant.Library.SortedArray

namespace Sylverant.Ship

/-- `miniship_t`, without its links in the list. -/
structure MiniShip where
  name : List UInt8
  shipId : Nat
  shipAddr : Nat
  shipAddr6 : List UInt8
  shipPort : Nat
  clients : Nat
  games : Nat
  menuCode : Nat
  flags : Nat
  shipNumber : Nat
deriving DecidableEq, Repr

/-- What the shipgate says of a ship, with its numbers in the order of the host. -/
structure ShipStatusPkt where
  name : List UInt8
  shipId : Nat
  flags : Nat
  shipAddr4 : Nat
  shipAddr6 : List UInt8
  shipPort : Nat
  status : Nat
  clients : Nat
  games : Nat
  menuCode : Nat
  shipNumber : Nat
deriving DecidableEq, Repr

/-- The ships that are known, and the menu codes: there are as many of them as `mccount` says. -/
structure ShipList where
  ships : List MiniShip
  menuCodes : List Nat
deriving DecidableEq, Repr

namespace ShipList

/-! ## Menu codes -/

def menuCodeSort (codes : List Nat) : List Nat := SortedArray.insertionSort codes

def menuCodeExists (codes : List Nat) (target : Nat) : Bool :=
  let i := SortedArray.lowerBound codes target
  decide (i < codes.length) && codes.getD i default == target

/-- `realloc` of the menu codes, when there is memory. When no bytes are asked for, the array is
freed, and the answer of the C library is no array (`frees`, as in the GNU C library), or else
an empty one. What an array has in a new place is not read. -/
def realloc (frees : Bool) (codes : List Nat) (count : Nat) : Option (List Nat) :=
  if count = 0 ∧ frees then none
  else some (codes.take count ++ List.replicate (count - codes.length) 0)

/-- Put a new code in. -/
def addCode (frees : Bool) (codes : List Nat) (code : Nat) : Option (List Nat) :=
  (realloc frees codes (codes.length + 1)).map fun longer =>
    menuCodeSort (longer.set codes.length code)

/-- Take a code out: there is no answer when `realloc` has freed the array, for then the last
place of that array is written to. -/
def removeCode (frees : Bool) (codes : List Nat) (code : Nat) : Option (List Nat) :=
  realloc frees (SortedArray.shiftFrom code (codes.length - 1) 0 codes) (codes.length - 1)

/-! ## Ships -/

/-- The list up to the first ship that has no smaller number stays before the new one. -/
def insertShip (i : MiniShip) : List MiniShip → List MiniShip
  | [] => [i]
  | j :: rest => if j.shipNumber < i.shipNumber then j :: insertShip i rest else i :: j :: rest

/-- What is copied from the packet. -/
def miniShip (p : ShipStatusPkt) : MiniShip where
  name := p.name
  shipId := p.shipId
  shipAddr := p.shipAddr4
  shipAddr6 := p.shipAddr6
  shipPort := p.shipPort
  clients := p.clients
  games := p.games
  menuCode := p.menuCode
  flags := p.flags
  shipNumber := p.shipNumber

/-- The ships without the first one that has the id. -/
def without (ships : List MiniShip) (sid : Nat) : List MiniShip :=
  ships.eraseP fun i => i.shipId == sid

/-- There is no next state when an array that was freed is used. -/
def handleSstatus (frees : Bool) (s : ShipList) (p : ShipStatusPkt) : Option ShipList :=
  let found := s.ships.find? fun i => i.shipId == p.shipId
  let others := without s.ships p.shipId
  if p.status = 0 then
    match found with
    | none => some s
    | some i =>
        if others.any fun j => i.menuCode == j.menuCode then
          some { s with ships := others }
        else
          (removeCode frees s.menuCodes i.menuCode).map fun codes =>
            { ships := others, menuCodes := codes }
  else if menuCodeExists s.menuCodes p.menuCode then
    some { s with ships := insertShip (miniShip p) others }
  else
    match addCode frees s.menuCodes p.menuCode with
    | none => some { s with ships := others }
    | some codes => some { ships := insertShip (miniShip p) others, menuCodes := codes }

/-- A new connection to the shipgate forgets the ships, but not the menu codes. -/
def reconnect (s : ShipList) : ShipList := { s with ships := [] }

inductive Event
  | status (p : ShipStatusPkt)
  | reconnect

/-- No ships are known. -/
def empty : ShipList where
  ships := []
  menuCodes := []

/-- What an event does. After the use of a freed array nothing is known any more. -/
def next (frees : Bool) (s : Option ShipList) : Event → Option ShipList
  | .status p => s.bind fun s => handleSstatus frees s p
  | .reconnect => s.map reconnect

/-! ## What should hold -/

/-- The ships have ids of their own and are in the order of their numbers, and the menu codes
are in order and are those of the ships. -/
structure Consistent (s : ShipList) : Prop where
  ids : (s.ships.map MiniShip.shipId).Nodup
  numbers : s.ships.Pairwise fun i j => i.shipNumber ≤ j.shipNumber
  increasing : s.menuCodes.Pairwise (· < ·)
  codes : ∀ code, code ∈ s.menuCodes ↔ ∃ i ∈ s.ships, i.menuCode = code

/-- An event leaves a consistent list, and uses no array that was freed. -/
def Holds (frees : Bool) (s : Option ShipList) (e : Event) : Prop :=
  ∃ s', next frees s e = some s' ∧ s'.Consistent

/-- Nothing goes wrong: a new connection is made while no ships are known; the only ship that
is known does not go down; and a ship only comes up with another menu code if some other ship
has its old one. -/
def Fine (frees : Bool) (s : ShipList) : Event → Prop
  | .reconnect => s.ships = []
  | .status p =>
      if p.status = 0 then frees = true → ∀ i, s.ships = [i] → i.shipId ≠ p.shipId
      else
        ∀ i ∈ s.ships, i.shipId = p.shipId →
          i.menuCode = p.menuCode ∨ ∃ j ∈ s.ships, j.shipId ≠ p.shipId ∧ j.menuCode = i.menuCode

/-- Nothing was freed before, and nothing goes wrong. -/
def FineAt (frees : Bool) (s : Option ShipList) (e : Event) : Prop :=
  ∃ list, s = some list ∧ list.Fine frees e

/-! ## The menu codes -/

theorem menuCodeExists_iff {codes : List Nat} (h : codes.Pairwise (· < ·)) (target : Nat) :
    menuCodeExists codes target = true ↔ target ∈ codes := by
  rw [menuCodeExists, Bool.and_eq_true, decide_eq_true_iff, beq_iff_eq]
  exact SortedArray.lowerBound_spec h target

theorem realloc_longer (frees : Bool) (codes : List Nat) :
    realloc frees codes (codes.length + 1) = some (codes ++ [0]) := by
  rw [realloc, if_neg fun h => Nat.succ_ne_zero _ h.1, List.take_of_length_le (Nat.le_succ _),
    Nat.add_sub_cancel_left]
  rfl

/-- A code that is new is put in its place. -/
theorem addCode_spec (frees : Bool) {codes : List Nat} {code : Nat}
    (h : codes.Pairwise (· < ·)) (hnew : code ∉ codes) :
    ∃ codes', addCode frees codes code = some codes' ∧ codes'.Pairwise (· < ·) ∧
      ∀ c, c ∈ codes' ↔ c ∈ codes ∨ c = code := by
  have hset : (codes ++ [0]).set codes.length code = codes ++ [code] := by
    rw [List.set_append_right _ _ (Nat.le_refl _), Nat.sub_self]
    rfl
  have hadd : addCode frees codes code = some (menuCodeSort (codes ++ [code])) := by
    rw [addCode, realloc_longer, Option.map_some, hset]
  obtain ⟨hperm, hsorted⟩ := SortedArray.insertionSort_spec (codes ++ [code])
  have hdistinct : (codes ++ [code]).Nodup := by
    refine List.nodup_append.mpr ⟨h.imp Nat.ne_of_lt, List.pairwise_singleton _ code, ?_⟩
    intro a ha b hb heq
    rw [List.mem_singleton.mp hb] at heq
    exact hnew (heq ▸ ha)
  refine ⟨_, hadd, ?_, ?_⟩
  · have hboth := hsorted.and (hperm.nodup_iff.mpr hdistinct)
    exact hboth.imp fun ⟨hle, hne⟩ => Nat.lt_of_le_of_ne hle hne
  · intro c
    rw [menuCodeSort, hperm.mem_iff, List.mem_append, List.mem_singleton]

/-- A code that is there is taken out, if it is not the only one or no array is freed then. -/
theorem removeCode_spec {frees : Bool} {codes : List Nat} {code : Nat}
    (h : codes.Pairwise (· < ·)) (hmem : code ∈ codes)
    (hmore : frees = true → codes.length ≠ 1) :
    ∃ codes', removeCode frees codes code = some codes' ∧ codes'.Pairwise (· < ·) ∧
      ∀ c, c ∈ codes' ↔ c ∈ codes ∧ c ≠ code := by
  obtain ⟨l, r, rfl⟩ := List.append_of_mem hmem
  have hlength : (SortedArray.shiftFrom code ((l ++ code :: r).length - 1) 0
      (l ++ code :: r)).length = (l ++ code :: r).length := SortedArray.length_shiftFrom ..
  have hshift := SortedArray.shiftOut_append h
  have hremove : removeCode frees (l ++ code :: r) code = some (l ++ r) := by
    rw [removeCode, realloc, if_neg, hlength, Nat.sub_eq_zero_of_le (Nat.sub_le _ 1),
      List.replicate_zero, List.append_nil]
    · exact congrArg some hshift
    · rintro ⟨hzero, hfrees⟩
      have hlong : (l ++ code :: r).length = l.length + r.length + 1 := by
        rw [List.length_append, List.length_cons, Nat.add_assoc]
      rw [hlong] at hzero hmore
      exact hmore hfrees (congrArg (· + 1) hzero)
  obtain ⟨hl, hr, hcross⟩ := List.pairwise_append.mp h
  have hrest : (l ++ r).Pairwise (· < ·) :=
    List.pairwise_append.mpr ⟨hl, hr.of_cons, fun a ha b hb =>
      hcross a ha b (List.mem_cons_of_mem code hb)⟩
  refine ⟨l ++ r, hremove, hrest, ?_⟩
  intro c
  rw [List.mem_append, List.mem_append, List.mem_cons]
  constructor
  · rintro (hc | hc)
    · exact ⟨.inl hc, Nat.ne_of_lt (hcross c hc code List.mem_cons_self)⟩
    · exact ⟨.inr (.inr hc), Nat.ne_of_gt (List.rel_of_pairwise_cons hr hc)⟩
  · rintro ⟨hc | rfl | hc, hne⟩
    · exact .inl hc
    · exact absurd rfl hne
    · exact .inr hc

/-- When the only code is taken out, the array is freed, and used. -/
theorem removeCode_freed {codes : List Nat} (code : Nat) (h : codes.length = 1) :
    removeCode true codes code = none := by
  rw [removeCode, realloc, h, if_pos ⟨rfl, rfl⟩]

/-! ## The list of ships -/

theorem insertShip_perm (i : MiniShip) (ships : List MiniShip) :
    (insertShip i ships).Perm (i :: ships) := by
  induction ships with
  | nil => exact List.Perm.refl [i]
  | cons j rest ih =>
      rw [insertShip]
      split
      · exact (ih.cons j).trans (List.Perm.swap i j rest)
      · exact List.Perm.refl _

theorem insertShip_numbers (i : MiniShip) {ships : List MiniShip}
    (h : ships.Pairwise fun i j => i.shipNumber ≤ j.shipNumber) :
    (insertShip i ships).Pairwise fun i j => i.shipNumber ≤ j.shipNumber := by
  induction ships with
  | nil => exact List.pairwise_singleton _ i
  | cons j rest ih =>
      obtain ⟨hfirst, hrest⟩ := List.pairwise_cons.mp h
      rw [insertShip]
      split
      · rename_i hlt
        refine List.pairwise_cons.mpr ⟨?_, ih hrest⟩
        intro k hk
        rcases List.mem_cons.mp ((insertShip_perm i rest).mem_iff.mp hk) with rfl | hk
        · exact Nat.le_of_lt hlt
        · exact hfirst k hk
      · rename_i hle
        refine List.pairwise_cons.mpr ⟨?_, h⟩
        intro k hk
        rcases List.mem_cons.mp hk with rfl | hk
        · exact Nat.not_lt.mp hle
        · exact Nat.le_trans (Nat.not_lt.mp hle) (hfirst k hk)

/-- With ids that are all different, a ship goes out by its id. -/
theorem mem_without {ships : List MiniShip} (h : (ships.map MiniShip.shipId).Nodup) (sid : Nat)
    (j : MiniShip) : j ∈ without ships sid ↔ j ∈ ships ∧ j.shipId ≠ sid := by
  induction ships with
  | nil => exact ⟨fun hj => (nomatch hj), fun hj => (nomatch hj.1)⟩
  | cons i rest ih =>
      obtain ⟨hfirst, hrest⟩ := List.nodup_cons.mp h
      by_cases hi : i.shipId = sid
      · have herase : without (i :: rest) sid = rest :=
          List.eraseP_cons_of_pos (beq_iff_eq.mpr hi)
        rw [herase, List.mem_cons]
        constructor
        · intro hj
          refine ⟨.inr hj, fun heq => hfirst ?_⟩
          rw [hi, ← heq]
          exact List.mem_map_of_mem hj
        · rintro ⟨rfl | hj, hne⟩
          · exact absurd hi hne
          · exact hj
      · have herase : without (i :: rest) sid = i :: without rest sid :=
          List.eraseP_cons_of_neg fun hbeq => hi (beq_iff_eq.mp hbeq)
        rw [herase, List.mem_cons, List.mem_cons, ih hrest]
        constructor
        · rintro (rfl | ⟨hj, hne⟩)
          · exact ⟨.inl rfl, hi⟩
          · exact ⟨.inr hj, hne⟩
        · rintro ⟨rfl | hj, hne⟩
          · exact .inl rfl
          · exact .inr ⟨hj, hne⟩

namespace Consistent

variable {s : ShipList}

theorem empty : Consistent .empty where
  ids := List.nodup_nil
  numbers := List.Pairwise.nil
  increasing := List.Pairwise.nil
  codes := fun _ => ⟨fun h => (nomatch h), fun ⟨_, h, _⟩ => (nomatch h)⟩

/-- Without one of the ships the rest is as before, if the codes are those of the rest. -/
theorem without (h : s.Consistent) (sid : Nat) {codes : List Nat}
    (hincreasing : codes.Pairwise (· < ·))
    (hcodes : ∀ c, c ∈ codes ↔ ∃ j ∈ ShipList.without s.ships sid, j.menuCode = c) :
    Consistent { ships := ShipList.without s.ships sid, menuCodes := codes } where
  ids := h.ids.sublist (List.Sublist.map _ (List.eraseP_sublist))
  numbers := h.numbers.sublist List.eraseP_sublist
  increasing := hincreasing
  codes := hcodes

theorem code_mem (h : s.Consistent) {i : MiniShip} (hi : i ∈ s.ships) :
    i.menuCode ∈ s.menuCodes :=
  (h.codes i.menuCode).mpr ⟨i, hi, rfl⟩

/-- When another ship has the code of a ship that goes, the codes stay those of the rest. -/
theorem codes_of_used (h : s.Consistent) {i j : MiniShip} (hi : i ∈ s.ships)
    (hj : j ∈ ShipList.without s.ships i.shipId) (hcode : i.menuCode = j.menuCode) (c : Nat) :
    c ∈ s.menuCodes ↔ ∃ j ∈ ShipList.without s.ships i.shipId, j.menuCode = c := by
  rw [h.codes]
  constructor
  · rintro ⟨k, hk, rfl⟩
    by_cases hsame : k.shipId = i.shipId
    · rw [List.inj_on_of_nodup_map h.ids hk hi hsame]
      exact ⟨j, hj, hcode.symm⟩
    · exact ⟨k, (mem_without h.ids i.shipId k).mpr ⟨hk, hsame⟩, rfl⟩
  · rintro ⟨k, hk, hkcode⟩
    exact ⟨k, ((mem_without h.ids i.shipId k).mp hk).1, hkcode⟩

/-- When no other ship has the code of a ship that goes, all codes but this are the rest's. -/
theorem codes_of_unused (h : s.Consistent) {i : MiniShip} (hi : i ∈ s.ships)
    (hunused : ∀ j ∈ ShipList.without s.ships i.shipId, i.menuCode ≠ j.menuCode) (c : Nat) :
    c ∈ s.menuCodes ∧ c ≠ i.menuCode ↔
      ∃ j ∈ ShipList.without s.ships i.shipId, j.menuCode = c := by
  rw [h.codes]
  constructor
  · rintro ⟨⟨k, hk, rfl⟩, hne⟩
    refine ⟨k, (mem_without h.ids i.shipId k).mpr ⟨hk, fun hsame => hne ?_⟩, rfl⟩
    rw [List.inj_on_of_nodup_map h.ids hk hi hsame]
  · rintro ⟨k, hk, rfl⟩
    exact ⟨⟨k, ((mem_without h.ids i.shipId k).mp hk).1, rfl⟩, (hunused k hk).symm⟩

/-- There is one code only when there is one ship, if no other ship has the code of this one. -/
theorem length_codes_eq_one_iff (h : s.Consistent) {i : MiniShip} (hi : i ∈ s.ships)
    (hunused : ∀ j ∈ ShipList.without s.ships i.shipId, i.menuCode ≠ j.menuCode) :
    s.menuCodes.length = 1 ↔ s.ships = [i] := by
  constructor
  · intro hlength
    obtain ⟨c, hc⟩ := List.length_eq_one_iff.mp hlength
    have hsame (j : MiniShip) (hj : j ∈ s.ships) : j.menuCode = c := by
      have hmem := h.code_mem hj
      rw [hc] at hmem
      exact List.mem_singleton.mp hmem
    have honly (j : MiniShip) (hj : j ∈ s.ships) : j.shipId = i.shipId := by
      by_contra hne
      have hother := (mem_without h.ids i.shipId j).mpr ⟨hj, hne⟩
      exact hunused j hother ((hsame i hi).trans (hsame j hj).symm)
    have hids := h.ids
    cases hships : s.ships with
    | nil =>
        rw [hships] at hi
        cases hi
    | cons a rest =>
        cases rest with
        | nil =>
            rw [hships] at hi
            rw [List.mem_singleton.mp hi]
        | cons b rest =>
            rw [hships] at hids honly
            have ha := honly a List.mem_cons_self
            have hb := honly b (List.mem_cons_of_mem a List.mem_cons_self)
            refine absurd ?_ (List.nodup_cons.mp hids).1
            rw [ha, ← hb]
            exact List.mem_cons_self
  · intro hships
    have hall (c : Nat) (hc : c ∈ s.menuCodes) : c = i.menuCode := by
      obtain ⟨j, hj, rfl⟩ := (h.codes c).mp hc
      rw [hships] at hj
      rw [List.mem_singleton.mp hj]
    have hmem := h.code_mem hi
    have hincreasing := h.increasing
    cases hcodes : s.menuCodes with
    | nil =>
        rw [hcodes] at hmem
        cases hmem
    | cons a rest =>
        cases rest with
        | nil => rfl
        | cons b rest =>
            rw [hcodes] at hall hincreasing
            have ha := hall a List.mem_cons_self
            have hb := hall b (List.mem_cons_of_mem a List.mem_cons_self)
            have hlt := List.rel_of_pairwise_cons hincreasing (List.mem_cons_self (l := rest))
            exact absurd (ha.trans hb.symm) (Nat.ne_of_lt hlt)

end Consistent

/-! ## What an event does -/

/-- A ship that goes down leaves a consistent list, if it is not the last one. -/
theorem down_iff {frees : Bool} {s : ShipList} (h : s.Consistent) {p : ShipStatusPkt}
    (hstatus : p.status = 0) :
    (∃ s', handleSstatus frees s p = some s' ∧ s'.Consistent) ↔ s.Fine frees (.status p) := by
  rw [Fine, if_pos hstatus]
  unfold handleSstatus
  dsimp only
  rw [if_pos hstatus]
  cases hfound : s.ships.find? fun i => i.shipId == p.shipId with
  | none =>
      have hall := List.find?_eq_none.mp hfound
      refine ⟨fun _ _ i hships hid => ?_, fun _ => ⟨s, rfl, h⟩⟩
      refine hall i ?_ (beq_iff_eq.mpr hid)
      rw [hships]
      exact List.mem_cons_self
  | some i =>
      have hi := List.mem_of_find?_eq_some hfound
      have hbeq : (i.shipId == p.shipId) = true :=
        @List.find?_some _ (fun i : MiniShip => i.shipId == p.shipId) i s.ships hfound
      have hid : i.shipId = p.shipId := beq_iff_eq.mp hbeq
      rw [← hid]
      dsimp only
      split
      · -- another ship has the code
        rename_i hused
        obtain ⟨j, hj, hcode⟩ := List.any_eq_true.mp hused
        have hcodes := h.codes_of_used hi hj (beq_iff_eq.mp hcode)
        refine ⟨fun _ _ i' hships hid' => ?_, fun _ => ?_⟩
        · have hother := (mem_without h.ids i.shipId j).mp hj
          rw [hships] at hother
          refine hother.2 ?_
          rw [List.mem_singleton.mp hother.1]
          exact hid'
        · exact ⟨_, rfl, h.without i.shipId h.increasing hcodes⟩
      · rename_i hnot
        have hunused (j : MiniShip) (hj : j ∈ without s.ships i.shipId) :
            i.menuCode ≠ j.menuCode := by
          intro hcode
          exact hnot (List.any_eq_true.mpr ⟨j, hj, beq_iff_eq.mpr hcode⟩)
        have hone := h.length_codes_eq_one_iff hi hunused
        by_cases hlast : frees = true ∧ s.menuCodes.length = 1
        · obtain ⟨rfl, hlength⟩ := hlast
          rw [removeCode_freed i.menuCode hlength]
          refine ⟨fun hnext => ?_, fun hfine => ?_⟩
          · obtain ⟨s', hnone, -⟩ := hnext
            cases hnone
          · exact absurd rfl (hfine rfl i (hone.mp hlength))
        · obtain ⟨codes, hremove, hincreasing, hmem⟩ :=
            removeCode_spec h.increasing (h.code_mem hi) fun hfrees hlength =>
              hlast ⟨hfrees, hlength⟩
          refine ⟨fun _ hfrees i' hships _ => ?_, fun _ => ?_⟩
          · have hsame : i = i' := by
              rw [hships] at hi
              exact List.mem_singleton.mp hi
            exact hlast ⟨hfrees, hone.mpr (hsame ▸ hships)⟩
          · rw [hremove]
            refine ⟨_, rfl, h.without i.shipId hincreasing fun c => ?_⟩
            exact (hmem c).trans (h.codes_of_unused hi hunused c)

/-- When a ship comes up it is in the list, in its place, and its code is in the array. -/
theorem up_spec (frees : Bool) {s : ShipList} (h : s.Consistent) {p : ShipStatusPkt}
    (hstatus : p.status ≠ 0) :
    ∃ codes, handleSstatus frees s p =
        some { ships := insertShip (miniShip p) (without s.ships p.shipId), menuCodes := codes } ∧
      codes.Pairwise (· < ·) ∧ ∀ c, c ∈ codes ↔ c ∈ s.menuCodes ∨ c = p.menuCode := by
  unfold handleSstatus
  dsimp only
  rw [if_neg hstatus]
  split
  · rename_i hexists
    have hmem := (menuCodeExists_iff h.increasing p.menuCode).mp hexists
    refine ⟨s.menuCodes, rfl, h.increasing, fun c => ⟨.inl, ?_⟩⟩
    rintro (hc | rfl)
    · exact hc
    · exact hmem
  · rename_i hnew
    obtain ⟨codes, hadd, hincreasing, hmem⟩ := addCode_spec frees h.increasing fun hmem =>
      hnew ((menuCodeExists_iff h.increasing p.menuCode).mpr hmem)
    rw [hadd]
    exact ⟨codes, rfl, hincreasing, hmem⟩

/-- A ship that comes up leaves a consistent list, if no code is left of what it was before. -/
theorem up_iff {frees : Bool} {s : ShipList} (h : s.Consistent) {p : ShipStatusPkt}
    (hstatus : p.status ≠ 0) :
    (∃ s', handleSstatus frees s p = some s' ∧ s'.Consistent) ↔ s.Fine frees (.status p) := by
  obtain ⟨codes, hnext, hincreasing, hcodes⟩ := up_spec frees h hstatus
  have hperm := insertShip_perm (miniShip p) (without s.ships p.shipId)
  have hrest (j : MiniShip) : j ∈ without s.ships p.shipId ↔ j ∈ s.ships ∧ j.shipId ≠ p.shipId :=
    mem_without h.ids p.shipId j
  rw [Fine, if_neg hstatus, hnext]
  constructor
  · rintro ⟨s', hsome, hs'⟩ i hi hid
    obtain rfl := Option.some.inj hsome
    have hmem := (hcodes i.menuCode).mpr (.inl (h.code_mem hi))
    obtain ⟨k, hk, hcode⟩ := (hs'.codes i.menuCode).mp hmem
    rcases List.mem_cons.mp (hperm.mem_iff.mp hk) with rfl | hk
    · exact .inl hcode.symm
    · have hother := (hrest k).mp hk
      exact .inr ⟨k, hother.1, hother.2, hcode⟩
  · intro hfine
    refine ⟨_, rfl, ?_, ?_, hincreasing, ?_⟩
    · refine ((hperm.map MiniShip.shipId).nodup_iff).mpr (List.nodup_cons.mpr ⟨?_, ?_⟩)
      · intro hmem
        obtain ⟨j, hj, hid⟩ := List.mem_map.mp hmem
        exact ((hrest j).mp hj).2 hid
      · exact h.ids.sublist (List.Sublist.map _ (List.eraseP_sublist))
    · exact insertShip_numbers _ (h.numbers.sublist List.eraseP_sublist)
    · intro c
      rw [hcodes]
      constructor
      · rintro (hc | rfl)
        · obtain ⟨i, hi, rfl⟩ := (h.codes c).mp hc
          by_cases hid : i.shipId = p.shipId
          · rcases hfine i hi hid with hsame | ⟨j, hj, hne, hcode⟩
            · exact ⟨miniShip p, hperm.mem_iff.mpr List.mem_cons_self, hsame.symm⟩
            · have hj' := List.mem_cons_of_mem (miniShip p) ((hrest j).mpr ⟨hj, hne⟩)
              exact ⟨j, hperm.mem_iff.mpr hj', hcode⟩
          · have hi' := List.mem_cons_of_mem (miniShip p) ((hrest i).mpr ⟨hi, hid⟩)
            exact ⟨i, hperm.mem_iff.mpr hi', rfl⟩
        · exact ⟨miniShip p, hperm.mem_iff.mpr List.mem_cons_self, rfl⟩
      · rintro ⟨k, hk, rfl⟩
        rcases List.mem_cons.mp (hperm.mem_iff.mp hk) with rfl | hk
        · exact .inr rfl
        · exact .inl (h.code_mem ((hrest k).mp hk).1)

/-- A new connection leaves a consistent list, if no ship is known. -/
theorem reconnect_iff {frees : Bool} {s : ShipList} (h : s.Consistent) :
    s.reconnect.Consistent ↔ s.Fine frees .reconnect := by
  constructor
  · intro hnext
    refine List.eq_nil_iff_forall_not_mem.mpr fun i hi => ?_
    obtain ⟨j, hj, -⟩ := (hnext.codes i.menuCode).mp (h.code_mem hi)
    cases hj
  · intro hnil
    have hsame : s.reconnect = s := by
      rw [reconnect, ← show s.ships = [] from hnil]
    rw [hsame]
    exact h

/-- In a consistent list, an event does what it should just if nothing goes wrong. -/
theorem holds_iff {frees : Bool} {s : ShipList} (h : s.Consistent) (e : Event) :
    Holds frees (some s) e ↔ FineAt frees (some s) e := by
  have hfine : FineAt frees (some s) e ↔ s.Fine frees e :=
    ⟨fun ⟨_, hs, hfine⟩ => Option.some.inj hs ▸ hfine, fun hfine => ⟨s, rfl, hfine⟩⟩
  rw [hfine]
  cases e with
  | status p =>
      by_cases hstatus : p.status = 0
      · exact down_iff h hstatus
      · exact up_iff h hstatus
  | reconnect =>
      refine Iff.trans ?_ (@reconnect_iff frees s h)
      exact ⟨fun ⟨_, hs, hnext⟩ => Option.some.inj hs ▸ hnext, fun hnext => ⟨_, rfl, hnext⟩⟩

/-- In a run from no ships on, every event leaves a consistent list and uses no freed array,
if and only if nothing goes wrong at any of them. -/
theorem consistent_runs_iff (frees : Bool) (events : List Event) :
    Run.Guarded (next frees) (Holds frees) (some empty) events ↔
      Run.Guarded (next frees) (FineAt frees) (some empty) events := by
  have hiff (s : Option ShipList) (e : Event) (h : ∃ list, s = some list ∧ list.Consistent) :
      Holds frees s e ↔ FineAt frees s e := by
    obtain ⟨list, rfl, hlist⟩ := h
    exact holds_iff hlist e
  exact Run.Guarded.congr hiff (fun _ _ _ hholds => hholds) ⟨empty, rfl, Consistent.empty⟩

/-- What the shipgate says of the first ship: whether it is up, and its menu code. -/
def firstShip (status code : Nat) : ShipStatusPkt where
  name := [65]
  shipId := 1
  flags := 0
  shipAddr4 := 0
  shipAddr6 := []
  shipPort := 9000
  status := status
  clients := 0
  games := 0
  menuCode := code
  shipNumber := 1

/-- After a ship came up, a new connection leaves its code; so does another code of that ship;
and when that ship goes down, the array of the codes is freed and used. -/
theorem not_consistent_runs :
    ¬Run.Guarded (next true) (Holds true) (some empty)
        [.status (firstShip 1 5), .reconnect] ∧
      ¬Run.Guarded (next true) (Holds true) (some empty)
        [.status (firstShip 1 5), .status (firstShip 1 6)] ∧
      ¬Run.Guarded (next true) (Holds true) (some empty)
        [.status (firstShip 1 5), .status (firstShip 0 5)] := by
  refine ⟨?_, ?_, ?_⟩
  · rintro ⟨-, ⟨s, hnext, hs⟩, -⟩
    have hships : s = { ships := [], menuCodes := [5] } :=
      Option.some.inj (hnext.symm.trans (by decide))
    obtain ⟨i, hi, -⟩ := (hs.codes 5).mp (by rw [hships]; decide)
    rw [hships] at hi
    cases hi
  · rintro ⟨-, ⟨s, hnext, hs⟩, -⟩
    have hships : s = { ships := [miniShip (firstShip 1 6)], menuCodes := [5, 6] } :=
      Option.some.inj (hnext.symm.trans (by decide))
    obtain ⟨i, hi, hcode⟩ := (hs.codes 5).mp (by rw [hships]; decide)
    rw [hships] at hi
    rw [List.mem_singleton.mp hi] at hcode
    revert hcode
    decide
  · rintro ⟨-, ⟨s, hnext, -⟩, -⟩
    have hfreed : next true (next true (some empty) (.status (firstShip 1 5)))
        (.status (firstShip 0 5)) = none := by decide
    rw [hfreed] at hnext
    cases hnext

end ShipList

end Sylverant.Ship
