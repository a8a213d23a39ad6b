/-
# Reading the configuration of the patch server

What each part of the reader does to memory, and when it succeeds. A document says how often
memory is asked for while it is read, or that it cannot be read. Whatever the reader fails at, it
frees each block once or leaves it to the configuration, with one exception: where a patch cannot
be read, the directory of its element is freed and kept.
-/

import Sylverant.Patch.ConfigFile

namespace Sylverant.Patch.Config

open Ownership (Heap)
open Ownership.Heap
open CString (strtoul)

/-! ## What a document needs -/

/-- Go through the nodes of a list with some flags: the flags in the end and how often memory is
asked for, if all nodes can be read. -/
def scan {φ : Type} (next : φ → Node → Option (φ × Nat)) : φ → List Node → Option (φ × Nat)
  | f, [] => some (f, 0)
  | f, n :: ns =>
      match next f n with
      | none => none
      | some (f', k) => (scan next f' ns).map fun r => (r.1, k + r.2)

/-- A text that is missing, or a number. -/
def isNumber (base : Nat) (text : Option String) : Bool :=
  text.all fun s => (strtoul s base).isSome

/-- A node of an entry. -/
def entryNext (f : EntryFlags) : Node → Option (EntryFlags × Nat)
  | .other => some (f, 0)
  | .element name _ text _ =>
      if name = "file" then
        if f.haveFile then none else some ({ f with haveFile := true }, 0)
      else if name = "checksum" then
        if f.haveChecksum then none
        else if isNumber 16 text then some ({ f with haveChecksum := true }, 0)
        else none
      else if name = "size" then
        if f.haveSize then none
        else if isNumber 0 text then some ({ f with haveSize := true }, 0)
        else none
      else some (f, 0)

/-- The nodes of an entry. -/
def entryNeeds (children : List Node) : Option Nat :=
  match scan entryNext {} children with
  | none => none
  | some (f, k) => if f.haveFile && f.haveChecksum && f.haveSize then some k else none

/-- The checksum of a conditional entry, and its nodes. -/
def entryElement (props : List (String × String)) (children : List Node) (cksum : Bool) :
    Option Nat :=
  if cksum && !(props.lookup "checksum").any fun s => (strtoul s 16).isSome then none
  else entryNeeds children

/-- A node of a patch. -/
def patchNext (f : PatchFlags) : Node → Option (PatchFlags × Nat)
  | .other => some (f, 0)
  | .element name props text children =>
      if name = "clientfile" then
        if f.haveCfile then none else some ({ f with haveCfile := true }, 0)
      else if name = "file" then
        if f.hasIf then none
        else if f.haveFile then none
        else some ({ f with noIf := true, haveFile := true }, 0)
      else if name = "checksum" then
        if f.hasIf then none
        else if f.haveChecksum then none
        else if isNumber 16 text then some ({ f with noIf := true, haveChecksum := true }, 0)
        else none
      else if name = "size" then
        if f.hasIf then none
        else if f.haveSize then none
        else if isNumber 0 text then some ({ f with noIf := true, haveSize := true }, 0)
        else none
      else if name = "if" then
        if f.hasElse || f.noIf then none
        else
          (entryElement props children true).map fun k =>
            ({ f with hasIf := true, haveFile := true, haveChecksum := true, haveSize := true },
              if f.haveSize then 1 + k else k)
      else if name = "else" then
        if f.hasElse || !f.hasIf then none
        else
          (entryElement props children false).map fun k => ({ f with hasElse := true }, 1 + k)
      else some (f, 0)

/-- The nodes of a patch. -/
def patchChildrenNeeds (children : List Node) : Option Nat :=
  match scan patchNext {} children with
  | none => none
  | some (f, k) =>
      if f.haveCfile && f.haveFile && f.haveChecksum && f.haveSize then some k else none

/-- A patch. -/
def patchNeeds (props : List (String × String)) (children : List Node) : Option Nat :=
  match props.lookup "enabled" with
  | none => none
  | some enabled =>
      if enabled = "false" then some 0
      else
        (patchChildrenNeeds children).map fun k => 2 + k

/-- A node among the patches of a version. -/
def patchesNext (_ : Unit) : Node → Option (Unit × Nat)
  | .other => some ((), 0)
  | .element name props _ children =>
      if name = "patch" then (patchNeeds props children).map fun k => ((), k) else some ((), 0)

/-- The element names a version and a directory. -/
def namesPatches (props : List (String × String)) : Bool :=
  (props.lookup "version").any (fun s => (verOf s).isSome) && (props.lookup "dir").isSome

/-- The patches of a version. -/
def patchesNeeds (props : List (String × String)) (children : List Node) : Option Nat :=
  if namesPatches props then (scan patchesNext () children).map fun r => r.2 else none

/-- The address of the server. -/
def serverNeeds (lib : Lib) (props : List (String × String)) : Option Nat :=
  if (props.lookup "addr").any fun s => (lib.inetPton s).isSome then some 0 else none

/-- The versions that may connect. -/
def versionsNeeds (props : List (String × String)) : Option Nat :=
  if (props.lookup "pc").isSome && (props.lookup "bb").isSome then some 0 else none

/-- A welcome message. -/
def welcomeNeeds (props : List (String × String)) (text : Option String) : Option Nat :=
  if (props.lookup "version").any (fun s => (verOf s).isSome) && text.isSome then some 2 else none

/-- A node of the configuration. -/
def configNext (lib : Lib) (_ : Unit) : Node → Option (Unit × Nat)
  | .other => some ((), 0)
  | .element name props text children =>
      if name = "server" then (serverNeeds lib props).map fun k => ((), k)
      else if name = "versions" then (versionsNeeds props).map fun k => ((), k)
      else if name = "welcome" then (welcomeNeeds props text).map fun k => ((), k)
      else if name = "patches" then (patchesNeeds props children).map fun k => ((), k)
      else some ((), 0)

/-! ## What a part of the reader does -/

/-- A part of the reader succeeds if the document is as it should be and there is memory, and only
then. -/
structure Reads {σ φ : Type} (flags : σ → φ) (next : Option (φ × Nat)) (h : Heap)
    (r : σ × Int × Heap) : Prop where
  room : r.2.2.room = h.room
  done : r.2.1 = 0 → ∃ k, next = some (flags r.1, k) ∧ h.Has k ∧ r.2.2.asked = h.asked + k
  failed : r.2.1 ≠ 0 → ∀ f k, next = some (f, k) → ¬ h.Has k

/-- A part of the reader neither loses hold of blocks that others own nor frees them. -/
def Keeps {σ : Type} (blocks : σ → List Nat) (x : σ) (h : Heap) (r : σ × Int × Heap) : Prop :=
  ∀ rest, h.Owns (blocks x ++ rest) → r.2.2.Owns (blocks r.1 ++ rest)

section Loops

variable {σ φ : Type} {flags : σ → φ} {blocks : σ → List Nat}
  {next : φ → Node → Option (φ × Nat)} {handle : Node → σ → Heap → σ × Int × Heap}

/-- A part that does not ask for memory. -/
theorem Reads.of_done {next : Option (φ × Nat)} {h : Heap} {x : σ} {h' : Heap}
    (ok : next = some (flags x, 0)) (room : h'.room = h.room) (asked : h'.asked = h.asked) :
    Reads flags next h (x, 0, h') where
  room := room
  done _ := ⟨0, ok, has_zero h, asked⟩
  failed no := absurd rfl no

/-- A part that fails at what the document says. -/
theorem Reads.of_failed {next : Option (φ × Nat)} {h : Heap} {x : σ} {rv : Int} {h' : Heap}
    (bad : next = none) (room : h'.room = h.room) (rejects : rv ≠ 0) :
    Reads flags next h (x, rv, h') where
  room := room
  done ok := absurd ok rejects
  failed _ f k some := by
    rw [bad] at some
    exact nomatch some

/-- What does not ask for memory before makes no difference. -/
theorem Reads.of_heap {next : Option (φ × Nat)} {h h₁ : Heap} {r : σ × Int × Heap}
    (reads : Reads flags next h₁ r) (room : h₁.room = h.room) (asked : h₁.asked = h.asked) :
    Reads flags next h r := by
  have same (k : Nat) : h₁.Has k ↔ h.Has k := by
    rw [Heap.Has, Heap.Has, room, asked]
  refine ⟨reads.room.trans room, fun ok => ?_, fun no f k found => ?_⟩
  · obtain ⟨k, found, has, asked'⟩ := reads.done ok
    exact ⟨k, found, (same k).mp has, asked'.trans (congrArg (· + k) asked)⟩
  · exact fun has => reads.failed no f k found ((same k).mpr has)

/-- A request for memory that is met. -/
theorem Reads.of_malloc {next : Option (φ × Nat)} {h : Heap} {r : σ × Int × Heap}
    (got : h.room h.asked)
    (reads : Reads flags next { h with next := h.next + 1, asked := h.asked + 1 } r) :
    Reads flags (next.map fun p => (p.1, 1 + p.2)) h r := by
  have more (k : Nat) : h.Has (1 + k) ↔
      Heap.Has { h with next := h.next + 1, asked := h.asked + 1 } k :=
    (@has_add_iff h { h with next := h.next + 1, asked := h.asked + 1 } 1 k rfl rfl).trans
      (and_iff_right (has_one_iff.mpr got))
  refine ⟨reads.room, fun ok => ?_, fun no f k found => ?_⟩
  · obtain ⟨k, found, has, asked⟩ := reads.done ok
    refine ⟨1 + k, ?_, (more k).mpr has, asked.trans (Nat.add_assoc _ _ _)⟩
    rw [found]
    rfl
  · obtain ⟨p, here, total⟩ := Option.map_eq_some_iff.mp found
    obtain ⟨rfl, rfl⟩ := Prod.mk.inj total
    exact fun has => reads.failed no p.1 p.2 here ((more p.2).mp has)

/-- A request for memory that is not met. -/
theorem Reads.of_full {next : Option (φ × Nat)} {h h' : Heap} {x : σ} {rv : Int}
    (full : ¬ h.room h.asked) (needed : ∀ f k, next = some (f, k) → 1 ≤ k)
    (room : h'.room = h.room) (rejects : rv ≠ 0) : Reads flags next h (x, rv, h') where
  room := room
  done ok := absurd ok rejects
  failed _ f k found has := full (has 0 (needed f k found))

/-- Nothing is needed less often than once more. -/
theorem needed_succ (next : Option (φ × Nat)) (f : φ) (k : Nat)
    (found : next.map (fun p => (p.1, 1 + p.2)) = some (f, k)) : 1 ≤ k := by
  obtain ⟨p, -, total⟩ := Option.map_eq_some_iff.mp found
  obtain ⟨-, rfl⟩ := Prod.mk.inj total
  exact Nat.le_add_right 1 p.2

theorem each_reads (step : ∀ n x h, Reads flags (next (flags x) n) h (handle n x h))
    (ns : List Node) (x : σ) (h : Heap) :
    Reads flags (scan next (flags x) ns) h (each handle ns x h) := by
  induction ns generalizing x h with
  | nil => exact Reads.of_done rfl rfl rfl
  | cons n ns ih =>
      have first := step n x h
      rw [each, scan]
      by_cases failed : (handle n x h).2.1 ≠ 0
      · rw [if_pos failed]
        refine ⟨first.room, fun ok => absurd ok failed, fun _ f k found has => ?_⟩
        cases here : next (flags x) n with
        | none =>
            rw [here] at found
            exact nomatch found
        | some p =>
            rw [here] at found
            obtain ⟨r, -, total⟩ := Option.map_eq_some_iff.mp found
            obtain ⟨-, rfl⟩ := Prod.mk.inj total
            exact first.failed failed p.1 p.2 here fun i less =>
              has i (Nat.lt_add_right r.2 less)
      · rw [if_neg failed]
        obtain ⟨k, here, has, asked⟩ := first.done (not_not.mp failed)
        have others := ih (handle n x h).1 (handle n x h).2.2
        rw [here]
        dsimp only
        refine ⟨others.room.trans first.room, fun ok => ?_, fun no f m found => ?_⟩
        · obtain ⟨k', found, has', asked'⟩ := others.done ok
          refine ⟨k + k', ?_, ?_, ?_⟩
          · rw [found]
            rfl
          · exact (has_add_iff asked first.room).mpr ⟨has, has'⟩
          · rw [asked', asked, Nat.add_assoc]
        · obtain ⟨r, behind, total⟩ := Option.map_eq_some_iff.mp found
          obtain ⟨-, rfl⟩ := Prod.mk.inj total
          exact fun all => others.failed no r.1 r.2 behind ((has_add_iff asked first.room).mp all).2

theorem each_keeps (step : ∀ n x h, Keeps blocks x h (handle n x h)) (ns : List Node) (x : σ)
    (h : Heap) : Keeps blocks x h (each handle ns x h) := by
  induction ns generalizing x h with
  | nil => exact fun _ owns => owns
  | cons n ns ih =>
      rw [each]
      by_cases failed : (handle n x h).2.1 ≠ 0
      · rw [if_pos failed]
        exact step n x h
      · rw [if_neg failed]
        exact fun rest owns => ih _ _ rest (step n x h rest owns)

end Loops

/-! ## Strings -/

section Strings

variable {live : List Nat}

theorem newStr_room (text : Option String) (h : Heap) : (newStr text h).2.room = h.room := by
  cases text <;> rfl

theorem newStr_asked (text : Option String) (h : Heap) : (newStr text h).2.asked = h.asked := by
  cases text <;> rfl

theorem newStr_owns {h : Heap} (text : Option String) (owns : h.Owns live) :
    (newStr text h).2.Owns (strBlocks (newStr text h).1 ++ live) := by
  cases text with
  | none => exact owns
  | some text => exact owns.new

theorem xmlFree_owns {h : Heap} {s : Option Str} (owns : h.Owns (strBlocks s ++ live)) :
    (xmlFree s h).Owns live :=
  owns.freeAll

end Strings

/-! ## Entries -/

section Entries

theorem handleFile_reads (text : Option String) (f : FileEntry) (h : Heap) :
    (handleFile text f h).2.room = h.room ∧ (handleFile text f h).2.asked = h.asked := by
  cases text <;> exact ⟨rfl, rfl⟩

theorem handleFile_keeps {h : Heap} {rest : List Nat} (text : Option String) (f : FileEntry)
    (owns : h.Owns (f.blocks ++ rest)) :
    (handleFile text f h).2.Owns ((handleFile text f h).1.blocks ++ rest) := by
  cases text with
  | none => exact owns
  | some text =>
      refine owns.new.mono fun b => ?_
      simp only [handleFile, newStr, Heap.new, FileEntry.blocks, strBlocks, Option.toList_some,
        List.map_cons, List.map_nil, List.count_append, List.count_cons, List.count_nil]
      omega

variable {base : Nat} {set : UInt32 → FileEntry → FileEntry}

theorem handleNumber_spec (same : ∀ v f, (set v f).blocks = f.blocks) (text : Option String)
    (f : FileEntry) (h : Heap) :
    (handleNumber base set text f h).2.2.room = h.room ∧
    (handleNumber base set text f h).2.2.asked = h.asked ∧
    ((handleNumber base set text f h).2.1 = 0 ↔ isNumber base text) ∧
    Keeps FileEntry.blocks f h (handleNumber base set text f h) := by
  cases text with
  | none => exact ⟨rfl, rfl, iff_of_true rfl rfl, fun rest owns => owns⟩
  | some text =>
      have number : isNumber base (some text) = (strtoul text base).isSome := rfl
      rw [number, handleNumber, newStr]
      dsimp only
      cases strtoul text base with
      | none =>
          refine ⟨rfl, rfl, iff_of_false (show (-1 : Int) ≠ 0 by decide) (by decide), ?_⟩
          intro rest owns
          change (Heap.free _ _).Owns ((set tooBig f).blocks ++ rest)
          rw [same]
          exact owns.new.free
      | some v =>
          refine ⟨rfl, rfl, iff_of_true rfl rfl, ?_⟩
          intro rest owns
          change (Heap.free _ _).Owns ((set (UInt32.ofNat v) f).blocks ++ rest)
          rw [same]
          exact owns.new.free

/-- A number is read, and the rest depends on whether it is one. -/
theorem Reads.of_number {σ φ ι : Type} {flags : σ → φ} {r : ι × Int × Heap} {number : Bool}
    {f : φ} {h : Heap} {e : Int} {bad good : ι → σ} (room : r.2.2.room = h.room)
    (asked : r.2.2.asked = h.asked) (ok : r.2.1 = 0 ↔ number) (flag : ∀ x, flags (good x) = f)
    (rejects : e ≠ 0) :
    Reads flags (if number then some (f, 0) else none) h
      (orFail r e bad good) := by
  rw [orFail]
  by_cases is : number
  · rw [if_pos is, if_neg (not_not.mpr (ok.mpr is))]
    exact Reads.of_done (congrArg (fun f => some (f, 0)) (flag r.1).symm) room asked
  · rw [if_neg is, if_pos fun done => is (ok.mp done)]
    exact Reads.of_failed rfl room rejects

theorem entryChild_reads (n : Node) (st : EntryState) (h : Heap) :
    Reads EntryState.flags (entryNext st.flags n) h (entryChild n st h) := by
  cases n with
  | other => exact Reads.of_done rfl rfl rfl
  | element name props text children =>
      rw [entryChild, entryNext]
      by_cases file : name = "file"
      · rw [if_pos file, if_pos file]
        by_cases twice : st.flags.haveFile
        · rw [if_pos twice, if_pos twice]
          exact Reads.of_failed rfl rfl (by decide)
        · rw [if_neg twice, if_neg twice]
          obtain ⟨room, asked⟩ := handleFile_reads text st.ent h
          exact Reads.of_done rfl room asked
      rw [if_neg file, if_neg file]
      by_cases checksum : name = "checksum"
      · rw [if_pos checksum, if_pos checksum]
        by_cases twice : st.flags.haveChecksum
        · rw [if_pos twice, if_pos twice]
          exact Reads.of_failed rfl rfl (by decide)
        · obtain ⟨room, asked, ok, -⟩ := @handleNumber_spec 16 FileEntry.setChecksum
            (fun _ _ => rfl) text st.ent h
          rw [if_neg twice, if_neg twice]
          exact Reads.of_number room asked ok (fun _ => rfl) (by decide)
      rw [if_neg checksum, if_neg checksum]
      by_cases size : name = "size"
      · rw [if_pos size, if_pos size]
        by_cases twice : st.flags.haveSize
        · rw [if_pos twice, if_pos twice]
          exact Reads.of_failed rfl rfl (by decide)
        · obtain ⟨room, asked, ok, -⟩ := @handleNumber_spec 0 FileEntry.setSize
            (fun _ _ => rfl) text st.ent h
          rw [if_neg twice, if_neg twice]
          exact Reads.of_number room asked ok (fun _ => rfl) (by decide)
      rw [if_neg size, if_neg size]
      exact Reads.of_done rfl rfl rfl

/-- A handler without flags. -/
def noFlags {σ : Type} (_ : σ) : Unit := ()

/-- What a handler without flags needs. -/
def plain (needs : Option Nat) : Option (Unit × Nat) := needs.map fun k => ((), k)

theorem plain_eq_some_iff {needs : Option Nat} {f : Unit} {k : Nat} :
    plain needs = some (f, k) ↔ needs = some k := by
  cases needs with
  | none => exact iff_of_false (fun h => nomatch h) fun h => nomatch h
  | some m =>
      constructor
      · exact fun h => congrArg some (Prod.mk.inj (Option.some.inj h)).2
      · exact fun h => congrArg (fun k => some ((), k)) (Option.some.inj h)

/-- A handler of another one. -/
theorem Reads.of_handler {σ φ ι : Type} {flags : σ → φ} {needs : Option Nat}
    {r : ι × Int × Heap} {f : φ} {h : Heap} {e : Int} {bad good : ι → σ}
    (reads : Reads noFlags (plain needs) h r) (flag : ∀ x, flags (good x) = f)
    (rejects : e ≠ 0) :
    Reads flags (needs.map fun k => (f, k)) h (orFail r e bad good) := by
  rw [orFail]
  by_cases failed : r.2.1 ≠ 0
  · rw [if_pos failed]
    refine ⟨reads.room, fun ok => absurd ok rejects, fun _ f' k found => ?_⟩
    obtain ⟨k', here, same⟩ := Option.map_eq_some_iff.mp found
    obtain ⟨-, rfl⟩ := Prod.mk.inj same
    exact reads.failed failed () k' (plain_eq_some_iff.mpr here)
  · rw [if_neg failed]
    obtain ⟨k, here, has, asked⟩ := reads.done (not_not.mp failed)
    refine ⟨reads.room, fun _ => ⟨k, ?_, has, asked⟩, fun no => absurd rfl no⟩
    rw [plain_eq_some_iff.mp here, Option.map_some, flag]

/-- A handler of another one, with the blocks of others beside it. -/
theorem Keeps.of_handler {σ ι : Type} {blocks : σ → List Nat} {blocks' : ι → List Nat} {x : σ}
    {y : ι} {h : Heap} {r : ι × Int × Heap} {e : Int} {bad good : ι → σ} {front back : List Nat}
    (keeps : Keeps blocks' y h r) (old : blocks x = front ++ (blocks' y ++ back))
    (left : ∀ y, blocks (bad y) = front ++ (blocks' y ++ back))
    (right : ∀ y, blocks (good y) = front ++ (blocks' y ++ back)) :
    Keeps blocks x h (orFail r e bad good) := by
  intro rest owns
  have before : h.Owns (blocks' y ++ (front ++ (back ++ rest))) := owns.mono fun b => by
    simp only [old, List.count_append]
    omega
  have after := keeps _ before
  rw [orFail]
  by_cases failed : r.2.1 ≠ 0
  · rw [if_pos failed]
    refine after.mono fun b => ?_
    simp only [left, List.count_append]
    omega
  · rw [if_neg failed]
    refine after.mono fun b => ?_
    simp only [right, List.count_append]
    omega

/-- The blocks of the entry that is read. -/
def EntryState.blocks (st : EntryState) : List Nat := st.ent.blocks

theorem entryChild_keeps (n : Node) (st : EntryState) (h : Heap) :
    Keeps EntryState.blocks st h (entryChild n st h) := by
  have alone (f : FileEntry) : f.blocks = [] ++ (f.blocks ++ []) := (List.append_nil _).symm
  cases n with
  | other => exact fun rest owns => owns
  | element name props text children =>
      rw [entryChild]
      by_cases file : name = "file"
      · rw [if_pos file]
        by_cases twice : st.flags.haveFile
        · rw [if_pos twice]
          exact fun rest owns => owns
        · rw [if_neg twice]
          exact fun rest owns => handleFile_keeps text st.ent owns
      rw [if_neg file]
      by_cases checksum : name = "checksum"
      · rw [if_pos checksum]
        by_cases twice : st.flags.haveChecksum
        · rw [if_pos twice]
          exact fun rest owns => owns
        · rw [if_neg twice]
          exact Keeps.of_handler (@handleNumber_spec 16 FileEntry.setChecksum
            (fun _ _ => rfl) text st.ent h).2.2.2 (alone st.ent) alone alone
      rw [if_neg checksum]
      by_cases size : name = "size"
      · rw [if_pos size]
        by_cases twice : st.flags.haveSize
        · rw [if_pos twice]
          exact fun rest owns => owns
        · rw [if_neg twice]
          exact Keeps.of_handler (@handleNumber_spec 0 FileEntry.setSize
            (fun _ _ => rfl) text st.ent h).2.2.2 (alone st.ent) alone alone
      rw [if_neg size]
      exact fun rest owns => owns

theorem entryChildren_reads (children : List Node) (ent : FileEntry) (h : Heap) :
    Reads noFlags (plain (entryNeeds children)) h (entryChildren children ent h) := by
  have loop := each_reads entryChild_reads children ⟨ent, {}⟩ h
  rw [entryChildren, entryNeeds]
  generalize each entryChild children ⟨ent, {}⟩ h = r at *
  obtain ⟨st, rv, h'⟩ := r
  dsimp only at loop ⊢
  obtain ⟨room, done, failed⟩ := loop
  dsimp only at room done failed
  by_cases no : rv ≠ 0
  · rw [if_pos no]
    refine ⟨room, fun ok => absurd ok no, fun _ f k found => ?_⟩
    rw [plain_eq_some_iff] at found
    split at found
    · exact nomatch found
    · rename_i f' k' scanned
      split at found
      · obtain rfl := Option.some.inj found
        exact failed no f' k' scanned
      · exact nomatch found
  · rw [if_neg no]
    obtain ⟨k, scanned, has, asked⟩ := done (not_not.mp no)
    rw [scanned]
    dsimp only
    by_cases all : st.flags.haveFile && st.flags.haveChecksum && st.flags.haveSize
    · rw [if_pos all, ← Bool.not_and, ← Bool.not_and, all, if_neg (by decide)]
      exact ⟨room, fun _ => ⟨k, rfl, has, asked⟩, fun no => absurd rfl no⟩
    · rw [if_neg all, ← Bool.not_and, ← Bool.not_and, eq_false_of_ne_true all,
        if_pos (by decide)]
      exact Reads.of_failed rfl room (by decide)

theorem entryChildren_keeps (children : List Node) (ent : FileEntry) (h : Heap) :
    Keeps FileEntry.blocks ent h (entryChildren children ent h) := by
  intro rest owns
  have kept := each_keeps entryChild_keeps children ⟨ent, {}⟩ h rest owns
  rw [entryChildren]
  generalize each entryChild children ⟨ent, {}⟩ h = r at *
  obtain ⟨st, rv, h'⟩ := r
  dsimp only at kept ⊢
  by_cases no : rv ≠ 0
  · rw [if_pos no]
    exact kept
  · rw [if_neg no]
    by_cases missing : !st.flags.haveFile || !st.flags.haveChecksum || !st.flags.haveSize
    · rw [if_pos missing]
      exact kept
    · rw [if_neg missing]
      exact kept

theorem handleEntry_reads (props : List (String × String)) (children : List Node) (cksum : Bool)
    (ent : FileEntry) (h : Heap) :
    Reads noFlags (plain (entryElement props children cksum)) h
      (handleEntry props children cksum ent h) := by
  rw [handleEntry, entryElement]
  cases cksum with
  | false => exact entryChildren_reads children ent h
  | true =>
      rw [if_pos rfl, xmlGetProp, Bool.true_and]
      cases props.lookup "checksum" with
      | none => exact Reads.of_failed rfl rfl (by decide)
      | some text =>
          rw [Option.any_some]
          dsimp only [newStr]
          cases strtoul text 16 with
          | none => exact Reads.of_failed rfl rfl (by decide)
          | some v =>
              exact (entryChildren_reads children { ent with clientChecksum := UInt32.ofNat v }
                (h.new.2.free h.new.1)).of_heap rfl rfl

theorem handleEntry_keeps (props : List (String × String)) (children : List Node) (cksum : Bool)
    (ent : FileEntry) (h : Heap) :
    Keeps FileEntry.blocks ent h (handleEntry props children cksum ent h) := by
  rw [handleEntry]
  cases cksum with
  | false => exact entryChildren_keeps children ent h
  | true =>
      rw [if_pos rfl, xmlGetProp]
      cases props.lookup "checksum" with
      | none => exact fun rest owns => owns
      | some text =>
          dsimp only [newStr]
          intro rest owns
          have back : (h.new.2.free h.new.1).Owns (ent.blocks ++ rest) := owns.new.free
          cases strtoul text 16 with
          | none => exact back
          | some v =>
              exact entryChildren_keeps children { ent with clientChecksum := UInt32.ofNat v } _
                rest back

end Entries

/-! ## Patches -/

section Patches

/-- The blocks of the file that is read. -/
def PatchState.blocks (st : PatchState) : List Nat := st.file.blocks

/-- The blocks of the file around those of the entry that is read. -/
theorem PatchState.blocks_eq (st : PatchState) :
    st.blocks = st.front.flatMap FileEntry.blocks ++
      (st.ent.blocks ++ (strBlocks st.filename ++ [st.addr])) := by
  rw [PatchState.blocks, PatchFile.blocks, PatchState.file, List.flatMap_append,
    List.flatMap_singleton, List.append_assoc]

variable {props : List (String × String)} {children : List Node} {cksum : Bool} {fail full : Int}
  {flags : PatchFlags}

theorem readEntry_reads (st : PatchState) (h : Heap) (rejects : fail ≠ 0) :
    Reads PatchState.flags ((entryElement props children cksum).map fun k => (flags, k)) h
      (readEntry props children cksum fail st flags h) :=
  Reads.of_handler (handleEntry_reads props children cksum st.ent h) (fun _ => rfl) rejects

theorem readEntry_keeps (st : PatchState) (h : Heap) :
    Keeps PatchState.blocks st h (readEntry props children cksum fail st flags h) :=
  Keeps.of_handler (handleEntry_keeps props children cksum st.ent h) st.blocks_eq
    (fun _ => PatchState.blocks_eq _) fun _ => PatchState.blocks_eq _

theorem appendEntry_reads (st : PatchState) (h : Heap) (rejects : fail ≠ 0)
    (rejects' : full ≠ 0) :
    Reads PatchState.flags ((entryElement props children cksum).map fun k => (flags, 1 + k)) h
      (appendEntry props children cksum full fail st flags h) := by
  have needs : ((entryElement props children cksum).map fun k => (flags, 1 + k)) =
      ((entryElement props children cksum).map fun k => (flags, k)).map
        fun p => (p.1, 1 + p.2) := by
    rw [Option.map_map]
    rfl
  rw [needs, appendEntry]
  by_cases got : h.room h.asked
  · rw [malloc_some got]
    exact Reads.of_malloc got (readEntry_reads _ _ rejects)
  · rw [malloc_none got]
    exact Reads.of_full got (needed_succ _) rfl rejects'

theorem appendEntry_keeps (st : PatchState) (h : Heap) :
    Keeps PatchState.blocks st h (appendEntry props children cksum full fail st flags h) := by
  rw [appendEntry]
  intro rest owns
  by_cases got : h.room h.asked
  · rw [malloc_some got]
    refine readEntry_keeps _ _ rest (owns.new.mono fun b => ?_)
    simp only [PatchState.blocks_eq, List.flatMap_append, List.flatMap_singleton,
      FileEntry.blocks, strBlocks, Option.toList_none, List.map_nil, List.count_append,
      List.count_cons, List.count_nil]
    omega
  · rw [malloc_none got]
    exact owns

theorem patchChild_reads (n : Node) (st : PatchState) (h : Heap) :
    Reads PatchState.flags (patchNext st.flags n) h (patchChild n st h) := by
  cases n with
  | other => exact Reads.of_done rfl rfl rfl
  | element name props text children =>
      rw [patchChild, patchNext]
      by_cases clientfile : name = "clientfile"
      · rw [if_pos clientfile, if_pos clientfile]
        by_cases twice : st.flags.haveCfile
        · rw [if_pos twice, if_pos twice]
          exact Reads.of_failed rfl rfl (by decide)
        · rw [if_neg twice, if_neg twice]
          exact Reads.of_done rfl (newStr_room text h) (newStr_asked text h)
      rw [if_neg clientfile, if_neg clientfile]
      by_cases file : name = "file"
      · rw [if_pos file, if_pos file]
        by_cases conditional : st.flags.hasIf
        · rw [if_pos conditional, if_pos conditional]
          exact Reads.of_failed rfl rfl (by decide)
        rw [if_neg conditional, if_neg conditional]
        by_cases twice : st.flags.haveFile
        · rw [if_pos twice, if_pos twice]
          exact Reads.of_failed rfl rfl (by decide)
        · rw [if_neg twice, if_neg twice]
          obtain ⟨room, asked⟩ := handleFile_reads text st.ent h
          exact Reads.of_done rfl room asked
      rw [if_neg file, if_neg file]
      by_cases checksum : name = "checksum"
      · rw [if_pos checksum, if_pos checksum]
        by_cases conditional : st.flags.hasIf
        · rw [if_pos conditional, if_pos conditional]
          exact Reads.of_failed rfl rfl (by decide)
        rw [if_neg conditional, if_neg conditional]
        by_cases twice : st.flags.haveChecksum
        · rw [if_pos twice, if_pos twice]
          exact Reads.of_failed rfl rfl (by decide)
        · obtain ⟨room, asked, ok, -⟩ := @handleNumber_spec 16 FileEntry.setChecksum
            (fun _ _ => rfl) text st.ent h
          rw [if_neg twice, if_neg twice]
          exact Reads.of_number room asked ok (fun _ => rfl) (by decide)
      rw [if_neg checksum, if_neg checksum]
      by_cases size : name = "size"
      · rw [if_pos size, if_pos size]
        by_cases conditional : st.flags.hasIf
        · rw [if_pos conditional, if_pos conditional]
          exact Reads.of_failed rfl rfl (by decide)
        rw [if_neg conditional, if_neg conditional]
        by_cases twice : st.flags.haveSize
        · rw [if_pos twice, if_pos twice]
          exact Reads.of_failed rfl rfl (by decide)
        · obtain ⟨room, asked, ok, -⟩ := @handleNumber_spec 0 FileEntry.setSize
            (fun _ _ => rfl) text st.ent h
          rw [if_neg twice, if_neg twice]
          exact Reads.of_number room asked ok (fun _ => rfl) (by decide)
      rw [if_neg size, if_neg size]
      by_cases if_ : name = "if"
      · rw [if_pos if_, if_pos if_]
        by_cases refused : st.flags.hasElse || st.flags.noIf
        · rw [if_pos refused, if_pos refused]
          exact Reads.of_failed rfl rfl (by decide)
        rw [if_neg refused, if_neg refused]
        by_cases second : st.flags.haveSize
        · simp only [if_pos second]
          exact appendEntry_reads st h (by decide) (by decide)
        · simp only [if_neg second]
          exact readEntry_reads st h (by decide)
      rw [if_neg if_, if_neg if_]
      by_cases else_ : name = "else"
      · rw [if_pos else_, if_pos else_]
        by_cases refused : st.flags.hasElse || !st.flags.hasIf
        · rw [if_pos refused, if_pos refused]
          exact Reads.of_failed rfl rfl (by decide)
        · rw [if_neg refused, if_neg refused]
          exact appendEntry_reads st h (by decide) (by decide)
      rw [if_neg else_, if_neg else_]
      exact Reads.of_done rfl rfl rfl

theorem patchChild_keeps (n : Node) (st : PatchState) (h : Heap) :
    Keeps PatchState.blocks st h (patchChild n st h) := by
  cases n with
  | other => exact fun rest owns => owns
  | element name props text children =>
      rw [patchChild]
      by_cases clientfile : name = "clientfile"
      · rw [if_pos clientfile]
        by_cases twice : st.flags.haveCfile
        · rw [if_pos twice]
          exact fun rest owns => owns
        · rw [if_neg twice]
          intro rest owns
          refine (newStr_owns text owns).mono fun b => ?_
          cases text with
          | none => exact Nat.le_refl _
          | some text =>
              simp only [newStr, Option.some_or, PatchState.blocks_eq, strBlocks,
                Option.toList_some, List.map_cons, List.map_nil, List.count_append,
                List.count_cons, List.count_nil]
              omega
      rw [if_neg clientfile]
      by_cases file : name = "file"
      · rw [if_pos file]
        by_cases conditional : st.flags.hasIf
        · rw [if_pos conditional]
          exact fun rest owns => owns
        rw [if_neg conditional]
        by_cases twice : st.flags.haveFile
        · rw [if_pos twice]
          exact fun rest owns => owns
        · rw [if_neg twice]
          intro rest owns
          have before : h.Owns (st.ent.blocks ++ (st.front.flatMap FileEntry.blocks ++
              (strBlocks st.filename ++ [st.addr] ++ rest))) := owns.mono fun b => by
            simp only [PatchState.blocks_eq, List.count_append]
            omega
          refine (handleFile_keeps text st.ent before).mono fun b => ?_
          simp only [PatchState.blocks_eq, List.count_append]
          omega
      rw [if_neg file]
      by_cases checksum : name = "checksum"
      · rw [if_pos checksum]
        by_cases conditional : st.flags.hasIf
        · rw [if_pos conditional]
          exact fun rest owns => owns
        rw [if_neg conditional]
        by_cases twice : st.flags.haveChecksum
        · rw [if_pos twice]
          exact fun rest owns => owns
        · rw [if_neg twice]
          exact Keeps.of_handler (@handleNumber_spec 16 FileEntry.setChecksum
            (fun _ _ => rfl) text st.ent h).2.2.2 st.blocks_eq
            (fun _ => PatchState.blocks_eq _) fun _ => PatchState.blocks_eq _
      rw [if_neg checksum]
      by_cases size : name = "size"
      · rw [if_pos size]
        by_cases conditional : st.flags.hasIf
        · rw [if_pos conditional]
          exact fun rest owns => owns
        rw [if_neg conditional]
        by_cases twice : st.flags.haveSize
        · rw [if_pos twice]
          exact fun rest owns => owns
        · rw [if_neg twice]
          exact Keeps.of_handler (@handleNumber_spec 0 FileEntry.setSize
            (fun _ _ => rfl) text st.ent h).2.2.2 st.blocks_eq
            (fun _ => PatchState.blocks_eq _) fun _ => PatchState.blocks_eq _
      rw [if_neg size]
      by_cases if_ : name = "if"
      · rw [if_pos if_]
        by_cases refused : st.flags.hasElse || st.flags.noIf
        · rw [if_pos refused]
          exact fun rest owns => owns
        rw [if_neg refused]
        by_cases second : st.flags.haveSize
        · simp only [if_pos second]
          exact appendEntry_keeps st h
        · simp only [if_neg second]
          exact readEntry_keeps st h
      rw [if_neg if_]
      by_cases else_ : name = "else"
      · rw [if_pos else_]
        by_cases refused : st.flags.hasElse || !st.flags.hasIf
        · rw [if_pos refused]
          exact fun rest owns => owns
        · rw [if_neg refused]
          exact appendEntry_keeps st h
      rw [if_neg else_]
      exact fun rest owns => owns

/-- The blocks of the files in a queue. -/
def queueBlocks (q : List PatchFile) : List Nat := q.flatMap PatchFile.blocks

theorem patchChildren_reads (children : List Node) (file ent : Nat) (q : List PatchFile)
    (h : Heap) :
    Reads noFlags (plain (patchChildrenNeeds children)) h
      (patchChildren children file ent q h) := by
  have loop := each_reads patchChild_reads children { addr := file, ent := { addr := ent } } h
  rw [patchChildren, patchChildrenNeeds]
  generalize each patchChild children { addr := file, ent := { addr := ent } } h = r at *
  obtain ⟨st, rv, h'⟩ := r
  dsimp only at loop ⊢
  obtain ⟨room, done, failed⟩ := loop
  dsimp only at room done failed
  by_cases no : rv ≠ 0
  · rw [if_pos no]
    refine ⟨room, fun ok => absurd ok no, fun _ f k found => ?_⟩
    rw [plain_eq_some_iff] at found
    split at found
    · exact nomatch found
    · rename_i f' k' scanned
      split at found
      · obtain rfl := Option.some.inj found
        exact failed no f' k' scanned
      · exact nomatch found
  · rw [if_neg no]
    obtain ⟨k, scanned, has, asked⟩ := done (not_not.mp no)
    rw [scanned]
    dsimp only
    by_cases all : st.flags.haveCfile && st.flags.haveFile && st.flags.haveChecksum &&
        st.flags.haveSize
    · rw [if_pos all, ← Bool.not_and, ← Bool.not_and, ← Bool.not_and, all, if_neg (by decide)]
      exact ⟨room, fun _ => ⟨k, rfl, has, asked⟩, fun no => absurd rfl no⟩
    · rw [if_neg all, ← Bool.not_and, ← Bool.not_and, ← Bool.not_and, eq_false_of_ne_true all,
        if_pos (by decide)]
      exact Reads.of_failed rfl room (by decide)

theorem patchChildren_keeps {rest : List Nat} (children : List Node) (file ent : Nat)
    (q : List PatchFile) (h : Heap) (owns : h.Owns (file :: ent :: (queueBlocks q ++ rest))) :
    (patchChildren children file ent q h).2.2.Owns
      (queueBlocks (patchChildren children file ent q h).1 ++ rest) := by
  have before : h.Owns (PatchState.blocks { addr := file, ent := { addr := ent } } ++
      (queueBlocks q ++ rest)) := owns.mono fun b => by
    simp only [PatchState.blocks_eq, FileEntry.blocks, strBlocks, Option.toList_none,
      List.map_nil, List.flatMap_nil, List.count_append, List.count_cons, List.count_nil]
    omega
  have kept := each_keeps patchChild_keeps children _ h _ before
  rw [patchChildren]
  generalize each patchChild children { addr := file, ent := { addr := ent } } h = r at *
  obtain ⟨st, rv, h'⟩ := r
  dsimp only at kept ⊢
  by_cases no : rv ≠ 0
  · rw [if_pos no]
    exact kept.freeAll
  · rw [if_neg no]
    by_cases missing : !st.flags.haveCfile || !st.flags.haveFile || !st.flags.haveChecksum ||
        !st.flags.haveSize
    · rw [if_pos missing]
      exact kept.freeAll
    · rw [if_neg missing]
      refine kept.mono fun b => ?_
      simp only [queueBlocks, PatchState.blocks, List.flatMap_append, List.flatMap_singleton,
        List.count_append]
      omega

theorem handlePatch_reads (props : List (String × String)) (children : List Node)
    (q : List PatchFile) (h : Heap) :
    Reads noFlags (plain (patchNeeds props children)) h (handlePatch props children q h) := by
  rw [handlePatch, patchNeeds, xmlGetProp]
  cases props.lookup "enabled" with
  | none => exact Reads.of_failed rfl rfl (by decide)
  | some enabled =>
      dsimp only [newStr]
      by_cases disabled : enabled = "false"
      · rw [if_pos disabled, if_pos disabled]
        exact Reads.of_done rfl rfl rfl
      rw [if_neg disabled, if_neg disabled]
      have needs : plain ((patchChildrenNeeds children).map fun k => 2 + k) =
          ((plain (patchChildrenNeeds children)).map fun p => (p.1, 1 + p.2)).map
            fun p => (p.1, 1 + p.2) := by
        rw [plain, plain, Option.map_map, Option.map_map, Option.map_map]
        congr 1
        funext k
        simp only [Function.comp_apply, Prod.mk.injEq, true_and]
        omega
      rw [needs]
      refine Reads.of_heap ?_ (show h.new.2.room = h.room from rfl) rfl
      by_cases got : h.new.2.room h.new.2.asked
      · rw [malloc_some got]
        refine Reads.of_malloc got ?_
        dsimp only
        generalize { h.new.2 with next := h.new.2.next + 1, asked := h.new.2.asked + 1 } = h₁
        by_cases got' : h₁.room h₁.asked
        · rw [malloc_some got']
          refine Reads.of_malloc got' ?_
          have reads := patchChildren_reads children h.new.2.next h₁.next q
            { h₁ with next := h₁.next + 1, asked := h₁.asked + 1 }
          exact ⟨reads.room, reads.done, reads.failed⟩
        · rw [malloc_none got']
          exact Reads.of_full got' (needed_succ _) rfl (by decide)
      · rw [malloc_none got]
        exact Reads.of_full got (needed_succ _) rfl (by decide)

theorem handlePatch_keeps (props : List (String × String)) (children : List Node)
    (q : List PatchFile) (h : Heap) :
    Keeps queueBlocks q h (handlePatch props children q h) := by
  intro rest owns
  rw [handlePatch, xmlGetProp]
  cases props.lookup "enabled" with
  | none => exact owns
  | some enabled =>
      dsimp only [newStr]
      have owns₁ := owns.new
      by_cases disabled : enabled = "false"
      · rw [if_pos disabled]
        exact owns₁.free
      rw [if_neg disabled]
      change h.new.2.Owns (h.new.1 :: (queueBlocks q ++ rest)) at owns₁
      generalize h.new.1 = attr at *
      generalize h.new.2 = h₁ at *
      by_cases got : h₁.room h₁.asked
      · rw [malloc_some got]
        have owns₂ : Heap.Owns { h₁ with next := h₁.next + 1, asked := h₁.asked + 1 }
          (h₁.next :: attr :: (queueBlocks q ++ rest)) := owns₁.new
        dsimp only
        generalize h₁.next = file at *
        generalize { h₁ with next := file + 1, asked := h₁.asked + 1 } = h₂ at *
        by_cases got' : h₂.room h₂.asked
        · rw [malloc_some got']
          have owns₃ : Heap.Owns { h₂ with next := h₂.next + 1, asked := h₂.asked + 1 }
            (h₂.next :: file :: attr :: (queueBlocks q ++ rest)) := owns₂.new
          dsimp only
          have kept := @patchChildren_keeps (attr :: rest) children file h₂.next q
            { h₂ with next := h₂.next + 1, asked := h₂.asked + 1 } (owns₃.mono fun b => by
              simp only [List.count_cons, List.count_append]
              omega)
          refine kept.release fun b => ?_
          simp only [List.count_cons, List.count_append]
          omega
        · rw [malloc_none got']
          exact Owns.free (Owns.freeAll owns₂)
      · rw [malloc_none got]
        exact owns₁.free

theorem patchesChild_reads (n : Node) (q : List PatchFile) (h : Heap) :
    Reads noFlags (patchesNext (noFlags q) n) h (patchesChild n q h) := by
  cases n with
  | other => exact Reads.of_done rfl rfl rfl
  | element name props text children =>
      rw [patchesChild, patchesNext]
      by_cases patch : name = "patch"
      · rw [if_pos patch, if_pos patch]
        exact Reads.of_handler (handlePatch_reads props children q h) (fun _ => rfl) (by decide)
      · rw [if_neg patch, if_neg patch]
        exact Reads.of_done rfl rfl rfl

theorem patchesChild_keeps (n : Node) (q : List PatchFile) (h : Heap) :
    Keeps queueBlocks q h (patchesChild n q h) := by
  have alone (q : List PatchFile) : queueBlocks q = [] ++ (queueBlocks q ++ []) :=
    (List.append_nil _).symm
  cases n with
  | other => exact fun rest owns => owns
  | element name props text children =>
      rw [patchesChild]
      by_cases patch : name = "patch"
      · rw [if_pos patch]
        exact Keeps.of_handler (handlePatch_keeps props children q h) (alone q) alone alone
      · rw [if_neg patch]
        exact fun rest owns => owns

/-- The loop over the patches fails only with an error of its own. -/
theorem patchesChild_neg (n : Node) (q : List PatchFile) (h : Heap)
    (failed : (patchesChild n q h).2.1 ≠ 0) : (patchesChild n q h).2.1 < 0 := by
  cases n with
  | other => exact absurd rfl failed
  | element name props text children =>
      rw [patchesChild] at failed ⊢
      by_cases patch : name = "patch"
      · rw [if_pos patch, orFail] at failed ⊢
        by_cases no : (handlePatch props children q h).2.1 ≠ 0
        · rw [if_pos no]
          exact show (-3 : Int) < 0 by decide
        · rw [if_neg no] at failed
          exact absurd rfl failed
      · rw [if_neg patch] at failed
        exact absurd rfl failed

theorem each_neg {σ : Type} {handle : Node → σ → Heap → σ × Int × Heap}
    (step : ∀ n x h, (handle n x h).2.1 ≠ 0 → (handle n x h).2.1 < 0) (ns : List Node) (x : σ)
    (h : Heap) (failed : (each handle ns x h).2.1 ≠ 0) : (each handle ns x h).2.1 < 0 := by
  induction ns generalizing x h with
  | nil => exact absurd rfl failed
  | cons n ns ih =>
      rw [each] at failed ⊢
      by_cases no : (handle n x h).2.1 ≠ 0
      · rw [if_pos no]
        exact step n x h no
      · rw [if_neg no] at failed ⊢
        exact ih _ _ failed

/-- The directory for a version. -/
def PatchConfig.dirOf (cfg : PatchConfig) : Ver → Option Str
  | .pc => cfg.pcDir
  | .bb => cfg.bbDir

/-- The configuration has the directory, whatever its files are. -/
theorem dirOf_blocks (cfg : PatchConfig) (v : Ver) (q : List PatchFile) {a : Nat}
    (has : a ∈ strBlocks (cfg.dirOf v)) : a ∈ (cfg.setFiles v q).blocks := by
  cases v <;> simp only [PatchConfig.dirOf] at has <;>
    simp only [PatchConfig.setFiles, PatchConfig.blocks, List.mem_append, has, true_or, or_true]

theorem setDir_blocks (cfg : PatchConfig) (v : Ver) (dir : Str) (b : Nat) :
    (cfg.setDir v dir).blocks.count b ≤ (dir.addr :: cfg.blocks).count b := by
  cases v <;>
    simp only [PatchConfig.setDir, PatchConfig.blocks, strBlocks, Option.toList_some,
      List.map_cons, List.map_nil, List.count_append, List.count_cons, List.count_nil] <;>
    omega

/-- The blocks of the configuration but for the files of a version. -/
def PatchConfig.otherBlocks (cfg : PatchConfig) (v : Ver) : List Nat :=
  (cfg.setFiles v []).blocks

theorem setFiles_blocks (cfg : PatchConfig) (v : Ver) (q : List PatchFile) (b : Nat) :
    (cfg.setFiles v q).blocks.count b =
      (queueBlocks q).count b + (cfg.otherBlocks v).count b := by
  cases v <;>
    simp only [PatchConfig.setFiles, PatchConfig.otherBlocks, PatchConfig.blocks, queueBlocks,
      List.flatMap_nil, List.count_append, List.count_cons, List.count_nil] <;>
    omega

theorem setFiles_files (cfg : PatchConfig) (v : Ver) : cfg.setFiles v (cfg.files v) = cfg := by
  cases v <;> rfl

theorem readPatches_reads (v : Ver) (ver dir : Str) (children : List Node) (cfg : PatchConfig)
    (h : Heap) :
    Reads noFlags (plain ((scan patchesNext () children).map fun r => r.2)) h
      (readPatches v ver dir children cfg h) := by
  rw [readPatches]
  generalize cfg.setDir v dir = cfg'
  have loop := each_reads patchesChild_reads children (cfg'.files v) h
  have neg := each_neg patchesChild_neg children (cfg'.files v) h
  generalize each patchesChild children (cfg'.files v) h = r at *
  obtain ⟨q, rv, h'⟩ := r
  obtain ⟨room, done, failing⟩ := loop
  dsimp only at neg room done failing ⊢
  by_cases failed : rv ≠ 0
  · rw [if_pos (neg failed)]
    refine ⟨room, fun ok => absurd ok failed, fun _ f k found => ?_⟩
    obtain ⟨p, scanned, rfl⟩ := Option.map_eq_some_iff.mp (plain_eq_some_iff.mp found)
    exact failing failed p.1 p.2 scanned
  · obtain rfl := not_not.mp failed
    obtain ⟨k, scanned, has, asked⟩ := done rfl
    refine ⟨room, fun _ => ⟨k, plain_eq_some_iff.mpr ?_, has, asked⟩, fun no => absurd rfl no⟩
    rw [show scan patchesNext () children = some ((), k) from scanned]
    rfl

theorem readPatches_keeps {rest : List Nat} (v : Ver) (ver dir : Str) (children : List Node)
    (cfg : PatchConfig) (h : Heap) (fine : (readPatches v ver dir children cfg h).2.1 = 0)
    (owns : h.Owns (dir.addr :: ver.addr :: (cfg.blocks ++ rest))) :
    (readPatches v ver dir children cfg h).2.2.Owns
      ((readPatches v ver dir children cfg h).1.blocks ++ rest) := by
  rw [readPatches] at fine ⊢
  have before : h.Owns (queueBlocks ((cfg.setDir v dir).files v) ++
      ((cfg.setDir v dir).otherBlocks v ++ ver.addr :: rest)) := owns.mono fun b => by
    have set := setDir_blocks cfg v dir b
    rw [← setFiles_files (cfg.setDir v dir) v, setFiles_blocks] at set
    simp only [List.count_cons, List.count_append] at set ⊢
    omega
  generalize cfg.setDir v dir = cfg' at *
  have kept := each_keeps patchesChild_keeps children _ h _ before
  generalize each patchesChild children (cfg'.files v) h = r at *
  obtain ⟨q, rv, h'⟩ := r
  dsimp only at fine kept ⊢
  by_cases failed : rv < 0
  · rw [if_pos failed] at fine
    exact absurd fine (Int.ne_of_lt failed)
  · rw [if_neg failed]
    refine kept.release fun b => ?_
    have set := setFiles_blocks cfg' v q b
    simp only [List.count_cons, List.count_append] at set ⊢
    omega

/-- Where a patch cannot be read, the directory is freed, and the configuration keeps it. -/
theorem readPatches_faulty (v : Ver) (ver dir : Str) (children : List Node) (cfg : PatchConfig)
    (h : Heap) (failed : (readPatches v ver dir children cfg h).2.1 ≠ 0) :
    dir.addr ∈ (readPatches v ver dir children cfg h).1.blocks ∧
      dir.addr ∈ (readPatches v ver dir children cfg h).2.2.freed := by
  rw [readPatches] at failed ⊢
  have has : dir.addr ∈ strBlocks ((cfg.setDir v dir).dirOf v) := by
    cases v <;> exact List.mem_singleton.mpr rfl
  generalize cfg.setDir v dir = cfg' at *
  have neg := each_neg patchesChild_neg children (cfg'.files v) h
  generalize each patchesChild children (cfg'.files v) h = r at *
  obtain ⟨q, rv, h'⟩ := r
  dsimp only at neg failed ⊢
  by_cases no : rv < 0
  · rw [if_pos no]
    exact ⟨dirOf_blocks cfg' v q has, List.mem_append_right _ (List.mem_singleton.mpr rfl)⟩
  · rw [if_neg no] at failed
    exact absurd (neg failed) no

theorem handlePatches_named {props : List (String × String)} (names : namesPatches props)
    (children : List Node) (cfg : PatchConfig) (h : Heap) :
    ∃ v ver dir, handlePatches props children cfg h =
      readPatches v ⟨h.next, ver⟩ ⟨h.next + 1, dir⟩ children cfg h.new.2.new.2 := by
  rw [namesPatches] at names
  obtain ⟨named, directory⟩ := Bool.and_eq_true_iff.mp names
  obtain ⟨dir, directory⟩ := Option.isSome_iff_exists.mp directory
  cases version : props.lookup "version" with
  | none =>
      rw [version] at named
      exact nomatch named
  | some ver =>
      rw [version, Option.any_some] at named
      obtain ⟨v, named⟩ := Option.isSome_iff_exists.mp named
      refine ⟨v, ver, dir, ?_⟩
      rw [handlePatches]
      simp only [xmlGetProp, version, directory, newStr]
      rw [named]
      rfl

theorem handlePatches_unnamed {props : List (String × String)} (names : ¬ namesPatches props)
    (children : List Node) (cfg : PatchConfig) (h : Heap) :
    ∃ rv h', handlePatches props children cfg h = (cfg, rv, h') ∧ rv ≠ 0 ∧ h'.room = h.room ∧
      ∀ rest, h.Owns (cfg.blocks ++ rest) → h'.Owns (cfg.blocks ++ rest) := by
  rw [namesPatches] at names
  rw [handlePatches]
  simp only [xmlGetProp]
  cases version : props.lookup "version" with
  | none =>
      refine ⟨-1, _, rfl, by decide, newStr_room _ h, fun rest owns => ?_⟩
      have both := newStr_owns (props.lookup "dir") owns
      exact xmlFree_owns (Owns.freeAll (show Heap.Owns _ ([] ++ _) from both))
  | some ver =>
      cases directory : props.lookup "dir" with
      | none => exact ⟨-1, _, rfl, by decide, rfl, fun rest owns => owns.new.freeAll.freeAll⟩
      | some dir =>
          rw [version, directory, Option.any_some, Option.isSome_some, Bool.and_true] at names
          have named : verOf ver = none := Option.not_isSome_iff_eq_none.mp names
          simp only [newStr, named]
          refine ⟨-2, _, rfl, by decide, rfl, fun rest owns => ?_⟩
          have both : h.new.2.new.2.Owns (h.new.2.new.1 :: h.new.1 :: (cfg.blocks ++ rest)) :=
            owns.new.new
          refine (both.release fun b => ?_).free
          simp only [List.count_cons]
          omega

theorem handlePatches_reads (props : List (String × String)) (children : List Node)
    (cfg : PatchConfig) (h : Heap) :
    Reads noFlags (plain (patchesNeeds props children)) h (handlePatches props children cfg h) := by
  rw [patchesNeeds]
  by_cases names : namesPatches props
  · obtain ⟨v, ver, dir, read⟩ := handlePatches_named names children cfg h
    rw [if_pos names, read]
    exact (readPatches_reads v _ _ children cfg h.new.2.new.2).of_heap rfl rfl
  · obtain ⟨rv, h', read, rejects, room, -⟩ := handlePatches_unnamed names children cfg h
    rw [if_neg names, read]
    exact Reads.of_failed rfl room rejects

/-- Unless a patch cannot be read, the directory stays with the configuration or is freed. -/
theorem handlePatches_keeps (props : List (String × String)) (children : List Node)
    (cfg : PatchConfig) (h : Heap)
    (fine : namesPatches props → (handlePatches props children cfg h).2.1 = 0) :
    Keeps PatchConfig.blocks cfg h (handlePatches props children cfg h) := by
  intro rest owns
  by_cases names : namesPatches props
  · obtain ⟨v, ver, dir, read⟩ := handlePatches_named names children cfg h
    have done := fine names
    rw [read] at done ⊢
    exact readPatches_keeps v _ _ children cfg _ done owns.new.new
  · obtain ⟨rv, h', read, -, -, keeps⟩ := handlePatches_unnamed names children cfg h
    rw [read]
    exact keeps rest owns

theorem handlePatches_faulty {props : List (String × String)} (names : namesPatches props)
    (children : List Node) (cfg : PatchConfig) (h : Heap)
    (failed : (handlePatches props children cfg h).2.1 ≠ 0) :
    ∃ a ∈ (handlePatches props children cfg h).1.blocks,
      a ∈ (handlePatches props children cfg h).2.2.freed := by
  obtain ⟨v, ver, dir, read⟩ := handlePatches_named names children cfg h
  rw [read] at failed ⊢
  exact ⟨h.next + 1, readPatches_faulty v _ _ children cfg _ failed⟩

end Patches

/-! ## The other elements -/

section Others

theorem handleServer_reads (lib : Lib) (props : List (String × String)) (cur : PatchConfig)
    (h : Heap) :
    Reads noFlags (plain (serverNeeds lib props)) h (handleServer lib props cur h) := by
  rw [handleServer, serverNeeds]
  simp only [xmlGetProp]
  cases props.lookup "addr" with
  | none => exact Reads.of_failed rfl (newStr_room _ h) (by decide)
  | some ip =>
      rw [Option.any_some]
      simp only [newStr]
      cases lib.inetPton ip with
      | none => exact Reads.of_failed rfl (newStr_room _ h.new.2) (by decide)
      | some a =>
          rw [Option.isSome_some, if_pos rfl]
          dsimp only
          split
          · exact Reads.of_done rfl (newStr_room _ h.new.2) (newStr_asked _ h.new.2)
          · exact Reads.of_done rfl (newStr_room _ h.new.2) (newStr_asked _ h.new.2)

theorem handleServer_keeps (lib : Lib) (props : List (String × String)) (cur : PatchConfig)
    (h : Heap) : Keeps PatchConfig.blocks cur h (handleServer lib props cur h) := by
  intro rest owns
  rw [handleServer]
  simp only [xmlGetProp]
  have freed := xmlFree_owns (xmlFree_owns (newStr_owns (props.lookup "ip6")
    (newStr_owns (props.lookup "addr") owns)))
  generalize xmlFree (newStr (props.lookup "addr") h).1 _ = h' at *
  cases (newStr (props.lookup "addr") h).1 with
  | none => exact freed
  | some ip =>
      dsimp only
      cases lib.inetPton ip.text with
      | none => exact freed
      | some a =>
          dsimp only
          split <;> exact freed

theorem handleVersions_reads (props : List (String × String)) (cfg : PatchConfig) (h : Heap) :
    Reads noFlags (plain (versionsNeeds props)) h (handleVersions props cfg h) := by
  rw [handleVersions, versionsNeeds]
  simp only [xmlGetProp]
  cases props.lookup "pc" with
  | none => exact Reads.of_failed rfl (newStr_room _ h) (by decide)
  | some pc =>
      cases props.lookup "bb" with
      | none => exact Reads.of_failed rfl rfl (by decide)
      | some bb => exact Reads.of_done rfl rfl rfl

theorem handleVersions_keeps (props : List (String × String)) (cfg : PatchConfig) (h : Heap) :
    Keeps PatchConfig.blocks cfg h (handleVersions props cfg h) := by
  intro rest owns
  rw [handleVersions]
  simp only [xmlGetProp]
  have freed := xmlFree_owns (xmlFree_owns (newStr_owns (props.lookup "bb")
    (newStr_owns (props.lookup "pc") owns)))
  split <;> exact freed

theorem storeWelcome_reads (lib : Lib) (v : Ver) (ic : Nat) (ver msg : Str) (cfg : PatchConfig)
    (h : Heap) :
    Reads noFlags ((plain (some 0)).map fun p => (p.1, 1 + p.2)) h
      (storeWelcome lib v ic ver msg cfg h) := by
  rw [storeWelcome]
  by_cases got : h.room h.asked
  · rw [malloc_some got]
    exact Reads.of_malloc got (Reads.of_done rfl rfl rfl)
  · rw [malloc_none got]
    exact Reads.of_full got (needed_succ _) rfl (by decide)

theorem setWelcome_blocks (cfg : PatchConfig) (v : Ver) (w : Welcome) (b : Nat) :
    (cfg.setWelcome v w).blocks.count b ≤ (w.addr :: cfg.blocks).count b := by
  cases v <;>
    simp only [PatchConfig.setWelcome, PatchConfig.blocks, Option.toList_some, List.map_cons,
      List.map_nil, List.count_append, List.count_cons, List.count_nil] <;>
    omega

theorem storeWelcome_keeps {rest : List Nat} (lib : Lib) (v : Ver) (ic : Nat) (ver msg : Str)
    (cfg : PatchConfig) (h : Heap)
    (owns : h.Owns (ic :: msg.addr :: ver.addr :: (cfg.blocks ++ rest))) :
    (storeWelcome lib v ic ver msg cfg h).2.2.Owns
      ((storeWelcome lib v ic ver msg cfg h).1.blocks ++ rest) := by
  rw [storeWelcome]
  by_cases got : h.room h.asked
  · rw [malloc_some got]
    have owns' : Heap.Owns { h with next := h.next + 1, asked := h.asked + 1 }
      (h.next :: ic :: msg.addr :: ver.addr :: (cfg.blocks ++ rest)) := owns.new
    refine (owns'.mono fun b => ?_).free.free.free
    have set := setWelcome_blocks cfg v ⟨h.next, lib.welcome (v = .pc) msg.text⟩ b
    simp only [List.count_cons, List.count_append] at set ⊢
    omega
  · rw [malloc_none got]
    exact Owns.free (Owns.free (Owns.free owns))

theorem handleWelcome_reads (lib : Lib) (props : List (String × String)) (text : Option String)
    (cfg : PatchConfig) (h : Heap) :
    Reads noFlags (plain (welcomeNeeds props text)) h (handleWelcome lib props text cfg h) := by
  rw [handleWelcome, welcomeNeeds]
  by_cases got : h.room h.asked
  · rw [malloc_some got]
    simp only [xmlGetProp]
    cases props.lookup "version" with
    | none => exact Reads.of_failed rfl rfl (by decide)
    | some ver =>
        rw [Option.any_some]
        simp only [newStr]
        cases verOf ver with
        | none => exact Reads.of_failed rfl rfl (by decide)
        | some v =>
            cases text with
            | none => exact Reads.of_failed rfl rfl (by decide)
            | some msg =>
                have needs : plain (some 2) =
                    ((plain (some 0)).map fun p => (p.1, 1 + p.2)).map fun p => (p.1, 1 + p.2) :=
                  rfl
                rw [Option.isSome_some, Option.isSome_some, Bool.and_true, if_pos rfl, needs]
                exact Reads.of_malloc got
                  ((storeWelcome_reads lib v _ _ _ cfg _).of_heap rfl rfl)
  · rw [malloc_none got]
    refine Reads.of_full got (fun f k found => ?_) rfl (by decide)
    split at found
    · exact (Prod.mk.inj (Option.some.inj found)).2 ▸ by decide
    · exact nomatch found

theorem handleWelcome_keeps (lib : Lib) (props : List (String × String)) (text : Option String)
    (cfg : PatchConfig) (h : Heap) :
    Keeps PatchConfig.blocks cfg h (handleWelcome lib props text cfg h) := by
  intro rest owns
  rw [handleWelcome]
  by_cases got : h.room h.asked
  · have owns₁ : Heap.Owns { h with next := h.next + 1, asked := h.asked + 1 }
      (h.next :: (cfg.blocks ++ rest)) := owns.new
    rw [malloc_some got]
    simp only [xmlGetProp]
    generalize { h with next := h.next + 1, asked := h.asked + 1 } = h₁ at *
    generalize h.next = ic at *
    cases props.lookup "version" with
    | none => exact owns₁.free
    | some ver =>
        have owns₂ : h₁.new.2.Owns (ic :: h₁.new.1 :: (cfg.blocks ++ rest)) :=
          owns₁.new.mono fun b => by
            simp only [Heap.new, List.count_cons]
            omega
        simp only [newStr]
        cases verOf ver with
        | none => exact owns₂.free.free
        | some v =>
            cases text with
            | none => exact owns₂.free.free
            | some msg =>
                refine storeWelcome_keeps lib v ic _ _ cfg _ (owns₂.new.mono fun b => ?_)
                simp only [Heap.new, List.count_cons]
                omega
  · rw [malloc_none got]
    exact owns

end Others

end Sylverant.Patch.Config
