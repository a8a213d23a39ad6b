/-
# Reloading the configuration of the patch server

The server says that it goes on with the old configuration when a new one cannot be read, and
frees it all the same. So a reload that fails leaves it without one. And where a patch cannot be
read, the directory of its element is freed twice.
-/

import Sylverant.Library.Run
import Sylverant.Patch.ConfigReading

namespace Sylverant.Patch.Config

open Ownership (Heap Enough)
open Ownership.Heap

/-! ## What should be kept -/

/-- The server, and what was read from the last document that could be read. -/
structure Watch where
  server : Server := {}
  last : Option PatchConfig := none

/-- The heap in which a document is read. -/
def Server.heapFor (s : Server) (r : Reload) : Heap := { s.heap with asked := 0, room := r.room }

/-- Load the configuration, unless the server has given up. -/
def Watch.load (lib : Lib) (w : Watch) (r : Reload) : Watch :=
  if w.server.exited then w
  else
    let read := patchReadConfig lib r (w.server.heapFor r)
    { server := loadConfig lib w.server r
      last := if read.2.1 = 0 then read.1 else w.last }

/-- Nothing was freed twice, and a server that has not given up has the configuration from the last
document that could be read, with nothing of it freed. -/
def Watch.Kept (w : Watch) : Prop :=
  w.server.heap.freed.Nodup ∧
    (¬ w.server.exited → ∃ cfg, w.server.cfg = some cfg ∧ w.last = some cfg ∧
      ∀ a ∈ cfg.blocks, a ∉ w.server.heap.freed)

/-! ## The condition -/

/-- The elements of the document, if it is one for the patch server. -/
def Reload.elements (r : Reload) : Option (List Node) :=
  match r.doc with
  | some (some (name, children)) => if r.valid ∧ name = "patch_config" then some children else none
  | _ => none

/-- The document can be read, and there is memory for it. -/
def Reload.Readable (lib : Lib) (r : Reload) : Prop :=
  ∃ ns k, r.elements = some ns ∧ scan (configNext lib) () ns = some ((), k) ∧
    Enough r.room 0 (2 + k)

/-- The element names a version and a directory, and one of its patches cannot be read. -/
def FaultyAt (room : Nat → Bool) (asked : Nat) : Node → Prop
  | .other => False
  | .element name props _ children =>
      name = "patches" ∧ namesPatches props ∧
        ¬ ∃ k, patchesNeeds props children = some k ∧ Enough room asked k

/-- The first element that cannot be read is such a one. -/
def FaultIn (lib : Lib) (room : Nat → Bool) : Nat → List Node → Prop
  | _, [] => False
  | asked, n :: ns =>
      FaultyAt room asked n ∨
        ∃ k, configNext lib () n = some ((), k) ∧ Enough room asked k ∧
          FaultIn lib room (asked + k) ns

/-- The document fails at a patch. -/
def Reload.Faulty (lib : Lib) (r : Reload) : Prop :=
  ∃ ns, r.elements = some ns ∧ Enough r.room 0 2 ∧ FaultIn lib r.room 2 ns

/-- A load goes well: the document can be read, or the server has no configuration yet and gives
up, where the document does not fail at a patch. -/
def Fine (lib : Lib) (w : Watch) (r : Reload) : Prop :=
  w.server.exited ∨ r.Readable lib ∨ w.server.cfg = none ∧ ¬ r.Faulty lib

/-! ## The elements of a document -/

section Elements

variable {lib : Lib} {n : Node} {cfg : PatchConfig} {h : Heap}

theorem configChild_reads (lib : Lib) (n : Node) (cfg : PatchConfig) (h : Heap) :
    Reads noFlags (configNext lib (noFlags cfg) n) h (configChild lib n cfg h) := by
  cases n with
  | other => exact Reads.of_done rfl rfl rfl
  | element name props text children =>
      rw [configChild, configNext]
      by_cases server : name = "server"
      · rw [if_pos server, if_pos server]
        exact Reads.of_handler (handleServer_reads lib props cfg h) (fun _ => rfl) (by decide)
      rw [if_neg server, if_neg server]
      by_cases versions : name = "versions"
      · rw [if_pos versions, if_pos versions]
        exact Reads.of_handler (handleVersions_reads props cfg h) (fun _ => rfl) (by decide)
      rw [if_neg versions, if_neg versions]
      by_cases welcome : name = "welcome"
      · rw [if_pos welcome, if_pos welcome]
        exact Reads.of_handler (handleWelcome_reads lib props text cfg h) (fun _ => rfl)
          (by decide)
      rw [if_neg welcome, if_neg welcome]
      by_cases patches : name = "patches"
      · rw [if_pos patches, if_pos patches]
        exact Reads.of_handler (handlePatches_reads props children cfg h) (fun _ => rfl)
          (by decide)
      rw [if_neg patches, if_neg patches]
      exact Reads.of_done rfl rfl rfl

theorem configChild_keeps (fine : ¬ FaultyAt h.room h.asked n) :
    Keeps PatchConfig.blocks cfg h (configChild lib n cfg h) := by
  have alone (cfg : PatchConfig) : cfg.blocks = [] ++ (cfg.blocks ++ []) :=
    (List.append_nil _).symm
  cases n with
  | other => exact fun rest owns => owns
  | element name props text children =>
      rw [configChild]
      by_cases server : name = "server"
      · rw [if_pos server]
        exact Keeps.of_handler (handleServer_keeps lib props cfg h) (alone cfg) alone alone
      rw [if_neg server]
      by_cases versions : name = "versions"
      · rw [if_pos versions]
        exact Keeps.of_handler (handleVersions_keeps props cfg h) (alone cfg) alone alone
      rw [if_neg versions]
      by_cases welcome : name = "welcome"
      · rw [if_pos welcome]
        exact Keeps.of_handler (handleWelcome_keeps lib props text cfg h) (alone cfg) alone alone
      rw [if_neg welcome]
      by_cases patches : name = "patches"
      · rw [if_pos patches]
        refine Keeps.of_handler (handlePatches_keeps props children cfg h fun names => ?_)
          (alone cfg) alone alone
        by_contra failed
        refine fine ⟨patches, names, ?_⟩
        rintro ⟨k, needs, has⟩
        exact (handlePatches_reads props children cfg h).failed failed () k
          (plain_eq_some_iff.mpr needs) has
      rw [if_neg patches]
      exact fun rest owns => owns

theorem configChild_faulty (bad : FaultyAt h.room h.asked n) :
    (configChild lib n cfg h).2.1 ≠ 0 ∧
      ∃ a ∈ (configChild lib n cfg h).1.blocks, a ∈ (configChild lib n cfg h).2.2.freed := by
  cases n with
  | other => exact bad.elim
  | element name props text children =>
      obtain ⟨rfl, names, unread⟩ := bad
      have failed : (handlePatches props children cfg h).2.1 ≠ 0 := by
        intro ok
        obtain ⟨k, needs, has, -⟩ := (handlePatches_reads props children cfg h).done ok
        exact unread ⟨k, plain_eq_some_iff.mp needs, has⟩
      have child : configChild lib (.element "patches" props text children) cfg h =
          orFail (handlePatches props children cfg h) (-10) id id := rfl
      rw [child, orFail, if_pos failed]
      exact ⟨show (-10 : Int) ≠ 0 by decide, handlePatches_faulty names children cfg h failed⟩

theorem config_keeps {ns : List Node} (fine : ¬ FaultIn lib h.room h.asked ns) :
    Keeps PatchConfig.blocks cfg h (each (configChild lib) ns cfg h) := by
  induction ns generalizing cfg h with
  | nil => exact fun rest owns => owns
  | cons n ns ih =>
      have first : Keeps PatchConfig.blocks cfg h (configChild lib n cfg h) :=
        configChild_keeps fun bad => fine (Or.inl bad)
      rw [each]
      by_cases failed : (configChild lib n cfg h).2.1 ≠ 0
      · rw [if_pos failed]
        exact first
      · rw [if_neg failed]
        have reads := configChild_reads lib n cfg h
        obtain ⟨k, needs, has, asked⟩ := reads.done (not_not.mp failed)
        refine fun rest owns => ih ?_ rest (first rest owns)
        rw [reads.room, asked]
        exact fun later => fine (Or.inr ⟨k, needs, has, later⟩)

theorem config_faulty {ns : List Node} (bad : FaultIn lib h.room h.asked ns) :
    (each (configChild lib) ns cfg h).2.1 ≠ 0 ∧
      ∃ a ∈ (each (configChild lib) ns cfg h).1.blocks,
        a ∈ (each (configChild lib) ns cfg h).2.2.freed := by
  induction ns generalizing cfg h with
  | nil => exact bad.elim
  | cons n ns ih =>
      have reads := configChild_reads lib n cfg h
      rw [each]
      by_cases failed : (configChild lib n cfg h).2.1 ≠ 0
      · rw [if_pos failed]
        rcases bad with here | ⟨k, needs, has, -⟩
        · exact configChild_faulty here
        · exact absurd has (reads.failed failed () k needs)
      · rw [if_neg failed]
        obtain ⟨k, needs, has, asked⟩ := reads.done (not_not.mp failed)
        rcases bad with here | ⟨k', needs', -, later⟩
        · exact absurd (not_not.mp failed) (configChild_faulty here).1
        · obtain ⟨-, rfl⟩ := Prod.mk.inj (Option.some.inj (needs'.symm.trans needs))
          apply ih
          rw [reads.room, asked]
          exact later

end Elements

/-! ## A document -/

section Document

variable {lib : Lib} {r : Reload} {h h' : Heap} {rest : List Nat}

/-- The blocks of the configuration, if there is one. -/
def live (cfg : Option PatchConfig) : List Nat := cfg.toList.flatMap PatchConfig.blocks

/-- What comes of reading a document, with the blocks of others. -/
structure ReadsConfig (lib : Lib) (r : Reload) (h : Heap) (rest : List Nat)
    (read : Option PatchConfig × Int × Heap) : Prop where
  done : read.2.1 = 0 ↔ r.Readable lib
  some : read.2.1 = 0 → ∃ cfg, read.1 = some cfg
  none : read.2.1 ≠ 0 → read.1 = none
  keeps : ¬ r.Faulty lib → h.Owns rest → read.2.2.Owns (live read.1 ++ rest)
  faulty : r.Faulty lib → read.2.1 ≠ 0 ∧ ¬ read.2.2.freed.Nodup

/-- A document that is given up before any of its elements is read. -/
theorem ReadsConfig.of_early {rv : Int} (rejects : rv ≠ 0)
    (early : ∀ ns, r.elements = .some ns → ¬ Enough r.room 0 2)
    (keeps : h.Owns rest → h'.Owns rest) : ReadsConfig lib r h rest (.none, rv, h') where
  done := by
    refine iff_of_false rejects ?_
    rintro ⟨ns, k, elements, -, room⟩
    exact early ns elements fun i less => room i (Nat.lt_add_right k less)
  some ok := absurd ok rejects
  none _ := rfl
  keeps _ := keeps
  faulty := by
    rintro ⟨ns, elements, room, -⟩
    exact absurd room (early ns elements)

/-- The elements are read, and what was needed for that is freed. -/
theorem ReadsConfig.of_elements {ns : List Node} {rv cxt doc : Nat}
    (elements : r.elements = .some ns) (first : Enough r.room 0 2) (room : h'.room = r.room)
    (asked : h'.asked = 2)
    (owns : h.Owns rest → h'.Owns (doc :: cxt :: rv :: rest)) :
    ReadsConfig lib r h rest
      (let read := each (configChild lib) ns { addr := rv } h'
        let after := (read.2.2.free doc).free cxt
        if read.2.1 ≠ 0 then (.none, read.2.1, patchFreeConfig read.1 after)
        else (.some read.1, 0, after)) := by
  have reads := each_reads (configChild_reads lib) ns { addr := rv } h'
  have more (k : Nat) : Enough r.room 0 (2 + k) ↔ h'.Has k := by
    have both := @has_add_iff { room := r.room } h' 2 k asked room
    exact both.trans (and_iff_right first)
  have readable : (each (configChild lib) ns { addr := rv } h').2.1 = 0 ↔ r.Readable lib := by
    constructor
    · intro ok
      obtain ⟨k, scanned, has, -⟩ := reads.done ok
      exact ⟨ns, k, elements, scanned, (more k).mpr has⟩
    · rintro ⟨ns', k, elements', scanned, has⟩
      obtain rfl := Option.some.inj (elements.symm.trans elements')
      by_contra failed
      exact reads.failed failed () k scanned ((more k).mp has)
  have fault : r.Faulty lib ↔ FaultIn lib h'.room h'.asked ns := by
    rw [room, asked]
    constructor
    · rintro ⟨ns', elements', -, bad⟩
      obtain rfl := Option.some.inj (elements.symm.trans elements')
      exact bad
    · exact fun bad => ⟨ns, elements, first, bad⟩
  have keeps := @config_keeps lib { addr := rv } h' ns
  have faulty := @config_faulty lib { addr := rv } h' ns
  rw [← fault] at keeps faulty
  have start (before : h.Owns rest) :
      h'.Owns (PatchConfig.blocks { addr := rv } ++ (doc :: cxt :: rest)) :=
    (owns before).mono fun b => by
      simp only [PatchConfig.blocks, strBlocks, Option.toList_none, List.map_nil, List.flatMap_nil,
        List.nil_append, List.count_append, List.count_cons, List.count_nil]
      omega
  generalize each (configChild lib) ns { addr := rv } h' = read at *
  dsimp only
  by_cases failed : read.2.1 ≠ 0
  · rw [if_pos failed]
    refine ⟨readable, fun ok => absurd ok failed, fun _ => rfl, fun clean before => ?_,
      fun bad => ?_⟩
    · have kept := keeps clean _ (start before)
      refine Owns.freeAll ((kept.mono fun b => ?_).free).free
      simp only [live, Option.toList_none, List.flatMap_nil, List.nil_append, List.count_cons,
        List.count_append]
      omega
    · obtain ⟨-, a, has, freed⟩ := faulty bad
      exact ⟨failed, not_nodup_freeAll (List.mem_append_left _ (List.mem_append_left _ freed)) has⟩
  · rw [if_neg failed]
    refine ⟨iff_of_true rfl (readable.mp (not_not.mp failed)), fun _ => ⟨_, rfl⟩,
      fun no => absurd rfl no, fun clean before => ?_, fun bad => absurd (faulty bad).1 failed⟩
    have kept := keeps clean _ (start before)
    refine (kept.mono fun b => ?_).free.free
    simp only [live, Option.toList_some, List.flatMap_singleton, List.count_cons,
      List.count_append]
    omega

theorem patchReadConfig_reads (room : h.room = r.room) (asked : h.asked = 0) :
    ReadsConfig lib r h rest (patchReadConfig lib r h) := by
  rw [patchReadConfig]
  by_cases got : h.room h.asked
  · have owns₁ (owns : h.Owns rest) :
        Heap.Owns { h with next := h.next + 1, asked := h.asked + 1 } (h.next :: rest) := owns.new
    rw [malloc_some got]
    dsimp only
    generalize h.next = rv at *
    rw [asked] at owns₁ got ⊢
    generalize first : { h with next := rv + 1, asked := 0 + 1 } = h₁ at *
    have room₁ : h₁.room = r.room := first ▸ room
    have asked₁ : h₁.asked = 1 := first ▸ rfl
    by_cases got' : h₁.room h₁.asked
    · have owns₂ (owns : h.Owns rest) :
          Heap.Owns { h₁ with next := h₁.next + 1, asked := h₁.asked + 1 }
            (h₁.next :: rv :: rest) := (owns₁ owns).new
      have both : Enough r.room 0 2 := by
        rw [room] at got
        rw [room₁, asked₁] at got'
        intro k less
        have cases : k = 0 ∨ k = 1 := by omega
        rcases cases with rfl | rfl
        · exact got
        · exact got'
      rw [malloc_some got']
      dsimp only
      generalize h₁.next = cxt at *
      rw [asked₁] at owns₂ ⊢
      generalize second : { h₁ with next := cxt + 1, asked := 1 + 1 } = h₂ at *
      have room₂ : h₂.room = r.room := second ▸ room₁
      have asked₂ : h₂.asked = 2 := second ▸ rfl
      have late (none : r.elements = .none) (ns : List Node) (some : r.elements = .some ns) :
          ¬ Enough r.room 0 2 := by
        rw [none] at some
        exact nomatch some
      cases doc : r.doc with
      | none =>
          refine ReadsConfig.of_early (by decide) (late ?_) fun owns => (owns₂ owns).free.free
          rw [Reload.elements, doc]
      | some root =>
          have freed (owns : h.Owns rest) :
              ((((h₂.new.2).free h₂.new.1).free cxt).free rv).Owns rest :=
            (owns₂ owns).new.free.free.free
          by_cases valid : r.valid
          · cases root with
            | none =>
                dsimp only
                rw [if_neg (not_not.mpr valid)]
                refine ReadsConfig.of_early (by decide) (late ?_) freed
                rw [Reload.elements, doc]
            | some root =>
                obtain ⟨name, ns⟩ := root
                dsimp only
                rw [if_neg (not_not.mpr valid)]
                by_cases same : name = "patch_config"
                · have elements : r.elements = .some ns := by
                    rw [Reload.elements, doc]
                    exact if_pos ⟨valid, same⟩
                  have owns₃ (owns : h.Owns rest) :
                      h₂.new.2.Owns (h₂.new.1 :: cxt :: rv :: rest) := (owns₂ owns).new
                  have read := @ReadsConfig.of_elements lib r h h₂.new.2 rest ns rv cxt h₂.new.1
                    elements both room₂ asked₂ owns₃
                  simp only [same, ne_eq, not_true_eq_false, if_false]
                  exact read
                · simp only [ne_eq, same, not_false_eq_true, if_true]
                  refine ReadsConfig.of_early (by decide) (late ?_) freed
                  rw [Reload.elements, doc]
                  exact if_neg fun h => same h.2
          · dsimp only
            rw [if_pos valid]
            refine ReadsConfig.of_early (by decide) (late ?_) freed
            rw [Reload.elements, doc]
            cases root with
            | none => rfl
            | some root => exact if_neg fun h => valid h.1
    · rw [malloc_none got']
      refine ReadsConfig.of_early (by decide) (fun ns _ enough => got' ?_) fun owns =>
        (owns₁ owns).free
      rw [room₁, asked₁]
      exact enough 1 (by decide)
  · rw [malloc_none got]
    refine ReadsConfig.of_early (by decide) (fun ns _ enough => got ?_) fun owns => owns
    rw [room, asked]
    exact enough 0 (by decide)

end Document

/-! ## Any number of loads -/

section Loads

variable {lib : Lib} {w : Watch} {r : Reload}

/-- What the server owns is its configuration, and that is the last one that was read. -/
structure Watch.Sound (w : Watch) : Prop where
  owns : w.server.heap.Owns (live w.server.cfg)
  last : ¬ w.server.exited → w.server.cfg = w.last

theorem owns_heapFor (sound : w.Sound) : (w.server.heapFor r).Owns (live w.server.cfg) :=
  sound.owns

theorem read_config (lib : Lib) (w : Watch) (r : Reload) (rest : List Nat) :
    ReadsConfig lib r (w.server.heapFor r) rest (patchReadConfig lib r (w.server.heapFor r)) :=
  patchReadConfig_reads rfl rfl

theorem Watch.Sound.kept (sound : w.Sound) (some : ¬ w.server.exited → w.server.cfg ≠ none) :
    w.Kept := by
  refine ⟨sound.owns.nodup, fun running => ?_⟩
  obtain ⟨cfg, has⟩ := Option.ne_none_iff_exists'.mp (some running)
  refine ⟨cfg, has, (sound.last running).symm.trans has, fun a ha => sound.owns.not_freed ?_⟩
  rw [has, live, Option.toList_some, List.flatMap_singleton]
  exact ha

/-- A document that can be read takes the place of the configuration. -/
theorem loadConfig_done {s : Server} {h : Heap} {cfg : PatchConfig}
    (read : patchReadConfig lib r (s.heapFor r) = (some cfg, 0, h)) :
    loadConfig lib s r = { s with heap := h.freeAll (live s.cfg), cfg := some cfg } := by
  have read' : patchReadConfig lib r { s.heap with asked := 0, room := r.room } =
      (some cfg, 0, h) := read
  rw [loadConfig, read']
  dsimp only
  rw [if_neg fun failed => absurd rfl failed.1]
  cases s.cfg with
  | none =>
      have nothing : h.freeAll (live none) = h := by
        rw [live, Option.toList_none, List.flatMap_nil, freeAll, List.append_nil]
      rw [nothing]
  | some old =>
      rw [live, Option.toList_some, List.flatMap_singleton]
      rfl

/-- A document that cannot be read leaves no configuration, or ends the server. -/
theorem loadConfig_failed {s : Server} {h : Heap} {rv : Int}
    (read : patchReadConfig lib r (s.heapFor r) = (none, rv, h)) (failed : rv ≠ 0) :
    loadConfig lib s r =
      match s.cfg with
      | none => { s with heap := h, exited := true }
      | some cfg => { s with heap := h.freeAll cfg.blocks, cfg := none } := by
  have read' : patchReadConfig lib r { s.heap with asked := 0, room := r.room } =
      (none, rv, h) := read
  rw [loadConfig, read']
  dsimp only
  cases s.cfg with
  | none => exact if_pos ⟨failed, rfl⟩
  | some cfg => exact if_neg fun gone => nomatch gone.2

/-- A load of a document that can be read. -/
theorem load_readable (sound : w.Sound) (running : ¬ w.server.exited)
    (readable : r.Readable lib) : (w.load lib r).Sound ∧ (w.load lib r).Kept := by
  have read := read_config lib w r (live w.server.cfg)
  have ok := read.done.mpr readable
  obtain ⟨cfg, new⟩ := read.some ok
  have owns := read.keeps (fun bad => (read.faulty bad).1 ok) (owns_heapFor sound)
  have whole : patchReadConfig lib r (w.server.heapFor r) =
      (some cfg, 0, (patchReadConfig lib r (w.server.heapFor r)).2.2) :=
    Prod.ext new (Prod.ext ok rfl)
  have next : w.load lib r =
      { server := { w.server with
          heap := (patchReadConfig lib r (w.server.heapFor r)).2.2.freeAll (live w.server.cfg)
          cfg := some cfg }
        last := some cfg } := by
    rw [Watch.load, if_neg running, loadConfig_done whole]
    dsimp only
    rw [if_pos ok, new]
  have after : (w.load lib r).Sound := by
    rw [new] at owns
    rw [next]
    refine ⟨Owns.freeAll (owns.mono fun b => ?_), fun _ => rfl⟩
    rw [List.count_append, List.count_append]
    exact Nat.le_of_eq (Nat.add_comm _ _)
  refine ⟨after, after.kept fun _ => ?_⟩
  rw [next]
  exact fun none => nomatch none

/-- A load that goes well leaves the server with what was read last. -/
theorem load_fine (sound : w.Sound) (kept : w.server.exited → w.Kept) (fine : Fine lib w r) :
    (w.load lib r).Sound ∧ (w.load lib r).Kept := by
  by_cases exited : w.server.exited
  · rw [Watch.load, if_pos exited]
    exact ⟨sound, kept exited⟩
  by_cases readable : r.Readable lib
  · exact load_readable sound exited readable
  obtain ⟨first, clean⟩ := (fine.resolve_left exited).resolve_left readable
  have read := read_config lib w r (live w.server.cfg)
  have failed : (patchReadConfig lib r (w.server.heapFor r)).2.1 ≠ 0 :=
    fun ok => readable (read.done.mp ok)
  have owns := read.keeps clean (owns_heapFor sound)
  have whole : patchReadConfig lib r (w.server.heapFor r) =
      (none, (patchReadConfig lib r (w.server.heapFor r)).2.1,
        (patchReadConfig lib r (w.server.heapFor r)).2.2) :=
    Prod.ext (read.none failed) rfl
  have next := loadConfig_failed whole failed
  rw [first] at next
  rw [read.none failed, first] at owns
  have after : (w.load lib r).Sound := by
    rw [Watch.load, if_neg exited, next]
    exact ⟨owns.mono fun b => Nat.zero_le _, fun running => absurd rfl running⟩
  refine ⟨after, after.kept fun running => ?_⟩
  rw [Watch.load, if_neg exited, next] at running
  exact absurd rfl running

/-- A load that does not go well leaves the server without a configuration, or has freed a
directory twice. -/
theorem load_not_fine (bad : ¬ Fine lib w r) : ¬ (w.load lib r).Kept := by
  have running : ¬ w.server.exited := fun exited => bad (Or.inl exited)
  have read := read_config lib w r []
  have failed : (patchReadConfig lib r (w.server.heapFor r)).2.1 ≠ 0 :=
    fun ok => bad (Or.inr (Or.inl (read.done.mp ok)))
  have whole : patchReadConfig lib r (w.server.heapFor r) =
      (none, (patchReadConfig lib r (w.server.heapFor r)).2.1,
        (patchReadConfig lib r (w.server.heapFor r)).2.2) :=
    Prod.ext (read.none failed) rfl
  have next := loadConfig_failed whole failed
  rw [Watch.load, if_neg running, next]
  rintro ⟨once, has⟩
  cases cfg : w.server.cfg with
  | none =>
      rw [cfg] at once
      have faulty : r.Faulty lib := by
        by_contra clean
        exact bad (Or.inr (Or.inr ⟨cfg, clean⟩))
      exact (read.faulty faulty).2 once
  | some old =>
      rw [cfg] at has
      obtain ⟨new, none, -⟩ := has running
      exact nomatch none

/-- In every run of loads the server has the configuration that was read last, and frees nothing
twice, exactly when each load goes well. -/
theorem loads_kept_iff (lib : Lib) (rs : List Reload) :
    (∀ front r back, rs = front ++ r :: back →
        ((front.foldl (Watch.load lib) {}).load lib r).Kept) ↔
      Run.Guarded (Watch.load lib) (Fine lib) {} rs := by
  have start : Watch.Sound {} ∧ (Watch.server {}).exited = false := by
    exact ⟨⟨owns_empty _, fun _ => rfl⟩, rfl⟩
  have good := @Run.Guarded.congr _ _ (Watch.load lib) (fun w r => (w.load lib r).Kept) (Fine lib)
    {} rs (fun w => w.Sound ∧ (w.server.exited → w.Kept))
    (fun w r old => ⟨fun kept => by_contra fun bad => load_not_fine bad kept,
      fun fine => (load_fine old.1 old.2 fine).2⟩)
    (fun w r old kept => by
      have fine : Fine lib w r := by_contra fun bad => load_not_fine bad kept
      exact ⟨(load_fine old.1 old.2 fine).1, fun _ => kept⟩)
    ⟨start.1, fun exited => absurd exited (by decide)⟩
  rw [← good]
  exact (@Run.Guarded.iff_each _ _ (Watch.load lib) (fun w r => (w.load lib r).Kept) {} rs).symm

/-- A library that knows no addresses and changes no messages. -/
def plainLib : Lib where
  inetPton _ := none
  inetPton6 _ := none
  welcome _ _ := []

/-- A document with some elements, and with enough memory. -/
def document (ns : List Node) : Reload where
  room _ := true
  doc := some (some ("patch_config", ns))
  valid := true

/-- A patch that does not say whether it is enabled. -/
def brokenPatches : Node :=
  .element "patches" [("version", "PC"), ("dir", "patches")] none [.element "patch" [] none []]

/-- A configuration without elements, and then a file that is no document. -/
def thenBroken : List Reload := [document [], { document [] with doc := none }]

/-- When a reload fails the server goes on without a configuration, and when the first document
fails at a patch, a directory is freed twice. -/
theorem not_kept :
    ¬ ((thenBroken.foldl (Watch.load plainLib) {}).Kept) ∧
      ¬ (Watch.load plainLib {} (document [brokenPatches])).Kept := by
  constructor
  · rintro ⟨-, has⟩
    have running : (thenBroken.foldl (Watch.load plainLib) {}).server.exited = false := by decide
    have none : (thenBroken.foldl (Watch.load plainLib) {}).server.cfg.isSome = false := by decide
    obtain ⟨cfg, some, -⟩ := has (by rw [running]; decide)
    rw [some] at none
    exact nomatch none
  · rintro ⟨once, -⟩
    have twice : (Watch.load plainLib {} (document [brokenPatches])).server.heap.freed =
        [3, 4, 2, 1, 4, 0] := by decide
    rw [twice] at once
    exact absurd once (by decide)

end Loads

end Sylverant.Patch.Config
