/-
# The decoder stays inside its buffers

A read of the source outside `src`, and a write outside the destination, are faults of
the model already. What a fault does not show is whether a back-reference reads a byte
that was written in the same call, or one that the destination held before. Here the
callbacks take down where they write, and a copy from anywhere else is a fault too.
With these callbacks every public function does what it does without them, for every
source and every destination, and ends without a fault.
-/

import Sylverant.Prs.Agreement

namespace Sylverant.Prs

open Simulation

/-! ## Callbacks that know what was written -/

/-- A context, and the places of the destination written so far in this call. Growing a
buffer keeps its bytes in their places. -/
structure Tracked where
  cxt : DecCxt
  written : List Nat

/-- A callback that writes nothing. -/
def lift {α : Type} (m : EStateM Stop DecCxt α) : EStateM Stop Tracked α := fun t =>
  match m t.cxt with
  | .ok a c => .ok a { cxt := c, written := t.written }
  | .error e c => .error e { cxt := c, written := t.written }

/-- A callback that writes the byte at `target`, when it succeeds. -/
def tracksStore (m : EStateM Stop DecCxt Unit) (target : DecCxt → Nat) :
    EStateM Stop Tracked Unit := fun t =>
  match m t.cxt with
  | .ok a c => .ok a { cxt := c, written := target t.cxt :: t.written }
  | .error e c => .error e { cxt := c, written := t.written }

/-- A callback that copies the byte at `source` to the one at `target`, when it succeeds. -/
def tracksCopy (m : EStateM Stop DecCxt Unit) (source : DecCxt → Int) (target : DecCxt → Nat) :
    EStateM Stop Tracked Unit := fun t =>
  match m t.cxt with
  | .ok a c =>
      if ∃ i ∈ t.written, (i : Int) = source t.cxt then
        .ok a { cxt := c, written := target t.cxt :: t.written }
      else .error .fault { cxt := c, written := t.written }
  | .error e c => .error e { cxt := c, written := t.written }

def trackedBufCallbacks (junk : Nat → UInt8) : Callbacks Tracked :=
  { copyByte := tracksStore (copyAbyte junk) (fun c => c.dst + c.dstPos)
    offsetCopy := fun offset => tracksCopy (offsetCopyAlloc junk offset)
      (fun c => c.dst + c.dstPos + offset) (fun c => c.dst + c.dstPos)
    fetchBit := lift fetchBit, fetchByte := lift fetchByte, fetchShort := lift fetchShort,
    dstPos := fun t => t.cxt.dstPos }

def trackedBuf2Callbacks : Callbacks Tracked :=
  { copyByte := tracksStore copyByte (fun c => c.dst)
    offsetCopy := fun offset => tracksCopy (offsetCopy offset) (fun c => c.dst + offset)
      (fun c => c.dst)
    fetchBit := lift fetchBit, fetchByte := lift fetchByte, fetchShort := lift fetchShort,
    dstPos := fun t => t.cxt.dstPos }

/-- `prsDecompressBuf`, with all that it writes taken down. -/
def trackedDecompressBuf (junk : Nat → UInt8) (src : List UInt8) :
    Except Stop (Int × List UInt8) :=
  if src.length = 0 then .error (.ret (-EINVAL))
  else if src.length < 3 then .error (.ret (-EBADMSG))
  else
    match doDecompress (trackedBufCallbacks junk) (passes src)
      ⟨memCxt src (malloc junk (src.length * 2)) (src.length * 2), []⟩ with
    | .ok rv t => returnBuffer (.ok rv t.cxt)
    | .error stop t => returnBuffer (.error stop t.cxt)

/-- `prsDecompressBuf2`, with all that it writes taken down. -/
def trackedDecompressBuf2 (src dst : List UInt8) : Except Stop Int × List UInt8 :=
  if src.length = 0 ∨ dst.length = 0 then (.error (.ret (-EINVAL)), dst)
  else if src.length < 3 then (.error (.ret (-EBADMSG)), dst)
  else
    match doDecompress trackedBuf2Callbacks (passes src) ⟨memCxt src dst dst.length, []⟩ with
    | .ok rv t => (.ok rv, t.cxt.dstBlock)
    | .error stop t => (.error stop, t.cxt.dstBlock)

/-! ## What the callbacks do to the place they write at -/

/-- A callback that leaves the place alone. -/
def Stays {α : Type} (m : EStateM Stop DecCxt α) : Prop :=
  ∀ c, (endState (m c)).dst = c.dst ∧ (endState (m c)).dstPos = c.dstPos

/-- A callback that moves the pointer by so much, and counts one byte more, unless it
fails. -/
def Moves (step : Nat) (m : EStateM Stop DecCxt Unit) : Prop :=
  ∀ c, match m c with
    | .ok _ c' => c'.dst = c.dst + step ∧ c'.dstPos = c.dstPos + 1
    | .error _ c' => c'.dst = c.dst ∧ c'.dstPos = c.dstPos

theorem stays_fetchBit : Stays fetchBit := by
  intro c
  simp only [fetchBit, run_get_bind]
  by_cases empty : c.bitPos = 0
  · rw [if_pos empty]
    by_cases done : c.srcPos ≥ c.srcLen
    · rw [if_pos done]
      exact ⟨rfl, rfl⟩
    · rw [if_neg done, loadSrc]
      cases c.srcBlock[c.src]? with
      | none => exact ⟨rfl, rfl⟩
      | some b => exact ⟨rfl, rfl⟩
  · rw [if_neg empty]
    exact ⟨rfl, rfl⟩

theorem stays_fetchByte : Stays fetchByte := by
  intro c
  simp only [fetchByte, run_get_bind]
  by_cases done : c.srcPos ≥ c.srcLen
  · rw [if_pos done]
    exact ⟨rfl, rfl⟩
  · rw [if_neg done, loadSrc]
    cases c.srcBlock[c.src]? with
    | none => exact ⟨rfl, rfl⟩
    | some b => exact ⟨rfl, rfl⟩

theorem stays_fetchShort : Stays fetchShort := by
  intro c
  simp only [fetchShort, run_get_bind]
  by_cases done : c.srcPos + 1 ≥ c.srcLen
  · rw [if_pos done]
    exact ⟨rfl, rfl⟩
  · rw [if_neg done, loadSrc, loadSrc]
    cases c.srcBlock[c.src]? with
    | none => exact ⟨rfl, rfl⟩
    | some low =>
        cases c.srcBlock[c.src + 1]? with
        | none => exact ⟨rfl, rfl⟩
        | some high => exact ⟨rfl, rfl⟩

/-- Storing a byte and moving on, or failing to. -/
theorem moves_storeDst {step : Nat} (i : Nat) (b : UInt8) {next : DecCxt → DecCxt}
    (forward : ∀ c, (next c).dst = c.dst + step ∧ (next c).dstPos = c.dstPos + 1) :
    Moves step (do storeDst i b; modify next) := by
  intro c
  by_cases inside : i < c.dstBlock.length
  · have run : (do storeDst i b; modify next : EStateM Stop DecCxt Unit) c =
        .ok ⟨⟩ (next { c with dstBlock := c.dstBlock.set i b }) := by
      rw [bind_ok (run_storeDst c inside b), run_modify]
    rw [run]
    exact forward _
  · have run : (do storeDst i b; modify next : EStateM Stop DecCxt Unit) c = .error .fault c := by
      apply bind_error
      simp only [storeDst, run_get_bind, if_neg inside, run_throw]
    rw [run]
    exact ⟨rfl, rfl⟩

theorem moves_copyByte : Moves 1 copyByte := by
  intro c
  simp only [copyByte, run_get_bind]
  by_cases done : c.srcPos ≥ c.srcLen
  · rw [if_pos done]
    exact ⟨rfl, rfl⟩
  rw [if_neg done]
  by_cases full : c.dstPos ≥ c.dstLen
  · rw [if_pos full]
    exact ⟨rfl, rfl⟩
  rw [if_neg full, loadSrc]
  cases c.srcBlock[c.src]? with
  | none => exact ⟨rfl, rfl⟩
  | some b => exact moves_storeDst c.dst b (fun _ => ⟨rfl, rfl⟩) c

theorem moves_offsetCopy (offset : Int) : Moves 1 (offsetCopy offset) := by
  intro c
  simp only [offsetCopy, run_get_bind]
  by_cases early : CInt.ofInt (CInt.ofInt c.dstPos + offset) < 0
  · rw [if_pos early]
    exact ⟨rfl, rfl⟩
  rw [if_neg early]
  by_cases full : c.dstPos ≥ c.dstLen
  · rw [if_pos full]
    exact ⟨rfl, rfl⟩
  rw [if_neg full, loadDst]
  by_cases before : (c.dst : Int) + offset < 0
  · rw [if_pos before]
    exact ⟨rfl, rfl⟩
  rw [if_neg before]
  cases c.dstBlock[((c.dst : Int) + offset).toNat]? with
  | none => exact ⟨rfl, rfl⟩
  | some b => exact moves_storeDst c.dst b (fun _ => ⟨rfl, rfl⟩) c

/-- Growing the buffer leaves the place where it is. -/
theorem run_growDst_place (junk : Nat → UInt8) (c : DecCxt) :
    ∃ c', growDst junk c = .ok ⟨⟩ c' ∧ c'.dst = c.dst ∧ c'.dstPos = c.dstPos := by
  by_cases full : c.dstPos ≥ c.dstLen
  · refine ⟨{ c with
      dstBlock := realloc junk c.dstBlock (c.dstLen * 2), dstLen := c.dstLen * 2 }, ?_, rfl, rfl⟩
    simp only [growDst, run_get_bind, if_pos full, run_set]
  · refine ⟨c, ?_, rfl, rfl⟩
    simp only [growDst, run_get_bind, if_neg full, run_pure]

theorem moves_copyAbyte (junk : Nat → UInt8) : Moves 0 (copyAbyte junk) := by
  intro c
  simp only [copyAbyte, run_get_bind]
  by_cases done : c.srcPos ≥ c.srcLen
  · rw [if_pos done]
    exact ⟨rfl, rfl⟩
  obtain ⟨c', grown, hdst, hpos⟩ := run_growDst_place junk c
  rw [if_neg done, bind_ok grown, loadSrc, ← hdst, ← hpos]
  cases c.srcBlock[c.src]? with
  | none => exact ⟨rfl, rfl⟩
  | some b => exact moves_storeDst _ b (fun _ => ⟨rfl, rfl⟩) c'

theorem moves_offsetCopyAlloc (junk : Nat → UInt8) (offset : Int) :
    Moves 0 (offsetCopyAlloc junk offset) := by
  intro c
  simp only [offsetCopyAlloc, run_get_bind]
  by_cases early : CInt.ofInt (CInt.ofInt c.dstPos + offset) < 0
  · rw [if_pos early]
    exact ⟨rfl, rfl⟩
  obtain ⟨c', grown, hdst, hpos⟩ := run_growDst_place junk c
  rw [if_neg early, bind_ok grown, run_get_bind, loadDst, ← hdst, ← hpos]
  by_cases before : (c'.dst : Int) + c'.dstPos + offset < 0
  · rw [if_pos before]
    exact ⟨rfl, rfl⟩
  rw [if_neg before]
  cases c'.dstBlock[((c'.dst : Int) + c'.dstPos + offset).toNat]? with
  | none => exact ⟨rfl, rfl⟩
  | some b => exact moves_storeDst _ b (fun _ => ⟨rfl, rfl⟩) c'

/-! ## The callbacks with and without tracking -/

/-- The contexts are the same, the place written at is right, and everything before it
was written in this call. -/
def Follows (Fits : Nat → Nat → Prop) (c : DecCxt) (t : Tracked) : Prop :=
  t.cxt = c ∧ Fits c.dst c.dstPos ∧ ∀ i < c.dstPos, i ∈ t.written

/-- Neither side gives up on its own. -/
def NeverGives : DecCxt → Stop → Prop := fun _ _ => False

section Follows

variable {Fits : Nat → Nat → Prop}

theorem sim_lift {α : Type} {m : EStateM Stop DecCxt α} (stays : Stays m) :
    Sim (Follows Fits) NeverGives m (lift m) := by
  refine ⟨?_, fun _ _ h => h⟩
  rintro _ ⟨c, written⟩ ⟨rfl, fits, past⟩
  obtain ⟨hdst, hpos⟩ := stays c
  simp only [lift]
  cases run : m c with
  | ok a c' =>
      simp only [run, endState] at hdst hpos
      refine .ok a ⟨rfl, ?_, ?_⟩
      · rw [hdst, hpos]
        exact fits
      · rw [hpos]
        exact past
  | error e c' =>
      simp only [run, endState] at hdst hpos
      refine .error e ⟨rfl, ?_, ?_⟩
      · rw [hdst, hpos]
        exact fits
      · rw [hpos]
        exact past

/-- After a byte was written at the end, everything before the new end was written. -/
theorem past_next {pos : Nat} {written : List Nat} (past : ∀ i < pos, i ∈ written) :
    ∀ i < pos + 1, i ∈ pos :: written := by
  intro i hi
  rcases Nat.lt_succ_iff_lt_or_eq.mp hi with before | here
  · exact List.mem_cons_of_mem _ (past i before)
  · exact here ▸ List.mem_cons_self

variable {step : Nat} {m : EStateM Stop DecCxt Unit} {target : DecCxt → Nat}
variable (moves : Moves step m) (forward : ∀ dst pos, Fits dst pos → Fits (dst + step) (pos + 1))
variable (atEnd : ∀ c, Fits c.dst c.dstPos → target c = c.dstPos)

include moves forward atEnd

theorem sim_tracksStore : Sim (Follows Fits) NeverGives m (tracksStore m target) := by
  refine ⟨?_, fun _ _ h => h⟩
  rintro _ ⟨c, written⟩ ⟨rfl, fits, past⟩
  have moved := moves c
  simp only [tracksStore]
  cases run : m c with
  | ok a c' =>
      rw [run] at moved
      obtain ⟨hdst, hpos⟩ := moved
      refine .ok a ⟨rfl, ?_, ?_⟩
      · rw [hdst, hpos]
        exact forward _ _ fits
      · rw [hpos, atEnd c fits]
        exact past_next past
  | error e c' =>
      rw [run] at moved
      obtain ⟨hdst, hpos⟩ := moved
      refine .error e ⟨rfl, ?_, ?_⟩
      · rw [hdst, hpos]
        exact fits
      · rw [hpos]
        exact past

theorem sim_tracksCopy {source : DecCxt → Int}
    (inside : ∀ c c', Fits c.dst c.dstPos → m c = .ok ⟨⟩ c' →
      ∃ i < c.dstPos, (i : Int) = source c) :
    Sim (Follows Fits) NeverGives m (tracksCopy m source target) := by
  refine ⟨?_, fun _ _ h => h⟩
  rintro _ ⟨c, written⟩ ⟨rfl, fits, past⟩
  have moved := moves c
  simp only [tracksCopy]
  cases run : m c with
  | ok a c' =>
      rw [run] at moved
      obtain ⟨hdst, hpos⟩ := moved
      obtain ⟨i, hi, source_i⟩ := inside c c' fits run
      have known : ∃ i ∈ written, (i : Int) = source c := ⟨i, past i hi, source_i⟩
      simp only [if_pos known]
      refine .ok a ⟨rfl, ?_, ?_⟩
      · rw [hdst, hpos]
        exact forward _ _ fits
      · rw [hpos, atEnd c fits]
        exact past_next past
  | error e c' =>
      rw [run] at moved
      obtain ⟨hdst, hpos⟩ := moved
      refine .error e ⟨rfl, ?_, ?_⟩
      · rw [hdst, hpos]
        exact fits
      · rw [hpos]
        exact past

end Follows

theorem passed_offsetCopy {offset : Int} {c c' : DecCxt} (run : offsetCopy offset c = .ok ⟨⟩ c') :
    ¬ CInt.ofInt (CInt.ofInt c.dstPos + offset) < 0 := by
  intro early
  simp only [offsetCopy, run_get_bind, if_pos early] at run
  contradiction

theorem passed_offsetCopyAlloc {junk : Nat → UInt8} {offset : Int} {c c' : DecCxt}
    (run : offsetCopyAlloc junk offset c = .ok ⟨⟩ c') :
    ¬ CInt.ofInt (CInt.ofInt c.dstPos + offset) < 0 := by
  intro early
  simp only [offsetCopyAlloc, run_get_bind, if_pos early] at run
  contradiction

theorem inStep_trackedBuf (junk : Nat → UInt8) :
    Callbacks.InStep (Follows fun dst _ => dst = 0) NeverGives (bufCallbacks junk)
      (trackedBufCallbacks junk) where
  copyByte := by
    refine @sim_tracksStore _ _ _ (fun c => c.dst + c.dstPos) (moves_copyAbyte junk) ?_ ?_
    · intro dst pos h
      exact h
    · intro c h
      rw [h, Nat.zero_add]
  offsetCopy := by
    intro offset hlow hneg
    refine @sim_tracksCopy _ _ _ (fun c => c.dst + c.dstPos) (moves_offsetCopyAlloc junk offset)
      ?_ ?_ (fun c => c.dst + c.dstPos + offset) ?_
    · intro dst pos h
      exact h
    · intro c h
      rw [h, Nat.zero_add]
    · intro c c' h run
      obtain ⟨i, hi, hlt⟩ := place_inside hlow hneg (passed_offsetCopyAlloc run)
      refine ⟨i, hlt, ?_⟩
      rw [h, ← hi]
      omega
  fetchBit := sim_lift stays_fetchBit
  fetchByte := sim_lift stays_fetchByte
  fetchShort := sim_lift stays_fetchShort
  dstPos := by
    rintro _ t ⟨rfl, -, -⟩
    rfl

theorem inStep_trackedBuf2 :
    Callbacks.InStep (Follows fun dst pos => dst = pos) NeverGives buf2Callbacks
      trackedBuf2Callbacks where
  copyByte := by
    refine @sim_tracksStore _ _ _ (fun c => c.dst) moves_copyByte ?_ ?_
    · intro dst pos h
      rw [h]
    · intro c h
      exact h
  offsetCopy := by
    intro offset hlow hneg
    refine @sim_tracksCopy _ _ _ (fun c => c.dst) (moves_offsetCopy offset) ?_ ?_
      (fun c => c.dst + offset) ?_
    · intro dst pos h
      rw [h]
    · intro c h
      exact h
    · intro c c' h run
      obtain ⟨i, hi, hlt⟩ := place_inside hlow hneg (passed_offsetCopy run)
      refine ⟨i, hlt, ?_⟩
      rw [h, ← hi]
  fetchBit := sim_lift stays_fetchBit
  fetchByte := sim_lift stays_fetchByte
  fetchShort := sim_lift stays_fetchShort
  dstPos := by
    rintro _ t ⟨rfl, -, -⟩
    rfl

/-! ## The public functions -/

/-- Tracking changes nothing about `prs_decompress_buf`. -/
theorem trackedDecompressBuf_eq (junk : Nat → UInt8) (src : List UInt8) :
    trackedDecompressBuf junk src = prsDecompressBuf junk src := by
  have start : Follows (fun dst _ => dst = 0)
      (memCxt src (malloc junk (src.length * 2)) (src.length * 2))
      ⟨memCxt src (malloc junk (src.length * 2)) (src.length * 2), []⟩ :=
    ⟨rfl, rfl, fun i hi => absurd hi (Nat.not_lt_zero i)⟩
  have same := (sim_doDecompress (inStep_trackedBuf junk) (passes src)).run _ _ start
  rw [trackedDecompressBuf, prsDecompressBuf, decompressBufRun]
  generalize doDecompress (bufCallbacks junk) (passes src)
    (memCxt src (malloc junk (src.length * 2)) (src.length * 2)) = plain at same
  generalize doDecompress (trackedBufCallbacks junk) (passes src)
    ⟨memCxt src (malloc junk (src.length * 2)) (src.length * 2), []⟩ = tracked at same
  cases same with
  | ok a related =>
      obtain ⟨rfl, -, -⟩ := related
      rfl
  | error e related =>
      obtain ⟨rfl, -, -⟩ := related
      rfl
  | gave allowed => exact allowed.elim

/-- Tracking changes nothing about `prs_decompress_buf2`. -/
theorem trackedDecompressBuf2_eq (src dst : List UInt8) :
    trackedDecompressBuf2 src dst = prsDecompressBuf2 src dst := by
  have start : Follows (fun dst pos => dst = pos) (memCxt src dst dst.length)
      ⟨memCxt src dst dst.length, []⟩ :=
    ⟨rfl, rfl, fun i hi => absurd hi (Nat.not_lt_zero i)⟩
  have same := (sim_doDecompress inStep_trackedBuf2 (passes src)).run _ _ start
  rw [trackedDecompressBuf2, prsDecompressBuf2]
  generalize doDecompress buf2Callbacks (passes src) (memCxt src dst dst.length) = plain at same
  generalize doDecompress trackedBuf2Callbacks (passes src) ⟨memCxt src dst dst.length, []⟩ =
    tracked at same
  cases same with
  | ok a related =>
      obtain ⟨rfl, -, -⟩ := related
      rfl
  | error e related =>
      obtain ⟨rfl, -, -⟩ := related
      rfl
  | gave allowed => exact allowed.elim

/-- A function returns, and touches nothing that it should not. -/
def Safe {α : Type} (result : Except Stop α) : Prop :=
  ∀ stop, result = .error stop → ∃ code, stop = .ret code

theorem Safe.ok {α : Type} (a : α) : Safe (.ok a : Except Stop α) := by
  intro stop h
  contradiction

theorem Safe.ret {α : Type} (code : Int) : Safe (.error (.ret code) : Except Stop α) := by
  intro stop h
  exact ⟨code, (Except.error.inj h).symm⟩

/-- The decoder without buffers ends with a value, or for lack of data. -/
theorem run_returns (src : List UInt8) :
    (∃ d, Decoder.run src = .error (.ret (-EBADMSG)) d) ∨ ∃ rv d, Decoder.run src = .ok rv d := by
  rcases Decoder.run_cases src with ⟨d, stops⟩ | ⟨tokens, pad, trailing, next, -, -, ends⟩
  · exact Or.inl ⟨d, stops⟩
  · exact Or.inr ⟨_, _, ends⟩

theorem safe_prsDecompressBuf (junk : Nat → UInt8) (src : List UInt8) :
    Safe (prsDecompressBuf junk src) := by
  by_cases short : src.length < 3
  · rw [prsDecompressBuf]
    split_ifs
    · exact Safe.ret _
    · exact Safe.ret _
  rw [prsDecompressBuf_eq_returnBuffer (Nat.le_of_not_lt short)]
  have same := lockstep_buf (Nat.le_of_not_lt short) junk
  generalize decompressBufRun junk src = plain at same ⊢
  rcases run_returns src with ⟨d, stops⟩ | ⟨rv, d, ends⟩
  · rw [stops] at same
    cases same with
    | error e related => exact Safe.ret _
    | gave allowed => exact allowed.elim
  · rw [ends] at same
    cases same with
    | ok a related =>
        simp only [returnBuffer]
        split_ifs
        · exact Safe.ret _
        · exact Safe.ok _
    | gave allowed => exact allowed.elim

theorem safe_prsDecompressBuf2 (src dst : List UInt8) : Safe (prsDecompressBuf2 src dst).1 := by
  rw [prsDecompressBuf2]
  split_ifs with none short
  · exact Safe.ret _
  · exact Safe.ret _
  have same := (sim_doDecompress (inStep_buf2 dst.length) (passes src)).run _ _
    (mirrors_memCxt src dst dst.length ⟨rfl, rfl, rfl, rfl, Nat.zero_le _, rfl⟩)
  change Lockstep _ _ (Decoder.run src) _ at same
  generalize doDecompress buf2Callbacks (passes src) (memCxt src dst dst.length) = plain at same ⊢
  rcases run_returns src with ⟨d, stops⟩ | ⟨rv, d, ends⟩
  · rw [stops] at same
    cases same with
    | error e related => exact Safe.ret _
    | gave allowed =>
        obtain ⟨rfl, -⟩ := allowed
        exact Safe.ret _
  · rw [ends] at same
    cases same with
    | ok a related => exact Safe.ok _
    | gave allowed =>
        obtain ⟨rfl, -⟩ := allowed
        exact Safe.ret _

theorem safe_prsDecompressSize (src : List UInt8) : Safe (prsDecompressSize src) := by
  by_cases short : src.length < 3
  · rw [prsDecompressSize]
    split_ifs
    · exact Safe.ret _
    · exact Safe.ret _
  rw [prsDecompressSize_eq (Nat.le_of_not_lt short), Decoder.returned]
  rcases run_returns src with ⟨d, stops⟩ | ⟨rv, d, ends⟩
  · rw [stops]
    exact Safe.ret _
  · rw [ends]
    exact Safe.ok _

/-- On every source, and into every destination, the decoding functions return, read
only the source and write only the destination; and they return what they return when
every copy has to be from a byte written before in the same call. -/
theorem decompress_safe (junk : Nat → UInt8) (src dst : List UInt8) :
    (Safe (prsDecompressBuf junk src) ∧
      trackedDecompressBuf junk src = prsDecompressBuf junk src) ∧
    (Safe (prsDecompressBuf2 src dst).1 ∧
      trackedDecompressBuf2 src dst = prsDecompressBuf2 src dst) ∧
    Safe (prsDecompressSize src) :=
  ⟨⟨safe_prsDecompressBuf junk src, trackedDecompressBuf_eq junk src⟩,
    ⟨safe_prsDecompressBuf2 src dst, trackedDecompressBuf2_eq src dst⟩,
    safe_prsDecompressSize src⟩

end Sylverant.Prs
