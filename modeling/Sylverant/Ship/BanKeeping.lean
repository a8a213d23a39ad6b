/-
# What becomes of bans

A ban is kept until it is lifted, or until it is over and somebody looks. The list of a ship is
compared with all that was done since it started. Three things go wrong. When a ban is lifted
that is also over, its entry is removed and freed twice. When an element of the file cannot be
created, the lock is not given back. And nobody looks whether the file was written.
-/

import Mathlib.Algebra.GroupWithZero.Nat
import Mathlib.Data.List.Induction
import Sylverant.Library.Run
import Sylverant.Ship.Bans

namespace Sylverant.Ship.Bans

/-! ## What should be kept -/

/-- What is done with the bans of a ship. They are loaded when it starts. -/
inductive Op
  | load (endTime startTime : Time) (setBy guildcard : UInt32) (reason : String) (memory : Bool)
  | ban (endTime : Time) (setBy guildcard : UInt32) (reason : String) (now : Time) (memory : Bool)
      (io : Saving)
  | lift (guildcard : UInt32) (now : Time) (stale : Ban → Time) (io : Saving)
  | sweep (now : Time) (io : Saving)
  | query (guildcard : UInt32) (now : Time)

/-- What is given back for it. -/
inductive Reply
  | code (rv : Int)
  | answer (ban : Option (String × Time))
  deriving DecidableEq

/-- Do it. There is no result if it waits for ever. -/
def State.perform (s : State) : Op → Option (Reply × State)
  | .load endTime startTime setBy guildcard reason memory =>
      (banGcInt s endTime startTime setBy guildcard reason memory).map fun r => (.code r.1, r.2)
  | .ban endTime setBy guildcard reason now memory io =>
      (banGuildcard s endTime setBy guildcard reason now memory io).map fun r => (.code r.1, r.2)
  | .lift guildcard now stale io =>
      (banLiftGuildcardBan s guildcard now stale io).map fun r => (.code r.1, r.2)
  | .sweep now io => (banSweepGuildcards s now io).map fun r => (.code r.1, r.2)
  | .query guildcard now => (queryBan s guildcard now).map fun r => (.answer r.1, r.2)

/-- The ban that is added, after `n` others. -/
def Op.adds (n : Nat) : Op → Option Ban
  | load endTime startTime setBy guildcard reason true =>
      some ⟨n, reason, startTime, endTime, setBy, guildcard⟩
  | ban endTime setBy guildcard reason now true _ =>
      some ⟨n, reason, now, endTime, setBy, guildcard⟩
  | _ => none

/-- How many bans are added. -/
def Op.count : Op → Nat
  | load _ _ _ _ _ memory => memory.toNat
  | ban _ _ _ _ _ memory _ => memory.toNat
  | _ => 0

/-- A ban that is there is lifted, or swept because it is over. -/
def Op.Removes (b : Ban) : Op → Prop
  | lift guildcard now _ _ => b.bannedGc = guildcard ∨ b.Over now
  | sweep now _ => b.Over now
  | _ => False

instance (b : Ban) : (op : Op) → Decidable (op.Removes b)
  | .load .. => inferInstanceAs (Decidable False)
  | .ban .. => inferInstanceAs (Decidable False)
  | .lift guildcard now _ _ => inferInstanceAs (Decidable (b.bannedGc = guildcard ∨ b.Over now))
  | .sweep now _ => inferInstanceAs (Decidable (b.Over now))
  | .query .. => inferInstanceAs (Decidable False)

/-- The bans that were added and not removed by anything that came later, in the order in which
they were added. `n` were added before. -/
def survivors : Nat → List Op → List Ban
  | _, [] => []
  | n, op :: later =>
      (op.adds n).toList.filter (fun b => ∀ op' ∈ later, ¬ op'.Removes b) ++
        survivors (n + op.count) later

/-- How many bans were added. -/
def added (ops : List Op) : Nat := (ops.map Op.count).sum

/-- The state after some operations is as it should be: the list holds the bans that are left,
the lock is free, and each entry was freed once or is in the list. -/
structure Kept (ops : List Op) (s : State) : Prop where
  bans : s.guildcardBans = survivors 0 ops
  lock : s.banlock = {}
  next : s.next = added ops
  once : (s.freed ++ s.guildcardBans.map Ban.id).Perm (List.range s.next)

/-- The document for the file is complete. -/
def Builds (bansFile : String) (io : Saving) (bans : List Ban) : Prop :=
  (bansFile ≠ "" ∧ io.doc ∧ io.root ∧ io.dtd) ∧
    ∀ k < (bans.filter fun b => ¬ b.Over io.now).length, io.node k

/-- What an operation frees and gives back. -/
def Proper (s : State) (op : Op) (reply : Reply) (s' : State) : Prop :=
  s'.freed = s.freed ++ (s.guildcardBans.filter fun b => op.Removes b).map Ban.id ∧
    match op with
    | .lift guildcard _ _ io =>
        ∃ rv, reply = .code rv ∧ (rv = 0 ↔ (∃ b ∈ s.guildcardBans, b.bannedGc = guildcard) ∧
          Builds s.bansFile io s'.guildcardBans ∧ io.written)
    | .query guildcard now =>
        ∃ ban, reply = .answer ban ∧
          (ban.isSome ↔ ∃ b ∈ s.guildcardBans, b.Holds guildcard now)
    | _ => True

/-! ## When it is kept -/

/-- The list after an operation. -/
def State.after (s : State) (op : Op) : List Ban :=
  s.guildcardBans.filter (fun b => ¬ op.Removes b) ++ (op.adds s.next).toList

/-- Every element that has to be created is created. -/
def Creates (bansFile : String) (io : Saving) (bans : List Ban) : Prop :=
  (bansFile ≠ "" ∧ io.doc ∧ io.root ∧ io.dtd) →
    ∀ k < (bans.filter fun b => ¬ b.Over io.now).length, io.node k

/-- Nothing goes wrong: no entry that was freed looks as if it were over, every element of the
file that is needed is created, and it is written when that decides what a lift gives back. -/
def Fine (s : State) (op : Op) : Prop :=
  match op with
  | .load .. => True
  | .ban _ _ _ _ _ memory io => memory → Creates s.bansFile io (s.after op)
  | .lift guildcard now stale io =>
      (∀ b ∈ s.guildcardBans, b.bannedGc = guildcard → ¬ (stale b ≠ -1 ∧ stale b < now)) ∧
      ((∃ b ∈ s.guildcardBans, op.Removes b) → Creates s.bansFile io (s.after op)) ∧
      ((∃ b ∈ s.guildcardBans, b.bannedGc = guildcard) →
        Builds s.bansFile io (s.after op) → io.written)
  | .sweep now io =>
      (∃ b ∈ s.guildcardBans, b.Over now) → Creates s.bansFile io (s.after op)
  | .query .. => True

/-! ## The list -/

variable {s : State} {b : Ban} {bans : List Ban} {io : Saving}

theorem survivors_append (op : Op) (ops : List Op) (n : Nat) :
    survivors n (ops ++ [op]) =
      (survivors n ops).filter (fun b => ¬ op.Removes b) ++ (op.adds (n + added ops)).toList := by
  induction ops generalizing n with
  | nil => simp [survivors, added]
  | cons first later ih =>
      have total : n + first.count + added later = n + added (first :: later) := by
        simp only [added, List.map_cons, List.sum_cons]
        omega
      rw [List.cons_append, survivors, ih, total, survivors, List.filter_append,
        List.filter_filter, List.append_assoc]
      congr 1
      apply List.filter_congr
      intro b _
      simp [or_imp, forall_and, and_comm]

/-- The entries of the rest of the list that are gone are taken out one by one, in their order. -/
theorem foldl_remove {α : Type} {gone : Ban → Bool} {count : α → Ban → α}
    {f : State × α → Ban → State × α} {front todo : List Ban} {a : α}
    (hf : ∀ s a, ∀ b ∈ todo, f (s, a) b = if gone b then (s.remove b, count a b) else (s, a))
    (list : s.guildcardBans = front ++ todo) (nodup : (front ++ todo).Nodup) :
    todo.foldl f (s, a) =
      ({ s with
          guildcardBans := front ++ todo.filter (fun b => ¬ gone b)
          freed := s.freed ++ (todo.filter gone).map Ban.id },
        (todo.filter gone).foldl count a) := by
  induction todo generalizing s a front with
  | nil => simp [← list]
  | cons b todo ih =>
      have later : ∀ s a, ∀ b ∈ todo,
          f (s, a) b = if gone b then (s.remove b, count a b) else (s, a) :=
        fun s a b' h => hf s a b' (List.mem_cons_of_mem b h)
      rw [List.foldl_cons, hf s a b List.mem_cons_self]
      cases taken : gone b with
      | true =>
          have fresh : b ∉ front := by
            intro h
            exact (List.nodup_append.mp nodup).2.2 b h b List.mem_cons_self rfl
          have erased : (s.remove b).guildcardBans = front ++ todo := by
            rw [State.remove, list, List.erase_append_right _ fresh, List.erase_cons_head]
          have rest : (front ++ todo).Nodup :=
            nodup.sublist ((List.sublist_cons_self b todo).append_left front)
          rw [if_pos rfl, ih later erased rest, List.filter_cons_of_pos taken,
            List.filter_cons_of_neg (p := fun b => ¬ gone b) (by simp [taken]), List.foldl_cons,
            List.map_cons]
          simp only [State.remove, List.append_assoc, List.singleton_append]
      | false =>
          have kept : s.guildcardBans = (front ++ [b]) ++ todo := by
            rw [list, List.append_assoc, List.singleton_append]
          have rest : ((front ++ [b]) ++ todo).Nodup := by
            rw [List.append_assoc, List.singleton_append]
            exact nodup
          rw [if_neg Bool.false_ne_true, ih later kept rest,
            List.filter_cons_of_neg (p := gone) (by simp [taken]),
            List.filter_cons_of_pos (p := fun b => ¬ gone b) (by simp [taken]),
            List.append_assoc, List.singleton_append]

/-- The entries that a lift or a sweep removes leave the rest of the list as it was. -/
theorem Kept.nodup {ops : List Op} (h : Kept ops s) : s.guildcardBans.Nodup := by
  have ids : (s.freed ++ s.guildcardBans.map Ban.id).Nodup :=
    h.once.nodup_iff.mpr List.nodup_range
  exact (List.nodup_append.mp ids).2.1.of_map Ban.id

/-! ## Saving -/

theorem addNodes_of_created (n : Nat)
    (created : ∀ k < (bans.filter fun b => ¬ b.Over io.now).length, io.node (n + k)) :
    addNodes io n bans = some ((bans.filter fun b => ¬ b.Over io.now).map Ban.node) := by
  induction bans generalizing n with
  | nil => rfl
  | cons b bans ih =>
      by_cases gone : b.Over io.now
      · rw [List.filter_cons_of_neg (by simp [gone])] at created ⊢
        rw [addNodes, if_pos gone]
        exact ih n created
      · rw [List.filter_cons_of_pos (by simp [gone])] at created ⊢
        have first : io.node n := created 0 (Nat.succ_pos _)
        rw [addNodes, if_neg gone, if_pos first, ih (n + 1), List.map_cons]
        · rfl
        · intro k small
          rw [Nat.add_assoc, Nat.add_comm 1 k]
          exact created (k + 1) (Nat.succ_lt_succ small)

/-- When nothing goes wrong, the lock is free again, and nothing is returned but for a
document that could be built. -/
theorem writeBansList_of_creates (lock : s.banlock = {})
    (created : Creates s.bansFile io s.guildcardBans) :
    ∃ rv file, writeBansList s io = some (rv, {}, file) ∧
      (rv = 0 ↔ Builds s.bansFile io s.guildcardBans) := by
  by_cases started : s.bansFile ≠ "" ∧ io.doc ∧ io.root ∧ io.dtd
  · obtain ⟨named, doc, root, dtd⟩ := started
    have nodes := created ⟨named, doc, root, dtd⟩
    have made := @addNodes_of_created s.guildcardBans io 0 (by simpa using nodes)
    refine ⟨0, if io.written then
        some ((s.guildcardBans.filter fun b => ¬ b.Over io.now).map Ban.node) else none, ?_,
      iff_of_true rfl ⟨⟨named, doc, root, dtd⟩, nodes⟩⟩
    rw [writeBansList, if_neg named, if_neg (by simp [doc]), if_neg (by simp [root]),
      if_neg (by simp [dtd]), lock, made]
    rfl
  · have never (rv : Int) (h : rv ≠ 0) : rv = 0 ↔ Builds s.bansFile io s.guildcardBans :=
      iff_of_false h fun builds => started builds.1
    rw [writeBansList, lock]
    by_cases named : s.bansFile = ""
    · exact ⟨-1, none, if_pos named, never (-1) (by decide)⟩
    rw [if_neg named]
    by_cases doc : io.doc
    · rw [if_neg (by simp [doc])]
      by_cases root : io.root
      · rw [if_neg (by simp [root])]
        have dtd : ¬ io.dtd := fun dtd => started ⟨named, doc, root, dtd⟩
        exact ⟨-4, none, if_pos dtd, never (-4) (by decide)⟩
      · exact ⟨-3, none, if_pos root, never (-3) (by decide)⟩
    · exact ⟨-2, none, if_pos doc, never (-2) (by decide)⟩

/-! ## One operation -/

/-- The state after an operation that goes as it should. -/
def State.done (s : State) (op : Op) : State :=
  { s with
    guildcardBans := s.after op
    banlock := {}
    next := s.next + op.count
    freed := s.freed ++ (s.guildcardBans.filter fun b => op.Removes b).map Ban.id }

theorem ids_adds (op : Op) (n : Nat) :
    (op.adds n).toList.map Ban.id = (List.range op.count).map (n + ·) := by
  cases op with
  | load _ _ _ _ _ memory => cases memory <;> rfl
  | ban _ _ _ _ _ memory _ => cases memory <;> rfl
  | lift _ _ _ _ => rfl
  | sweep _ _ => rfl
  | query _ _ => rfl

/-- What an operation should do keeps the state as it should be. -/
theorem Kept.done {ops : List Op} (h : Kept ops s) (op : Op) : Kept (ops ++ [op]) (s.done op) where
  bans := by
    rw [survivors_append, Nat.zero_add, ← h.next, ← h.bans]
    rfl
  lock := rfl
  next := by
    have more : added (ops ++ [op]) = added ops + op.count := by
      simp [added]
    rw [more, ← h.next]
    rfl
  once := by
    change (s.freed ++ (s.guildcardBans.filter fun b => op.Removes b).map Ban.id ++
      (s.guildcardBans.filter (fun b => ¬ op.Removes b) ++ (op.adds s.next).toList).map
        Ban.id).Perm (List.range (s.next + op.count))
    have parts : ((s.guildcardBans.filter fun b => op.Removes b) ++
        s.guildcardBans.filter fun b => ¬ op.Removes b).Perm s.guildcardBans := by
      have split := List.filter_append_perm (fun b => decide (op.Removes b)) s.guildcardBans
      simpa only [decide_not] using split
    rw [List.map_append, ids_adds, List.range_add, List.append_assoc, ← List.append_assoc
      ((s.guildcardBans.filter fun b => op.Removes b).map Ban.id), ← List.map_append,
      ← List.append_assoc]
    exact (((parts.map Ban.id).append_left s.freed).trans h.once).append_right _

/-- Nothing is taken from the list. -/
theorem done_of_none {op : Op} (none : ¬ ∃ b ∈ s.guildcardBans, op.Removes b) :
    s.done op =
      { s with
        guildcardBans := s.guildcardBans ++ (op.adds s.next).toList
        banlock := {}
        next := s.next + op.count } := by
  have stay : (s.guildcardBans.filter fun b => ¬ op.Removes b) = s.guildcardBans := by
    rw [List.filter_eq_self]
    intro b hb
    exact decide_eq_true fun h => none ⟨b, hb, h⟩
  have gone : (s.guildcardBans.filter fun b => op.Removes b) = [] := by
    rw [List.filter_eq_nil_iff]
    intro b hb
    rw [decide_eq_true_eq]
    exact fun h => none ⟨b, hb, h⟩
  rw [State.done, State.after, stay, gone, List.map_nil, List.append_nil]

/-- A new entry goes to the end of the list, if there is memory for it. -/
theorem banGcInt_eq (lock : s.banlock = {}) (endTime startTime : Time) (setBy guildcard : UInt32)
    (reason : String) (memory : Bool) :
    banGcInt s endTime startTime setBy guildcard reason memory =
      some (if memory then 0 else -1,
        s.done (.load endTime startTime setBy guildcard reason memory)) := by
  rw [done_of_none (fun ⟨_, _, h⟩ => h), ← lock]
  cases memory with
  | false =>
      rw [banGcInt, if_pos (by decide)]
      simp [Op.adds, Op.count]
  | true =>
      rw [banGcInt, if_neg (by decide), lock]
      rfl

variable {ops : List Op}

theorem perform_load (h : Kept ops s) (endTime startTime : Time) (setBy guildcard : UInt32)
    (reason : String) (memory : Bool) :
    ∃ reply, s.perform (.load endTime startTime setBy guildcard reason memory) =
      some (reply, s.done (.load endTime startTime setBy guildcard reason memory)) := by
  rw [State.perform, banGcInt_eq h.lock]
  exact ⟨_, rfl⟩

theorem perform_ban (h : Kept ops s) (endTime : Time) (setBy guildcard : UInt32)
    (reason : String) (now : Time) (memory : Bool) (io : Saving)
    (fine : Fine s (.ban endTime setBy guildcard reason now memory io)) :
    ∃ reply, s.perform (.ban endTime setBy guildcard reason now memory io) =
      some (reply, s.done (.ban endTime setBy guildcard reason now memory io)) := by
  have same : s.done (.load endTime now setBy guildcard reason memory) =
      s.done (.ban endTime setBy guildcard reason now memory io) := by
    cases memory <;> rfl
  rw [State.perform, banGuildcard, banGcInt_eq h.lock, same]
  cases memory with
  | false => exact ⟨.code (-1), rfl⟩
  | true =>
      obtain ⟨rv, file, wrote, -⟩ := @writeBansList_of_creates
        (s.done (.ban endTime setBy guildcard reason now true io)) io rfl (fine rfl)
      refine ⟨.code (if rv ≠ 0 then -2 else 0), ?_⟩
      simp only [Option.bind_eq_bind, Option.bind_some, wrote]
      rfl

theorem perform_query (h : Kept ops s) (guildcard : UInt32) (now : Time) :
    ∃ ban, s.perform (.query guildcard now) =
        some (.answer ban, s.done (.query guildcard now)) ∧
      (ban.isSome ↔ ∃ b ∈ s.guildcardBans, b.Holds guildcard now) := by
  refine ⟨isGuildcardBanned s.guildcardBans guildcard now, ?_, ?_⟩
  · rw [done_of_none (fun ⟨_, _, h⟩ => h), State.perform, queryBan, h.lock]
    simp [Op.adds, Op.count, Lock.rdlock, Lock.unlock]
  · rw [isGuildcardBanned, Option.isSome_map, List.find?_isSome]
    simp

/-- An entry counts as lifted, and as a match if its card is the one. -/
def counted (guildcard : UInt32) (n : Nat × Nat) (b : Ban) : Nat × Nat :=
  (n.1 + 1, if b.bannedGc = guildcard then n.2 + 1 else n.2)

theorem foldl_counted (guildcard : UInt32) (bans : List Ban) (n : Nat × Nat) :
    bans.foldl (counted guildcard) n =
      (n.1 + bans.length, n.2 + bans.countP fun b => b.bannedGc = guildcard) := by
  induction bans generalizing n with
  | nil => rfl
  | cons b bans ih =>
      rw [List.foldl_cons, ih, counted, List.length_cons, List.countP_cons]
      by_cases hit : b.bannedGc = guildcard <;> simp [hit] <;> omega

/-- The loop of a lift takes out what the lift removes. -/
theorem foldl_liftEntry (nodup : s.guildcardBans.Nodup) {guildcard : UInt32} {now : Time}
    {stale : Ban → Time} (io : Saving)
    (hidden : ∀ b ∈ s.guildcardBans, b.bannedGc = guildcard → ¬ (stale b ≠ -1 ∧ stale b < now)) :
    ∃ lifted matching,
      s.guildcardBans.foldl (liftEntry guildcard now stale) (s, 0, 0) =
        ({ s with
            guildcardBans := s.after (.lift guildcard now stale io)
            freed := s.freed ++ (s.guildcardBans.filter fun b =>
              (Op.lift guildcard now stale io).Removes b).map Ban.id }, lifted, matching) ∧
      (lifted ≠ 0 ↔ ∃ b ∈ s.guildcardBans, (Op.lift guildcard now stale io).Removes b) ∧
      (matching ≠ 0 ↔ ∃ b ∈ s.guildcardBans, b.bannedGc = guildcard) := by
  have each : ∀ (s' : State) (n : Nat × Nat), ∀ b ∈ s.guildcardBans,
      liftEntry guildcard now stale (s', n) b =
        if decide ((Op.lift guildcard now stale io).Removes b) then
          (s'.remove b, counted guildcard n b) else (s', n) := by
    intro s' n b hb
    by_cases hit : b.bannedGc = guildcard
    · -- The entry that was just freed is taken for one that is not over.
      have removed : (Op.lift guildcard now stale io).Removes b := Or.inl hit
      simp only [liftEntry, hit, if_true, if_neg (hidden b hb hit), removed, decide_true, counted]
    · by_cases gone : b.Over now
      · have removed : (Op.lift guildcard now stale io).Removes b := Or.inr gone
        have late : b.endTime ≠ -1 ∧ b.endTime < now := gone
        simp only [liftEntry, hit, if_false, if_pos late, removed, decide_true, counted, if_true]
      · have kept : ¬ (Op.lift guildcard now stale io).Removes b := fun h => h.elim hit gone
        have early : ¬ (b.endTime ≠ -1 ∧ b.endTime < now) := gone
        simp only [liftEntry, hit, if_false, if_neg early, kept, decide_false, Bool.false_eq_true]
  have folded := @foldl_remove s (Nat × Nat) _ _ _ [] _ (0, 0) each rfl nodup
  have stay : [] ++ s.guildcardBans.filter (fun b =>
      decide ¬ decide ((Op.lift guildcard now stale io).Removes b) = true) =
      s.after (.lift guildcard now stale io) := by
    simp [State.after, Op.adds]
  rw [foldl_counted, stay] at folded
  refine ⟨_, _, folded, ?_, ?_⟩
  · rw [Nat.zero_add, ← Nat.pos_iff_ne_zero, List.length_pos_iff_exists_mem]
    simp
  · rw [Nat.zero_add, ← Nat.pos_iff_ne_zero, List.countP_pos_iff]
    constructor
    · rintro ⟨b, hb, hit⟩
      exact ⟨b, (List.mem_filter.mp hb).1, of_decide_eq_true hit⟩
    · rintro ⟨b, hb, hit⟩
      exact ⟨b, List.mem_filter.mpr ⟨hb, decide_eq_true (Or.inl hit)⟩, decide_eq_true hit⟩

theorem perform_lift (h : Kept ops s) (guildcard : UInt32) (now : Time) (stale : Ban → Time)
    (io : Saving) (fine : Fine s (.lift guildcard now stale io)) :
    ∃ rv, s.perform (.lift guildcard now stale io) =
        some (.code rv, s.done (.lift guildcard now stale io)) ∧
      (rv = 0 ↔ (∃ b ∈ s.guildcardBans, b.bannedGc = guildcard) ∧
        Builds s.bansFile io (s.after (.lift guildcard now stale io)) ∧ io.written) := by
  obtain ⟨hidden, creates, written⟩ := fine
  obtain ⟨lifted, matching, folded, any, hit⟩ :=
    @foldl_liftEntry { s with banlock := { writer := true } } h.nodup guildcard now stale io hidden
  have locked : s.banlock.wrlock = some { writer := true } := by
    rw [h.lock]
    rfl
  by_cases idle : lifted = 0
  · have none : ¬ ∃ b ∈ s.guildcardBans, (Op.lift guildcard now stale io).Removes b :=
      fun found => (any.mpr found) idle
    refine ⟨-1, ?_, iff_of_false (by decide) ?_⟩
    · rw [State.perform, banLiftGuildcardBan, locked]
      simp only [Option.bind_eq_bind, Option.bind_some, folded]
      rw [if_neg (not_not.mpr idle)]
      rfl
    · rintro ⟨⟨b, hb, same⟩, -⟩
      exact none ⟨b, hb, Or.inl same⟩
  · obtain ⟨rv, file, wrote, built⟩ := @writeBansList_of_creates
      (s.done (.lift guildcard now stale io)) io rfl (creates (any.mp idle))
    refine ⟨if rv ≠ 0 then -2 else if matching ≠ 0 then 0 else -1, ?_, ?_⟩
    · rw [State.perform, banLiftGuildcardBan, locked]
      simp only [Option.bind_eq_bind, Option.bind_some, folded]
      rw [if_pos idle]
      change Option.map _ ((writeBansList (s.done (.lift guildcard now stale io)) io).bind _) = _
      rw [wrote]
      rfl
    · have built : rv = 0 ↔ Builds s.bansFile io (s.after (.lift guildcard now stale io)) := built
      by_cases ok : rv = 0
      · rw [if_neg (not_not.mpr ok)]
        by_cases matched : matching ≠ 0
        · rw [if_pos matched]
          have found := hit.mp matched
          exact iff_of_true rfl ⟨found, built.mp ok, written found (built.mp ok)⟩
        · rw [if_neg matched]
          exact iff_of_false (by decide) fun right => matched (hit.mpr right.1)
      · rw [if_pos ok]
        exact iff_of_false (by decide) fun right => ok (built.mpr right.2.1)

/-- The loop of a sweep takes out what is over. -/
theorem foldl_sweepEntry (nodup : s.guildcardBans.Nodup) (now : Time) (io : Saving) :
    ∃ lifted,
      s.guildcardBans.foldl (sweepEntry now) (s, 0) =
        ({ s with
            guildcardBans := s.after (.sweep now io)
            freed := s.freed ++ (s.guildcardBans.filter fun b =>
              (Op.sweep now io).Removes b).map Ban.id }, lifted) ∧
      (lifted ≠ 0 ↔ ∃ b ∈ s.guildcardBans, b.Over now) := by
  have each : ∀ (s' : State) (n : Nat), ∀ b ∈ s.guildcardBans,
      sweepEntry now (s', n) b =
        if decide ((Op.sweep now io).Removes b) then (s'.remove b, n + 1) else (s', n) := by
    intro s' n b _
    by_cases gone : b.Over now
    · have removed : (Op.sweep now io).Removes b := gone
      rw [sweepEntry, if_pos gone, if_pos (decide_eq_true removed)]
    · have kept : ¬ (Op.sweep now io).Removes b := gone
      rw [sweepEntry, if_neg gone, if_neg (by simp [kept])]
  have counts (bans : List Ban) (n : Nat) :
      bans.foldl (fun n _ => n + 1) n = n + bans.length := by
    induction bans generalizing n with
    | nil => rfl
    | cons b bans ih =>
        rw [List.foldl_cons, ih, List.length_cons]
        omega
  have folded := @foldl_remove s Nat _ (fun n _ => n + 1) _ [] _ 0 each rfl nodup
  have stay : [] ++ s.guildcardBans.filter (fun b =>
      decide ¬ decide ((Op.sweep now io).Removes b) = true) = s.after (.sweep now io) := by
    simp [State.after, Op.adds]
  rw [counts, stay] at folded
  refine ⟨_, folded, ?_⟩
  rw [Nat.zero_add, ← Nat.pos_iff_ne_zero, List.length_pos_iff_exists_mem]
  constructor
  · rintro ⟨b, hb⟩
    exact ⟨b, (List.mem_filter.mp hb).1, of_decide_eq_true (List.mem_filter.mp hb).2⟩
  · rintro ⟨b, hb, gone⟩
    exact ⟨b, List.mem_filter.mpr ⟨hb, decide_eq_true gone⟩⟩

theorem perform_sweep (h : Kept ops s) (now : Time) (io : Saving)
    (fine : Fine s (.sweep now io)) :
    ∃ reply, s.perform (.sweep now io) = some (reply, s.done (.sweep now io)) := by
  obtain ⟨lifted, folded, any⟩ :=
    @foldl_sweepEntry { s with banlock := { writer := true } } h.nodup now io
  have locked : s.banlock.wrlock = some { writer := true } := by
    rw [h.lock]
    rfl
  rw [State.perform, banSweepGuildcards, locked]
  simp only [Option.bind_eq_bind, Option.bind_some, folded]
  by_cases idle : lifted = 0
  · rw [if_neg (not_not.mpr idle)]
    exact ⟨_, rfl⟩
  · obtain ⟨rv, file, wrote, -⟩ := @writeBansList_of_creates
      (s.done (.sweep now io)) io rfl (fine (any.mp idle))
    rw [if_pos idle]
    refine ⟨.code (if rv ≠ 0 then -1 else 0), ?_⟩
    change Option.map _ ((writeBansList (s.done (.sweep now io)) io).bind _) = _
    rw [wrote]
    rfl

/-- An operation that nothing goes wrong with does what it should. -/
theorem perform_fine (h : Kept ops s) (op : Op) (fine : Fine s op) :
    ∃ reply, s.perform op = some (reply, s.done op) ∧ Proper s op reply (s.done op) := by
  cases op with
  | load endTime startTime setBy guildcard reason memory =>
      obtain ⟨reply, done⟩ := perform_load h endTime startTime setBy guildcard reason memory
      exact ⟨reply, done, rfl, trivial⟩
  | ban endTime setBy guildcard reason now memory io =>
      obtain ⟨reply, done⟩ := perform_ban h endTime setBy guildcard reason now memory io fine
      exact ⟨reply, done, rfl, trivial⟩
  | lift guildcard now stale io =>
      obtain ⟨rv, done, right⟩ := perform_lift h guildcard now stale io fine
      exact ⟨.code rv, done, rfl, rv, rfl, right⟩
  | sweep now io =>
      obtain ⟨reply, done⟩ := perform_sweep h now io fine
      exact ⟨reply, done, rfl, trivial⟩
  | query guildcard now =>
      obtain ⟨ban, done, right⟩ := perform_query h guildcard now
      exact ⟨.answer ban, done, rfl, ban, rfl, right⟩

/-! ## Whole runs -/

/-- The bans when the ship starts. -/
def State.start (bansFile : String) : State where
  bansFile := bansFile

theorem kept_start (bansFile : String) : Kept [] (State.start bansFile) where
  bans := rfl
  lock := rfl
  next := rfl
  once := .refl []

/-- One operation after another, as long as none waits for ever. -/
def next (s : Option State) (op : Op) : Option State :=
  s.bind fun s => (s.perform op).map Prod.snd

/-- Nothing goes wrong with an operation in the state it is done in. -/
def FineAt (s : Option State) (op : Op) : Prop := ∃ now, s = some now ∧ Fine now op

theorem kept_run {bansFile : String} {ops : List Op}
    (fine : Run.Guarded next FineAt (some (State.start bansFile)) ops) :
    ∃ s, ops.foldl next (some (State.start bansFile)) = some s ∧ Kept ops s := by
  induction ops using List.reverseRecOn with
  | nil => exact ⟨_, rfl, kept_start bansFile⟩
  | append_singleton ops op ih =>
      obtain ⟨s, reached, kept⟩ := ih fine.left
      have last := fine.right
      rw [reached] at last
      obtain ⟨⟨s', same, now⟩, -⟩ := last
      obtain rfl := Option.some.inj same
      obtain ⟨reply, done, -⟩ := perform_fine kept op now
      refine ⟨s.done op, ?_, kept.done op⟩
      rw [List.foldl_append, reached, List.foldl_cons, List.foldl_nil, next, Option.bind_some,
        done, Option.map_some]

/-- The state after some operations is as it should be, and so is what the next one does. -/
def Keeps (bansFile : String) (ops : List Op) (op : Op) : Prop :=
  ∃ s, ops.foldl next (some (State.start bansFile)) = some s ∧ Kept ops s ∧
    ∃ reply s', s.perform op = some (reply, s') ∧ Proper s op reply s' ∧ Kept (ops ++ [op]) s'

/-- As long as nothing goes wrong, the list holds at every point the bans that were added and
not removed, each entry that is removed is freed once, the lock is free after each operation,
and lifts and queries give back what they should. -/
theorem bans_kept {bansFile : String} {ops : List Op} {op : Op}
    (fine : Run.Guarded next FineAt (some (State.start bansFile)) (ops ++ [op])) :
    Keeps bansFile ops op := by
  obtain ⟨s, reached, kept⟩ := kept_run fine.left
  have last := fine.right
  rw [reached] at last
  obtain ⟨⟨s', same, now⟩, -⟩ := last
  obtain rfl := Option.some.inj same
  obtain ⟨reply, done, proper⟩ := perform_fine kept op now
  exact ⟨s, reached, kept, reply, s.done op, done, proper, kept.done op⟩

/-- A card is banned for ever, and another one until some time. -/
def twoBans : List Op :=
  [.load (-1) 0 42 5 "" true, .ban 100 42 6 "" 10 true { now := 10 }]

/-- The first ban is lifted. -/
def liftFirst : Op := .lift 5 20 Ban.endTime { now := 20 }

theorem keeps_two_bans : Keeps "bans.xml" twoBans liftFirst := by
  have hidden : ∀ b ∈ ([⟨0, "", 0, -1, 42, 5⟩, ⟨1, "", 10, 100, 42, 6⟩] : List Ban),
      b.bannedGc = 5 → ¬ (b.endTime ≠ -1 ∧ b.endTime < 20) := by
    decide
  apply bans_kept
  refine ⟨⟨_, rfl, trivial⟩, ⟨_, rfl, fun _ _ _ _ => rfl⟩, ⟨_, rfl, ?_⟩, trivial⟩
  exact ⟨hidden, fun _ _ _ _ => rfl, fun _ _ => rfl⟩

/-- A ban that is over is still in the list when it is lifted. -/
def overdue : List Op := [.load 10 0 42 5 "" true]

/-- The card of the ban is lifted. -/
def liftOverdue : Op := .lift 5 20 Ban.endTime { now := 20 }

/-- Its entry is removed and freed twice. -/
theorem freed_twice : ¬ Keeps "bans.xml" overdue liftOverdue := by
  rintro ⟨s, reached, -, reply, s', done, ⟨freed, -⟩, -⟩
  have twice : (overdue.foldl next (some (State.start "bans.xml"))).bind
      (fun s => (s.perform liftOverdue).map fun r => (s.guildcardBans.length, s.freed, r.2.freed)) =
      some (1, [], [0, 0]) := by
    decide
  rw [reached, Option.bind_some, done, Option.map_some, Option.some.injEq, Prod.mk.injEq,
    Prod.mk.injEq] at twice
  obtain ⟨one, before, after⟩ := twice
  have most := List.length_filter_le (fun b => decide (liftOverdue.Removes b)) s.guildcardBans
  have total := congrArg List.length freed
  rw [before, after, List.nil_append, List.length_map] at total
  simp only [List.length_cons, List.length_nil] at total
  omega

end Sylverant.Ship.Bans
