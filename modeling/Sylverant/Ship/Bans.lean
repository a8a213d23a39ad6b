/-
# Guild card bans

The bans of a ship are a list that is read when it starts, and that is written to a file
whenever it changes. A ban is an allocated entry of the list. Which entries were freed is noted
beside the list. What is in an entry that was freed is not known, and it is taken from outside.
-/

import Mathlib.Data.List.Nodup
import Sylverant.Library.CString

namespace Sylverant.Ship.Bans

/-- `time_t` -/
abbrev Time := Int64

/-- `guildcard_ban_t` -/
structure Ban where
  /-- Entries are counted as they are allocated. -/
  id : Nat
  reason : String
  startTime : Time
  endTime : Time
  setBy : UInt32
  bannedGc : UInt32
  deriving DecidableEq

/-- `banlock`, which is held by some readers or by a writer. -/
structure Lock where
  readers : Nat := 0
  writer : Bool := false
  deriving DecidableEq

/-- `pthread_rwlock_rdlock`. There is no result if it waits for ever. -/
def Lock.rdlock (l : Lock) : Option Lock :=
  if l.writer then none else some { l with readers := l.readers + 1 }

/-- `pthread_rwlock_wrlock`. -/
def Lock.wrlock (l : Lock) : Option Lock :=
  if l.writer ∨ l.readers ≠ 0 then none else some { l with writer := true }

/-- `pthread_rwlock_unlock`. -/
def Lock.unlock (l : Lock) : Lock :=
  if l.writer then { l with writer := false } else { l with readers := l.readers - 1 }

/-- What a ship has to do with bans. -/
structure State where
  bansFile : String
  guildcardBans : List Ban := []
  banlock : Lock := {}
  /-- How many entries were allocated. -/
  next : Nat := 0
  /-- The entries that were freed, in this order. -/
  freed : List Nat := []
  deriving DecidableEq

/-- The ban is over. -/
def Ban.Over (b : Ban) (now : Time) : Prop := b.endTime ≠ -1 ∧ b.endTime < now

instance (b : Ban) (now : Time) : Decidable (b.Over now) :=
  inferInstanceAs (Decidable (_ ∧ _))

/-! ## Writing the file -/

/-- A `ban` element of the file, with its attributes. -/
structure Node where
  setBy : String
  guildcard : String
  startTime : String
  endTime : String
  reason : String
  deriving DecidableEq

/-- The element of a ban. -/
def Ban.node (b : Ban) : Node where
  setBy := toString b.setBy.toNat
  guildcard := toString b.bannedGc.toNat
  startTime := toString b.startTime.toInt
  endTime := toString b.endTime.toInt
  reason := b.reason

/-- How saving goes: the time, which parts of the document are created, and whether it is
written. -/
structure Saving where
  now : Time
  doc : Bool := true
  root : Bool := true
  dtd : Bool := true
  /-- Whether the element of the n-th ban is created. -/
  node : Nat → Bool := fun _ => true
  written : Bool := true

/-- The loop of `write_bans_list`, after `n` elements. It stops where one is not created. -/
def addNodes (io : Saving) : Nat → List Ban → Option (List Node)
  | _, [] => some []
  | n, b :: bans =>
      if b.Over io.now then addNodes io n bans
      else if io.node n then (addNodes io (n + 1) bans).map (b.node :: ·)
      else none

/-- `write_bans_list`: what it returns, the lock afterwards, and the file if it is written. -/
def writeBansList (s : State) (io : Saving) : Option (Int × Lock × Option (List Node)) :=
  if s.bansFile = "" then some (-1, s.banlock, none)
  else if ¬ io.doc then some (-2, s.banlock, none)
  else if ¬ io.root then some (-3, s.banlock, none)
  else if ¬ io.dtd then some (-4, s.banlock, none)
  else do
    let lock ← s.banlock.rdlock
    match addNodes io 0 s.guildcardBans with
    -- The way out for errors does not give the lock back.
    | none => some (-5, lock, none)
    -- What `xmlSaveFormatFileEnc` returns is not looked at.
    | some nodes => some (0, lock.unlock, if io.written then some nodes else none)

/-! ## The operations -/

/-- `ban_gc_int`. -/
def banGcInt (s : State) (endTime startTime : Time) (setBy guildcard : UInt32) (reason : String)
    (memory : Bool) : Option (Int × State) :=
  if ¬ memory then some (-1, s)
  else do
    let lock ← s.banlock.wrlock
    let ban : Ban :=
      { id := s.next, reason := reason, startTime := startTime, endTime := endTime,
        setBy := setBy, bannedGc := guildcard }
    some (0, { s with
      guildcardBans := s.guildcardBans ++ [ban], banlock := lock.unlock, next := s.next + 1 })

/-- `ban_guildcard`. -/
def banGuildcard (s : State) (endTime : Time) (setBy guildcard : UInt32) (reason : String)
    (now : Time) (memory : Bool) (io : Saving) : Option (Int × State) := do
  let (rv, s) ← banGcInt s endTime now setBy guildcard reason memory
  if rv ≠ 0 then some (-1, s)
  else do
    let (rv, lock, _) ← writeBansList s io
    some (if rv ≠ 0 then -2 else 0, { s with banlock := lock })

/-- `TAILQ_REMOVE` of an entry, and `free` of it. -/
def State.remove (s : State) (b : Ban) : State :=
  { s with guildcardBans := s.guildcardBans.erase b, freed := s.freed ++ [b.id] }

/-- What the loop of `ban_lift_guildcard_ban` does with an entry: the ship, and how many
entries were lifted and how many did match. -/
def liftEntry (guildcard : UInt32) (now : Time) (stale : Ban → Time) (acc : State × Nat × Nat)
    (b : Ban) : State × Nat × Nat :=
  let hit := b.bannedGc = guildcard
  let (s, lifted, matching) := acc
  let (s, lifted, matching) :=
    if hit then (s.remove b, lifted + 1, matching + 1) else (s, lifted, matching)
  -- The entry is looked at here even if it has just been freed.
  let endTime := if hit then stale b else b.endTime
  if endTime ≠ -1 ∧ endTime < now then (s.remove b, lifted + 1, matching)
  else (s, lifted, matching)

/-- `ban_lift_guildcard_ban`. What is read as the end of an entry that was freed is given. -/
def banLiftGuildcardBan (s : State) (guildcard : UInt32) (now : Time) (stale : Ban → Time)
    (io : Saving) : Option (Int × State) := do
  let lock ← s.banlock.wrlock
  let (s, lifted, matching) :=
    s.guildcardBans.foldl (liftEntry guildcard now stale) ({ s with banlock := lock }, 0, 0)
  let s := { s with banlock := s.banlock.unlock }
  if lifted ≠ 0 then do
    let (rv, lock, _) ← writeBansList s io
    some (if rv ≠ 0 then -2 else if matching ≠ 0 then 0 else -1, { s with banlock := lock })
  else some (-1, s)

/-- What the loop of `ban_sweep_guildcards` does with an entry. -/
def sweepEntry (now : Time) (acc : State × Nat) (b : Ban) : State × Nat :=
  if b.Over now then (acc.1.remove b, acc.2 + 1) else acc

/-- `ban_sweep_guildcards`. -/
def banSweepGuildcards (s : State) (now : Time) (io : Saving) : Option (Int × State) := do
  let lock ← s.banlock.wrlock
  let (s, lifted) := s.guildcardBans.foldl (sweepEntry now) ({ s with banlock := lock }, 0)
  let s := { s with banlock := s.banlock.unlock }
  if lifted ≠ 0 then do
    let (rv, lock, _) ← writeBansList s io
    some (if rv ≠ 0 then -1 else 0, { s with banlock := lock })
  else some (0, s)

/-- The ban is on its card, and it still holds. -/
def Ban.Holds (b : Ban) (guildcard : UInt32) (now : Time) : Prop :=
  b.bannedGc = guildcard ∧ (now ≤ b.endTime ∨ b.endTime = -1)

instance (b : Ban) (guildcard : UInt32) (now : Time) : Decidable (b.Holds guildcard now) :=
  inferInstanceAs (Decidable (_ ∧ _))

/-- `is_guildcard_banned`: the reason and the end of the first ban that holds. -/
def isGuildcardBanned (bans : List Ban) (guildcard : UInt32) (now : Time) :
    Option (String × Time) :=
  (bans.find? fun b => b.Holds guildcard now).map fun b => (b.reason, b.endTime)

/-- `is_guildcard_banned`, with the lock it takes. -/
def queryBan (s : State) (guildcard : UInt32) (now : Time) :
    Option (Option (String × Time) × State) := do
  let lock ← s.banlock.rdlock
  some (isGuildcardBanned s.guildcardBans guildcard now, { s with banlock := lock.unlock })

/-! ## Reading the file -/

/-- The ban that an element describes: who set it, its card, its start, its end and its reason.
There is none if a number is out of range. -/
def Node.parse (n : Node) : Option (UInt32 × UInt32 × Time × Time × String) := do
  let setGc ← CString.strtoul n.setBy 0
  let banGc ← CString.strtoul n.guildcard 0
  let sTime ← CString.strtol n.startTime 0
  let eTime ← CString.strtol n.endTime 0
  some (UInt32.ofNat setGc, UInt32.ofNat banGc, Int64.ofInt sTime, Int64.ofInt eTime, n.reason)

/-- What `ban_list_read` does with an element. Here there is memory for the entry, as there is
for the attributes. -/
def readNode (now : Time) (s : State) (n : Node) : Option State :=
  match n.parse with
  | none => some s
  | some (setGc, banGc, sTime, eTime, reason) =>
      if eTime = -1 ∨ eTime > now then
        (banGcInt s eTime sTime setGc banGc reason true).map Prod.snd
      else some s

/-- `ban_list_read` of a file that could be opened. -/
def banListRead (s : State) (file : List Node) (now : Time) : Option (Int × State) :=
  if s.guildcardBans ≠ [] then some (-1, s)
  else (file.foldlM (readNode now) s).map fun s => (0, s)

end Sylverant.Ship.Bans
