/-
# Slots that packets name

The slot in a packet for a member of a lobby is used as it is. An index is in the array
of the members just if the packet names a slot below 12, and then it is again when the
packet is handled once more at the end of a burst.
-/

import Sylverant.Library.Run
import Sylverant.Ship.BurstQueue

namespace Sylverant.Ship.Targets

open Function (update)

/-! ## What should hold -/

/-- An entry that is read is one of the array. -/
def Action.InBounds : Action → Prop
  | .index _ i => i < maxLobbyClients
  | _ => True

/-- All reads of an event are in the array. -/
def IndexSafe (rv : Action → Int) (s : State) (e : Event) : Prop :=
  ∀ a ∈ (handle rv s e).2.1, a.InBounds

/-- A packet that is looked at names a slot of the array, in the form of its version. A
packet that is for a member is not looked at if the sender is not in a lobby. -/
def NamesSlot (s : State) (c : ClientRef) (pkt : List UInt8) : Prop :=
  if s.lobbies.version c = .bb then
    IsTargeted (bbType pkt) → s.lobbies.curLobby c ≠ none → bbFlags pkt < maxLobbyClients
  else
    let pkt := toDcHeader (s.lobbies.version c) pkt
    (IsTargeted (dcType pkt) → s.lobbies.curLobby c ≠ none → dcFlags pkt < maxLobbyClients) ∧
      (dcType pkt = trade0Type → tradeWho pkt < maxLobbyClients)

/-- What comes in names a slot of the array. -/
def SlotsNamed (s : State) : Event → Prop
  | .packet c pkt => NamesSlot s c pkt
  | .change _ | .endBurst _ | .destroy _ => True

/-! ## The queue -/

/-- A packet that waits names a slot of the array. -/
def Entry.Good (e : Entry) : Prop := IsTargeted (dcType e.pkt) → dcFlags e.pkt < maxLobbyClients

/-- All packets that wait name slots of the array. -/
def QueuesGood (s : State) : Prop := ∀ l, ∀ e ∈ s.queue l, e.Good

/-- An outcome whose reads are in the array, and which leaves good queues. -/
structure Safe (r : Outcome) : Prop where
  inBounds : ∀ a ∈ r.2.1, a.InBounds
  queues : QueuesGood r.1

theorem byteAt_take_le (pkt : List UInt8) (n i : Nat) : byteAt (pkt.take n) i ≤ byteAt pkt i := by
  rw [byteAt, byteAt, List.getD_eq_getElem?_getD, List.getD_eq_getElem?_getD, List.getElem?_take]
  split
  · exact Nat.le_refl _
  · exact Nat.zero_le _

/-- The type of a packet that was cut off is the same, or none that is looked at. -/
theorem isTargeted_take {pkt : List UInt8} {n : Nat} (h : IsTargeted (dcType (pkt.take n))) :
    IsTargeted (dcType pkt) := by
  cases n with
  | zero =>
      rw [List.take_zero] at h
      exact absurd h (by decide)
  | succ n =>
      cases pkt with
      | nil => exact h
      | cons b pkt => exact h

section Safe

variable {rv : Action → Int} {s : State} {c : ClientRef} {pkt : List UInt8} {l : LobbyRef}

/-- A packet that names a slot still does while it waits. -/
theorem queuesGood_enqueue (hs : QueuesGood s)
    (hpkt : IsTargeted (dcType pkt) → dcFlags pkt < maxLobbyClients) :
    QueuesGood (lobbyEnqueuePkt s l c pkt).1 := by
  unfold lobbyEnqueuePkt
  split
  · exact hs
  split
  · exact hs
  intro m e he
  dsimp only at he
  by_cases hm : m = l
  · rw [hm, Function.update_self] at he
    rcases List.mem_append.mp he with hold | hnew
    · exact hs l e hold
    · rw [List.mem_singleton] at hnew
      intro htarget
      rw [hnew] at htarget ⊢
      exact Nat.lt_of_le_of_lt (byteAt_take_le pkt _ 1) (hpkt (isTargeted_take htarget))
  · rw [Function.update_of_ne hm] at he
    exact hs m e he

/-- An action that reads nothing may be the last one. -/
theorem safe_act {before : List Action} {a : Action} (hs : QueuesGood s)
    (hbefore : ∀ x ∈ before, x.InBounds) (ha : a.InBounds) : Safe (act rv s before a) := by
  refine ⟨fun x hx => ?_, hs⟩
  rcases List.mem_append.mp hx with hx | hx
  · exact hbefore x hx
  · exact List.mem_singleton.mp hx ▸ ha

theorem safe_bcast (hs : QueuesGood s)
    (hpkt : IsTargeted (dcType pkt) → dcFlags pkt < maxLobbyClients) :
    Safe (subcmdHandleBcast rv s c pkt) := by
  have hnil : ∀ x ∈ ([] : List Action), x.InBounds := fun x hx => nomatch hx
  unfold subcmdHandleBcast
  split
  · exact ⟨hnil, hs⟩
  split
  · exact safe_act hs hnil trivial
  split
  · split
    · exact safe_act hs hnil trivial
    · exact ⟨hnil, queuesGood_enqueue hs hpkt⟩
  · exact safe_act hs hnil trivial

/-- A packet for a member is safe if it names a slot. -/
theorem safe_one (hs : QueuesGood s)
    (hpkt : s.lobbies.curLobby c ≠ none → dcFlags pkt < maxLobbyClients) :
    Safe (subcmdHandleOne rv s c pkt) := by
  unfold subcmdHandleOne
  split
  · exact ⟨fun x hx => (nomatch hx), hs⟩
  rename_i l hl
  have hslot : dcFlags pkt < maxLobbyClients := hpkt (hl ▸ Option.some_ne_none l)
  have hfind : ∀ x ∈ [Action.index (some l) (dcFlags pkt)], x.InBounds := by
    intro x hx
    exact List.mem_singleton.mp hx ▸ hslot
  dsimp only
  split
  · exact ⟨hfind, hs⟩
  split
  · split
    · exact safe_act hs hfind trivial
    · exact ⟨hfind, queuesGood_enqueue hs fun _ => hslot⟩
  · exact safe_act hs hfind trivial

/-- A packet for a member of a lobby is safe only if it names a slot. -/
theorem names_of_one (hc : s.lobbies.curLobby c ≠ none)
    (h : ∀ a ∈ (subcmdHandleOne rv s c pkt).2.1, a.InBounds) : dcFlags pkt < maxLobbyClients := by
  cases hl : s.lobbies.curLobby c with
  | none => exact absurd hl hc
  | some l =>
      apply h (.index (some l) (dcFlags pkt))
      rw [subcmdHandleOne, hl]
      dsimp only
      split
      · exact List.mem_singleton_self _
      split
      · split
        · exact List.mem_append_left _ (List.mem_singleton_self _)
        · exact List.mem_singleton_self _
      · exact List.mem_append_left _ (List.mem_singleton_self _)

/-- What waits is safe when it is handled again. -/
theorem safe_replay (es : List Entry) (hs : QueuesGood s) (hes : ∀ e ∈ es, e.Good) :
    Safe (replay rv s es) := by
  induction es generalizing s with
  | nil => exact ⟨fun x hx => (nomatch hx), hs⟩
  | cons e es ih =>
      have hentry : Safe (replayEntry rv s e) := by
        have he := hes e List.mem_cons_self
        unfold replayEntry
        split
        · exact safe_bcast hs he
        split
        · rename_i htarget
          exact safe_one hs fun _ => he htarget
        · exact ⟨fun x hx => (nomatch hx), hs⟩
      rw [replay]
      dsimp only
      split
      · exact ⟨hentry.inBounds, hentry.queues⟩
      · have hrest := ih hentry.queues fun e he => hes e (List.mem_cons_of_mem _ he)
        refine ⟨fun a ha => ?_, hrest.queues⟩
        rcases List.mem_append.mp ha with ha | ha
        · exact hentry.inBounds a ha
        · exact hrest.inBounds a ha

end Safe

/-! ## What one event reads -/

/-- The reads of an outcome are in the array only under a condition, and the condition
makes it safe. -/
structure SafeIf (r : Outcome) (p : Prop) : Prop where
  needed : (∀ a ∈ r.2.1, a.InBounds) → p
  enough : p → Safe r

section Events

variable {rv : Action → Int} {s : State} {c : ClientRef} {pkt : List UInt8}

theorem SafeIf.of_safe {r : Outcome} {p : Prop} (h : Safe r) (hp : p) : SafeIf r p :=
  ⟨fun _ => hp, fun _ => h⟩

theorem SafeIf.congr {r : Outcome} {p q : Prop} (h : SafeIf r p) (hpq : p ↔ q) : SafeIf r q :=
  ⟨fun hr => hpq.mp (h.needed hr), fun hq => h.enough (hpq.mpr hq)⟩

/-- A packet for a member is safe just if it names a slot, or is not looked at. -/
theorem safeIf_one (hs : QueuesGood s) :
    SafeIf (subcmdHandleOne rv s c pkt)
      (s.lobbies.curLobby c ≠ none → dcFlags pkt < maxLobbyClients) :=
  ⟨fun h hc => names_of_one hc h, fun hpkt => safe_one hs hpkt⟩

theorem safeIf_bbOne (hs : QueuesGood s) :
    SafeIf (subcmdBbHandleOne rv s c pkt)
      (s.lobbies.curLobby c ≠ none → bbFlags pkt < maxLobbyClients) := by
  unfold subcmdBbHandleOne
  cases hl : s.lobbies.curLobby c with
  | none => exact .of_safe ⟨fun x hx => (nomatch hx), hs⟩ fun hc => absurd rfl hc
  | some l =>
      dsimp only
      constructor
      · intro h _
        apply h (.index (some l) (bbFlags pkt))
        split
        · exact List.mem_singleton_self _
        · exact List.mem_append_left _ (List.mem_singleton_self _)
      · intro hpkt
        have hfind : ∀ x ∈ [Action.index (some l) (bbFlags pkt)], x.InBounds := by
          intro x hx
          exact List.mem_singleton.mp hx ▸ hpkt (Option.some_ne_none l)
        split
        · exact ⟨hfind, hs⟩
        · exact safe_act hs hfind trivial

theorem safeIf_trade (hs : QueuesGood s) :
    SafeIf (processTrade rv s c pkt) (tradeWho pkt < maxLobbyClients) := by
  unfold processTrade
  constructor
  · intro h
    exact h (.index _ _) (List.mem_append_left _ (List.mem_singleton_self _))
  · intro hwho
    refine safe_act hs (fun x hx => ?_) trivial
    exact List.mem_singleton.mp hx ▸ hwho

/-- A packet of a client that is not on Blue Burst, with its header in order. -/
theorem safeIf_dcPkt (hs : QueuesGood s) :
    SafeIf (if dcType pkt = gameCommand0Type then subcmdHandleBcast rv s c pkt
      else if IsTargeted (dcType pkt) then subcmdHandleOne rv s c pkt
      else if dcType pkt = trade0Type then processTrade rv s c pkt
      else (s, [], 0))
      ((IsTargeted (dcType pkt) → s.lobbies.curLobby c ≠ none → dcFlags pkt < maxLobbyClients) ∧
        (dcType pkt = trade0Type → tradeWho pkt < maxLobbyClients)) := by
  by_cases hbcast : dcType pkt = gameCommand0Type
  · have htarget : ¬IsTargeted (dcType pkt) := by
      rw [hbcast]
      decide
    have htrade : dcType pkt ≠ trade0Type := by
      rw [hbcast]
      decide
    rw [if_pos hbcast]
    exact .of_safe (safe_bcast hs fun h => absurd h htarget)
      ⟨fun h => absurd h htarget, fun h => absurd h htrade⟩
  rw [if_neg hbcast]
  by_cases htarget : IsTargeted (dcType pkt)
  · have htrade : dcType pkt ≠ trade0Type := by
      intro htrade
      rw [htrade] at htarget
      exact absurd htarget (by decide)
    rw [if_pos htarget]
    exact (safeIf_one hs).congr
      ⟨fun h => ⟨fun _ => h, fun h => absurd h htrade⟩, fun h => h.1 htarget⟩
  rw [if_neg htarget]
  by_cases htrade : dcType pkt = trade0Type
  · rw [if_pos htrade]
    exact (safeIf_trade hs).congr
      ⟨fun h => ⟨fun h => absurd h htarget, fun _ => h⟩, fun h => h.2 htrade⟩
  · rw [if_neg htrade]
    exact .of_safe ⟨fun x hx => (nomatch hx), hs⟩
      ⟨fun h => absurd h htarget, fun h => absurd h htrade⟩

/-- A packet is safe just if it names a slot. -/
theorem safeIf_processPkt (hs : QueuesGood s) :
    SafeIf (processPkt rv s c pkt) (NamesSlot s c pkt) := by
  rw [processPkt, NamesSlot]
  split
  · rw [bbProcessPkt]
    by_cases htarget : IsTargeted (bbType pkt)
    · rw [if_pos htarget]
      exact (safeIf_bbOne hs).congr ⟨fun h _ => h, fun h => h htarget⟩
    · rw [if_neg htarget]
      exact .of_safe ⟨fun x hx => (nomatch hx), hs⟩ fun h => absurd h htarget
  · exact safeIf_dcPkt hs

/-- A queue that is given up leaves good queues. -/
theorem queuesGood_clear {lobbies : Lobbies} (hs : QueuesGood s) (l : LobbyRef) :
    QueuesGood { lobbies, queue := update s.queue l [] } := by
  intro m e he
  dsimp only at he
  by_cases hm : m = l
  · rw [hm, Function.update_self] at he
    cases he
  · rw [Function.update_of_ne hm] at he
    exact hs m e he

/-- An event is safe just if the packet that comes in names a slot. -/
theorem safeIf_event (hs : QueuesGood s) (e : Event) : SafeIf (handle rv s e) (SlotsNamed s e) := by
  cases e with
  | change lobbies => exact .of_safe ⟨fun x hx => (nomatch hx), hs⟩ trivial
  | packet c pkt => exact safeIf_processPkt hs
  | endBurst l => exact .of_safe (safe_replay _ (queuesGood_clear hs l) (hs l)) trivial
  | destroy l => exact .of_safe ⟨fun x hx => (nomatch hx), queuesGood_clear hs l⟩ trivial

end Events

/-! ## Whole runs -/

/-- A lobby with one member, on the GameCube. -/
def oneMember : Lobbies where
  curLobby c := if c = 0 then some 0 else none
  version _ := .gc
  dcnte _ := false
  clients l i := if l = 0 ∧ i = 0 then some 0 else none
  bursting _ := false

end Sylverant.Ship.Targets
