/-
# What becomes of queued packets

While a client bursts into a game, what the members send to each other is queued, and it is
handled when the burst is over. An entry of a queue has its sender as a pointer. Nobody looks
whether the sender is still in the game, and a packet is handled in the lobby that its sender
is in by then.

The queues are run together with the calls that move clients. What they accepted, and what
became of each packet that was taken off, is noted beside them. Handlers change nothing of who
is where, so that the lobbies stay as they are while a queue is handled. The memory of a client
that is gone is read as the client left it.
-/

import Sylverant.Library.Run
import Sylverant.Ship.BurstQueue
import Sylverant.Ship.Calls
import Sylverant.Ship.Membership

namespace Sylverant.Ship.QueueDelivery

open Function (update)
open Targets (Action Entry Outcome)

/-! ## The queues of a block -/

/-- What became of a packet. -/
inductive Fate
  /-- It was handled, its sender was in this lobby by then, and this was returned. -/
  | handled (l : Option LobbyRef) (rv : Int)
  /-- Another one had failed. -/
  | skipped
  /-- The lobby was destroyed. -/
  | freed
  deriving DecidableEq

/-- A packet that was taken off a queue, with the block at that moment. -/
structure Settled where
  entry : Entry
  fate : Fate
  block : Block
  /-- How many times a queue was handled by then. -/
  turn : Nat

/-- A block, the queue `pkt_queue` of each lobby, and what was noted. -/
structure World where
  block : Block
  queue : LobbyRef → List Entry := fun _ => []
  accepted : LobbyRef → List Entry := fun _ => []
  settled : LobbyRef → List Settled := fun _ => []
  turn : Nat := 0

/-- What the handlers of packets read of a block. -/
def view (s : Block) : Targets.Lobbies where
  curLobby c := (s.client c).curLobby
  version c := (s.client c).version
  dcnte c := (s.client c).flags.isDcnte
  clients l := (s.lobby l).clients
  bursting := held s

/-- The lobbies as the handlers of packets see them. -/
def World.targets (w : World) : Targets.State where
  lobbies := view w.block
  queue := w.queue

/-- What a handler has added to the queues was accepted. -/
def World.noted (w : World) (queue : LobbyRef → List Entry) : World :=
  { w with
    queue := queue
    accepted := fun l => w.accepted l ++ (queue l).drop (w.queue l).length }

/-- A packet is taken off the queue of a lobby. -/
def World.settle (w : World) (l : LobbyRef) (e : Entry) (fate : Fate) : World :=
  { w with settled := update w.settled l (w.settled l ++ [⟨e, fate, w.block, w.turn⟩]) }

/-- The packets of a lobby begin to be handled. -/
def World.take (w : World) (l : LobbyRef) : World :=
  { w with queue := update w.queue l [], turn := w.turn + 1 }

/-- A lobby that is destroyed between two blocks. -/
def Destroyed (s t : Block) (l : LobbyRef) : Prop := l ∈ t.freed ∧ l ∉ s.freed

instance (s t : Block) (l : LobbyRef) : Decidable (Destroyed s t l) :=
  inferInstanceAs (Decidable (_ ∧ _))

/-- A call, with `lobby_empty_pkt_queue` for a lobby that it destroys. -/
def World.follow (w : World) (t : Block) : World :=
  { w with
    block := t
    queue := fun l => if Destroyed w.block t l then [] else w.queue l
    settled := fun l =>
      if Destroyed w.block t l then
        w.settled l ++ (w.queue l).map fun e => ⟨e, .freed, t, w.turn⟩
      else w.settled l }

/-! ## What happens to them -/

/-- The loop of `lobby_handle_done_burst`, with whether a packet has failed. -/
def drain (rv : Action → Int) (l : LobbyRef) : World → Bool → List Entry → World
  | w, _, [] => w
  | w, true, e :: es => drain rv l (w.settle l e .skipped) true es
  | w, false, e :: es =>
      let r := Targets.replayEntry rv w.targets e
      let fate := Fate.handled (w.block.client e.src).curLobby r.2.2
      drain rv l ((w.noted r.1.queue).settle l e fate) (r.2.2 ≠ 0) es

/-- `lobby_handle_done_burst`. -/
def lobbyHandleDoneBurst (rv : Action → Int) (w : World) (l : LobbyRef) : World :=
  drain rv l (w.take l) false (w.queue l)

/-- `dc_process_done_burst`. -/
def dcProcessDoneBurst (rv : Action → Int) (w : World) (c : ClientRef) : World :=
  let w' := { w with block := (Ship.dcProcessDoneBurst w.block c).1 }
  match (w.block.client c).curLobby with
  | none => w'
  | some l => if (w.block.lobby l).type = .default then w' else lobbyHandleDoneBurst rv w' l

/-- `lobby_remove_player`. The packets are handled before the client is removed. -/
def lobbyRemovePlayer (rv : Action → Int) (env : Env) (w : World) (c : ClientRef) : World :=
  let w :=
    match (w.block.client c).curLobby with
    | none => w
    | some l =>
        if bursting w.block c then
          lobbyHandleDoneBurst rv { w with block := clearBursting w.block l } l
        else w
  w.follow (Ship.lobbyRemovePlayer env w.block c).1

/-- A packet for members of a game, or a call. -/
inductive Input
  | packet (c : ClientRef) (pkt : List UInt8)
  | call (e : Ship.Event)

/-- What happens, with what the handlers find. -/
abbrev Event := (Action → Int) × Input

/-- The block and its queues after an event. -/
def step (w : World) (e : Event) : World :=
  match e.2 with
  | .packet c pkt => w.noted (Targets.processPkt e.1 w.targets c pkt).1.queue
  | .call (env, .removePlayer c) => lobbyRemovePlayer e.1 env w c
  | .call (_, .doneBurst c) => dcProcessDoneBurst e.1 w c
  | .call call => w.follow (Ship.step w.block call)

/-- What the callers check. -/
def Promised (w : World) (e : Event) : Prop :=
  match e.2 with
  | .packet _ _ => True
  | .call call => Ship.Promised w.block call

instance : (w : World) → (e : Event) → Decidable (Promised w e)
  | _, (_, .packet _ _) => inferInstanceAs (Decidable True)
  | w, (_, .call call) => inferInstanceAs (Decidable (Ship.Promised w.block call))

/-! ## What should hold -/

/-- A client is a member of a lobby. -/
def Member (s : Block) (c : ClientRef) (l : LobbyRef) : Prop :=
  (s.client c).curLobby = some l ∧ (s.lobby l).clients (s.client c).clientId = some c

instance (s : Block) (c : ClientRef) (l : LobbyRef) : Decidable (Member s c l) :=
  inferInstanceAs (Decidable (_ ∧ _))

/-- A packet was handled in a lobby. -/
def Settled.HandledIn (x : Settled) (l : LobbyRef) : Prop := ∃ rv, x.fate = .handled (some l) rv

/-- What the queues are for: each packet is handled once, in the order in which they came, in
the lobby that queued it and while its sender is there, or it is discarded as its sender has
left or as the lobby was destroyed. Only members have packets in a queue. -/
def Delivered (w : World) : Prop :=
  ∀ l, w.accepted l = (w.settled l).map Settled.entry ++ w.queue l ∧
    (∀ x ∈ w.settled l,
      x.HandledIn l ∧ Member x.block x.entry.src l ∨
      ¬x.HandledIn l ∧ ¬(Member x.block x.entry.src l ∧ l ∈ x.block.lobbies)) ∧
    ∀ e ∈ w.queue l, Member w.block e.src l

/-- A packet was handled in this turn and failed, and from then on all were skipped. -/
def FailedLast (before : List Settled) (turn : Nat) : Prop :=
  ∃ front y mid, before = front ++ y :: mid ∧ y.turn = turn ∧
    (∃ l rv, y.fate = .handled l rv ∧ rv ≠ 0) ∧ ∀ z ∈ mid, z.fate = .skipped

/-- What became of a packet, given what became of those before it: while its sender is a member
it is handled in the lobby, or skipped as another one has failed. -/
structure Settled.Fair (l : LobbyRef) (before : List Settled) (x : Settled) : Prop where
  handled : Member x.block x.entry.src l → x.HandledIn l ∨ x.fate = .skipped
  skipped : x.fate = .skipped → FailedLast before x.turn
  freed : x.fate = .freed → l ∉ x.block.lobbies

/-! ## Handlers -/

/-- A handler leaves the lobbies alone, and adds packets to no queue but that of the lobby that
the sender is in, while there is a burst. -/
def Adds (s : Targets.State) (c : ClientRef) (r : Outcome) : Prop :=
  r.1.lobbies = s.lobbies ∧
    ∃ added : LobbyRef → List Entry, (∀ l, r.1.queue l = s.queue l ++ added l) ∧
      ∀ l, added l ≠ [] → s.lobbies.curLobby c = some l ∧ s.lobbies.bursting l = true

section Handlers

variable {rv : Action → Int} {s : Targets.State} {c : ClientRef} {l : LobbyRef} {pkt : List UInt8}
  {acts : List Action} {a : Int}

theorem adds_nothing : Adds s c (s, acts, a) :=
  ⟨rfl, fun _ => [], fun _ => (List.append_nil _).symm, fun _ h => absurd rfl h⟩

theorem adds_enqueue (hl : s.lobbies.curLobby c = some l) (hburst : s.lobbies.bursting l = true) :
    Adds s c ((Targets.lobbyEnqueuePkt s l c pkt).1, acts, a) := by
  unfold Targets.lobbyEnqueuePkt
  split
  · exact adds_nothing
  split
  · exact adds_nothing
  refine ⟨rfl, update (fun _ => []) l [⟨c, pkt.take (Targets.dcLen pkt)⟩], fun m => ?_,
    fun m hm => ?_⟩
  · by_cases hml : m = l
    · rw [hml, Function.update_self]
      exact Function.update_self ..
    · rw [Function.update_of_ne hml, List.append_nil]
      exact Function.update_of_ne hml ..
  · by_cases hml : m = l
    · rw [hml]
      exact ⟨hl, hburst⟩
    · exact absurd (Function.update_of_ne hml ..) hm

theorem adds_one : Adds s c (Targets.subcmdHandleOne rv s c pkt) := by
  unfold Targets.subcmdHandleOne
  split
  · exact adds_nothing
  rename_i l hl
  dsimp only
  split
  · exact adds_nothing
  split
  · rename_i hburst
    split
    · exact adds_nothing
    · exact adds_enqueue hl hburst
  · exact adds_nothing

theorem adds_bcast : Adds s c (Targets.subcmdHandleBcast rv s c pkt) := by
  unfold Targets.subcmdHandleBcast
  split
  · exact adds_nothing
  rename_i l hl
  split
  · exact adds_nothing
  split
  · rename_i hburst
    split
    · exact adds_nothing
    · exact adds_enqueue hl hburst
  · exact adds_nothing

theorem adds_processPkt : Adds s c (Targets.processPkt rv s c pkt) := by
  unfold Targets.processPkt
  split
  · unfold Targets.bbProcessPkt Targets.subcmdBbHandleOne
    split
    · split
      · exact adds_nothing
      · dsimp only
        split <;> exact adds_nothing
    · exact adds_nothing
  · unfold Targets.dcProcessPkt
    dsimp only
    split
    · exact adds_bcast
    split
    · exact adds_one
    split
    · exact adds_nothing
    · exact adds_nothing

theorem adds_replayEntry (e : Entry) : Adds s e.src (Targets.replayEntry rv s e) := by
  unfold Targets.replayEntry
  split
  · exact adds_bcast
  split
  · exact adds_one
  · exact adds_nothing

end Handlers

/-! ## The model and the functions it is made of -/

section Refinement

variable {rv : Action → Int} {w : World} {l : LobbyRef}

theorem block_drain (failed : Bool) (es : List Entry) :
    (drain rv l w failed es).block = w.block := by
  induction es generalizing w failed with
  | nil =>
      cases failed <;> rfl
  | cons e es ih =>
      cases failed with
      | true => exact ih true
      | false => exact ih _

/-- Once a packet has failed the queues stay as they are. -/
theorem targets_drain_true (es : List Entry) : (drain rv l w true es).targets = w.targets := by
  induction es generalizing w with
  | nil => rfl
  | cons e es ih => exact ih

/-- The loop with its notes does to the queues what the loop without them does. -/
theorem targets_drain (es : List Entry) :
    (drain rv l w false es).targets = (Targets.replay rv w.targets es).1 := by
  induction es generalizing w with
  | nil => rfl
  | cons e es ih =>
      rcases @adds_replayEntry rv w.targets e with ⟨hlobbies, -⟩
      have hnext : (w.noted (Targets.replayEntry rv w.targets e).1.queue).targets =
          (Targets.replayEntry rv w.targets e).1 := by
        rw [World.targets]
        exact congrArg₂ Targets.State.mk hlobbies.symm rfl
      rw [drain, Targets.replay]
      dsimp only
      by_cases hrv : (Targets.replayEntry rv w.targets e).2.2 = 0
      · rw [if_neg (not_not.mpr hrv), decide_eq_false (not_not.mpr hrv), ih]
        exact congrArg (fun t => (Targets.replay rv t es).1) hnext
      · rw [if_pos hrv, decide_eq_true hrv, targets_drain_true]
        exact hnext

theorem targets_lobbyHandleDoneBurst :
    (lobbyHandleDoneBurst rv w l).targets = (Targets.lobbyHandleDoneBurst rv w.targets l).1 :=
  targets_drain (w.queue l)

theorem block_lobbyHandleDoneBurst : (lobbyHandleDoneBurst rv w l).block = w.block :=
  block_drain false (w.queue l)

/-- A client that goes away clears a flag that is clear already. -/
theorem lobbyRemovePlayer_clearBursting (env : Env) {s : Block} {c : ClientRef}
    (hl : (s.client c).curLobby = some l) (hc : bursting s c = true) :
    Ship.lobbyRemovePlayer env (clearBursting s l) c = Ship.lobbyRemovePlayer env s c := by
  have hflag : (s.client c).flags.bursting = true := hc
  have htwice : clearBursting (clearBursting s l) l = clearBursting s l := by
    rw [clearBursting, Block.modifyLobby, clearBursting, lobby_modifyLobby_self]
    simp only [Block.modifyLobby, Function.update_idem]
    rfl
  have hclient : (clearBursting s l).client = s.client := rfl
  simp only [Ship.lobbyRemovePlayer, hclient, hl, hflag, if_true, htwice]

/-- The queues make no difference to who is where. -/
theorem block_step (w : World) (rv : Action → Int) (e : Ship.Event) :
    (step w (rv, .call e)).block = Ship.step w.block e := by
  rcases e with ⟨env, call⟩
  cases call with
  | removePlayer c =>
      show (Ship.lobbyRemovePlayer env _ c).1 = (Ship.lobbyRemovePlayer env w.block c).1
      split
      · rfl
      · rename_i l hl
        split
        · rename_i hc
          rw [block_lobbyHandleDoneBurst, lobbyRemovePlayer_clearBursting env hl hc]
        · rfl
  | doneBurst c =>
      show (dcProcessDoneBurst rv w c).block = (Ship.dcProcessDoneBurst w.block c).1
      unfold dcProcessDoneBurst
      dsimp only
      split
      · rfl
      · split
        · rfl
        · exact block_lobbyHandleDoneBurst
  | addToAny c req => rfl
  | changeLobby c req => rfl
  | setFlags l flags => rfl
  | setClient c version flags level chClass times => rfl

end Refinement

/-! ## What every event preserves -/

/-- What holds at all times, where some packets of a queue are still to be handled: nothing that
was accepted is lost or doubled, and packets wait only in a lobby of the list while its flag is
up. -/
structure Sound (w : World) (pending : LobbyRef → List Entry) : Prop where
  seated : Seated w.block
  nodup : w.block.lobbies.Nodup
  alive : ∀ l ∈ w.block.lobbies, l ∉ w.block.freed
  order : ∀ l, w.accepted l = (w.settled l).map Settled.entry ++ (pending l ++ w.queue l)
  waiting : ∀ l, w.queue l ≠ [] → l ∈ w.block.lobbies ∧ held w.block l = true
  fair : ∀ l, History.Each (Settled.Fair l) [] (w.settled l)

/-- Nothing is being handled. -/
def idle : LobbyRef → List Entry := fun _ => []

section Steps

variable {rv : Action → Int} {env : Env} {w : World} {l : LobbyRef} {c : ClientRef} {t : Block}
  {old new : Option LobbyRef} {pending : LobbyRef → List Entry} {e : Entry} {fate : Fate}
  {before : List Settled} {turn : Nat}

/-- The next packet is skipped after one that failed. -/
theorem FailedLast.append (h : FailedLast before turn) {x : Settled} (hx : x.fate = .skipped) :
    FailedLast (before ++ [x]) turn := by
  rcases h with ⟨front, y, mid, rfl, hturn, hfailed, hmid⟩
  refine ⟨front, y, mid ++ [x], by rw [List.append_assoc]; rfl, hturn, hfailed, fun z hz => ?_⟩
  rcases List.mem_append.mp hz with hz | hz
  · exact hmid z hz
  · rw [List.mem_singleton.mp hz]
    exact hx

/-- A handler keeps what holds. -/
theorem Sound.noted (h : Sound w pending) {r : Outcome} (hr : Adds w.targets c r) :
    Sound (w.noted r.1.queue) pending := by
  rcases hr with ⟨-, added, hqueue, hadded⟩
  have hnew (l : LobbyRef) : (r.1.queue l).drop (w.queue l).length = added l := by
    rw [hqueue]
    exact List.drop_left
  refine ⟨h.seated, h.nodup, h.alive, fun l => ?_, fun l hl => ?_, h.fair⟩
  · show w.accepted l ++ (r.1.queue l).drop (w.queue l).length = _ ++ (_ ++ r.1.queue l)
    rw [hnew, hqueue, h.order]
    simp only [List.append_assoc]
    rfl
  · by_cases hl' : added l = []
    · refine h.waiting l fun hnil => hl ?_
      show r.1.queue l = []
      rw [hqueue, hl', List.append_nil]
      exact hnil
    · rcases hadded l hl' with ⟨hcur, hburst⟩
      exact ⟨h.seated.listed c l hcur, hburst⟩

/-- Taking a packet off a queue keeps what holds, if what becomes of it is fair. -/
theorem Sound.settle (h : Sound w pending) {es : List Entry} (hes : pending l = e :: es)
    (hfair : Settled.Fair l (w.settled l) ⟨e, fate, w.block, w.turn⟩) :
    Sound (w.settle l e fate) (update pending l es) := by
  refine ⟨h.seated, h.nodup, h.alive, fun m => ?_, h.waiting, fun m => ?_⟩
  · show w.accepted m = (update w.settled l _ m).map Settled.entry ++ (_ ++ w.queue m)
    rw [h.order]
    by_cases hm : m = l
    · rw [hm, Function.update_self, Function.update_self, hes, List.map_append, List.append_assoc]
      rfl
    · rw [Function.update_of_ne hm, Function.update_of_ne hm]
  · show History.Each _ [] (update w.settled l _ m)
    by_cases hm : m = l
    · rw [hm, Function.update_self]
      exact History.each_append.mpr ⟨h.fair l, History.each_singleton.mpr hfair⟩
    · rw [Function.update_of_ne hm]
      exact h.fair m

/-- A packet that is handled while its sender is a member is handled in the lobby. -/
theorem fair_handled {a : Int} :
    Settled.Fair l before
      ⟨e, .handled (w.block.client e.src).curLobby a, w.block, turn⟩ where
  handled hmember := .inl ⟨a, congrArg (Fate.handled · a) hmember.1⟩
  skipped heq := nomatch heq
  freed heq := nomatch heq

/-- The loop keeps what holds. -/
theorem Sound.drain {failed : Bool} {es : List Entry} (h : Sound w pending) (hes : pending l = es)
    (hfailed : failed = true → FailedLast (w.settled l) w.turn) :
    Sound (drain rv l w failed es) (update pending l []) := by
  induction es generalizing w failed pending with
  | nil =>
      rw [← hes, Function.update_eq_self, hes]
      cases failed <;> exact h
  | cons e es ih =>
      have hrest (fate : Fate) : (w.settle l e fate).settled l =
          w.settled l ++ [⟨e, fate, w.block, w.turn⟩] := Function.update_self ..
      cases failed with
      | true =>
          have hlast := hfailed rfl
          have hskip : Sound (w.settle l e .skipped) (update pending l es) :=
            h.settle hes ⟨fun _ => .inr rfl, fun _ => hlast, fun heq => (nomatch heq)⟩
          have hall := @ih _ _ true hskip (Function.update_self ..) fun _ =>
            (hrest .skipped).symm ▸ hlast.append rfl
          rw [Function.update_idem] at hall
          exact hall
      | false =>
          have hnoted := h.noted (@adds_replayEntry rv w.targets e)
          obtain ⟨a, ha⟩ : ∃ a, a = (Targets.replayEntry rv w.targets e).2.2 := ⟨_, rfl⟩
          have hsettle := hnoted.settle hes (fair_handled (a := a))
          have hall := @ih _ _ (decide (a ≠ 0)) hsettle (Function.update_self ..) fun hrv =>
            ⟨w.settled l, _, [], Function.update_self .., rfl, ⟨_, a, rfl, of_decide_eq_true hrv⟩,
              fun z hz => (List.not_mem_nil hz).elim⟩
          rw [Function.update_idem, ha] at hall
          exact hall

/-- The queue of a lobby is emptied, and the flags of other lobbies with packets stay. -/
theorem Sound.take (h : Sound w idle) (hseated : Seated t) (hlobbies : t.lobbies = w.block.lobbies)
    (hfreed : t.freed = w.block.freed)
    (hheld : ∀ m, m ≠ l → held t m = held w.block m) :
    Sound (World.take { w with block := t } l) (update idle l (w.queue l)) := by
  refine ⟨hseated, ?_, ?_, fun m => ?_, fun m hm => ?_, h.fair⟩
  · show t.lobbies.Nodup
    rw [hlobbies]
    exact h.nodup
  · show ∀ l ∈ t.lobbies, l ∉ t.freed
    rw [hlobbies, hfreed]
    exact h.alive
  · show w.accepted m = _ ++ (_ ++ update w.queue l [] m)
    rw [h.order]
    by_cases hml : m = l
    · rw [hml, Function.update_self, Function.update_self, List.append_nil]
      rfl
    · rw [Function.update_of_ne hml, Function.update_of_ne hml]
      rfl
  · by_cases hml : m = l
    · rw [hml] at hm
      exact absurd (Function.update_self ..) hm
    · have hqueue : w.queue m ≠ [] := fun hnil =>
        hm ((Function.update_of_ne hml ..).trans hnil)
      rcases h.waiting m hqueue with ⟨hmem, hflag⟩
      exact ⟨hlobbies.symm ▸ hmem, (hheld m hml).trans hflag⟩

/-- The end of a burst keeps what holds, when the flag of the lobby was taken. -/
theorem Sound.lobbyHandleDoneBurst (h : Sound w idle) (hseated : Seated t)
    (hlobbies : t.lobbies = w.block.lobbies) (hfreed : t.freed = w.block.freed)
    (hheld : ∀ m, m ≠ l → held t m = held w.block m) :
    Sound (lobbyHandleDoneBurst rv { w with block := t } l) idle := by
  have hdrain : Sound (QueueDelivery.lobbyHandleDoneBurst rv { w with block := t } l) _ :=
    (h.take hseated hlobbies hfreed hheld).drain (Function.update_self ..) fun heq => (nomatch heq)
  rw [Function.update_idem] at hdrain
  have hidle : update idle l [] = idle := Function.update_eq_self ..
  rwa [hidle] at hdrain

/-- A call keeps what holds, when it takes no flag of a lobby with packets. -/
theorem Sound.follow (h : Sound w idle) (htransfer : Transfer env w.block t c old new)
    (hheld : ∀ m, w.queue m ≠ [] → held w.block m = true → held t m = true) :
    Sound (w.follow t) idle := by
  have hseated := htransfer.seated h.seated
  have halive : ∀ l ∈ t.lobbies, l ∉ t.freed := by
    rcases htransfer.cleared with ⟨-, hlobbies, -, hfreed⟩ | ⟨k, -, hlobbies, -, hfreed⟩
    · rw [hlobbies, hfreed]
      exact h.alive
    · intro l hl hgone
      rw [hlobbies] at hl
      rw [hfreed] at hgone
      rcases h.nodup.mem_erase_iff.mp hl with ⟨hne, hmem⟩
      rcases List.mem_cons.mp hgone with heq | hgone
      · exact hne heq
      · exact h.alive l hmem hgone
  refine ⟨hseated, htransfer.nodup h.nodup, halive, fun l => ?_, fun l hl => ?_, fun l => ?_⟩
  · show w.accepted l = (if Destroyed w.block t l then _ else _ : List Settled).map _ ++
      (idle l ++ if Destroyed w.block t l then [] else w.queue l)
    rw [h.order]
    split_ifs
    · rw [List.map_append, List.map_map, List.append_assoc]
      refine congrArg _ ?_
      rw [show (idle l ++ ([] : List Entry)) = [] from rfl, List.append_nil]
      exact (List.map_id _).symm
    · rfl
  · have hstays : ¬Destroyed w.block t l := fun hgone => hl (if_pos hgone)
    have hqueue : w.queue l ≠ [] := fun hnil => hl ((if_neg hstays).trans hnil)
    rcases h.waiting l hqueue with ⟨hmem, hflag⟩
    refine ⟨?_, hheld l hqueue hflag⟩
    rcases htransfer.cleared with ⟨-, hlobbies, -⟩ | ⟨k, -, hlobbies, -, hfreed⟩
    · exact hlobbies.symm ▸ hmem
    · show l ∈ t.lobbies
      rw [hlobbies]
      refine (List.mem_erase_of_ne fun heq => hstays ⟨?_, h.alive l hmem⟩).mpr hmem
      rw [hfreed, heq]
      exact List.mem_cons_self
  · show History.Each _ [] (if Destroyed w.block t l then _ else _)
    split_ifs with hgone
    · refine History.each_append.mpr ⟨h.fair l, ?_⟩
      have hunlisted : l ∉ t.lobbies := fun hmem => halive l hmem hgone.1
      generalize [] ++ w.settled l = before
      induction w.queue l generalizing before with
      | nil => trivial
      | cons e es ih =>
          refine ⟨⟨fun hmember => ?_, fun heq => (nomatch heq), fun _ => hunlisted⟩, ih _⟩
          exact absurd (hseated.listed _ l hmember.1) hunlisted
    · exact h.fair l

end Steps

/-! ## Flags that stay up -/

section Flags

variable {env : Env} {s : Block} {c : ClientRef} {l m req : LobbyRef}

/-- The end of `lobby_change_lobby` takes no flag down. -/
theorem held_finishChange (b : Bool) (hm : held s m = true) :
    held (finishChange s c l b) m = true := by
  have hmain : held (finishChange s c l false) m = true := by
    cases hcur : (s.client c).curLobby with
    | none =>
        simp only [finishChange, hcur, Bool.false_eq_true, if_false]
        exact hm
    | some cur =>
        by_cases htype : (s.lobby cur).type = .default
        · rw [(flags_finishChange_default hcur htype).1]
          exact hm
        · rw [(flags_finishChange_game hcur htype).1]
          by_cases hmc : m = cur
          · rw [hmc, Function.update_self]
          · rw [Function.update_of_ne hmc]
            exact hm
  cases b with
  | false => exact hmain
  | true => exact hmain

/-- Changing lobbies takes no flag down. -/
theorem held_lobbyChangeLobby (hreq : req ∈ s.lobbies) (hm : held s m = true) :
    held (lobbyChangeLobby env s c req).1 m = true := by
  have hclear : held (clearOverride s c) m = true := hm
  unfold lobbyChangeLobby
  split
  · unfold enterLobby
    split
    · exact hclear
    · rename_i s' hadd
      rcases added_lobbyAddToAny (fun l hl => Option.some.inj hl ▸ hreq) hadd with ⟨l, -, hadded⟩
      cases hadded.signal with
      | quiet hheld => exact (congrFun hheld m).trans hclear
  · rename_i l hcur
    unfold moveToLobby
    split
    · exact hclear
    split
    · exact held_finishChange (l := l) false hclear
    split
    · exact hclear
    rename_i s' hadd
    have hs' : held s' m = true := by
      rcases lobbyAddClientLocked_eq_some hadd with ⟨-, clev, i, -, rfl⟩
      rw [held_takeSlot]
      exact hclear
    split
    · exact hs'
    rename_i u b hremove
    refine held_finishChange b ?_
    unfold lobbyRemoveClientLocked at hremove
    split_ifs at hremove
    cases hremove
    rw [held_leaveSlot]
    exact hs'

/-- No call takes a flag down but the end of a burst and a client that goes away. -/
theorem held_step {e : Ship.Event} (hok : Ship.Promised s e) (hm : held s m = true)
    (hdone : ∀ c, e.2 ≠ .doneBurst c) (hremove : ∀ c, e.2 ≠ .removePlayer c) :
    held (Ship.step s e) m = true := by
  rcases e with ⟨env, call⟩
  cases call with
  | addToAny c req =>
      show held (call s env (.addToAny c req)).1 m = true
      unfold call
      dsimp only
      split
      · exact hm
      · rename_i s' hadd
        rcases added_lobbyAddToAny hok.2 hadd with ⟨l, -, hadded⟩
        cases hadded.signal with
        | quiet hheld => exact (congrFun hheld m).trans hm
  | changeLobby c req => exact held_lobbyChangeLobby hok hm
  | removePlayer c => exact absurd rfl (hremove c)
  | doneBurst c => exact absurd rfl (hdone c)
  | setFlags l flags => exact (congrFun (held_setFlags flags) m).trans hm
  | setClient c version flags level chClass times => exact hm

end Flags

/-! ## Runs -/

section Runs

variable {rv : Action → Int} {env : Env} {w w₀ : World} {l : LobbyRef} {c : ClientRef} {e : Event}
  {es : List Event}

theorem Sound.follow_step (h : Sound w idle) {e : Ship.Event} (hok : Ship.Promised w.block e)
    (hheld : ∀ m, w.queue m ≠ [] → held w.block m = true → held (Ship.step w.block e) m = true) :
    Sound (w.follow (Ship.step w.block e)) idle := by
  rcases step_cases h.seated hok with ⟨c, old, new, htransfer, -⟩
  exact h.follow htransfer hheld

theorem Sound.dcProcessDoneBurst (h : Sound w idle) :
    Sound (dcProcessDoneBurst rv w c) idle := by
  have hseated : Seated (Ship.dcProcessDoneBurst w.block c).1 :=
    seated_step w.block ({ now := 0 }, .doneBurst c) h.seated trivial
  have hstay (ht : (Ship.dcProcessDoneBurst w.block c).1 = w.block) :
      Sound { w with block := (Ship.dcProcessDoneBurst w.block c).1 } idle := by
    rw [ht]
    exact h
  unfold QueueDelivery.dcProcessDoneBurst
  dsimp only
  split
  · rename_i hcur
    refine hstay ?_
    simp only [Ship.dcProcessDoneBurst, hcur]
  · rename_i l hcur
    split
    · rename_i htype
      refine hstay ?_
      simp only [Ship.dcProcessDoneBurst, hcur, htype, if_true]
    · rename_i htype
      have hresult : (Ship.dcProcessDoneBurst w.block c).1 =
          (clearBursting w.block l).modifyClient c fun y => y.setBursting false := by
        simp only [Ship.dcProcessDoneBurst, hcur, htype, if_false]
      refine h.lobbyHandleDoneBurst hseated (by rw [hresult]; rfl) (by rw [hresult]; rfl)
        fun m hm => ?_
      rw [hresult, held_modifyClient, clearBursting, held_setBursting, Function.update_of_ne hm]

theorem Sound.lobbyRemovePlayer (h : Sound w idle) :
    Sound (lobbyRemovePlayer rv env w c) idle := by
  unfold QueueDelivery.lobbyRemovePlayer
  dsimp only
  split
  · rename_i hcur
    refine h.follow_step (e := (env, .removePlayer c)) trivial fun m _ hm => ?_
    have hsame : (Ship.lobbyRemovePlayer env w.block c).1 = w.block := by
      rw [Ship.lobbyRemovePlayer, hcur]
    show held (Ship.lobbyRemovePlayer env w.block c).1 m = true
    rw [hsame]
    exact hm
  · rename_i l hcur
    split
    · rename_i hc
      have hstill : Still w.block (clearBursting w.block l) c :=
        still_modifyLobby w.block c l _ fun _ => rfl
      have hseated : Seated (clearBursting w.block l) :=
        (hstill.transfer rfl rfl rfl : Transfer env _ _ c _ _).seated h.seated
      have hdrained : Sound (QueueDelivery.lobbyHandleDoneBurst rv _ l) idle :=
        h.lobbyHandleDoneBurst hseated rfl rfl fun m hm => by
          rw [clearBursting, held_setBursting, Function.update_of_ne hm]
      refine hdrained.follow_step (e := (env, .removePlayer c)) trivial fun m _ hm => ?_
      rw [block_lobbyHandleDoneBurst] at hm ⊢
      show held (Ship.lobbyRemovePlayer env (clearBursting w.block l) c).1 m = true
      rw [lobbyRemovePlayer_clearBursting env hcur hc, (flags_lobbyRemovePlayer hcur).1, if_pos hc]
      rw [clearBursting, held_setBursting] at hm
      exact hm
    · rename_i hc
      refine h.follow_step (e := (env, .removePlayer c)) trivial fun m _ hm => ?_
      show held (Ship.lobbyRemovePlayer env w.block c).1 m = true
      rw [(flags_lobbyRemovePlayer hcur).1, if_neg hc]
      exact hm

theorem sound_step (w : World) (e : Event) (h : Sound w idle) (hok : Promised w e) :
    Sound (step w e) idle := by
  rcases e with ⟨rv, input⟩
  cases input with
  | packet c pkt => exact h.noted adds_processPkt
  | call e =>
      have hrest (hdone : ∀ c, e.2 ≠ .doneBurst c) (hremove : ∀ c, e.2 ≠ .removePlayer c) :
          Sound (w.follow (Ship.step w.block e)) idle :=
        h.follow_step hok fun m _ hm => held_step hok hm hdone hremove
      rcases e with ⟨env, call⟩
      cases call with
      | addToAny c req => exact hrest (fun _ heq => (nomatch heq)) fun _ heq => (nomatch heq)
      | changeLobby c req => exact hrest (fun _ heq => (nomatch heq)) fun _ heq => (nomatch heq)
      | removePlayer c => exact h.lobbyRemovePlayer
      | doneBurst c => exact h.dcProcessDoneBurst
      | setFlags l flags => exact hrest (fun _ heq => (nomatch heq)) fun _ heq => (nomatch heq)
      | setClient c version flags level chClass times =>
          exact hrest (fun _ heq => (nomatch heq)) fun _ heq => (nomatch heq)

/-- Nothing was accepted, and nobody is in a lobby. -/
structure World.Empty (w : World) : Prop where
  block : w.block.Empty
  nodup : w.block.lobbies.Nodup
  freed : w.block.freed = []
  queue : ∀ l, w.queue l = [] ∧ w.accepted l = [] ∧ w.settled l = []

theorem World.Empty.sound (h : w.Empty) : Sound w idle where
  seated := h.block.seated
  nodup := h.nodup
  alive l _ := by
    rw [h.freed]
    exact List.not_mem_nil
  order l := by
    rcases h.queue l with ⟨hqueue, haccepted, hsettled⟩
    rw [hqueue, haccepted, hsettled]
    rfl
  waiting l hl := absurd (h.queue l).1 hl
  fair l := by
    rw [(h.queue l).2.2]
    trivial

/-- Wherever packets, joins, leaves, changes and ends of bursts lead: what a queue has accepted
was taken off once and in this order, or it waits, in a lobby of the list that is still marked.
A packet that is taken off while its sender is a member of the lobby is handled in this lobby,
unless one that was handled before it in the same turn has failed, and what a lobby that is
destroyed has in its queue is freed. -/
theorem settled_run (hempty : w₀.Empty) (hrun : Run.Guarded step Promised w₀ es)
    (hw : w = es.foldl step w₀) (l : LobbyRef) :
    w.accepted l = (w.settled l).map Settled.entry ++ w.queue l ∧
      (w.queue l ≠ [] → l ∈ w.block.lobbies ∧ held w.block l = true) ∧
      ∀ front x back, w.settled l = front ++ x :: back → x.Fair l front := by
  have hsound : Sound w idle := hw ▸ hrun.invariant sound_step hempty.sound
  refine ⟨hsound.order l, hsound.waiting l, fun front x back hsplit => ?_⟩
  have hfair := hsound.fair l
  rw [hsplit] at hfair
  exact hfair.at

/-- Three clients join a game, the last one bursts, and the two others send a packet to the
game. Then comes one more call, after which every packet fails that is handled. -/
def twoPackets (last : Call) : List Event :=
  ([.call ({ now := 1 }, .addToAny 0 none), .call ({ now := 2 }, .changeLobby 0 1),
    .call ({ now := 3 }, .doneBurst 0), .call ({ now := 4 }, .addToAny 1 none),
    .call ({ now := 5 }, .changeLobby 1 1), .call ({ now := 6 }, .doneBurst 1),
    .call ({ now := 7 }, .addToAny 2 none), .call ({ now := 8 }, .changeLobby 2 1),
    .packet 0 [0x60, 0, 8, 0, 0x40, 1, 0, 0], .packet 1 [0x60, 0, 8, 0, 0x40, 1, 0, 0],
    .call ({ now := 9 }, last)] : List Input).map fun input => (fun _ => -1, input)

theorem empty_twoLobbies : World.Empty { block := twoLobbies } where
  block := Ship.empty_twoLobbies
  nodup := by decide
  freed := rfl
  queue _ := ⟨rfl, rfl, rfl⟩

theorem guarded_twoPackets :
    Run.Guarded step Promised { block := twoLobbies } (twoPackets (.doneBurst 2)) := by decide

theorem settled_run_twoPackets :
    let w := (twoPackets (.doneBurst 2)).foldl step { block := twoLobbies }
    w.accepted 1 = (w.settled 1).map Settled.entry ++ w.queue 1 ∧
      (w.accepted 1).map Entry.src = [0, 1] :=
  ⟨(settled_run empty_twoLobbies guarded_twoPackets rfl 1).1, by decide⟩

/-- The second packet is discarded as that of another client fails before it. If the client that
sent the first one goes to another lobby, then that packet waits on. -/
theorem not_delivered :
    World.Empty { block := twoLobbies } ∧
      (∀ last ∈ [Call.doneBurst 2, .changeLobby 0 0],
        Run.Guarded step Promised { block := twoLobbies } (twoPackets last)) ∧
      ∀ last ∈ [Call.doneBurst 2, .changeLobby 0 0],
        ¬Delivered ((twoPackets last).foldl step { block := twoLobbies }) := by
  refine ⟨empty_twoLobbies, by decide, fun last hlast hdelivered => ?_⟩
  rcases hdelivered 1 with ⟨-, hsettled, hqueue⟩
  rcases List.mem_cons.mp hlast with rfl | hlast
  · have hskipped : (((twoPackets (.doneBurst 2)).foldl step { block := twoLobbies }).settled 1).any
        (fun x => decide (x.fate = .skipped ∧ Member x.block x.entry.src 1 ∧ 1 ∈ x.block.lobbies)) =
        true := by decide
    rcases List.any_eq_true.mp hskipped with ⟨x, hx, hfate⟩
    rcases of_decide_eq_true hfate with ⟨hfate, hmember⟩
    rcases hsettled x hx with ⟨⟨rv, hhandled⟩, -⟩ | ⟨-, hnot⟩
    · exact Fate.noConfusion (hfate.symm.trans hhandled)
    · exact hnot hmember
  · cases List.mem_singleton.mp hlast
    have hmoved : (((twoPackets (.changeLobby 0 0)).foldl step { block := twoLobbies }).queue 1).any
        (fun e => decide ¬Member ((twoPackets (.changeLobby 0 0)).foldl step
          { block := twoLobbies }).block e.src 1) = true := by decide
    rcases List.any_eq_true.mp hmoved with ⟨e, he, hnot⟩
    exact of_decide_eq_true hnot (hqueue e he)

end Runs

end Sylverant.Ship.QueueDelivery
