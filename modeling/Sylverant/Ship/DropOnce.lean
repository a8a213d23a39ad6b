/-
# One drop for each enemy and each box

A request either changes nothing that has to do with drops, or it marks an enemy or a box
that was not marked before, and sends one item at most. In a run of requests an enemy or
a box is the cause of one item at most.
-/

import Sylverant.Ship.DropRequests

namespace Sylverant.Ship.Pt

open Function (update)
open Simulation

/-! ## What a request is about -/

inductive Target
  | enemy (i : Nat)
  | box (i : Nat)
  deriving DecidableEq

/-- The enemy or the box that a request is about. -/
def target (req : ItemReq) : Target :=
  if req.ptIndex = 0x30 then .box req.req else .enemy req.req

/-- An enemy has dropped what it drops, or a box was opened. -/
def DropLobby.marked (l : DropLobby) : Target → Bool
  | .enemy i => l.dropDone i
  | .box i => l.opened i

/-- The state of a game with respect to drops. -/
structure Drops where
  opened : Nat → Bool
  dropDone : Nat → Bool
  itemId : UInt32
  sent : List Sent
  added : List Sent

def GenState.drops (s : GenState) : Drops :=
  ⟨s.lobby.opened, s.lobby.dropDone, s.lobby.itemId, s.sent, s.added⟩

/-- A list got one item that was made for a request, or none. -/
def AtMostOne (req : ItemReq) (before after : List Sent) : Prop :=
  after = before ∨ ∃ e : Sent, e.req = req ∧ after = before ++ [e]

/-- What comes of a request: the state of the drops stays as it is, or the target, which
was not marked, is marked, and there is one more item at most. -/
inductive Answered (req : ItemReq) (s t : GenState) : Prop
  | rejected (same : t.drops = s.drops)
  | served (unmarked : s.lobby.marked (target req) = false)
      (marked : t.lobby.marked (target req) = true)
      (others : ∀ x, x ≠ target req → t.lobby.marked x = s.lobby.marked x)
      (sent : AtMostOne req s.sent t.sent) (added : AtMostOne req s.added t.added)

/-! ## One request -/

/-- The game and its items are those of a state. -/
def Same (s t : GenState) : Prop := t.lobby = s.lobby ∧ t.sent = s.sent ∧ t.added = s.added

/-- The marks are those of a state, and there is one more item at most. -/
def OneMore (req : ItemReq) (s t : GenState) : Prop :=
  t.lobby.opened = s.lobby.opened ∧ t.lobby.dropDone = s.lobby.dropDone ∧
    AtMostOne req s.sent t.sent ∧ AtMostOne req s.added t.added

section Request

variable {req : ItemReq} {s : GenState}

theorem Same.oneMore {t : GenState} (h : Same s t) : OneMore req s t := by
  obtain ⟨hlobby, hsent, hadded⟩ := h
  exact ⟨by rw [hlobby], by rw [hlobby], .inl hsent, .inl hadded⟩

theorem stable_same (area : Int) : Stable (Same s) area where
  draw _ h := h
  column _ h := h

theorem leads_subcmdSendLobbyItem (item : GenItem) :
    Leads (Same s) (OneMore req s) (subcmdSendLobbyItem req item) := by
  rintro t ⟨hlobby, hsent, hadded⟩
  refine ⟨congrArg (·.opened) hlobby, congrArg (·.dropDone) hlobby, .inr ?_, .inl hadded⟩
  exact ⟨⟨req, item, t.lobby.itemId⟩, rfl, congrArg (· ++ _) hsent⟩

theorem leads_lobbyAddItem (item : GenItem) :
    Leads (Same s) (OneMore req s) (lobbyAddItem req item) := by
  rintro t ⟨hlobby, hsent, hadded⟩
  refine ⟨congrArg (·.opened) hlobby, congrArg (·.dropDone) hlobby, .inr ?_, .inr ?_⟩
  · exact ⟨⟨req, item, t.lobby.itemId⟩, rfl, congrArg (· ++ _) hsent⟩
  · exact ⟨⟨req, item, t.lobby.itemId⟩, rfl, congrArg (· ++ _) hadded⟩

theorem v2Maker_sends (d : DropData) (c : Requester) (l : DropLobby) (area : Int) :
    (v2Maker d c l req area).Sends (Same s) (OneMore req s) where
  weak _ h := h.oneMore
  send := leads_checkAndSend (fun _ h => h.oneMore) leads_subcmdSendLobbyItem

theorem gcMaker_sends (d : DropData) (c : Requester) (l : DropLobby) (area : Int)
    (entry : TableIndex) : (gcMaker d c l req area entry).Sends (Same s) (OneMore req s) where
  weak _ h := h.oneMore
  send := leads_checkAndSend (fun _ h => h.oneMore) leads_subcmdSendLobbyItem

theorem bbMaker_sends (d : DropData) (l : DropLobby) (area : Int) (entry : TableIndex) :
    (bbMaker d l req area entry).Sends (Same s) (OneMore req s) where
  weak _ h := h.oneMore
  send := leads_checkAndSendBb (fun _ h => h.oneMore) leads_lobbyAddItem

/-- A generator that goes on for a box once it has marked it. -/
theorem answered_claimBox {rest : Int → Gen Int}
    (hrest : ∀ area t, Leads (Same t) (OneMore req t) (rest area)) (episode curArea : Nat) :
    Answered req s (endState ((claimBox episode curArea req >>= rest) s)) := by
  have hclaim := claimBox_eq episode curArea req s
  by_cases hcheck : req.ptIndex ≠ 0x30 ∨ req.req > s.lobby.objCount
  · rw [if_pos hcheck] at hclaim
    rw [bind_error hclaim]
    exact .rejected rfl
  rw [if_neg hcheck] at hclaim
  by_cases hopened : s.lobby.opened req.req
  · rw [if_pos hopened] at hclaim
    rw [bind_error hclaim]
    exact .rejected rfl
  rw [if_neg hopened] at hclaim
  cases harea : dropArea episode curArea with
  | error rv =>
      rw [harea] at hclaim
      rw [bind_error hclaim]
      exact .rejected rfl
  | ok area =>
      rw [harea] at hclaim
      rw [bind_ok hclaim]
      obtain ⟨hboxes, henemies, hsent, hadded⟩ := hrest area _ _ ⟨rfl, rfl, rfl⟩
      have hbox : target req = .box req.req :=
        if_pos (not_not.mp fun hne => hcheck (.inl hne))
      refine .served ?_ ?_ ?_ hsent hadded
      · rw [hbox]
        exact eq_false_of_ne_true hopened
      · rw [hbox, DropLobby.marked, hboxes]
        exact Function.update_self ..
      · rintro (i | i) hne
        · exact congrFun henemies i
        · rw [DropLobby.marked, hboxes]
          rw [hbox] at hne
          exact Function.update_of_ne (fun heq => hne (congrArg Target.box heq)) ..

/-- A generator that goes on for an enemy once it has marked it. -/
theorem answered_claimEnemy {rest : Int → Gen Int}
    (hrest : ∀ area t, Leads (Same t) (OneMore req t) (rest area)) (hindex : req.ptIndex ≠ 0x30)
    (episode curArea : Nat) :
    Answered req s (endState ((claimEnemy episode curArea req >>= rest) s)) := by
  have hclaim := claimEnemy_eq episode curArea req s
  cases harea : dropArea episode curArea with
  | error rv =>
      rw [harea] at hclaim
      rw [bind_error hclaim]
      exact .rejected rfl
  | ok area =>
      rw [harea] at hclaim
      dsimp only at hclaim
      by_cases hcheck : req.req > s.lobby.enemyCount
      · rw [if_pos hcheck] at hclaim
        rw [bind_error hclaim]
        exact .rejected rfl
      rw [if_neg hcheck] at hclaim
      by_cases hdone : s.lobby.dropDone req.req
      · rw [if_pos hdone] at hclaim
        rw [bind_error hclaim]
        exact .rejected rfl
      rw [if_neg hdone] at hclaim
      rw [bind_ok hclaim]
      obtain ⟨hboxes, henemies, hsent, hadded⟩ := hrest area _ _ ⟨rfl, rfl, rfl⟩
      have henemy : target req = .enemy req.req := if_neg hindex
      refine .served ?_ ?_ ?_ hsent hadded
      · rw [henemy]
        exact eq_false_of_ne_true hdone
      · rw [henemy, DropLobby.marked, henemies]
        exact Function.update_self ..
      · rintro (i | i) hne
        · rw [DropLobby.marked, henemies]
          rw [henemy] at hne
          exact Function.update_of_ne (fun heq => hne (congrArg Target.enemy heq)) ..
        · exact congrFun hboxes i

/-- A check before the request is looked at changes nothing. -/
theorem answered_returnIf {c : Prop} [Decidable c] {rv : Int} {rest : Gen Int}
    (hrest : ¬c → Answered req s (endState (rest s))) :
    Answered req s (endState ((returnIf c rv >>= fun _ => rest) s)) := by
  rw [returnIf]
  by_cases h : c
  · rw [if_pos h]
    exact .rejected rfl
  · rw [if_neg h]
    exact hrest h

variable (d : DropData) (c : Requester) (item : GenItem)

theorem answered_ptGenerateV2Boxdrop :
    Answered req s (endState (ptGenerateV2Boxdrop d c item req s)) := by
  rw [ptGenerateV2Boxdrop, run_get_bind]
  refine answered_claimBox (fun area t => ?_) 1 c.curArea
  refine (keeps_questRares _ _).leads (fun _ h => h.oneMore) fun rares => ?_
  exact (v2Maker_sends d c _ area).boxDrop (v2Maker_stable d c _ req (stable_same area)) _ _ _ _

theorem answered_ptGenerateV2Drop :
    Answered req s (endState (ptGenerateV2Drop d c item req s)) := by
  rw [ptGenerateV2Drop, run_get_bind]
  refine answered_returnIf fun _ => ?_
  by_cases hbox : req.ptIndex = 0x30
  · rw [if_pos hbox]
    exact answered_ptGenerateV2Boxdrop d c item
  · rw [if_neg hbox]
    refine answered_claimEnemy (fun area t => ?_) hbox 1 c.curArea
    refine (keeps_rollDar (fun _ h => h) (fun _ h => h) _).leads (fun _ h => h.oneMore) fun _ => ?_
    refine (keeps_questRares _ _).leads (fun _ h => h.oneMore) fun rares => ?_
    exact (v2Maker_sends d c _ area).enemyDrop (v2Maker_stable d c _ req (stable_same area))
      (fun _ h => h) (fun _ h => h) _ _ _

theorem answered_ptGenerateGcBoxdrop :
    Answered req s (endState (ptGenerateGcBoxdrop d c item req s)) := by
  rw [ptGenerateGcBoxdrop, run_get_bind]
  refine answered_claimBox (fun area t => ?_) s.lobby.episode c.curArea
  exact (gcMaker_sends d c _ area _).boxDrop (gcMaker_stable d c _ req _ (stable_same area)) _ _ _ _

theorem answered_ptGenerateGcDrop :
    Answered req s (endState (ptGenerateGcDrop d c item req s)) := by
  rw [ptGenerateGcDrop, run_get_bind]
  by_cases hbox : req.ptIndex = 0x30
  · rw [if_pos hbox]
    exact answered_ptGenerateGcBoxdrop d c item
  · rw [if_neg hbox]
    refine answered_claimEnemy (fun area t => ?_) hbox s.lobby.episode c.curArea
    refine (keeps_rollDar (fun _ h => h) (fun _ h => h) _).leads (fun _ h => h.oneMore) fun _ => ?_
    exact (gcMaker_sends d c _ area _).enemyDrop (gcMaker_stable d c _ req _ (stable_same area))
      (fun _ h => h) (fun _ h => h) _ _ _

theorem answered_ptGenerateBbBoxdrop :
    Answered req s (endState (ptGenerateBbBoxdrop d c item req s)) := by
  rw [ptGenerateBbBoxdrop, run_get_bind]
  refine answered_returnIf fun _ => ?_
  refine answered_claimBox (fun area t => ?_) s.lobby.episode c.curArea
  exact (bbMaker_sends d _ area _).boxDrop (bbMaker_stable d _ req _ (stable_same area)) _ _ _ _

theorem answered_ptGenerateBbDrop :
    Answered req s (endState (ptGenerateBbDrop d c item req s)) := by
  rw [ptGenerateBbDrop, run_get_bind]
  refine answered_returnIf fun _ => ?_
  by_cases hbox : req.ptIndex = 0x30
  · rw [if_pos hbox]
    exact answered_ptGenerateBbBoxdrop d c item
  · rw [if_neg hbox]
    refine answered_claimEnemy (fun area t => ?_) hbox s.lobby.episode c.curArea
    refine (keeps_rollDar (fun _ h => h) (fun _ h => h) _).leads (fun _ h => h.oneMore) fun _ => ?_
    exact (bbMaker_sends d _ area _).enemyDrop (bbMaker_stable d _ req _ (stable_same area))
      (fun _ h => h) (fun _ h => h) _ _ _

/-- Each of the generators answers a request. -/
theorem answered_run (gen : Generator) : Answered req s (endState (gen.run d c item req s)) := by
  cases gen with
  | v2Drop => exact answered_ptGenerateV2Drop d c item
  | v2Boxdrop => exact answered_ptGenerateV2Boxdrop d c item
  | gcDrop => exact answered_ptGenerateGcDrop d c item
  | gcBoxdrop => exact answered_ptGenerateGcBoxdrop d c item
  | bbDrop => exact answered_ptGenerateBbDrop d c item
  | bbBoxdrop => exact answered_ptGenerateBbBoxdrop d c item

end Request

/-! ## Runs of requests -/

/-- A request to a generator, with the random numbers that come, what the array for the
item holds at first, and the section ids of the client that leads the game then. -/
structure DropCall where
  gen : Generator
  data : DropData
  client : Requester
  stale : GenItem
  req : ItemReq
  rng : Nat → UInt32
  v1Section : Nat
  bbSection : Nat

/-- The state that a request comes in. -/
def DropCall.enter (x : DropCall) (s : GenState) : GenState :=
  { s with
    lobby := { s.lobby with v1Section := x.v1Section, bbSection := x.bbSection }
    rng := x.rng }

/-- The state after a request. -/
def serve (s : GenState) (x : DropCall) : GenState :=
  endState (x.gen.run x.data x.client x.stale x.req (x.enter s))

/-- A game from which nothing has been sent yet. -/
def GenState.start (l : DropLobby) (rng : Nat → UInt32) : GenState := ⟨l, rng, [], [], []⟩

/-- The number of items that came of requests about a target. -/
def dropsOf (t : Target) (sent : List Sent) : Nat := sent.countP fun e => target e.req = t

/-- Each target has at most one item, and it is marked if it has one. -/
def Once (l : DropLobby) (sent : List Sent) : Prop :=
  ∀ t, dropsOf t sent ≤ 1 ∧ (dropsOf t sent = 1 → l.marked t = true)

theorem answered_serve (s : GenState) (x : DropCall) : Answered x.req (x.enter s) (serve s x) :=
  answered_run x.data x.client x.stale x.gen

/-- One more item of a target that was not marked. -/
theorem once_served {req : ItemReq} {l l' : DropLobby} {sent sent' : List Sent}
    (honce : Once l sent) (hunmarked : l.marked (target req) = false)
    (hmarked : l'.marked (target req) = true)
    (hothers : ∀ x, x ≠ target req → l'.marked x = l.marked x)
    (hsent : AtMostOne req sent sent') : Once l' sent' := by
  intro t
  obtain ⟨hle, hmark⟩ := honce t
  have hstill : l.marked t = true → l'.marked t = true := by
    intro ht
    by_cases heq : t = target req
    · rw [heq]
      exact hmarked
    · rw [hothers t heq]
      exact ht
  obtain rfl | ⟨e, rfl, rfl⟩ := hsent
  · exact ⟨hle, fun hone => hstill (hmark hone)⟩
  · rw [dropsOf, List.countP_append, List.countP_singleton]
    by_cases heq : target e.req = t
    · subst heq
      have hzero : dropsOf (target e.req) sent = 0 := by
        refine Nat.eq_zero_of_not_pos fun hpos => ?_
        rw [hmark (by omega)] at hunmarked
        cases hunmarked
      rw [dropsOf] at hzero
      rw [hzero, if_pos (decide_eq_true rfl)]
      exact ⟨Nat.le_refl 1, fun _ => hmarked⟩
    · rw [if_neg (by rw [decide_eq_true_eq]; exact heq), Nat.add_zero]
      exact ⟨hle, fun hone => hstill (hmark hone)⟩

theorem once_serve {s : GenState} (x : DropCall) (hsent : Once s.lobby s.sent)
    (hadded : Once s.lobby s.added) :
    Once (serve s x).lobby (serve s x).sent ∧ Once (serve s x).lobby (serve s x).added := by
  have hmarks : ∀ t, (x.enter s).lobby.marked t = s.lobby.marked t := fun t => by cases t <;> rfl
  rcases answered_serve s x with hsame | ⟨hunmarked, hmarked, hothers, honce, honce'⟩
  · have hboxes := congrArg Drops.opened hsame
    have henemies := congrArg Drops.dropDone hsame
    have hmarked : ∀ t, (serve s x).lobby.marked t = s.lobby.marked t := by
      rintro (i | i)
      · exact congrFun henemies i
      · exact congrFun hboxes i
    have hsame' : (serve s x).sent = s.sent := congrArg Drops.sent hsame
    have hsame'' : (serve s x).added = s.added := congrArg Drops.added hsame
    rw [hsame', hsame'']
    refine ⟨fun t => ⟨(hsent t).1, fun hone => ?_⟩, fun t => ⟨(hadded t).1, fun hone => ?_⟩⟩
    · rw [hmarked]
      exact (hsent t).2 hone
    · rw [hmarked]
      exact (hadded t).2 hone
  · rw [hmarks] at hunmarked
    have hothers' : ∀ t, t ≠ target x.req → (serve s x).lobby.marked t = s.lobby.marked t :=
      fun t ht => (hothers t ht).trans (hmarks t)
    exact ⟨once_served hsent hunmarked hmarked hothers' honce,
      once_served hadded hunmarked hmarked hothers' honce'⟩

theorem once_run (calls : List DropCall) {s : GenState} (hsent : Once s.lobby s.sent)
    (hadded : Once s.lobby s.added) :
    Once (calls.foldl serve s).lobby (calls.foldl serve s).sent ∧
      Once (calls.foldl serve s).lobby (calls.foldl serve s).added := by
  induction calls generalizing s with
  | nil => exact ⟨hsent, hadded⟩
  | cons x calls ih =>
      obtain ⟨hsent', hadded'⟩ := once_serve x hsent hadded
      exact ih hsent' hadded'

/-- In every run of requests each enemy and each box is the cause of at most one item that
is sent, and of at most one that is added to the game. A request changes nothing about the
drops of the game unless it marks its target, which was not marked before. -/
theorem drops_once (l : DropLobby) (rng : Nat → UInt32) (calls : List DropCall) :
    (∀ t, dropsOf t (calls.foldl serve (.start l rng)).sent ≤ 1 ∧
      dropsOf t (calls.foldl serve (.start l rng)).added ≤ 1) ∧
    ∀ s x, (serve s x).drops = s.drops ∨
      s.lobby.marked (target x.req) = false ∧ (serve s x).lobby.marked (target x.req) = true := by
  refine ⟨fun t => ?_, fun s x => ?_⟩
  · have hnone : Once l [] := fun t => ⟨Nat.zero_le 1, fun h => absurd h Nat.zero_ne_one⟩
    obtain ⟨hsent, hadded⟩ := @once_run calls (.start l rng) hnone hnone
    exact ⟨(hsent t).1, (hadded t).1⟩
  · rcases answered_serve s x with hsame | ⟨hunmarked, hmarked, -, -, -⟩
    · exact .inl hsame
    · refine .inr ⟨?_, hmarked⟩
      rw [← hunmarked]
      cases target x.req <;> rfl

end Sylverant.Ship.Pt
