/-
# Who has passed in legit mode

A check counts replies, and ends when there are as many of them as members. It ends when
all members have replied, and turns legit mode on only if all have passed, as long as
nobody replies twice, or has a version whose replies do not end a check, and whoever
leaves during a check has not replied, and is not the last one to wait for.
-/

import Mathlib.Data.List.Nodup
import Mathlib.Data.List.Perm.Subperm
import Sylverant.Ship.LegitCheck
import Sylverant.Ship.Membership

namespace Sylverant.Ship

open Function (update)
open Slots (filled)

/-! ## The flags of the check -/

/-- The two flags that the check changes. -/
def Lobby.legitFlags (x : Lobby) : Bool × Bool := (x.flags.tempUnavail, x.flags.legitMode)

/-- The flags of the check are the same in all lobbies. -/
def SameFlags (s s' : Block) : Prop := ∀ m, (s'.lobby m).legitFlags = (s.lobby m).legitFlags

section Flags

variable {env : Env} {s t s' : Block} {c : ClientRef} {l req : LobbyRef}

theorem SameFlags.refl (s : Block) : SameFlags s s := fun _ => rfl

theorem SameFlags.trans (h : SameFlags s t) (h' : SameFlags t s') : SameFlags s s' :=
  fun m => (h' m).trans (h m)

theorem sameFlags_modifyLobby {f : Lobby → Lobby}
    (h : (f (s.lobby l)).legitFlags = (s.lobby l).legitFlags) :
    SameFlags s (s.modifyLobby l f) :=
  fun m => apply_lobby_modifyLobby s l m f Lobby.legitFlags h

theorem sameFlags_modifyClient {g : Client → Client} : SameFlags s (s.modifyClient c g) :=
  fun _ => rfl

theorem sameFlags_takeSlot {now clev i : Nat} : SameFlags s (takeSlot now s c l clev i) :=
  (@sameFlags_modifyLobby s l (fun x => fillSlot x c clev i) rfl).trans sameFlags_modifyClient

theorem sameFlags_leaveSlot {now i : Nat} : SameFlags s (leaveSlot now s c i l) :=
  (@sameFlags_modifyLobby s l (fun x => dropSlot now s x i)
    (dropSlot_field Lobby.legitFlags fun _ _ _ _ _ _ _ _ => rfl)).trans sameFlags_modifyClient

theorem sameFlags_lobbyDestroyLocked {b : Bool} : SameFlags s (lobbyDestroyLocked s l b) := by
  cases b <;> exact fun _ => rfl

theorem sameFlags_finishChange {b : Bool} : SameFlags s (finishChange s c l b) := by
  have hdestroy {t : Block} : SameFlags t (if b then lobbyDestroyLocked t l true else t) := by
    split
    · exact sameFlags_lobbyDestroyLocked
    · exact SameFlags.refl t
  rw [finishChange]
  refine SameFlags.trans ?_ hdestroy
  split
  · exact SameFlags.refl s
  · rename_i cur hcur
    split
    · exact sameFlags_modifyClient
    · exact (@sameFlags_modifyLobby s cur (fun x => x.setBursting true) rfl).trans
        sameFlags_modifyClient

theorem Added.sameFlags {now : Nat} (h : Added now s s' c l) : SameFlags s s' := by
  obtain ⟨-, clev, i, n, -, -, rfl⟩ := h
  exact sameFlags_takeSlot.trans sameFlags_modifyClient

theorem sameFlags_lobbyRemoveClientLocked {now i : Nat} {b : Bool}
    (h : lobbyRemoveClientLocked now s c i l = some (s', b)) : SameFlags s s' := by
  rw [lobbyRemoveClientLocked] at h
  split at h
  · cases h
  · cases h
    exact sameFlags_leaveSlot

theorem sameFlags_lobbyRemovePlayer : SameFlags s (lobbyRemovePlayer env s c).1 := by
  rw [lobbyRemovePlayer]
  split
  · exact SameFlags.refl s
  · rename_i l hl
    have hfirst : SameFlags s (if (s.client c).flags.bursting then clearBursting s l else s) := by
      split
      · exact @sameFlags_modifyLobby s l (fun x => x.setBursting false) rfl
      · exact SameFlags.refl s
    dsimp only
    split
    · exact hfirst
    · rename_i u deleteLobby hu
      refine (hfirst.trans (sameFlags_lobbyRemoveClientLocked hu)).trans
        (SameFlags.trans ?_ (@sameFlags_modifyClient _ c fun y => { y with curLobby := none }))
      split
      · exact sameFlags_lobbyDestroyLocked
      · exact SameFlags.refl u

/-- `lobby_change_lobby` leaves the flags alone, and lets nobody into a game that is not
available. -/
theorem sameFlags_lobbyChangeLobby (h : Seated s) (hreq : req ∈ s.lobbies) :
    SameFlags s (lobbyChangeLobby env s c req).1 ∧
      ∀ m, (s.client c).curLobby ≠ some m →
        ((lobbyChangeLobby env s c req).1.client c).curLobby = some m →
        (s.lobby m).type = .default ∨ (s.lobby m).flags.tempUnavail = false := by
  have hclear : SameFlags s (clearOverride s c) := sameFlags_modifyClient
  have hcurLobby : ((clearOverride s c).client c).curLobby = (s.client c).curLobby :=
    (still_clearOverride s c).curLobby
  rw [lobbyChangeLobby]
  cases hcur : (s.client c).curLobby with
  | none =>
      rw [hcur] at hcurLobby
      simp only [enterLobby]
      cases hadd : lobbyAddToAny env (clearOverride s c) c (some req) with
      | none =>
          refine ⟨hclear, fun m _ hm => ?_⟩
          rw [hcurLobby] at hm
          cases hm
      | some s' =>
          have hlisted : ∀ l ∈ some req, l ∈ (clearOverride s c).lobbies := by
            rintro l ⟨⟩
            exact hreq
          obtain ⟨l, hl, hadded⟩ := added_lobbyAddToAny hlisted hadd
          refine ⟨hclear.trans hadded.sameFlags, fun m _ hm => .inl ?_⟩
          obtain rfl : l = m := Option.some.inj ((hadded.transfer hcurLobby hl).after.symm.trans hm)
          exact hadded.1
  | some l =>
      rw [hcur] at hcurLobby
      obtain ⟨-, rv, -, hfail⟩ | ⟨rfl, -, hsame⟩ |
          ⟨hadmits, clev, i, b, s', rfl, hmove, htransfer⟩ :=
        moveToLobby_cases env (s.client c).flags.overrideGame (seated_clearOverride h) hcurLobby
          hreq
      · simp only [hfail]
        exact ⟨hclear, fun m hm hm' => absurd (hcurLobby.symm.trans hm') hm⟩
      · simp only [hsame]
        refine ⟨hclear.trans sameFlags_finishChange, fun m hm hm' => ?_⟩
        rw [(still_finishChange (clearOverride s c) c l false).curLobby, hcurLobby] at hm'
        exact absurd hm' hm
      · simp only [hmove]
        refine ⟨((hclear.trans sameFlags_takeSlot).trans sameFlags_leaveSlot).trans
          sameFlags_finishChange, fun m _ hm => .inr ?_⟩
        obtain rfl : req = m := Option.some.inj (htransfer.after.symm.trans hm)
        have hpolicy := hadmits.2.1
        rw [policyError] at hpolicy
        iterate 5 obtain ⟨-, hpolicy⟩ := of_check_eq_none hpolicy
        exact Bool.eq_false_iff.mpr (of_check_eq_none hpolicy).1

/-- Only the code of the check changes its flags. -/
theorem sameFlags_step {e : Event} (h : Seated s) (hok : Promised s e)
    (hflags : ∀ l flags, e.2 = .setFlags l flags →
      flags.tempUnavail = (s.lobby l).flags.tempUnavail ∧
        flags.legitMode = (s.lobby l).flags.legitMode) : SameFlags s (step s e) := by
  obtain ⟨env, call⟩ := e
  cases call with
  | addToAny c req =>
      obtain ⟨-, hreq⟩ := hok
      simp only [step, call]
      cases hadd : lobbyAddToAny env s c req with
      | none => exact SameFlags.refl s
      | some s' =>
          obtain ⟨l, -, hadded⟩ := added_lobbyAddToAny hreq hadd
          exact hadded.sameFlags
  | changeLobby c req => exact (sameFlags_lobbyChangeLobby h hok).1
  | removePlayer c => exact sameFlags_lobbyRemovePlayer
  | doneBurst c =>
      simp only [step, call, dcProcessDoneBurst]
      split
      · exact SameFlags.refl s
      · rename_i l hl
        split
        · exact SameFlags.refl s
        · exact (@sameFlags_modifyLobby s l (fun x => x.setBursting false) rfl).trans
            (@sameFlags_modifyClient _ c fun y => y.setBursting false)
  | setFlags l flags =>
      obtain ⟨hunavail, hlegit⟩ := hflags l flags rfl
      exact @sameFlags_modifyLobby s l
        (fun x => { x with flags := { flags with bursting := x.flags.bursting } })
        (Prod.ext hunavail hlegit)
  | setClient c version flags level chClass times => exact fun _ => rfl

/-- Nobody gets into a game that is not available. -/
theorem step_open {e : Event} {d : ClientRef} {m : LobbyRef} (h : Seated s) (hok : Promised s e)
    (hold : (s.client d).curLobby ≠ some m) (hnew : ((step s e).client d).curLobby = some m) :
    (s.lobby m).type = .default ∨ (s.lobby m).flags.tempUnavail = false := by
  obtain ⟨env, call⟩ := e
  have hstill (hsame : ((step s (env, call)).client d).curLobby = (s.client d).curLobby) :
      (s.lobby m).type = .default ∨ (s.lobby m).flags.tempUnavail = false :=
    absurd (hsame.symm.trans hnew) hold
  have hothers {c : ClientRef} {old new : Option LobbyRef}
      (htransfer : Transfer env s (step s (env, call)) c old new) (hne : d ≠ c) :
      (s.lobby m).type = .default ∨ (s.lobby m).flags.tempUnavail = false :=
    hstill (congrArg Client.curLobby (htransfer.others d hne))
  cases call with
  | addToAny c req =>
      obtain ⟨hcur, hreq⟩ := hok
      cases hadd : lobbyAddToAny env s c req with
      | none =>
          refine hstill ?_
          simp only [step, call, hadd]
      | some s' =>
          obtain ⟨l, hl, hadded⟩ := added_lobbyAddToAny hreq hadd
          have hs' : step s (env, .addToAny c req) = s' := by simp only [step, call, hadd]
          have htransfer := hadded.transfer hcur hl
          rw [← hs'] at htransfer
          by_cases hd : d = c
          · subst hd
            obtain rfl : l = m := Option.some.inj (htransfer.after.symm.trans hnew)
            exact .inl hadded.1
          · exact hothers htransfer hd
  | changeLobby c req =>
      by_cases hd : d = c
      · subst hd
        exact (sameFlags_lobbyChangeLobby h hok).2 m hold hnew
      · obtain ⟨-, rv, -, hfail⟩ | ⟨s', new, rv, hmove, -, htransfer, -⟩ :=
          lobbyChangeLobby_cases env c h hok
        · refine hstill ?_
          simp only [step, call, hfail]
          exact apply_client_modifyClient s c d _ Client.curLobby rfl
        · have hs' : step s (env, .changeLobby c req) = s' := by simp only [step, call, hmove]
          rw [← hs'] at htransfer
          exact hothers htransfer hd
  | removePlayer c =>
      have htransfer : Transfer env s (step s (env, .removePlayer c)) c _ none :=
        lobbyRemovePlayer_transfer h
      by_cases hd : d = c
      · subst hd
        cases htransfer.after.symm.trans hnew
      · exact hothers htransfer hd
  | doneBurst c =>
      refine hstill ?_
      simp only [step, call, dcProcessDoneBurst]
      split
      · rfl
      · split
        · rfl
        · rename_i l hl hgame
          exact apply_client_modifyClient (clearBursting s l) c d (fun y => y.setBursting false)
            Client.curLobby rfl
  | setFlags l flags => exact hstill rfl
  | setClient c version flags level chClass times =>
      exact hstill (apply_client_modifyClient s c d
        (fun y =>
          { y with
            version := version, flags := { flags with bursting := y.flags.bursting }
            level := level, chClass := chClass, times := times })
        Client.curLobby rfl)

end Flags

/-! ## Members and replies -/

section Members

variable {s : Block} {l : LobbyRef} {ds : List ClientRef}

/-- The clients in the slots of a lobby. -/
def members (s : Block) (l : LobbyRef) : List ClientRef :=
  (List.range (s.lobby l).maxClients).filterMap (s.lobby l).clients

theorem mem_members (h : Seated s) {d : ClientRef} :
    d ∈ members s l ↔ (s.client d).curLobby = some l := by
  rw [members, List.mem_filterMap]
  constructor
  · rintro ⟨i, -, hi⟩
    exact (h.clients_iff.mp hi).1
  · intro hd
    have hslot := h.clients_clientId hd
    exact ⟨_, List.mem_range.mpr ((h.counted l).slot_lt _ d hslot), hslot⟩

theorem nodup_members (h : Seated s) : (members s l).Nodup := by
  refine List.Nodup.filterMap (fun i j d hi hj => ?_) List.nodup_range
  have hplace : (l, i) = (l, j) := h.paired.place_unique (x := d) hi hj
  exact (Prod.mk.inj hplace).2

theorem length_members (h : Seated s) : (members s l).length = (s.lobby l).numClients := by
  rw [members, List.length_filterMap_eq_countP, (h.counted l).count]
  rfl

/-- Different members are no more than the lobby counts. -/
theorem length_le_numClients (h : Seated s) (hnodup : ds.Nodup)
    (hmem : ∀ d ∈ ds, (s.client d).curLobby = some l) : ds.length ≤ (s.lobby l).numClients := by
  rw [← length_members h]
  exact (hnodup.subperm fun d hd => (mem_members h).mpr (hmem d hd)).length_le

/-- As many different members as the lobby counts are all. -/
theorem mem_of_length_eq (h : Seated s) (hnodup : ds.Nodup)
    (hmem : ∀ d ∈ ds, (s.client d).curLobby = some l) (hlen : ds.length = (s.lobby l).numClients)
    {d : ClientRef} (hd : (s.client d).curLobby = some l) : d ∈ ds := by
  have hsub := hnodup.subperm fun d hd => (mem_members h).mpr (hmem d hd)
  have hperm := hsub.perm_of_length_le (Nat.le_of_eq (by rw [length_members h, hlen]))
  exact hperm.mem_iff.mpr ((mem_members h).mpr hd)

/-- As long as there are less replies than members, somebody has not replied. -/
theorem exists_waiting (h : Seated s) (hlen : ds.length < (s.lobby l).numClients) :
    ∃ d, (s.client d).curLobby = some l ∧ d ∉ ds := by
  by_contra hall
  have hsub : members s l ⊆ ds := fun d hd => by
    by_contra hnot
    exact hall ⟨d, (mem_members h).mp hd, hnot⟩
  have hle := ((nodup_members h).subperm hsub).length_le
  rw [length_members h] at hle
  exact Nat.not_lt.mpr hle hlen

end Members

/-! ## What holds during a check -/

/-- What holds while a check runs in a lobby. -/
structure CheckOn (w : Watched) (l : LobbyRef) : Prop where
  type : (w.block.lobby l).type = .game
  unavail : (w.block.lobby l).flags.tempUnavail = true
  nodup : (w.answered l).Nodup
  members : ∀ d ∈ w.answered l, (w.block.client d).curLobby = some l
  done : (w.check l).done = (w.answered l).length
  passed : (w.check l).passed = (w.cleared l).length
  cleared : List.Sublist (w.cleared l) (w.answered l)
  /-- The check waits for somebody, unless the game is gone. -/
  waiting : l ∈ w.block.lobbies → (w.answered l).length < (w.block.lobby l).numClients

/-- What holds between events. -/
structure Sound (w : Watched) : Prop where
  seated : Seated w.block
  nodup : w.block.lobbies.Nodup
  small : ∀ l, (w.block.lobby l).maxClients ≤ 12
  idle : ∀ l, (w.check l).running = false → (w.block.lobby l).flags.tempUnavail = false
  on : ∀ l, (w.check l).running = true → CheckOn w l

/-- The condition under which the counts are those of the members: in a check, nobody
replies twice, the last reply can end the check, and a member that leaves has not replied
and leaves somebody behind that has not either, or nobody at all. -/
def CheckOk (w : Watched) : CheckEvent → Prop
  | .call e => ∀ p ∈ leaving w.block e, (w.check p.2).running = true →
      p.1 ∉ w.answered p.2 ∧ ((w.block.lobby p.2).numClients = 1 ∨
        ∃ d ∈ members w.block p.2, d ≠ p.1 ∧ d ∉ w.answered p.2)
  | .char c _ _ => ∀ l ∈ checkFor w.toCheckedBlock c, c ∉ w.answered l ∧
      (w.block.client c).version ≠ .bb ∧
        (itemVersion (w.block.client c).version = none →
          (w.answered l).length + 1 ≠ (w.block.lobby l).numClients)
  | _ => True

instance (w : Watched) : (e : CheckEvent) → Decidable (CheckOk w e)
  | .call e =>
      inferInstanceAs (Decidable (∀ p ∈ leaving w.block e, (w.check p.2).running = true →
        p.1 ∉ w.answered p.2 ∧ (_ ∨ ∃ d ∈ members w.block p.2, d ≠ p.1 ∧ d ∉ w.answered p.2)))
  | .legit _ => inferInstanceAs (Decidable True)
  | .normal _ => inferInstanceAs (Decidable True)
  | .char c _ _ => inferInstanceAs (Decidable (∀ l ∈ checkFor w.toCheckedBlock c, _ ∧ _ ∧ (_ → _)))

section Steps

variable {w w' : Watched} {c d : ClientRef} {l m : LobbyRef} {e : Event}

/-- A check goes on when nothing of it changes. -/
theorem CheckOn.congr (h : CheckOn w l) (htype : (w'.block.lobby l).type = (w.block.lobby l).type)
    (hunavail : (w'.block.lobby l).flags.tempUnavail = (w.block.lobby l).flags.tempUnavail)
    (hnum : (w'.block.lobby l).numClients = (w.block.lobby l).numClients)
    (hblock : w'.block.client = w.block.client ∧ w'.block.lobbies = w.block.lobbies)
    (hcheck : w'.check l = w.check l)
    (hreplies : w'.answered l = w.answered l ∧ w'.cleared l = w.cleared l) : CheckOn w' l where
  type := htype.trans h.type
  unavail := hunavail.trans h.unavail
  nodup := hreplies.1 ▸ h.nodup
  members d hd := by
    rw [hblock.1]
    exact h.members d (hreplies.1 ▸ hd)
  done := by rw [hcheck, h.done, hreplies.1]
  passed := by rw [hcheck, h.passed, hreplies.2]
  cleared := by
    rw [hreplies.1, hreplies.2]
    exact h.cleared
  waiting hl := by
    rw [hreplies.1, hnum]
    exact h.waiting (hblock.2 ▸ hl)

/-- What the callers promise of a call. -/
theorem promised_of_checkPromised {s : CheckedBlock} (h : CheckPromised s (.call e)) :
    Promised s.block e ∧ ∀ l flags, e.2 = .setFlags l flags →
      flags.tempUnavail = (s.block.lobby l).flags.tempUnavail ∧
        flags.legitMode = (s.block.lobby l).flags.legitMode := by
  obtain ⟨env, call⟩ := e
  cases call with
  | setFlags l flags =>
      refine ⟨h.1, fun l' flags' heq => ?_⟩
      cases heq
      exact h.2
  | addToAny c req => exact ⟨h, fun _ _ heq => nomatch heq⟩
  | changeLobby c req => exact ⟨h, fun _ _ heq => nomatch heq⟩
  | removePlayer c => exact ⟨h, fun _ _ heq => nomatch heq⟩
  | doneBurst c => exact ⟨h, fun _ _ heq => nomatch heq⟩
  | setClient c version flags level chClass times => exact ⟨h, fun _ _ heq => nomatch heq⟩

/-- Calls keep a check going. -/
theorem CheckOn.call (h : CheckOn w l) (hs : Sound w) (hrun : (w.check l).running = true)
    (hpromised : CheckPromised w.toCheckedBlock (.call e)) (hok : CheckOk w (.call e)) :
    CheckOn (watch w (.call e)) l := by
  obtain ⟨hcall, hflags⟩ := promised_of_checkPromised hpromised
  obtain ⟨c, old, new, htransfer, hleaving, -⟩ := step_cases hs.seated hcall
  have hsame := sameFlags_step hs.seated hcall hflags
  have hseated := seated_step w.block e hs.seated hcall
  have hleft (hold : old = some l) (hnew : new ≠ some l) :=
    hok (c, l) ((leaving_iff hleaving).mpr ⟨hold, hnew⟩) hrun
  have hmember {d : ClientRef} (hd : (w.block.client d).curLobby = some l)
      (hstays : d = c → new = some l) : ((step w.block e).client d).curLobby = some l := by
    by_cases hdc : d = c
    · rw [hdc, htransfer.after, hstays hdc]
    · rw [htransfer.others d hdc, hd]
  have hmembers : ∀ d ∈ w.answered l, ((step w.block e).client d).curLobby = some l := by
    intro d hd
    refine hmember (h.members d hd) fun hdc => ?_
    by_contra hnew
    exact (hleft (htransfer.before.symm.trans (hdc ▸ h.members d hd)) hnew).1 (hdc ▸ hd)
  refine
    { type := (htransfer.type_eq l).trans h.type
      unavail := (congrArg Prod.fst (hsame l)).trans h.unavail
      nodup := h.nodup
      members := hmembers
      done := h.done
      passed := h.passed
      cleared := h.cleared
      waiting := fun hl => ?_ }
  change (w.answered l).length < ((step w.block e).lobby l).numClients
  have hbefore := h.waiting (htransfer.mem_of_mem hl)
  by_cases hold : old = some l <;> by_cases hnew : new = some l
  · rwa [Lobby.eq_of_core Lobby.numClients (fun _ => rfl)
      (htransfer.kept l ⟨fun _ => hnew, fun _ => hold⟩)]
  · -- somebody who has not replied is left behind
    obtain ⟨-, hlast | ⟨d, hd, hdc, hwaits⟩⟩ := hleft hold hnew
    · have hgame : (w.block.lobby l).type ≠ .default := by
        rw [h.type]
        decide
      exact absurd hl (htransfer.not_mem_of_last hs.nodup hold hnew hgame hlast)
    · have hd' := hmember ((mem_members hs.seated).mp hd) fun heq => absurd heq hdc
      refine @length_le_numClients _ _ (d :: w.answered l) hseated
        (List.nodup_cons.mpr ⟨hwaits, h.nodup⟩) fun x hx => ?_
      obtain rfl | hx := List.mem_cons.mp hx
      · exact hd'
      · exact hmembers x hx
  · have hclosed := step_open (d := c) (m := l) hs.seated hcall
      (fun heq => hold (htransfer.before.symm.trans heq)) (htransfer.after.trans hnew)
    rw [h.type, h.unavail] at hclosed
    simp only [reduceCtorEq, or_self] at hclosed
  · rwa [Lobby.eq_of_core Lobby.numClients (fun _ => rfl)
      (htransfer.kept l ⟨fun heq => absurd heq hold, fun heq => absurd heq hnew⟩)]

/-- What calls keep. -/
theorem Sound.call (h : Sound w) (hpromised : CheckPromised w.toCheckedBlock (.call e))
    (hok : CheckOk w (.call e)) : Sound (watch w (.call e)) := by
  obtain ⟨hcall, hflags⟩ := promised_of_checkPromised hpromised
  obtain ⟨c, old, new, htransfer, -⟩ := step_cases h.seated hcall
  have hsame := sameFlags_step h.seated hcall hflags
  exact
    { seated := seated_step w.block e h.seated hcall
      nodup := htransfer.nodup h.nodup
      small := fun l => htransfer.maxClients_eq l ▸ h.small l
      idle := fun l hl => (congrArg Prod.fst (hsame l)).trans (h.idle l hl)
      on := fun l hl => (h.on l hl).call h hl hpromised hok }

/-- Other flags do not matter for who is where. -/
theorem seated_setLegit {s : Block} (h : Seated s) (f g : Lobby → Bool) :
    Seated (s.modifyLobby l fun x => x.setLegit (f x) (g x)) :=
  seated_step s ({ now := 0 }, .setFlags l
    { (s.lobby l).flags with tempUnavail := f (s.lobby l), legitMode := g (s.lobby l) }) h trivial

theorem modifyLobby_self (s : Block) (l : LobbyRef) :
    (s.modifyLobby l fun x => x.setLegit x.flags.tempUnavail x.flags.legitMode) = s := by
  rw [Block.modifyLobby]
  exact congrArg (fun f => { s with lobby := f }) (Function.update_eq_self l s.lobby)

/-- Changing the flags of a lobby keeps what holds of the checks that run, if it does so where
the flags change. -/
theorem Sound.of_setLegit (h : Sound w) (f g : Lobby → Bool)
    (hblock : w'.block = w.block.modifyLobby l fun x => x.setLegit (f x) (g x))
    (hothers : ∀ m, m ≠ l → w'.check m = w.check m ∧ w'.answered m = w.answered m ∧
      w'.cleared m = w.cleared m)
    (hidle : (w'.check l).running = false → f (w.block.lobby l) = false)
    (hon : (w'.check l).running = true → CheckOn w' l) : Sound w' where
  seated := by
    rw [hblock]
    exact seated_setLegit h.seated f g
  nodup := by
    rw [hblock]
    exact h.nodup
  small m := by
    rw [hblock, apply_lobby_modifyLobby w.block l m _ Lobby.maxClients rfl]
    exact h.small m
  idle m hm := by
    by_cases hml : m = l
    · subst hml
      rw [hblock, lobby_modifyLobby_self]
      exact hidle hm
    · rw [(hothers m hml).1] at hm
      rw [hblock, lobby_modifyLobby_of_ne _ _ hml]
      exact h.idle m hm
  on m hm := by
    by_cases hml : m = l
    · subst hml
      exact hon hm
    · obtain ⟨hcheck, hreplies⟩ := hothers m hml
      have hlobby : w'.block.lobby m = w.block.lobby m := by
        rw [hblock, lobby_modifyLobby_of_ne _ _ hml]
      rw [hcheck] at hm
      exact (h.on m hm).congr (by rw [hlobby]) (by rw [hlobby]) (by rw [hlobby])
        (by rw [hblock]; exact ⟨rfl, rfl⟩) hcheck hreplies

/-- Starting a check. -/
theorem Sound.legit (h : Sound w) (c : ClientRef) : Sound (watch w (.legit c)) := by
  cases hcur : (w.block.client c).curLobby with
  | none =>
      have hsame : watch w (.legit c) = w := by
        simp only [watch, checkStep, handleLegit, hcur]
      rwa [hsame]
  | some l =>
      by_cases hallowed : LegitAllowed w.toCheckedBlock c l
      · have hwatch : watch w (.legit c) =
            { block := w.block.modifyLobby l fun x => x.setLegit true x.flags.legitMode
              check := update w.check l { running := true }
              answered := update w.answered l []
              cleared := update w.cleared l [] } := by
          simp only [watch, checkStep, handleLegit, hcur, if_pos hallowed]
        rw [hwatch]
        refine h.of_setLegit (fun _ => true) (fun x => x.flags.legitMode) rfl
          (fun m hm => ?_) (fun hrun => ?_) fun _ => ?_
        · simp only [Function.update_of_ne hm, true_and]
        · simp only [Function.update_self, reduceCtorEq] at hrun
        · have hone : 1 ≤ (w.block.lobby l).numClients :=
            @length_le_numClients _ _ [c] h.seated (List.nodup_singleton c) fun d hd => by
              rw [List.mem_singleton.mp hd, hcur]
          have hlobby := lobby_modifyLobby_self w.block l fun x => x.setLegit true x.flags.legitMode
          refine
            { type := (congrArg Lobby.type hlobby).trans hallowed.1
              unavail := congrArg (fun x => x.flags.tempUnavail) hlobby
              nodup := ?_, members := ?_, done := ?_, passed := ?_, cleared := ?_, waiting := ?_ }
          all_goals simp only [Function.update_self]
          · exact List.nodup_nil
          · exact fun d hd => nomatch hd
          · rfl
          · rfl
          · exact List.Sublist.slnil
          · exact fun _ => Nat.lt_of_lt_of_eq hone (congrArg Lobby.numClients hlobby).symm
      · have hsame : watch w (.legit c) = w := by
          simp only [watch, checkStep, handleLegit, hcur, if_neg hallowed]
        rwa [hsame]

/-- Ending legit mode. -/
theorem Sound.normal (h : Sound w) (c : ClientRef) : Sound (watch w (.normal c)) := by
  have hreplies : (watch w (.normal c)).answered = w.answered ∧
      (watch w (.normal c)).cleared = w.cleared := ⟨rfl, rfl⟩
  have hcases : handleNormal w.toCheckedBlock c = w.toCheckedBlock ∨
      ∃ l, (w.check l).running = false ∧ handleNormal w.toCheckedBlock c =
        { w.toCheckedBlock with
          block := w.block.modifyLobby l fun x => x.setLegit x.flags.tempUnavail false } := by
    rw [handleNormal]
    split
    · exact .inl rfl
    · rename_i l hl
      split
      · rename_i hnormal
        exact .inr ⟨l, hnormal.2.2.1, rfl⟩
      · exact .inl rfl
  obtain hsame | ⟨l, hrun, hnormal⟩ := hcases
  · have hwatch : watch w (.normal c) = w := by
      simp only [watch, checkStep, hsame]
    rwa [hwatch]
  · have hwatch : watch w (.normal c) = { w with
        block := w.block.modifyLobby l fun x => x.setLegit x.flags.tempUnavail false } := by
      simp only [watch, checkStep, hnormal]
    rw [hwatch]
    refine h.of_setLegit (fun x => x.flags.tempUnavail) (fun _ => false) rfl
      (fun m hm => ⟨rfl, rfl, rfl⟩) (fun _ => h.idle l hrun) fun hrun' => ?_
    exact absurd (hrun.symm.trans hrun') Bool.false_ne_true

/-- What a reply to a check does: the check goes on, or ends. -/
inductive Replied (w w' : Watched) (l : LobbyRef) : Prop
  | goesOn (hblock : w'.block = w.block) (hrun : (w'.check l).running = true)
      (hdone : (w'.check l).done = (w'.answered l).length)
      (hpassed : (w'.check l).passed = (w'.cleared l).length)
      (hwaits : (w'.answered l).length ≠ (w.block.lobby l).numClients)
  | ends (hblock : w'.block = w.block.modifyLobby l fun x => x.setLegit false
        (if (w'.cleared l).length = x.numClients then true else x.flags.legitMode))
      (hrun : (w'.check l).running = false)

/-- A check is for members, and runs. -/
theorem checkFor_eq_some {s : CheckedBlock} (h : checkFor s c = some l) :
    (s.block.client c).curLobby = some l ∧ (s.check l).running = true := by
  rw [checkFor] at h
  split at h
  · cases h
  · split at h
    · rename_i m hm hcheck
      cases h
      exact ⟨hm, hcheck.2⟩
    · cases h

/-- Character data that is not for a check changes nothing. -/
theorem watch_char_none {limits : Option Limits} {inv : List Bb.Item}
    (hfor : checkFor w.toCheckedBlock c = none) : watch w (.char c limits inv) = w := by
  have hsame : processCharData w.toCheckedBlock c limits inv = w.toCheckedBlock := by
    simp only [processCharData, dcProcessChar, hfor, ite_self]
  simp only [watch, checkStep, hfor, hsame]

/-- What a reply to a check adds to what is watched. -/
theorem watch_char (hfor : checkFor w.toCheckedBlock c = some l) (limits : Option Limits)
    (inv : List Bb.Item) :
    (watch w (.char c limits inv)).answered = update w.answered l (c :: w.answered l) ∧
    (watch w (.char c limits inv)).cleared = if passes w.toCheckedBlock c l limits inv then
      update w.cleared l (c :: w.cleared l) else w.cleared := by
  simp only [watch, hfor, and_self]

/-- The members that have answered are told apart, after another reply. -/
theorem Sound.answers (h : Sound w) (limits : Option Limits) (inv : List Bb.Item)
    (hfor : checkFor w.toCheckedBlock c = some l) (hnew : c ∉ w.answered l)
    (hw' : w' = watch w (.char c limits inv)) :
    (w'.answered l).Nodup ∧ (∀ d ∈ w'.answered l, (w.block.client d).curLobby = some l) ∧
      List.Sublist (w'.cleared l) (w'.answered l) := by
  obtain ⟨hcur, hrun⟩ := checkFor_eq_some hfor
  have hon := h.on l hrun
  obtain ⟨hanswered, hcleared⟩ := watch_char hfor limits inv
  rw [← hw'] at hanswered hcleared
  have hself : w'.answered l = c :: w.answered l := by rw [hanswered, Function.update_self]
  rw [hself]
  refine ⟨List.nodup_cons.mpr ⟨hnew, hon.nodup⟩, fun d hd => ?_, ?_⟩
  · obtain rfl | hd := List.mem_cons.mp hd
    · exact hcur
    · exact hon.members d hd
  · rw [hcleared]
    split
    · rw [Function.update_self]
      exact hon.cleared.cons_cons c
    · exact hon.cleared.cons c

/-- The counts of a check after another reply, which do not overflow. -/
theorem Sound.counts (h : Sound w) (limits : Option Limits) (inv : List Bb.Item)
    (hfor : checkFor w.toCheckedBlock c = some l) (hnew : c ∉ w.answered l)
    (hw' : w' = watch w (.char c limits inv)) :
    ((w.check l).done + 1) % 256 = (w'.answered l).length ∧
      (if passes w.toCheckedBlock c l limits inv then ((w.check l).passed + 1) % 256
        else (w.check l).passed) = (w'.cleared l).length := by
  obtain ⟨hnodup, hmembers, -⟩ := h.answers limits inv hfor hnew hw'
  have hon := h.on l (checkFor_eq_some hfor).2
  obtain ⟨hanswered, hcleared⟩ := watch_char hfor limits inv
  rw [← hw'] at hanswered hcleared
  have hself : w'.answered l = c :: w.answered l := by rw [hanswered, Function.update_self]
  have hlen : (w'.answered l).length ≤ (w.block.lobby l).numClients :=
    length_le_numClients h.seated hnodup hmembers
  have hnum : (w.block.lobby l).numClients ≤ 12 := by
    rw [(h.seated.counted l).count]
    exact Nat.le_trans (Slots.filled_le ..) (h.small l)
  have hpassed := hon.cleared.length_le
  rw [hself, List.length_cons] at hlen ⊢
  refine ⟨by rw [hon.done]; exact Nat.mod_eq_of_lt (by omega), ?_⟩
  rw [hcleared]
  split
  · rw [Function.update_self, List.length_cons, hon.passed, Nat.mod_eq_of_lt (by omega)]
  · exact hon.passed

/-- A reply is counted, and ends the check if it was the last one. -/
theorem Sound.char (h : Sound w) (limits : Option Limits) (inv : List Bb.Item)
    (hfor : checkFor w.toCheckedBlock c = some l) (hok : CheckOk w (.char c limits inv))
    (hw' : w' = watch w (.char c limits inv)) :
    (∀ m, m ≠ l → w'.check m = w.check m ∧ w'.answered m = w.answered m ∧
      w'.cleared m = w.cleared m) ∧
    ((w'.answered l).Nodup ∧ (∀ d ∈ w'.answered l, (w.block.client d).curLobby = some l) ∧
      List.Sublist (w'.cleared l) (w'.answered l)) ∧
    Replied w w' l := by
  obtain ⟨hnew, hbb, hlast⟩ := hok l hfor
  have hrun := (checkFor_eq_some hfor).2
  have hanswers := h.answers limits inv hfor hnew hw'
  obtain ⟨hdone, hpassed⟩ := h.counts limits inv hfor hnew hw'
  obtain ⟨hanswered, hcleared⟩ := watch_char hfor limits inv
  rw [← hw'] at hanswered hcleared
  have hself : w'.answered l = c :: w.answered l := by rw [hanswered, Function.update_self]
  have hothers : ∀ m, m ≠ l → w'.answered m = w.answered m ∧ w'.cleared m = w.cleared m := by
    intro m hm
    rw [hanswered, hcleared]
    refine ⟨Function.update_of_ne hm .., ?_⟩
    split
    · exact Function.update_of_ne hm ..
    · rfl
  have hstep : w'.toCheckedBlock = dcProcessChar w.toCheckedBlock c limits inv := by
    rw [hw']
    exact if_neg hbb
  simp only [dcProcessChar, hfor, hdone] at hstep
  cases hversion : itemVersion (w.block.client c).version with
  | none =>
      have hpasses : passes w.toCheckedBlock c l limits inv = false := by
        simp only [passes, hversion]
      rw [if_neg (by rw [hpasses]; exact Bool.false_ne_true)] at hpassed
      simp only [hversion] at hstep
      have hblock := congrArg CheckedBlock.block hstep
      have hcheck := congrArg CheckedBlock.check hstep
      dsimp only at hblock hcheck
      refine ⟨fun m hm => ⟨by rw [hcheck, Function.update_of_ne hm], hothers m hm⟩,
        hanswers, .goesOn hblock ?_ ?_ ?_ (hself ▸ hlast hversion)⟩
      · rw [hcheck, Function.update_self]
        exact hrun
      · rw [hcheck, Function.update_self]
      · rw [hcheck, Function.update_self]
        exact hpassed
  | some v =>
      simp only [hversion] at hstep
      have hcount : (if passes w.toCheckedBlock c l limits inv then
          { running := (w.check l).running, done := (w'.answered l).length
            passed := ((w.check l).passed + 1) % 256 }
          else
            { running := (w.check l).running, done := (w'.answered l).length
              passed := (w.check l).passed }) = ({ running := true
                                                   done := (w'.answered l).length
                                                   passed := (w'.cleared l).length } :
            LegitCheck) := by
        rw [← hpassed, hrun]
        split <;> rfl
      simp only [hcount] at hstep
      by_cases hend : (w'.answered l).length = (w.block.lobby l).numClients
      · rw [if_pos hend] at hstep
        have hblock := congrArg CheckedBlock.block hstep
        have hcheck := congrArg CheckedBlock.check hstep
        simp only [lobbyLegitCheckFinishLocked, Function.update_self] at hblock hcheck
        refine ⟨fun m hm => ⟨?_, hothers m hm⟩, hanswers, .ends hblock ?_⟩
        · rw [hcheck, Function.update_of_ne hm, Function.update_of_ne hm]
        · rw [hcheck, Function.update_self]
      · rw [if_neg hend] at hstep
        have hblock := congrArg CheckedBlock.block hstep
        have hcheck := congrArg CheckedBlock.check hstep
        dsimp only at hblock hcheck
        refine ⟨fun m hm => ⟨by rw [hcheck, Function.update_of_ne hm], hothers m hm⟩,
          hanswers, .goesOn hblock ?_ ?_ ?_ hend⟩
        all_goals rw [hcheck, Function.update_self]
/-- Every event keeps the checks right. -/
theorem sound_step (w : Watched) (e : CheckEvent) (h : Sound w)
    (hok : CheckPromised w.toCheckedBlock e ∧ CheckOk w e) : Sound (watch w e) := by
  cases e with
  | call e => exact h.call hok.1 hok.2
  | legit c => exact h.legit c
  | normal c => exact h.normal c
  | char c limits inv =>
      cases hfor : checkFor w.toCheckedBlock c with
      | none => rwa [watch_char_none hfor]
      | some l =>
          obtain ⟨hothers, ⟨hnodup, hmembers, hsub⟩, hreplied⟩ := h.char limits inv hfor hok.2 rfl
          cases hreplied with
          | goesOn hblock hrun hdone hpassed hwaits =>
              have hon := h.on l (checkFor_eq_some hfor).2
              refine h.of_setLegit (fun x => x.flags.tempUnavail) (fun x => x.flags.legitMode)
                (hblock.trans (modifyLobby_self ..).symm) hothers
                (fun hstopped => absurd (hstopped.symm.trans hrun) Bool.false_ne_true) fun _ => ?_
              refine
                { type := hblock ▸ hon.type
                  unavail := hblock ▸ hon.unavail
                  nodup := hnodup
                  members := hblock ▸ hmembers
                  done := hdone
                  passed := hpassed
                  cleared := hsub
                  waiting := fun _ => ?_ }
              rw [hblock]
              exact Nat.lt_of_le_of_ne (length_le_numClients h.seated hnodup hmembers) hwaits
          | ends hblock hrun =>
              exact h.of_setLegit (fun _ => false) _ hblock hothers (fun _ => rfl)
                fun hgoes => absurd (hrun.symm.trans hgoes) Bool.false_ne_true

/-- The command for a check does not turn legit mode on. -/
theorem legitMode_handleLegit (s : CheckedBlock) :
    ((handleLegit s c).block.lobby l).flags.legitMode = (s.block.lobby l).flags.legitMode := by
  rw [handleLegit]
  split
  · rfl
  · split
    · exact apply_lobby_modifyLobby s.block _ l (fun x => x.setLegit true x.flags.legitMode)
        (fun x => x.flags.legitMode) rfl
    · rfl

/-- The command that ends legit mode does not turn it on. -/
theorem legitMode_handleNormal (s : CheckedBlock)
    (h : ((handleNormal s c).block.lobby l).flags.legitMode = true) :
    (s.block.lobby l).flags.legitMode = true := by
  rw [handleNormal] at h
  split at h
  · exact h
  · split at h
    · rename_i m hm hnormal
      by_cases hlm : l = m
      · subst hlm
        exact hnormal.2.2.2
      · rwa [lobby_modifyLobby_of_ne _ _ hlm] at h
    · exact h

/-- If legit mode is turned on, all members have passed the check. -/
theorem passed_step {e : CheckEvent} (h : Sound w)
    (hok : CheckPromised w.toCheckedBlock e ∧ CheckOk w e)
    (hoff : (w.block.lobby l).flags.legitMode = false)
    (hon : ((watch w e).block.lobby l).flags.legitMode = true)
    (hd : ((watch w e).block.client d).curLobby = some l) : d ∈ (watch w e).cleared l := by
  have hsame (heq : ((watch w e).block.lobby l).flags.legitMode =
      (w.block.lobby l).flags.legitMode) : d ∈ (watch w e).cleared l :=
    absurd (hoff.symm.trans (heq.symm.trans hon)) Bool.false_ne_true
  cases e with
  | call e =>
      obtain ⟨hcall, hflags⟩ := promised_of_checkPromised hok.1
      exact hsame (congrArg Prod.snd (sameFlags_step h.seated hcall hflags l))
  | legit c => exact hsame (legitMode_handleLegit w.toCheckedBlock)
  | normal c => exact hsame (hon.trans (legitMode_handleNormal w.toCheckedBlock hon).symm)
  | char c limits inv =>
      cases hfor : checkFor w.toCheckedBlock c with
      | none => exact hsame (by rw [watch_char_none hfor])
      | some m =>
          obtain ⟨-, ⟨hnodup, hmembers, hsub⟩, hreplied⟩ := h.char limits inv hfor hok.2 rfl
          cases hreplied with
          | goesOn hblock => exact hsame (by rw [hblock])
          | ends hblock hrun =>
              by_cases hlm : l = m
              · subst hlm
                rw [hblock, lobby_modifyLobby_self] at hon
                have hall : ((watch w (.char c limits inv)).cleared l).length =
                    (w.block.lobby l).numClients := by
                  by_contra hnot
                  simp only [Lobby.setLegit, if_neg hnot, hoff, Bool.false_eq_true] at hon
                rw [hblock] at hd
                exact mem_of_length_eq h.seated (hsub.nodup hnodup)
                  (fun x hx => hmembers x (hsub.subset hx)) hall hd
              · exact hsame (by rw [hblock, lobby_modifyLobby_of_ne _ _ hlm])

end Steps

/-! ## Runs -/

section Runs

variable {b : Block} {w : Watched} {es : List CheckEvent}

/-- The start of a run. -/
theorem Block.Empty.sound (h : b.Empty) (hnodup : b.lobbies.Nodup)
    (hsmall : ∀ l, (b.lobby l).maxClients ≤ 12)
    (havail : ∀ l, (b.lobby l).flags.tempUnavail = false) : Sound b.unwatched where
  seated := h.seated
  nodup := hnodup
  small := hsmall
  idle l _ := havail l
  on _ hl := nomatch hl

/-- In runs of such events, no check runs, and no game is unavailable, when all members have
replied, and whenever legit mode is turned on, all members have passed that check. -/
theorem legit_run (hempty : b.Empty) (hnodup : b.lobbies.Nodup)
    (hsmall : ∀ l, (b.lobby l).maxClients ≤ 12)
    (havail : ∀ l, (b.lobby l).flags.tempUnavail = false)
    (hrun : Run.Guarded watch (fun w e => CheckPromised w.toCheckedBlock e ∧ CheckOk w e)
      b.unwatched es) (hw : w = es.foldl watch b.unwatched) :
    (∀ l ∈ w.block.lobbies,
      (∀ d, (w.block.client d).curLobby = some l → d ∈ w.answered l) →
        (w.check l).running = false ∧ (w.block.lobby l).flags.tempUnavail = false) ∧
    ∀ e, CheckPromised w.toCheckedBlock e → CheckOk w e → ∀ l,
      (w.block.lobby l).flags.legitMode = false →
      ((watch w e).block.lobby l).flags.legitMode = true →
      ∀ d, ((watch w e).block.client d).curLobby = some l → d ∈ (watch w e).cleared l := by
  have hsound : Sound w := hw ▸ hrun.invariant sound_step (hempty.sound hnodup hsmall havail)
  refine ⟨fun l hl hall => ?_, fun e hpromised hok l hoff hon d hd =>
    passed_step hsound ⟨hpromised, hok⟩ hoff hon hd⟩
  have hidle : (w.check l).running = false := by
    by_contra hrunning
    rw [Bool.not_eq_false] at hrunning
    obtain ⟨d, hd, hwaits⟩ :=
      exists_waiting hsound.seated ((hsound.on l hrunning).waiting hl)
    exact hwaits (hall d hd)
  exact ⟨hidle, hsound.idle l hidle⟩

/-- Two clients join a game, and the leader asks for a check. -/
def asksForCheck : List CheckEvent :=
  [.call ({ now := 1 }, .addToAny 0 none), .call ({ now := 2 }, .changeLobby 0 1),
    .call ({ now := 3 }, .doneBurst 0), .call ({ now := 4 }, .addToAny 1 none),
    .call ({ now := 5 }, .changeLobby 1 1), .call ({ now := 6 }, .doneBurst 1), .legit 0]

/-- Limits that no item passes. -/
def noItems : Option Limits := some fun _ _ => false

/-- The other member replies to the check. -/
def memberReplies : List CheckEvent := asksForCheck ++ [.char 1 noItems []]

theorem legit_run_bothReply :
    0 ∈ (watch (memberReplies.foldl watch twoLobbies.unwatched) (.char 0 noItems [])).cleared 1 ∧
      1 ∈ (watch (memberReplies.foldl watch twoLobbies.unwatched)
        (.char 0 noItems [])).cleared 1 := by
  have hcleared := (@legit_run _ _ memberReplies empty_twoLobbies (by decide)
    (fun l => by simp only [twoLobbies]; split <;> decide)
    (fun l => by simp only [twoLobbies]; split <;> rfl) (by decide) rfl).2
    (.char 0 noItems []) (by decide) (by decide) 1 (by decide) (by decide)
  exact ⟨hcleared 0 (by decide), hcleared 1 (by decide)⟩

/-- The leader replies twice. -/
def repliesTwice : List CheckEvent := asksForCheck ++ [.char 0 noItems [], .char 0 noItems []]

/-- The other member, who is still in the game, has not replied, and it is in legit mode. -/
theorem not_passed_repliesTwice :
    Run.Guarded watch (fun w e => CheckPromised w.toCheckedBlock e) twoLobbies.unwatched
      repliesTwice ∧
    ((asksForCheck.foldl watch twoLobbies.unwatched).block.lobby 1).flags.legitMode = false ∧
    ((repliesTwice.foldl watch twoLobbies.unwatched).block.lobby 1).flags.legitMode = true ∧
    ((repliesTwice.foldl watch twoLobbies.unwatched).block.client 1).curLobby = some 1 ∧
    1 ∉ (repliesTwice.foldl watch twoLobbies.unwatched).cleared 1 := by
  decide

end Runs

end Sylverant.Ship
