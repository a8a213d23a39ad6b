/-
# What a call can do

Every call is a transfer of one client and a signal of that client. This is all that the
invariants of blocks need to know about the calls.
-/

import Sylverant.Ship.Signals

namespace Sylverant.Ship

open Function (update)

/-- The condition under which an event leaves the bursting flags right: no bursting client
leaves a game for another lobby unless it is the last one there, and no client says that
it is done while another one bursts. -/
def BurstOk (s : Block) (e : Event) : Prop :=
  match e.2 with
  | .changeLobby c _ => ∀ l, leaving s e = some (c, l) → (s.lobby l).type ≠ .default →
      bursting s c → (s.lobby l).numClients = 1
  | .doneBurst c => ∀ l, (s.client c).curLobby = some l → (s.lobby l).type ≠ .default →
      bursting s c ∨ ∀ d, (s.client d).curLobby = some l → bursting s d = false
  | _ => True

section Calls

variable {env : Env} {s s' : Block} {c : ClientRef} {l : LobbyRef} {old new : Option LobbyRef}
  {e : Event}

/-- Flags do not matter for who is where. -/
theorem seated_clearOverride (h : Seated s) : Seated (clearOverride s c) where
  paired := by
    have hseat : seat (clearOverride s c) = seat s := by
      funext d
      rw [seat, seat, clearOverride, apply_client_modifyClient s c d _ Client.curLobby rfl,
        apply_client_modifyClient s c d _ Client.clientId rfl]
    rw [hseat]
    exact h.paired
  counted := h.counted
  listed d l hl :=
    h.listed d l ((apply_client_modifyClient s c d _ Client.curLobby rfl).symm.trans hl)

/-- A client without its override flag. -/
theorem admits_clearOverride {legit override : Bool} {req : LobbyRef} :
    ((clearOverride s c).lobby req).admits legit override ((clearOverride s c).client c) ↔
      (s.lobby req).admits legit override (s.client c) := by
  have hclient : (clearOverride s c).client c =
      { s.client c with flags := { (s.client c).flags with overrideGame := false } } :=
    client_modifyClient_self s c _
  rw [hclient]
  exact Iff.rfl

/-- What is known of the client that leaves, in terms of the transfer. -/
theorem leaving_iff (h : leaving s e = if old = new then none else old.map fun l => (c, l)) :
    leaving s e = some (c, l) ↔ old = some l ∧ new ≠ some l := by
  rw [h]
  constructor
  · intro heq
    split_ifs at heq with hsame
    obtain ⟨m, rfl, hpair⟩ := Option.map_eq_some_iff.mp heq
    cases hpair
    exact ⟨rfl, fun hnew => hsame hnew.symm⟩
  · rintro ⟨rfl, hnew⟩
    rw [if_neg fun heq => hnew heq.symm]
    rfl

/-- `lobby_add_to_any` leaves the flags alone. -/
theorem Added.signal {now : Nat} (h : Added now s s' c l) :
    Signal s s' c none (some l) (LeavesCalm s c none (some l)) := by
  obtain ⟨htype, clev, i, n, -, -, rfl⟩ := h
  refine .quiet ?_ ?_ fun m hm => ?_
  · rw [held_modifyClient, held_takeSlot]
  · rw [bursting_modifyClient, bursting_takeSlot]
    rfl
  · cases hm
    exact .inr htype

theorem leavesCalm_clearOverride :
    LeavesCalm (clearOverride s c) c old new ↔ LeavesCalm s c old new := by
  rw [LeavesCalm, LeavesCalm, bursting_clearOverride]
  exact Iff.rfl

/-- Clearing the override flag first makes no difference. -/
theorem Signal.of_clearOverride {ok : Prop} (h : Signal (clearOverride s c) s' c old new ok) :
    ∃ ok', (ok' ↔ ok) ∧ Signal s s' c old new ok' := by
  have hflag : bursting (clearOverride s c) = bursting s := bursting_clearOverride
  have hcur (d : ClientRef) : ((clearOverride s c).client d).curLobby = (s.client d).curLobby :=
    apply_client_modifyClient s c d _ Client.curLobby rfl
  cases h with
  | quiet hheld hbursting hjoin =>
      exact ⟨_, leavesCalm_clearOverride.symm, .quiet hheld (hbursting.trans hflag) hjoin⟩
  | start hgame hfree hheld hbursting =>
      exact ⟨_, leavesCalm_clearOverride.symm, .start hgame hfree hheld (by rw [hbursting, hflag])⟩
  | unlock hc hheld hbursting =>
      exact ⟨_, Iff.rfl, .unlock (by rw [← hflag]; exact hc) hheld (hbursting.trans hflag)⟩
  | done hgame hheld hbursting =>
      refine ⟨_, ?_, .done hgame hheld (by rw [hbursting, hflag])⟩
      simp only [hflag, hcur]

/-- The end of `lobby_change_lobby` for a client that was let into a lobby. -/
theorem signal_finishChange {t : Block} {m : LobbyRef} {b : Bool}
    (hnew : (t.client c).curLobby = some m) (htype : (t.lobby m).type = (s.lobby m).type)
    (hheld : held t = held s) (hbursting : bursting t = bursting s) (hfree : held s m = false)
    {k : LobbyRef} :
    Signal s (finishChange t c k b) c (some l) (some m) (LeavesCalm s c (some l) (some m)) := by
  by_cases hdefault : (s.lobby m).type = .default
  · obtain ⟨hheld', hbursting'⟩ := flags_finishChange_default hnew (htype.trans hdefault)
    refine .quiet (hheld'.trans hheld) (hbursting'.trans hbursting) fun q hq => ?_
    cases hq
    exact .inr hdefault
  · obtain ⟨hheld', hbursting'⟩ := flags_finishChange_game hnew (by rwa [htype])
    rw [hheld] at hheld'
    rw [hbursting] at hbursting'
    exact .start hdefault hfree hheld' hbursting'

/-- `lobby_change_lobby` fails with nothing changed but the override flag, or moves the
client. It returns -11 although it moved the client when a client that was in no lobby
could not be told. -/
theorem lobbyChangeLobby_cases (env : Env) (c : ClientRef) (h : Seated s) {req : LobbyRef}
    (hreq : req ∈ s.lobbies) :
    (leaving s (env, .changeLobby c req) = none ∧
      ∃ rv, rv ≠ 0 ∧ lobbyChangeLobby env s c req = (clearOverride s c, rv)) ∨
    ∃ s' new rv, lobbyChangeLobby env s c req = (s', rv) ∧
      ((s.client c).curLobby = none ∧ (s.lobby new).type = .default ∧ (rv = 0 ∨ rv = -11) ∨
        (s.client c).curLobby ≠ none ∧ new = req ∧ rv = 0) ∧
      Transfer env s s' c (s.client c).curLobby (some new) ∧
      (leaving s (env, .changeLobby c req) =
        if (s.client c).curLobby = some new then none
        else (s.client c).curLobby.map fun l => (c, l)) ∧
      ∃ ok, (ok ↔ LeavesCalm s c (s.client c).curLobby (some new)) ∧
        Signal s s' c (s.client c).curLobby (some new) ok := by
  have hcurLobby : ((clearOverride s c).client c).curLobby = (s.client c).curLobby :=
    (still_clearOverride s c).curLobby
  rw [lobbyChangeLobby]
  cases hcur : (s.client c).curLobby with
  | none =>
      have hleaving : leaving s (env, .changeLobby c req) = none := by
        simp only [leaving, hcur]
      rw [hcur] at hcurLobby
      rw [hleaving]
      simp only [enterLobby]
      cases hadd : lobbyAddToAny env (clearOverride s c) c (some req) with
      | none => exact .inl ⟨trivial, -11, by decide, rfl⟩
      | some s' =>
          have hlisted : ∀ l ∈ some req, l ∈ (clearOverride s c).lobbies := by
            rintro l ⟨⟩
            exact hreq
          obtain ⟨l, hl, hadded⟩ := added_lobbyAddToAny hlisted hadd
          obtain ⟨ok, hok, hsignal⟩ := hadded.signal.of_clearOverride
          refine .inr ⟨s', l, _, rfl, .inl ⟨trivial, hadded.1, ?_⟩,
            (hadded.transfer hcurLobby hl).of_clearOverride, rfl,
            ok, hok.trans leavesCalm_clearOverride, hsignal⟩
          cases env.sent <;> decide
  | some l =>
      have hleaving : leaving s (env, .changeLobby c req) =
          if l ≠ req ∧
              (s.lobby req).admits env.legit (s.client c).flags.overrideGame (s.client c) then
            some (c, l)
          else none := by
        simp only [leaving, hcur]
      rw [hcur] at hcurLobby
      obtain ⟨hnot, rv, hrv, hfail⟩ | ⟨rfl, hpolicy, hsame⟩ |
          ⟨hadmits, clev, i, b, s', hs', hmove, htransfer⟩ :=
        moveToLobby_cases env (s.client c).flags.overrideGame (seated_clearOverride h) hcurLobby
          hreq
      · rw [admits_clearOverride] at hnot
        exact .inl ⟨hleaving.trans (if_neg hnot), rv, hrv, hfail⟩
      · obtain ⟨hlobbies, hnum, hfreed⟩ := lists_finishChange (clearOverride s c) c l false
        have hstay : Transfer env _ _ c _ _ :=
          (still_finishChange (clearOverride s c) c l false).transfer hlobbies
            (by simpa using hnum) hfreed
        rw [hcurLobby] at hstay
        have hsignal : Signal (clearOverride s c) (finishChange (clearOverride s c) c l false) c
            (some l) (some l) _ :=
          signal_finishChange hcurLobby rfl rfl rfl (held_of_policyError hpolicy)
        obtain ⟨ok, hok, hsignal⟩ := hsignal.of_clearOverride
        refine .inr ⟨_, l, 0, hsame, .inr ⟨fun heq => (nomatch heq), rfl, rfl⟩,
          hstay.of_clearOverride, ?_, ok, hok.trans leavesCalm_clearOverride, hsignal⟩
        rw [if_pos rfl]
        exact hleaving.trans (if_neg fun hleave => hleave.1 rfl)
      · have hnew := htransfer.after
        rw [hs', (still_finishChange _ c l b).curLobby] at hnew
        have htype : ((leaveSlot env.later (takeSlot env.now (clearOverride s c) c req clev i) c
            ((clearOverride s c).client c).clientId l).lobby req).type =
            ((clearOverride s c).lobby req).type := by
          rw [lobby_leaveSlot_of_ne hadmits.1.symm, lobby_takeSlot_self]
          rfl
        have hsignal : Signal (clearOverride s c) s' c (some l) (some req)
            (LeavesCalm (clearOverride s c) c (some l) (some req)) := by
          rw [hs']
          exact signal_finishChange hnew htype (by rw [held_leaveSlot, held_takeSlot])
            (by rw [bursting_leaveSlot, bursting_takeSlot]) (held_of_policyError hadmits.2.1)
        obtain ⟨ok, hok, hsignal⟩ := hsignal.of_clearOverride
        rw [admits_clearOverride] at hadmits
        refine .inr ⟨s', req, 0, hmove, .inr ⟨fun heq => (nomatch heq), rfl, rfl⟩,
          htransfer.of_clearOverride, ?_, ok, hok.trans leavesCalm_clearOverride, hsignal⟩
        rw [if_neg fun heq => hadmits.1 (Option.some.inj heq)]
        exact hleaving.trans (if_pos hadmits)

/-- A client that is in no lobby, and wants to join a game, gets into a default lobby. -/
theorem exists_openTo_of_lobbyChangeLobby {req : LobbyRef} (hcur : (s.client c).curLobby = none)
    (hgame : (s.lobby req).type ≠ .default) (h : (lobbyChangeLobby env s c req).2 = 0) :
    env.sent ∧ ∃ l ∈ s.lobbies, (s.lobby l).openTo (s.client c) := by
  have hclient : (clearOverride s c).client c =
      { s.client c with flags := { (s.client c).flags with overrideGame := false } } :=
    client_modifyClient_self s c _
  have hasked : ¬((clearOverride s c).lobby req).available := fun havail => hgame havail.1
  simp only [lobbyChangeLobby, hcur, enterLobby, lobbyAddToAny, if_neg hasked] at h
  cases hadd : addToFirst env.now (clearOverride s c) c (clearOverride s c).lobbies with
  | none =>
      rw [hadd] at h
      exact absurd (show (-11 : Int) = 0 from h) (by decide)
  | some t =>
      rw [hadd] at h
      obtain ⟨l, hl, hopen⟩ := exists_openTo_of_addToFirst hadd
      rw [hclient] at hopen
      refine ⟨?_, l, hl, hopen⟩
      by_contra hsent
      exact absurd (h.symm.trans (if_neg hsent)) (by decide)

/-- The flags after `lobby_remove_player`. -/
theorem flags_lobbyRemovePlayer (hcur : (s.client c).curLobby = some l) :
    held (lobbyRemovePlayer env s c).1 =
      (if bursting s c then update (held s) l false else held s) ∧
    bursting (lobbyRemovePlayer env s c).1 = bursting s := by
  obtain ⟨t, ht⟩ : ∃ t, t = if bursting s c then clearBursting s l else s := ⟨_, rfl⟩
  have htheld : held t = if bursting s c then update (held s) l false else held s := by
    rw [ht]
    split_ifs
    · exact held_setBursting
    · rfl
  have htbursting : bursting t = bursting s := by
    rw [ht]
    split_ifs <;> rfl
  rw [← htheld, ← htbursting, lobbyRemovePlayer, hcur]
  simp only
  rw [show (if (s.client c).flags.bursting then clearBursting s l else s) = t from ht.symm]
  cases hremove : lobbyRemoveClientLocked env.later t c (t.client c).clientId l with
  | none => exact ⟨rfl, rfl⟩
  | some u =>
      obtain ⟨u, deleteLobby⟩ := u
      rw [lobbyRemoveClientLocked] at hremove
      split_ifs at hremove
      cases hremove
      simp only
      rw [held_modifyClient, bursting_modifyClient _ rfl]
      split_ifs
      · rw [held_lobbyDestroyLocked, bursting_lobbyDestroyLocked, held_leaveSlot,
          bursting_leaveSlot]
        exact ⟨rfl, rfl⟩
      · rw [held_leaveSlot, bursting_leaveSlot]
        exact ⟨rfl, rfl⟩

/-- `lobby_remove_player` unlocks the lobby of a client that was bursting. -/
theorem lobbyRemovePlayer_signal (env : Env) (s : Block) (c : ClientRef) :
    ∃ ok, (ok ↔ True) ∧ Signal s (lobbyRemovePlayer env s c).1 c (s.client c).curLobby none ok := by
  cases hcur : (s.client c).curLobby with
  | none =>
      have hsame : (lobbyRemovePlayer env s c).1 = s := by
        rw [lobbyRemovePlayer, hcur]
      rw [hsame]
      refine ⟨_, iff_true_intro ?_, .quiet rfl rfl fun m hm => ?_⟩
      · exact fun l hl => absurd hl.symm (Option.some_ne_none l)
      · exact absurd hm.symm (Option.some_ne_none m)
  | some l =>
      obtain ⟨hheld, hbursting⟩ := @flags_lobbyRemovePlayer env s c l hcur
      by_cases hc : bursting s c
      · rw [if_pos hc] at hheld
        exact ⟨True, Iff.rfl, .unlock hc hheld hbursting⟩
      · rw [if_neg hc] at hheld
        refine ⟨_, iff_true_intro ?_, .quiet hheld hbursting fun m hm => ?_⟩
        · exact fun _ _ _ _ hburst => absurd hburst hc
        · exact absurd hm.symm (Option.some_ne_none m)

/-- Every call is a transfer of one client, which is the one that leaves if one does, and a
signal of this client. -/
theorem step_cases (h : Seated s) (hok : Promised s e) :
    ∃ c old new, Transfer e.1 s (step s e) c old new ∧
      (leaving s e = if old = new then none else old.map fun l => (c, l)) ∧
      ∃ ok, (ok ↔ BurstOk s e) ∧ Signal s (step s e) c old new ok := by
  obtain ⟨env, call⟩ := e
  -- calls that neither move a client nor touch the flags
  have hquiet {c : ClientRef} {s' : Block} (hstill : Still s s' c)
      (hlists : s'.lobbies = s.lobbies ∧ s'.numGames = s.numGames ∧ s'.freed = s.freed)
      (hheld : held s' = held s) (hbursting : bursting s' = bursting s)
      (hleaving : leaving s (env, call) = none) (hburst : BurstOk s (env, call)) :
      ∃ c old new, Transfer env s s' c old new ∧
        (leaving s (env, call) = if old = new then none else old.map fun l => (c, l)) ∧
        ∃ ok, (ok ↔ BurstOk s (env, call)) ∧ Signal s s' c old new ok := by
    obtain ⟨hlobbies, hnum, hfreed⟩ := hlists
    refine ⟨c, _, _, hstill.transfer hlobbies hnum hfreed, ?_, _, iff_of_true ?_ hburst,
      .quiet hheld hbursting fun m hm => .inl hm⟩
    · rw [hleaving, if_pos rfl]
    · exact fun l hold hnew => absurd hold hnew
  cases call with
  | addToAny c req =>
      obtain ⟨hcur, hreq⟩ := hok
      simp only [step, call]
      cases hadd : lobbyAddToAny env s c req with
      | none => exact hquiet (Still.refl s c) ⟨rfl, rfl, rfl⟩ rfl rfl rfl trivial
      | some s' =>
          obtain ⟨l, hl, hadded⟩ := added_lobbyAddToAny hreq hadd
          exact ⟨c, _, _, hadded.transfer hcur hl, rfl, _,
            iff_of_true (fun m hm => (nomatch hm)) trivial, hadded.signal⟩
  | changeLobby c req =>
      simp only [step, call]
      obtain ⟨hleaving, rv, -, hfail⟩ |
          ⟨s', new, rv, hmove, -, htransfer, hleaving, ok, hcalm, hsignal⟩ :=
        lobbyChangeLobby_cases env c h hok
      · rw [hfail]
        refine hquiet (still_clearOverride s c) ⟨rfl, rfl, rfl⟩ held_clearOverride
          bursting_clearOverride hleaving fun l hl => ?_
        rw [hleaving] at hl
        cases hl
      · rw [hmove]
        refine ⟨c, _, _, htransfer, hleaving, ok, hcalm.trans ?_, hsignal⟩
        simp only [LeavesCalm, BurstOk, leaving_iff hleaving, and_imp]
  | removePlayer c =>
      obtain ⟨ok, hburst, hsignal⟩ := lobbyRemovePlayer_signal env s c
      refine ⟨c, _, _, lobbyRemovePlayer_transfer h, ?_, ok, hburst, hsignal⟩
      simp only [leaving]
      cases (s.client c).curLobby <;> rfl
  | doneBurst c =>
      simp only [step, call, dcProcessDoneBurst]
      split
      · rename_i hcur
        refine hquiet (Still.refl s c) ⟨rfl, rfl, rfl⟩ rfl rfl rfl fun l hl => ?_
        rw [hcur] at hl
        cases hl
      · rename_i l hcur
        split
        · rename_i htype
          refine hquiet (Still.refl s c) ⟨rfl, rfl, rfl⟩ rfl rfl rfl fun m hm hgame => ?_
          rw [hcur] at hm
          cases hm
          exact absurd htype hgame
        · rename_i hgame
          have hstay : Transfer env s ((clearBursting s l).modifyClient c fun y =>
              y.setBursting false) c _ _ :=
            (still_setBursting s c l false).transfer rfl rfl rfl
          rw [hcur] at hstay
          refine ⟨c, _, _, hstay, (if_pos rfl).symm, _, ?_, .done hgame ?_ ?_⟩
          · simp only [BurstOk, hcur, Option.some.injEq]
            exact ⟨fun hor m hm _ => hm ▸ hor, fun hall => hall l rfl hgame⟩
          · rw [held_modifyClient, clearBursting, held_setBursting]
          · rw [bursting_setBursting, clearBursting, bursting_modifyLobby]
  | setFlags l flags =>
      -- any client will do here
      exact hquiet (still_setFlags s 0 l flags) ⟨rfl, rfl, rfl⟩
        (held_setFlags flags) rfl rfl trivial
  | setClient c version flags level chClass times =>
      exact hquiet (still_setClient s c version flags level chClass times) ⟨rfl, rfl, rfl⟩ rfl
        bursting_setClient rfl trivial

end Calls

end Sylverant.Ship
