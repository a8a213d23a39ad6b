/-
# Who holds a game

While a client bursts nobody else may join its game, and this is what the bursting flag
of the game says. The flag is right as long as a bursting client leaves the game by
disconnecting, or as the last one, and only the client that bursts says that it is done.
-/

import Sylverant.Ship.Membership

namespace Sylverant.Ship

open Function (update)

/-! ## The invariant -/

/-- The games in the list are marked exactly as long as a member is bursting. -/
def BurstConsistent (s : Block) : Prop :=
  ∀ l ∈ s.lobbies, (s.lobby l).type ≠ .default →
    (held s l ↔ ∃ d, (s.client d).curLobby = some l ∧ bursting s d)

/-- What holds in a run whose steps keep the flags right. -/
structure Calm (s : Block) : Prop where
  seated : Seated s
  nodup : s.lobbies.Nodup
  consistent : BurstConsistent s
  /-- No two members of a game are bursting. -/
  unique : ∀ l d d', (s.lobby l).type ≠ .default → (s.client d).curLobby = some l →
    (s.client d').curLobby = some l → bursting s d → bursting s d' → d = d'

section Steps

variable {env : Env} {s s' s₀ : Block} {c d : ClientRef} {l m q : LobbyRef}
  {old new : Option LobbyRef} {ok : Prop} {e : Event} {es : List Event}

/-- A game that neither gains nor loses a bursting member. -/
theorem Transfer.bursters_iff (h : Transfer env s s' c old new)
    (hjoin : new = some q → old = some q)
    (hleave : old = some q → new ≠ some q → bursting s c → False)
    (hburst : ∀ d, (s'.client d).curLobby = some q → bursting s' d = bursting s d) :
    (∃ d, (s'.client d).curLobby = some q ∧ bursting s' d) ↔
      ∃ d, (s.client d).curLobby = some q ∧ bursting s d := by
  constructor
  · rintro ⟨d, hd, hdb⟩
    rw [hburst d hd] at hdb
    refine ⟨d, ?_, hdb⟩
    by_cases hdc : d = c
    · subst hdc
      exact h.before.trans (hjoin (h.after.symm.trans hd))
    · rwa [h.others d hdc] at hd
  · rintro ⟨d, hd, hdb⟩
    have hd' : (s'.client d).curLobby = some q := by
      by_cases hdc : d = c
      · subst hdc
        by_contra hnew
        exact hleave (h.before.symm.trans hd) (fun heq => hnew (h.after.trans heq)) hdb
      · rwa [h.others d hdc]
    exact ⟨d, hd', by rwa [hburst d hd']⟩

/-- Only the last one may leave a game while it bursts, if the flags are right afterwards. -/
theorem leavesCalm_of_consistent (h : Transfer env s s' c old new) (hs : Calm s)
    (hconsistent : BurstConsistent s')
    (hheld : ∀ l, old = some l → new ≠ some l → held s' l = held s l)
    (hburst : ∀ d, d ≠ c → bursting s' d = bursting s d) : LeavesCalm s c old new := by
  intro l hold hnew hgame hc
  by_contra hothers
  have hcur : (s.client c).curLobby = some l := h.before.trans hold
  have hmem := h.mem_of_others hs.seated hold hnew hothers
  have hset : held s' l := by
    rw [hheld l hold hnew]
    exact (hs.consistent l (h.mem_of_mem hmem) hgame).mpr ⟨c, hcur, hc⟩
  obtain ⟨d, hd, hdb⟩ := (hconsistent l hmem (by rwa [h.type_eq])).mp hset
  have hdc : d ≠ c := by
    rintro rfl
    exact hnew (h.after.symm.trans hd)
  rw [h.others d hdc] at hd
  rw [hburst d hdc] at hdb
  exact hdc (hs.unique l d c hgame hd hcur hdb hc)

/-- A client that leaves a game as the last one leaves no flag in the list. -/
theorem LeavesCalm.not_mem (hcalm : LeavesCalm s c old new) (h : Transfer env s s' c old new)
    (hs : Calm s) (hgame : (s.lobby q).type ≠ .default) (hold : old = some q)
    (hnew : new ≠ some q) (hc : bursting s c) : q ∉ s'.lobbies :=
  h.not_mem_of_last hs.nodup hold hnew hgame (hcalm q hold hnew hgame hc)

/-- The flags are right after a signal exactly if its condition holds. -/
theorem Signal.consistent_iff (hsignal : Signal s s' c old new ok)
    (h : Transfer env s s' c old new) (hs : Calm s) : BurstConsistent s' ↔ ok := by
  cases hsignal with
  | quiet hheld hbursting hjoin =>
      refine ⟨fun hconsistent => leavesCalm_of_consistent h hs hconsistent
        (fun l _ _ => by rw [hheld]) fun d _ => by rw [hbursting], fun hcalm q hq hgame => ?_⟩
      rw [h.type_eq] at hgame
      rw [hheld, hs.consistent q (h.mem_of_mem hq) hgame]
      refine (h.bursters_iff (fun hnew => ?_) (fun hold hnew hc => ?_) fun d _ => ?_).symm
      · exact (hjoin q hnew).resolve_right hgame
      · exact hcalm.not_mem h hs hgame hold hnew hc hq
      · rw [hbursting]
  | @start l m hgame hfree hheld hbursting =>
      refine ⟨fun hconsistent => leavesCalm_of_consistent h hs hconsistent
        (fun k _ hk => ?_) (fun d hd => ?_), fun hcalm q hq hqgame => ?_⟩
      · have hkm : k ≠ m := fun heq => hk (by rw [heq])
        rw [hheld, Function.update_of_ne hkm]
      · rw [hbursting, Function.update_of_ne hd]
      · rw [h.type_eq] at hqgame
        by_cases hqm : q = m
        · subst hqm
          rw [hheld, hbursting, Function.update_self]
          exact iff_of_true rfl ⟨c, h.after, by rw [Function.update_self]⟩
        · have hmq : some m ≠ some q := fun heq => hqm (Option.some.inj heq).symm
          rw [hheld, Function.update_of_ne hqm, hs.consistent q (h.mem_of_mem hq) hqgame]
          refine (h.bursters_iff (fun hnew => absurd hnew hmq) (fun hold hnew hc => ?_)
            fun d hd => ?_).symm
          · exact hcalm.not_mem h hs hqgame hold hnew hc hq
          · have hdc : d ≠ c := by
              rintro rfl
              exact hmq (h.after.symm.trans hd)
            rw [hbursting, Function.update_of_ne hdc]
  | @unlock l hc hheld hbursting =>
      refine iff_of_true (fun q hq hgame => ?_) trivial
      rw [h.type_eq] at hgame
      by_cases hql : q = l
      · subst hql
        rw [hheld, hbursting, Function.update_self]
        refine iff_of_false Bool.false_ne_true ?_
        rintro ⟨d, hd, hdb⟩
        -- the only client that was bursting has gone
        have hdc : d ≠ c := by
          rintro rfl
          rw [h.after] at hd
          cases hd
        rw [h.others d hdc] at hd
        exact hdc (hs.unique q d c hgame hd h.before hdb hc)
      · rw [hheld, Function.update_of_ne hql, hs.consistent q (h.mem_of_mem hq) hgame]
        refine (h.bursters_iff (fun hnew => (nomatch hnew)) (fun hold _ _ => ?_)
          fun d _ => ?_).symm
        · exact hql (Option.some.inj hold).symm
        · rw [hbursting]
  | @done l hgame hheld hbursting =>
      have hmem : l ∈ s'.lobbies := h.listed hs.seated h.after
      constructor
      · intro hconsistent
        by_cases hc : bursting s c
        · exact .inl hc
        · refine .inr fun d hd => ?_
          by_cases hdc : d = c
          · rw [hdc]
            exact Bool.eq_false_iff.mpr hc
          · by_contra hdb
            have hset : held s' l := (hconsistent l hmem (by rwa [h.type_eq])).mpr
              ⟨d, by rw [h.others d hdc, hd], by
                rw [hbursting, Function.update_of_ne hdc]
                exact Bool.ne_false_iff.mp hdb⟩
            rw [hheld, Function.update_self] at hset
            cases hset
      · intro hor q hq hqgame
        rw [h.type_eq] at hqgame
        by_cases hql : q = l
        · subst hql
          rw [hheld, hbursting, Function.update_self]
          refine iff_of_false Bool.false_ne_true ?_
          rintro ⟨d, hd, hdb⟩
          by_cases hdc : d = c
          · rw [hdc, Function.update_self] at hdb
            cases hdb
          · rw [h.others d hdc] at hd
            rw [Function.update_of_ne hdc] at hdb
            obtain hc | hnone := hor
            · exact hdc (hs.unique q d c hgame hd h.before hdb hc)
            · rw [hnone d hd] at hdb
              cases hdb
        · have hlq : some l ≠ some q := fun heq => hql (Option.some.inj heq).symm
          rw [hheld, Function.update_of_ne hql, hs.consistent q (h.mem_of_mem hq) hqgame]
          refine (h.bursters_iff id (fun hold hnew _ => hnew hold) fun d hd => ?_).symm
          have hdc : d ≠ c := by
            rintro rfl
            exact hlq (h.after.symm.trans hd)
          rw [hbursting, Function.update_of_ne hdc]

/-- At most one member of a game is bursting after a signal. -/
theorem Signal.unique (hsignal : Signal s s' c old new ok) (h : Transfer env s s' c old new)
    (hs : Calm s) {d d' : ClientRef} (hgame : (s.lobby q).type ≠ .default)
    (hd : (s'.client d).curLobby = some q) (hd' : (s'.client d').curLobby = some q)
    (hdb : bursting s' d) (hdb' : bursting s' d') : d = d' := by
  -- a bursting member that was one before, so that the others are the same as before
  have hbefore {d : ClientRef} (hdc : d ≠ c) (hd : (s'.client d).curLobby = some q) :
      (s.client d).curLobby = some q := by
    rwa [h.others d hdc] at hd
  cases hsignal with
  | quiet _ hbursting hjoin =>
      have hstayed {d : ClientRef} (hd : (s'.client d).curLobby = some q) :
          (s.client d).curLobby = some q := by
        by_cases hdc : d = c
        · rw [hdc] at hd ⊢
          exact h.before.trans ((hjoin q (h.after.symm.trans hd)).resolve_right hgame)
        · exact hbefore hdc hd
      rw [hbursting] at hdb hdb'
      exact hs.unique q d d' hgame (hstayed hd) (hstayed hd') hdb hdb'
  | @start l m _ hfree _ hbursting =>
      have honly {d : ClientRef} (hd : (s'.client d).curLobby = some q) (hdb : bursting s' d)
          (hqm : q = m) : d = c := by
        by_contra hdc
        rw [hbursting, Function.update_of_ne hdc] at hdb
        have hcur := hbefore hdc hd
        have hset := (hs.consistent q (hs.seated.listed d q hcur) hgame).mpr ⟨d, hcur, hdb⟩
        rw [hqm, hfree] at hset
        cases hset
      by_cases hqm : q = m
      · exact (honly hd hdb hqm).trans (honly hd' hdb' hqm).symm
      · have hne {d : ClientRef} (hd : (s'.client d).curLobby = some q) : d ≠ c := by
          rintro rfl
          exact hqm (Option.some.inj (h.after.symm.trans hd)).symm
        rw [hbursting, Function.update_of_ne (hne hd)] at hdb
        rw [hbursting, Function.update_of_ne (hne hd')] at hdb'
        exact hs.unique q d d' hgame (hbefore (hne hd) hd) (hbefore (hne hd') hd') hdb hdb'
  | unlock _ _ hbursting =>
      have hne {d : ClientRef} (hd : (s'.client d).curLobby = some q) : d ≠ c := by
        rintro rfl
        rw [h.after] at hd
        cases hd
      rw [hbursting] at hdb hdb'
      exact hs.unique q d d' hgame (hbefore (hne hd) hd) (hbefore (hne hd') hd') hdb hdb'
  | done _ _ hbursting =>
      have hne {d : ClientRef} (hdb : bursting s' d) : d ≠ c := by
        rintro rfl
        rw [hbursting, Function.update_self] at hdb
        cases hdb
      have hdc := hne hdb
      have hdc' := hne hdb'
      rw [hbursting, Function.update_of_ne hdc] at hdb
      rw [hbursting, Function.update_of_ne hdc'] at hdb'
      exact hs.unique q d d' hgame (hbefore hdc hd) (hbefore hdc' hd') hdb hdb'

end Steps

/-! ## Runs -/

section Runs

variable {s s₀ : Block} {e : Event} {es : List Event}

/-- A step keeps the flags right exactly under the condition. -/
theorem Calm.consistent_step_iff (h : Calm s) (hok : Promised s e) :
    BurstConsistent (step s e) ↔ BurstOk s e := by
  obtain ⟨c, old, new, htransfer, -, ok, hburst, hsignal⟩ := step_cases h.seated hok
  exact (hsignal.consistent_iff htransfer h).trans hburst

theorem calm_step (s : Block) (e : Event) (h : Calm s) (hok : Promised s e ∧ BurstOk s e) :
    Calm (step s e) := by
  have hconsistent := (h.consistent_step_iff hok.1).mpr hok.2
  obtain ⟨c, old, new, htransfer, -, ok, hburst, hsignal⟩ := step_cases h.seated hok.1
  refine ⟨htransfer.seated h.seated, htransfer.nodup h.nodup, hconsistent, ?_⟩
  intro l d d' hgame hd hd' hdb hdb'
  rw [htransfer.type_eq] at hgame
  exact hsignal.unique htransfer h hgame hd hd' hdb hdb'

theorem Block.Empty.calm (h : s.Empty) (hnodup : s.lobbies.Nodup) (hfree : ∀ l, held s l = false) :
    Calm s where
  seated := h.seated
  nodup := hnodup
  consistent l _ _ := by
    rw [hfree]
    refine iff_of_false Bool.false_ne_true ?_
    rintro ⟨d, hd, -⟩
    rw [h.curLobby] at hd
    cases hd
  unique l d d' _ hd := by
    rw [h.curLobby] at hd
    cases hd

/-- Wherever the calls lead from empty lobbies without flags, as long as each meets the
condition, the games in the list are marked exactly as long as a member is bursting. There,
the next call keeps this right exactly under the condition. -/
theorem burst_run (hempty : s₀.Empty) (hnodup : s₀.lobbies.Nodup) (hfree : ∀ l, held s₀ l = false)
    (hrun : Run.Guarded step (fun s e => Promised s e ∧ BurstOk s e) s₀ es)
    (hs : s = es.foldl step s₀) :
    BurstConsistent s ∧ ∀ e, Promised s e → (BurstConsistent (step s e) ↔ BurstOk s e) := by
  have hcalm : Calm s := hs ▸ hrun.invariant calm_step (hempty.calm hnodup hfree)
  exact ⟨hcalm.consistent, fun e hok => hcalm.consistent_step_iff hok⟩

/-- Two clients join the game, and the second goes before it is done: it disconnects, or
changes to the default lobby. -/
def joinsAndGoes (go : Call) : List Event :=
  [({ now := 1 }, .addToAny 0 none), ({ now := 2 }, .changeLobby 0 1), ({ now := 3 }, .doneBurst 0),
    ({ now := 4 }, .addToAny 1 none), ({ now := 5 }, .changeLobby 1 1), ({ now := 6 }, go)]

/-- Whoever leaves a default lobby leaves no game. -/
theorem burstOk_of_leaving_default {env : Env} {c : ClientRef} {l req : LobbyRef}
    (h : leaving s (env, .changeLobby c req) = some (c, l)) (htype : (s.lobby l).type = .default) :
    BurstOk s (env, .changeLobby c req) := by
  intro m hm hgame
  rw [h] at hm
  cases hm
  exact absurd htype hgame

theorem guarded_joinsAndGoes :
    Run.Guarded step (fun s e => Promised s e ∧ BurstOk s e) twoLobbies
      (joinsAndGoes (.removePlayer 1)) :=
  ⟨⟨by decide, trivial⟩, ⟨by decide, burstOk_of_leaving_default (l := 0) (by decide) rfl⟩,
    ⟨by decide, fun _ _ _ => .inl (by decide)⟩, ⟨by decide, trivial⟩,
    ⟨by decide, burstOk_of_leaving_default (l := 0) (by decide) rfl⟩, ⟨by decide, trivial⟩, trivial⟩

theorem held_twoLobbies (l : LobbyRef) : held twoLobbies l = false := by
  simp only [held, twoLobbies]
  split <;> rfl

theorem burst_run_joinsAndGoes :
    BurstConsistent ((joinsAndGoes (.removePlayer 1)).foldl step twoLobbies) :=
  (burst_run empty_twoLobbies (by decide) held_twoLobbies guarded_joinsAndGoes rfl).1

/-- The game stays marked when the bursting client changes to the default lobby. -/
theorem not_burstConsistent_joinsAndGoes :
    twoLobbies.Empty ∧ (∀ l, held twoLobbies l = false) ∧
      Run.Guarded step Promised twoLobbies (joinsAndGoes (.changeLobby 1 0)) ∧
      ¬BurstConsistent ((joinsAndGoes (.changeLobby 1 0)).foldl step twoLobbies) := by
  have hrun : Run.Guarded step Promised twoLobbies (joinsAndGoes (.changeLobby 1 0)) := by decide
  refine ⟨empty_twoLobbies, held_twoLobbies, hrun, fun hconsistent => ?_⟩
  obtain ⟨d, hd, hdb⟩ := (hconsistent 1 (by decide) (by decide)).mp (by decide)
  -- the client in slot 0 is the only member, and it is done
  have hseated := seated_run empty_twoLobbies.seated hrun
  have hslot := hseated.clients_clientId hd
  have hlt := (hseated.counted 1).slot_lt _ d hslot
  have honly : ∀ i < 4, i ≠ 0 →
      (((joinsAndGoes (.changeLobby 1 0)).foldl step twoLobbies).lobby 1).clients i = none := by
    decide
  by_cases hzero : (((joinsAndGoes (.changeLobby 1 0)).foldl step twoLobbies).client d).clientId = 0
  · rw [hzero] at hslot
    have hfirst : (((joinsAndGoes (.changeLobby 1 0)).foldl step twoLobbies).lobby 1).clients 0 =
        some 0 := by decide
    obtain rfl : 0 = d := Option.some.inj (hfirst.symm.trans hslot)
    exact absurd hdb (by decide)
  · rw [honly _ hlt hzero] at hslot
    cases hslot

end Runs

end Sylverant.Ship
