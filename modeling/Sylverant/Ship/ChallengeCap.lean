/-
# The level cap of challenge games

A challenge game can be played up to the first stage that one of its members has not
completed. The cap is lowered when a client joins and found again among the members that
are left when one leaves. That both come to the same does not depend on the history of the
game, as long as the records of the members stay as they are.

A game that its last member has left has no cap any more, and is not in the list either.
-/

import Mathlib.Order.Bounds.Basic
import Sylverant.Ship.Membership

namespace Sylverant.Ship

open Function (update)

/-- The number of stages that a client has completed without leaving one out. -/
def Client.completed (c : Client) : Nat :=
  (((List.range 9).map c.times).takeWhile (· ≠ 0)).length

/-- A client for which there is the mode. -/
def Client.HasChallenge (c : Client) : Prop :=
  c.version = .dcv2 ∨ c.version = .pc ∨ c.version = .gc

/-- The numbers of completed stages of the members of a lobby. -/
def memberStages (s : Block) (l : LobbyRef) : Set Nat :=
  {n | ∃ i c, (s.lobby l).clients i = some c ∧ (s.client c).stages = some n}

/-- The members of a lobby have the mode, and if there is one the cap is the stage after
those that all of them have completed. -/
structure Capped (s : Block) (l : LobbyRef) : Prop where
  eligible : ∀ i c, (s.lobby l).clients i = some c → ∃ n, (s.client c).stages = some n
  least : (∃ i c, (s.lobby l).clients i = some c) →
    ∃ n, IsLeast (memberStages s l) n ∧ (s.lobby l).maxChal = n + 1

/-- Challenge games are games, have their cap, and those that can be joined but are empty
have never been joined. -/
structure ChallengesCapped (s : Block) : Prop where
  seated : Seated s
  nodup : s.lobbies.Nodup
  game : ∀ l, (s.lobby l).challenge ≠ 0 → (s.lobby l).type ≠ .default
  fresh : ∀ l ∈ s.lobbies, (s.lobby l).challenge ≠ 0 →
    (∀ i, (s.lobby l).clients i = none) → (s.lobby l).maxChal = 255
  capped : ∀ l, (s.lobby l).challenge ≠ 0 → Capped s l

/-- An event that does not change the version or the record of a member of a challenge
game. -/
def KeepsRecords (s : Block) (e : Event) : Prop :=
  Promised s e ∧
    match e.2 with
    | .setClient c version _ _ _ times =>
        ∀ l ∈ (s.client c).curLobby, (s.lobby l).challenge ≠ 0 →
          version = (s.client c).version ∧ ∀ i < 9, times i = (s.client c).times i
    | _ => True

instance : (s : Block) → (e : Event) → Decidable (KeepsRecords s e)
  | s, (_, .setClient c version _ _ _ times) =>
      inferInstanceAs (Decidable (_ ∧ ∀ l ∈ (s.client c).curLobby, (s.lobby l).challenge ≠ 0 →
        version = (s.client c).version ∧ ∀ i < 9, times i = (s.client c).times i))
  | _, (_, .addToAny _ _) => inferInstanceAs (Decidable (_ ∧ True))
  | _, (_, .changeLobby _ _) => inferInstanceAs (Decidable (_ ∧ True))
  | _, (_, .removePlayer _) => inferInstanceAs (Decidable (_ ∧ True))
  | _, (_, .doneBurst _) => inferInstanceAs (Decidable (_ ∧ True))
  | _, (_, .setFlags _ _) => inferInstanceAs (Decidable (_ ∧ True))

/-! ## Stages -/

/-- The first place in a range where a condition holds is as far as the places where it
does not. -/
theorem getD_find?_range' (p : Nat → Bool) (k n : Nat) :
    ((List.range' k n).find? p).getD (k + n) =
      k + ((List.range' k n).takeWhile fun i => !p i).length := by
  induction n generalizing k with
  | zero => rfl
  | succ n ih =>
      rw [List.range'_succ, List.find?_cons, List.takeWhile_cons]
      cases hp : p k with
      | true => rfl
      | false =>
          have hrest := ih (k + 1)
          simp only [Bool.not_false, if_true, List.length_cons]
          rw [show k + (n + 1) = k + 1 + n by omega, hrest]
          omega

theorem stages_eq_some_iff {c : Client} {n : Nat} :
    c.stages = some n ↔ c.HasChallenge ∧ n = c.completed := by
  have hcompleted : ((List.range 9).find? fun i => c.times i = 0).getD 9 = c.completed := by
    have h := getD_find?_range' (fun i => c.times i = 0) 0 9
    rw [← List.range_eq_range', Nat.zero_add, Nat.zero_add] at h
    rw [h, Client.completed, List.takeWhile_map, List.length_map]
    congr 2
    funext i
    simp
  rw [Client.stages, Client.HasChallenge, hcompleted]
  cases c.version <;> simp [eq_comm]

theorem stages_le {c : Client} {n : Nat} (h : c.stages = some n) : n ≤ 9 := by
  obtain ⟨-, rfl⟩ := stages_eq_some_iff.mp h
  have hlength := (List.takeWhile_sublist (fun n => decide (n ≠ 0))
    (l := (List.range 9).map c.times)).length_le
  rwa [List.length_map, List.length_range] at hlength

/-- Stages are counted from the version and the record. -/
theorem stages_congr {c d : Client} (hversion : c.version = d.version)
    (htimes : ∀ i < 9, c.times i = d.times i) : c.stages = d.stages := by
  have hmap : (List.range 9).map c.times = (List.range 9).map d.times :=
    List.map_congr_left fun i hi => htimes i (List.mem_range.mp hi)
  refine Option.ext fun n => ?_
  simp only [stages_eq_some_iff, Client.HasChallenge, Client.completed, hversion, hmap]

/-! ## The cap when a client leaves -/

section Leaving

variable {s : Block} {x y : Lobby}

/-- The numbers of completed stages in the first slots of a lobby. -/
def stagesBelow (s : Block) (x : Lobby) (k : Nat) : Set Nat :=
  {n | ∃ i < k, ∃ c, x.clients i = some c ∧ (s.client c).stages = some n}

theorem stagesBelow_of_none {k : Nat} (h : x.clients k = none) :
    stagesBelow s x (k + 1) = stagesBelow s x k := by
  ext n
  constructor
  · rintro ⟨i, hi, c, hc, hn⟩
    have hne : i ≠ k := by
      rintro rfl
      exact nomatch h.symm.trans hc
    exact ⟨i, by omega, c, hc, hn⟩
  · rintro ⟨i, hi, rest⟩
    exact ⟨i, by omega, rest⟩

theorem stagesBelow_of_some {k n : Nat} {c : ClientRef} (h : x.clients k = some c)
    (hn : (s.client c).stages = some n) :
    stagesBelow s x (k + 1) = insert n (stagesBelow s x k) := by
  ext m
  constructor
  · rintro ⟨i, hi, d, hd, hm⟩
    rcases Nat.lt_succ_iff_lt_or_eq.mp hi with hi | rfl
    · exact .inr ⟨i, hi, d, hd, hm⟩
    · obtain rfl := Option.some.inj (h.symm.trans hd)
      exact .inl (Option.some.inj (hm.symm.trans hn))
  · rintro (rfl | ⟨i, hi, rest⟩)
    · exact ⟨k, Nat.lt_succ_self k, c, h, hn⟩
    · exact ⟨i, by omega, rest⟩

/-- The loop of `lobby_find_max_challenge` finds the least number of stages. -/
theorem foldlM_stages (hstages : ∀ i c, x.clients i = some c → ∃ n, (s.client c).stages = some n)
    (k : Nat) :
    ∃ m, (List.range k).foldlM
        (fun minLev j =>
          match x.clients j with
          | none => some minLev
          | some c => (s.client c).stages.map fun i => if i < minLev then i else minLev) 255 =
        some m ∧ IsLeast (insert 255 (stagesBelow s x k)) m := by
  induction k with
  | zero =>
      refine ⟨255, rfl, Set.mem_insert .., ?_⟩
      rintro n (rfl | ⟨i, hi, -⟩)
      · exact Nat.le_refl _
      · exact absurd hi (Nat.not_lt_zero i)
  | succ k ih =>
      obtain ⟨m, hm, hleast⟩ := ih
      rw [List.range_succ, List.foldlM_append, hm]
      cases hk : x.clients k with
      | none =>
          rw [stagesBelow_of_none hk]
          exact ⟨m, by simp [hk], hleast⟩
      | some c =>
          obtain ⟨n, hn⟩ := hstages k c hk
          rw [stagesBelow_of_some hk hn, Set.insert_comm]
          refine ⟨min n m, ?_, hleast.insert n⟩
          have hmin : (if n < m then n else m) = min n m := by
            split <;> omega
          simp [hk, hn, hmin]

/-- The cap that is found for members that have the mode, if there are any. -/
theorem lobbyFindMaxChallenge_eq (hchal : x.challenge ≠ 0)
    (hslots : ∀ i c, x.clients i = some c → i < x.maxClients)
    (hstages : ∀ i c, x.clients i = some c → ∃ n, (s.client c).stages = some n)
    (hmember : ∃ i c, x.clients i = some c) :
    ∃ n, IsLeast {n | ∃ i c, x.clients i = some c ∧ (s.client c).stages = some n} n ∧
      lobbyFindMaxChallenge s x = n + 1 := by
  obtain ⟨m, hm, hleast⟩ := foldlM_stages hstages x.maxClients
  have hall : stagesBelow s x x.maxClients =
      {n | ∃ i c, x.clients i = some c ∧ (s.client c).stages = some n} := by
    ext n
    constructor
    · rintro ⟨i, -, c, hc, hn⟩
      exact ⟨i, c, hc, hn⟩
    · rintro ⟨i, c, hc, hn⟩
      exact ⟨i, hslots i c hc, c, hc, hn⟩
  rw [hall] at hleast
  obtain ⟨i, c, hc⟩ := hmember
  obtain ⟨n, hn⟩ := hstages i c hc
  have hle : m ≤ 9 := (hleast.2 (.inr ⟨i, c, hc, hn⟩)).trans (stages_le hn)
  refine ⟨m, ⟨hleast.1.resolve_left (by omega), fun n hn => hleast.2 (.inr hn)⟩, ?_⟩
  calc lobbyFindMaxChallenge s x
      = (m + 1) % 256 := by
        rw [lobbyFindMaxChallenge, if_neg hchal]
        dsimp only
        split
        · rename_i hnone
          cases hnone.symm.trans hm
        · rename_i hfound
          rw [Option.some.inj (hfound.symm.trans hm)]
    _ = m + 1 := Nat.mod_eq_of_lt (by omega)

/-- The cap does not depend on what an election changes. -/
theorem lobbyFindMaxChallenge_of_same (hchal : x.challenge = y.challenge)
    (hmax : x.maxClients = y.maxClients) (hclients : x.clients = y.clients) :
    lobbyFindMaxChallenge s x = lobbyFindMaxChallenge s y := by
  rw [lobbyFindMaxChallenge, lobbyFindMaxChallenge, hchal, hmax, hclients]

/-- The cap after a slot was dropped is that of the lobby without the slot. -/
theorem maxChal_dropSlot {now i : Nat} (hchal : x.challenge ≠ 0) :
    (dropSlot now s x i).maxChal =
      lobbyFindMaxChallenge s { x with clients := update x.clients i none } := by
  have hreplace : (replaceLeader now s x).challenge = x.challenge ∧
      (replaceLeader now s x).maxClients = x.maxClients ∧
      (replaceLeader now s x).clients = x.clients :=
    ⟨replaceLeader_field _ fun _ _ _ _ _ => rfl, replaceLeader_field _ fun _ _ _ _ _ => rfl,
      replaceLeader_field _ fun _ _ _ _ _ => rfl⟩
  obtain ⟨hchal', hmax', hclients'⟩ := hreplace
  rw [dropSlot]
  by_cases hleader : i = x.leaderId
  · simp only [if_pos hleader, hchal', if_pos hchal]
    exact lobbyFindMaxChallenge_of_same rfl hmax' (by simp only [hclients'])
  · simp only [if_neg hleader, if_pos hchal]
    exact lobbyFindMaxChallenge_of_same rfl rfl rfl

end Leaving

/-! ## Records -/

section Records

variable {env : Env} {now i : Nat} {b : Bool} {s s' : Block} {c d : ClientRef} {l req : LobbyRef}

/-- What the stages of a client are counted from. -/
def record (s : Block) (d : ClientRef) : Version × (Nat → Nat) :=
  ((s.client d).version, (s.client d).times)

theorem stages_of_record (h : record s' d = record s d) :
    (s'.client d).stages = (s.client d).stages :=
  stages_congr (congrArg Prod.fst h) fun i _ => congrFun (congrArg Prod.snd h) i

theorem record_modifyClient (g : Client → Client) (hversion : ∀ y, (g y).version = y.version)
    (htimes : ∀ y, (g y).times = y.times) : record (s.modifyClient c g) = record s := by
  funext d
  exact apply_client_modifyClient s c d g (fun y => (y.version, y.times))
    (by rw [hversion, htimes])

theorem record_clearOverride : record (clearOverride s c) = record s :=
  record_modifyClient _ (fun _ => rfl) fun _ => rfl

theorem record_takeSlot {clev : Nat} : record (takeSlot now s c l clev i) = record s :=
  record_modifyClient _ (fun _ => rfl) fun _ => rfl

theorem record_leaveSlot : record (leaveSlot now s c i l) = record s := by
  refine record_modifyClient _ (fun y => ?_) fun y => ?_
  · split <;> rfl
  · split <;> rfl

theorem record_lobbyDestroyLocked : record (lobbyDestroyLocked s l b) = record s := by
  cases b <;> rfl

theorem record_finishChange : record (finishChange s c l b) = record s := by
  have hleave : ∀ t, record t = record s →
      record (if b then lobbyDestroyLocked t l true else t) = record s := by
    intro t ht
    cases b
    · exact ht
    · exact record_lobbyDestroyLocked.trans ht
  rw [finishChange]
  refine hleave _ ?_
  split
  · rfl
  · split
    · exact record_modifyClient _ (fun _ => rfl) fun _ => rfl
    · exact record_modifyClient _ (fun _ => rfl) fun _ => rfl

theorem Added.record (h : Added now s s' c l) : record s' = Ship.record s := by
  obtain ⟨-, clev, i, n, -, -, rfl⟩ := h
  exact (record_modifyClient (fun y => { y with lobbyId := n }) (fun _ => rfl) fun _ => rfl).trans
    record_takeSlot

/-- The records after `lobby_change_lobby`. -/
theorem record_lobbyChangeLobby (hs : Seated s) (hreq : req ∈ s.lobbies) :
    record (lobbyChangeLobby env s c req).1 = record s := by
  rw [lobbyChangeLobby]
  cases hcur : (s.client c).curLobby with
  | none =>
      simp only [enterLobby]
      cases hadd : lobbyAddToAny env (clearOverride s c) c (some req) with
      | none => exact record_clearOverride
      | some t =>
          obtain ⟨m, -, hadded⟩ := added_lobbyAddToAny
            (fun m hm => Option.mem_some_iff.mp hm ▸ hreq) hadd
          exact hadded.record.trans record_clearOverride
  | some cur =>
      have hcur' : ((clearOverride s c).client c).curLobby = some cur :=
        (still_clearOverride s c).curLobby.trans hcur
      rcases moveToLobby_cases env (s.client c).flags.overrideGame (seated_clearOverride hs) hcur'
        hreq with ⟨-, rv, -, heq⟩ | ⟨-, -, heq⟩ | ⟨-, clev, i, b, t, rfl, heq, -⟩
      · simp only [heq]
        exact record_clearOverride
      · simp only [heq]
        rw [record_finishChange, record_clearOverride]
      · simp only [heq]
        rw [record_finishChange, record_leaveSlot, record_takeSlot, record_clearOverride]

theorem record_lobbyRemovePlayer : record (lobbyRemovePlayer env s c).1 = record s := by
  rw [lobbyRemovePlayer]
  cases hcur : (s.client c).curLobby with
  | none => rfl
  | some l =>
      have hclear : record (if (s.client c).flags.bursting then clearBursting s l else s) =
          record s := by
        split <;> rfl
      simp only
      generalize (if (s.client c).flags.bursting then clearBursting s l else s) = t at hclear ⊢
      cases hremove : lobbyRemoveClientLocked env.later t c (t.client c).clientId l with
      | none => exact hclear
      | some u =>
          obtain ⟨u, deleteLobby⟩ := u
          rw [lobbyRemoveClientLocked] at hremove
          by_cases hthere : (t.lobby l).clients (t.client c).clientId ≠ some c
          · rw [if_pos hthere] at hremove
            cases hremove
          rw [if_neg hthere] at hremove
          obtain ⟨rfl, -⟩ := Prod.mk.inj (Option.some.inj hremove)
          refine (record_modifyClient (fun y => { y with curLobby := none }) (fun _ => rfl)
            fun _ => rfl).trans ?_
          cases deleteLobby
          · exact record_leaveSlot.trans hclear
          · exact record_lobbyDestroyLocked.trans (record_leaveSlot.trans hclear)

theorem record_dcProcessDoneBurst : record (dcProcessDoneBurst s c).1 = record s := by
  rw [dcProcessDoneBurst]
  cases (s.client c).curLobby with
  | none => rfl
  | some l =>
      simp only
      split
      · rfl
      · exact record_modifyClient (fun y => y.setBursting false) (fun _ => rfl) fun _ => rfl

/-- The number of stages that a member of a challenge game has completed stays the same. -/
theorem stages_step {e : Event} (hs : Seated s) (hok : KeepsRecords s e)
    (hcur : (s.client d).curLobby = some l) (hchal : (s.lobby l).challenge ≠ 0) :
    ((step s e).client d).stages = (s.client d).stages := by
  obtain ⟨env, call⟩ := e
  obtain ⟨hpromised, hkeeps⟩ := hok
  cases call with
  | addToAny c req =>
      simp only [step, call]
      cases hadd : lobbyAddToAny env s c req with
      | none => rfl
      | some t =>
          obtain ⟨m, -, hadded⟩ := added_lobbyAddToAny hpromised.2 hadd
          exact stages_of_record (congrFun hadded.record d)
  | changeLobby c req =>
      exact stages_of_record (congrFun (record_lobbyChangeLobby hs hpromised) d)
  | removePlayer c => exact stages_of_record (congrFun record_lobbyRemovePlayer d)
  | doneBurst c => exact stages_of_record (congrFun record_dcProcessDoneBurst d)
  | setFlags l' flags => rfl
  | setClient c version flags level chClass times =>
      by_cases hd : d = c
      · subst hd
        obtain ⟨hversion, htimes⟩ := hkeeps l hcur hchal
        simp only [step, call, setClient]
        rw [client_modifyClient_self]
        exact stages_congr hversion htimes
      · simp only [step, call, setClient]
        rw [client_modifyClient_of_ne _ _ hd]

end Records

/-! ## The cap when a client joins -/

section Joining

variable {env : Env} {now : Nat} {s s' : Block} {c d : ClientRef} {l req : LobbyRef}

/-- The cap after a client has joined is lowered to its own. -/
theorem maxChal_lobbyAddClientLocked (h : lobbyAddClientLocked now s c l = some s')
    (hchal : (s.lobby l).challenge ≠ 0) :
    ∃ n, (s.client c).stages = some n ∧
      (s'.lobby l).maxChal = min (s.lobby l).maxChal (n + 1) := by
  rw [lobbyAddClientLocked] at h
  simp only [if_pos hchal] at h
  split at h
  · cases h
  cases hstages : (s.client c).stages with
  | none =>
      simp only [hstages, Option.map_none] at h
      cases h
  | some n =>
      simp only [hstages, Option.map_some] at h
      split at h
      · cases h
      · cases h
        refine ⟨n, rfl, ?_⟩
        rw [lobby_takeSlot_self]
        simp only [fillSlot]
        by_cases hlower : (s.lobby l).maxChal > n + 1
        · rw [if_pos ⟨hchal, hlower⟩]
          omega
        · rw [if_neg fun h => hlower h.2]
          omega

/-- The same for a client that comes from another lobby. -/
theorem maxChal_moveToLobby {override : Bool} {cur : LobbyRef} (hne : cur ≠ req)
    (hchal : (s.lobby req).challenge ≠ 0) (hrv : (moveToLobby env override s c cur req).2 = 0) :
    ∃ n, (s.client c).stages = some n ∧
      ((moveToLobby env override s c cur req).1.lobby req).maxChal =
        min (s.lobby req).maxChal (n + 1) := by
  rw [moveToLobby] at hrv ⊢
  cases hpolicy : policyError env.legit override (s.client c) (s.lobby req) with
  | some rv =>
      simp only [hpolicy] at hrv
      have hneg := policyError_neg hpolicy
      omega
  | none =>
      simp only [hpolicy, if_neg hne] at hrv ⊢
      cases hadd : lobbyAddClientLocked env.now s c req with
      | none =>
          simp only [hadd] at hrv
          exact absurd hrv (by decide)
      | some t =>
          simp only [hadd] at hrv ⊢
          obtain ⟨n, hn, hcap⟩ := maxChal_lobbyAddClientLocked hadd hchal
          refine ⟨n, hn, ?_⟩
          rw [lobbyRemoveClientLocked] at hrv ⊢
          by_cases hthere : (t.lobby cur).clients (s.client c).clientId ≠ some c
          · simp only [if_pos hthere] at hrv
            exact absurd hrv (by decide)
          · simp only [if_neg hthere]
            rw [Lobby.eq_of_core Lobby.maxChal (fun _ => rfl)
              ((still_finishChange _ c cur _).core req), lobby_leaveSlot_of_ne hne.symm, hcap]

theorem Still.curLobby_eq (h : Still s s' c) (d : ClientRef) :
    (s'.client d).curLobby = (s.client d).curLobby := by
  by_cases hd : d = c
  · rw [hd, h.curLobby]
  · rw [h.others d hd]

theorem Still.curLobby_ne (h : Still s s' c) (hbefore : (s.client d).curLobby ≠ some l) :
    (s'.client d).curLobby ≠ some l := by
  rw [h.curLobby_eq d]
  exact hbefore

/-- A client that `lobby_add_to_any` adds is not in a challenge game then. -/
theorem Added.not_challenge {m : LobbyRef} (h : Added env.now s s' c m)
    (hcur : (s.client c).curLobby = none) (hlist : m ∈ s.lobbies)
    (hgame : (s.lobby l).type ≠ .default) (hbefore : (s.client d).curLobby ≠ some l) :
    (s'.client d).curLobby ≠ some l := by
  have htransfer := h.transfer hcur hlist
  by_cases hd : d = c
  · subst hd
    rw [htransfer.after]
    intro heq
    obtain rfl := Option.some.inj heq
    exact hgame h.1
  · rw [htransfer.others d hd]
    exact hbefore

/-- A client that comes to a challenge game with `lobby_change_lobby` lowers the cap to its
own. -/
theorem maxChal_lobbyChangeLobby (hs : Seated s) (hlist : req ∈ s.lobbies)
    (hgame : (s.lobby l).type ≠ .default) (hbefore : (s.client d).curLobby ≠ some l)
    (hafter : ((lobbyChangeLobby env s c req).1.client d).curLobby = some l)
    (hchal : (s.lobby l).challenge ≠ 0) :
    ∃ n, ((lobbyChangeLobby env s c req).1.client d).stages = some n ∧
      ((lobbyChangeLobby env s c req).1.lobby l).maxChal = min (s.lobby l).maxChal (n + 1) := by
  have hclear := still_clearOverride s c
  have hclient : ((clearOverride s c).client c).stages = (s.client c).stages :=
    stages_of_record (congrFun record_clearOverride c)
  have hrecord : ((lobbyChangeLobby env s c req).1.client c).stages = (s.client c).stages :=
    stages_of_record (congrFun (record_lobbyChangeLobby hs hlist) c)
  rw [lobbyChangeLobby] at hafter hrecord ⊢
  cases hcur : (s.client c).curLobby with
  | none =>
      simp only [hcur, enterLobby] at hafter
      cases hadd : lobbyAddToAny env (clearOverride s c) c (some req) with
      | none =>
          rw [hadd] at hafter
          exact absurd hafter (hclear.curLobby_ne hbefore)
      | some t =>
          rw [hadd] at hafter
          obtain ⟨m, hm, hadded⟩ := added_lobbyAddToAny
            (fun m hm => Option.mem_some_iff.mp hm ▸ hlist) hadd
          exact absurd hafter (hadded.not_challenge (hclear.curLobby.trans hcur) hm hgame
            (hclear.curLobby_ne hbefore))
  | some cur =>
      simp only [hcur] at hafter hrecord ⊢
      rcases moveToLobby_cases env (s.client c).flags.overrideGame (seated_clearOverride hs)
        (hclear.curLobby.trans hcur) hlist with
        ⟨-, rv, -, heq⟩ | ⟨-, -, heq⟩ | ⟨⟨hne, -⟩, clev, i, b, t, -, heq, htransfer⟩
      · rw [heq] at hafter
        exact absurd hafter (hclear.curLobby_ne hbefore)
      · rw [heq] at hafter
        have hstill := hclear.trans (still_finishChange _ c cur false)
        exact absurd hafter (hstill.curLobby_ne hbefore)
      · by_cases hd : d = c
        · subst hd
          have hreq : req = l := by
            rw [heq] at hafter
            exact Option.some.inj (htransfer.after.symm.trans hafter)
          subst hreq
          obtain ⟨n, hn, hcap⟩ :=
            maxChal_moveToLobby (s := clearOverride s d) hne hchal (by rw [heq])
          exact ⟨n, hrecord.trans (hclient.symm.trans hn), hcap⟩
        · rw [heq, htransfer.others d hd] at hafter
          exact absurd hafter (hclear.curLobby_ne hbefore)

/-- A client that was not in a challenge game before an event and is there afterwards has
lowered the cap to its own. -/
theorem maxChal_joined {e : Event} (hs : Seated s) (hok : Promised s e)
    (hgame : (s.lobby l).type ≠ .default) (hbefore : (s.client d).curLobby ≠ some l)
    (hafter : ((step s e).client d).curLobby = some l) (hchal : (s.lobby l).challenge ≠ 0) :
    ∃ n, ((step s e).client d).stages = some n ∧
      ((step s e).lobby l).maxChal = min (s.lobby l).maxChal (n + 1) := by
  obtain ⟨env, call⟩ := e
  cases call with
  | addToAny c req =>
      simp only [step, call] at hafter
      cases hadd : lobbyAddToAny env s c req with
      | none =>
          rw [hadd] at hafter
          exact absurd hafter hbefore
      | some t =>
          rw [hadd] at hafter
          obtain ⟨m, hm, hadded⟩ := added_lobbyAddToAny hok.2 hadd
          exact absurd hafter (hadded.not_challenge hok.1 hm hgame hbefore)
  | changeLobby c req =>
      simp only [step, call] at hafter ⊢
      exact maxChal_lobbyChangeLobby hs hok hgame hbefore hafter hchal
  | removePlayer c =>
      have htransfer := @lobbyRemovePlayer_transfer env s c hs
      by_cases hd : d = c
      · subst hd
        cases htransfer.after.symm.trans hafter
      · refine absurd ((congrArg Client.curLobby (htransfer.others d hd)).symm.trans ?_) hbefore
        exact hafter
  | doneBurst c =>
      simp only [step, call, dcProcessDoneBurst] at hafter
      split at hafter
      · exact absurd hafter hbefore
      · split at hafter
        · exact absurd hafter hbefore
        · exact absurd hafter ((still_setBursting s c _ false).curLobby_ne hbefore)
  | setFlags l' flags => exact absurd hafter hbefore
  | setClient c version flags level chClass times =>
      have hstill := still_setClient s c version flags level chClass times
      exact absurd hafter (hstill.curLobby_ne hbefore)

end Joining

/-! ## Runs -/

section Runs

variable {env : Env} {s s₀ s' : Block} {c : ClientRef} {l : LobbyRef} {old new : Option LobbyRef}
  {e : Event} {es : List Event}

theorem memberStages_congr (hclients : (s'.lobby l).clients = (s.lobby l).clients)
    (hstages : ∀ i d, (s.lobby l).clients i = some d →
      (s'.client d).stages = (s.client d).stages) : memberStages s' l = memberStages s l := by
  ext n
  rw [memberStages, memberStages, hclients]
  constructor
  · rintro ⟨i, d, hd, hn⟩
    exact ⟨i, d, hd, hstages i d hd ▸ hn⟩
  · rintro ⟨i, d, hd, hn⟩
    exact ⟨i, d, hd, (hstages i d hd).trans hn⟩

/-- A client more. -/
theorem memberStages_joined {i n : Nat} (hfree : (s.lobby l).clients i = none)
    (hclients : (s'.lobby l).clients = update (s.lobby l).clients i (some c))
    (hn : (s'.client c).stages = some n)
    (hstages : ∀ i d, (s.lobby l).clients i = some d →
      (s'.client d).stages = (s.client d).stages) :
    memberStages s' l = insert n (memberStages s l) := by
  ext m
  rw [memberStages, memberStages, hclients]
  constructor
  · rintro ⟨j, d, hd, hm⟩
    by_cases hj : j = i
    · rw [hj, Function.update_self] at hd
      obtain rfl := Option.some.inj hd
      exact .inl (Option.some.inj (hm.symm.trans hn))
    · rw [Function.update_of_ne hj] at hd
      exact .inr ⟨j, d, hd, hstages j d hd ▸ hm⟩
  · rintro (rfl | ⟨j, d, hd, hm⟩)
    · exact ⟨i, c, Function.update_self .., hn⟩
    · have hj : j ≠ i := by
        rintro rfl
        exact nomatch hfree.symm.trans hd
      exact ⟨j, d, (Function.update_of_ne hj ..).trans hd, (hstages j d hd).trans hm⟩

/-- The cap of a lobby that nobody joins or leaves. -/
theorem Capped.kept (h : Capped s l) (hcore : (s'.lobby l).core = (s.lobby l).core)
    (hstages : ∀ i d, (s.lobby l).clients i = some d →
      (s'.client d).stages = (s.client d).stages) : Capped s' l := by
  have hclients := Lobby.eq_of_core Lobby.clients (fun _ => rfl) hcore
  have hcap := Lobby.eq_of_core Lobby.maxChal (fun _ => rfl) hcore
  refine ⟨fun i d hd => ?_, fun hmember => ?_⟩
  · rw [hclients] at hd
    obtain ⟨n, hn⟩ := h.eligible i d hd
    exact ⟨n, (hstages i d hd).trans hn⟩
  · rw [hclients] at hmember
    obtain ⟨n, hleast, hmax⟩ := h.least hmember
    rw [memberStages_congr hclients hstages, hcap]
    exact ⟨n, hleast, hmax⟩

/-- The cap of a game that a client joins, which may be the first to do so. -/
theorem Capped.joined (h : Capped s l) {i n : Nat} (hfree : (s.lobby l).clients i = none)
    (hfresh : (∀ j, (s.lobby l).clients j = none) → (s.lobby l).maxChal = 255)
    (hclients : (s'.lobby l).clients = update (s.lobby l).clients i (some c))
    (hn : (s'.client c).stages = some n)
    (hcap : (s'.lobby l).maxChal = min (s.lobby l).maxChal (n + 1))
    (hstages : ∀ i d, (s.lobby l).clients i = some d →
      (s'.client d).stages = (s.client d).stages) : Capped s' l := by
  refine ⟨fun j d hd => ?_, fun _ => ?_⟩
  · rw [hclients] at hd
    by_cases hj : j = i
    · rw [hj, Function.update_self] at hd
      exact ⟨n, Option.some.inj hd ▸ hn⟩
    · rw [Function.update_of_ne hj] at hd
      obtain ⟨m, hm⟩ := h.eligible j d hd
      exact ⟨m, (hstages j d hd).trans hm⟩
  · rw [memberStages_joined hfree hclients hn hstages, hcap]
    by_cases hmember : ∃ j d, (s.lobby l).clients j = some d
    · obtain ⟨m, hleast, hmax⟩ := h.least hmember
      exact ⟨min n m, hleast.insert n, by rw [hmax]; omega⟩
    · have hnone : ∀ j, (s.lobby l).clients j = none := fun j =>
        Option.eq_none_iff_forall_ne_some.mpr fun d hd => hmember ⟨j, d, hd⟩
      have hempty : memberStages s l = ∅ :=
        Set.eq_empty_of_forall_notMem fun m ⟨j, d, hd, _⟩ => hmember ⟨j, d, hd⟩
      have hle := stages_le hn
      refine ⟨n, ?_, by rw [hfresh hnone]; omega⟩
      rw [hempty, insert_empty_eq]
      exact isLeast_singleton

/-- The cap of a game that a client leaves, while others stay. -/
theorem Capped.left (h : Capped s l) {i now : Nat} (hcounted : (s.lobby l).Counted)
    (hchal : (s.lobby l).challenge ≠ 0)
    (hcore : (s'.lobby l).core = (dropSlot now s (s.lobby l) i).core)
    (hstages : ∀ i d, (s.lobby l).clients i = some d →
      (s'.client d).stages = (s.client d).stages) : Capped s' l := by
  have hclients : (s'.lobby l).clients = update (s.lobby l).clients i none := by
    rw [Lobby.eq_of_core Lobby.clients (fun _ => rfl) hcore, dropSlot_clients]
  have hcap : (s'.lobby l).maxChal =
      lobbyFindMaxChallenge s { s.lobby l with clients := update (s.lobby l).clients i none } := by
    rw [Lobby.eq_of_core Lobby.maxChal (fun _ => rfl) hcore, maxChal_dropSlot hchal]
  have hstayed : ∀ j d, update (s.lobby l).clients i none j = some d →
      (s.lobby l).clients j = some d := by
    intro j d hd
    by_cases hj : j = i
    · rw [hj, Function.update_self] at hd
      exact nomatch hd
    · rwa [Function.update_of_ne hj] at hd
  refine ⟨fun j d hd => ?_, fun hmember => ?_⟩
  · rw [hclients] at hd
    obtain ⟨n, hn⟩ := h.eligible j d (hstayed j d hd)
    exact ⟨n, (hstages j d (hstayed j d hd)).trans hn⟩
  · rw [hclients] at hmember
    obtain ⟨n, hleast, hfound⟩ := lobbyFindMaxChallenge_eq
      (x := { s.lobby l with clients := update (s.lobby l).clients i none }) hchal
      (fun j d hd => hcounted.slot_lt j d (hstayed j d hd))
      (fun j d hd => h.eligible j d (hstayed j d hd)) hmember
    have hsame : memberStages s' l = {n | ∃ j d,
        update (s.lobby l).clients i none j = some d ∧ (s.client d).stages = some n} := by
      ext m
      rw [memberStages, hclients]
      constructor
      · rintro ⟨j, d, hd, hm⟩
        exact ⟨j, d, hd, hstages j d (hstayed j d hd) ▸ hm⟩
      · rintro ⟨j, d, hd, hm⟩
        exact ⟨j, d, hd, (hstages j d (hstayed j d hd)).trans hm⟩
    exact ⟨n, hsame ▸ hleast, hcap.trans hfound⟩

/-- A game that is in the list after a transfer, but has no members, had none before. -/
theorem Transfer.empty_before (h : Transfer env s s' c old new) (hs : Seated s)
    (hnodup : s.lobbies.Nodup) (hgame : (s.lobby l).type ≠ .default) (hlist : l ∈ s'.lobbies)
    (hempty : ∀ i, (s'.lobby l).clients i = none) :
    (old = some l ↔ new = some l) := by
  by_cases hnew : new = some l
  · have hslot := (h.seated hs).clients_clientId (h.after.trans hnew)
    exact nomatch (hempty _).symm.trans hslot
  · refine iff_of_false (fun hold => ?_) hnew
    have hpos : 0 < (s.lobby l).numClients := by
      have hslot := hs.clients_clientId (h.before.trans hold)
      rw [(hs.counted l).count]
      exact Slots.filled_pos ((hs.counted l).slot_lt _ c hslot) hslot
    have hzero : (s'.lobby l).numClients = 0 := by
      rw [((h.seated hs).counted l).count, Slots.filled_eq_zero_iff]
      exact fun i _ => hempty i
    have hleft := h.numClients_left hold hnew
    exact h.not_mem_of_last hnodup hold hnew hgame (by omega) hlist

/-- Events that leave the records of the members alone keep the caps right. -/
theorem challengesCapped_step (s : Block) (e : Event) (h : ChallengesCapped s)
    (hok : KeepsRecords s e) : ChallengesCapped (step s e) := by
  obtain ⟨c, old, new, htransfer, -⟩ := step_cases h.seated hok.1
  have hchal (l : LobbyRef) : ((step s e).lobby l).challenge = (s.lobby l).challenge :=
    htransfer.field_eq Lobby.challenge (fun _ _ _ _ _ _ _ _ => rfl) l
  have hstages {l : LobbyRef} (hl : (s.lobby l).challenge ≠ 0) (i : Nat) (d : ClientRef)
      (hd : (s.lobby l).clients i = some d) :
      ((step s e).client d).stages = (s.client d).stages :=
    stages_step h.seated hok (h.seated.clients_iff.mp hd).1 hl
  refine ⟨htransfer.seated h.seated, htransfer.nodup h.nodup, fun l hl => ?_,
    fun l hlist hl hempty => ?_, fun l hl => ?_⟩
  · rw [hchal] at hl
    rw [htransfer.type_eq]
    exact h.game l hl
  · rw [hchal] at hl
    have hkept := htransfer.empty_before h.seated h.nodup (h.game l hl) hlist hempty
    have hcore := htransfer.kept l hkept
    rw [Lobby.eq_of_core Lobby.maxChal (fun _ => rfl) hcore]
    refine h.fresh l (htransfer.mem_of_mem hlist) hl fun i => ?_
    rw [← htransfer.clients_kept hkept]
    exact hempty i
  · rw [hchal] at hl
    have hcapped := h.capped l hl
    by_cases hold : old = some l
    · by_cases hnew : new = some l
      · exact hcapped.kept (htransfer.kept l (iff_of_true hold hnew)) (hstages hl)
      · exact hcapped.left (h.seated.counted l) hl (htransfer.left l hold hnew) (hstages hl)
    · by_cases hnew : new = some l
      · obtain ⟨hlist, -, hslot, -, -⟩ := htransfer.joined l hold hnew
        obtain ⟨n, hn, hcap⟩ := maxChal_joined h.seated hok.1 (h.game l hl)
          (fun heq => hold (htransfer.before.symm.trans heq)) (htransfer.after.trans hnew) hl
        exact hcapped.joined ((h.seated.counted l).slotFor hslot).2 (h.fresh l hlist hl)
          (htransfer.clients_joined hold hnew) hn hcap (hstages hl)
      · exact hcapped.kept (htransfer.kept l (iff_of_false hold hnew)) (hstages hl)

/-- The challenge games of a block are as they are created. -/
structure Block.NewChallenges (s : Block) : Prop where
  empty : s.Empty
  nodup : s.lobbies.Nodup
  game : ∀ l, (s.lobby l).challenge ≠ 0 → (s.lobby l).type ≠ .default
  maxChal : ∀ l, (s.lobby l).challenge ≠ 0 → (s.lobby l).maxChal = 0xFF

theorem Block.NewChallenges.capped (h : s.NewChallenges) : ChallengesCapped s where
  seated := h.empty.seated
  nodup := h.nodup
  game := h.game
  fresh l _ hl _ := h.maxChal l hl
  capped l _ := by
    refine ⟨fun i d hd => ?_, fun ⟨i, d, hd⟩ => ?_⟩
    · exact nomatch (h.empty.clients l i).symm.trans hd
    · exact nomatch (h.empty.clients l i).symm.trans hd

/-- However clients have joined and left the challenge games of a block since they were
created, a game with members has the cap that comes after the stages that all of them have
completed. -/
theorem maxChal_run (hnew : s₀.NewChallenges) (hrun : Run.Guarded step KeepsRecords s₀ es)
    (hs : s = es.foldl step s₀) (hchal : (s.lobby l).challenge ≠ 0)
    (hmember : ∃ i c, (s.lobby l).clients i = some c) :
    (∀ i c, (s.lobby l).clients i = some c → (s.client c).HasChallenge) ∧
    ∃ n, IsLeast {n | ∃ i c, (s.lobby l).clients i = some c ∧ n = (s.client c).completed} n ∧
      (s.lobby l).maxChal = n + 1 := by
  have hcapped : Capped s l := by
    rw [hs] at hchal ⊢
    exact (hrun.invariant challengesCapped_step hnew.capped).capped l hchal
  have helig : ∀ i c, (s.lobby l).clients i = some c →
      (s.client c).HasChallenge ∧ (s.client c).stages = some (s.client c).completed := by
    intro i c hc
    obtain ⟨n, hn⟩ := hcapped.eligible i c hc
    have hmode := (stages_eq_some_iff.mp hn).1
    exact ⟨hmode, stages_eq_some_iff.mpr ⟨hmode, rfl⟩⟩
  obtain ⟨n, hleast, hcap⟩ := hcapped.least hmember
  refine ⟨fun i c hc => (helig i c hc).1, n, ?_, hcap⟩
  have hsame : memberStages s l =
      {n | ∃ i c, (s.lobby l).clients i = some c ∧ n = (s.client c).completed} := by
    ext m
    constructor
    · rintro ⟨i, c, hc, hm⟩
      exact ⟨i, c, hc, (stages_eq_some_iff.mp hm).2⟩
    · rintro ⟨i, c, hc, rfl⟩
      exact ⟨i, c, hc, (helig i c hc).2⟩
  exact hsame ▸ hleast

/-- A block with a new challenge game for Gamecube, and clients of whom the one with the
number `c` has completed `c` stages. -/
def challengeBlock : Block :=
  { twoLobbies with
    lobby := fun l =>
      if l = 0 then twoLobbies.lobby 0
      else { twoLobbies.lobby 1 with challenge := 1, maxChal := 0xFF }
    client := fun c =>
      { version := .gc, level := 0, chClass := 0, times := fun i => if i < c then 1 else 0 } }

theorem newChallenges_challengeBlock : challengeBlock.NewChallenges where
  empty :=
    { clients := fun l i => by
        by_cases hl : l = 0
        · simp only [challengeBlock, if_pos hl]
          exact empty_twoLobbies.clients 0 i
        · simp only [challengeBlock, if_neg hl]
          exact empty_twoLobbies.clients 1 i
      numClients := fun l => by
        by_cases hl : l = 0
        · simp only [challengeBlock, if_pos hl]
          exact empty_twoLobbies.numClients 0
        · simp only [challengeBlock, if_neg hl]
          exact empty_twoLobbies.numClients 1
      curLobby := fun _ => rfl
      maxClients := fun l => by
        by_cases hl : l = 0
        · simp only [challengeBlock, if_pos hl]
          exact empty_twoLobbies.maxClients 0
        · simp only [challengeBlock, if_neg hl]
          exact empty_twoLobbies.maxClients 1 }
  nodup := by decide
  game l hl := by
    by_cases hzero : l = 0
    · subst hzero
      exact absurd rfl hl
    · simp only [challengeBlock, if_neg hzero]
      decide
  maxChal l hl := by
    by_cases hzero : l = 0
    · subst hzero
      exact absurd rfl hl
    · simp only [challengeBlock, if_neg hzero]

/-- Two clients join the game, and the one that has completed fewer stages leaves it. -/
def challengeJoins : List Event :=
  [({ now := 1 }, .addToAny 5 none), ({ now := 2 }, .changeLobby 5 1), ({ now := 3 }, .doneBurst 5),
    ({ now := 4 }, .addToAny 2 none), ({ now := 5 }, .changeLobby 2 1),
    ({ now := 6 }, .removePlayer 2)]

theorem maxChal_run_challengeJoins :
    (∀ i c, ((challengeJoins.foldl step challengeBlock).lobby 1).clients i = some c →
      ((challengeJoins.foldl step challengeBlock).client c).HasChallenge) ∧
    ∃ n, IsLeast {n | ∃ i c,
        ((challengeJoins.foldl step challengeBlock).lobby 1).clients i = some c ∧
        n = ((challengeJoins.foldl step challengeBlock).client c).completed} n ∧
      ((challengeJoins.foldl step challengeBlock).lobby 1).maxChal = n + 1 :=
  maxChal_run newChallenges_challengeBlock (by decide) rfl (by decide) ⟨0, 5, by decide⟩

end Runs

end Sylverant.Ship
