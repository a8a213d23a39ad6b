/-
# Bursting flags

What the calls do to the flags that mark a client, and the game it is in, while the
client still loads what the others have done there. A call raises both flags, or takes
one or both down, or leaves them alone.
-/

import Sylverant.Ship.Transfer

namespace Sylverant.Ship

open Function (update)

/-! ## The flags -/

/-- The bursting flag of a lobby. -/
def held (s : Block) (l : LobbyRef) : Bool := (s.lobby l).flags.bursting

/-- The bursting flag of a client. -/
def bursting (s : Block) (c : ClientRef) : Bool := (s.client c).flags.bursting

/-- A bursting client leaves a game only as the last one. -/
def LeavesCalm (s : Block) (c : ClientRef) (old new : Option LobbyRef) : Prop :=
  ∀ l, old = some l → new ≠ some l → (s.lobby l).type ≠ .default → bursting s c →
    (s.lobby l).numClients = 1

/-- What a transfer does to the bursting flags, and when that is right. -/
inductive Signal (s s' : Block) (c : ClientRef) :
    Option LobbyRef → Option LobbyRef → Prop → Prop
  /-- Nothing, so that the client must not join a game. -/
  | quiet {old new : Option LobbyRef} (hheld : held s' = held s)
      (hbursting : bursting s' = bursting s)
      (hjoin : ∀ m, new = some m → old = some m ∨ (s.lobby m).type = .default) :
      Signal s s' c old new (LeavesCalm s c old new)
  /-- The client begins to burst in a game where nobody does. -/
  | start {l m : LobbyRef} (hgame : (s.lobby m).type ≠ .default) (hfree : held s m = false)
      (hheld : held s' = update (held s) m true)
      (hbursting : bursting s' = update (bursting s) c true) :
      Signal s s' c (some l) (some m) (LeavesCalm s c (some l) (some m))
  /-- A bursting client goes away, and its lobby is unlocked. -/
  | unlock {l : LobbyRef} (hc : bursting s c = true) (hheld : held s' = update (held s) l false)
      (hbursting : bursting s' = bursting s) : Signal s s' c (some l) none True
  /-- A client says that it is done. -/
  | done {l : LobbyRef} (hgame : (s.lobby l).type ≠ .default)
      (hheld : held s' = update (held s) l false)
      (hbursting : bursting s' = update (bursting s) c false) :
      Signal s s' c (some l) (some l)
        (bursting s c ∨ ∀ d, (s.client d).curLobby = some l → bursting s d = false)

section Flags

variable {s t : Block} {c : ClientRef} {l : LobbyRef} {b : Bool}

theorem held_modifyLobby (f : Lobby → Lobby)
    (h : (f (s.lobby l)).flags.bursting = (s.lobby l).flags.bursting) :
    held (s.modifyLobby l f) = held s :=
  funext fun m => apply_lobby_modifyLobby s l m f (fun x => x.flags.bursting) h

theorem bursting_modifyClient (g : Client → Client)
    (h : (g (s.client c)).flags.bursting = (s.client c).flags.bursting) :
    bursting (s.modifyClient c g) = bursting s :=
  funext fun d => apply_client_modifyClient s c d g (fun y => y.flags.bursting) h

@[simp]
theorem held_modifyClient (g : Client → Client) : held (s.modifyClient c g) = held s := rfl

@[simp]
theorem bursting_modifyLobby (f : Lobby → Lobby) : bursting (s.modifyLobby l f) = bursting s :=
  rfl

@[simp]
theorem held_setBursting :
    held (s.modifyLobby l fun x => x.setBursting b) = update (held s) l b := by
  funext m
  by_cases hm : m = l
  · subst hm
    rw [Function.update_self, held, lobby_modifyLobby_self]
    rfl
  · rw [Function.update_of_ne hm, held, lobby_modifyLobby_of_ne s _ hm]
    rfl

@[simp]
theorem bursting_setBursting :
    bursting (s.modifyClient c fun y => y.setBursting b) = update (bursting s) c b := by
  funext d
  by_cases hd : d = c
  · subst hd
    rw [Function.update_self, bursting, client_modifyClient_self]
    rfl
  · rw [Function.update_of_ne hd, bursting, client_modifyClient_of_ne s _ hd]
    rfl

@[simp]
theorem held_clearOverride : held (clearOverride s c) = held s := rfl

@[simp]
theorem bursting_clearOverride : bursting (clearOverride s c) = bursting s :=
  bursting_modifyClient _ rfl

@[simp]
theorem held_setFlags (flags : LobbyFlags) : held (setFlags s l flags) = held s :=
  held_modifyLobby _ rfl

@[simp]
theorem bursting_setClient {version : Version} {flags : ClientFlags} {level chClass : Nat}
    {times : Nat → Nat} :
    bursting (setClient s c version flags level chClass times) = bursting s :=
  bursting_modifyClient _ rfl

variable {now clev i : Nat}

@[simp]
theorem held_takeSlot : held (takeSlot now s c l clev i) = held s :=
  held_modifyLobby (fun x => fillSlot x c clev i) rfl

@[simp]
theorem bursting_takeSlot : bursting (takeSlot now s c l clev i) = bursting s :=
  bursting_modifyClient _ rfl

@[simp]
theorem held_leaveSlot : held (leaveSlot now s c i l) = held s :=
  held_modifyLobby (fun x => dropSlot now s x i) dropSlot_bursting

@[simp]
theorem bursting_leaveSlot : bursting (leaveSlot now s c i l) = bursting s := by
  refine bursting_modifyClient _ ?_
  split_ifs <;> rfl

@[simp]
theorem held_lobbyDestroyLocked : held (lobbyDestroyLocked s l b) = held s := by
  cases b <;> rfl

@[simp]
theorem bursting_lobbyDestroyLocked : bursting (lobbyDestroyLocked s l b) = bursting s := by
  cases b <;> rfl

/-- A client in a default lobby after `lobby_change_lobby`. -/
theorem flags_finishChange_default {cur : LobbyRef} (hcur : (s.client c).curLobby = some cur)
    (htype : (s.lobby cur).type = .default) :
    held (finishChange s c l b) = held s ∧ bursting (finishChange s c l b) = bursting s := by
  have hmain : finishChange s c l b =
      let t := s.modifyClient c fun y => { y with lobbyId := (s.lobby cur).lobbyId }
      if b then lobbyDestroyLocked t l true else t := by
    simp only [finishChange, hcur, htype, if_true]
  rw [hmain]
  refine ⟨?_, ?_⟩
  · split_ifs <;> rfl
  · dsimp only
    split_ifs
    · rw [bursting_lobbyDestroyLocked]
      exact bursting_modifyClient _ rfl
    · exact bursting_modifyClient _ rfl

/-- A client in a game after `lobby_change_lobby`. -/
theorem flags_finishChange_game {cur : LobbyRef} (hcur : (s.client c).curLobby = some cur)
    (htype : (s.lobby cur).type ≠ .default) :
    held (finishChange s c l b) = update (held s) cur true ∧
      bursting (finishChange s c l b) = update (bursting s) c true := by
  have hmain : finishChange s c l b =
      let t := (s.modifyLobby cur fun x => x.setBursting true).modifyClient c fun y =>
        y.setBursting true
      if b then lobbyDestroyLocked t l true else t := by
    simp only [finishChange, hcur, htype, if_false]
  rw [hmain]
  dsimp only
  refine ⟨?_, ?_⟩
  · split_ifs <;> simp only [held_lobbyDestroyLocked, held_modifyClient, held_setBursting]
  · split_ifs <;>
      simp only [bursting_lobbyDestroyLocked, bursting_setBursting, bursting_modifyLobby]

/-- A check that is passed. -/
theorem of_check_eq_none {P : Prop} [Decidable P] {a : Int} {rest : Option Int}
    (h : (if P then some a else rest) = none) : ¬P ∧ rest = none := by
  split at h
  · cases h
  · rename_i hP
    exact ⟨hP, h⟩

/-- Nobody gets into a lobby while its flag is set. -/
theorem held_of_policyError {legit override : Bool} {y : Client}
    (h : policyError legit override y (s.lobby l) = none) : held s l = false := by
  rw [policyError] at h
  iterate 6 obtain ⟨-, h⟩ := of_check_eq_none h
  obtain ⟨hheld, -⟩ := of_check_eq_none h
  exact Bool.eq_false_iff.mpr hheld

end Flags

end Sylverant.Ship
