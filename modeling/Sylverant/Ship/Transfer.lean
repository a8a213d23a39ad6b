/-
# Transfers

Whatever a call does, it moves one client from where it was to where it is then:
the lobby it leaves drops its slot, the lobby it joins fills one, and nothing else
changes but flags. `Transfer` says this once, for all calls, and with what happens
to the list of lobbies. The invariants of blocks are derived from it.
-/

import Sylverant.Library.Seating
import Sylverant.Ship.Lobby

namespace Sylverant.Ship

open Function (update)
open Scan (scan)
open Seating (Paired)
open Slots (filled firstFree)

/-! ## Seats -/

/-- The client in a slot of a lobby. -/
def guest (s : Block) (p : LobbyRef × Nat) : Option ClientRef := (s.lobby p.1).clients p.2

/-- The lobby of a client, and its slot there. -/
def seat (s : Block) (c : ClientRef) : Option (LobbyRef × Nat) :=
  (s.client c).curLobby.map fun l => (l, (s.client c).clientId)

/-- The slots of a lobby and their number. -/
structure Lobby.Counted (x : Lobby) : Prop where
  slot_lt : ∀ i c, x.clients i = some c → i < x.maxClients
  count : x.numClients = filled x.maxClients x.clients
  /-- A game that prefers slot 1 has one. -/
  slotOne : x.version.code < Version.gc.code → x.type = .game → 1 < x.maxClients

/-- Lobbies and clients agree about who is where, and the lobbies with clients are
in the list. -/
structure Seated (s : Block) : Prop where
  paired : Paired (guest s) (seat s)
  counted : ∀ l, (s.lobby l).Counted
  listed : ∀ c l, (s.client c).curLobby = some l → l ∈ s.lobbies

theorem seat_eq_some {s : Block} {c : ClientRef} {l : LobbyRef} {i : Nat} :
    seat s c = some (l, i) ↔ (s.client c).curLobby = some l ∧ (s.client c).clientId = i := by
  rw [seat, Option.map_eq_some_iff]
  constructor
  · rintro ⟨l', hl, heq⟩
    cases heq
    exact ⟨hl, rfl⟩
  · rintro ⟨hl, rfl⟩
    exact ⟨l, hl, rfl⟩

namespace Seated

variable {s : Block} {c : ClientRef} {l : LobbyRef} {i : Nat}

/-- A slot holds a client exactly if the client is in that lobby with that number. -/
theorem clients_iff (h : Seated s) :
    (s.lobby l).clients i = some c ↔ (s.client c).curLobby = some l ∧ (s.client c).clientId = i :=
  (h.paired (l, i) c).trans seat_eq_some

/-- A client is in the slot that it has the number of. -/
theorem clients_clientId (h : Seated s) (hl : (s.client c).curLobby = some l) :
    (s.lobby l).clients (s.client c).clientId = some c :=
  h.clients_iff.mpr ⟨hl, rfl⟩

end Seated

/-! ## What slots do to lobbies -/

/-- A lobby without its flags. -/
def Lobby.core (x : Lobby) : Lobby := { x with flags := {} }

/-- What elections and challenge games read of a client. -/
def Client.vital (c : Client) : Version × Nat × (Nat → Nat) := (c.version, c.joinTime, c.times)

section Records

variable {now : Nat} {s t : Block} {x y : Lobby} {c : ClientRef} {clev i : Nat}

theorem Lobby.eq_of_core {α : Type} (field : Lobby → α) (hfield : ∀ x, field x.core = field x)
    (h : x.core = y.core) : field x = field y := by
  rw [← hfield x, h, hfield y]

@[simp]
theorem clients_fillSlot : (fillSlot x c clev i).clients = update x.clients i (some c) := rfl

/-- A field that elections do not touch. -/
theorem replaceLeader_field {α : Type} (field : Lobby → α)
    (hfield : ∀ z leaderId version gcAllowed episode,
      field { z with
        leaderId := leaderId, version := version, episode := episode,
        flags := { z.flags with gcAllowed := gcAllowed } } = field z) :
    field (replaceLeader now s x) = field x := by
  simp only [replaceLeader, lobbyElectLeaderCrossLocked]
  split_ifs
  · exact hfield x _ _ _ _
  · exact hfield x _ x.version x.flags.gcAllowed x.episode
  · exact hfield x _ x.version x.flags.gcAllowed x.episode

/-- An election keeps the version, or switches to Gamecube. -/
theorem replaceLeader_version :
    (replaceLeader now s x).version = x.version ∨ (replaceLeader now s x).version = .gc := by
  simp only [replaceLeader, lobbyElectLeaderCrossLocked]
  split_ifs
  · exact .inr rfl
  · exact .inl rfl
  · exact .inl rfl

/-- What dropping a slot leaves of a field is what the election leaves. -/
theorem dropSlot_elected {α : Type} (field : Lobby → α)
    (hfield : ∀ z clients numClients maxChal,
      field { z with clients := clients, numClients := numClients, maxChal := maxChal } = field z) :
    field (dropSlot now s x i) =
      if i = x.leaderId then field (replaceLeader now s x) else field x := by
  simp only [dropSlot]
  split_ifs <;> exact hfield ..

/-- A field that dropping a slot does not touch. -/
theorem dropSlot_field {α : Type} (field : Lobby → α)
    (hfield : ∀ z leaderId version gcAllowed episode clients numClients maxChal,
      field { z with
        leaderId := leaderId, version := version, episode := episode, clients := clients,
        numClients := numClients, maxChal := maxChal,
        flags := { z.flags with gcAllowed := gcAllowed } } = field z) :
    field (dropSlot now s x i) = field x := by
  rw [dropSlot_elected field fun z clients numClients maxChal =>
    hfield z z.leaderId z.version z.flags.gcAllowed z.episode clients numClients maxChal]
  split_ifs
  · exact replaceLeader_field field fun z leaderId version gcAllowed episode =>
      hfield z leaderId version gcAllowed episode z.clients z.numClients z.maxChal
  · rfl

@[simp]
theorem dropSlot_clients : (dropSlot now s x i).clients = update x.clients i none := by
  have hclients : (replaceLeader now s x).clients = x.clients :=
    replaceLeader_field _ fun _ _ _ _ _ => rfl
  simp only [dropSlot]
  split_ifs <;> simp only [hclients]

@[simp]
theorem dropSlot_numClients : (dropSlot now s x i).numClients = x.numClients - 1 := by
  have hnum : (replaceLeader now s x).numClients = x.numClients :=
    replaceLeader_field _ fun _ _ _ _ _ => rfl
  simp only [dropSlot]
  split_ifs <;> simp only [hnum]

@[simp]
theorem dropSlot_maxClients : (dropSlot now s x i).maxClients = x.maxClients :=
  dropSlot_field _ fun _ _ _ _ _ _ _ _ => rfl

@[simp]
theorem dropSlot_type : (dropSlot now s x i).type = x.type :=
  dropSlot_field _ fun _ _ _ _ _ _ _ _ => rfl

@[simp]
theorem dropSlot_lobbyId : (dropSlot now s x i).lobbyId = x.lobbyId :=
  dropSlot_field _ fun _ _ _ _ _ _ _ _ => rfl

@[simp]
theorem dropSlot_bursting : (dropSlot now s x i).flags.bursting = x.flags.bursting :=
  dropSlot_field (fun z => z.flags.bursting) fun _ _ _ _ _ _ _ _ => rfl

/-- Elections depend on the clients in the other slots only. -/
theorem electKey_congr (eligible : Client → Bool)
    (heligible : ∀ d e : Client, d.vital = e.vital → eligible d = eligible e)
    (h : ∀ j d, x.clients j = some d → j ≠ x.leaderId →
      (t.client d).vital = (s.client d).vital) :
    electKey t x eligible = electKey s x eligible := by
  funext j
  by_cases hj : j = x.leaderId
  · simp only [electKey, if_pos hj]
  · simp only [electKey, if_neg hj]
    cases hclient : x.clients j with
    | none => rfl
    | some d =>
        have hvital := h j d hclient hj
        have hjoin : (t.client d).joinTime = (s.client d).joinTime :=
          congrArg (fun v => v.2.1) hvital
        simp only [heligible _ _ hvital, hjoin]

theorem replaceLeader_congr
    (h : ∀ j d, x.clients j = some d → j ≠ x.leaderId →
      (t.client d).vital = (s.client d).vital) :
    replaceLeader now t x = replaceLeader now s x := by
  have hgc := electKey_congr Client.preGc
    (fun d e hde => by
      have hversion : d.version = e.version := congrArg (fun v => v.1) hde
      rw [Client.preGc, Client.preGc, hversion]) h
  have hall := electKey_congr (fun _ => true) (fun _ _ _ => rfl) h
  simp only [replaceLeader, lobbyElectLeaderCrossLocked, lobbyElectLeaderLocked, hgc, hall]

theorem lobbyFindMaxChallenge_congr
    (h : ∀ j d, x.clients j = some d → (t.client d).vital = (s.client d).vital) :
    lobbyFindMaxChallenge t x = lobbyFindMaxChallenge s x := by
  have hstages (d : ClientRef) (hvital : (t.client d).vital = (s.client d).vital) :
      (t.client d).stages = (s.client d).stages := by
    have hversion : (t.client d).version = (s.client d).version :=
      congrArg (fun v => v.1) hvital
    have htimes : (t.client d).times = (s.client d).times := congrArg (fun v => v.2.2) hvital
    rw [Client.stages, Client.stages, hversion, htimes]
  simp only [lobbyFindMaxChallenge]
  congr 3
  funext minLev j
  cases hclient : x.clients j with
  | none => rfl
  | some d => simp only [hstages d (h j d hclient)]

/-- Dropping a slot depends on the clients in the other slots only. -/
theorem dropSlot_congr
    (h : ∀ j d, x.clients j = some d → j ≠ i → (t.client d).vital = (s.client d).vital) :
    dropSlot now t x i = dropSlot now s x i := by
  have hleader : (if i = x.leaderId then replaceLeader now t x else x) =
      if i = x.leaderId then replaceLeader now s x else x := by
    split_ifs with hi
    · exact replaceLeader_congr fun j d hd hj => h j d hd (by rwa [hi])
    · rfl
  have hclients (z : Lobby) (hz : z.clients = update x.clients i none) :
      lobbyFindMaxChallenge t z = lobbyFindMaxChallenge s z := by
    refine lobbyFindMaxChallenge_congr fun j d hd => ?_
    rw [hz] at hd
    by_cases hj : j = i
    · rw [hj, Function.update_self] at hd
      cases hd
    · rw [Function.update_of_ne hj] at hd
      exact h j d hd hj
  have hdrop : (if i = x.leaderId then replaceLeader now s x else x).clients = x.clients := by
    split_ifs
    · exact replaceLeader_field _ fun _ _ _ _ _ => rfl
    · rfl
  simp only [dropSlot, hleader]
  rw [hclients _ (by rw [hdrop])]

@[simp]
theorem electKey_setBursting (eligible : Client → Bool) (b : Bool) :
    electKey s (x.setBursting b) eligible = electKey s x eligible := rfl

@[simp]
theorem lobbyFindMaxChallenge_setBursting (b : Bool) :
    lobbyFindMaxChallenge s (x.setBursting b) = lobbyFindMaxChallenge s x := rfl

@[simp]
theorem core_setBursting (b : Bool) : (x.setBursting b).core = x.core := rfl

theorem replaceLeader_setBursting (b : Bool) :
    replaceLeader now s (x.setBursting b) = (replaceLeader now s x).setBursting b := by
  have hmax : (x.setBursting b).maxClients = x.maxClients := rfl
  have hcross : (x.setBursting b).cross ↔ x.cross := Iff.rfl
  simp only [replaceLeader, lobbyElectLeaderCrossLocked, lobbyElectLeaderLocked,
    electKey_setBursting, hmax, hcross]
  split_ifs <;> rfl

/-- Dropping a slot does not read the bursting flag. -/
theorem core_dropSlot_setBursting (b : Bool) :
    (dropSlot now s (x.setBursting b) i).core = (dropSlot now s x i).core := by
  have hleader : (x.setBursting b).leaderId = x.leaderId := rfl
  simp only [dropSlot, replaceLeader_setBursting, hleader]
  by_cases hi : i = x.leaderId
  · simp only [if_pos hi]
    rfl
  · simp only [if_neg hi]
    rfl

end Records

/-! ## Transfers -/

/-- Nothing changes but flags, and what a client knows besides where it is. -/
structure Still (s s' : Block) (c : ClientRef) : Prop where
  others : ∀ d, d ≠ c → s'.client d = s.client d
  curLobby : (s'.client c).curLobby = (s.client c).curLobby
  clientId : (s'.client c).clientId = (s.client c).clientId
  joinTime : (s'.client c).joinTime = (s.client c).joinTime
  createLobby : (s'.client c).createLobby = (s.client c).createLobby
  core : ∀ m, (s'.lobby m).core = (s.lobby m).core
  fresh : s'.fresh = s.fresh
  clients : s'.clients = s.clients

/-- The lobby that a client leaves is a game, and is empty then. -/
def Emptied (s s' : Block) (old new : Option LobbyRef) (l : LobbyRef) : Prop :=
  old = some l ∧ new ≠ some l ∧ (s.lobby l).type ≠ .default ∧ (s'.lobby l).numClients = 0

/-- A game that is emptied is destroyed, and nothing else is. -/
def Cleared (s s' : Block) (old new : Option LobbyRef) : Prop :=
  ((∀ l, ¬Emptied s s' old new l) ∧
    s'.lobbies = s.lobbies ∧ s'.numGames = s.numGames ∧ s'.freed = s.freed) ∨
  ∃ l, Emptied s s' old new l ∧
    s'.lobbies = s.lobbies.erase l ∧ s'.numGames = s.numGames - 1 ∧ s'.freed = l :: s.freed

/-- A client moves from one lobby, or from none, to another. -/
structure Transfer (env : Env) (s s' : Block) (c : ClientRef) (old new : Option LobbyRef) :
    Prop where
  before : (s.client c).curLobby = old
  after : (s'.client c).curLobby = new
  others : ∀ d, d ≠ c → s'.client d = s.client d
  createLobby : (s'.client c).createLobby = (s.client c).createLobby
  stayed : old = new → (s'.client c).clientId = (s.client c).clientId ∧
    (s'.client c).joinTime = (s.client c).joinTime
  kept : ∀ m, (old = some m ↔ new = some m) → (s'.lobby m).core = (s.lobby m).core
  joined : ∀ m, old ≠ some m → new = some m →
    m ∈ s.lobbies ∧ (s'.client c).joinTime = env.now ∧
      slotFor (s.lobby m) = some (s'.client c).clientId ∧
      (s.lobby m).numClients < (s.lobby m).maxClients ∧
      ∃ clev, (s'.lobby m).core = (fillSlot (s.lobby m) c clev (s'.client c).clientId).core
  left : ∀ m, old = some m → new ≠ some m →
    (s'.lobby m).core = (dropSlot env.later s (s.lobby m) (s.client c).clientId).core
  cleared : Cleared s s' old new
  fresh : s'.fresh = s.fresh
  clients : s'.clients = s.clients

section Still

variable {env : Env} {s s' t : Block} {c : ClientRef} {l : LobbyRef} {old new : Option LobbyRef}

theorem Still.refl (s : Block) (c : ClientRef) : Still s s c :=
  ⟨fun _ _ => rfl, rfl, rfl, rfl, rfl, fun _ => rfl, rfl, rfl⟩

theorem Still.trans (h : Still s t c) (h' : Still t s' c) : Still s s' c where
  others d hd := (h'.others d hd).trans (h.others d hd)
  curLobby := h'.curLobby.trans h.curLobby
  clientId := h'.clientId.trans h.clientId
  joinTime := h'.joinTime.trans h.joinTime
  createLobby := h'.createLobby.trans h.createLobby
  core m := (h'.core m).trans (h.core m)
  fresh := h'.fresh.trans h.fresh
  clients := h'.clients.trans h.clients

theorem still_modifyLobby (s : Block) (c : ClientRef) (l : LobbyRef) (f : Lobby → Lobby)
    (hf : ∀ x, (f x).core = x.core) : Still s (s.modifyLobby l f) c :=
  ⟨fun _ _ => rfl, rfl, rfl, rfl, rfl,
    fun m => apply_lobby_modifyLobby s l m f Lobby.core (hf _), rfl, rfl⟩

theorem still_modifyClient (s : Block) (c : ClientRef) (g : Client → Client)
    (hg : ∀ y, (g y).curLobby = y.curLobby ∧ (g y).clientId = y.clientId ∧
      (g y).joinTime = y.joinTime ∧ (g y).createLobby = y.createLobby) :
    Still s (s.modifyClient c g) c := by
  obtain ⟨hcur, hid, hjoin, hcreate⟩ := hg (s.client c)
  exact ⟨fun _ hd => client_modifyClient_of_ne s _ hd,
    apply_client_modifyClient s c c _ Client.curLobby hcur,
    apply_client_modifyClient s c c _ Client.clientId hid,
    apply_client_modifyClient s c c _ Client.joinTime hjoin,
    apply_client_modifyClient s c c _ Client.createLobby hcreate, fun _ => rfl, rfl, rfl⟩

theorem still_clearOverride (s : Block) (c : ClientRef) : Still s (clearOverride s c) c :=
  still_modifyClient s c _ fun _ => ⟨rfl, rfl, rfl, rfl⟩

theorem still_setBursting (s : Block) (c : ClientRef) (l : LobbyRef) (b : Bool) :
    Still s ((s.modifyLobby l fun x => x.setBursting b).modifyClient c fun y =>
      y.setBursting b) c := by
  have hlobby : Still s (s.modifyLobby l fun x => x.setBursting b) c :=
    still_modifyLobby s c l _ fun _ => rfl
  exact hlobby.trans (still_modifyClient _ c _ fun _ => ⟨rfl, rfl, rfl, rfl⟩)

theorem still_setFlags (s : Block) (c : ClientRef) (l : LobbyRef) (flags : LobbyFlags) :
    Still s (setFlags s l flags) c :=
  still_modifyLobby s c l _ fun _ => rfl

theorem still_setClient (s : Block) (c : ClientRef) (version : Version) (flags : ClientFlags)
    (level chClass : Nat) (times : Nat → Nat) :
    Still s (setClient s c version flags level chClass times) c :=
  still_modifyClient s c _ fun _ => ⟨rfl, rfl, rfl, rfl⟩

/-- Where nothing moves and nothing is destroyed, a client stays where it is. -/
theorem Still.transfer (h : Still s s' c) (hlobbies : s'.lobbies = s.lobbies)
    (hnum : s'.numGames = s.numGames) (hfreed : s'.freed = s.freed) :
    Transfer env s s' c (s.client c).curLobby (s.client c).curLobby where
  before := rfl
  after := h.curLobby
  others := h.others
  createLobby := h.createLobby
  stayed _ := ⟨h.clientId, h.joinTime⟩
  kept m _ := h.core m
  joined _ hold hnew := absurd hnew hold
  left _ hold hnew := absurd hold hnew
  cleared := .inl ⟨fun _ hempty => hempty.2.1 hempty.1, hlobbies, hnum, hfreed⟩
  fresh := h.fresh
  clients := h.clients

/-- Clearing the flag of a client first makes no difference. -/
theorem Transfer.of_clearOverride (h : Transfer env (clearOverride s c) s' c old new) :
    Transfer env s s' c old new where
  before := by rw [← h.before, (still_clearOverride s c).curLobby]
  after := h.after
  others d hd := (h.others d hd).trans ((still_clearOverride s c).others d hd)
  createLobby := h.createLobby.trans (still_clearOverride s c).createLobby
  stayed hsame := by
    obtain ⟨hid, hjoin⟩ := h.stayed hsame
    exact ⟨hid.trans (still_clearOverride s c).clientId,
      hjoin.trans (still_clearOverride s c).joinTime⟩
  kept := h.kept
  joined := h.joined
  left m hold hnew := by
    have hdrop : dropSlot env.later (clearOverride s c) (s.lobby m) (s.client c).clientId =
        dropSlot env.later s (s.lobby m) (s.client c).clientId :=
      dropSlot_congr fun j d _ _ => apply_client_modifyClient s c d _ Client.vital rfl
    rw [h.left m hold hnew, (still_clearOverride s c).clientId]
    exact congrArg Lobby.core hdrop
  cleared := h.cleared
  fresh := h.fresh
  clients := h.clients

/-- Destroying a lobby moves nothing. -/
theorem still_destroy (s : Block) (c : ClientRef) (l : LobbyRef) (b : Bool) :
    Still s (if b then lobbyDestroyLocked s l true else s) c := by
  cases b with
  | false => exact Still.refl s c
  | true => exact ⟨fun _ _ => rfl, rfl, rfl, rfl, rfl, fun _ => rfl, rfl, rfl⟩

/-- The lists after a lobby was destroyed, or not. -/
theorem lists_destroy (s : Block) (l : LobbyRef) (b : Bool) :
    (if b then lobbyDestroyLocked s l true else s).lobbies =
      (if b then s.lobbies.erase l else s.lobbies) ∧
    (if b then lobbyDestroyLocked s l true else s).numGames =
      (if b ∧ (s.lobby l).type ≠ .default then s.numGames - 1 else s.numGames) ∧
    (if b then lobbyDestroyLocked s l true else s).freed = if b then l :: s.freed else s.freed := by
  cases b with
  | false => exact ⟨rfl, by simp, rfl⟩
  | true => simp only [if_true, lobbyDestroyLocked, true_and]

theorem finishChange_eq (s : Block) (c : ClientRef) (l : LobbyRef) (b : Bool) :
    finishChange s c l b = if b then lobbyDestroyLocked (finishChange s c l false) l true
      else finishChange s c l false := by
  cases b <;> rfl

/-- The end of `lobby_change_lobby` moves nothing. -/
theorem still_finishChange (s : Block) (c : ClientRef) (l : LobbyRef) (b : Bool) :
    Still s (finishChange s c l b) c := by
  have hmain : Still s (finishChange s c l false) c := by
    simp only [finishChange, Bool.false_eq_true, if_false]
    split
    · exact Still.refl s c
    · split
      · exact still_modifyClient s c _ fun _ => ⟨rfl, rfl, rfl, rfl⟩
      · exact still_setBursting s c _ true
  rw [finishChange_eq]
  exact hmain.trans (still_destroy _ c l b)

/-- The lists after the end of `lobby_change_lobby`. -/
theorem lists_finishChange (s : Block) (c : ClientRef) (l : LobbyRef) (b : Bool) :
    (finishChange s c l b).lobbies = (if b then s.lobbies.erase l else s.lobbies) ∧
    (finishChange s c l b).numGames =
      (if b ∧ (s.lobby l).type ≠ .default then s.numGames - 1 else s.numGames) ∧
    (finishChange s c l b).freed = if b then l :: s.freed else s.freed := by
  have hmain : (finishChange s c l false).lobbies = s.lobbies ∧
      (finishChange s c l false).numGames = s.numGames ∧
      (finishChange s c l false).freed = s.freed := by
    simp only [finishChange, Bool.false_eq_true, if_false]
    split
    · exact ⟨rfl, rfl, rfl⟩
    · split <;> exact ⟨rfl, rfl, rfl⟩
  have htype : ((finishChange s c l false).lobby l).type = (s.lobby l).type :=
    Lobby.eq_of_core Lobby.type (fun _ => rfl) ((still_finishChange s c l false).core l)
  have hlists := lists_destroy (finishChange s c l false) l b
  rwa [← finishChange_eq, htype, hmain.1, hmain.2.1, hmain.2.2] at hlists
end Still

/-! ## Joining -/

section Joining

variable {env : Env} {now : Nat} {s s' : Block} {c : ClientRef} {l m : LobbyRef} {clev i : Nat}

theorem lobby_takeSlot_self :
    (takeSlot now s c l clev i).lobby l = fillSlot (s.lobby l) c clev i :=
  lobby_modifyLobby_self s l fun x => fillSlot x c clev i

theorem lobby_takeSlot_of_ne (h : m ≠ l) : (takeSlot now s c l clev i).lobby m = s.lobby m :=
  lobby_modifyLobby_of_ne s (fun x => fillSlot x c clev i) h

theorem client_takeSlot_self :
    (takeSlot now s c l clev i).client c =
      { s.client c with curLobby := some l, clientId := i, arrow := 0, joinTime := now } :=
  client_modifyClient_self _ c _

theorem client_takeSlot_of_ne {d : ClientRef} (h : d ≠ c) :
    (takeSlot now s c l clev i).client d = s.client d :=
  client_modifyClient_of_ne _ _ h

/-- Where there is room, there is a slot. -/
theorem Lobby.Counted.exists_slotFor {x : Lobby} (h : x.Counted)
    (hroom : x.numClients < x.maxClients) : ∃ i, slotFor x = some i := by
  rw [slotFor]
  split_ifs
  · exact ⟨1, rfl⟩
  · exact Slots.exists_firstFree (h.count ▸ hroom)

/-- A client that is added takes the slot for it. -/
theorem lobbyAddClientLocked_eq_some (h : lobbyAddClientLocked now s c l = some s') :
    (s.lobby l).roomFor (s.client c) ∧
      ∃ clev i, slotFor (s.lobby l) = some i ∧ s' = takeSlot now s c l clev i := by
  rw [lobbyAddClientLocked] at h
  split at h
  · cases h
  · rename_i hroom
    split at h
    · cases h
    · rename_i clev hclev
      split at h
      · cases h
      · rename_i i hslot
        cases h
        refine ⟨⟨by omega, fun hchal => ?_⟩, clev, i, hslot, rfl⟩
        rw [if_pos hchal, Option.map_eq_some_iff] at hclev
        obtain ⟨i, hi, -⟩ := hclev
        rw [hi]
        rfl

/-- A client that is not added finds no room. -/
theorem not_roomFor_of_eq_none (hcounted : (s.lobby l).Counted)
    (h : lobbyAddClientLocked now s c l = none) : ¬(s.lobby l).roomFor (s.client c) := by
  rintro ⟨hroom, hstages⟩
  obtain ⟨i, hi⟩ := hcounted.exists_slotFor hroom
  rw [lobbyAddClientLocked, if_neg (by omega), hi] at h
  split at h
  · rename_i hclev
    split_ifs at hclev with hchal
    rw [Option.map_eq_none_iff] at hclev
    have hsome := hstages hchal
    rw [hclev] at hsome
    cases hsome
  · cases h

/-- What `lobby_add_to_any` does when it adds the client. -/
def Added (now : Nat) (s s' : Block) (c : ClientRef) (l : LobbyRef) : Prop :=
  (s.lobby l).type = .default ∧
    ∃ clev i n, slotFor (s.lobby l) = some i ∧
      (s.lobby l).numClients < (s.lobby l).maxClients ∧
      s' = (takeSlot now s c l clev i).modifyClient c fun y => { y with lobbyId := n }

theorem added_addAndNote (htype : (s.lobby l).type = .default)
    (h : addAndNote now s c l = some s') : Added now s s' c l := by
  rw [addAndNote, Option.map_eq_some_iff] at h
  obtain ⟨t, ht, rfl⟩ := h
  obtain ⟨hroom, clev, i, hslot, rfl⟩ := lobbyAddClientLocked_eq_some ht
  exact ⟨htype, clev, i, _, hslot, hroom.1, rfl⟩

theorem added_addToFirst {ls : List LobbyRef} (h : addToFirst now s c ls = some s') :
    ∃ l ∈ ls, Added now s s' c l := by
  induction ls with
  | nil => cases h
  | cons l ls ih =>
      have htail (h : addToFirst now s c ls = some s') : ∃ m ∈ l :: ls, Added now s s' c m := by
        obtain ⟨m, hm, hadded⟩ := ih h
        exact ⟨m, List.mem_cons_of_mem _ hm, hadded⟩
      rw [addToFirst] at h
      split_ifs at h with hhidden havail
      · exact htail h
      · cases hadd : addAndNote now s c l with
        | none =>
            rw [hadd] at h
            exact htail h
        | some t =>
            rw [hadd] at h
            cases h
            exact ⟨l, List.mem_cons_self .., added_addAndNote havail.1 hadd⟩
      · exact htail h

/-- `lobby_add_to_any` adds the client to a default lobby of the list, if at all. -/
theorem added_lobbyAddToAny {req : Option LobbyRef} (hreq : ∀ l ∈ req, l ∈ s.lobbies)
    (h : lobbyAddToAny env s c req = some s') : ∃ l ∈ s.lobbies, Added env.now s s' c l := by
  simp only [lobbyAddToAny] at h
  cases req with
  | none => exact added_addToFirst h
  | some req =>
      dsimp only at h
      split at h
      · rename_i t hasked
        cases h
        split_ifs at hasked with havail
        exact ⟨req, hreq req rfl, added_addAndNote havail.1 hasked⟩
      · exact added_addToFirst h

/-- The loop of `lobby_add_to_any` adds the client where it is let in. -/
theorem exists_openTo_of_addToFirst {ls : List LobbyRef} (h : addToFirst now s c ls = some s') :
    ∃ l ∈ ls, (s.lobby l).openTo (s.client c) := by
  induction ls with
  | nil => cases h
  | cons l ls ih =>
      have htail (h : addToFirst now s c ls = some s') :
          ∃ m ∈ l :: ls, (s.lobby m).openTo (s.client c) := by
        obtain ⟨m, hm, hopen⟩ := ih h
        exact ⟨m, List.mem_cons_of_mem _ hm, hopen⟩
      rw [addToFirst] at h
      split_ifs at h with hhidden havail
      · exact htail h
      · cases hadd : addAndNote now s c l with
        | none =>
            rw [hadd] at h
            exact htail h
        | some t =>
            rw [addAndNote, Option.map_eq_some_iff] at hadd
            obtain ⟨u, hu, -⟩ := hadd
            exact ⟨l, List.mem_cons_self .., hhidden, havail.1,
              (lobbyAddClientLocked_eq_some hu).1⟩
      · exact htail h

/-- A client in no lobby that is added to one. -/
theorem Added.transfer (h : Added env.now s s' c l) (hcur : (s.client c).curLobby = none)
    (hlist : l ∈ s.lobbies) : Transfer env s s' c none (some l) := by
  obtain ⟨-, clev, i, n, hslot, hroom, rfl⟩ := h
  have hclient : ((takeSlot env.now s c l clev i).modifyClient c
      fun y => { y with lobbyId := n }).client c =
      { s.client c with
        curLobby := some l, clientId := i, arrow := 0, joinTime := env.now, lobbyId := n } := by
    rw [client_modifyClient_self, client_takeSlot_self]
  refine
    { before := hcur
      after := by rw [hclient]
      others := fun d hd => (client_modifyClient_of_ne _ _ hd).trans (client_takeSlot_of_ne hd)
      createLobby := by rw [hclient]
      stayed := fun h => nomatch h
      kept := fun m hm => ?_
      joined := fun m _ hnew => ?_
      left := fun m hold _ => nomatch hold
      cleared := .inl ⟨fun _ hempty => (nomatch hempty.1), rfl, rfl, rfl⟩
      fresh := rfl
      clients := rfl }
  · have hne : m ≠ l := by
      rintro rfl
      exact nomatch hm.mpr rfl
    show ((takeSlot env.now s c l clev i).lobby m).core = _
    rw [lobby_takeSlot_of_ne hne]
  · cases hnew
    rw [hclient]
    refine ⟨hlist, rfl, hslot, hroom, clev, ?_⟩
    show ((takeSlot env.now s c l clev i).lobby l).core = _
    rw [lobby_takeSlot_self]

end Joining

/-! ## Leaving -/

section Leaving

variable {env : Env} {now : Nat} {s s' : Block} {c : ClientRef} {l m req : LobbyRef}

theorem lobby_leaveSlot_self {i : Nat} :
    (leaveSlot now s c i l).lobby l = dropSlot now s (s.lobby l) i :=
  lobby_modifyLobby_self s l fun x => dropSlot now s x i

theorem lobby_leaveSlot_of_ne {i : Nat} (h : m ≠ l) :
    (leaveSlot now s c i l).lobby m = s.lobby m :=
  lobby_modifyLobby_of_ne s (fun x => dropSlot now s x i) h

theorem client_leaveSlot_of_ne {i : Nat} {d : ClientRef} (h : d ≠ c) :
    (leaveSlot now s c i l).client d = s.client d :=
  client_modifyClient_of_ne _ _ h

theorem client_leaveSlot_self {i : Nat} :
    (leaveSlot now s c i l).client c =
      if (s.client c).curLobby = some l then { s.client c with curLobby := none, clientId := 0 }
      else s.client c :=
  client_modifyClient_self _ c _

/-- A client is removed from the slot that it is in. -/
theorem lobbyRemoveClientLocked_of_clients {i : Nat} (h : (s.lobby l).clients i = some c) :
    lobbyRemoveClientLocked now s c i l = some (leaveSlot now s c i l,
      decide ((s.lobby l).type ≠ .default ∧ (s.lobby l).numClients - 1 = 0)) := by
  unfold lobbyRemoveClientLocked
  rw [if_neg (not_not.mpr h)]
  simp only [lobby_leaveSlot_self, dropSlot_type, dropSlot_numClients]

/-- What becomes of the lists when a game is destroyed as soon as it is empty. -/
theorem cleared_of_lists {old new : Option LobbyRef} (hold : old = some l) (hnew : new ≠ some l)
    (hnum : (s'.lobby l).numClients = (s.lobby l).numClients - 1) {b : Bool}
    (hb : b = decide ((s.lobby l).type ≠ .default ∧ (s.lobby l).numClients - 1 = 0))
    (hlists : s'.lobbies = (if b then s.lobbies.erase l else s.lobbies) ∧
      s'.numGames = (if b ∧ (s.lobby l).type ≠ .default then s.numGames - 1 else s.numGames) ∧
      s'.freed = if b then l :: s.freed else s.freed) :
    Cleared s s' old new := by
  obtain ⟨hlobbies, hgames, hfreed⟩ := hlists
  cases b with
  | false =>
      refine .inl ⟨fun m hempty => ?_, hlobbies, by simpa using hgames, hfreed⟩
      obtain ⟨hm, -, htype, hzero⟩ := hempty
      obtain rfl : l = m := Option.some.inj (hold.symm.trans hm)
      exact of_decide_eq_false hb.symm ⟨htype, by rw [← hnum, hzero]⟩
  | true =>
      obtain ⟨htype, hzero⟩ := of_decide_eq_true hb.symm
      refine .inr ⟨l, ⟨hold, hnew, htype, hnum.trans hzero⟩, hlobbies, ?_, hfreed⟩
      rwa [if_pos ⟨rfl, htype⟩] at hgames

/-- The other clients of a lobby are not the one in a slot. -/
theorem Seated.ne_of_clients (h : Seated s) (hcur : (s.client c).curLobby = some l) {j : Nat}
    {d : ClientRef} (hd : (s.lobby l).clients j = some d) (hj : j ≠ (s.client c).clientId) :
    d ≠ c := by
  rintro rfl
  exact hj (h.clients_iff.mp hd).2.symm

/-- What `lobby_remove_player` clears first in the lobby of a client that is bursting. -/
theorem clearBursting_spec (s : Block) (l : LobbyRef) (p : Prop) [Decidable p] :
    (if p then clearBursting s l else s).client = s.client ∧
    ((if p then clearBursting s l else s).lobby l = s.lobby l ∨
      (if p then clearBursting s l else s).lobby l = (s.lobby l).setBursting false) ∧
    (∀ m, m ≠ l → (if p then clearBursting s l else s).lobby m = s.lobby m) ∧
    (if p then clearBursting s l else s).lobbies = s.lobbies ∧
    (if p then clearBursting s l else s).numGames = s.numGames ∧
    (if p then clearBursting s l else s).freed = s.freed ∧
    (if p then clearBursting s l else s).fresh = s.fresh ∧
    (if p then clearBursting s l else s).clients = s.clients := by
  split_ifs
  · exact ⟨rfl, .inr (lobby_modifyLobby_self s l fun x => x.setBursting false),
      fun m hm => lobby_modifyLobby_of_ne s (fun x => x.setBursting false) hm, rfl, rfl, rfl, rfl,
      rfl⟩
  · exact ⟨rfl, .inl rfl, fun _ _ => rfl, rfl, rfl, rfl, rfl, rfl⟩

/-- The client gives up its slot, and its lobby is destroyed if it should be. -/
theorem removed_transfer (env : Env) {t : Block} (hcur : (s.client c).curLobby = some l)
    (hclient : t.client = s.client)
    (hself : t.lobby l = s.lobby l ∨ t.lobby l = (s.lobby l).setBursting false)
    (hrest : ∀ m, m ≠ l → t.lobby m = s.lobby m) (hlobbies : t.lobbies = s.lobbies)
    (hgames : t.numGames = s.numGames) (hfreed : t.freed = s.freed) (hfresh : t.fresh = s.fresh)
    (hclients : t.clients = s.clients) {b : Bool}
    (hb : b = decide ((s.lobby l).type ≠ .default ∧ (s.lobby l).numClients - 1 = 0)) :
    Transfer env s
      ((if b then lobbyDestroyLocked (leaveSlot env.later t c (s.client c).clientId l) l true
        else leaveSlot env.later t c (s.client c).clientId l).modifyClient c fun y =>
          { y with curLobby := none }) c (some l) none := by
  obtain ⟨u, hu⟩ : ∃ u, u = leaveSlot env.later t c (s.client c).clientId l := ⟨_, rfl⟩
  rw [← hu]
  have hold : (u.lobby l).core =
      (dropSlot env.later s (s.lobby l) (s.client c).clientId).core := by
    have hcongr (x : Lobby) : dropSlot env.later t x (s.client c).clientId =
        dropSlot env.later s x (s.client c).clientId :=
      dropSlot_congr fun _ _ _ _ => by rw [hclient]
    rw [hu, lobby_leaveSlot_self, hcongr]
    obtain hself | hself := hself
    · rw [hself]
    · rw [hself, core_dropSlot_setBursting]
  have hlists := lists_destroy u l b
  have hstill := still_destroy u c l b
  have hmemory : (if b then lobbyDestroyLocked u l true else u).lobby = u.lobby ∧
      (if b then lobbyDestroyLocked u l true else u).client = u.client := by
    cases b <;> exact ⟨rfl, rfl⟩
  generalize (if b then lobbyDestroyLocked u l true else u) = v at hlists hstill hmemory ⊢
  obtain ⟨hvlobby, hvclient⟩ := hmemory
  refine
    { before := hcur
      after := by rw [client_modifyClient_self]
      others := fun d hd => ?_
      createLobby := ?_
      stayed := fun heq => (nomatch heq)
      kept := fun m hm => ?_
      joined := fun m _ hm => (nomatch hm)
      left := fun m hm _ => ?_
      cleared := ?_
      fresh := hstill.fresh.trans (by rw [hu]; exact hfresh)
      clients := hstill.clients.trans (by rw [hu]; exact hclients) }
  · rw [client_modifyClient_of_ne _ _ hd, hvclient, hu, client_leaveSlot_of_ne hd, hclient]
  · rw [client_modifyClient_self, hvclient, hu, client_leaveSlot_self, hclient]
    split_ifs
    rfl
  · have hml : m ≠ l := by
      rintro rfl
      exact nomatch hm.mp rfl
    change (v.lobby m).core = _
    rw [hvlobby, hu, lobby_leaveSlot_of_ne hml, hrest m hml]
  · cases hm
    change (v.lobby l).core = _
    rw [hvlobby, hold]
  · have hnum : (v.lobby l).numClients = (s.lobby l).numClients - 1 := by
      rw [hvlobby, Lobby.eq_of_core Lobby.numClients (fun _ => rfl) hold, dropSlot_numClients]
    have hulists : u.lobbies = s.lobbies ∧ u.numGames = s.numGames ∧ u.freed = s.freed := by
      rw [hu]
      exact ⟨hlobbies, hgames, hfreed⟩
    have hutype : (u.lobby l).type = (s.lobby l).type := by
      rw [Lobby.eq_of_core Lobby.type (fun _ => rfl) hold, dropSlot_type]
    rw [hulists.1, hulists.2.1, hulists.2.2, hutype] at hlists
    exact cleared_of_lists rfl (fun heq => (nomatch heq)) hnum hb hlists

/-- `lobby_remove_player` gives up the slot of the client. -/
theorem lobbyRemovePlayer_transfer (h : Seated s) :
    Transfer env s (lobbyRemovePlayer env s c).1 c (s.client c).curLobby none := by
  cases hcur : (s.client c).curLobby with
  | none =>
      have hsame : (lobbyRemovePlayer env s c).1 = s := by
        rw [lobbyRemovePlayer, hcur]
      rw [hsame, ← hcur]
      exact (Still.refl s c).transfer rfl rfl rfl
  | some l =>
      obtain ⟨t, ht⟩ : ∃ t, t = if (s.client c).flags.bursting then clearBursting s l else s :=
        ⟨_, rfl⟩
      have hspec := clearBursting_spec s l (s.client c).flags.bursting
      rw [← ht] at hspec
      obtain ⟨hclient, hself, hrest, hlobbies, hgames, hfreed, hfresh, hclients⟩ := hspec
      have hfields : (t.lobby l).clients = (s.lobby l).clients ∧
          (t.lobby l).type = (s.lobby l).type ∧
          (t.lobby l).numClients = (s.lobby l).numClients := by
        obtain hself | hself := hself <;> rw [hself] <;> exact ⟨rfl, rfl, rfl⟩
      have hremove : lobbyRemoveClientLocked env.later t c (s.client c).clientId l = _ :=
        lobbyRemoveClientLocked_of_clients
          (by rw [hfields.1]; exact h.clients_clientId hcur)
      rw [hfields.2.1, hfields.2.2] at hremove
      have htransfer := removed_transfer env hcur hclient hself hrest hlobbies hgames
        hfreed hfresh hclients rfl
      simp only [lobbyRemovePlayer, hcur, ← ht, hclient, hremove]
      exact htransfer
/-- `lobby_change_lobby` for a client that takes a slot in another lobby. -/
theorem moved_transfer {clev i : Nat} (h : Seated s) (hcur : (s.client c).curLobby = some l)
    (hne : l ≠ req) (hlist : req ∈ s.lobbies) (hslot : slotFor (s.lobby req) = some i)
    (hroom : (s.lobby req).numClients < (s.lobby req).maxClients) {b : Bool}
    (hb : b = decide ((s.lobby l).type ≠ .default ∧ (s.lobby l).numClients - 1 = 0)) :
    Transfer env s
      (finishChange
        (leaveSlot env.later (takeSlot env.now s c req clev i) c (s.client c).clientId l) c l b)
      c (some l) (some req) := by
  -- the states after taking the new slot, and after giving up the old one
  obtain ⟨t, ht⟩ : ∃ t, t = takeSlot env.now s c req clev i := ⟨_, rfl⟩
  obtain ⟨u, hu⟩ : ∃ u, u = leaveSlot env.later t c (s.client c).clientId l := ⟨_, rfl⟩
  have htclient : t.client c =
      { s.client c with curLobby := some req, clientId := i, arrow := 0, joinTime := env.now } := by
    rw [ht, client_takeSlot_self]
  have htothers : ∀ d, d ≠ c → t.client d = s.client d := fun d hd => by
    rw [ht, client_takeSlot_of_ne hd]
  have huclient : u.client c = t.client c := by
    rw [hu, client_leaveSlot_self, htclient]
    exact if_neg fun heq => hne (Option.some.inj heq).symm
  have huothers : ∀ d, d ≠ c → u.client d = s.client d := fun d hd => by
    rw [hu, client_leaveSlot_of_ne hd, htothers d hd]
  have hold : u.lobby l = dropSlot env.later s (s.lobby l) (s.client c).clientId := by
    have hsame : t.lobby l = s.lobby l := by
      rw [ht, lobby_takeSlot_of_ne hne]
    rw [hu, lobby_leaveSlot_self, hsame]
    exact dropSlot_congr fun j d hd hj => by
      rw [htothers d (h.ne_of_clients hcur hd hj)]
  have hnew : u.lobby req = fillSlot (s.lobby req) c clev i := by
    rw [hu, lobby_leaveSlot_of_ne hne.symm, ht, lobby_takeSlot_self]
  have hrest : ∀ m, m ≠ l → m ≠ req → u.lobby m = s.lobby m := fun m hml hmr => by
    rw [hu, lobby_leaveSlot_of_ne hml, ht, lobby_takeSlot_of_ne hmr]
  have hstill := still_finishChange u c l b
  rw [← ht, ← hu]
  refine
    { before := hcur
      after := by rw [hstill.curLobby, huclient, htclient]
      others := fun d hd => (hstill.others d hd).trans (huothers d hd)
      createLobby := by rw [hstill.createLobby, huclient, htclient]
      stayed := fun heq => absurd (Option.some.inj heq) hne
      kept := fun m hm => ?_
      joined := fun m _ hm => ?_
      left := fun m hm _ => ?_
      cleared := ?_
      fresh := by rw [hstill.fresh, hu, ht]; rfl
      clients := by rw [hstill.clients, hu, ht]; rfl }
  · have hml : m ≠ l := by
      rintro rfl
      exact hne (Option.some.inj (hm.mp rfl)).symm
    have hmr : m ≠ req := by
      rintro rfl
      exact hne (Option.some.inj (hm.mpr rfl))
    rw [hstill.core, hrest m hml hmr]
  · cases hm
    rw [hstill.clientId, hstill.joinTime, huclient, htclient]
    exact ⟨hlist, rfl, hslot, hroom, clev, by rw [hstill.core, hnew]⟩
  · cases hm
    rw [hstill.core, hold]
  · have hnum : ((finishChange u c l b).lobby l).numClients = (s.lobby l).numClients - 1 := by
      rw [Lobby.eq_of_core Lobby.numClients (fun _ => rfl) (hstill.core l), hold,
        dropSlot_numClients]
    have hlists := lists_finishChange u c l b
    rw [hold, dropSlot_type] at hlists
    have hulists : u.lobbies = s.lobbies ∧ u.numGames = s.numGames ∧ u.freed = s.freed := by
      rw [hu, ht]
      exact ⟨rfl, rfl, rfl⟩
    rw [hulists.1, hulists.2.1, hulists.2.2] at hlists
    exact cleared_of_lists rfl (fun heq => hne (Option.some.inj heq).symm) hnum hb hlists

/-- A check with a negative return value. -/
theorem neg_of_check {P : Prop} [Decidable P] {a rv : Int} {rest : Option Int} (ha : a < 0)
    (hrest : rest = some rv → rv < 0) (h : (if P then some a else rest) = some rv) : rv < 0 := by
  split at h
  · cases h
    exact ha
  · exact hrest h

/-- Policy errors are negative. -/
theorem policyError_neg {legit override : Bool} {y : Client} {x : Lobby} {rv : Int} :
    policyError legit override y x = some rv → rv < 0 := by
  unfold policyError
  dsimp only
  iterate 13 refine neg_of_check (by decide) ?_
  exact fun h => (nomatch h)

/-- `lobby_change_lobby` for a client that is in a lobby refuses the client, or stays in
the lobby, or moves it to another. -/
theorem moveToLobby_cases (env : Env) (override : Bool) (h : Seated s)
    (hcur : (s.client c).curLobby = some l) (hlist : req ∈ s.lobbies) :
    (¬(l ≠ req ∧ (s.lobby req).admits env.legit override (s.client c)) ∧
      ∃ rv, rv ≠ 0 ∧ moveToLobby env override s c l req = (s, rv)) ∨
    (l = req ∧ policyError env.legit override (s.client c) (s.lobby req) = none ∧
      moveToLobby env override s c l req = (finishChange s c l false, 0)) ∨
    (l ≠ req ∧ (s.lobby req).admits env.legit override (s.client c)) ∧
      ∃ clev i b s', s' = finishChange (leaveSlot env.later (takeSlot env.now s c req clev i) c
          (s.client c).clientId l) c l b ∧
        moveToLobby env override s c l req = (s', 0) ∧
        Transfer env s s' c (some l) (some req) := by
  rw [moveToLobby]
  split
  · rename_i rv hpolicy
    refine .inl ⟨fun hadmits => ?_, rv, Int.ne_of_lt (policyError_neg hpolicy), rfl⟩
    rw [hadmits.2.1] at hpolicy
    cases hpolicy
  · rename_i hpolicy
    split
    · rename_i heq
      exact .inr (.inl ⟨heq, hpolicy, rfl⟩)
    · rename_i hne
      split
      · rename_i hadd
        exact .inl ⟨fun hadmits => not_roomFor_of_eq_none (h.counted req) hadd hadmits.2.2,
          -1, by decide, rfl⟩
      · rename_i t hadd
        obtain ⟨hroom, clev, i, hslot, rfl⟩ := lobbyAddClientLocked_eq_some hadd
        have hremove : ((takeSlot env.now s c req clev i).lobby l).clients
            (s.client c).clientId = some c := by
          rw [lobby_takeSlot_of_ne hne]
          exact h.clients_clientId hcur
        rw [lobbyRemoveClientLocked_of_clients hremove]
        exact .inr (.inr ⟨⟨hne, hpolicy, hroom⟩, clev, i, _, _, rfl, rfl,
          moved_transfer h hcur hne hlist hslot hroom.1 (by rw [lobby_takeSlot_of_ne hne])⟩)

end Leaving

end Sylverant.Ship
