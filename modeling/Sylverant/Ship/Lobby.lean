/-
# Joining and leaving lobbies

The functions of `lobby.c` that put clients into lobbies and take them out again,
with the election of a leader, and the end of a burst. Handling the packets that
were queued during a burst changes nothing of the state here.
-/

import Mathlib.Algebra.Group.Nat.Defs
import Sylverant.Library.Slots
import Sylverant.Ship.Block

namespace Sylverant.Ship

open Function (update)
open Scan (scan)
open Slots (firstFree)

/-! ## Adding a client -/

/-- The number of challenge stages before the first that is not completed, for the
versions that have the mode. -/
def Client.stages (c : Client) : Option Nat :=
  match c.version with
  | .dcv2 | .pc | .gc => some (((List.range 9).find? fun i => c.times i = 0).getD 9)
  | _ => none

/-- The lobby after a client has taken the slot `i`. -/
def fillSlot (x : Lobby) (c : ClientRef) (clev i : Nat) : Lobby :=
  { x with
    clients := update x.clients i (some c)
    numClients := x.numClients + 1
    maxChal := if x.challenge ≠ 0 ∧ x.maxChal > clev then clev else x.maxChal
    leaderId := if x.numClients + 1 = 1 then i else x.leaderId }

/-- The assignments for a client that takes the slot `i`. -/
def takeSlot (now : Nat) (s : Block) (c : ClientRef) (l : LobbyRef) (clev i : Nat) : Block :=
  (s.modifyLobby l fun x => fillSlot x c clev i).modifyClient c fun y =>
    { y with curLobby := some l, clientId := i, arrow := 0, joinTime := now }

/-- The slot for a new client: slot 1 in games for Dreamcast or PC, if it is free,
and otherwise the first that is free. -/
def slotFor (x : Lobby) : Option Nat :=
  if x.clients 1 = none ∧ x.version.code < Version.gc.code ∧ x.type = .game then some 1
  else firstFree x.maxClients x.clients

/-- `lobby_add_client_locked`. Nothing is returned when it fails. -/
def lobbyAddClientLocked (now : Nat) (s : Block) (c : ClientRef) (l : LobbyRef) : Option Block :=
  let x := s.lobby l
  if x.numClients ≥ x.maxClients then none
  else
    match (if x.challenge ≠ 0 then (s.client c).stages.map (· + 1) else some x.maxChal) with
    | none => none
    | some clev =>
        match slotFor x with
        | none => none
        | some i => some (takeSlot now s c l clev i)

/-! ## Removing a client -/

/-- `lobby_find_max_challenge`, in 8 bits. -/
def lobbyFindMaxChallenge (s : Block) (x : Lobby) : Nat :=
  if x.challenge = 0 then 0
  else
    let minLev := (List.range x.maxClients).foldlM
      (fun minLev j =>
        match x.clients j with
        | none => some minLev
        | some c => (s.client c).stages.map fun i => if i < minLev then i else minLev) 255
    match minLev with
    | none => 255
    | some minLev => (minLev + 1) % 256

/-- When the client in a slot joined, if it may become the leader. -/
def electKey (s : Block) (x : Lobby) (eligible : Client → Bool) (i : Nat) : Option Nat :=
  if i = x.leaderId then none
  else
    match x.clients i with
    | none => none
    | some c => if eligible (s.client c) then some (s.client c).joinTime else none

/-- A client on Dreamcast or PC. -/
def Client.preGc (c : Client) : Bool := c.version.code < Version.gc.code

/-- `lobby_elect_leader_cross_locked`: the lobby afterwards, and the slot of the new
leader if there is one. -/
def lobbyElectLeaderCrossLocked (now : Nat) (s : Block) (x : Lobby) : Lobby × Option Nat :=
  let earliest := scan (electKey s x Client.preGc) x.maxClients (none, now)
  if earliest.1 = none then
    ({ x with flags := { x.flags with gcAllowed := false }, version := .gc, episode := 1 },
      (scan (electKey s x fun _ => true) x.maxClients earliest).1)
  else (x, earliest.1)

/-- `lobby_elect_leader_locked`. -/
def lobbyElectLeaderLocked (now : Nat) (s : Block) (x : Lobby) : Option Nat :=
  (scan (electKey s x fun _ => true) x.maxClients (none, now)).1

/-- Whether the leader is elected as for a cross-platform game. -/
def Lobby.cross (x : Lobby) : Prop := x.version.code < Version.gc.code ∧ x.flags.gcAllowed

instance (x : Lobby) : Decidable x.cross :=
  inferInstanceAs (Decidable (_ ∧ _))

/-- The lobby with a new leader, or with leader 0 if none was elected. -/
def replaceLeader (now : Nat) (s : Block) (x : Lobby) : Lobby :=
  let result :=
    if x.cross then lobbyElectLeaderCrossLocked now s x
    else (x, lobbyElectLeaderLocked now s x)
  { result.1 with leaderId := result.2.getD 0 }

/-- The lobby after the client in the slot `clientId` was removed. The leader is
replaced while the client is still in its slot. -/
def dropSlot (now : Nat) (s : Block) (x : Lobby) (clientId : Nat) : Lobby :=
  let x := if clientId = x.leaderId then replaceLeader now s x else x
  let x := { x with clients := update x.clients clientId none, numClients := x.numClients - 1 }
  { x with maxChal := if x.challenge ≠ 0 then lobbyFindMaxChallenge s x else x.maxChal }

/-- The assignments for a client that gives up a slot. -/
def leaveSlot (now : Nat) (s : Block) (c : ClientRef) (clientId : Nat) (l : LobbyRef) : Block :=
  (s.modifyLobby l fun x => dropSlot now s x clientId).modifyClient c fun y =>
    if y.curLobby = some l then { y with curLobby := none, clientId := 0 } else y

/-- `lobby_remove_client_locked`, with whether the lobby should be removed. Nothing
is returned when the client was not where it said it was. -/
def lobbyRemoveClientLocked (now : Nat) (s : Block) (c : ClientRef) (clientId : Nat)
    (l : LobbyRef) : Option (Block × Bool) :=
  if (s.lobby l).clients clientId ≠ some c then none
  else
    let s := leaveSlot now s c clientId l
    some (s, (s.lobby l).type ≠ .default ∧ (s.lobby l).numClients = 0)

/-- `lobby_destroy_locked`. Removing a lobby that is in no list is undefined in the
source, and leaves the list as it is here. -/
def lobbyDestroyLocked (s : Block) (l : LobbyRef) (remove : Bool) : Block :=
  let s :=
    if remove then
      { s with
        lobbies := s.lobbies.erase l
        numGames := if (s.lobby l).type ≠ .default then s.numGames - 1 else s.numGames }
    else s
  { s with freed := l :: s.freed }

/-! ## Changing lobbies -/

/-- Whether `lobby_add_to_any` may add a client to the lobby. -/
def Lobby.available (x : Lobby) : Prop := x.type = .default ∧ x.numClients < x.maxClients

instance (x : Lobby) : Decidable x.available :=
  inferInstanceAs (Decidable (_ ∧ _))

/-- Add a client to a lobby, and note that it is in there. -/
def addAndNote (now : Nat) (s : Block) (c : ClientRef) (l : LobbyRef) : Option Block :=
  (lobbyAddClientLocked now s c l).map fun s =>
    s.modifyClient c fun y => { y with lobbyId := (s.lobby l).lobbyId }

/-- The loop of `lobby_add_to_any`. -/
def addToFirst (now : Nat) (s : Block) (c : ClientRef) : List LobbyRef → Option Block
  | [] => none
  | l :: ls =>
      if (s.client c).version = .dcv1 ∧ (s.lobby l).lobbyId > 10 then addToFirst now s c ls
      else if (s.lobby l).available then
        match addAndNote now s c l with
        | some s => some s
        | none => addToFirst now s c ls
      else addToFirst now s c ls

/-- `lobby_add_to_any`. Nothing is returned when the client could not be added. -/
def lobbyAddToAny (env : Env) (s : Block) (c : ClientRef) (req : Option LobbyRef) :
    Option Block :=
  let asked :=
    match req with
    | none => none
    | some req => if (s.lobby req).available then addAndNote env.now s c req else none
  match asked with
  | some s => some s
  | none => addToFirst env.now s c s.lobbies

/-- The reasons for which `lobby_change_lobby` refuses a client, by its return value. -/
def policyError (legit override : Bool) (c : Client) (req : Lobby) : Option Int :=
  let level := (c.level + 1) % 2 ^ 32
  if req.type = .game ∧ req.version = .dcv1 ∧ c.chClass > 8 then some (-15)
  else if req.flags.singleplayer ∧ req.numClients ≠ 0 then some (-14)
  else if req.flags.pconly ∧ c.version ≠ .pc ∧ !override then some (-13)
  else if req.flags.v1only ∧ c.version ≠ .dcv1 ∧ !override then some (-12)
  else if req.flags.dconly ∧ c.version ≠ .dcv1 ∧ c.version ≠ .dcv2 ∧ !override then some (-11)
  else if req.flags.tempUnavail then some (-10)
  else if req.flags.bursting then some (-3)
  else if req.flags.questing then some (-7)
  else if req.flags.questsel then some (-8)
  else if req.minLevel > level ∧ !override then some (-4)
  else if req.maxLevel < level ∧ !override then some (-5)
  else if c.version = .dcv1 ∧ req.v2 ≠ 0 then some (-6)
  else if req.type = .game ∧ req.flags.legitMode ∧ !legit ∧ !override then some (-9)
  else none

/-- Set or clear the bursting flag of a lobby. -/
def Lobby.setBursting (x : Lobby) (b : Bool) : Lobby :=
  { x with flags := { x.flags with bursting := b } }

/-- Set or clear the bursting flag of a client. -/
def Client.setBursting (y : Client) (b : Bool) : Client :=
  { y with flags := { y.flags with bursting := b } }

/-- The end of `lobby_change_lobby` for a client that is in its new lobby. -/
def finishChange (s : Block) (c : ClientRef) (l : LobbyRef) (deleteLobby : Bool) : Block :=
  let s :=
    match (s.client c).curLobby with
    | none => s
    | some cur =>
        if (s.lobby cur).type = .default then
          s.modifyClient c fun y => { y with lobbyId := (s.lobby cur).lobbyId }
        else
          (s.modifyLobby cur fun x => x.setBursting true).modifyClient c fun y =>
            y.setBursting true
  if deleteLobby then lobbyDestroyLocked s l true else s

/-- Clear the override flag. -/
def clearOverride (s : Block) (c : ClientRef) : Block :=
  s.modifyClient c fun y => { y with flags := { y.flags with overrideGame := false } }

/-- `lobby_change_lobby` for a client that is in no lobby. The field `lobby_id` that
it sets at the end was set already. -/
def enterLobby (env : Env) (s : Block) (c : ClientRef) (req : LobbyRef) : Block × Int :=
  match lobbyAddToAny env s c (some req) with
  | none => (s, -11)
  | some s => (s, if env.sent then 0 else -11)

/-- `lobby_change_lobby` for a client in the lobby `l`. -/
def moveToLobby (env : Env) (override : Bool) (s : Block) (c : ClientRef) (l req : LobbyRef) :
    Block × Int :=
  match policyError env.legit override (s.client c) (s.lobby req) with
  | some rv => (s, rv)
  | none =>
      if l = req then (finishChange s c l false, 0)
      else
        match lobbyAddClientLocked env.now s c req with
        | none => (s, -1)
        | some s' =>
            match lobbyRemoveClientLocked env.later s' c (s.client c).clientId l with
            | none => (s', -2)
            | some (s, deleteLobby) => (finishChange s c l deleteLobby, 0)

/-- `lobby_change_lobby`. -/
def lobbyChangeLobby (env : Env) (s : Block) (c : ClientRef) (req : LobbyRef) : Block × Int :=
  match (s.client c).curLobby with
  | none => enterLobby env (clearOverride s c) c req
  | some l => moveToLobby env (s.client c).flags.overrideGame (clearOverride s c) c l req

/-- Clear the bursting flag of a lobby. -/
def clearBursting (s : Block) (l : LobbyRef) : Block :=
  s.modifyLobby l fun x => x.setBursting false

/-- `lobby_remove_player`. -/
def lobbyRemovePlayer (env : Env) (s : Block) (c : ClientRef) : Block × Int :=
  match (s.client c).curLobby with
  | none => (s, 0)
  | some l =>
      let s := if (s.client c).flags.bursting then clearBursting s l else s
      match lobbyRemoveClientLocked env.later s c (s.client c).clientId l with
      | none => (s, -1)
      | some (s, deleteLobby) =>
          let s := if deleteLobby then lobbyDestroyLocked s l true else s
          (s.modifyClient c fun y => { y with curLobby := none }, 0)

/-- `dc_process_done_burst`. -/
def dcProcessDoneBurst (s : Block) (c : ClientRef) : Block × Int :=
  match (s.client c).curLobby with
  | none => (s, -1)
  | some l =>
      if (s.lobby l).type = .default then (s, -1)
      else
        ((clearBursting s l).modifyClient c fun y => y.setBursting false, 0)

/-! ## Calls -/

/-- A call of one of these functions, or a change that other code makes. -/
inductive Call
  | addToAny (c : ClientRef) (req : Option LobbyRef)
  | changeLobby (c : ClientRef) (req : LobbyRef)
  | removePlayer (c : ClientRef)
  | doneBurst (c : ClientRef)
  /-- Change the flags of a lobby other than the bursting flag. -/
  | setFlags (l : LobbyRef) (flags : LobbyFlags)
  /-- Change a client's flags other than the bursting flag, and its player's data. -/
  | setClient (c : ClientRef) (version : Version) (flags : ClientFlags) (level chClass : Nat)
      (times : Nat → Nat)

/-- Change the flags of a lobby other than the bursting flag. -/
def setFlags (s : Block) (l : LobbyRef) (flags : LobbyFlags) : Block :=
  s.modifyLobby l fun x => { x with flags := { flags with bursting := x.flags.bursting } }

/-- Change a client's flags other than the bursting flag, and its player's data. -/
def setClient (s : Block) (c : ClientRef) (version : Version) (flags : ClientFlags)
    (level chClass : Nat) (times : Nat → Nat) : Block :=
  s.modifyClient c fun y =>
    { y with
      version := version, flags := { flags with bursting := y.flags.bursting }
      level := level, chClass := chClass, times := times }

/-- What a call does and returns. -/
def call (s : Block) (env : Env) : Call → Block × Int
  | .addToAny c req =>
      match lobbyAddToAny env s c req with
      | none => (s, 1)
      | some s => (s, 0)
  | .changeLobby c req => lobbyChangeLobby env s c req
  | .removePlayer c => lobbyRemovePlayer env s c
  | .doneBurst c => dcProcessDoneBurst s c
  | .setFlags l flags => (setFlags s l flags, 0)
  | .setClient c version flags level chClass times =>
      (setClient s c version flags level chClass times, 0)

/-- A call in its environment. -/
abbrev Event := Env × Call

/-- The block after an event. -/
def step (s : Block) (e : Event) : Block := (call s e.1 e.2).1

/-- What the callers check: `lobby_add_to_any` is for clients in no lobby, and the
lobby that is asked for is in the list. -/
def Promised (s : Block) (e : Event) : Prop :=
  match e.2 with
  | .addToAny c req => (s.client c).curLobby = none ∧ ∀ l ∈ req, l ∈ s.lobbies
  | .changeLobby _ req => req ∈ s.lobbies
  | _ => True

instance : (s : Block) → (e : Event) → Decidable (Promised s e)
  | s, (_, .addToAny _ req) => inferInstanceAs (Decidable (_ ∧ ∀ l ∈ req, l ∈ s.lobbies))
  | s, (_, .changeLobby _ req) => inferInstanceAs (Decidable (req ∈ s.lobbies))
  | _, (_, .removePlayer _) => inferInstanceAs (Decidable True)
  | _, (_, .doneBurst _) => inferInstanceAs (Decidable True)
  | _, (_, .setFlags _ _) => inferInstanceAs (Decidable True)
  | _, (_, .setClient _ _ _ _ _ _) => inferInstanceAs (Decidable True)

/-! ## Who leaves -/

/-- Whether `lobby_add_client_locked` has room for a client that is not in the lobby. -/
def Lobby.roomFor (x : Lobby) (y : Client) : Prop :=
  x.numClients < x.maxClients ∧ (x.challenge ≠ 0 → y.stages.isSome)

instance (x : Lobby) (y : Client) : Decidable (x.roomFor y) :=
  inferInstanceAs (Decidable (_ ∧ (_ → _)))

/-- Whether `lobby_add_to_any` puts a client in no lobby there, if it comes to that. -/
def Lobby.openTo (x : Lobby) (y : Client) : Prop :=
  ¬(y.version = .dcv1 ∧ x.lobbyId > 10) ∧ x.type = .default ∧ x.roomFor y

instance (x : Lobby) (y : Client) : Decidable (x.openTo y) :=
  inferInstanceAs (Decidable (¬_ ∧ _ ∧ _))

/-- Whether `lobby_change_lobby` lets a client into another lobby. -/
def Lobby.admits (legit override : Bool) (x : Lobby) (y : Client) : Prop :=
  policyError legit override y x = none ∧ x.roomFor y

instance (legit override : Bool) (x : Lobby) (y : Client) :
    Decidable (x.admits legit override y) :=
  inferInstanceAs (Decidable (_ ∧ _))

/-- The client that a call takes out of its lobby, and the lobby. -/
def leaving (s : Block) (e : Event) : Option (ClientRef × LobbyRef) :=
  match e.2 with
  | .changeLobby c req =>
      match (s.client c).curLobby with
      | none => none
      | some l =>
          if l ≠ req ∧
              (s.lobby req).admits e.1.legit (s.client c).flags.overrideGame (s.client c) then
            some (c, l)
          else none
  | .removePlayer c => (s.client c).curLobby.map fun l => (c, l)
  | _ => none

end Sylverant.Ship
