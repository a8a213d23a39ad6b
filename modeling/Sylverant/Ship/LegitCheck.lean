/-
# The legit check

The leader of a game may ask for a legit check: all members send their character data,
and if the items of all of them are legit, the game is in legit mode from then on. The
lobby counts the replies, and those that passed, and is done when there are as many
replies as members.

The items of a client are legit if each of them passes the limits of the ship, which
are a list that is read from a file. They come with the reply here.
-/

import Sylverant.Ship.Items
import Sylverant.Ship.Lobby

namespace Sylverant.Ship

open Function (update)

/-- The flag `LOBBY_FLAG_LEGIT_CHECK` of a lobby, and the fields `legit_check_done` and
`legit_check_passed`, which have 8 bits. -/
structure LegitCheck where
  running : Bool := false
  done : Nat := 0
  passed : Nat := 0

/-- A block with the checks in its lobbies. -/
structure CheckedBlock where
  block : Block
  check : LobbyRef → LegitCheck

/-- `limits`, by what `sylverant_limits_check_item` says of an item. -/
abbrev Limits := Bb.Item → Nat → Bool

/-- `lobby_check_player_legit`. -/
def lobbyCheckPlayerLegit (x : Lobby) (k : LegitCheck) (limits : Option Limits)
    (inv : List Bb.Item) (v : Nat) : Bool :=
  match limits with
  | none => true
  | some checkItem =>
      if !x.flags.legitMode ∧ !k.running then true else inv.all fun it => checkItem it v

/-- Set the two flags that the check changes. -/
def Lobby.setLegit (x : Lobby) (tempUnavail legitMode : Bool) : Lobby :=
  { x with flags := { x.flags with tempUnavail := tempUnavail, legitMode := legitMode } }

/-- `lobby_legit_check_finish_locked`. -/
def lobbyLegitCheckFinishLocked (s : CheckedBlock) (l : LobbyRef) : CheckedBlock where
  block := s.block.modifyLobby l fun x =>
    x.setLegit false (if (s.check l).passed = x.numClients then true else x.flags.legitMode)
  check := update s.check l { s.check l with running := false }

/-- The checks of `handle_legit`. -/
def LegitAllowed (s : CheckedBlock) (c : ClientRef) (l : LobbyRef) : Prop :=
  (s.block.lobby l).type = .game ∧ (s.block.lobby l).leaderId = (s.block.client c).clientId ∧
    (s.block.lobby l).flags.legitMode = false ∧ (s.check l).running = false

instance (s : CheckedBlock) (c : ClientRef) (l : LobbyRef) : Decidable (LegitAllowed s c l) :=
  inferInstanceAs (Decidable (_ ∧ _))

/-- `handle_legit`, for a client that is in a lobby. -/
def handleLegit (s : CheckedBlock) (c : ClientRef) : CheckedBlock :=
  match (s.block.client c).curLobby with
  | none => s
  | some l =>
      if LegitAllowed s c l then
        { block := s.block.modifyLobby l fun x => x.setLegit true x.flags.legitMode
          check := update s.check l { running := true } }
      else s

/-- `handle_normal`, for a client that is in a lobby. -/
def handleNormal (s : CheckedBlock) (c : ClientRef) : CheckedBlock :=
  match (s.block.client c).curLobby with
  | none => s
  | some l =>
      if (s.block.lobby l).type = .game ∧
          (s.block.lobby l).leaderId = (s.block.client c).clientId ∧
          (s.check l).running = false ∧ (s.block.lobby l).flags.legitMode then
        { s with block := s.block.modifyLobby l fun x => x.setLegit x.flags.tempUnavail false }
      else s

/-- The lobby whose check the character data of a client is for. -/
def checkFor (s : CheckedBlock) (c : ClientRef) : Option LobbyRef :=
  match (s.block.client c).curLobby with
  | none => none
  | some l =>
      if (s.block.lobby l).type = .game ∧ (s.check l).running then some l else none

/-- Whether a reply to the check of a lobby passes. -/
def passes (s : CheckedBlock) (c : ClientRef) (l : LobbyRef) (limits : Option Limits)
    (inv : List Bb.Item) : Bool :=
  match itemVersion (s.block.client c).version with
  | none => false
  | some v => lobbyCheckPlayerLegit (s.block.lobby l) (s.check l) limits inv v

/-- `dc_process_char` for data that does not come with leaving a game. Outside of a check
it does nothing for a client that is in a lobby. -/
def dcProcessChar (s : CheckedBlock) (c : ClientRef) (limits : Option Limits)
    (inv : List Bb.Item) : CheckedBlock :=
  match checkFor s c with
  | none => s
  | some l =>
      let k := { s.check l with done := ((s.check l).done + 1) % 256 }
      match itemVersion (s.block.client c).version with
      | none => { s with check := update s.check l k }
      | some _ =>
          let k :=
            if passes s c l limits inv then { k with passed := (k.passed + 1) % 256 } else k
          let s := { s with check := update s.check l k }
          if k.done = (s.block.lobby l).numClients then lobbyLegitCheckFinishLocked s l else s

/-- Handling character data, for which Blue Burst has a function of its own that knows
nothing of the check. -/
def processCharData (s : CheckedBlock) (c : ClientRef) (limits : Option Limits)
    (inv : List Bb.Item) : CheckedBlock :=
  if (s.block.client c).version = .bb then s else dcProcessChar s c limits inv

/-! ## Runs -/

/-- What happens to a block. -/
inductive CheckEvent
  /-- A call, as joining and leaving are. -/
  | call (e : Event)
  /-- A client uses the command for a check. -/
  | legit (c : ClientRef)
  /-- A client uses the command that ends legit mode. -/
  | normal (c : ClientRef)
  /-- A client sends its character data. -/
  | char (c : ClientRef) (limits : Option Limits) (inv : List Bb.Item)

/-- The block after an event. -/
def checkStep (s : CheckedBlock) : CheckEvent → CheckedBlock
  | .call e => { s with block := step s.block e }
  | .legit c => handleLegit s c
  | .normal c => handleNormal s c
  | .char c limits inv => processCharData s c limits inv

/-- What the callers promise. No other code changes the flags of the check. -/
def CheckPromised (s : CheckedBlock) : CheckEvent → Prop
  | .call (env, .setFlags l flags) =>
      Promised s.block (env, .setFlags l flags) ∧
        flags.tempUnavail = (s.block.lobby l).flags.tempUnavail ∧
        flags.legitMode = (s.block.lobby l).flags.legitMode
  | .call e => Promised s.block e
  | _ => True

instance : (s : CheckedBlock) → (e : CheckEvent) → Decidable (CheckPromised s e)
  | s, .call (env, .setFlags l flags) =>
      inferInstanceAs (Decidable (Promised s.block (env, .setFlags l flags) ∧ _ ∧ _))
  | s, .call (env, .addToAny c req) =>
      inferInstanceAs (Decidable (Promised s.block (env, .addToAny c req)))
  | s, .call (env, .changeLobby c req) =>
      inferInstanceAs (Decidable (Promised s.block (env, .changeLobby c req)))
  | s, .call (env, .removePlayer c) =>
      inferInstanceAs (Decidable (Promised s.block (env, .removePlayer c)))
  | s, .call (env, .doneBurst c) =>
      inferInstanceAs (Decidable (Promised s.block (env, .doneBurst c)))
  | s, .call (env, .setClient c version flags level chClass times) =>
      inferInstanceAs (Decidable (Promised s.block
        (env, .setClient c version flags level chClass times)))
  | _, .legit _ => inferInstanceAs (Decidable True)
  | _, .normal _ => inferInstanceAs (Decidable True)
  | _, .char _ _ _ => inferInstanceAs (Decidable True)

/-! ## Who has replied -/

/-- A block, with the clients that replied in the last check of each lobby and those that
passed it. The code does not keep either. -/
structure Watched extends CheckedBlock where
  answered : LobbyRef → List ClientRef
  cleared : LobbyRef → List ClientRef

/-- The block after an event, and who has replied then. -/
def watch (w : Watched) (e : CheckEvent) : Watched where
  toCheckedBlock := checkStep w.toCheckedBlock e
  answered :=
    match e with
    | .legit c =>
        match (w.block.client c).curLobby with
        | none => w.answered
        | some l =>
            if LegitAllowed w.toCheckedBlock c l then update w.answered l [] else w.answered
    | .char c _ _ =>
        match checkFor w.toCheckedBlock c with
        | none => w.answered
        | some l => update w.answered l (c :: w.answered l)
    | _ => w.answered
  cleared :=
    match e with
    | .legit c =>
        match (w.block.client c).curLobby with
        | none => w.cleared
        | some l =>
            if LegitAllowed w.toCheckedBlock c l then update w.cleared l [] else w.cleared
    | .char c limits inv =>
        match checkFor w.toCheckedBlock c with
        | none => w.cleared
        | some l =>
            if passes w.toCheckedBlock c l limits inv then update w.cleared l (c :: w.cleared l)
            else w.cleared
    | _ => w.cleared

/-- The start of a run: nobody has been asked. -/
def Block.unwatched (s : Block) : Watched where
  block := s
  check := fun _ => {}
  answered := fun _ => []
  cleared := fun _ => []

end Sylverant.Ship
