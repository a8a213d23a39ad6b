/-
# The list of players

`/list` shows a game master the players on the ship, in its block or in its lobby that match
what was asked for, some on each page. The three searches go through the clients in their
order, count those that match, and add an entry to a message in a buffer of 512 bytes for
each of them that is on the page. A character of a text stands for a byte of it.

Regular expressions are those of the C library. The texts are the untranslated ones, the
locks are left out, and the name that is searched for, which is in memory that was freed by
then, is taken to be there still.
-/

import Sylverant.Library.CInt
import Sylverant.Library.CString
import Sylverant.Ship.Block

namespace Sylverant.Ship.PlayerList

open CString (strtok strtol)

/-- The constants `DOMAIN_*`. -/
inductive Domain | ship | block | lobby deriving DecidableEq, Repr

/-- What an entry of the list is made from. -/
structure Player where
  /-- `pl->v1.level` -/
  level : UInt32
  /-- `pl->v1.ch_class` -/
  chClass : UInt8
  /-- `pl->v1.name`, up to the zero behind it. -/
  name : String
  guildcard : UInt32
  /-- `cur_block->b` -/
  b : Int
  /-- The address, as `my_ntop` writes it. -/
  ip : String
  /-- The name of `cur_lobby`, if there is one. -/
  curLobby : Option String

/-- The clients that the searches of a client go through. A client is in one queue once, and
in one slot of a lobby. -/
structure Online where
  player : ClientRef → Player
  /-- The array `blocks` of the ship, as far as it has blocks, with the queue of clients of
  each block that is there. -/
  blocks : List (Option (List ClientRef))
  blocks_nodup : (blocks.filterMap id).flatten.Nodup
  /-- The queue of clients of `cur_block`. -/
  block : List ClientRef
  block_nodup : block.Nodup
  /-- The slots of `cur_lobby`. -/
  lobby : List (Option ClientRef)
  lobby_nodup : (lobby.filterMap id).Nodup
  /-- What stands behind the array `classes`, as text. -/
  beyond : Nat → String

/-- What is searched for: the name as a compiled expression, if there is one, the lowest and
the highest level, and the class, or -1. -/
structure Query where
  name : Option (String → Bool)
  minlvl : Int
  maxlvl : Int
  chClass : Int

/-- The tests that are made of a client. The levels are compared as unsigned numbers. -/
def Query.passes (f : Query) (pl : Player) : Bool :=
  if pl.level < UInt32.ofInt f.minlvl || pl.level > UInt32.ofInt f.maxlvl then false
  else if f.chClass ≠ -1 && (pl.chClass.toNat : Int) ≠ f.chClass then false
  else if f.name.any fun re => !re pl.name then false
  else true

/-! ## Entries -/

/-- `classes` -/
def classes : List String :=
  ["HUmar", "HUnewearl", "HUcast", "RAmar", "RAcast", "RAcaseal", "FOmarl", "FOnewm",
    "FOnewearl", "HUcaseal", "FOmar", "RAmarl"]

/-- `skip_lang_code`, which returns no string for an empty one. -/
def skipLangCode (input : String) : Option String :=
  match input.toList with
  | [] => none
  | '\t' :: 'E' :: rest => some (String.ofList rest)
  | '\t' :: 'J' :: rest => some (String.ofList rest)
  | _ => some input

namespace Online

variable (o : Online)

/-- What `sprintf` prints for a client. For no string it prints `(null)`. -/
def line (c2 : ClientRef) : String :=
  let pl := o.player c2
  let lobby :=
    match pl.curLobby with
    | some name => (skipLangCode name).getD "(null)"
    | none => "----"
  pl.name ++ "  " ++ classes.getD pl.chClass.toNat (o.beyond pl.chClass.toNat) ++ "  Lv." ++
    toString (CInt.ofInt (pl.level + 1).toNat) ++ "  GC: " ++
    toString (CInt.ofInt pl.guildcard.toNat) ++ "\nB: " ++ toString pl.b ++ "  IP: " ++ pl.ip ++
    "  Lobby: " ++ lobby ++ "\n"

/-- The string `str` with entries for these clients. -/
def text (listed : List ClientRef) : String :=
  listed.foldl (fun str c2 => str ++ o.line c2) "\tE"

end Online

/-! ## Searching -/

/-- What goes wrong: a string that is not there is read, or bytes behind `str` are written. -/
inductive Fault | null | overrun deriving DecidableEq, Repr

/-- The variable `count`, and the clients that `str` has entries for. -/
structure Listing where
  count : Int := 0
  listed : List ClientRef := []
deriving DecidableEq, Repr

namespace Online

variable (o : Online) (f : Query) (first : Int)

/-- Count a client that matches, and add it to the message if it is on the page. -/
def addMatch (c2 : ClientRef) (s : Listing) : Except Fault Listing :=
  let count := CInt.ofInt (s.count + 1)
  if count ≥ first then
    if (o.text s.listed).length + (o.line c2).length < 512 then
      .ok { count, listed := s.listed ++ [c2] }
    else .error .overrun
  else .ok { s with count }

/-- The loop over the clients of a block. -/
def searchQueue : List ClientRef → Listing → Except Fault Listing
  | [], s => .ok s
  | c2 :: queue, s =>
      if f.passes (o.player c2) then do
        let s ← o.addMatch first c2 s
        if s.count ≥ CInt.ofInt (first + 4) then return s else searchQueue queue s
      else searchQueue queue s

/-- The loop over the blocks of a ship. -/
def searchBlocks : List (Option (List ClientRef)) → Listing → Except Fault Listing
  | [], s => .ok s
  | b :: blocks, s =>
      if s.count < CInt.ofInt (first + 4) then
        match b with
        | none => searchBlocks blocks s
        | some queue => do searchBlocks blocks (← o.searchQueue f first queue s)
      else .ok s

/-- The loop over the slots of a lobby. -/
def searchSlots : List (Option ClientRef) → Listing → Except Fault Listing
  | [], s => .ok s
  | slot :: slots, s =>
      if s.count < CInt.ofInt (first + 4) then
        match slot with
        | none => searchSlots slots s
        | some c2 =>
            if f.passes (o.player c2) then do searchSlots slots (← o.addMatch first c2 s)
            else searchSlots slots s
      else .ok s

/-- The search of one of the three functions. -/
def search (dom : Domain) : Except Fault Listing :=
  match dom with
  | .ship => o.searchBlocks f first o.blocks {}
  | .block => o.searchQueue f first o.block {}
  | .lobby => o.searchSlots f first o.lobby {}

end Online

/-! ## The messages -/

/-- What is sent to the client: a line of text, or a box. -/
inductive Reply | txt (str : String) | messageBox (str : String) deriving DecidableEq, Repr

section Messages

variable (o : Online) (regcomp : String → Option (String → Bool))

/-- `pllist_ship`, `pllist_block` and `pllist_lobby`, which have the same beginning and the same
end. -/
def pllist (dom : Domain) (name : Option String) (first minlvl maxlvl chClass : Int) :
    Except Fault Reply :=
  let run (re : Option (String → Bool)) : Except Fault Reply := do
    let s ← o.search { name := re, minlvl, maxlvl, chClass } first dom
    let str := o.text s.listed
    return .messageBox (if str.length = 2 then "\tENo matches found." else str)
  match name with
  | none => run none
  | some name =>
      match regcomp name with
      | none => .ok (.txt "\tE\tC7Invalid name given.")
      | some re => run (some re)

def pllistShip := pllist o regcomp .ship

def pllistBlock := pllist o regcomp .block

def pllistLobby := pllist o regcomp .lobby

/-- The variables of `send_player_list`. -/
structure Params where
  name : Option String := none
  first : Int := 0
  minlvl : Int := 0
  maxlvl : Int := 200
  chClass : Int := -1
deriving DecidableEq, Repr

/-- The variable `first` for a page. -/
def pageFirst (page : Int) : Int := CInt.ofInt ((CInt.ofInt page - 1) * 4)

/-- Why no search is made: with an answer, or with a fault. -/
abbrev Refusal := Except Fault Reply

/-- A number among the arguments, which `strtol` reads whether or not it is there. -/
def number (tok : Option String) (invalid : String) : Except Refusal Int :=
  match tok with
  | none => .error (.error .null)
  | some tok =>
      match strtol tok 0 with
      | none => .error (.ok (.txt invalid))
      | some value => .ok value

/-- The number of a class by its name, in whatever case it is written. -/
def classNumber (tok : String) : Except Refusal Int :=
  if tok.length < 5 then .error (.ok (.txt "\tE\tC7Invalid class."))
  else
    let letters := tok.toList
    let name :=
      String.ofList ((letters.take 2).map Char.toUpper ++ (letters.drop 2).map Char.toLower)
    if classes.idxOf name = 12 then .error (.ok (.txt "\tE\tC7Invalid class."))
    else .ok (classes.idxOf name)

/-- One round of the loop over the arguments, with the token after the first one. -/
def readArg (ps : Params) (tok : String) (arg : Option String) : Except Refusal Params :=
  if tok = "p" then do
    let page ← number arg "\tE\tC7Invalid page given."
    return { ps with first := pageFirst page }
  else if tok = "n" then
    match arg with
    | none => .error (.ok (.txt "\tE\tC7Name requires an argument."))
    | some name => .ok { ps with name := some name }
  else if tok = "mnlv" then do
    let level ← number arg "\tE\tC7Invalid min level given."
    return { ps with minlvl := CInt.ofInt (CInt.ofInt level - 1) }
  else if tok = "mxlv" then do
    let level ← number arg "\tE\tC7Invalid max level given."
    return { ps with maxlvl := CInt.ofInt (CInt.ofInt level - 1) }
  else if tok = "lv" then do
    let level ← number arg "\tE\tC7Invalid level given."
    return { ps with
      minlvl := CInt.ofInt (CInt.ofInt level - 1), maxlvl := CInt.ofInt (CInt.ofInt level - 1) }
  else if tok = "c" then
    match arg with
    | none => .error (.ok (.txt "\tE\tC7Class requires an argument."))
    | some arg => do return { ps with chClass := ← classNumber arg }
  else .ok ps

/-- The loop over the arguments. -/
def readArgs : List String → Params → Except Refusal Params
  | [], ps => .ok ps
  | [tok], ps => readArg ps tok none
  | tok :: arg :: toks, ps => do readArgs toks (← readArg ps tok (some arg))

/-- `send_player_list` -/
def sendPlayerList (params : String) : Except Fault Reply :=
  let go (search : Option String → Int → Int → Int → Int → Except Fault Reply)
      (toks : List String) : Except Fault Reply :=
    match readArgs toks {} with
    | .error refusal => refusal
    | .ok ps => search ps.name ps.first ps.minlvl ps.maxlvl ps.chClass
  match strtok params [' '] with
  | [] => .ok (.txt "\tE\tC7Missing search domain.")
  | tok :: toks =>
      if tok = "s" then go (pllistShip o regcomp) toks
      else if tok = "b" then go (pllistBlock o regcomp) toks
      else if tok = "l" then go (pllistLobby o regcomp) toks
      else .ok (.txt "\tE\tC7Invalid or missing search domain.")

end Messages

end Sylverant.Ship.PlayerList
