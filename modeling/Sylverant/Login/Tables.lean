/-
# Tables of the login server

What the handlers of the login server look up in tables with a number that came from a client:
the texts of a language, the lists of quests, the defaults for a class of characters, the items of
an inventory, and the two strings that a Blue Burst client has formatted in a buffer. The language
of a client is set by one packet, and used by those after it.

Of a packet there are the fields that are read. An event comes with what is found in the database,
in the configuration and in memory while its packet is processed.
-/

import Sylverant.Login.Privileges
import Sylverant.Ship.LegitCheck

namespace Sylverant.Login.Tables

open Privileges (DcPacket Database refused assignGuildcard processDcloginPacket)
open Servers (LoginType)

/-! ## What is looked up -/

def CLIENT_TYPE_COUNT : Nat := 4
def CLIENT_LANG_COUNT : Nat := 8

/-- The value of the constant `CLIENT_TYPE_*`. -/
def typeIndex : LoginType → Nat
  | .dc => 0
  | .pc => 1
  | .gc => 2
  | .ep3 => 3
  | .bbLogin => 4
  | .bbCharacter => 5
  | .dcnte => 6

inductive Access
  /-- `langs[code]`, for a text -/
  | langs (code : Nat)
  /-- `language_codes[code]` -/
  | languageCodes (code : Nat)
  /-- `qlist[type][code]` -/
  | qlist (type code : Nat)
  /-- A quest list behind a pointer that was not set. -/
  | unset
  /-- A category of a quest list with so many of them. -/
  | category (count i : Nat)
  /-- `default_chars[cl]` and `start_stats[cl]` -/
  | defaultChars (cl : Nat)
  /-- A new character in a slot. -/
  | slot (slot : Nat)
  /-- An item of an inventory. -/
  | item (j : Nat)
  /-- So many bytes are written to a buffer of 32 bytes. -/
  | formatted (size : Nat)
deriving DecidableEq, Repr

/-- What is looked up is there. -/
def Access.Inside : Access → Prop
  | .langs code => code < CLIENT_LANG_COUNT
  | .languageCodes code => code < CLIENT_LANG_COUNT
  | .qlist type code => type < CLIENT_TYPE_COUNT ∧ code < CLIENT_LANG_COUNT
  | .unset => False
  | .category count i => i < count
  | .defaultChars cl => cl < 12
  | .slot i => i < 4
  | .item j => j < 30
  | .formatted size => size ≤ 32

/-! ## Clients and packets -/

/-- `login_client_t`, as far as it is used here. -/
structure Conn where
  client : Privileges.Client
  languageCode : Nat
  flags : UInt32

/-- `sylverant_quest_list_t`, with the number of quests in the first category. -/
structure QuestList where
  catCount : Nat
  questCount : Nat

/-- The inventory in a packet, with the items and what is behind them. -/
structure Inventory where
  itemCount : UInt8
  items : Nat → Ship.Bb.Item

/-- The packets of `process_dclogin_packet`. A number stands for what the parts of a handler return
that are left out. -/
inductive DcPkt
  | ntelogin (serial accessKey : List UInt8)
  | ntelogin8a (dcId : List UInt8)
  | ntelogin8b (dcId serial accessKey : List UInt8)
  | login0
  | login3 (language : UInt8) (dcId serial accessKey : List UInt8)
  | logina (dcId serial accessKey : List UInt8)
  | gchlcheck (version : UInt8) (serial accessKey : List UInt8)
  | gcloginc (serial accessKey : List UInt8) (password : String)
  | gclogine (language : UInt8) (serial accessKey : List UInt8)
  | logind (language : UInt8)
  | shipSelect (menuId itemId : BitVec 32) (other : Int)
  | charData (inv : Inventory)
  | infoReq (menuId itemId : BitVec 32) (other : Int)
  | type05
  | other (rv : Int)

/-- The packets of `process_bblogin_packet` and `process_bbcharacter_packet`. A handler may fail
before it changes the client. -/
inductive BbPkt
  | login (username password : List UInt8) (magic : UInt32) (other : Int)
  | updateChar (slot chClass : UInt8) (failed : Option Int) (other : Int)
  | optionRequest (other : Int)
  | infoReq (menuId itemId : BitVec 32) (other : Int)
  | type05
  | other (rv : Int)

/-- A row of the query in `handle_bb_login`. -/
structure BbRow where
  isbanned : Bool
  guildcard : UInt32
  password : List UInt8
  dressflag : UInt32
  /-- Whether `strtoul` sets `errno` for one of the numbers. -/
  outOfRange : Bool

/-- What there is while a packet is processed. -/
structure Env where
  db : Database
  /-- What sending returns. -/
  sent : Int
  md5 : String → String
  sha256 : List UInt8 → List UInt8
  /-- What is at a place of the array of quest lists, or where it would be. -/
  qlist : Nat → Nat → QuestList
  limits : Option Ship.Limits
  /-- Whether there is an information file, and it can be opened. -/
  infoFile : Nat → Bool
  /-- The query for a ship fails, or it tells whether there is one. -/
  shipRow : Nat → Option Bool
  /-- The query for the options fails. -/
  optionsFail : Bool
  bbFails : Bool
  bbClients : List UInt8 → Option BbRow

/-! ## Texts -/

/-- A text that is translated for the client. -/
def text (c : Conn) (shown : Bool) : List Access := if shown then [.langs c.languageCode] else []

/-- Whether a text is shown when it is looked up whether a guild card is banned or online. One for
an error is not shown by all handlers. -/
def refusedText (db : Database) (errors : Bool) (gc : Nat) : Bool :=
  if db.fails .guildcardBans then errors
  else if db.guildcardBanned gc then true
  else if db.fails .onlineClients then errors
  else db.online gc || (db.fails .privileges && errors)

/-- The same for a guild card that may be a new one. -/
def seenText (db : Database) (errors : Bool) : Option Nat → Bool
  | some gc => refusedText db errors gc
  | none =>
      match assignGuildcard db with
      | none => errors
      | some (gc, db) => refusedText db errors gc

/-- Whether a text is shown for a login. -/
def loginText (env : Env) (c : Conn) : DcPkt → Bool
  | .ntelogin _ _ => env.db.fails .ipBans || env.db.ipBanned || env.db.fails .clients
  | .ntelogin8a dcId =>
      env.db.fails .clients ||
        seenText env.db true (env.db.nteClients dcId c.client.serial c.client.accessKey)
  | .ntelogin8b dcId serial accessKey =>
      env.db.fails .clients ||
        ((env.db.nteClients dcId serial accessKey).map (refusedText env.db true)).getD true
  | .login0 => env.db.fails .ipBans || env.db.ipBanned || env.db.fails .clients
  | .login3 _ dcId serial accessKey =>
      env.db.fails .clients || seenText env.db true (env.db.dreamcastClients dcId serial accessKey)
  | .logina dcId serial accessKey =>
      if env.db.fails .ipBans then false
      else if env.db.ipBanned then true
      else if env.db.fails .clients then false
      else if c.client.type = .pc then
        ((env.db.pcClients serial accessKey).map (refusedText env.db false)).getD false
      else seenText env.db false (env.db.dreamcastClients dcId serial accessKey)
  | .gchlcheck _ serial accessKey =>
      if env.db.fails .ipBans then false
      else if env.db.ipBanned then true
      else if env.db.fails .clients then false
      else
        ((env.db.gamecubeClients serial accessKey).map (refusedText env.db false)).getD false
  | _ => false

/-- `handle_info_req`, of which there are two that are the same here. -/
def infoReqText (env : Env) (menuId itemId : BitVec 32) : Bool :=
  if menuId &&& 0xFF = 1 then itemId = 0 || (env.shipRow itemId.toNat).isSome else false

/-! ## The menus -/

/-- The quest list of a client. There is none for the Network Trial Edition: the pointer to it is
not set. -/
def questList (env : Env) (c : Conn) (use : QuestList → List Access) : List Access :=
  if c.client.type = .dcnte then [.unset]
  else use (env.qlist (typeIndex c.client.type) c.languageCode)

/-- `handle_ship_select` -/
def handleShipSelect (env : Env) (c : Conn) (menuId itemId : BitVec 32) : List Access :=
  let l : List Access :=
    if c.client.type = .dcnte then [] else [.qlist (typeIndex c.client.type) c.languageCode]
  let menu := menuId &&& 0x000000FF
  l ++
    if menu = 0 then
      if itemId = 1 then
        questList env c fun l => if l.catCount = 1 then [.category l.catCount 0] else []
      else []
    else if menu = 4 then
      questList env c fun l =>
        .category l.catCount 0 ::
          if itemId.toNat < l.questCount then [.languageCodes c.languageCode] else []
    else if menu = 0xFF then
      text c (itemId ≠ 0xFFFFFFFF && !env.infoFile itemId.toNat)
    else if menu = 7 then
      text c (c.client.isGlobalGm &&
        (itemId = 0 || ((itemId = 1 || itemId = 2) && c.client.isGlobalRoot)))
    else []

/-! ## Character data -/

/-- The version for the limits, of the types that have one. -/
def itemVersion : LoginType → Option Nat
  | .dc | .pc => some 0x02
  | .gc => some 0x04
  | _ => none

/-- Look through so many items from some place on, until one does not pass: the places of those
that were looked at, and whether all have passed. -/
def checkItems (passes : Nat → Bool) : Nat → Nat → List Nat × Bool
  | 0, _ => ([], true)
  | n + 1, j =>
      if passes j then (j :: (checkItems passes n (j + 1)).1, (checkItems passes n (j + 1)).2)
      else ([j], false)

/-- `handle_char_data`, with what it returns. -/
def handleCharData (env : Env) (c : Conn) (inv : Inventory) : List Access × Int :=
  match env.limits with
  | none => ([], 0)
  | some check =>
      match itemVersion c.client.type with
      | none => ([], -1)
      | some v =>
          let r := checkItems (fun j => check (inv.items j) v) inv.itemCount.toNat 0
          (r.1.map .item ++ text c !r.2, if r.2 then 0 else -1)

/-! ## Handlers -/

/-- What is looked up for a packet by a client that has its language already. -/
def dcAccesses (env : Env) (c : Conn) : DcPkt → List Access
  | .shipSelect menuId itemId _ => handleShipSelect env c menuId itemId
  | .charData inv => (handleCharData env c inv).1
  | .infoReq menuId itemId _ => text c (infoReqText env menuId itemId)
  | pkt => text c (loginText env c pkt)

/-- The packets that set the language. -/
def setLanguage (c : Conn) : DcPkt → Conn
  | .login3 language _ _ _ | .gclogine language _ _ | .logind language =>
      { c with languageCode := language.toNat }
  | _ => c

/-- What the packet is for the privileges. -/
def toPrivileges (env : Env) (c : Conn) : DcPkt → DcPacket
  | .ntelogin serial accessKey => .ntelogin serial accessKey
  | .ntelogin8a dcId => .ntelogin8a dcId
  | .ntelogin8b dcId serial accessKey => .ntelogin8b dcId serial accessKey
  | .login0 => .login0
  | .login3 _ dcId serial accessKey => .login3 dcId serial accessKey
  | .logina dcId serial accessKey => .logina dcId serial accessKey
  | .gchlcheck version serial accessKey => .gchlcheck version serial accessKey
  | .gcloginc serial accessKey password => .gcloginc serial accessKey password
  | .gclogine _ serial accessKey => .gclogine serial accessKey
  | .logind _ => .logind
  | .shipSelect menuId itemId other => .shipSelect menuId itemId other
  | .charData inv => .other (handleCharData env c inv).2
  | .infoReq _ _ other => .other other
  | .type05 => .type05
  | .other rv => .other rv

/-- A client is disconnected when its handler does not return zero. -/
def Conn.returned (c : Conn) (rv : Int) : Conn :=
  { c with client := { c.client with disconnected := c.client.disconnected || rv ≠ 0 } }

/-- `process_dclogin_packet`: what is looked up, and the client after it. -/
def processDc (env : Env) (c : Conn) (pkt : DcPkt) : List Access × Conn :=
  let c := setLanguage c pkt
  let r := processDcloginPacket env.db env.sent env.md5 c.client (toPrivileges env c pkt)
  (dcAccesses env c pkt, { c with client := r.client }.returned r.rv)

/-! ## Blue Burst -/

/-- The characters that get a backslash. -/
def special (b : UInt8) : Bool := b ∈ [0, 10, 13, 26, 34, 39, 92]

/-- `sylverant_db_escape_str`, which writes a zero behind. -/
def escapeStr (text : List UInt8) : List UInt8 :=
  text.flatMap fun b =>
    if b = 0 then [92, 48]
    else if b = 10 then [92, 110]
    else if b = 13 then [92, 114]
    else if b = 26 then [92, 90]
    else if special b then [92, b]
    else [b]

/-- `_salt_` -/
def salt : List UInt8 := [95, 115, 97, 108, 116, 95]

def salted (password : List UInt8) (guildcard : UInt32) : List UInt8 :=
  password ++ salt ++ (Nat.toDigits 10 guildcard.toNat).map fun d => .ofNat d.toNat

/-- The part that the two functions `handle_bb_login` share: what is written to the buffer, and the
row of an account, or what is returned without one. -/
def findAccount (env : Env) (username password : List UInt8) : List Access × Except Int BbRow :=
  if username.length > 16 ∨ password.length > 16 then ([], .error (-1))
  else
    let name : Access := .formatted ((escapeStr username).length + 1)
    if env.bbFails then ([name], .error (-2))
    else
      match env.bbClients username with
      | none => ([name], .error (-3))
      | some row =>
          if row.isbanned then ([name], .error (-4))
          else
            let tmp := salted password row.guildcard
            let both : List Access := [name, .formatted (tmp.length + 1)]
            if (env.sha256 tmp).take 32 ≠ row.password.take 32 then (both, .error (-6))
            else if row.outOfRange then (both, .error (-2))
            else (both, .ok row)

/-- `handle_bb_login` of the login port -/
def handleBbLogin (env : Env) (c : Conn) (username password : List UInt8) : List Access × Conn :=
  let r := findAccount env username password
  match r.2 with
  | .error rv => (r.1, c.returned rv)
  | .ok _ => (r.1, c.returned (if env.sent ≠ 0 then -7 else env.sent))

/-- `handle_bb_login` of the character data port -/
def handleBbCharacterLogin (env : Env) (c : Conn) (username password : List UInt8)
    (magic : UInt32) (other : Int) : List Access × Conn :=
  let r := findAccount env username password
  match r.2 with
  | .error rv => (r.1, c.returned rv)
  | .ok row =>
      let c := { c with flags := row.dressflag }
      (r.1, c.returned (if magic ≠ 0xDEADBEEF then -8 else other))

/-- `handle_update_char`: a character is created, or was in the dressing room. -/
def handleUpdateChar (c : Conn) (slot chClass : UInt8) (failed : Option Int) (other : Int) :
    List Access × Conn :=
  let created : List Access :=
    if c.flags &&& (1 : UInt32) ≠ 0 then [.defaultChars chClass.toNat, .slot slot.toNat] else []
  match failed with
  | some rv => (created, c.returned rv)
  | none => (created, { c with flags := 0 }.returned other)

def processBblogin (env : Env) (c : Conn) : BbPkt → List Access × Conn
  | .login username password _ _ => handleBbLogin env c username password
  | .type05 => ([], { c with client := { c.client with disconnected := true } })
  | _ => ([], c.returned (-1))

def processBbcharacter (env : Env) (c : Conn) : BbPkt → List Access × Conn
  | .login username password magic other =>
      handleBbCharacterLogin env c username password magic other
  | .updateChar slot chClass failed other => handleUpdateChar c slot chClass failed other
  | .optionRequest other =>
      (text c env.optionsFail, c.returned (if env.optionsFail then -1 else other))
  | .infoReq menuId itemId other => (text c (infoReqText env menuId itemId), c.returned other)
  | .type05 => ([], { c with client := { c.client with disconnected := true } })
  | .other rv => ([], c.returned rv)

/-! ## Runs -/

/-- The ports of the login server. -/
inductive Port
  | dc
  | bbLogin
  | bbCharacter
deriving DecidableEq

def port : LoginType → Port
  | .bbLogin => .bbLogin
  | .bbCharacter => .bbCharacter
  | .dc | .pc | .gc | .ep3 | .dcnte => .dc

inductive Packet
  | dc (pkt : DcPkt)
  | bb (pkt : BbPkt)

structure Event where
  env : Env
  packet : Packet

/-- Handle the next packet of a client that is still connected. -/
def process (c : Conn) (e : Event) : List Access × Conn :=
  if c.client.disconnected then ([], c)
  else
    match port c.client.type, e.packet with
    | .dc, .dc pkt => processDc e.env c pkt
    | .bbLogin, .bb pkt => processBblogin e.env c pkt
    | .bbCharacter, .bb pkt => processBbcharacter e.env c pkt
    | _, _ => ([], c)

def next (c : Conn) (e : Event) : Conn := (process c e).2

/-- A client that was just connected. -/
def start (type : LoginType) : Conn where
  client := (Privileges.Session.start type).client
  languageCode := 0
  flags := 0

/-! ## What keeps the accesses inside -/

def DcPkt.Fits (env : Env) (c : Conn) : DcPkt → Prop
  | .login3 language _ _ _ | .gclogine language _ _ | .logind language =>
      language.toNat < CLIENT_LANG_COUNT
  | .shipSelect menuId itemId _ =>
      (menuId &&& 0xFF = 0 → itemId = 1 → c.client.type ≠ .dcnte) ∧
      (menuId &&& 0xFF = 4 → c.client.type ≠ .dcnte ∧
        0 < (env.qlist (typeIndex c.client.type) c.languageCode).catCount)
  | .charData inv => ∀ check, env.limits = some check →
      ∃ v, itemVersion c.client.type = some v ∧
        (inv.itemCount.toNat ≤ 30 ∨ ∃ j < 30, check (inv.items j) v = false)
  | _ => True

/-- The name does not have 16 characters that all get a backslash, and a password of 16 characters
does not come with a guild card of ten digits. -/
def LoginFits (env : Env) (username password : List UInt8) : Prop :=
  username.length ≤ 16 → password.length ≤ 16 →
    ¬(username.length = 16 ∧ ∀ b ∈ username, special b) ∧
    (env.bbFails = false → ∀ row, env.bbClients username = some row → row.isbanned = false →
      ¬(password.length = 16 ∧ 10 ^ 9 ≤ row.guildcard.toNat))

def BbPkt.Fits (env : Env) (c : Conn) : BbPkt → Prop
  | .login username password _ _ => LoginFits env username password
  | .updateChar slot chClass _ _ =>
      port c.client.type = .bbCharacter → c.flags &&& (1 : UInt32) ≠ 0 →
        chClass.toNat < 12 ∧ slot.toNat < 4
  | _ => True

/-- The condition on a packet that is handled. -/
def Event.Fits (c : Conn) (e : Event) : Prop :=
  c.client.disconnected = false →
    match port c.client.type, e.packet with
    | .dc, .dc pkt => pkt.Fits e.env c
    | .bbLogin, .bb pkt | .bbCharacter, .bb pkt => pkt.Fits e.env c
    | _, _ => True

/-- The item at a place of the inventory is banned. -/
def Banned (env : Env) (c : Conn) (inv : Inventory) (j : Nat) : Prop :=
  ∃ check v, env.limits = some check ∧ itemVersion c.client.type = some v ∧
    check (inv.items j) v = false

/-- A client is booted for its character data if and only if one of its items is banned. -/
def BootsRight (c : Conn) (e : Event) : Prop :=
  c.client.disconnected = false → port c.client.type = .dc → ∀ inv, e.packet = .dc (.charData inv) →
    ((next c e).client.disconnected = true ↔
      ∃ j, j < inv.itemCount.toNat ∧ j < 30 ∧ Banned e.env c inv j)

/-! ## Texts and quest lists -/

theorem text_inside {c : Conn} (language : c.languageCode < CLIENT_LANG_COUNT) (shown : Bool) :
    ∀ a ∈ text c shown, a.Inside := by
  intro a mem
  cases shown with
  | false => cases mem
  | true =>
      rw [List.mem_singleton.mp mem]
      exact language

/-- The types of clients that are on the port, and have quests. -/
theorem typeIndex_lt {type : LoginType} (hport : port type = .dc) (known : type ≠ .dcnte) :
    typeIndex type < CLIENT_TYPE_COUNT := by
  cases type with
  | dc | pc | gc | ep3 => decide
  | bbLogin | bbCharacter => cases hport
  | dcnte => exact absurd rfl known

theorem handleShipSelect_inside {env : Env} {c : Conn} {menuId itemId : BitVec 32} {other : Int}
    (hport : port c.client.type = .dc) (language : c.languageCode < CLIENT_LANG_COUNT)
    (fits : (DcPkt.shipSelect menuId itemId other).Fits env c) :
    ∀ a ∈ handleShipSelect env c menuId itemId, a.Inside := by
  obtain ⟨initial, quest⟩ := fits
  intro a mem
  rcases List.mem_append.mp mem with mem | mem
  · -- the place of the quest list
    split at mem
    · cases mem
    · rename_i known
      rw [List.mem_singleton.mp mem]
      exact ⟨typeIndex_lt hport known, language⟩
  · split at mem
    · rename_i menu
      split at mem
      · rename_i item
        rw [questList, if_neg (initial menu item)] at mem
        split at mem
        · rename_i one
          rw [List.mem_singleton.mp mem, Access.Inside, one]
          exact Nat.one_pos
        · cases mem
      · cases mem
    · split at mem
      · rename_i menu
        obtain ⟨known, categories⟩ := quest menu
        rw [questList, if_neg known] at mem
        rcases List.mem_cons.mp mem with rfl | mem
        · exact categories
        · split at mem
          · rw [List.mem_singleton.mp mem]
            exact language
          · cases mem
      · split at mem
        · exact text_inside language _ a mem
        · split at mem
          · exact text_inside language _ a mem
          · cases mem

/-! ## The items of an inventory -/

theorem checkItems_passes {passes : Nat → Bool} {n j : Nat} :
    (checkItems passes n j).2 = true ↔ ∀ i, j ≤ i → i < j + n → passes i = true := by
  induction n generalizing j with
  | zero => exact ⟨fun _ i low high => absurd high (by omega), fun _ => rfl⟩
  | succ n ih =>
      rw [checkItems]
      split
      · rename_i here
        rw [ih]
        constructor
        · intro rest i low high
          rcases Nat.eq_or_lt_of_le low with rfl | low
          · exact here
          · exact rest i low (by omega)
        · exact fun all i low high => all i (by omega) (by omega)
      · rename_i here
        constructor
        · intro h
          cases h
        · exact fun all => absurd (all j (Nat.le_refl j) (by omega)) here

/-- The items up to the first that does not pass are looked at. -/
theorem checkItems_places {passes : Nat → Bool} {n j : Nat} :
    ∀ i ∈ (checkItems passes n j).1,
      j ≤ i ∧ i < j + n ∧ ∀ k, j ≤ k → k < i → passes k = true := by
  induction n generalizing j with
  | zero =>
      intro i mem
      cases mem
  | succ n ih =>
      intro i mem
      rw [checkItems] at mem
      split at mem
      · rename_i here
        rcases List.mem_cons.mp mem with rfl | mem
        · exact ⟨Nat.le_refl i, by omega, fun k low high => absurd high (by omega)⟩
        · obtain ⟨low, high, before⟩ := ih i mem
          refine ⟨by omega, by omega, fun k hk hki => ?_⟩
          rcases Nat.eq_or_lt_of_le hk with rfl | hk
          · exact here
          · exact before k hk hki
      · rw [List.mem_singleton.mp mem]
        exact ⟨Nat.le_refl j, by omega, fun k low high => absurd high (by omega)⟩

theorem handleCharData_inside {env : Env} {c : Conn} {inv : Inventory}
    (language : c.languageCode < CLIENT_LANG_COUNT)
    (fits : (DcPkt.charData inv).Fits env c) :
    ∀ a ∈ (handleCharData env c inv).1, a.Inside := by
  intro a mem
  cases set : env.limits with
  | none =>
      simp only [handleCharData, set] at mem
      cases mem
  | some check =>
      obtain ⟨v, known, few⟩ := fits check set
      simp only [handleCharData, set, known] at mem
      rcases List.mem_append.mp mem with mem | mem
      · obtain ⟨i, looked, rfl⟩ := List.mem_map.mp mem
        obtain ⟨-, inside, before⟩ := checkItems_places i looked
        rcases few with few | ⟨j, small, banned⟩
        · change i < 30
          omega
        · -- no item behind a banned one is looked at
          by_contra far
          have pass := before j (Nat.zero_le j) (Nat.lt_of_lt_of_le small (Nat.le_of_not_lt far))
          exact Bool.noConfusion (pass.symm.trans banned)
      · exact text_inside language _ a mem

/-- What a handler of character data returns, when there are limits. -/
theorem handleCharData_iff {env : Env} {c : Conn} {inv : Inventory}
    (fits : (DcPkt.charData inv).Fits env c) :
    (handleCharData env c inv).2 ≠ 0 ↔
      ∃ j, j < inv.itemCount.toNat ∧ j < 30 ∧ Banned env c inv j := by
  cases set : env.limits with
  | none =>
      simp only [handleCharData, set]
      constructor
      · exact fun h => absurd rfl h
      · rintro ⟨j, -, -, check, v, h, -⟩
        rw [set] at h
        cases h
  | some check =>
      obtain ⟨v, known, few⟩ := fits check set
      have banned_iff : ∀ j, Banned env c inv j ↔ check (inv.items j) v = false := by
        intro j
        constructor
        · rintro ⟨check', v', h, h', banned⟩
          rw [set] at h
          rw [known] at h'
          cases h
          cases h'
          exact banned
        · exact fun banned => ⟨check, v, set, known, banned⟩
      simp only [handleCharData, set, known, banned_iff]
      cases verdict :
          (checkItems (fun j => check (inv.items j) v) inv.itemCount.toNat 0).2 with
      | true =>
          have all := checkItems_passes.mp verdict
          constructor
          · exact fun h => absurd rfl h
          · rintro ⟨j, inside, -, banned⟩
            have pass := all j (Nat.zero_le j) (by omega)
            exact Bool.noConfusion (pass.symm.trans banned)
      | false =>
          refine ⟨fun _ => ?_, fun _ h => by cases h⟩
          have some_banned : ∃ i, i < inv.itemCount.toNat ∧ check (inv.items i) v = false := by
            by_contra none_banned
            have pass : (checkItems (fun j => check (inv.items j) v) inv.itemCount.toNat 0).2 =
                true := by
              apply checkItems_passes.mpr
              intro i _ high
              by_contra banned
              exact none_banned ⟨i, by omega, Bool.eq_false_iff.mpr banned⟩
            exact Bool.noConfusion (pass.symm.trans verdict)
          obtain ⟨i, inside, banned⟩ := some_banned
          rcases few with few | ⟨j, small, banned'⟩
          · exact ⟨i, inside, by omega, banned⟩
          · by_cases near : j < i
            · exact ⟨j, by omega, small, banned'⟩
            · exact ⟨i, inside, by omega, banned⟩

/-! ## What is formatted for Blue Burst -/

/-- Each special character takes one byte more. -/
theorem length_escapeStr (text : List UInt8) :
    (escapeStr text).length = text.length + text.countP special := by
  induction text with
  | nil => rfl
  | cons b text ih =>
      have one : (escapeStr (b :: text)).length =
          (if special b then 2 else 1) + (escapeStr text).length := by
        rw [escapeStr, List.flatMap_cons, List.length_append]
        congr 1
        by_cases h0 : b = 0
        · rw [if_pos h0, h0]; rfl
        by_cases h10 : b = 10
        · rw [if_neg h0, if_pos h10, h10]; rfl
        by_cases h13 : b = 13
        · rw [if_neg h0, if_neg h10, if_pos h13, h13]; rfl
        by_cases h26 : b = 26
        · rw [if_neg h0, if_neg h10, if_neg h13, if_pos h26, h26]; rfl
        rw [if_neg h0, if_neg h10, if_neg h13, if_neg h26]
        split <;> rfl
      rw [one, ih, List.countP_cons, List.length_cons]
      split <;> omega

theorem length_salted (password : List UInt8) (guildcard : UInt32) :
    (salted password guildcard).length =
      password.length + 6 + (Nat.toDigits 10 guildcard.toNat).length := by
  rw [salted, List.length_append, List.length_append, List.length_map]
  rfl

theorem name_fits {username : List UInt8} (length : username.length ≤ 16)
    (plain : ¬(username.length = 16 ∧ ∀ b ∈ username, special b)) :
    (escapeStr username).length + 1 ≤ 32 := by
  rw [length_escapeStr]
  have most := List.countP_le_length (p := special) (l := username)
  have fewer : ¬(username.length = 16 ∧ username.countP special = username.length) := by
    rintro ⟨whole, all⟩
    exact plain ⟨whole, List.countP_eq_length.mp all⟩
  omega

theorem password_fits {password : List UInt8} {guildcard : UInt32}
    (length : password.length ≤ 16)
    (short : ¬(password.length = 16 ∧ 10 ^ 9 ≤ guildcard.toNat)) :
    (salted password guildcard).length + 1 ≤ 32 := by
  rw [length_salted]
  have ten : (Nat.toDigits 10 guildcard.toNat).length ≤ 10 := by
    have small := guildcard.toNat_lt
    exact (Nat.length_toDigits_le_iff (by decide) (by decide)).mpr (by omega)
  by_cases long : 10 ^ 9 ≤ guildcard.toNat
  · have less : password.length ≠ 16 := fun h => short ⟨h, long⟩
    omega
  · have nine : (Nat.toDigits 10 guildcard.toNat).length ≤ 9 :=
      (Nat.length_toDigits_le_iff (by decide) (by decide)).mpr (by omega)
    omega

theorem findAccount_inside {env : Env} {username password : List UInt8}
    (fits : LoginFits env username password) :
    ∀ a ∈ (findAccount env username password).1, a.Inside := by
  intro a mem
  rw [findAccount] at mem
  split at mem
  · cases mem
  · rename_i lengths
    have name_length : username.length ≤ 16 := by omega
    have password_length : password.length ≤ 16 := by omega
    obtain ⟨plain, short⟩ := fits name_length password_length
    have name := name_fits name_length plain
    dsimp only at mem
    split at mem
    · rw [List.mem_singleton.mp mem]
      exact name
    · rename_i answers
      split at mem
      · rw [List.mem_singleton.mp mem]
        exact name
      · rename_i row found
        split at mem
        · rw [List.mem_singleton.mp mem]
          exact name
        · rename_i free
          have whole := @password_fits password row.guildcard password_length
            (short (Bool.eq_false_iff.mpr answers) row found (Bool.eq_false_iff.mpr free))
          have both : a = .formatted ((escapeStr username).length + 1) ∨
              a = .formatted ((salted password row.guildcard).length + 1) := by
            split at mem
            · simpa using mem
            · split at mem <;> simpa using mem
          rcases both with rfl | rfl
          · exact name
          · exact whole

/-! ## The next packet -/

@[simp] theorem returned_languageCode (c : Conn) (rv : Int) :
    (c.returned rv).languageCode = c.languageCode := rfl

theorem setLanguage_lt {env : Env} {c : Conn} {pkt : DcPkt}
    (language : c.languageCode < CLIENT_LANG_COUNT) (fits : pkt.Fits env c) :
    (setLanguage c pkt).languageCode < CLIENT_LANG_COUNT := by
  cases pkt with
  | login3 | gclogine | logind => exact fits
  | _ => exact language

theorem dcAccesses_inside {env : Env} {c : Conn} {pkt : DcPkt} (hport : port c.client.type = .dc)
    (language : c.languageCode < CLIENT_LANG_COUNT) (fits : pkt.Fits env c) :
    ∀ a ∈ dcAccesses env (setLanguage c pkt) pkt, a.Inside := by
  have set := setLanguage_lt language fits
  cases pkt with
  | shipSelect => exact handleShipSelect_inside hport language fits
  | charData => exact handleCharData_inside language fits
  | _ => exact text_inside set _

theorem handleBbLogin_inside {env : Env} {c : Conn} {username password : List UInt8}
    (fits : LoginFits env username password) :
    ∀ a ∈ (handleBbLogin env c username password).1, a.Inside := by
  rw [handleBbLogin]
  split <;> exact findAccount_inside fits

theorem handleBbCharacterLogin_inside {env : Env} {c : Conn} {username password : List UInt8}
    {magic : UInt32} {other : Int} (fits : LoginFits env username password) :
    ∀ a ∈ (handleBbCharacterLogin env c username password magic other).1, a.Inside := by
  rw [handleBbCharacterLogin]
  split <;> exact findAccount_inside fits

theorem handleUpdateChar_inside {env : Env} {c : Conn} {slot chClass : UInt8}
    {failed : Option Int} {other : Int} (hport : port c.client.type = .bbCharacter)
    (fits : (BbPkt.updateChar slot chClass failed other).Fits env c) :
    ∀ a ∈ (handleUpdateChar c slot chClass failed other).1, a.Inside := by
  have created : (handleUpdateChar c slot chClass failed other).1 =
      if c.flags &&& (1 : UInt32) ≠ 0 then
        [.defaultChars chClass.toNat, .slot slot.toNat] else [] := by
    cases failed <;> rfl
  rw [created]
  intro a mem
  split at mem
  · rename_i new
    obtain ⟨known, one⟩ := fits hport new
    rcases List.mem_cons.mp mem with rfl | mem
    · exact known
    · rw [List.mem_singleton.mp mem]
      exact one
  · cases mem

theorem processBblogin_inside {env : Env} {c : Conn} {pkt : BbPkt} (fits : pkt.Fits env c) :
    ∀ a ∈ (processBblogin env c pkt).1, a.Inside := by
  cases pkt with
  | login => exact handleBbLogin_inside fits
  | _ =>
      intro a mem
      cases mem

theorem processBbcharacter_inside {env : Env} {c : Conn} {pkt : BbPkt}
    (hport : port c.client.type = .bbCharacter)
    (language : c.languageCode < CLIENT_LANG_COUNT) (fits : pkt.Fits env c) :
    ∀ a ∈ (processBbcharacter env c pkt).1, a.Inside := by
  cases pkt with
  | login => exact handleBbCharacterLogin_inside fits
  | updateChar => exact handleUpdateChar_inside hport fits
  | optionRequest | infoReq => exact text_inside language _
  | type05 | other =>
      intro a mem
      cases mem

/-- What is looked up for a packet that fits is there. -/
theorem process_inside {c : Conn} {e : Event} (language : c.languageCode < CLIENT_LANG_COUNT)
    (fits : e.Fits c) : ∀ a ∈ (process c e).1, a.Inside := by
  intro a mem
  rw [process] at mem
  split at mem
  · cases mem
  · rename_i connected
    have handled := fits (Bool.eq_false_iff.mpr connected)
    split at mem
    · rename_i hport hpacket
      rw [hport, hpacket] at handled
      exact dcAccesses_inside hport language handled a mem
    · rename_i hport hpacket
      rw [hport, hpacket] at handled
      exact processBblogin_inside handled a mem
    · rename_i hport hpacket
      rw [hport, hpacket] at handled
      exact processBbcharacter_inside hport language handled a mem
    · cases mem

theorem processBblogin_languageCode (env : Env) (c : Conn) (pkt : BbPkt) :
    (processBblogin env c pkt).2.languageCode = c.languageCode := by
  cases pkt with
  | login =>
      rw [processBblogin, handleBbLogin]
      split <;> rfl
  | _ => rfl

theorem processBbcharacter_languageCode (env : Env) (c : Conn) (pkt : BbPkt) :
    (processBbcharacter env c pkt).2.languageCode = c.languageCode := by
  cases pkt with
  | login =>
      rw [processBbcharacter, handleBbCharacterLogin]
      split <;> rfl
  | updateChar _ _ failed _ => cases failed <;> rfl
  | _ => rfl

/-- The language stays one of those that there are. -/
theorem next_languageCode {c : Conn} {e : Event} (language : c.languageCode < CLIENT_LANG_COUNT)
    (fits : e.Fits c) : (next c e).languageCode < CLIENT_LANG_COUNT := by
  rw [next, process]
  split
  · exact language
  · rename_i connected
    have handled := fits (Bool.eq_false_iff.mpr connected)
    split
    · rename_i hport hpacket
      rw [hport, hpacket] at handled
      exact setLanguage_lt language handled
    · rw [processBblogin_languageCode]
      exact language
    · rw [processBbcharacter_languageCode]
      exact language
    · exact language

/-- Who has a banned item is booted, and no one else. -/
theorem bootsRight_of_fits {c : Conn} {e : Event} (fits : e.Fits c) : BootsRight c e := by
  intro connected hport inv hpacket
  have handled := fits connected
  rw [hport, hpacket] at handled
  have after : (next c e).client.disconnected =
      decide ((handleCharData e.env c inv).2 ≠ 0) := by
    rw [next, process, if_neg (by rw [connected]; exact Bool.false_ne_true), hport, hpacket]
    change (c.client.disconnected || _) = _
    rw [connected, Bool.false_or]
    rfl
  rw [after, decide_eq_true_iff]
  exact handleCharData_iff handled

/-- In a run whose packets all fit, no table is left, and clients are booted for banned items
alone. -/
theorem login_inside (type : LoginType) (events : List Event)
    (fits : Run.Guarded next (fun c e => e.Fits c) (start type) events)
    (front back : List Event) (e : Event) (split : events = front ++ e :: back) :
    (∀ a ∈ (process (front.foldl next (start type)) e).1, a.Inside) ∧
      BootsRight (front.foldl next (start type)) e := by
  have here : e.Fits (front.foldl next (start type)) :=
    Run.Guarded.iff_each.mp fits front e back split
  rw [split] at fits
  have language : (front.foldl next (start type)).languageCode < CLIENT_LANG_COUNT :=
    Run.Guarded.invariant (P := fun c => c.languageCode < CLIENT_LANG_COUNT)
      (fun c e => next_languageCode) (show 0 < CLIENT_LANG_COUNT by decide) fits.left
  exact ⟨process_inside language here, bootsRight_of_fits here⟩

/-- One quest in each language, and an item that is banned. -/
def oneQuest : Env where
  db := Privileges.oneAccount
  sent := 0
  md5 := id
  sha256 := id
  qlist _ _ := ⟨1, 1⟩
  limits := some fun item _ => item.itemId ≠ 7
  infoFile _ := false
  shipRow _ := none
  optionsFail := false
  bbFails := false
  bbClients _ := none

/-- A client that has the banned item as its second one. -/
def bannedItem : Inventory where
  itemCount := 2
  items j := { data := default, itemId := if j = 1 then 7 else 0 }

/-- A client takes a quest in its language, and is booted for its items. -/
theorem login_inside_sample :
    (∀ a ∈ (process ([⟨oneQuest, .dc (.logind 1)⟩, ⟨oneQuest, .dc (.shipSelect 4 0 0)⟩].foldl
        next (start .pc)) ⟨oneQuest, .dc (.charData bannedItem)⟩).1, a.Inside) ∧
      BootsRight ([⟨oneQuest, .dc (.logind 1)⟩, ⟨oneQuest, .dc (.shipSelect 4 0 0)⟩].foldl
        next (start .pc)) ⟨oneQuest, .dc (.charData bannedItem)⟩ := by
  apply login_inside .pc _ _ [⟨oneQuest, .dc (.logind 1)⟩, ⟨oneQuest, .dc (.shipSelect 4 0 0)⟩]
    [] _ rfl
  refine ⟨fun _ => ?_, fun _ => ⟨?_, ?_⟩, fun _ => ?_, trivial⟩
  · change (1 : UInt8).toNat < CLIENT_LANG_COUNT
    decide
  · decide
  · decide
  · rintro check -
    exact ⟨2, rfl, Or.inl (by decide)⟩

/-- A language that there is not is kept, and taken for the place of the quest list. -/
theorem language_unchecked :
    ¬∀ (type : LoginType) (events front back : List Event) (e : Event),
      events = front ++ e :: back →
        (∀ a ∈ (process (front.foldl next (start type)) e).1, a.Inside) ∧
          BootsRight (front.foldl next (start type)) e := by
  intro inside
  have all := (inside .pc _ [⟨oneQuest, .dc (.logind 200)⟩] []
    ⟨oneQuest, .dc (.shipSelect 4 0 0)⟩ rfl).1
  have list := all (.qlist 1 200) (by decide)
  exact absurd list.2 (by decide)

end Sylverant.Login.Tables
