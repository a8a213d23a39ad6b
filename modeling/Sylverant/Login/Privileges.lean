/-
# Privileges of clients of the login server

What the packets of a client make of its privileges and its guild card. A Gamecube sends its
license three times: to have it verified, with a password, and to get its guild card. Each packet
looks the account up again, and any of them may be left out. A Blue Burst client sends its
password with its only login.

What is looked up is what the database answers while a packet is processed, and what `md5` and
`SHA256` make of a string is a parameter. A history says in which order the passwords were
checked, the privileges were set, and what needs them was done.
-/

import Sylverant.Library.Run
import Sylverant.Servers.ReadFromClient

namespace Sylverant.Login.Privileges

open Servers (LoginType)
open History (Each)

/-! ## The database -/

/-- A row of `account_data`, as far as the login server reads it. -/
structure AccountRow where
  password : String
  regtime : String
  privlevel : Int

/-- A row of `account_data` joined with `blueburst_clients`. -/
structure BlueburstRow where
  accountId : Nat
  isbanned : Bool
  privlevel : Int
  guildcard : Nat
  password : List UInt8
  /-- Whether `strtoul` sets `errno` for one of the numbers. -/
  outOfRange : Bool

/-- The queries of the login server, by what they ask for. -/
inductive Query
  | ipBans
  | guildcardBans
  | onlineClients
  | clients
  | newGuildcard
  | newClient
  | account
  | accountData
  | privileges

/-- What the database answers while a packet is processed. -/
structure Database where
  fails : Query → Bool
  ipBanned : Bool
  guildcardBanned : Nat → Bool
  online : Nat → Bool
  nteSeen : List UInt8 → List UInt8 → Bool
  nteClients : List UInt8 → List UInt8 → List UInt8 → Option Nat
  dreamcastClients : List UInt8 → List UInt8 → List UInt8 → Option Nat
  pcClients : List UInt8 → List UInt8 → Option Nat
  gamecubeClients : List UInt8 → List UInt8 → Option Nat
  blueburstClients : String → Option BlueburstRow
  /-- The table `guildcards`. A guild card may have no account. -/
  guildcards : Nat → Option (Option Nat)
  accounts : Nat → Option AccountRow
  insertId : Nat

/-- The account that a guild card belongs to. -/
def Database.owner (db : Database) (gc : Nat) : Option Nat := (db.guildcards gc).join

/-- `INSERT INTO guildcards (account_id) VALUES (NULL)` -/
def Database.insertGuildcard (db : Database) : Database :=
  { db with guildcards := Function.update db.guildcards db.insertId (some none) }

/-- `account_data NATURAL JOIN guildcards` -/
def Database.joined (db : Database) (gc : Nat) : Option (Nat × AccountRow) :=
  (db.owner gc).bind fun account => (db.accounts account).map fun row => (account, row)

/-! ## The client -/

/-- The fields of a client that its privileges depend on. The last two say whose privileges and
whose guild card it has; the code does not know. -/
structure Client where
  type : LoginType
  disconnected : Bool
  isGm : BitVec 32
  guildcard : Nat
  serial : List UInt8
  accessKey : List UInt8
  gmOf : Option Nat
  cardOf : Option Nat

/-- The operations of the menu for Game Masters. -/
inductive GmOperation
  | refreshQuests
  | restart
  | shutdown
deriving DecidableEq

/-- What happens while a packet is processed, with the account that it has to do with. -/
inductive Act
  | checked (account : Nat)
  | privileged (account : Nat) (level : BitVec 32)
  | operation (op : GmOperation) (account : Option Nat)
  | security (gc : Nat) (account : Option Nat)
deriving DecidableEq

/-- What a handler does: the client after it, what happened, and what it returns. -/
structure Result where
  client : Client
  acts : List Act
  rv : Int

def Client.quiet (c : Client) (rv : Int) : Result := ⟨c, [], rv⟩

/-- `c->is_gm = atoi(row[0])` -/
def Client.setGm (c : Client) (account : Nat) (privlevel : Int) : Client :=
  { c with isGm := BitVec.ofInt 32 privlevel, gmOf := some account }

/-- `IS_GLOBAL_GM` -/
def Client.isGlobalGm (c : Client) : Bool := c.isGm &&& 0x02 ≠ 0

/-- `IS_GLOBAL_ROOT` -/
def Client.isGlobalRoot (c : Client) : Bool := c.isGm &&& 0x08 ≠ 0

/-! ## Packets of a Gamecube, and of those before it -/

/-- The packets of `process_dclogin_packet`, with the fields that are read. Of the others, what
their handlers return. -/
inductive DcPacket
  | ntelogin (serial accessKey : List UInt8)
  | ntelogin8a (dcId : List UInt8)
  | ntelogin8b (dcId serial accessKey : List UInt8)
  | login0
  | login3 (dcId serial accessKey : List UInt8)
  | logina (dcId serial accessKey : List UInt8)
  | gchlcheck (version : UInt8) (serial accessKey : List UInt8)
  | gcloginc (serial accessKey : List UInt8) (password : String)
  | gclogine (serial accessKey : List UInt8)
  | logind
  | shipSelect (menuId itemId : BitVec 32) (other : Int)
  | type05
  | other (rv : Int)

section Handlers

variable (db : Database) (sent : Int)

/-- Make sure that a guild card is neither banned nor online already. Otherwise, what the handler
returns for an error, a ban, or a client that is online. -/
def refused (gc : Nat) (error banned online : Int) : Option Int :=
  if db.fails .guildcardBans then some error
  else if db.guildcardBanned gc then some banned
  else if db.fails .onlineClients then some error
  else if db.online gc then some online
  else none

/-- Check if the user is a GM or not. There are none of the acts when it is no account's. -/
def checkGm (c : Client) (gc : Nat) : Client × List Act :=
  match db.joined gc with
  | some (account, row) =>
      (c.setGm account row.privlevel, [.privileged account (BitVec.ofInt 32 row.privlevel)])
  | none => (c, [])

/-- The part that the logins without a password share, once the guild card of a client is known:
what follows after the privileges were looked up. -/
def finishLogin (c : Client) (gc : Nat) (error : Int)
    (last : Client × List Act → Result) : Result :=
  match refused db gc error (-1) (-1) with
  | some rv => c.quiet rv
  | none => if db.fails .privileges then c.quiet error else last (checkGm db c gc)

/-- A guild card for a client that was not seen before, and the database that has it. -/
def assignGuildcard : Option (Nat × Database) :=
  if db.fails .newGuildcard then none
  else if db.fails .newClient then none
  else some (db.insertId, db.insertGuildcard)

/-- `handle_ntelogin` -/
def handleNtelogin (c : Client) (serial accessKey : List UInt8) : Result :=
  if db.fails .ipBans then c.quiet (-1)
  else if db.ipBanned then c.quiet (-1)
  else if db.fails .clients then c.quiet (-1)
  else if db.nteSeen serial accessKey then { c with type := .dcnte }.quiet sent
  else { c with type := .dcnte, serial, accessKey }.quiet sent

/-- `handle_ntelogin8a` -/
def handleNtelogin8a (c : Client) (dcId : List UInt8) : Result :=
  let last := fun r : Client × List Act => (⟨r.1, r.2, sent⟩ : Result)
  if db.fails .clients then c.quiet (-1)
  else
    match db.nteClients dcId c.serial c.accessKey with
    | some gc => finishLogin db c gc (-1) last
    | none =>
        match assignGuildcard db with
        | none => c.quiet (-1)
        | some (gc, db) => finishLogin db c gc (-1) last

/-- `handle_ntelogin8b` -/
def handleNtelogin8b (c : Client) (dcId serial accessKey : List UInt8) : Result :=
  if db.fails .clients then c.quiet (-1)
  else
    match db.nteClients dcId serial accessKey with
    | some gc =>
        finishLogin db c gc (-1) fun r => ⟨r.1, r.2 ++ [.security gc (db.owner gc)], sent⟩
    | none => c.quiet (-1)

/-- `handle_login0` -/
def handleLogin0 (c : Client) : Result :=
  if db.fails .ipBans then c.quiet (-1)
  else if db.ipBanned then c.quiet (-1)
  else if db.fails .clients then c.quiet (-1)
  else c.quiet sent

/-- `handle_login3` -/
def handleLogin3 (c : Client) (dcId serial accessKey : List UInt8) : Result :=
  if db.fails .clients then c.quiet (-1)
  else
    match db.dreamcastClients dcId serial accessKey with
    | some gc =>
        finishLogin db c gc (-1) fun r => ⟨r.1, r.2 ++ [.security gc (db.owner gc)], sent⟩
    | none =>
        match assignGuildcard db with
        | none => c.quiet (-1)
        | some (gc, db) =>
            finishLogin db c gc (-1) fun r => ⟨r.1, r.2 ++ [.security gc (db.owner gc)], sent⟩

/-- `handle_logina` -/
def handleLogina (c : Client) (dcId serial accessKey : List UInt8) : Result :=
  if db.fails .ipBans then c.quiet sent
  else if db.ipBanned then c.quiet (-1)
  else if db.fails .clients then c.quiet sent
  else
    match if c.type ≠ .pc then db.dreamcastClients dcId serial accessKey
      else db.pcClients serial accessKey with
    | some gc =>
        finishLogin db c gc sent fun r =>
          ⟨{ r.1 with guildcard := gc, cardOf := db.owner gc }, r.2, sent⟩
    | none =>
        if c.type = .pc then c.quiet sent
        else
          match assignGuildcard db with
          | none => c.quiet sent
          | some (gc, db) =>
              finishLogin db c gc sent fun r =>
                ⟨{ r.1 with guildcard := gc, cardOf := db.owner gc }, r.2, sent⟩

/-- The type of a client after its version was checked. -/
def versionType (type : LoginType) (version : UInt8) : LoginType :=
  if version ∈ [0x30, 0x31, 0x33, 0x34, 0x32, 0x35, 0x36, 0x39] then .gc
  else if version ∈ [0x40, 0x41, 0x42, 0x43] then .ep3
  else type

/-- `handle_gchlcheck` -/
def handleGchlcheck (c : Client) (version : UInt8) (serial accessKey : List UInt8) : Result :=
  let c := { c with type := versionType c.type version }
  if db.fails .ipBans then c.quiet sent
  else if db.ipBanned then c.quiet sent
  else if db.fails .clients then c.quiet sent
  else
    match db.gamecubeClients serial accessKey with
    | none => c.quiet sent
    | some gc =>
        match refused db gc sent sent (-1) with
        | some rv => c.quiet rv
        | none =>
            if db.fails .account then c.quiet sent
            else
              match db.guildcards gc with
              | none => c.quiet sent
              -- the server ends, as a NULL is no string
              | some none => c.quiet (-1)
              | some (some account) =>
                  if db.fails .accountData then c.quiet sent
                  else
                    match db.accounts account with
                    | none => c.quiet sent
                    | some row =>
                        ⟨c.setGm account row.privlevel,
                          [.privileged account (BitVec.ofInt 32 row.privlevel)], sent⟩

/-- `handle_gcloginc` -/
def handleGcloginc (md5 : String → String) (c : Client) (serial accessKey : List UInt8)
    (password : String) : Result :=
  if db.fails .clients then c.quiet (-1)
  else
    match db.gamecubeClients serial accessKey with
    | none => c.quiet (-1)
    | some gc =>
        if db.fails .account then c.quiet (-1)
        else
          match db.guildcards gc with
          | none | some none => c.quiet (-1)
          | some (some account) =>
              if db.fails .accountData then c.quiet (-1)
              else
                match db.accounts account with
                | none => c.quiet (-1)
                | some row =>
                    if row.password.toLower = md5 (password ++ "_" ++ row.regtime ++ "_salt") then
                      ⟨c, [.checked account], sent⟩
                    else c.quiet sent

/-- `handle_gclogine` -/
def handleGclogine (c : Client) (serial accessKey : List UInt8) : Result :=
  if db.fails .clients then c.quiet (-1)
  else
    match db.gamecubeClients serial accessKey with
    | none => c.quiet (-1)
    | some gc => ⟨c, [.security gc (db.owner gc)], sent⟩

/-- `handle_logind` -/
def handleLogind (c : Client) : Result := ⟨c, [.security c.guildcard c.cardOf], sent⟩

/-- `send_gm_menu` -/
def sendGmMenu (c : Client) : Int :=
  if !c.isGlobalGm then -1
  else if c.type ∈ [.dc, .gc, .ep3, .pc] then sent
  else -1

/-- The part of `handle_ship_select` for the operations of the menu for Game Masters. -/
def handleGmSelect (c : Client) (itemId : BitVec 32) : Result :=
  if !c.isGlobalGm then c.quiet (-1)
  else if itemId = 0 then ⟨c, [.operation .refreshQuests c.gmOf], sendGmMenu sent c⟩
  else if itemId = 1 then
    if !c.isGlobalRoot then c.quiet (-1)
    else ⟨c, [.operation .restart c.gmOf], sendGmMenu sent c⟩
  else if itemId = 2 then
    if !c.isGlobalRoot then c.quiet (-1)
    else ⟨c, [.operation .shutdown c.gmOf], sendGmMenu sent c⟩
  else if itemId = 0xFFFFFFFF then c.quiet sent
  else c.quiet (-1)

/-- `handle_ship_select`. The other menus leave alone what the privileges depend on. -/
def handleShipSelect (c : Client) (menuId itemId : BitVec 32) (other : Int) : Result :=
  if menuId &&& 0x000000FF = 7 then handleGmSelect sent c itemId else c.quiet other

/-- `process_dclogin_packet` -/
def processDcloginPacket (md5 : String → String) (c : Client) : DcPacket → Result
  | .ntelogin serial accessKey => handleNtelogin db sent c serial accessKey
  | .ntelogin8a dcId => handleNtelogin8a db sent c dcId
  | .ntelogin8b dcId serial accessKey => handleNtelogin8b db sent c dcId serial accessKey
  | .login0 => handleLogin0 db sent c
  | .login3 dcId serial accessKey => handleLogin3 db sent c dcId serial accessKey
  | .logina dcId serial accessKey => handleLogina db sent c dcId serial accessKey
  | .gchlcheck version serial accessKey => handleGchlcheck db sent c version serial accessKey
  | .gcloginc serial accessKey password => handleGcloginc db sent md5 c serial accessKey password
  | .gclogine serial accessKey => handleGclogine db sent c serial accessKey
  | .logind => handleLogind sent c
  | .shipSelect menuId itemId other => handleShipSelect sent c menuId itemId other
  | .type05 => { c with disconnected := true }.quiet 0
  | .other rv => c.quiet rv

end Handlers

/-! ## Packets of Blue Burst -/

/-- The packets of `process_bblogin_packet` and `process_bbcharacter_packet`, with the fields that
are read. A number stands for what the parts of a handler return that are left out. -/
inductive BbPacket
  | login (username password : String) (magic : BitVec 32) (last : Int)
  | charSelect (slot : UInt8) (preview : Bool) (other : Int)
  | updateChar (failed : Option Int)
  | type05
  | other (rv : Int)

section Handlers

variable (db : Database) (sent : Int) (sha256 : String → List UInt8)

/-- The account of a name and a password, or what a handler returns when there is none. -/
def findAccount (username password : String) : Except Int BlueburstRow :=
  if username.length > 16 ∨ password.length > 16 then .error (-1)
  else if db.fails .clients then .error (-2)
  else
    match db.blueburstClients username with
    | none => .error (-3)
    | some row =>
        if row.isbanned then .error (-4)
        else if (sha256 (password ++ "_salt_" ++ toString row.guildcard)).take 32 ≠
            row.password.take 32 then .error (-6)
        else .ok row

/-- `handle_bb_login` of the login port -/
def handleBbLogin (c : Client) (username password : String) : Result :=
  match findAccount db sha256 username password with
  | .error rv => ⟨c, [.security 0 none], rv⟩
  | .ok row =>
      if row.outOfRange then ⟨c, [.checked row.accountId, .security 0 none], -2⟩
      else
        ⟨c, [.checked row.accountId, .security row.guildcard (some row.accountId)],
          if sent ≠ 0 then -7 else sent⟩

/-- `handle_bb_login` of the character data port -/
def handleBbCharacterLogin (c : Client) (username password : String) (magic : BitVec 32)
    (last : Int) : Result :=
  match findAccount db sha256 username password with
  | .error rv => ⟨c, [.security 0 none], rv⟩
  | .ok row =>
      let c := { c.setGm row.accountId row.privlevel with
        guildcard := row.guildcard, cardOf := some row.accountId }
      let acts := [.checked row.accountId, .privileged row.accountId c.isGm]
      if row.outOfRange then ⟨c, acts ++ [.security 0 none], -2⟩
      else if magic ≠ 0xDEADBEEF then ⟨c, acts ++ [.security 0 none], -8⟩
      else ⟨c, acts ++ [.security c.guildcard c.cardOf], if sent ≠ 0 then -7 else last⟩

/-- `handle_char_select` -/
def handleCharSelect (c : Client) (slot : UInt8) (preview : Bool) (other : Int) : Result :=
  if slot > 3 then c.quiet (-1)
  else if db.fails .clients then c.quiet (-2)
  else if preview then c.quiet other
  else ⟨c, [.security c.guildcard c.cardOf], if sent ≠ 0 then -4 else sent⟩

/-- `handle_update_char`, where the character may fail to be written. -/
def handleUpdateChar (c : Client) (failed : Option Int) : Result :=
  match failed with
  | some rv => c.quiet rv
  | none => ⟨c, [.security c.guildcard c.cardOf], if sent ≠ 0 then -8 else sent⟩

/-- `process_bblogin_packet` -/
def processBbloginPacket (c : Client) : BbPacket → Result
  | .login username password _ _ => handleBbLogin db sent sha256 c username password
  | .type05 => { c with disconnected := true }.quiet 0
  | _ => c.quiet (-1)

/-- `process_bbcharacter_packet` -/
def processBbcharacterPacket (c : Client) : BbPacket → Result
  | .login username password magic last =>
      handleBbCharacterLogin db sent sha256 c username password magic last
  | .charSelect slot preview other => handleCharSelect db sent c slot preview other
  | .updateChar failed => handleUpdateChar sent c failed
  | .type05 => { c with disconnected := true }.quiet 0
  | .other rv => c.quiet rv

end Handlers

/-! ## Sessions -/

/-- A client, and what happened since it connected. -/
structure Session where
  client : Client
  history : List Act

/-- A client that was just connected. -/
def Session.start (type : LoginType) : Session where
  client :=
    { type, disconnected := false, isGm := 0, guildcard := 0, serial := [], accessKey := [],
      gmOf := none, cardOf := none }
  history := []

/-- A packet, what the database answers while it is processed, and what sending returns. -/
structure Event (π : Type) where
  db : Database
  sent : Int
  packet : π

/-- A client is disconnected when its handler does not return zero. -/
def Session.apply (s : Session) (r : Result) : Session where
  client := { r.client with disconnected := r.client.disconnected || r.rv ≠ 0 }
  history := s.history ++ r.acts

/-- The next packet of a Gamecube. -/
def Session.dcNext (md5 : String → String) (s : Session) (e : Event DcPacket) : Session :=
  if s.client.disconnected then s
  else s.apply (processDcloginPacket e.db e.sent md5 s.client e.packet)

/-- The next packet of a Blue Burst client. -/
def Session.bbNext (sha256 : String → List UInt8) (s : Session) (e : Event BbPacket) : Session :=
  if s.client.disconnected then s
  else if s.client.type = .bbLogin then
    s.apply (processBbloginPacket e.db e.sent sha256 s.client e.packet)
  else s.apply (processBbcharacterPacket e.db e.sent sha256 s.client e.packet)

/-! ## Privilege follows authentication -/

/-- What needs an account is done after its password was checked. A guild card of zero is none. -/
def Justified (past : List Act) : Act → Prop
  | .checked _ => True
  | .privileged account level => level ≠ 0 → .checked account ∈ past
  | .operation _ account => ∃ a, account = some a ∧ .checked a ∈ past
  | .security gc account => gc ≠ 0 → ∀ a, account = some a → .checked a ∈ past

/-- The privileges of a client, and all that was done for it, are earned. -/
structure Session.Earned (s : Session) : Prop where
  acts : Each Justified [] s.history
  gm : s.client.isGm ≠ 0 → ∃ a, s.client.gmOf = some a ∧ .checked a ∈ s.history

/-- The password of an account was checked. -/
def Session.Passed (s : Session) (account : Nat) : Prop := .checked account ∈ s.history

/-- A guild card that is neither banned nor online. -/
structure Admitted (db : Database) (gc : Nat) : Prop where
  bans : db.fails .guildcardBans = false
  banned : db.guildcardBanned gc = false
  clients : db.fails .onlineClients = false
  online : db.online gc = false

/-- An account that has privileges. -/
def Database.Privileged (db : Database) (account : Nat) : Prop :=
  ∃ row, db.accounts account = some row ∧ BitVec.ofInt 32 row.privlevel ≠ 0

/-- A login without a password with the guild card of an account: the password of the account was
checked, unless the account has no privileges and the guild card is not sent. -/
def PlainLogin (s : Session) (db : Database) (gc : Nat) (card : Bool) : Prop :=
  Admitted db gc → db.fails .privileges = false → ∀ account, db.owner gc = some account →
    db.Privileged account ∨ (card = true ∧ gc ≠ 0) → s.Passed account

/-- What a packet takes from the database for an account comes after its password was checked. -/
def AfterCheck (s : Session) (e : Event DcPacket) : Prop :=
  s.client.disconnected = false →
    match e.packet with
    | .ntelogin8a dcId =>
        e.db.fails .clients = false →
          ∀ gc, e.db.nteClients dcId s.client.serial s.client.accessKey = some gc →
            PlainLogin s e.db gc false
    | .ntelogin8b dcId serial accessKey =>
        e.db.fails .clients = false →
          ∀ gc, e.db.nteClients dcId serial accessKey = some gc → PlainLogin s e.db gc true
    | .login3 dcId serial accessKey =>
        e.db.fails .clients = false →
          ∀ gc, e.db.dreamcastClients dcId serial accessKey = some gc → PlainLogin s e.db gc true
    | .logina dcId serial accessKey =>
        e.db.fails .ipBans = false → e.db.ipBanned = false → e.db.fails .clients = false →
          ∀ gc, (if s.client.type ≠ .pc then e.db.dreamcastClients dcId serial accessKey
            else e.db.pcClients serial accessKey) = some gc → PlainLogin s e.db gc false
    | .gchlcheck _ serial accessKey =>
        e.db.fails .ipBans = false → e.db.ipBanned = false → e.db.fails .clients = false →
          ∀ gc, e.db.gamecubeClients serial accessKey = some gc → Admitted e.db gc →
            e.db.fails .account = false → e.db.fails .accountData = false →
              ∀ account, e.db.owner gc = some account → e.db.Privileged account → s.Passed account
    | .gclogine serial accessKey =>
        e.db.fails .clients = false →
          ∀ gc, e.db.gamecubeClients serial accessKey = some gc → gc ≠ 0 →
            ∀ account, e.db.owner gc = some account → s.Passed account
    | .logind =>
        s.client.guildcard ≠ 0 → ∀ account, s.client.cardOf = some account → s.Passed account
    | _ => True

/-! ## What handlers do -/

section Results

variable {s : Session} {c : Client} {r : Result} {past : List Act} {db : Database}
  {sent error : Int} {gc : Nat}

/-- Privileges are set where the history says so. -/
def Tracks (c : Client) (r : Result) : Prop :=
  (r.client.isGm = c.isGm ∧ r.client.gmOf = c.gmOf) ∨
    ∃ account, r.client.gmOf = some account ∧ .privileged account r.client.isGm ∈ r.acts

/-- What is done for a client whose privileges are earned is earned if the acts are justified. -/
theorem Session.Earned.apply_iff (h : s.Earned) (htracks : Tracks s.client r) :
    (s.apply r).Earned ↔ Each Justified s.history r.acts := by
  constructor
  · intro hearned
    exact (History.each_append.mp hearned.acts).2
  · intro hacts
    refine ⟨History.each_append.mpr ⟨h.acts, hacts⟩, fun hgm => ?_⟩
    rcases htracks with ⟨hsame, hof⟩ | ⟨account, hof, hmem⟩
    · have hold : s.client.isGm ≠ 0 := fun hzero => hgm (hsame.trans hzero)
      rcases h.gm hold with ⟨a, ha, hpassed⟩
      exact ⟨a, hof.trans ha, List.mem_append_left _ hpassed⟩
    · obtain ⟨front, back, heq⟩ := List.append_of_mem hmem
      rw [heq] at hacts
      have hchecked : Act.checked account ∈ s.history ++ front := hacts.at hgm
      refine ⟨account, hof, ?_⟩
      show _ ∈ s.history ++ r.acts
      rw [heq, ← List.append_assoc]
      exact List.mem_append_left _ hchecked

theorem tracks_quiet (rv : Int) : Tracks c (c.quiet rv) := .inl ⟨rfl, rfl⟩

/-- Looking the privileges up keeps track of them. -/
theorem tracks_checkGm (c : Client) (gc : Nat) (acts : List Act) (rv : Int) :
    Tracks c ⟨(checkGm db c gc).1, (checkGm db c gc).2 ++ acts, rv⟩ := by
  unfold checkGm
  cases db.joined gc with
  | none => exact .inl ⟨rfl, rfl⟩
  | some found => exact .inr ⟨found.1, rfl, List.mem_cons_self⟩

theorem refused_eq_none_iff {banned online : Int} :
    refused db gc error banned online = none ↔ Admitted db gc := by
  unfold refused
  constructor
  · intro h
    split_ifs at h with hbans hbanned hclients honline
    exact ⟨by simpa using hbans, by simpa using hbanned, by simpa using hclients,
      by simpa using honline⟩
  · intro h
    rw [h.bans, h.banned, h.clients, h.online]
    rfl

/-- A login goes on with a guild card that is admitted. -/
theorem finishLogin_admitted {last : Client × List Act → Result} (hadmitted : Admitted db gc)
    (hfails : db.fails .privileges = false) :
    finishLogin db c gc error last = last (checkGm db c gc) := by
  unfold finishLogin
  rw [refused_eq_none_iff.mpr hadmitted, hfails]
  rfl

/-- Otherwise it does nothing. -/
theorem finishLogin_refused {last : Client × List Act → Result}
    (h : ¬(Admitted db gc ∧ db.fails .privileges = false)) :
    ∃ rv, finishLogin db c gc error last = c.quiet rv := by
  unfold finishLogin
  cases hrefused : refused db gc error (-1) (-1) with
  | some rv => exact ⟨rv, rfl⟩
  | none =>
      have hfails : db.fails .privileges = true :=
        eq_true_of_ne_false fun hfails => h ⟨refused_eq_none_iff.mp hrefused, hfails⟩
      exact ⟨error, if_pos hfails⟩

end Results

/-! ## Packets of a Gamecube -/

section Dc

variable {s : Session} {r : Result} {db : Database} {sent error : Int} {gc : Nat} {P Q : Prop}

/-- A handler keeps track of the privileges, and what it does is justified under a condition. -/
structure Sound (s : Session) (r : Result) (P : Prop) : Prop where
  tracks : Tracks s.client r
  acts : Each Justified s.history r.acts ↔ P

theorem Sound.earned_iff (h : Sound s r P) (hs : s.Earned) : (s.apply r).Earned ↔ P :=
  (hs.apply_iff h.tracks).trans h.acts

/-- A handler that does nothing needs no condition. -/
theorem sound_quiet (rv : Int) (hP : P) : Sound s (s.client.quiet rv) P where
  tracks := tracks_quiet rv
  acts := iff_of_true trivial hP

/-- Looking the privileges up takes those of the account, if it has any. -/
theorem each_checkGm (c : Client) (gc : Nat) :
    Each Justified s.history (checkGm db c gc).2 ↔
      ∀ account, db.owner gc = some account → db.Privileged account → s.Passed account := by
  unfold checkGm Database.joined Database.Privileged
  cases howner : db.owner gc with
  | none => exact iff_of_true trivial fun account h => by cases h
  | some account =>
      rw [Option.bind_some]
      cases hrow : db.accounts account with
      | none =>
          refine iff_of_true trivial fun a ha => ?_
          rintro ⟨row, hfound, -⟩
          rw [← Option.some.inj ha, hrow] at hfound
          cases hfound
      | some row =>
          rw [Option.map_some]
          dsimp only
          rw [History.each_singleton]
          constructor
          · intro h a ha
            rintro ⟨row', hfound, hlevel⟩
            rw [← Option.some.inj ha, hrow] at hfound
            rw [← Option.some.inj ha]
            rw [← Option.some.inj hfound] at hlevel
            exact h hlevel
          · intro h hlevel
            exact h account rfl ⟨row, hrow, hlevel⟩

/-- Looking the privileges up checks no password. -/
theorem checked_checkGm {c : Client} {account : Nat} :
    Act.checked account ∉ (checkGm db c gc).2 := by
  unfold checkGm
  cases db.joined gc with
  | none => exact List.not_mem_nil
  | some found =>
      intro h
      cases List.mem_singleton.mp h

/-- A guild card that is sent is that of an account whose password was checked. -/
theorem justified_security_iff {acts : List Act} (hacts : ∀ a, Act.checked a ∉ acts) :
    Justified (s.history ++ acts) (.security gc (db.owner gc)) ↔
      (gc ≠ 0 → ∀ account, db.owner gc = some account → s.Passed account) := by
  have hpast : ∀ account, Act.checked account ∈ s.history ++ acts ↔ s.Passed account := by
    intro account
    rw [List.mem_append]
    exact or_iff_left (hacts account)
  constructor
  · exact fun h hsome account howner => (hpast account).mp (h hsome account howner)
  · exact fun h hsome account howner => (hpast account).mpr (h hsome account howner)

/-- The security packet with which some logins end. -/
def cardActs (db : Database) (gc : Nat) (card : Bool) : List Act :=
  if card then [.security gc (db.owner gc)] else []

/-- A login without a password is justified when the password was checked, or nothing is taken
from the account. -/
theorem sound_finishLogin (card : Bool) {last : Client × List Act → Result}
    (hgm : ∀ r, (last r).client.isGm = r.1.isGm ∧ (last r).client.gmOf = r.1.gmOf)
    (hacts : ∀ r, (last r).acts = r.2 ++ cardActs db gc card) :
    Sound s (finishLogin db s.client gc error last) (PlainLogin s db gc card) := by
  by_cases hgoes : Admitted db gc ∧ db.fails .privileges = false
  · rw [finishLogin_admitted hgoes.1 hgoes.2]
    have hgmLast := hgm (checkGm db s.client gc)
    have hactsLast := hacts (checkGm db s.client gc)
    constructor
    · unfold Tracks
      rw [hgmLast.1, hgmLast.2, hactsLast]
      exact tracks_checkGm s.client gc _ 0
    · rw [hactsLast, History.each_append, each_checkGm]
      constructor
      · rintro ⟨hlevel, hcard⟩ - - account howner (hprivileged | ⟨rfl, hsome⟩)
        · exact hlevel account howner hprivileged
        · exact (justified_security_iff fun _ => checked_checkGm).mp hcard.1 hsome account howner
      · intro h
        have hplain := h hgoes.1 hgoes.2
        refine ⟨fun account howner hlevel => hplain account howner (.inl hlevel), ?_⟩
        cases card with
        | false => trivial
        | true =>
            refine ⟨(justified_security_iff fun _ => checked_checkGm).mpr ?_, trivial⟩
            exact fun hsome account howner => hplain account howner (.inr ⟨rfl, hsome⟩)
  · obtain ⟨rv, heq⟩ := @finishLogin_refused s.client db error gc last hgoes
    rw [heq]
    exact sound_quiet rv fun hadmitted hfails => absurd ⟨hadmitted, hfails⟩ hgoes

/-- A guild card that was just assigned has no account. -/
theorem owner_insertGuildcard (db : Database) : db.insertGuildcard.owner db.insertId = none := by
  unfold Database.owner Database.insertGuildcard
  dsimp only
  rw [Function.update_self]
  rfl

/-- The login of a client that was not seen before takes nothing from an account. -/
theorem sound_assigned (card : Bool) {last : Nat → Database → Client × List Act → Result}
    {rv : Int}
    (hgm : ∀ gc db r,
      (last gc db r).client.isGm = r.1.isGm ∧ (last gc db r).client.gmOf = r.1.gmOf)
    (hacts : ∀ gc db r, (last gc db r).acts = r.2 ++ cardActs db gc card)
    (hP : P) :
    Sound s
      (match assignGuildcard db with
      | none => s.client.quiet rv
      | some (gc, db) => finishLogin db s.client gc error (last gc db)) P := by
  unfold assignGuildcard
  split_ifs
  · exact sound_quiet rv hP
  · exact sound_quiet rv hP
  · dsimp only
    have hsound := @sound_finishLogin s db.insertGuildcard error db.insertId card _
      (hgm db.insertId db.insertGuildcard) (hacts db.insertId db.insertGuildcard)
    refine ⟨hsound.tracks, iff_of_true (hsound.acts.mpr ?_) hP⟩
    intro _ _ account howner
    rw [owner_insertGuildcard] at howner
    cases howner

/-- A handler that looked nothing up. -/
theorem sound_of_query {q : Query} {c : Client} {rv : Int} (hquiet : Sound s (c.quiet rv) True)
    (hgoes : db.fails q = false → Sound s r P) :
    Sound s (if db.fails q then c.quiet rv else r) (db.fails q = false → P) := by
  cases hfails : db.fails q with
  | true => exact ⟨hquiet.tracks, iff_of_true trivial nofun⟩
  | false =>
      have hsound := hgoes hfails
      exact ⟨hsound.tracks, hsound.acts.trans ⟨fun h _ => h, fun h => h rfl⟩⟩

/-- What holds of the guild card that was found holds of all that were. -/
theorem Sound.found {P : Nat → Prop} (h : Sound s r (P gc)) :
    Sound s r (∀ gc', some gc = some gc' → P gc') :=
  ⟨h.tracks, h.acts.trans ⟨fun hP _ heq => Option.some.inj heq ▸ hP, fun hall => hall gc rfl⟩⟩

theorem Sound.given (hQ : Q) (h : Sound s r P) : Sound s r (Q → P) :=
  ⟨h.tracks, h.acts.trans ⟨fun hP _ => hP, fun hall => hall hQ⟩⟩

theorem sound_unless {p : Prop} [Decidable p] {rv : Int} (h : Sound s r True) :
    Sound s (if p then s.client.quiet rv else r) True := by
  split_ifs
  · exact sound_quiet rv trivial
  · exact h

theorem sound_ntelogin (serial accessKey : List UInt8) :
    Sound s (handleNtelogin db sent s.client serial accessKey) True := by
  unfold handleNtelogin
  split_ifs <;> exact ⟨.inl ⟨rfl, rfl⟩, Iff.rfl⟩

theorem sound_ntelogin8a (dcId : List UInt8) :
    Sound s (handleNtelogin8a db sent s.client dcId)
      (db.fails .clients = false →
        ∀ gc, db.nteClients dcId s.client.serial s.client.accessKey = some gc →
          PlainLogin s db gc false) := by
  apply sound_of_query (sound_quiet (-1) trivial)
  intro _
  cases db.nteClients dcId s.client.serial s.client.accessKey with
  | some gc =>
      apply Sound.found
      exact sound_finishLogin false (fun _ => ⟨rfl, rfl⟩) fun r => (List.append_nil r.2).symm
  | none =>
      apply sound_assigned false (fun _ _ _ => ⟨rfl, rfl⟩) fun _ _ r => (List.append_nil r.2).symm
      nofun

theorem sound_ntelogin8b (dcId serial accessKey : List UInt8) :
    Sound s (handleNtelogin8b db sent s.client dcId serial accessKey)
      (db.fails .clients = false →
        ∀ gc, db.nteClients dcId serial accessKey = some gc → PlainLogin s db gc true) := by
  apply sound_of_query (sound_quiet (-1) trivial)
  intro _
  cases db.nteClients dcId serial accessKey with
  | some gc =>
      apply Sound.found
      exact sound_finishLogin true (fun _ => ⟨rfl, rfl⟩) fun _ => rfl
  | none =>
      apply sound_quiet
      nofun

theorem sound_login0 : Sound s (handleLogin0 db sent s.client) True := by
  unfold handleLogin0
  split_ifs <;> exact sound_quiet _ trivial

theorem sound_login3 (dcId serial accessKey : List UInt8) :
    Sound s (handleLogin3 db sent s.client dcId serial accessKey)
      (db.fails .clients = false →
        ∀ gc, db.dreamcastClients dcId serial accessKey = some gc → PlainLogin s db gc true) := by
  apply sound_of_query (sound_quiet (-1) trivial)
  intro _
  cases db.dreamcastClients dcId serial accessKey with
  | some gc =>
      apply Sound.found
      exact sound_finishLogin true (fun _ => ⟨rfl, rfl⟩) fun _ => rfl
  | none =>
      apply sound_assigned true (fun _ _ _ => ⟨rfl, rfl⟩) fun _ _ _ => rfl
      nofun

/-- A client that comes from an address that is banned gets nothing. -/
theorem sound_of_ban {c : Client} {rv : Int} (hquiet : Sound s (c.quiet rv) True)
    (hgoes : Sound s r P) :
    Sound s (if db.ipBanned then c.quiet rv else r) (db.ipBanned = false → P) := by
  cases db.ipBanned with
  | true => exact ⟨hquiet.tracks, iff_of_true trivial nofun⟩
  | false => exact ⟨hgoes.tracks, hgoes.acts.trans ⟨fun h _ => h, fun h => h rfl⟩⟩

theorem sound_logina (dcId serial accessKey : List UInt8) :
    Sound s (handleLogina db sent s.client dcId serial accessKey)
      (db.fails .ipBans = false → db.ipBanned = false → db.fails .clients = false →
        ∀ gc, (if s.client.type ≠ .pc then db.dreamcastClients dcId serial accessKey
          else db.pcClients serial accessKey) = some gc → PlainLogin s db gc false) := by
  apply sound_of_query (sound_quiet sent trivial)
  intro _
  apply sound_of_ban (sound_quiet (-1) trivial)
  apply sound_of_query (sound_quiet sent trivial)
  intro _
  cases (if s.client.type ≠ .pc then db.dreamcastClients dcId serial accessKey
    else db.pcClients serial accessKey) with
  | some gc =>
      apply Sound.found
      exact sound_finishLogin false (fun _ => ⟨rfl, rfl⟩) fun r => (List.append_nil r.2).symm
  | none =>
      dsimp only
      split_ifs
      · apply sound_quiet
        nofun
      · apply sound_assigned false (fun _ _ _ => ⟨rfl, rfl⟩) fun _ _ r =>
          (List.append_nil r.2).symm
        nofun

/-- The license of a Gamecube gives it the privileges of its account. -/
theorem sound_gchlcheck (version : UInt8) (serial accessKey : List UInt8) :
    Sound s (handleGchlcheck db sent s.client version serial accessKey)
      (db.fails .ipBans = false → db.ipBanned = false → db.fails .clients = false →
        ∀ gc, db.gamecubeClients serial accessKey = some gc → Admitted db gc →
          db.fails .account = false → db.fails .accountData = false →
            ∀ account, db.owner gc = some account → db.Privileged account → s.Passed account) := by
  have hsame : ∀ rv, Sound s
      ({ s.client with type := versionType s.client.type version }.quiet rv) True :=
    fun rv => ⟨.inl ⟨rfl, rfl⟩, Iff.rfl⟩
  apply sound_of_query (hsame sent)
  intro _
  apply sound_of_ban (hsame sent)
  apply sound_of_query (hsame sent)
  intro _
  cases db.gamecubeClients serial accessKey with
  | none => exact ⟨(hsame sent).tracks, iff_of_true trivial nofun⟩
  | some gc =>
      apply Sound.found
      dsimp only
      cases hrefused : refused db gc sent sent (-1) with
      | some rv =>
          refine ⟨(hsame rv).tracks, iff_of_true trivial fun hadmitted => ?_⟩
          rw [refused_eq_none_iff.mpr hadmitted] at hrefused
          cases hrefused
      | none =>
          have hadmitted := refused_eq_none_iff.mp hrefused
          apply Sound.given hadmitted
          apply sound_of_query (hsame sent)
          intro _
          cases hcard : db.guildcards gc with
          | none =>
              have howner : db.owner gc = none := by rw [Database.owner, hcard]; rfl
              refine ⟨(hsame sent).tracks, iff_of_true trivial fun _ account h => ?_⟩
              rw [howner] at h
              cases h
          | some card =>
              have howner : db.owner gc = card := by rw [Database.owner, hcard]; rfl
              rw [howner]
              cases card with
              | none => exact ⟨(hsame (-1)).tracks, iff_of_true trivial fun _ _ => nofun⟩
              | some account =>
                  apply sound_of_query (hsame sent)
                  intro _
                  apply Sound.found
                  cases hrow : db.accounts account with
                  | none =>
                      refine ⟨(hsame sent).tracks, iff_of_true trivial ?_⟩
                      rintro ⟨row, hfound, -⟩
                      rw [hrow] at hfound
                      cases hfound
                  | some row =>
                      refine ⟨.inr ⟨account, rfl, List.mem_singleton_self _⟩, ?_⟩
                      rw [History.each_singleton]
                      constructor
                      · rintro h ⟨row', hfound, hlevel⟩
                        rw [hrow] at hfound
                        rw [← Option.some.inj hfound] at hlevel
                        exact h hlevel
                      · exact fun h hlevel => h ⟨row, hrow, hlevel⟩

theorem sound_gcloginc (md5 : String → String) (serial accessKey : List UInt8)
    (password : String) :
    Sound s (handleGcloginc db sent md5 s.client serial accessKey password) True := by
  have hquiet : ∀ rv, Sound s (s.client.quiet rv) True := fun rv => sound_quiet rv trivial
  unfold handleGcloginc
  apply sound_unless
  cases db.gamecubeClients serial accessKey with
  | none => exact hquiet (-1)
  | some gc =>
      apply sound_unless
      rcases db.guildcards gc with _ | _ | account
      · exact hquiet (-1)
      · exact hquiet (-1)
      · apply sound_unless
        cases db.accounts account with
        | none => exact hquiet (-1)
        | some row =>
            dsimp only
            split_ifs
            · exact ⟨.inl ⟨rfl, rfl⟩, iff_of_true ⟨trivial, trivial⟩ trivial⟩
            · exact hquiet sent

theorem sound_gclogine (serial accessKey : List UInt8) :
    Sound s (handleGclogine db sent s.client serial accessKey)
      (db.fails .clients = false →
        ∀ gc, db.gamecubeClients serial accessKey = some gc → gc ≠ 0 →
          ∀ account, db.owner gc = some account → s.Passed account) := by
  apply sound_of_query (sound_quiet (-1) trivial)
  intro _
  cases db.gamecubeClients serial accessKey with
  | none =>
      apply sound_quiet
      nofun
  | some gc =>
      apply Sound.found
      exact ⟨.inl ⟨rfl, rfl⟩, History.each_singleton⟩

theorem sound_logind :
    Sound s (handleLogind sent s.client)
      (s.client.guildcard ≠ 0 → ∀ account, s.client.cardOf = some account → s.Passed account) :=
  ⟨.inl ⟨rfl, rfl⟩, History.each_singleton⟩

/-- A client that is a Game Master has earned it. -/
theorem sound_shipSelect (hs : s.Earned) (menuId itemId : BitVec 32) (other : Int) :
    Sound s (handleShipSelect sent s.client menuId itemId other) True := by
  have hquiet : ∀ rv, Sound s (s.client.quiet rv) True := fun rv => sound_quiet rv trivial
  have hgm : s.client.isGlobalGm = true → s.client.isGm ≠ 0 := by
    intro h hzero
    rw [Client.isGlobalGm, hzero] at h
    exact absurd h (by decide)
  have hoperation : ∀ op, s.client.isGlobalGm = true →
      Sound s ⟨s.client, [.operation op s.client.gmOf], sendGmMenu sent s.client⟩ True :=
    fun op h => ⟨.inl ⟨rfl, rfl⟩, iff_of_true ⟨hs.gm (hgm h), trivial⟩ trivial⟩
  unfold handleShipSelect
  split_ifs with hmenu
  · unfold handleGmSelect
    cases hglobal : s.client.isGlobalGm with
    | false => exact hquiet (-1)
    | true =>
        rw [if_neg (by decide)]
        split_ifs <;> first
          | exact hquiet _
          | exact hoperation _ hglobal
  · exact hquiet other

/-- A packet of a Gamecube is justified if what it takes for an account comes after the check. -/
theorem Session.Earned.dcNext_iff (h : s.Earned) (md5 : String → String) (e : Event DcPacket) :
    (s.dcNext md5 e).Earned ↔ AfterCheck s e := by
  unfold Session.dcNext AfterCheck
  cases hdone : s.client.disconnected with
  | true => exact iff_of_true h nofun
  | false =>
      rw [if_neg Bool.false_ne_true, forall_prop_of_true rfl]
      cases e.packet with
      | ntelogin serial accessKey => exact (sound_ntelogin serial accessKey).earned_iff h
      | ntelogin8a dcId => exact (sound_ntelogin8a dcId).earned_iff h
      | ntelogin8b dcId serial accessKey =>
          exact (sound_ntelogin8b dcId serial accessKey).earned_iff h
      | login0 => exact sound_login0.earned_iff h
      | login3 dcId serial accessKey => exact (sound_login3 dcId serial accessKey).earned_iff h
      | logina dcId serial accessKey => exact (sound_logina dcId serial accessKey).earned_iff h
      | gchlcheck version serial accessKey =>
          exact (sound_gchlcheck version serial accessKey).earned_iff h
      | gcloginc serial accessKey password =>
          exact (sound_gcloginc md5 serial accessKey password).earned_iff h
      | gclogine serial accessKey => exact (sound_gclogine serial accessKey).earned_iff h
      | logind => exact sound_logind.earned_iff h
      | shipSelect menuId itemId other =>
          exact (sound_shipSelect h menuId itemId other).earned_iff h
      | type05 => exact iff_of_true ((h.apply_iff (.inl ⟨rfl, rfl⟩)).mpr trivial) trivial
      | other rv => exact (sound_quiet rv trivial).earned_iff h

end Dc

/-! ## Packets of Blue Burst -/

section Bb

variable {s : Session} {db : Database} {sent : Int}

/-- A session whose guild card is that of an account whose password was checked, too. -/
structure Session.Known (s : Session) : Prop where
  earned : s.Earned
  card : ∀ account, s.client.cardOf = some account → s.Passed account

/-- A handler of a session of Blue Burst that leaves it known. -/
structure Keeps (s : Session) (r : Result) : Prop where
  tracks : Tracks s.client r
  acts : Each Justified s.history r.acts
  card : ∀ account, r.client.cardOf = some account →
    s.client.cardOf = some account ∨ .checked account ∈ r.acts

theorem Session.Known.apply (h : s.Known) {r : Result} (hkeeps : Keeps s r) :
    (s.apply r).Known := by
  refine ⟨(h.earned.apply_iff hkeeps.tracks).mpr hkeeps.acts, fun account hcard => ?_⟩
  rcases hkeeps.card account hcard with hold | hnew
  · exact List.mem_append_left _ (h.card account hold)
  · exact List.mem_append_right _ hnew

/-- A handler that changes neither privileges nor guild card. -/
theorem keeps_acts {acts : List Act} {rv : Int} (h : Each Justified s.history acts) :
    Keeps s ⟨s.client, acts, rv⟩ :=
  ⟨.inl ⟨rfl, rfl⟩, h, fun _ hcard => .inl hcard⟩

/-- A security packet without a guild card needs no account. -/
theorem justified_none (past : List Act) : Justified past (.security 0 none) :=
  fun h => absurd rfl h

/-- The guild card of an account whose password was just checked may be sent. -/
theorem justified_own {past : List Act} {gc account : Nat} (h : .checked account ∈ past) :
    Justified past (.security gc (some account)) := by
  intro _ a ha
  rw [← Option.some.inj ha]
  exact h

theorem keeps_bbLogin (sha256 : String → List UInt8) (username password : String) :
    Keeps s (handleBbLogin db sent sha256 s.client username password) := by
  unfold handleBbLogin
  cases findAccount db sha256 username password with
  | error rv => exact keeps_acts ⟨justified_none _, trivial⟩
  | ok row =>
      have hchecked : Act.checked row.accountId ∈ s.history ++ [.checked row.accountId] :=
        List.mem_append_right _ (List.mem_singleton_self _)
      dsimp only
      split
      · exact keeps_acts ⟨trivial, justified_none _, trivial⟩
      · exact keeps_acts ⟨trivial, justified_own hchecked, trivial⟩

/-- The login of Blue Burst sets the privileges of an account after its password was checked. -/
theorem keeps_bbCharacterLogin (sha256 : String → List UInt8) (username password : String)
    (magic : BitVec 32) (last : Int) :
    Keeps s (handleBbCharacterLogin db sent sha256 s.client username password magic last) := by
  unfold handleBbCharacterLogin
  cases findAccount db sha256 username password with
  | error rv => exact keeps_acts ⟨justified_none _, trivial⟩
  | ok row =>
      have hfirst : Act.checked row.accountId ∈ s.history ++ [.checked row.accountId] :=
        List.mem_append_right _ (List.mem_singleton_self _)
      have hprivileged : ∀ level, Justified (s.history ++ [.checked row.accountId])
          (.privileged row.accountId level) := fun _ _ => hfirst
      have hsecond : ∀ level, Act.checked row.accountId ∈
          s.history ++ [.checked row.accountId] ++ [.privileged row.accountId level] :=
        fun _ => List.mem_append_left _ hfirst
      have hcard : ∀ account, some row.accountId = some account → ∀ acts,
          Act.checked account ∈ Act.checked row.accountId :: acts := by
        intro account haccount _
        rw [Option.some.inj haccount]
        exact List.mem_cons_self
      dsimp only
      split_ifs
      all_goals
        refine ⟨.inr ⟨row.accountId, rfl, List.mem_cons_of_mem _ List.mem_cons_self⟩, ?_,
          fun account haccount => .inr (hcard account haccount _)⟩
      · exact ⟨trivial, hprivileged _, justified_none _, trivial⟩
      · exact ⟨trivial, hprivileged _, justified_none _, trivial⟩
      · exact ⟨trivial, hprivileged _, justified_own (hsecond _), trivial⟩
      · exact ⟨trivial, hprivileged _, justified_own (hsecond _), trivial⟩

/-- The guild card of a session that is known may be sent. -/
theorem Session.Known.justified (h : s.Known) :
    Justified s.history (.security s.client.guildcard s.client.cardOf) :=
  fun _ account hcard => h.card account hcard

/-- A packet of Blue Burst leaves a session known. -/
theorem Session.Known.bbNext (h : s.Known) (sha256 : String → List UInt8) (e : Event BbPacket) :
    (s.bbNext sha256 e).Known := by
  have hquiet : ∀ rv, (s.apply (s.client.quiet rv)).Known := fun rv => h.apply (keeps_acts trivial)
  have hleave : (s.apply ({ s.client with disconnected := true }.quiet 0)).Known :=
    h.apply ⟨.inl ⟨rfl, rfl⟩, trivial, fun _ hcard => .inl hcard⟩
  have hsecurity : ∀ rv, (s.apply
      ⟨s.client, [.security s.client.guildcard s.client.cardOf], rv⟩).Known :=
    fun rv => h.apply (keeps_acts ⟨h.justified, trivial⟩)
  unfold Session.bbNext
  split_ifs
  · exact h
  · cases e.packet with
    | login username password magic last => exact h.apply (keeps_bbLogin sha256 username password)
    | type05 => exact hleave
    | charSelect slot preview other => exact hquiet (-1)
    | updateChar failed => exact hquiet (-1)
    | other rv => exact hquiet (-1)
  · cases e.packet with
    | login username password magic last =>
        exact h.apply (keeps_bbCharacterLogin sha256 username password magic last)
    | charSelect slot preview other =>
        show (s.apply (handleCharSelect e.db e.sent s.client slot preview other)).Known
        unfold handleCharSelect
        split_ifs
        · exact hquiet (-1)
        · exact hquiet (-2)
        · exact hquiet other
        · exact hsecurity (-4)
        · exact hsecurity e.sent
    | updateChar failed =>
        show (s.apply (handleUpdateChar e.sent s.client failed)).Known
        unfold handleUpdateChar
        cases failed with
        | some rv => exact hquiet rv
        | none => exact hsecurity _
    | type05 => exact hleave
    | other rv => exact hquiet rv

/-- A packet of Blue Burst is justified in each run. -/
theorem known_runs (sha256 : String → List UInt8) (h : s.Known) (events : List (Event BbPacket)) :
    (events.foldl (Session.bbNext sha256) s).Known := by
  induction events generalizing s with
  | nil => exact h
  | cons e events ih => exact ih (h.bbNext sha256 e)

end Bb

/-! ## Sessions -/

theorem earned_start (type : LoginType) : (Session.start type).Earned :=
  ⟨trivial, fun h => absurd rfl h⟩

theorem known_start (type : LoginType) : (Session.start type).Known :=
  ⟨earned_start type, nofun⟩

/-- The privileges of a Gamecube, and all that is done with them, follow the check of a password
if and only if its packets take nothing from an account before. Those of a Blue Burst client
always do. -/
theorem earned_runs_iff (md5 : String → String) (sha256 : String → List UInt8)
    (type : LoginType) :
    (∀ events : List (Event DcPacket),
      Run.Guarded (Session.dcNext md5) (fun s e => (s.dcNext md5 e).Earned) (.start type) events ↔
        Run.Guarded (Session.dcNext md5) AfterCheck (.start type) events) ∧
    ∀ events : List (Event BbPacket),
      (events.foldl (Session.bbNext sha256) (.start type)).Earned :=
  ⟨fun _ => Run.Guarded.congr (fun _ e h => h.dcNext_iff md5 e) (fun _ _ _ hnext => hnext)
      (earned_start type),
    fun events => (known_runs sha256 (known_start type) events).earned⟩

/-- A database with one account, that of a Game Master, who has one guild card. -/
def oneAccount : Database where
  fails _ := false
  ipBanned := false
  guildcardBanned _ := false
  online _ := false
  nteSeen _ _ := false
  nteClients _ _ _ := none
  dreamcastClients _ _ _ := none
  pcClients _ _ := none
  gamecubeClients _ _ := some 42
  blueburstClients _ := none
  guildcards gc := if gc = 42 then some (some 1) else none
  accounts account := if account = 1 then some ⟨"", "", 2⟩ else none
  insertId := 43

/-- Who sends the license of a Game Master, and no password, may use the menu. -/
theorem not_earned_runs : ¬∀ (md5 : String → String) (events : List (Event DcPacket)),
    Run.Guarded (Session.dcNext md5) (fun s e => (s.dcNext md5 e).Earned) (.start .gc) events := by
  intro hall
  have hrun := hall id [⟨oneAccount, 0, .gchlcheck 0x30 [] []⟩, ⟨oneAccount, 0, .shipSelect 7 0 0⟩]
  have hoperation := hrun.2.1.acts.2.1
  rcases hoperation with ⟨a, -, hchecked⟩
  cases List.mem_singleton.mp hchecked

end Sylverant.Login.Privileges
