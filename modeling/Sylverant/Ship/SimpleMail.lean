/-
# Simple mail

Mail between players on any ships, and the replies that the ships send for players who are away.
A ship hands a mail to a player of its own at once, with the reply going straight back. Other mail
goes to the shipgate, which passes it on to the ship of the player, and so does the reply to it:
it travels as mail.

The players stay where they are, and the shipgate knows where. A mail has a number, and a reply
how many mails it is away from the one that a player sent; the packets do not have these. Of the
text of a reply only the length counts.
-/

import Mathlib.Algebra.GroupWithZero.Nat
import Sylverant.Library.Channels
import Sylverant.Library.Run
import Sylverant.Ship.Version

namespace Sylverant.Ship.SimpleMail

open Channels (next?)

/-! ## Players -/

/-- The packets that mail travels in. -/
inductive MailKind
  | dc
  | pc
  | bb
deriving DecidableEq

/-- The fields of `ship_client_t` that mail depends on, but for the autoreply. -/
structure Client where
  guildcard : Nat
  version : Version
  protect : Bool
  stfu : Bool
  blacklist : Option (List Nat)
  ignoreList : List Nat
deriving DecidableEq

/-- `client_has_blacklisted` -/
def clientHasBlacklisted (c : Client) (gc : Nat) : Bool :=
  match c.blacklist with
  | none => false
  | some blacklist => gc ∈ blacklist

/-- `client_has_ignored` -/
def clientHasIgnored (c : Client) (gc : Nat) : Bool := gc ∈ c.ignoreList

def Client.blocks (c : Client) (gc : Nat) : Bool :=
  clientHasBlacklisted c gc || clientHasIgnored c gc

/-- The players that are online: the clients of each ship, block by block. -/
structure Players where
  ships : List (List Client)
  unique : (ships.flatten.map Client.guildcard).Nodup

/-- Look through all clients of a ship. -/
def Players.find (players : Players) (ship gc : Nat) : Option Client :=
  (players.ships.getD ship []).find? (·.guildcard = gc)

/-- `SELECT ship_id FROM online_clients` -/
def Players.shipOf (players : Players) (gc : Nat) : Option Nat :=
  players.ships.findIdx? fun clients => clients.any (·.guildcard = gc)

/-! ## Autoreplies -/

/-- The fields `autoreply_on`, and `autoreply_len` where `autoreply` is set. -/
structure Autoreply where
  on : Bool
  text : Option Nat
deriving DecidableEq

/-- `client_set_autoreply` -/
def clientSetAutoreply (version : Version) (len : UInt16) (a : Autoreply) : Autoreply :=
  match version with
  | .pc | .gc | .ep3 | .bb => ⟨true, some len.toNat⟩
  | .dcv1 | .dcv2 => { a with text := some len.toNat }

/-- `client_disable_autoreply` -/
def clientDisableAutoreply (version : Version) (a : Autoreply) : Autoreply :=
  match version with
  | .pc | .gc | .ep3 | .bb => { a with on := false }
  | .dcv1 | .dcv2 => a

/-- The packet of an autoreply, if there are any for a version. -/
def autoreplyKind : Version → Option MailKind
  | .pc => some .pc
  | .gc | .ep3 => some .dc
  | .bb => some .bb
  | .dcv1 | .dcv2 => none

/-- How much there is of a mail packet from where the text of an autoreply is copied to. -/
def room : Version → Nat
  | .pc => 0x400
  | .gc | .ep3 => 0x200
  | .bb => 0x158 + 0x2A0
  | .dcv1 | .dcv2 => 0

/-! ## Mail -/

/-- A mail, with who really sent it, its number, and how many replies there are up to it. -/
structure Mail where
  kind : MailKind
  gcSender : Nat
  gcDest : Nat
  sender : Nat
  number : Nat
  depth : Nat
deriving DecidableEq

/-- The channels between the ships and the shipgate. -/
inductive Channel
  | gate (ship : Nat)
  | ship (ship : Nat)
deriving DecidableEq

/-- A mail on its way. -/
structure Packet where
  channel : Channel
  mail : Mail

/-- What becomes of a mail: it is handed to a client, whose autoreply may be on, and a reply with a
text of some length is built. Or it is refused, saved as the player is not online, or lost. -/
inductive Act
  | handed (c : Client) (mail : Mail) (on : Bool) (reply : Option Nat)
  | refused (c : Client) (mail : Mail)
  | saved (mail : Mail)
  | lost (mail : Mail)

def Act.mail : Act → Mail
  | .handed _ mail _ _ => mail
  | .refused _ mail => mail
  | .saved mail => mail
  | .lost mail => mail

/-- The ships and the shipgate: the autoreplies of the players of each ship, the mail between them,
how many mails the players have sent, and what became of mail. -/
structure World where
  autoreply : Nat → Nat → Autoreply
  flying : List Packet
  sent : Nat
  acts : List Act

def World.start : World where
  autoreply _ _ := ⟨false, none⟩
  flying := []
  sent := 0
  acts := []

/-- Mail that players send, changes of their autoreplies, and the next packet that the shipgate or
a ship processes. -/
inductive Event
  | mail (ship gc gcSender gcDest : Nat)
  | setAutoreply (ship gc : Nat) (len : UInt16)
  | disableAutoreply (ship gc : Nat)
  | gate (ship : Nat)
  | ship (ship : Nat)

/-- The packet of `send_mail_autoreply` and `handle_mail_autoreply`, and the length of its text. -/
def buildAutoreply (c : Client) (a : Autoreply) (dest : Nat) (mail : Mail) :
    Option (Mail × Nat) :=
  match autoreplyKind c.version, a.text with
  | some kind, some len =>
      some (⟨kind, c.guildcard, dest, c.guildcard, mail.number, mail.depth + 1⟩, len)
  | _, _ => none

/-- The packet that a client sends mail in. -/
def mailKind : Version → MailKind
  | .pc => .pc
  | .bb => .bb
  | .dcv1 | .dcv2 | .gc | .ep3 => .dc

/-- Whether a ship replies to a mail from the shipgate: the handlers look at different fields. -/
def checksAutoreply (kind : MailKind) (a : Autoreply) : Bool :=
  match kind with
  | .dc => a.on
  | .pc | .bb => a.text.isSome

variable (players : Players)

/-- `dc_process_mail`, `pc_process_mail` and `bb_process_mail` -/
def processMail (w : World) (ship : Nat) (c : Client) (gcSender gcDest : Nat) : World :=
  if c.protect then w
  else if c.stfu then w
  else if gcDest = 1 then w
  else
    let mail : Mail := ⟨mailKind c.version, gcSender, gcDest, c.guildcard, w.sent, 0⟩
    match players.find ship gcDest with
    | some it =>
        if it.blocks c.guildcard then
          { w with sent := w.sent + 1, acts := w.acts ++ [.refused it mail] }
        else
          let a := w.autoreply ship it.guildcard
          let reply := if a.on then buildAutoreply it a c.guildcard mail else none
          { w with
            sent := w.sent + 1, acts := w.acts ++ [.handed it mail a.on (reply.map (·.2))] }
    | none => { w with sent := w.sent + 1, flying := w.flying ++ [⟨.gate ship, mail⟩] }

/-- `handle_dc_mail`, `handle_pc_mail` and `handle_bb_mail` of the shipgate -/
def gateMail (w : World) (mail : Mail) : World :=
  match players.shipOf mail.gcDest with
  | none => { w with acts := w.acts ++ [.saved mail] }
  | some ship => { w with flying := w.flying ++ [⟨.ship ship, mail⟩] }

/-- `handle_dc_mail`, `handle_pc_mail` and `handle_bb_mail` of a ship -/
def shipMail (w : World) (ship : Nat) (mail : Mail) : World :=
  match players.find ship mail.gcDest with
  | none => { w with acts := w.acts ++ [.lost mail] }
  | some c =>
      if c.blocks mail.gcSender then { w with acts := w.acts ++ [.refused c mail] }
      else
        let a := w.autoreply ship c.guildcard
        let reply :=
          if checksAutoreply mail.kind a then buildAutoreply c a mail.gcSender mail else none
        { w with
          flying := w.flying ++ (reply.toList.map fun r => ⟨.gate ship, r.1⟩)
          acts := w.acts ++ [.handed c mail a.on (reply.map (·.2))] }

/-- Change the autoreply of a player. -/
def World.change (w : World) (ship gc : Nat) (f : Version → Autoreply → Autoreply) : World :=
  match players.find ship gc with
  | none => w
  | some c =>
      { w with
        autoreply := Function.update w.autoreply ship
          (Function.update (w.autoreply ship) c.guildcard
            (f c.version (w.autoreply ship c.guildcard))) }

/-- The next event. -/
def World.next (w : World) : Event → World
  | .mail ship gc gcSender gcDest =>
      match players.find ship gc with
      | none => w
      | some c => processMail players w ship c gcSender gcDest
  | .setAutoreply ship gc len => w.change players ship gc (clientSetAutoreply · len)
  | .disableAutoreply ship gc => w.change players ship gc clientDisableAutoreply
  | .gate ship =>
      match next? (fun p : Packet => p.channel = .gate ship) w.flying with
      | none => w
      | some (p, rest) => gateMail players { w with flying := rest } p.mail
  | .ship ship =>
      match next? (fun p : Packet => p.channel = .ship ship) w.flying with
      | none => w
      | some (p, rest) => shipMail players { w with flying := rest } ship p.mail

/-! ## What is to hold -/

/-- What becomes of a mail is as it should be. A mail of a player is handed over, unless its sender
is blocked, and is replied to if and only if the autoreply of the player is on at that moment. A
reply is not replied to. The text of a reply fits into its packet. -/
def Act.Proper : Act → Prop
  | .handed c mail on reply =>
      c.guildcard = mail.gcDest ∧ (mail.depth = 0 → c.blocks mail.sender = false) ∧
        (reply.isSome = true ↔ mail.depth = 0 ∧ on = true) ∧
        ∀ len, reply = some len → len ≤ room c.version
  | .refused c mail =>
      c.guildcard = mail.gcDest ∧ (mail.depth = 0 → c.blocks mail.sender = true)
  | .saved mail => players.shipOf mail.gcDest = none
  | .lost _ => False

/-- A mail is the one that a player sent with a number, and no reply to it. -/
def Mail.isSent (number : Nat) (mail : Mail) : Bool := mail.number = number && mail.depth = 0

/-- How often a mail that a player sent is on its way, or something has become of it. -/
def World.copies (w : World) (number : Nat) : Nat :=
  w.flying.countP (fun p => p.mail.isSent number) + w.acts.countP (fun a => a.mail.isSent number)

/-- Each mail that a player sent is on its way once, or something has become of it, once; and what
became of mail is as it should be. -/
structure Kept (w : World) : Prop where
  once : ∀ number, w.copies number = if number < w.sent then 1 else 0
  proper : ∀ act ∈ w.acts, act.Proper players

/-- A client is not replied for when it is off: either the mail is one for which the switch is
looked at, or there is no text, or no autoreply for the version. -/
def Silent (c : Client) (a : Autoreply) (kind : MailKind) : Prop :=
  a.on = false ∧ (kind = .dc ∨ a.text = none ∨ autoreplyKind c.version = none)

/-- A text that fits into a mail packet. -/
def Fits (c : Client) (a : Autoreply) : Prop := ∀ len, a.text = some len → len ≤ room c.version

/-- A ship comes to a mail from the shipgate that is for a player: the player blocks its real
sender if it blocks the one that it names, a reply meets an autoreply that is silent, and a mail
of a player one that is silent or on, with a text that fits. -/
structure Meets (w : World) (ship : Nat) (mail : Mail) (c : Client) : Prop where
  named : mail.depth = 0 → c.blocks mail.sender = c.blocks mail.gcSender
  reply : c.blocks mail.gcSender = false → mail.depth ≠ 0 →
    Silent c (w.autoreply ship c.guildcard) mail.kind
  sent : c.blocks mail.gcSender = false → mail.depth = 0 →
    Silent c (w.autoreply ship c.guildcard) mail.kind ∨
      (w.autoreply ship c.guildcard).on = true ∧ Fits c (w.autoreply ship c.guildcard)

/-- A mail for a player of the same ship who is to be replied for meets a text that fits; a mail
from the shipgate meets the player as it should. -/
def Orderly (w : World) : Event → Prop
  | .mail ship gc _ gcDest =>
      ∀ c it, players.find ship gc = some c → c.protect = false → c.stfu = false → gcDest ≠ 1 →
        players.find ship gcDest = some it → it.blocks c.guildcard = false →
          (w.autoreply ship it.guildcard).on = true → Fits it (w.autoreply ship it.guildcard)
  | .ship ship =>
      ∀ p rest, next? (fun p : Packet => p.channel = .ship ship) w.flying = some (p, rest) →
        ∀ c, players.find ship p.mail.gcDest = some c → Meets w ship p.mail c
  | _ => True

/-! ## Players and their autoreplies -/

section Autoreplies

variable {players : Players} {ship gc : Nat} {c : Client} {a : Autoreply} {mail : Mail}

theorem guildcard_of_find (h : players.find ship gc = some c) : c.guildcard = gc := by
  have hfound := List.find?_some h
  exact of_decide_eq_true hfound

/-- The shipgate finds a player on the ship that has it. -/
theorem find_of_shipOf (h : players.shipOf gc = some ship) :
    ∃ c, players.find ship gc = some c := by
  rcases List.findIdx?_eq_some_iff_getElem.mp h with ⟨hlt, hany, -⟩
  rcases List.any_eq_true.mp hany with ⟨c, hmem, hc⟩
  have hships : players.ships.getD ship [] = players.ships[ship] := by
    rw [List.getD_eq_getElem?_getD, List.getElem?_eq_getElem hlt, Option.getD_some]
  cases hfind : players.find ship gc with
  | some c' => exact ⟨c', rfl⟩
  | none =>
      rw [Players.find, hships] at hfind
      exact absurd hc (List.find?_eq_none.mp hfind c hmem)

/-- An autoreply that is on is one that can be built. -/
def Ready (c : Client) (a : Autoreply) : Prop :=
  a.on = true → (autoreplyKind c.version).isSome = true ∧ a.text.isSome = true

theorem ready_set (c : Client) (len : UInt16) (h : Ready c a) :
    Ready c (clientSetAutoreply c.version len a) := by
  intro hon
  unfold Ready at h
  revert h hon
  unfold clientSetAutoreply
  cases c.version with
  | pc | gc | ep3 | bb => exact fun _ _ => ⟨rfl, rfl⟩
  | dcv1 | dcv2 => exact fun h hon => ⟨(h hon).1, rfl⟩

theorem ready_disable (c : Client) (h : Ready c a) :
    Ready c (clientDisableAutoreply c.version a) := by
  intro hon
  unfold Ready at h
  revert h hon
  unfold clientDisableAutoreply
  cases c.version with
  | pc | gc | ep3 | bb => exact fun _ hon => nomatch hon
  | dcv1 | dcv2 => exact fun h hon => h hon

/-- The reply to a mail from the shipgate. -/
def replyTo (c : Client) (a : Autoreply) (mail : Mail) : Option (Mail × Nat) :=
  if checksAutoreply mail.kind a then buildAutoreply c a mail.gcSender mail else none

theorem buildAutoreply_isSome {dest : Nat} :
    (buildAutoreply c a dest mail).isSome = true ↔
      (autoreplyKind c.version).isSome = true ∧ a.text.isSome = true := by
  unfold buildAutoreply
  cases autoreplyKind c.version with
  | none => exact iff_of_false nofun fun h => nomatch h.1
  | some kind =>
      cases a.text with
      | none => exact iff_of_false nofun fun h => nomatch h.2
      | some len => exact iff_of_true rfl ⟨rfl, rfl⟩

/-- The text of a reply is the one that was set, and the reply is one more away. -/
theorem buildAutoreply_eq_some {dest : Nat} {r : Mail × Nat}
    (h : buildAutoreply c a dest mail = some r) :
    a.text = some r.2 ∧ r.1.depth = mail.depth + 1 := by
  unfold buildAutoreply at h
  cases hkind : autoreplyKind c.version with
  | none =>
      rw [hkind] at h
      cases h
  | some kind =>
      cases htext : a.text with
      | none =>
          rw [hkind, htext] at h
          cases h
      | some len =>
          rw [hkind, htext] at h
          cases h
          exact ⟨rfl, rfl⟩

/-- A mail from the shipgate for a player whose autoreply is on is replied to. -/
theorem replyTo_of_on (hready : Ready c a) (hon : a.on = true) :
    (replyTo c a mail).isSome = true := by
  have hbuilt := hready hon
  have hchecks : checksAutoreply mail.kind a = true := by
    unfold checksAutoreply
    cases mail.kind with
    | dc => exact hon
    | pc | bb => exact hbuilt.2
  rw [replyTo, if_pos hchecks]
  exact buildAutoreply_isSome.mpr hbuilt

/-- It is not replied to just if the player is silent. -/
theorem replyTo_eq_none_iff (hready : Ready c a) :
    replyTo c a mail = none ↔ Silent c a mail.kind := by
  constructor
  · intro hnone
    have hoff : a.on = false := by
      apply eq_false_of_ne_true
      intro hon
      have hsome := @replyTo_of_on c a mail hready hon
      rw [hnone] at hsome
      cases hsome
    refine ⟨hoff, ?_⟩
    unfold replyTo at hnone
    by_cases hdc : mail.kind = .dc
    · exact .inl hdc
    · right
      by_cases htext : a.text = none
      · exact .inl htext
      · right
        have hchecks : checksAutoreply mail.kind a = true := by
          unfold checksAutoreply
          cases hkind : mail.kind with
          | dc => exact absurd hkind hdc
          | pc | bb => exact Option.isSome_iff_ne_none.mpr htext
        rw [if_pos hchecks] at hnone
        by_contra hversion
        have hsome := (@buildAutoreply_isSome c a mail mail.gcSender).mpr
          ⟨Option.isSome_iff_ne_none.mpr hversion, Option.isSome_iff_ne_none.mpr htext⟩
        rw [hnone] at hsome
        cases hsome
  · rintro ⟨hoff, hwhy⟩
    unfold replyTo
    split
    · rename_i hchecks
      rcases hwhy with hdc | htext | hversion
      · rw [hdc] at hchecks
        exact absurd (hchecks.symm.trans hoff) (by decide)
      · rw [buildAutoreply, htext]
        cases autoreplyKind c.version <;> rfl
      · rw [buildAutoreply, hversion]
    · rfl

theorem text_of_replyTo {r : Mail × Nat} (h : replyTo c a mail = some r) :
    a.text = some r.2 ∧ r.1.depth = mail.depth + 1 := by
  unfold replyTo at h
  split at h
  · exact buildAutoreply_eq_some h
  · cases h

end Autoreplies

/-! ## What becomes of a mail -/

section Acts

variable {players : Players} {w : World} {ship : Nat} {c : Client} {mail : Mail}

/-- The length of a reply is proper if the text fits. -/
theorem fits_of_reply {a : Autoreply} {reply : Option (Mail × Nat)}
    (hreply : ∀ r, reply = some r → a.text = some r.2) (hfits : Fits c a) (len : Nat)
    (h : reply.map (·.2) = some len) : len ≤ room c.version := by
  rcases Option.map_eq_some_iff.mp h with ⟨r, hr, rfl⟩
  exact hfits _ (hreply r hr)

/-- A mail from the shipgate that is refused is refused properly if its sender is blocked. -/
theorem proper_refused_iff (hfound : c.guildcard = mail.gcDest)
    (hblocks : c.blocks mail.gcSender = true) :
    (Act.refused c mail).Proper players ↔ Meets w ship mail c := by
  constructor
  · rintro ⟨-, hsender⟩
    refine ⟨fun hdepth => (hsender hdepth).trans hblocks.symm, fun hopen => ?_, fun hopen => ?_⟩
    · rw [hblocks] at hopen
      cases hopen
    · rw [hblocks] at hopen
      cases hopen
  · exact fun hmeets => ⟨hfound, fun hdepth => (hmeets.named hdepth).trans hblocks⟩

/-- A mail from the shipgate is handed over properly if the player meets it as it should. -/
theorem proper_handed_iff (hready : Ready c (w.autoreply ship c.guildcard))
    (hfound : c.guildcard = mail.gcDest) (hblocks : c.blocks mail.gcSender = false) :
    (Act.handed c mail (w.autoreply ship c.guildcard).on
        ((replyTo c (w.autoreply ship c.guildcard) mail).map (·.2))).Proper players ↔
      Meets w ship mail c := by
  have hsilent := @replyTo_eq_none_iff c _ mail hready
  have hreplies := @replyTo_of_on c _ mail hready
  have htext := fun r => @text_of_replyTo c (w.autoreply ship c.guildcard) mail r
  have hnone : ∀ {len}, Silent c (w.autoreply ship c.guildcard) mail.kind →
      (replyTo c (w.autoreply ship c.guildcard) mail).map (·.2) ≠ some len := by
    intro len hs hsome
    rw [hsilent.mpr hs] at hsome
    cases hsome
  constructor
  · rintro ⟨-, hsender, hiff, hfits⟩
    rw [Option.isSome_map] at hiff
    refine ⟨fun hdepth => (hsender hdepth).trans hblocks.symm, fun _ hdepth => ?_,
      fun _ hdepth => ?_⟩
    · apply hsilent.mp
      by_contra hne
      exact hdepth (hiff.mp (Option.isSome_iff_ne_none.mpr hne)).1
    · by_cases hon : (w.autoreply ship c.guildcard).on = true
      · right
        refine ⟨hon, fun len hlen => ?_⟩
        rcases Option.isSome_iff_exists.mp (hreplies hon) with ⟨r, hr⟩
        have hr2 : r.2 = len := Option.some.inj ((htext r hr).1.symm.trans hlen)
        apply hfits len
        rw [hr, ← hr2]
        rfl
      · left
        apply hsilent.mp
        by_contra hne
        exact hon (hiff.mp (Option.isSome_iff_ne_none.mpr hne)).2
  · intro h
    have hcases : ∀ len, (replyTo c (w.autoreply ship c.guildcard) mail).map (·.2) = some len →
        mail.depth = 0 ∧ (w.autoreply ship c.guildcard).on = true ∧
          Fits c (w.autoreply ship c.guildcard) := by
      intro len hlen
      by_cases hdepth : mail.depth = 0
      · rcases h.sent hblocks hdepth with hs | ⟨hon, hfits⟩
        · exact (hnone hs hlen).elim
        · exact ⟨hdepth, hon, hfits⟩
      · exact (hnone (h.reply hblocks hdepth) hlen).elim
    refine ⟨hfound, fun hdepth => (h.named hdepth).trans hblocks, ?_, ?_⟩
    · constructor
      · intro hsome
        rcases Option.isSome_iff_exists.mp hsome with ⟨len, hlen⟩
        rcases hcases len hlen with ⟨hdepth, hon, -⟩
        exact ⟨hdepth, hon⟩
      · rintro ⟨-, hon⟩
        rw [Option.isSome_map]
        exact hreplies hon
    · intro len hlen
      exact fits_of_reply (fun r hr => (htext r hr).1) (hcases len hlen).2.2 len hlen

/-- A mail for a player of the same ship is handed over properly if the text fits. -/
theorem proper_local_iff {it : Client} {dest : Nat}
    (hready : Ready it (w.autoreply ship it.guildcard))
    (hfound : it.guildcard = mail.gcDest) (hdepth : mail.depth = 0)
    (hblocks : it.blocks mail.sender = false) :
    (Act.handed it mail (w.autoreply ship it.guildcard).on
        ((if (w.autoreply ship it.guildcard).on then
          buildAutoreply it (w.autoreply ship it.guildcard) dest mail else none).map
            (·.2))).Proper players ↔
      ((w.autoreply ship it.guildcard).on = true → Fits it (w.autoreply ship it.guildcard)) := by
  cases hon : (w.autoreply ship it.guildcard).on with
  | false =>
      rw [if_neg Bool.false_ne_true]
      refine iff_of_true ⟨hfound, fun _ => hblocks, ?_, nofun⟩ nofun
      exact iff_of_false nofun fun h => (nomatch h.2)
  | true =>
      rw [if_pos rfl]
      have hbuilt := (@buildAutoreply_isSome it _ mail dest).mpr (hready hon)
      rcases Option.isSome_iff_exists.mp hbuilt with ⟨r, hr⟩
      have htext := (buildAutoreply_eq_some hr).1
      rw [hr]
      constructor
      · rintro ⟨-, -, -, hfits⟩ - len hlen
        exact hfits len (congrArg some (Option.some.inj (htext.symm.trans hlen)))
      · intro hfits
        refine ⟨hfound, fun _ => hblocks, iff_of_true rfl ⟨hdepth, rfl⟩, fun len hlen => ?_⟩
        rw [← Option.some.inj hlen]
        exact hfits rfl r.2 htext

end Acts

/-! ## Counting mail -/

section Counting

variable {players : Players} {w w' : World} {act : Act} {p : Packet} {rest : List Packet}

/-- What was sent is kept when something becomes of a mail, just if that is proper. -/
theorem Kept.act_iff (h : Kept players w) (act : Act) (hacts : w'.acts = w.acts ++ [act])
    (honce : ∀ number, w'.copies number = if number < w'.sent then 1 else 0) :
    Kept players w' ↔ act.Proper players := by
  constructor
  · intro hkept
    apply hkept.proper
    rw [hacts]
    exact List.mem_append_right _ (List.mem_singleton_self act)
  · intro hproper
    refine ⟨honce, fun act' hmem => ?_⟩
    rw [hacts] at hmem
    rcases List.mem_append.mp hmem with hold | hnew
    · exact h.proper act' hold
    · rw [List.mem_singleton.mp hnew]
      exact hproper

/-- It is kept when nothing becomes of any mail. -/
theorem Kept.same (h : Kept players w) (hacts : w'.acts = w.acts)
    (honce : ∀ number, w'.copies number = if number < w'.sent then 1 else 0) : Kept players w' :=
  ⟨honce, fun act hmem => h.proper act (hacts ▸ hmem)⟩

/-- When something becomes of a mail, it counts. -/
theorem copies_act (acts : List Act) (number : Nat) :
    (acts ++ [act]).countP (fun a => a.mail.isSent number) =
      acts.countP (fun a => a.mail.isSent number) + if act.mail.isSent number then 1 else 0 := by
  rw [List.countP_append, List.countP_singleton]

/-- When a mail is sent on, it counts. -/
theorem copies_packet (flying : List Packet) (number : Nat) :
    (flying ++ [p]).countP (fun p => p.mail.isSent number) =
      flying.countP (fun p => p.mail.isSent number) + if p.mail.isSent number then 1 else 0 := by
  rw [List.countP_append, List.countP_singleton]

/-- A mail that a player sends is the next one. -/
theorem Kept.once_sent (h : Kept players w) (mail : Mail) (hnumber : mail.number = w.sent)
    (hdepth : mail.depth = 0) (hsent : w'.sent = w.sent + 1)
    (hcopies : ∀ number,
      w'.copies number = w.copies number + if mail.isSent number then 1 else 0) :
    ∀ number, w'.copies number = if number < w'.sent then 1 else 0 := by
  intro number
  have hmail : mail.isSent number = decide (w.sent = number) := by
    rw [Mail.isSent, hnumber, hdepth]
    simp only [decide_true, Bool.and_true]
  rw [hcopies, h.once, hmail, hsent]
  simp only [decide_eq_true_eq]
  split_ifs <;> omega

/-- Nothing is sent when mail goes on its way. -/
theorem Kept.once_moved (h : Kept players w) (hsent : w'.sent = w.sent)
    (hcopies : ∀ number, w'.copies number = w.copies number) :
    ∀ number, w'.copies number = if number < w'.sent then 1 else 0 := by
  intro number
  rw [hcopies, h.once, hsent]

end Counting

/-! ## Steps -/

/-- What holds in all states of an orderly run, besides that mail is kept: mail that is on its way
to a ship is for one of its players, and the autoreplies that are on can be built. -/
structure Sound (players : Players) (w : World) : Prop where
  kept : Kept players w
  routed : ∀ p ∈ w.flying, ∀ ship, p.channel = .ship ship →
    ∃ c, players.find ship p.mail.gcDest = some c
  ready : ∀ ship gc c, players.find ship gc = some c → Ready c (w.autoreply ship c.guildcard)

section Steps

variable {players : Players} {w : World} {ship gc gcSender gcDest : Nat} {c : Client}
  {p : Packet} {rest : List Packet}

/-- A mail that a player sends is kept if the text of the reply fits. -/
theorem Sound.kept_processMail_iff (h : Sound players w) (hfound : players.find ship gc = some c) :
    Kept players (processMail players w ship c gcSender gcDest) ↔
      Orderly players w (.mail ship gc gcSender gcDest) := by
  have horderly : Orderly players w (.mail ship gc gcSender gcDest) ↔
      (c.protect = false → c.stfu = false → gcDest ≠ 1 → ∀ it,
        players.find ship gcDest = some it → it.blocks c.guildcard = false →
          (w.autoreply ship it.guildcard).on = true → Fits it (w.autoreply ship it.guildcard)) := by
    constructor
    · exact fun hall hprotect hstfu hbug it => hall c it hfound hprotect hstfu hbug
    · intro hall c' it hc hprotect hstfu hbug
      obtain rfl : c = c' := Option.some.inj (hfound.symm.trans hc)
      exact hall hprotect hstfu hbug it
  rw [horderly]
  unfold processMail
  cases hprotect : c.protect with
  | true => exact iff_of_true h.kept nofun
  | false =>
      cases hstfu : c.stfu with
      | true => exact iff_of_true h.kept fun _ => nofun
      | false =>
          rw [if_neg Bool.false_ne_true, if_neg Bool.false_ne_true]
          by_cases hbug : gcDest = 1
          · rw [if_pos hbug]
            exact iff_of_true h.kept fun _ _ hne => absurd hbug hne
          · rw [if_neg hbug]
            dsimp only
            cases hit : players.find ship gcDest with
            | none =>
                refine iff_of_true (h.kept.same rfl (h.kept.once_sent ⟨mailKind c.version, gcSender,
                  gcDest, c.guildcard, w.sent, 0⟩ rfl rfl rfl fun number => ?_))
                  fun _ _ _ _ hnone => ?_
                · show List.countP _ (_ ++ [_]) + _ = _
                  rw [copies_packet, Nat.add_right_comm]
                  rfl
                · cases hnone
            | some it =>
                have hguildcard := guildcard_of_find hit
                have hcount : ∀ (act : Act) number,
                    ({ w with sent := w.sent + 1, acts := w.acts ++ [act] } : World).copies number =
                      w.copies number + if act.mail.isSent number then 1 else 0 := by
                  intro act number
                  show _ + List.countP _ (_ ++ [_]) = _
                  rw [copies_act, ← Nat.add_assoc]
                  rfl
                dsimp only
                cases hblocks : it.blocks c.guildcard with
                | true =>
                    rw [if_pos rfl, h.kept.act_iff (.refused it _) rfl
                      (h.kept.once_sent _ rfl rfl rfl (hcount (.refused it _)))]
                    refine iff_of_true ⟨hguildcard, fun _ => hblocks⟩ fun _ _ _ it' hit' hopen => ?_
                    rw [← Option.some.inj hit', hblocks] at hopen
                    cases hopen
                | false =>
                    rw [if_neg Bool.false_ne_true, h.kept.act_iff (.handed it _ _ _) rfl
                      (h.kept.once_sent _ rfl rfl rfl (hcount (.handed it _ _ _))),
                      proper_local_iff (h.ready ship gcDest it hit) hguildcard rfl hblocks]
                    constructor
                    · intro hfits _ _ _ it' hit' _
                      rw [← Option.some.inj hit']
                      exact hfits
                    · exact fun hall => hall rfl rfl hbug it rfl hblocks

/-- The shipgate keeps mail. -/
theorem Sound.kept_gateMail (h : Sound players w)
    (hnext : next? (fun p : Packet => p.channel = .gate ship) w.flying = some (p, rest)) :
    Kept players (gateMail players { w with flying := rest } p.mail) := by
  have hcount := fun number =>
    @Channels.countP_of_next? _ _ (fun p : Packet => p.mail.isSent number) _ _ _ hnext
  unfold gateMail
  cases hship : players.shipOf p.mail.gcDest with
  | none =>
      refine (h.kept.act_iff (.saved p.mail) ?_ (h.kept.once_moved ?_ fun number => ?_)).mpr hship
      · rfl
      · rfl
      show List.countP _ rest + List.countP _ (_ ++ [_]) = List.countP _ w.flying + _
      rw [copies_act, hcount, Nat.add_right_comm, ← Nat.add_assoc]
      rfl
  | some ship' =>
      refine h.kept.same rfl (h.kept.once_moved rfl fun number => ?_)
      show List.countP _ (rest ++ [_]) + _ = List.countP _ w.flying + _
      rw [copies_packet, hcount]

/-- A ship keeps mail if the player meets it as it should. -/
theorem Sound.kept_shipMail_iff (h : Sound players w)
    (hnext : next? (fun p : Packet => p.channel = .ship ship) w.flying = some (p, rest)) :
    Kept players (shipMail players { w with flying := rest } ship p.mail) ↔
      Orderly players w (.ship ship) := by
  have hcount := fun number =>
    @Channels.countP_of_next? _ _ (fun p : Packet => p.mail.isSent number) _ _ _ hnext
  have hchannel : p.channel = .ship ship := by
    have hover := Channels.sel_of_next? hnext
    exact of_decide_eq_true hover
  rcases h.routed p (Channels.mem_of_next? hnext) ship hchannel with ⟨c, hfound⟩
  have hguildcard := guildcard_of_find hfound
  have horderly : Orderly players w (.ship ship) ↔ Meets w ship p.mail c := by
    constructor
    · exact fun hall => hall p rest hnext c hfound
    · intro hmeets p' rest' hnext' c' hfound'
      cases hnext.symm.trans hnext'
      obtain rfl : c = c' := Option.some.inj (hfound.symm.trans hfound')
      exact hmeets
  rw [horderly]
  unfold shipMail
  rw [hfound]
  dsimp only
  have hmoved : ∀ (act : Act) number, act.mail = p.mail →
      ({ w with flying := rest, acts := w.acts ++ [act] } : World).copies number =
        w.copies number := by
    intro act number hmail
    show List.countP _ rest + List.countP _ (_ ++ [_]) = List.countP _ w.flying + _
    rw [copies_act, hcount, hmail, Nat.add_right_comm, ← Nat.add_assoc]
  cases hblocks : c.blocks p.mail.gcSender with
  | true =>
      rw [if_pos rfl]
      refine (h.kept.act_iff (.refused c p.mail) ?_ (h.kept.once_moved ?_ fun number => ?_)).trans
        (proper_refused_iff hguildcard hblocks)
      · rfl
      · rfl
      · exact hmoved (.refused c p.mail) number rfl
  | false =>
      rw [if_neg Bool.false_ne_true]
      refine (h.kept.act_iff (.handed c p.mail _ _) ?_
        (h.kept.once_moved ?_ fun number => ?_)).trans
          (proper_handed_iff (h.ready ship _ c hfound) hguildcard hblocks)
      · rfl
      · rfl
      -- the reply is on its way, but is not a mail that a player sent
      have hreply : ∀ reply : Option (Mail × Nat),
          (∀ r, reply = some r → r.1.depth = p.mail.depth + 1) →
            (reply.toList.map fun r => (⟨.gate ship, r.1⟩ : Packet)).countP
              (fun p => p.mail.isSent number) = 0 := by
        intro reply hdepth
        cases reply with
        | none => rfl
        | some r =>
            have hmail : r.1.isSent number = false := by
              rw [Mail.isSent, hdepth r rfl]
              exact Bool.and_false _
            show List.countP _ [_] = 0
            rw [List.countP_singleton]
            exact if_neg (Bool.eq_false_iff.mp hmail)
      have hnone := hreply (replyTo c (w.autoreply ship c.guildcard) p.mail)
        fun r hr => (text_of_replyTo hr).2
      have hbefore := hmoved (.handed c p.mail (w.autoreply ship c.guildcard).on
        ((replyTo c (w.autoreply ship c.guildcard) p.mail).map (·.2))) number rfl
      rw [← hbefore]
      show List.countP _ (rest ++ _) + _ = List.countP _ rest + _
      rw [List.countP_append]
      exact congrArg (· + _) ((congrArg (_ + ·) hnone).trans (Nat.add_zero _))

/-- A change of an autoreply leaves mail alone. -/
theorem Sound.kept_change (h : Sound players w) (f : Version → Autoreply → Autoreply) :
    Kept players (w.change players ship gc f) := by
  unfold World.change
  cases players.find ship gc with
  | none => exact h.kept
  | some c => exact h.kept.same rfl (h.kept.once_moved rfl fun _ => rfl)

/-- What was sent is kept in a step if the step is orderly. -/
theorem Sound.kept_next_iff (h : Sound players w) (e : Event) :
    Kept players (w.next players e) ↔ Orderly players w e := by
  cases e with
  | mail ship gc gcSender gcDest =>
      unfold World.next
      dsimp only
      cases hfound : players.find ship gc with
      | none => exact iff_of_true h.kept fun _ _ hc => by rw [hfound] at hc; cases hc
      | some c => exact h.kept_processMail_iff hfound
  | setAutoreply ship gc len =>
      exact iff_of_true (h.kept_change (clientSetAutoreply · len)) trivial
  | disableAutoreply ship gc => exact iff_of_true (h.kept_change clientDisableAutoreply) trivial
  | gate ship =>
      unfold World.next
      dsimp only
      cases hnext : next? (fun p : Packet => p.channel = .gate ship) w.flying with
      | none => exact iff_of_true h.kept trivial
      | some found => exact iff_of_true (h.kept_gateMail hnext) trivial
  | ship ship =>
      unfold World.next
      dsimp only
      cases hnext : next? (fun p : Packet => p.channel = .ship ship) w.flying with
      | none =>
          refine iff_of_true h.kept fun _ _ hsome => ?_
          rw [hnext] at hsome
          cases hsome
      | some found => exact h.kept_shipMail_iff hnext

/-- Mail to a ship is for one of its players after a step, too. -/
theorem Sound.routed_next (h : Sound players w) (e : Event) :
    ∀ p ∈ (w.next players e).flying, ∀ ship, p.channel = .ship ship →
      ∃ c, players.find ship p.mail.gcDest = some c := by
  have hgate : ∀ (flying : List Packet) ship mail, (∀ p ∈ flying, p ∈ w.flying) →
      ∀ p ∈ flying ++ [⟨.gate ship, mail⟩], ∀ ship', p.channel = .ship ship' →
        ∃ c, players.find ship' p.mail.gcDest = some c := by
    intro flying ship mail hold p hp ship' hchannel
    rcases List.mem_append.mp hp with hp | hp
    · exact h.routed p (hold p hp) ship' hchannel
    · rw [List.mem_singleton.mp hp] at hchannel
      cases hchannel
  cases e with
  | mail ship gc gcSender gcDest =>
      unfold World.next
      dsimp only
      cases players.find ship gc with
      | none => exact h.routed
      | some c =>
          dsimp only
          unfold processMail
          split_ifs
          · exact h.routed
          · exact h.routed
          · exact h.routed
          · dsimp only
            cases players.find ship gcDest with
            | none => exact hgate w.flying ship _ fun _ hp => hp
            | some it =>
                dsimp only
                split
                · exact h.routed
                · exact h.routed
  | setAutoreply ship gc len | disableAutoreply ship gc =>
      unfold World.next World.change
      dsimp only
      cases players.find ship gc with
      | none => exact h.routed
      | some c => exact h.routed
  | gate ship =>
      unfold World.next
      dsimp only
      cases hnext : next? (fun p : Packet => p.channel = .gate ship) w.flying with
      | none => exact h.routed
      | some found =>
          have hold : ∀ p ∈ found.2, p ∈ w.flying :=
            fun p hp => Channels.mem_of_mem_rest hnext hp
          dsimp only
          unfold gateMail
          cases hship : players.shipOf found.1.mail.gcDest with
          | none => exact fun p hp => h.routed p (hold p hp)
          | some ship' =>
              intro p hp ship'' hchannel
              rcases List.mem_append.mp hp with hp | hp
              · exact h.routed p (hold p hp) ship'' hchannel
              · rw [List.mem_singleton.mp hp] at hchannel ⊢
                cases hchannel
                exact find_of_shipOf hship
  | ship ship =>
      unfold World.next
      dsimp only
      cases hnext : next? (fun p : Packet => p.channel = .ship ship) w.flying with
      | none => exact h.routed
      | some found =>
          have hold : ∀ p ∈ found.2, p ∈ w.flying :=
            fun p hp => Channels.mem_of_mem_rest hnext hp
          dsimp only
          unfold shipMail
          cases players.find ship found.1.mail.gcDest with
          | none => exact fun p hp => h.routed p (hold p hp)
          | some c =>
              dsimp only
              split
              · exact fun p hp => h.routed p (hold p hp)
              · intro p hp ship' hchannel
                rcases List.mem_append.mp hp with hp | hp
                · exact h.routed p (hold p hp) ship' hchannel
                · rcases List.mem_map.mp hp with ⟨r, -, rfl⟩
                  cases hchannel

/-- An autoreply that is on can be built after a change, too. -/
theorem Sound.ready_change (h : Sound players w) {f : Version → Autoreply → Autoreply}
    (hf : ∀ c a, Ready c a → Ready c (f c.version a)) (ship' gc' : Nat) (c' : Client)
    (hfound' : players.find ship' gc' = some c') :
    Ready c' ((w.change players ship gc f).autoreply ship' c'.guildcard) := by
  unfold World.change
  cases hfound : players.find ship gc with
  | none => exact h.ready ship' gc' c' hfound'
  | some c =>
      dsimp only
      have hc := guildcard_of_find hfound
      have hc' := guildcard_of_find hfound'
      by_cases hship : ship' = ship
      · rw [hship, Function.update_self]
        by_cases hgc : c'.guildcard = c.guildcard
        · have hsame : gc' = gc := hc'.symm.trans (hgc.trans hc)
          rw [hship, hsame, hfound] at hfound'
          obtain rfl : c = c' := Option.some.inj hfound'
          rw [Function.update_self]
          exact hf c _ (h.ready ship gc c hfound)
        · rw [Function.update_of_ne hgc]
          exact h.ready ship gc' c' (hship ▸ hfound')
      · rw [Function.update_of_ne hship]
        exact h.ready ship' gc' c' hfound'

theorem Sound.ready_next (h : Sound players w) (e : Event) (ship' gc' : Nat) (c' : Client)
    (hfound' : players.find ship' gc' = some c') :
    Ready c' ((w.next players e).autoreply ship' c'.guildcard) := by
  have hold := h.ready ship' gc' c' hfound'
  cases e with
  | mail ship gc gcSender gcDest =>
      unfold World.next
      dsimp only
      cases players.find ship gc with
      | none => exact hold
      | some c =>
          dsimp only
          unfold processMail
          split_ifs
          · exact hold
          · exact hold
          · exact hold
          · dsimp only
            cases players.find ship gcDest with
            | none => exact hold
            | some it =>
                dsimp only
                split
                · exact hold
                · exact hold
  | setAutoreply ship gc len =>
      exact h.ready_change (fun c _ => ready_set c len) ship' gc' c' hfound'
  | disableAutoreply ship gc =>
      exact h.ready_change (fun c _ => ready_disable c) ship' gc' c' hfound'
  | gate ship =>
      unfold World.next gateMail
      dsimp only
      split
      · exact hold
      · split
        · exact hold
        · exact hold
  | ship ship =>
      unfold World.next shipMail
      dsimp only
      split
      · exact hold
      · split
        · exact hold
        · split
          · exact hold
          · exact hold

theorem Sound.next (h : Sound players w) (e : Event) (hkept : Kept players (w.next players e)) :
    Sound players (w.next players e) :=
  ⟨hkept, h.routed_next e, h.ready_next e⟩

theorem sound_start (players : Players) : Sound players .start where
  kept := ⟨fun _ => rfl, nofun⟩
  routed := nofun
  ready _ _ _ _ hon := nomatch hon

end Steps

/-! ## Mail arrives -/

/-- How often a mail may still be processed, with the replies to it. -/
def Packet.weight (p : Packet) : Nat :=
  match p.channel with
  | .gate _ => if p.mail.depth = 0 then 4 else 2
  | .ship _ => if p.mail.depth = 0 then 3 else 1

def World.weight (w : World) : Nat := (w.flying.map Packet.weight).sum

/-- The shipgate or a ship processes a packet. -/
def Busy (w : World) : Event → Prop
  | .gate ship => (next? (fun p : Packet => p.channel = .gate ship) w.flying).isSome = true
  | .ship ship => (next? (fun p : Packet => p.channel = .ship ship) w.flying).isSome = true
  | _ => False

section Arrival

variable {players : Players} {w : World} {ship : Nat} {p : Packet} {rest : List Packet}

theorem weight_of_next? {sel : Packet → Bool} (hnext : next? sel w.flying = some (p, rest)) :
    w.weight = p.weight + (rest.map Packet.weight).sum := by
  rw [World.weight, ((Channels.perm_of_next? hnext).map Packet.weight).sum_nat]
  rfl

theorem sum_weight_append (flying : List Packet) (p : Packet) :
    ((flying ++ [p]).map Packet.weight).sum = (flying.map Packet.weight).sum + p.weight := by
  rw [List.map_append, List.sum_append]
  rfl

theorem weight_gateMail (hnext : next? (fun p : Packet => p.channel = .gate ship) w.flying =
    some (p, rest)) : (gateMail players { w with flying := rest } p.mail).weight < w.weight := by
  have hchannel : p.channel = .gate ship := by
    have hover := Channels.sel_of_next? hnext
    exact of_decide_eq_true hover
  rw [weight_of_next? hnext, Packet.weight, hchannel]
  unfold gateMail
  cases players.shipOf p.mail.gcDest with
  | none =>
      show (rest.map Packet.weight).sum < _
      dsimp only
      split <;> omega
  | some ship' =>
      show ((rest ++ [_]).map Packet.weight).sum < _
      rw [sum_weight_append, Packet.weight]
      dsimp only
      split <;> omega

/-- Only a mail that a player sent makes a reply, which weighs less. -/
theorem Sound.weight_shipMail (h : Sound players w) (horderly : Orderly players w (.ship ship))
    (hnext : next? (fun p : Packet => p.channel = .ship ship) w.flying = some (p, rest)) :
    (shipMail players { w with flying := rest } ship p.mail).weight < w.weight := by
  have hchannel : p.channel = .ship ship := by
    have hover := Channels.sel_of_next? hnext
    exact of_decide_eq_true hover
  rcases h.routed p (Channels.mem_of_next? hnext) ship hchannel with ⟨c, hfound⟩
  have hmeets := horderly p rest hnext c hfound
  rw [weight_of_next? hnext, Packet.weight, hchannel]
  unfold shipMail
  rw [hfound]
  dsimp only
  cases hblocks : c.blocks p.mail.gcSender with
  | true =>
      show (rest.map Packet.weight).sum < _
      split <;> omega
  | false =>
      have hsilent := @replyTo_eq_none_iff c (w.autoreply ship c.guildcard) p.mail
        (h.ready ship _ c hfound)
      show ((rest ++ (replyTo c (w.autoreply ship c.guildcard) p.mail).toList.map _).map
        Packet.weight).sum < _
      cases hreply : replyTo c (w.autoreply ship c.guildcard) p.mail with
      | none =>
          show ((rest ++ []).map Packet.weight).sum < _
          rw [List.append_nil]
          split <;> omega
      | some r =>
          have hdepth : p.mail.depth = 0 := by
            by_contra hne
            rw [hsilent.mpr (hmeets.reply hblocks hne)] at hreply
            cases hreply
          have hnew : r.1.depth ≠ 0 := by
            rw [(text_of_replyTo hreply).2]
            exact Nat.succ_ne_zero _
          show ((rest ++ [_]).map Packet.weight).sum < _
          rw [sum_weight_append, Packet.weight]
          dsimp only
          rw [if_neg hnew, if_pos hdepth]
          omega

/-- Processing a packet leaves less to do. -/
theorem Sound.weight_next (h : Sound players w) {e : Event} (horderly : Orderly players w e)
    (hbusy : Busy w e) : (w.next players e).weight < w.weight := by
  cases e with
  | mail | setAutoreply | disableAutoreply => exact hbusy.elim
  | gate ship =>
      rcases Option.isSome_iff_exists.mp hbusy with ⟨⟨p, rest⟩, hnext⟩
      unfold World.next
      dsimp only
      rw [hnext]
      exact weight_gateMail hnext
  | ship ship =>
      rcases Option.isSome_iff_exists.mp hbusy with ⟨⟨p, rest⟩, hnext⟩
      unfold World.next
      dsimp only
      rw [hnext]
      exact h.weight_shipMail horderly hnext

/-- So all packets are processed at some time. -/
theorem Sound.busy_le_weight (h : Sound players w) {events : List Event}
    (horderly : Run.Guarded (World.next players) (Orderly players) w events)
    (hbusy : Run.Guarded (World.next players) Busy w events) : events.length ≤ w.weight := by
  induction events generalizing w with
  | nil => exact Nat.zero_le _
  | cons e events ih =>
      have hnext := h.next e ((h.kept_next_iff e).mpr horderly.1)
      have hrest := ih hnext horderly.2 hbusy.2
      have hless := h.weight_next horderly.1 hbusy.1
      rw [List.length_cons]
      omega

end Arrival

/-! ## Runs -/

theorem Sound.of_run {players : Players} {events : List Event}
    (h : Run.Guarded (World.next players) (Orderly players) .start events) :
    Sound players (events.foldl (World.next players) .start) :=
  h.invariant (fun _ e hs horderly => hs.next e ((hs.kept_next_iff e).mpr horderly))
    (sound_start players)

/-- Two players of the Gamecube on two ships. -/
def twoShips : Players where
  ships := [[⟨10, .gc, false, false, none, []⟩], [⟨20, .gc, false, false, none, []⟩]]
  unique := by decide

end Sylverant.Ship.SimpleMail
