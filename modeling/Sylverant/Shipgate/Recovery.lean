/-
# What the ships recover

The ships recover the packets that the shipgate sends if and only if each event meets a
condition. Most always do. The others repeat as many bytes of a request as it tells, or send
what the database has, without padding it.
-/

import Sylverant.Servers.Receivers
import Sylverant.Shipgate.Boundaries

namespace Sylverant.Shipgate

open Servers (Accepts Delivers)
open Sylverant.Ship (RecvBuf saveRest)
open Socket (drain)
open ChunkedInput (Step Outcome)

/-! ## When an event is fine -/

/-- Mail fits if it is forwarded. -/
def MailFits (innerLen : Nat) (db : Found) : Prop := db.mailTo ≠ none → ¬Oversized innerLen

/-- A Dreamcast packet that is not known has a length that can be repeated. -/
def DcFine (pkt : Mem) (db : Found) : Prop :=
  let type := (pkt.inner 0).toNat
  if type = GUILD_SEARCH_TYPE then True
  else if type = SIMPLE_MAIL_TYPE then MailFits (pkt.inner.le16 2) db
  else Repeatable (pkt.net16 0)

def PcFine (pkt : Mem) (db : Found) : Prop :=
  let type := (pkt.inner 0).toNat
  if type = SIMPLE_MAIL_TYPE then MailFits (pkt.inner.le16 2) db
  else Repeatable (pkt.net16 0)

/-- Deleting does not fail, nor does setting a comment of a length that is repeated without
padding. -/
def BbFine (pkt : Mem) (db : Found) : Prop :=
  let type := pkt.inner.le16 2
  if type = 0x04E8 then True
  else if type = 0x05E8 then pkt.inner.le16 0 = 0x000C → db.fails = false
  else if type = 0x0AE8 then True
  else if type = 0x07E8 then True
  else if type = 0x08E8 then pkt.inner.le16 0 = 0x000C → db.fails = false
  else if type = SIMPLE_MAIL_TYPE then MailFits (pkt.inner.le16 0) db
  else if type = GUILD_SEARCH_TYPE then True
  else if type = 0x09E8 then
    pkt.inner.le16 0 = 0x00BC → db.fails = true → commentLen pkt.inner % 4 = 3
  else Repeatable (pkt.inner.le16 0)

/-- Character data fills whole blocks together with the 20 bytes in front of it. -/
def CdataFits (data : List UInt8) : Prop := data.length % 8 = 4 ∧ data.length < 65516

/-- A message to all ships is as long as the request, which is whole blocks. -/
def GlobalmsgFits (ships : List OnlineShip) (pkt : Mem) (isGm : Bool) : Prop :=
  ships ≠ [] → isGm = true → pkt (16 + (pkt.net16 0 + 0x10000 - 16) % 0x10000 - 1) = 0 →
    pkt.net16 0 < 8 ∨ pkt.net16 0 % 8 = 0

/-- A request that is answered with packets that the ships recover. -/
def Request.Fine (ships : List OnlineShip) : Request → Prop
  | .dc pkt db => DcFine pkt db
  | .pc pkt db => PcFine pkt db
  | .bb pkt db => BbFine pkt db
  | .creq _ a => a.Fine CdataFits
  | .cbkup pkt restored _ => pkt.net16 0 = 48 → restored.Fine CdataFits
  | .globalmsg pkt isGm => GlobalmsgFits ships pkt isGm
  | _ => True

def Event.Fine : Event → Prop
  | .request _ ships r => r.Fine ships
  | _ => True

/-! ## Forwarded packets -/

theorem fits {innerLen : Nat} (h : innerLen < 65512) : ¬Oversized innerLen := by
  rw [Oversized]
  omega

theorem sentIf_mail {forwardMail : Mem → Nat → Nat → Nat → List (List UInt8)} {innerLen : Nat}
    {pkt : Mem} (h : ∀ sender, Emits (forwardMail pkt sender 0 0) ¬Oversized innerLen)
    (c : OnlineShip)
    (db : Found) : SentIf (handleMail forwardMail c pkt db) (MailFits innerLen db) := by
  rw [handleMail, MailFits]
  split
  · rename_i hnone
    exact sentIf_nil fun hsome => absurd hnone hsome
  · rename_i conn hsome
    apply ((h c.keyIdx).sentTo conn).congr
    exact ⟨fun hfits _ => hfits, fun hfits => hfits (by rw [hsome]; exact nofun)⟩

theorem sentIf_guildSearch (c : OnlineShip) (db : Found) (flags : Nat) :
    SentIf (handleGuildSearch c db flags) True := by
  unfold handleGuildSearch
  split
  · exact sentIf_nil trivial
  · dsimp only
    apply Emits.sentTo
    split
    · apply (emits_forward (le16_lt _ 2) ..).congr
      exact iff_true_intro (show ¬Oversized 0xD0 from fits (by decide))
    · apply (emits_forward (le16_lt _ 2) ..).congr
      exact iff_true_intro (show ¬Oversized 0xC4 from fits (by decide))

theorem sentIf_bbGuildSearch (c : OnlineShip) (pkt : Mem) (db : Found) :
    SentIf (handleBbGuildSearch c pkt db) True := by
  unfold handleBbGuildSearch
  split
  · exact sentIf_nil trivial
  · apply Emits.sentTo
    apply (emits_forward (le16_lt _ 0) ..).congr
    exact iff_true_intro (show ¬Oversized 0x130 from fits (by decide))

theorem sentIf_bbSized (size : Nat) (c : OnlineShip) (pkt : Mem) (fails : Bool) :
    SentIf (handleBbSized size c pkt fails)
      (pkt.inner.le16 0 = size → fails = true → Repeatable size) := by
  unfold handleBbSized
  dsimp only
  split
  · rename_i hsize
    exact sentIf_nil fun heq => absurd heq hsize
  · rename_i hsize
    have hsize := Decidable.not_not.mp hsize
    split
    · rename_i hfails
      rw [hsize]
      exact (sentIf_error ..).congr ⟨fun h _ _ => h, fun h => h rfl hfails⟩
    · rename_i hfails
      exact sentIf_nil fun _ h => absurd h hfails

/-- Packets of whole blocks are repeated as they are. -/
theorem sentIf_bbBlocks {size : Nat} (h : size % 8 = 0) (c : OnlineShip) (pkt : Mem)
    (fails : Bool) :
    SentIf (handleBbSized size c pkt fails) True :=
  (sentIf_bbSized size c pkt fails).congr (iff_true_intro fun _ _ => .inl h)

/-- The packets that delete something are of 12 bytes. -/
theorem sentIf_bbDelete (c : OnlineShip) (pkt : Mem) (fails : Bool) :
    SentIf (handleBbSized 0x000C c pkt fails) (pkt.inner.le16 0 = 0x000C → fails = false) := by
  apply (sentIf_bbSized 0x000C c pkt fails).congr
  have hsize : ¬Repeatable 0x000C := by
    rw [Repeatable]
    decide
  constructor
  · intro h hlen
    exact Bool.eq_false_iff.mpr fun hfails => hsize (h hlen hfails)
  · intro h hlen hfails
    exact absurd hfails (Bool.eq_false_iff.mp (h hlen))

theorem commentLen_le (gc : Mem) : commentLen gc ≤ 0x88 := by
  have hsublist : ((List.range 0x88).takeWhile fun i => decide (gc.le16 (12 + 2 * i) ≠ 0)).Sublist
      (List.range 0x88) := List.takeWhile_sublist _
  have hle := hsublist.length_le
  rwa [List.length_range] at hle

theorem sentIf_setComment (c : OnlineShip) (pkt : Mem) (fails : Bool) :
    SentIf (handleBbSetComment c pkt fails)
      (pkt.inner.le16 0 = 0x00BC → fails = true → commentLen pkt.inner % 4 = 3) := by
  rw [handleBbSetComment]
  split
  · rename_i hsize
    exact sentIf_nil fun heq => absurd heq hsize
  · rename_i hsize
    have hsize := Decidable.not_not.mp hsize
    split
    · rename_i hfails
      have hle := commentLen_le pkt.inner
      apply (sentIf_error ..).congr
      rw [Repeatable]
      constructor
      · intro h _ _
        omega
      · intro h
        have hcomment := h hsize hfails
        omega
    · rename_i hfails
      exact sentIf_nil fun _ h => absurd h hfails

theorem sentIf_unknown (c : OnlineShip) (type : Nat) (pkt : Mem) (len : Nat) :
    SentIf (unknownPacket c type pkt len) (Repeatable len) := sentIf_error ..

theorem sentIf_dreamcast (c : OnlineShip) (pkt : Mem) (db : Found) :
    SentIf (handleDreamcast c pkt db) (DcFine pkt db) := by
  unfold handleDreamcast DcFine
  dsimp only
  split_ifs
  · exact sentIf_guildSearch ..
  · exact sentIf_mail (fun sender => emits_forward (le16_lt ..) ..) ..
  · exact sentIf_unknown ..

theorem sentIf_pc (c : OnlineShip) (pkt : Mem) (db : Found) :
    SentIf (handlePc c pkt db) (PcFine pkt db) := by
  unfold handlePc PcFine
  dsimp only
  split_ifs
  · exact sentIf_mail (fun sender => emits_forward (le16_lt ..) ..) ..
  · exact sentIf_unknown ..

theorem sentIf_bb (c : OnlineShip) (pkt : Mem) (db : Found) :
    SentIf (handleBb c pkt db) (BbFine pkt db) := by
  unfold handleBb BbFine
  dsimp only
  split_ifs
  · exact sentIf_bbBlocks (by decide) ..
  · exact sentIf_bbDelete ..
  · exact sentIf_bbBlocks (by decide) ..
  · exact sentIf_bbBlocks (by decide) ..
  · exact sentIf_bbDelete ..
  · exact sentIf_mail (fun sender => emits_forward (le16_lt ..) ..) ..
  · exact sentIf_bbGuildSearch ..
  · exact sentIf_setComment ..
  · exact sentIf_unknown ..

/-! ## All events -/

theorem sentIf_error0 (conn type flags err : Nat) :
    SentIf (sendTo conn (sendError type flags err [])) True :=
  ((emits_sendError type flags err []).sentTo conn).congr (iff_true_intro (.inl rfl))

theorem sentIf_login (c : OnlineShip) (ships : List OnlineShip) (a : Answer Unit) :
    SentIf (handleShipgateLogin6t c ships a) True := by
  cases a with
  | silent => exact sentIf_nil trivial
  | failure err => exact sentIf_error0 ..
  | success a =>
      apply (sentIf_error0 ..).append_true
      apply sentIf_flatMap_true
      intro j
      apply ((emits_sendShipStatus ..).sentTo j.conn).append_true
      split
      · exact (emits_sendShipStatus ..).sentTo c.conn
      · exact sentIf_nil trivial

theorem sentIf_tellFriends (on : Bool) (c : OnlineShip) (pkt : Mem) (name : List UInt8)
    (rows : List FriendRow) : SentIf (tellFriends on c pkt name rows) True := by
  apply sentIf_flatMap_true
  intro row
  exact (emits_sendFriendMessage ..).sentTo row.conn

theorem sentIf_blocklogin (c : OnlineShip) (pkt : Mem) (a : Answer BlockUser) :
    SentIf (handleBlocklogin c pkt a) True := by
  cases a with
  | silent => exact sentIf_nil trivial
  | failure err => exact (sentIf_error ..).congr (iff_true_intro (.inl rfl))
  | success user =>
      apply SentIf.append_true
      · apply (sentIf_tellFriends ..).append_true
        exact (emits_sendUserOptions ..).sentTo c.conn
      · split
        · exact sentIf_nil trivial
        · exact (emits_sendSimpleMail ..).sentTo c.conn

theorem sentIf_count (c : OnlineShip) (ships : List OnlineShip) (pkt : Mem) :
    SentIf (handleCount c ships pkt) True := by
  apply sentIf_flatMap_true
  intro j
  have hcounts (gc clients games : Nat) : Emits (sendCounts gc clients games) True :=
    emits_fixed (by decide) (by decide) ..
  exact (hcounts ..).sentTo j.conn

theorem sentIf_globalmsg (ships : List OnlineShip) (pkt : Mem) (isGm : Bool) :
    SentIf (handleGlobalmsg ships pkt isGm) (GlobalmsgFits ships pkt isGm) := by
  have hlen : pkt.net16 0 < 0x10000 := by
    have hhigh := (pkt 0).toNat_lt
    have hlow := (pkt (0 + 1)).toNat_lt
    rw [Mem.net16]
    omega
  unfold handleGlobalmsg GlobalmsgFits
  dsimp only
  split
  · rename_i hopen
    exact sentIf_nil fun _ _ hend => absurd hend hopen
  · rename_i hend
    have hend := Decidable.not_not.mp hend
    split
    · rename_i hgm
      apply (sentIf_flatMap (fun i => (emits_sendGlobalMsg ..).sentTo i.conn) ships).congr
      constructor
      · rintro (hnil | hfine) hsome - -
        · exact absurd hnil hsome
        · omega
      · intro h
        by_cases hnil : ships = []
        · exact .inl hnil
        · have hfine := h hnil hgm hend
          exact .inr (by omega)
    · rename_i hgm
      exact sentIf_nil fun _ h => absurd h hgm

theorem sentIf_kick (pkt : Mem) (reason : List UInt8) (place : Option (Nat × Nat)) :
    SentIf (handleKick pkt reason place) True := by
  rcases place with _ | ⟨conn, block⟩
  · exact sentIf_nil trivial
  · have hkick : Emits (sendKick (pkt.net32 8) (pkt.net32 16) block reason) True :=
      emits_fixed (by decide) (by decide) ..
    exact hkick.sentTo conn

theorem sentIf_frlistReq (c : OnlineShip) (pkt : Mem) (rows : Option (List FriendlistData)) :
    SentIf (handleFrlistReq c pkt rows) True := by
  cases rows with
  | none => exact sentIf_nil trivial
  | some rows => exact (emits_sendFriendlist ..).sentTo c.conn

theorem sentIf_mkill (c : OnlineShip) (pkt : Mem) (query : Option Nat) :
    SentIf (handleMkill c pkt query) True := by
  cases query with
  | none => exact sentIf_nil trivial
  | some query =>
      apply (sentIf_error ..).congr
      apply iff_true_intro
      rw [Repeatable]
      split
      · exact .inl rfl
      · exact .inl rfl

theorem sentIf_cbkup (c : OnlineShip) (pkt : Mem) (restored : Answer (List UInt8))
    (saved : Answer Unit) :
    SentIf (handleCbkup c pkt restored saved)
      (pkt.net16 0 = 48 → restored.Fine CdataFits) := by
  rw [handleCbkup]
  split
  · rename_i hreq
    apply (sentIf_answerWith c.conn _ _ pkt (fun data => emits_sendCdata _ _ data _) _).congr
    exact ⟨fun h _ => h, fun h => h hreq⟩
  · rename_i hsave
    apply (sentIf_answer c.conn _ _ rfl pkt saved).congr
    exact ⟨fun _ h => absurd h hsave, fun _ => trivial⟩

/-- Each request is answered as it should be if and only if it is fine. -/
theorem sentIf_request (c : OnlineShip) (ships : List OnlineShip) (r : Request) :
    SentIf (processShipPkt c ships r) (r.Fine ships) := by
  cases r with
  | login6 a => exact sentIf_login c ships a
  | count pkt => exact sentIf_count c ships pkt
  | dc pkt db => exact sentIf_dreamcast c pkt db
  | pc pkt db => exact sentIf_pc c pkt db
  | bb pkt db => exact sentIf_bb c pkt db
  | ping pkt =>
      rw [processShipPkt]
      split
      · have hping : Emits (sendPing true) True := emits_fixed (by decide) (by decide) ..
        exact hping.sentTo c.conn
      · exact sentIf_nil trivial
  | cdata pkt a => exact sentIf_answer c.conn _ _ rfl pkt a
  | creq pkt a => exact sentIf_answerWith c.conn _ _ pkt (fun data => emits_sendCdata _ _ data _) a
  | gmlogin pkt a =>
      have hreply (priv : UInt8) :
          Emits (sendGmreply (pkt.net32 8) (pkt.net32 12) true priv) True :=
        emits_fixed (by decide) (by decide) ..
      exact (sentIf_answerWith c.conn _ _ pkt hreply a).congr a.fine_true
  | gcban pkt a => exact sentIf_answer c.conn _ _ rfl pkt a
  | ipban pkt a => exact sentIf_answer c.conn _ _ rfl pkt a
  | blklogin pkt a => exact sentIf_blocklogin c pkt a
  | blklogout pkt name rows => exact sentIf_tellFriends false c pkt name rows
  | addfriend pkt a => exact sentIf_answer c.conn _ _ rfl pkt a
  | delfriend pkt a => exact sentIf_answer c.conn _ _ rfl pkt a
  | kick pkt reason place => exact sentIf_kick pkt reason place
  | frlist pkt rows => exact sentIf_frlistReq c pkt rows
  | globalmsg pkt isGm => exact sentIf_globalmsg ships pkt isGm
  | useropt pkt a => exact sentIf_answer c.conn _ _ rfl pkt a
  | bbopts pkt a =>
      have hnone (_ : Unit) : Emits [] True := emits_nil trivial
      exact (sentIf_answerWith c.conn _ _ pkt hnone a).congr a.fine_true
  | bboptReq pkt a =>
      have hopts (opts : List UInt8) :
          Emits (sendBbOpts (pkt.net32 8) (pkt.net32 12) opts) True :=
        emits_fixed (by decide) (by decide) ..
      exact (sentIf_answerWith c.conn _ _ pkt hopts a).congr a.fine_true
  | cbkup pkt restored saved => exact sentIf_cbkup c pkt restored saved
  | mkill pkt query => exact sentIf_mkill c pkt query

theorem sentIf_event (e : Event) : SentIf e.sent e.Fine := by
  cases e with
  | connect conn loginMsg version gateNonce shipNonce =>
      apply Emits.sentTo
      exact (emits_packet (by decide) ..).congr (iff_true_intro (by decide))
  | quiet conn =>
      have hping : Emits (sendPing false) True := emits_fixed (by decide) (by decide) ..
      exact hping.sentTo conn
  | gone c ships =>
      rw [Event.sent]
      split
      · exact sentIf_flatMap_true (fun i => (emits_sendShipStatus ..).sentTo i.conn) ships
      · exact sentIf_nil trivial
  | request c ships r => exact sentIf_request c ships r

/-! ## What a ship takes for packets -/

section Taken

variable {σ : Type} {process : σ → List UInt8 → σ × Int}

/-- What a ship has delivered are packets of the size that their header tells, apart from
what is shorter than a header. -/
structure Taken (c : Link σ) : Prop where
  header : c.hdrRead = true → c.pkt.length = 8
  framed : ∀ pkt ∈ c.delivered, pkt.length < 8 ∨ Framed pktLen8 pkt

theorem length_pkt_readHeader {c : Link σ} (h : Taken c) {rbp : List UInt8}
    (hlen : 8 ≤ rbp.length) : (c.readHeader rbp).pkt.length = 8 := by
  rw [Link.readHeader]
  split
  · rename_i hread
    exact h.header hread
  · rw [List.length_take]
    omega

theorem delivered_readHeader (c : Link σ) (rbp : List UInt8) :
    (c.readHeader rbp).delivered = c.delivered := by
  rw [Link.readHeader]
  split <;> rfl

/-- What is taken for a packet has the size that the header tells. -/
theorem framed_take {hdr rest : List UInt8} (hhdr : hdr.length = 8)
    (hle : pktLen8 hdr ≤ 8 + rest.length) :
    ((hdr ++ rest).take (pktLen8 hdr)).length < 8 ∨
      Framed pktLen8 ((hdr ++ rest).take (pktLen8 hdr)) := by
  have hlen : ((hdr ++ rest).take (pktLen8 hdr)).length = pktLen8 hdr := by
    rw [List.length_take, List.length_append]
    omega
  by_cases hshort : pktLen8 hdr < 8
  · exact .inl (hlen.symm ▸ hshort)
  · right
    refine ⟨by omega, hlen.symm ▸ pktLen8_lt hdr, ?_⟩
    have hfront : ((hdr ++ rest).take (pktLen8 hdr)).take 8 = hdr := by
      rw [List.take_take, Nat.min_eq_left (by omega), ← hhdr, List.take_left' rfl]
    rw [hfront, hlen]

theorem Taken.pass {c : Link σ} (h : Taken c) {rbp : List UInt8} :
    ∀ t ∈ (linkPass pktLen8 process c rbp).state?, Taken t := by
  unfold linkPass
  dsimp only
  by_cases hshort : rbp.length < 8
  · rw [if_pos hshort]
    intro t ht
    cases ht
    exact h
  · have hhdr := length_pkt_readHeader h (Nat.le_of_not_lt hshort)
    have hread : Taken (c.readHeader rbp) :=
      ⟨fun _ => hhdr, by rw [delivered_readHeader]; exact h.framed⟩
    rw [if_neg hshort]
    by_cases hwhole : pktLen8 (c.readHeader rbp).pkt ≤ rbp.length
    · rw [if_pos hwhole]
      have hnext : Taken ((c.readHeader rbp).pass process
          (((c.readHeader rbp).pkt ++ rbp.drop 8).take (pktLen8 (c.readHeader rbp).pkt))) := by
        refine ⟨fun hread => (nomatch hread), ?_⟩
        intro pkt hpkt
        rcases List.mem_append.mp hpkt with hold | hnew
        · exact hread.framed pkt hold
        · rw [List.mem_singleton.mp hnew]
          apply framed_take hhdr
          rw [List.length_drop]
          omega
      intro t ht
      split at ht
      · cases ht
        exact hnext
      · cases ht
        exact hnext
    · rw [if_neg hwhole]
      intro t ht
      cases ht
      exact hread

/-- All that a connection has delivered. -/
def TakenAll : LinkState σ → Prop
  | some (c, _) => Taken c
  | none => True

theorem TakenAll.next {s : LinkState σ} (h : TakenAll s) (data : List UInt8) :
    TakenAll (linkNext (shipgateProcessPkt process) s data) := by
  rcases s with _ | ⟨c, buf⟩
  · trivial
  · show TakenAll (linkCall pktLen8 process c buf data)
    have hloop := @ChunkedInput.loop_keeps _ _ (linkPass pktLen8 process) Taken
      (fun _ _ hc => Taken.pass hc)
    have hstart : Taken ({ c with rv := 0 } : Link σ) := ⟨h.header, h.framed⟩
    unfold linkCall
    split
    · exact ⟨h.header, h.framed⟩
    · dsimp only
      have hend := @hloop ((buf.saved ++ data.take (linkRoom buf)).length + 1) { c with rv := 0 }
        (buf.saved ++ data.take (linkRoom buf)) hstart
      split
      · rename_i c' rest hresult
        rw [hresult] at hend
        exact hend c' rfl
      · rename_i c' hresult
        rw [hresult] at hend
        exact hend c' rfl
      · trivial

end Taken

/-! ## Recovery -/

/-- However the bytes of packets arrive, a ship whose handlers accept the packets delivers
exactly these, and keeps nothing. -/
def Recovers (pkts : List (List UInt8)) : Prop :=
  ∀ (σ : Type) (process : σ → List UInt8 → σ × Int) (handler : σ),
    Accepts process handler pkts → ∀ ns : List Nat, pkts.flatten.length ≤ ns.length →
      let out := drain linkAsk (linkNext (shipgateProcessPkt process)) (.new handler)
        pkts.flatten ns
      linkDelivered out.1 = pkts ∧ LinkIdle out.1

/-- A ship recovers packets if and only if their headers tell their sizes. -/
theorem recovers_iff_framed {pkts : List (List UInt8)} (hhdr : ∀ pkt ∈ pkts, 8 ≤ pkt.length) :
    Recovers pkts ↔ ∀ pkt ∈ pkts, Framed pktLen8 pkt := by
  constructor
  · intro h pkt hpkt
    have hdelivered := (h Unit Servers.acceptAll () (Servers.accepts_acceptAll pkts)
      (List.replicate pkts.flatten.length 0) (Nat.le_of_eq List.length_replicate.symm)).1
    have htaken := @Socket.drain_keeps _ _ linkAsk
      (linkNext (shipgateProcessPkt Servers.acceptAll)) TakenAll
      (fun s data hs => TakenAll.next hs data) (.new ())
      ⟨fun hread => (nomatch hread), fun pkt hpkt => (nomatch hpkt)⟩ pkts.flatten
      (List.replicate pkts.flatten.length 0)
    revert hdelivered htaken
    generalize (drain linkAsk (linkNext (shipgateProcessPkt Servers.acceptAll)) (.new ())
      pkts.flatten (List.replicate pkts.flatten.length 0)).1 = s
    intro hdelivered htaken
    rcases s with _ | ⟨c, buf⟩
    · rw [← hdelivered] at hpkt
      exact nomatch hpkt
    · have hmem : pkt ∈ c.delivered := by
        rw [show c.delivered = pkts from hdelivered]
        exact hpkt
      rcases htaken.framed pkt hmem with hshort | hframed
      · exact absurd (hhdr pkt hpkt) (Nat.not_le_of_lt hshort)
      · exact hframed
  · intro hframed σ process handler haccepts ns hns out
    obtain ⟨hdelivers, hall⟩ := @link_delivers σ pktLen8 process pkts pkts.flatten [] handler
      hframed haccepts (List.append_nil _) ns
    have hrest : out.2 = [] := hall hns
    have hread : pkts.flatten.length - out.2.length = pkts.flatten.length := by
      rw [hrest, List.length_nil, Nat.sub_zero]
    refine ⟨?_, ?_⟩
    · have hcomplete := hdelivers.delivered_eq
      rw [show pkts.flatten.length - (drain linkAsk (linkNext (linkCall pktLen8 process))
        (.new handler) pkts.flatten ns).2.length = pkts.flatten.length from hread,
        Ship.complete_of_length_le (Nat.le_refl _)] at hcomplete
      exact hcomplete
    · apply hdelivers.idle_iff.mpr
      refine ⟨pkts, List.prefix_refl _, hread.symm⟩

theorem mem_emitted {conn : Nat} {events : List Event} {pkt : List UInt8} :
    pkt ∈ emitted conn events ↔ ∃ e ∈ events, (conn, pkt) ∈ e.sent := by
  rw [emitted, List.mem_map]
  constructor
  · rintro ⟨s, hs, rfl⟩
    obtain ⟨hmem, hconn⟩ := List.mem_filter.mp hs
    obtain ⟨e, he, hsent⟩ := List.mem_flatMap.mp hmem
    obtain rfl := of_decide_eq_true hconn
    exact ⟨e, he, hsent⟩
  · rintro ⟨e, he, hsent⟩
    refine ⟨(conn, pkt), ?_, rfl⟩
    exact List.mem_filter.mpr ⟨List.mem_flatMap.mpr ⟨e, he, hsent⟩, decide_eq_true rfl⟩

theorem isPacket_emitted {conn : Nat} {events : List Event} {pkt : List UInt8}
    (h : pkt ∈ emitted conn events) : IsPacket pkt := by
  obtain ⟨e, -, hsent⟩ := mem_emitted.mp h
  exact (sentIf_event e).packets pkt (List.mem_map.mpr ⟨_, hsent, rfl⟩)

/-- All that is written is aligned if and only if all events are fine. -/
theorem aligned_emitted_iff (events : List Event) :
    (∀ conn, ∀ pkt ∈ emitted conn events, Aligned pkt) ↔ ∀ e ∈ events, e.Fine := by
  constructor
  · intro h e he
    apply (sentIf_event e).aligned_iff.mp
    intro pkt hpkt
    obtain ⟨s, hs, rfl⟩ := List.mem_map.mp hpkt
    exact h s.1 s.2 (mem_emitted.mpr ⟨e, he, hs⟩)
  · intro h conn pkt hpkt
    obtain ⟨e, he, hsent⟩ := mem_emitted.mp hpkt
    exact (sentIf_event e).aligned_iff.mpr (h e he) pkt (List.mem_map.mpr ⟨_, hsent, rfl⟩)

theorem recovers_emitted_iff (conn : Nat) (events : List Event) :
    Recovers (emitted conn events) ↔ ∀ pkt ∈ emitted conn events, Aligned pkt := by
  rw [recovers_iff_framed fun pkt hpkt => (isPacket_emitted hpkt).hdr_le]
  constructor
  · exact fun h pkt hpkt => (isPacket_emitted hpkt).framed_iff.mp (h pkt hpkt)
  · exact fun h pkt hpkt => (isPacket_emitted hpkt).framed_iff.mpr (h pkt hpkt)

/-- For every sequence of events, every ship recovers exactly the packets that are sent to it
if and only if all the events are fine. The same holds of as many bytes being written for each
packet as its length tells, rounded up to 8. -/
theorem ships_recover_iff (events : List Event) :
    ((∀ conn, Recovers (emitted conn events)) ↔ ∀ e ∈ events, e.Fine) ∧
      ((∀ conn, ∀ pkt ∈ emitted conn events, Aligned pkt) ↔ ∀ e ∈ events, e.Fine) := by
  have haligned := aligned_emitted_iff events
  refine ⟨?_, haligned⟩
  rw [← haligned]
  exact forall_congr' fun conn => recovers_emitted_iff conn events

/-- A ship. -/
def someShip : OnlineShip where
  name := [0x41]
  keyIdx := 1
  flags := 0
  remoteAddr := []
  remoteAddr6 := []
  port := 12000
  clients := 0
  games := 0
  menuCode := 0
  shipNumber := 1
  conn := 1

/-- A user of Blue Burst deletes a guildcard, and the query fails. -/
def failedDelete : Event :=
  .request someShip [someShip]
    (.bb (.ofList ([0, 40, 0, 2, 0, 0, 0, 0, 0, 0, 0, 1, 0, 0, 0, 0, 0, 0, 0, 7, 0, 0, 0, 1] ++
      [0x0C, 0, 0xE8, 0x05, 0, 0, 0, 0, 9, 0, 0, 0])) ⟨true, none, 0, none⟩)

/-- The error packet is of 28 bytes, of which the ship waits for 32. -/
theorem not_recovers_failedDelete :
    (emitted 1 [failedDelete]).map List.length = [28] ∧
      ¬(∀ pkt ∈ emitted 1 [failedDelete], Aligned pkt) ∧
      ¬Recovers (emitted 1 [failedDelete]) := by
  have hmisaligned : ¬∀ pkt ∈ emitted 1 [failedDelete], Aligned pkt := by
    unfold Aligned
    decide
  refine ⟨by decide, hmisaligned, ?_⟩
  rw [recovers_emitted_iff]
  exact hmisaligned

end Sylverant.Shipgate
