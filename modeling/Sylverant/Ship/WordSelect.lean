/-
# Word select

A message that is put together from a list of words has different codes for the words on
the Dreamcast, on the PC, and on the GameCube and Blue Burst, so that a message is
translated for the members of the lobby that are on another version. The message of a
client on Blue Burst is first copied into the form of one from the GameCube.

A packet is the memory it is received in, from its first byte on. The table of the words
is any table.
-/

import Sylverant.Ship.Version

namespace Sylverant.Ship.WordSelect

/-! ## Packets -/

/-- The memory at some place. -/
abbrev Bytes := Nat → UInt8

/-- The word at a position. -/
def word (b : Bytes) (i : Nat) : Nat := (b i).toNat + 256 * (b (i + 1)).toNat

/-- The array of twelve words at a position. -/
def wordsAt (b : Bytes) (i : Nat) : Nat → Nat := fun k => word b (i + 2 * k)

/-- `subcmd_word_select_t` -/
structure Pkt where
  pktType : UInt8
  flags : UInt8
  pktLen : Nat
  type : UInt8
  size : UInt8
  clientId : UInt8
  clientIdGc : UInt8
  numWords : UInt8
  unused1 : UInt8
  wsType : UInt8
  unused2 : UInt8
  words : Nat → Nat

/-- The packet that stands in memory. -/
def Pkt.read (b : Bytes) : Pkt where
  pktType := b 0
  flags := b 1
  pktLen := word b 2
  type := b 4
  size := b 5
  clientId := b 6
  clientIdGc := b 7
  numWords := b 8
  unused1 := b 9
  wsType := b 10
  unused2 := b 11
  words := wordsAt b 12

/-- `subcmd_bb_word_select_t` -/
structure BbPkt where
  pktLen : Nat
  pktType : Nat
  flags : UInt32
  type : UInt8
  size : UInt8
  clientId : UInt8
  clientIdGc : UInt8
  numWords : UInt8
  unused1 : UInt8
  wsType : UInt8
  unused2 : UInt8
  words : Nat → Nat

/-- The packet of a client on Blue Burst that stands in memory. -/
def BbPkt.read (b : Bytes) : BbPkt where
  pktLen := word b 0
  pktType := word b 2
  flags := (b 4).toUInt32 ||| ((b 5).toUInt32 <<< 8) ||| ((b 6).toUInt32 <<< 16) |||
    ((b 7).toUInt32 <<< 24)
  type := b 8
  size := b 9
  clientId := b 10
  clientIdGc := b 11
  numWords := b 12
  unused1 := b 13
  wsType := b 14
  unused2 := b 15
  words := wordsAt b 16

/-- `sizeof(subcmd_word_select_t)` -/
def sizeofPkt : Nat := 36

/-- `sizeof(dc_pkt_hdr_t)` -/
def sizeofHdr : Nat := 4

/-! ## Lobbies -/

/-- A member of the lobby, seen from the client that sends. -/
structure Member where
  version : Version
  isSender : Bool := false
  /-- `client_has_ignored` -/
  hasIgnored : Bool := false

/-- The lobby of the client that sends. -/
structure Lobby where
  maxClients : Nat
  clients : Nat → Option Member

/-- The client that sends, with its flags `CLIENT_FLAG_GC_PROTECT` and
`CLIENT_FLAG_STFU`. -/
structure Sender where
  gcProtect : Bool := false
  stfu : Bool := false

/-- A packet to a member. -/
inductive Sent
  | dc (pkt : Pkt)
  | bb (pkt : BbPkt)

/-- What comes of a packet: the sender gets one of two texts, nothing is done, or each slot
gets a packet or none. The sender is told if some members missed it. -/
inductive Reply
  | needsLogin
  | ignored
  | invalid
  | sent (gets : Nat → Option Sent) (missed : Bool)

/-! ## Translation -/

/-- `WORD_SELECT_GC_MAX` -/
def wordSelectGcMax : Nat := 0x0698

section Translation

variable (gcMap : Nat → Nat × Nat)

/-- The word for the Dreamcast. -/
def dcWord (gcw : Nat) : Nat := if gcw ≠ 0xFFFF then (gcMap gcw).1 else 0xFFFF

/-- The word for the PC. -/
def pcWord (gcw : Nat) : Nat := if gcw ≠ 0xFFFF then (gcMap gcw).2 else 0xFFFF

/-- One of the words is not in the table. -/
def Invalid (words : Nat → Nat) : Prop :=
  ∃ i < 8, words i > wordSelectGcMax ∧ words i ≠ 0xFFFF

/-- One of the words has no translation. -/
def Untrans (tr : Nat → Nat) (words : Nat → Nat) : Prop :=
  ∃ i < 8, tr (words i) = 0xFFFF ∧ words i ≠ 0xFFFF

instance (words : Nat → Nat) : Decidable (Invalid words) :=
  inferInstanceAs (Decidable (∃ i < 8, _))

instance (tr words : Nat → Nat) : Decidable (Untrans tr words) :=
  inferInstanceAs (Decidable (∃ i < 8, _))

/-- The words of a message that is translated. What comes behind the first eight are
amounts. -/
def translate (tr : Nat → Nat) (words : Nat → Nat) : Nat → Nat := fun i =>
  if i < 8 then tr (words i) else words i

/-- The packet for members on the Dreamcast and the PC. -/
def toDc (pkt : Pkt) (words : Nat → Nat) : Pkt where
  pktType := 0x60
  flags := pkt.flags
  pktLen := 0x24
  type := 0x74
  size := 0x08
  clientId := pkt.clientIdGc
  clientIdGc := 0
  numWords := pkt.numWords
  unused1 := 0
  wsType := pkt.wsType
  unused2 := 0
  words := words

/-- The packet for members on Blue Burst. -/
def toBb (pkt : Pkt) : BbPkt where
  pktLen := 0x28
  pktType := 0x60
  flags := pkt.flags.toUInt32
  type := 0x74
  size := 0x08
  clientId := pkt.clientIdGc
  clientIdGc := 0
  numWords := pkt.numWords
  unused1 := 0
  wsType := pkt.wsType
  unused2 := 0
  words := pkt.words

/-- What a member of a version gets of a message. -/
def sentTo (pkt : Pkt) : Version → Option Sent
  | .dcv1 | .dcv2 =>
      if Untrans (dcWord gcMap) pkt.words then none
      else some (.dc (toDc pkt (translate (dcWord gcMap) pkt.words)))
  | .pc =>
      if Untrans (pcWord gcMap) pkt.words then none
      else some (.dc (toDc pkt (translate (pcWord gcMap) pkt.words)))
  | .gc | .ep3 => some (.dc pkt)
  | .bb => some (.bb (toBb pkt))

/-- Whether a message is sent to the member in a slot. -/
def receiver (l : Lobby) (i : Nat) : Option Member :=
  if i < l.maxClients then
    (l.clients i).filter fun m => ¬m.isSender ∧ ¬m.hasIgnored
  else none

/-- Some member on a version that the message has no translation for is left out. -/
def missed (l : Lobby) (pkt : Pkt) : Bool :=
  (List.range l.maxClients).any fun i =>
    match receiver l i with
    | none => false
    | some m => (sentTo gcMap pkt m.version).isNone

/-- `word_select_send_gc`. -/
def wordSelectSendGc (l : Lobby) (pkt : Pkt) : Reply :=
  if Invalid pkt.words then .invalid
  else .sent (fun i => (receiver l i).bind fun m => sentTo gcMap pkt m.version) (missed gcMap l pkt)

/-- `handle_word_select`, for a client on the GameCube. -/
def handleWordSelect (c : Sender) (l : Lobby) (pkt : Pkt) : Reply :=
  if c.gcProtect then .needsLogin
  else if c.stfu then .ignored
  else wordSelectSendGc gcMap l pkt

/-- The packet that `handle_bb_word_select` makes of that in memory. Before it is assigned
to, `gc` holds `garbage`. -/
def copyToGc (garbage b : Bytes) : Pkt :=
  let pkt := BbPkt.read b
  { Pkt.read fun i => if i < sizeofPkt - sizeofHdr then b i else garbage i with
    clientIdGc := pkt.clientId
    pktType := pkt.pktType.toUInt8
    flags := pkt.flags.toUInt8
    pktLen := pkt.pktLen - 4 }

/-- `handle_bb_word_select`. -/
def handleBbWordSelect (garbage : Bytes) (c : Sender) (l : Lobby) (b : Bytes) : Reply :=
  if c.gcProtect then .needsLogin
  else if c.stfu then .ignored
  else wordSelectSendGc gcMap l (copyToGc garbage b)

end Translation

/-! ## What a message says -/

/-- What a message says: who sent it, how many words it has, of what sort it is, and the
words. -/
@[ext]
structure Content where
  sender : UInt8
  numWords : UInt8
  wsType : UInt8
  words : List Nat

/-- The first twelve words of an array. -/
def twelve (words : Nat → Nat) : List Nat := (List.range 12).map words

/-- What a member of a version reads in a packet. On the GameCube the sender is in another
place. -/
def Sent.content (v : Version) : Sent → Content
  | .dc pkt =>
      { sender := if v = .gc ∨ v = .ep3 then pkt.clientIdGc else pkt.clientId
        numWords := pkt.numWords
        wsType := pkt.wsType
        words := twelve pkt.words }
  | .bb pkt =>
      { sender := pkt.clientId
        numWords := pkt.numWords
        wsType := pkt.wsType
        words := twelve pkt.words }

/-- Two messages are rejected alike, or say the same to every member. -/
def SameMeaning (l : Lobby) : Reply → Reply → Prop
  | .needsLogin, .needsLogin => True
  | .ignored, .ignored => True
  | .invalid, .invalid => True
  | .sent gets _, .sent gets' _ =>
      ∀ i m, receiver l i = some m →
        (gets i).map (Sent.content m.version) = (gets' i).map (Sent.content m.version)
  | _, _ => False

/-- The packet from the GameCube with the same fields. -/
def sameFields (pkt : BbPkt) : Pkt where
  pktType := 0x60
  flags := pkt.flags.toUInt8
  pktLen := 0x24
  type := pkt.type
  size := pkt.size
  clientId := pkt.clientIdGc
  clientIdGc := pkt.clientId
  numWords := pkt.numWords
  unused1 := pkt.unused1
  wsType := pkt.wsType
  unused2 := pkt.unused2
  words := pkt.words

/-! ## The copy -/

/-- The words after the copy, which begins four bytes too early: two fields of the packet
come before its words, and the last two words are those that were in memory. -/
def shifted (garbage : Bytes) (pkt : BbPkt) : Nat → Nat
  | 0 => pkt.numWords.toNat + 256 * pkt.unused1.toNat
  | 1 => pkt.wsType.toNat + 256 * pkt.unused2.toNat
  | k + 2 => if k < 8 then pkt.words k else word garbage (12 + 2 * (k + 2))

/-- The fields and the words of the packet that the copy makes. -/
theorem copyToGc_fields (garbage b : Bytes) :
    (copyToGc garbage b).clientIdGc = (BbPkt.read b).clientId ∧
      (copyToGc garbage b).numWords = (BbPkt.read b).type ∧
      (copyToGc garbage b).wsType = (BbPkt.read b).clientId ∧
      (copyToGc garbage b).words = shifted garbage (BbPkt.read b) := by
  refine ⟨rfl, rfl, rfl, ?_⟩
  funext k
  match k with
  | 0 => rfl
  | 1 => rfl
  | k + 2 =>
      rw [shifted]
      show word (fun i => if i < 32 then b i else garbage i) (12 + 2 * (k + 2)) = _
      rw [word]
      by_cases hk : k < 8
      · have hplace : 12 + 2 * (k + 2) = 16 + 2 * k := by omega
        rw [if_pos hk, if_pos (by omega), if_pos (by omega), hplace]
        rfl
      · rw [if_neg hk, if_neg (by omega), if_neg (by omega), word]

/-! ## What a member reads -/

section Members

variable (gcMap : Nat → Nat × Nat)

/-- The word for a version. -/
def wordFor : Version → Nat → Nat
  | .dcv1 | .dcv2 => dcWord gcMap
  | .pc => pcWord gcMap
  | .gc | .ep3 | .bb => id

/-- Words that are not translated lose nothing. -/
theorem not_untrans_id (words : Nat → Nat) : ¬Untrans id words := by
  rintro ⟨i, -, heq, hne⟩
  exact hne heq

theorem translate_id (words : Nat → Nat) : translate id words = words := by
  funext i
  rw [translate, id, ite_self]

/-- A member reads what was sent, in the words of its version, or misses the message. -/
theorem content_sentTo (pkt : Pkt) (v : Version) :
    (sentTo gcMap pkt v).map (Sent.content v) =
      if Untrans (wordFor gcMap v) pkt.words then none
      else some
        { sender := pkt.clientIdGc
          numWords := pkt.numWords
          wsType := pkt.wsType
          words := twelve (translate (wordFor gcMap v) pkt.words) } := by
  cases v with
  | dcv1 | dcv2 | pc =>
      rw [sentTo, wordFor]
      split
      · rfl
      · rfl
  | gc | ep3 | bb =>
      rw [wordFor, if_neg (not_untrans_id pkt.words), translate_id]
      rfl

/-- The words of two messages mean the same for a version. -/
def SameWords (v : Version) (words words' : Nat → Nat) : Prop :=
  ∀ k < 12, translate (wordFor gcMap v) words k = translate (wordFor gcMap v) words' k

/-- A member on a version misses the message both in its own words and in those of the
copy, or reads the same: the subcommand is as large as the number of words, the sender is
the sort of the message, and the words are those in front of them. -/
def ReadsSame (garbage : Bytes) (pkt : BbPkt) (v : Version) : Prop :=
  (Untrans (wordFor gcMap v) (shifted garbage pkt) ↔ Untrans (wordFor gcMap v) pkt.words) ∧
    (¬Untrans (wordFor gcMap v) pkt.words →
      pkt.type = pkt.numWords ∧ pkt.clientId = pkt.wsType ∧
        SameWords gcMap v (shifted garbage pkt) pkt.words)

theorem twelve_eq_iff (words words' : Nat → Nat) :
    twelve words = twelve words' ↔ ∀ k < 12, words k = words' k := by
  rw [twelve, twelve, List.map_inj_left]
  exact ⟨fun h k hk => h k (List.mem_range.mpr hk), fun h k hk => h k (List.mem_range.mp hk)⟩

/-- What a member gets of the copy is what it gets of the packet with the same fields just
if it reads the same. -/
theorem content_eq_iff (garbage b : Bytes) (v : Version) :
    (sentTo gcMap (copyToGc garbage b) v).map (Sent.content v) =
        (sentTo gcMap (sameFields (BbPkt.read b)) v).map (Sent.content v) ↔
      ReadsSame gcMap garbage (BbPkt.read b) v := by
  obtain ⟨hsender, hnum, htype, hwords⟩ := copyToGc_fields garbage b
  rw [content_sentTo, content_sentTo, hsender, hnum, htype, hwords, ReadsSame]
  have hsame : (sameFields (BbPkt.read b)).words = (BbPkt.read b).words := rfl
  rw [hsame]
  by_cases hcopy : Untrans (wordFor gcMap v) (shifted garbage (BbPkt.read b)) <;>
    by_cases hown : Untrans (wordFor gcMap v) (BbPkt.read b).words
  · rw [if_pos hcopy, if_pos hown]
    exact iff_of_true rfl ⟨iff_of_true hcopy hown, fun h => absurd hown h⟩
  · rw [if_pos hcopy, if_neg hown]
    exact iff_of_false (fun h => nomatch h) fun h => hown (h.1.mp hcopy)
  · rw [if_neg hcopy, if_pos hown]
    exact iff_of_false (fun h => nomatch h) fun h => hcopy (h.1.mpr hown)
  · rw [if_neg hcopy, if_neg hown, Option.some_inj, Content.ext_iff, twelve_eq_iff]
    constructor
    · rintro ⟨-, hnum', htype', hwords'⟩
      exact ⟨iff_of_false hcopy hown, fun _ => ⟨hnum', htype', hwords'⟩⟩
    · rintro ⟨-, hreads⟩
      obtain ⟨hnum', htype', hwords'⟩ := hreads hown
      exact ⟨rfl, hnum', htype', hwords'⟩

/-- The copy is as good as the message: the sender may not send anything, both are
rejected, or no member reads anything else. -/
def CopyHarmless (garbage : Bytes) (c : Sender) (l : Lobby) (pkt : BbPkt) : Prop :=
  c.gcProtect ∨ c.stfu ∨
    Invalid (shifted garbage pkt) ∧ Invalid pkt.words ∨
    ¬Invalid (shifted garbage pkt) ∧ ¬Invalid pkt.words ∧
      ∀ i m, receiver l i = some m → ReadsSame gcMap garbage pkt m.version

/-- A message from Blue Burst means the same as one from the GameCube just if the copy is
harmless. -/
theorem sameMeaning_iff (garbage : Bytes) (c : Sender) (l : Lobby) (b : Bytes) :
    SameMeaning l (handleBbWordSelect gcMap garbage c l b)
        (handleWordSelect gcMap c l (sameFields (BbPkt.read b))) ↔
      CopyHarmless gcMap garbage c l (BbPkt.read b) := by
  rw [handleBbWordSelect, handleWordSelect, CopyHarmless]
  by_cases hprotect : c.gcProtect
  · rw [if_pos hprotect, if_pos hprotect]
    exact iff_of_true trivial (.inl hprotect)
  rw [if_neg hprotect, if_neg hprotect]
  by_cases hstfu : c.stfu
  · rw [if_pos hstfu, if_pos hstfu]
    exact iff_of_true trivial (.inr (.inl hstfu))
  rw [if_neg hstfu, if_neg hstfu, wordSelectSendGc, wordSelectSendGc,
    (copyToGc_fields garbage b).2.2.2]
  have hsame : (sameFields (BbPkt.read b)).words = (BbPkt.read b).words := rfl
  rw [hsame]
  by_cases hcopy : Invalid (shifted garbage (BbPkt.read b)) <;>
    by_cases hown : Invalid (BbPkt.read b).words
  · rw [if_pos hcopy, if_pos hown]
    exact iff_of_true trivial (.inr (.inr (.inl ⟨hcopy, hown⟩)))
  · rw [if_pos hcopy, if_neg hown]
    refine iff_of_false (fun h => h) ?_
    rintro (h | h | ⟨-, h⟩ | ⟨h, -⟩)
    · exact hprotect h
    · exact hstfu h
    · exact hown h
    · exact h hcopy
  · rw [if_neg hcopy, if_pos hown]
    refine iff_of_false (fun h => h) ?_
    rintro (h | h | ⟨h, -⟩ | ⟨-, h, -⟩)
    · exact hprotect h
    · exact hstfu h
    · exact hcopy h
    · exact h hown
  · rw [if_neg hcopy, if_neg hown]
    constructor
    · intro hmeaning
      refine .inr (.inr (.inr ⟨hcopy, hown, fun i m hm => ?_⟩))
      have hi := hmeaning i m hm
      dsimp only at hi
      rw [hm] at hi
      exact (content_eq_iff gcMap garbage b m.version).mp hi
    · rintro (h | h | ⟨h, -⟩ | ⟨-, -, hreads⟩)
      · exact absurd h hprotect
      · exact absurd h hstfu
      · exact absurd h hcopy
      · intro i m hm
        dsimp only
        rw [hm]
        exact (content_eq_iff gcMap garbage b m.version).mpr (hreads i m hm)

end Members

/-- A message of one word, from the member in slot 0. -/
def oneWord : Bytes := fun i =>
  ([0x28, 0x00, 0x60, 0x00, 0x00, 0x00, 0x00, 0x00, 0x74, 0x08, 0x00, 0x00, 0x01, 0x00, 0x00, 0x00,
    0x02, 0x00] : List UInt8).getD i 0xFF

/-- The sender and a member on the GameCube. -/
def twoMembers : Lobby where
  maxClients := 4
  clients i :=
    if i = 0 then some { version := .bb, isSender := true }
    else if i = 1 then some { version := .gc }
    else none

/-- A member on the GameCube reads that there are 0x74 words and not one. -/
theorem not_sameMeaning :
    ¬SameMeaning twoMembers
      (handleBbWordSelect (fun w => (w, w)) (fun _ => 0) {} twoMembers oneWord)
      (handleWordSelect (fun w => (w, w)) {} twoMembers (sameFields (BbPkt.read oneWord))) := by
  intro hmeaning
  have hread := congrArg (Option.map Content.numWords) (hmeaning 1 { version := .gc } rfl)
  revert hread
  decide

end Sylverant.Ship.WordSelect
