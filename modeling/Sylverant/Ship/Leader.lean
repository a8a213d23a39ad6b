/-
# Leaders

When the leader of a game leaves, the game elects the member that has been there the
longest. The election compares the times of joining with the clock, strictly, so it
overlooks everyone who joined in the second that the leader leaves in. Where it elects
somebody, or falls back to slot 0 and somebody is in there, games keep a leader.
-/

import Sylverant.Ship.Membership

namespace Sylverant.Ship

open Scan (scan)

/-! ## Who may be elected -/

/-- A client is still in a lobby when another has left it. -/
def Stays (s : Block) (c : ClientRef) (l : LobbyRef) (d : ClientRef) : Prop :=
  d ≠ c ∧ (s.client d).curLobby = some l

/-- Nobody on Dreamcast or PC is still in a lobby when a client has left it. -/
def NoPreGc (s : Block) (c : ClientRef) (l : LobbyRef) : Prop :=
  ∀ d, Stays s c l d → (s.client d).preGc = false

/-- A client that may follow the leader: in a cross-platform game it is one on Dreamcast
or PC, as long as there is one. -/
def Candidate (s : Block) (c : ClientRef) (l : LobbyRef) (d : ClientRef) : Prop :=
  Stays s c l d ∧ ((s.lobby l).cross → NoPreGc s c l ∨ (s.client d).preGc)

/-- The condition under which the election goes right when a client leaves a lobby that it
leads: of the clients that may follow, one joined before the clock, or the fallback is
right because slot 0 is occupied and the version does not matter. -/
def Electable (now : Nat) (s : Block) (c : ClientRef) (l : LobbyRef) : Prop :=
  (∃ d, Candidate s c l d) →
    (∃ d, Candidate s c l d ∧ (s.client d).joinTime < now) ∨
      ((s.lobby l).cross → NoPreGc s c l) ∧ ∃ d, Stays s c l d ∧ (s.client d).clientId = 0

/-- What an election is for: a lobby that its leader leaves is led by the client that has
been there the longest, of those that may follow, and a cross-platform game switches to
Gamecube only when nobody on Dreamcast or PC is left. -/
structure Elected (s : Block) (c : ClientRef) (l : LobbyRef) (y : Lobby) : Prop where
  leader : (∃ d, Stays s c l d) → ∃ d, Candidate s c l d ∧ y.clients y.leaderId = some d ∧
    ∀ d', Candidate s c l d' → (s.client d).joinTime ≤ (s.client d').joinTime
  version : (s.lobby l).cross → y.version = .gc → NoPreGc s c l

section Election

variable {now : Nat} {s : Block} {c : ClientRef} {l : LobbyRef}

/-- As long as anybody is left, somebody may follow. -/
theorem exists_candidate (h : ∃ d, Stays s c l d) : ∃ d, Candidate s c l d := by
  by_cases hnone : NoPreGc s c l
  · obtain ⟨d, hd⟩ := h
    exact ⟨d, hd, fun _ => .inl hnone⟩
  · simp only [NoPreGc, not_forall, Bool.not_eq_false] at hnone
    obtain ⟨d, hd, hpre⟩ := hnone
    exact ⟨d, hd, fun _ => .inr hpre⟩

/-- What the loops of the election read of a slot. -/
theorem electKey_eq_some (hs : Seated s) (hl : (s.client c).curLobby = some l)
    (hlead : (s.client c).clientId = (s.lobby l).leaderId) {eligible : Client → Bool} {i k : Nat} :
    electKey s (s.lobby l) eligible i = some k ↔
      ∃ d, Stays s c l d ∧ (s.client d).clientId = i ∧ eligible (s.client d) ∧
        (s.client d).joinTime = k := by
  rw [electKey, ← hlead]
  constructor
  · intro h
    split_ifs at h with hi
    split at h
    · cases h
    · rename_i d hd
      split_ifs at h with heligible
      cases h
      obtain ⟨hcur, hid⟩ := hs.clients_iff.mp hd
      exact ⟨d, ⟨hs.ne_of_clients hl hd hi, hcur⟩, hid, heligible, rfl⟩
  · rintro ⟨d, ⟨hne, hcur⟩, rfl, heligible, rfl⟩
    have hi : (s.client d).clientId ≠ (s.client c).clientId := by
      intro heq
      have hsame := hs.clients_clientId hcur
      rw [heq, hs.clients_clientId hl] at hsame
      exact hne (Option.some.inj hsame).symm
    rw [if_neg hi, hs.clients_clientId hcur]
    exact if_pos heligible

/-- A loop of the election finds the one that joined first, if any joined before the
clock. -/
theorem scan_elect (now : Nat) (hs : Seated s) (hl : (s.client c).curLobby = some l)
    (hlead : (s.client c).clientId = (s.lobby l).leaderId) (eligible : Client → Bool) :
    (scan (electKey s (s.lobby l) eligible) (s.lobby l).maxClients (none, now) = (none, now) ∧
      ∀ d, Stays s c l d → eligible (s.client d) → now ≤ (s.client d).joinTime) ∨
    ∃ d, Stays s c l d ∧ eligible (s.client d) ∧ (s.client d).joinTime < now ∧
      (scan (electKey s (s.lobby l) eligible) (s.lobby l).maxClients (none, now)).1 =
        some (s.client d).clientId ∧
      ∀ d', Stays s c l d' → eligible (s.client d') →
        (s.client d).joinTime ≤ (s.client d').joinTime := by
  have hkey {d : ClientRef} (hd : Stays s c l d) (heligible : eligible (s.client d)) :
      (s.client d).clientId < (s.lobby l).maxClients ∧
        electKey s (s.lobby l) eligible (s.client d).clientId = some (s.client d).joinTime :=
    ⟨(hs.counted l).slot_lt _ d (hs.clients_clientId hd.2),
      (electKey_eq_some hs hl hlead).mpr ⟨d, hd, rfl, heligible, rfl⟩⟩
  obtain ⟨hscan, hlate⟩ | ⟨i, k, hscan, hi, hk, hearly, hmin⟩ :=
    Scan.scan_cases (electKey s (s.lobby l) eligible) (s.lobby l).maxClients now
  · refine .inl ⟨hscan, fun d hd heligible => ?_⟩
    exact hlate _ _ (hkey hd heligible).1 (hkey hd heligible).2
  · obtain ⟨d, hd, rfl, heligible, rfl⟩ := (electKey_eq_some hs hl hlead).mp hk
    refine .inr ⟨d, hd, heligible, hearly, by rw [hscan], fun d' hd' heligible' => ?_⟩
    exact hmin _ _ (hkey hd' heligible').1 (hkey hd' heligible').2

/-- The outcomes of an election: someone who may follow was elected, or the version was
switched over the heads of clients on Dreamcast or PC, or nobody was early enough. -/
theorem replaceLeader_cases (now : Nat) (hs : Seated s) (hl : (s.client c).curLobby = some l)
    (hlead : (s.client c).clientId = (s.lobby l).leaderId) :
    (∃ d, Candidate s c l d ∧ (s.client d).joinTime < now ∧
        (replaceLeader now s (s.lobby l)).leaderId = (s.client d).clientId ∧
        (∀ d', Candidate s c l d' → (s.client d).joinTime ≤ (s.client d').joinTime) ∧
        ((s.lobby l).cross → (replaceLeader now s (s.lobby l)).version = .gc → NoPreGc s c l)) ∨
      ((s.lobby l).cross ∧ ¬NoPreGc s c l ∧ (replaceLeader now s (s.lobby l)).version = .gc ∧
        ∀ d, Stays s c l d → (s.client d).preGc → now ≤ (s.client d).joinTime) ∨
      (((s.lobby l).cross → NoPreGc s c l) ∧ (replaceLeader now s (s.lobby l)).leaderId = 0 ∧
        ∀ d, Stays s c l d → now ≤ (s.client d).joinTime) := by
  have hall := scan_elect now hs hl hlead fun _ => true
  simp only [replaceLeader, lobbyElectLeaderCrossLocked, lobbyElectLeaderLocked]
  by_cases hcross : (s.lobby l).cross
  · simp only [if_pos hcross]
    obtain ⟨hscan, hlate⟩ | ⟨d, hd, hpre, hearly, hscan, hmin⟩ :=
      scan_elect now hs hl hlead Client.preGc
    · rw [hscan]
      simp only [if_true]
      by_cases hnone : NoPreGc s c l
      · obtain ⟨hscan, hlate⟩ | ⟨d, hd, -, hearly, hscan, hmin⟩ := hall
        · exact .inr (.inr ⟨fun _ => hnone, by rw [hscan]; rfl, fun d hd => hlate d hd rfl⟩)
        · exact .inl ⟨d, ⟨hd, fun _ => .inl hnone⟩, hearly, by rw [hscan]; rfl,
            fun d' hd' => hmin d' hd'.1 rfl, fun _ _ => hnone⟩
      · exact .inr (.inl ⟨hcross, hnone, trivial, hlate⟩)
    · rw [if_neg (by rw [hscan]; exact Option.some_ne_none _), hscan]
      refine .inl ⟨d, ⟨hd, fun _ => .inr hpre⟩, hearly, rfl, fun d' hd' => ?_, fun _ hgc => ?_⟩
      · obtain hnone | hpre' := hd'.2 hcross
        · rw [hnone d hd] at hpre
          cases hpre
        · exact hmin d' hd'.1 hpre'
      · -- the lobby keeps its version, which is not Gamecube
        have hlt := hcross.1
        rw [show (s.lobby l).version = .gc from hgc] at hlt
        exact absurd hlt (Nat.lt_irrefl _)
  · simp only [if_neg hcross]
    obtain ⟨hscan, hlate⟩ | ⟨d, hd, -, hearly, hscan, hmin⟩ := hall
    · exact .inr (.inr ⟨fun h => absurd h hcross, by rw [hscan]; rfl, fun d hd => hlate d hd rfl⟩)
    · exact .inl ⟨d, ⟨hd, fun h => absurd h hcross⟩, hearly, by rw [hscan]; rfl,
        fun d' hd' => hmin d' hd'.1 rfl, fun h => absurd h hcross⟩

/-- The clients that are left keep their slots. -/
theorem clients_dropSlot_iff (hs : Seated s) (hl : (s.client c).curLobby = some l) {i : Nat}
    {d : ClientRef} :
    (dropSlot now s (s.lobby l) (s.client c).clientId).clients i = some d ↔
      Stays s c l d ∧ (s.client d).clientId = i := by
  rw [dropSlot_clients]
  by_cases hi : i = (s.client c).clientId
  · subst hi
    rw [Function.update_self]
    refine ⟨fun h => (nomatch h), fun ⟨⟨hne, hcur⟩, hid⟩ => ?_⟩
    have hsame := hs.clients_clientId hcur
    rw [hid, hs.clients_clientId hl] at hsame
    exact absurd (Option.some.inj hsame).symm hne
  · rw [Function.update_of_ne hi, hs.clients_iff]
    refine ⟨fun ⟨hcur, hid⟩ => ⟨⟨?_, hcur⟩, hid⟩, fun ⟨⟨_, hcur⟩, hid⟩ => ⟨hcur, hid⟩⟩
    rintro rfl
    exact hi hid.symm

/-- The election goes right exactly under the condition. -/
theorem elected_iff (hs : Seated s) (hl : (s.client c).curLobby = some l)
    (hlead : (s.client c).clientId = (s.lobby l).leaderId)
    (hclock : ∀ d, (s.client d).curLobby = some l → (s.client d).joinTime ≤ now) :
    Elected s c l (dropSlot now s (s.lobby l) (s.client c).clientId) ↔ Electable now s c l := by
  have hleader : (dropSlot now s (s.lobby l) (s.client c).clientId).leaderId =
      (replaceLeader now s (s.lobby l)).leaderId := by
    rw [dropSlot_elected Lobby.leaderId fun _ _ _ _ => rfl, if_pos hlead]
  have hversion : (dropSlot now s (s.lobby l) (s.client c).clientId).version =
      (replaceLeader now s (s.lobby l)).version := by
    rw [dropSlot_elected Lobby.version fun _ _ _ _ => rfl, if_pos hlead]
  constructor
  · intro h hcandidate
    obtain ⟨d, hd, hslot, -⟩ := h.leader (hcandidate.imp fun _ hd => hd.1)
    obtain ⟨e, he, hearly, -⟩ | ⟨hcross, hsome, hgc, -⟩ | ⟨hnone, hzero, -⟩ :=
      replaceLeader_cases now hs hl hlead
    · exact .inl ⟨e, he, hearly⟩
    · exact absurd (h.version hcross (hversion.trans hgc)) hsome
    · rw [hleader, hzero] at hslot
      exact .inr ⟨hnone, d, (clients_dropSlot_iff hs hl).mp hslot⟩
  · intro h
    obtain ⟨e, he, -, hled, hmin, hgc⟩ | ⟨hcross, hsome, -, hlate⟩ | ⟨hnone, hzero, hlate⟩ :=
      replaceLeader_cases now hs hl hlead
    · refine ⟨fun _ => ⟨e, he, ?_, hmin⟩, fun hcross hversionGc => ?_⟩
      · rw [hleader, hled]
        exact (clients_dropSlot_iff hs hl).mpr ⟨he.1, rfl⟩
      · exact hgc hcross (hversion.symm.trans hversionGc)
    · -- the condition excludes the wrong switch of the version
      exfalso
      have hstays : ∃ d, Stays s c l d := by
        simp only [NoPreGc, not_forall] at hsome
        obtain ⟨d, hd, -⟩ := hsome
        exact ⟨d, hd⟩
      obtain ⟨d, hd, hearly⟩ | ⟨hnone, -⟩ := h (exists_candidate hstays)
      · obtain hnone | hpre := hd.2 hcross
        · exact hsome hnone
        · exact absurd (hlate d hd.1 hpre) (Nat.not_le_of_lt hearly)
      · exact hsome (hnone hcross)
    · refine ⟨fun hstays => ?_, fun hcross _ => hnone hcross⟩
      obtain ⟨d, hd, hearly⟩ | ⟨-, d, hd, hid⟩ := h (exists_candidate hstays)
      · exact absurd (hlate d hd.1) (Nat.not_le_of_lt hearly)
      · refine ⟨d, ⟨hd, fun hcross => .inl (hnone hcross)⟩, ?_, fun d' hd' => ?_⟩
        · rw [hleader, hzero]
          exact (clients_dropSlot_iff hs hl).mpr ⟨hd, hid⟩
        · -- all that are left joined in this second
          exact Nat.le_trans (hclock d hd.2) (hlate d' hd'.1)

end Election

/-! ## Runs -/

/-- Every game that has members has a leader among them. -/
def Led (s : Block) : Prop :=
  ∀ l, (s.lobby l).type ≠ .default → 0 < (s.lobby l).numClients →
    ∃ c, (s.lobby l).clients (s.lobby l).leaderId = some c

/-- A block, and the clock when its last call returned. -/
abbrev Clocked := Block × Nat

/-- An event, and the clock afterwards. -/
def tick (p : Clocked) (e : Event) : Clocked := (step p.1 e, e.1.later)

/-- The callers keep what they promise, and the clock does not go back. -/
def Timely (p : Clocked) (e : Event) : Prop :=
  Promised p.1 e ∧ p.2 ≤ e.1.now ∧ e.1.now ≤ e.1.later

instance (p : Clocked) (e : Event) : Decidable (Timely p e) :=
  inferInstanceAs (Decidable (_ ∧ _))

/-- If the event takes the leader out of a game, the election there goes right. -/
def ElectsOk (s : Block) (e : Event) : Prop :=
  ∀ c l, leaving s e = some (c, l) → (s.lobby l).type ≠ .default →
    (s.client c).clientId = (s.lobby l).leaderId → Electable e.1.later s c l

/-- What holds in a run whose elections go right. -/
structure LedBy (p : Clocked) : Prop where
  seated : Seated p.1
  joined : ∀ d l, (p.1.client d).curLobby = some l → (p.1.client d).joinTime ≤ p.2
  led : Led p.1

section Runs

variable {env : Env} {s s' s₀ : Block} {c : ClientRef} {l : LobbyRef} {old new : Option LobbyRef}
  {p : Clocked} {e : Event} {es : List Event} {t₀ : Nat}

theorem Elected.of_core {y z : Lobby} (h : Elected s c l y) (hcore : z.core = y.core) :
    Elected s c l z where
  leader hstays := by
    rw [Lobby.eq_of_core Lobby.clients (fun _ => rfl) hcore,
      Lobby.eq_of_core Lobby.leaderId (fun _ => rfl) hcore]
    exact h.leader hstays
  version := by
    rw [Lobby.eq_of_core Lobby.version (fun _ => rfl) hcore]
    exact h.version

/-- What a transfer does to a game that its leader leaves. -/
theorem Transfer.elected_iff (h : Transfer env s s' c (some l) new) (hnew : new ≠ some l)
    (hs : Seated s) (hlead : (s.client c).clientId = (s.lobby l).leaderId)
    (hclock : ∀ d, (s.client d).curLobby = some l → (s.client d).joinTime ≤ env.later) :
    Elected s c l (s'.lobby l) ↔ Electable env.later s c l :=
  Iff.trans ⟨fun helected => helected.of_core (h.left l rfl hnew).symm,
    fun helected => helected.of_core (h.left l rfl hnew)⟩
    (Ship.elected_iff hs h.before hlead hclock)

/-- A transfer keeps the times of joining behind the clock. -/
theorem Transfer.joinTime_le (h : Transfer env s s' c old new) {t : Nat} (hnow : t ≤ env.now)
    (hlater : env.now ≤ env.later)
    (hs : ∀ d l, (s.client d).curLobby = some l → (s.client d).joinTime ≤ t) {d : ClientRef}
    (hd : (s'.client d).curLobby = some l) : (s'.client d).joinTime ≤ env.later := by
  by_cases hdc : d = c
  · subst hdc
    have hnew : new = some l := h.after.symm.trans hd
    by_cases hold : old = some l
    · have hbefore := hs d l (h.before.trans hold)
      rw [(h.stayed (hold.trans hnew.symm)).2]
      omega
    · rw [(h.joined l hold hnew).2.1]
      exact hlater
  · rw [h.others d hdc] at hd ⊢
    have hbefore := hs d l hd
    omega

/-- A game that a client joins has a leader. -/
theorem led_fillSlot {x : Lobby} {clev i : Nat} (hx : x.clients i = none)
    (hled : 0 < x.numClients → ∃ d, x.clients x.leaderId = some d) :
    ∃ d, (fillSlot x c clev i).clients (fillSlot x c clev i).leaderId = some d := by
  rw [clients_fillSlot]
  by_cases hzero : x.numClients + 1 = 1
  · have hleader : (fillSlot x c clev i).leaderId = i := if_pos hzero
    rw [hleader, Function.update_self]
    exact ⟨c, rfl⟩
  · have hleader : (fillSlot x c clev i).leaderId = x.leaderId := if_neg hzero
    obtain ⟨d, hd⟩ := hled (by omega)
    have hne : x.leaderId ≠ i := by
      rintro rfl
      rw [hx] at hd
      cases hd
    rw [hleader, Function.update_of_ne hne]
    exact ⟨d, hd⟩

/-- A game keeps a leader when a client leaves it. -/
theorem led_dropSlot {now : Nat} (hs : Seated s) (hl : (s.client c).curLobby = some l)
    (htype : (s.lobby l).type ≠ .default) (hled : Led s)
    (helected : (s.client c).clientId = (s.lobby l).leaderId →
      Elected s c l (dropSlot now s (s.lobby l) (s.client c).clientId))
    (hpos : 0 < (dropSlot now s (s.lobby l) (s.client c).clientId).numClients) :
    ∃ d, (dropSlot now s (s.lobby l) (s.client c).clientId).clients
      (dropSlot now s (s.lobby l) (s.client c).clientId).leaderId = some d := by
  have hslot := hs.clients_clientId hl
  by_cases hlead : (s.client c).clientId = (s.lobby l).leaderId
  · -- somebody is left, so somebody was elected
    have hstays : ∃ d, Stays s c l d := by
      rw [((hs.counted l).dropSlot hslot).count] at hpos
      obtain ⟨i, d, -, hd⟩ := Slots.exists_of_filled_pos hpos
      exact ⟨d, ((clients_dropSlot_iff hs hl).mp hd).1⟩
    obtain ⟨d, -, hd, -⟩ := (helected hlead).leader hstays
    exact ⟨d, hd⟩
  · have hpos : 0 < (s.lobby l).numClients := by
      rw [(hs.counted l).count]
      exact Slots.filled_pos ((hs.counted l).slot_lt _ c hslot) hslot
    obtain ⟨d, hd⟩ := hled l htype hpos
    rw [dropSlot_elected Lobby.leaderId fun _ _ _ _ => rfl, if_neg hlead, dropSlot_clients,
      Function.update_of_ne (Ne.symm hlead)]
    exact ⟨d, hd⟩

/-- A game keeps a leader whatever is transferred, if the elections go right. -/
theorem Transfer.led (h : Transfer env s s' c old new) (hs : Seated s) (hled : Led s)
    (helected : ∀ l, old = some l → new ≠ some l → (s.lobby l).type ≠ .default →
      (s.client c).clientId = (s.lobby l).leaderId → Elected s c l (s'.lobby l)) : Led s' := by
  intro m htype hpos
  by_cases hold : old = some m <;> by_cases hnew : new = some m
  · have hcore := h.kept m ⟨fun _ => hnew, fun _ => hold⟩
    rw [Lobby.eq_of_core Lobby.type (fun _ => rfl) hcore] at htype
    rw [Lobby.eq_of_core Lobby.numClients (fun _ => rfl) hcore] at hpos
    rw [Lobby.eq_of_core Lobby.clients (fun _ => rfl) hcore,
      Lobby.eq_of_core Lobby.leaderId (fun _ => rfl) hcore]
    exact hled m htype hpos
  · have hcore := h.left m hold hnew
    rw [Lobby.eq_of_core Lobby.type (fun _ => rfl) hcore, dropSlot_type] at htype
    rw [Lobby.eq_of_core Lobby.numClients (fun _ => rfl) hcore] at hpos
    rw [Lobby.eq_of_core Lobby.clients (fun _ => rfl) hcore,
      Lobby.eq_of_core Lobby.leaderId (fun _ => rfl) hcore]
    exact led_dropSlot hs (h.before.trans hold) htype hled
      (fun hlead => (helected m hold hnew htype hlead).of_core hcore.symm) hpos
  · obtain ⟨-, -, hslot, -, clev, hcore⟩ := h.joined m hold hnew
    rw [Lobby.eq_of_core Lobby.type (fun _ => rfl) hcore] at htype
    rw [Lobby.eq_of_core Lobby.clients (fun _ => rfl) hcore,
      Lobby.eq_of_core Lobby.leaderId (fun _ => rfl) hcore]
    exact led_fillSlot ((hs.counted m).slotFor hslot).2 (hled m htype)
  · have hcore := h.kept m ⟨fun heq => absurd heq hold, fun heq => absurd heq hnew⟩
    rw [Lobby.eq_of_core Lobby.type (fun _ => rfl) hcore] at htype
    rw [Lobby.eq_of_core Lobby.numClients (fun _ => rfl) hcore] at hpos
    rw [Lobby.eq_of_core Lobby.clients (fun _ => rfl) hcore,
      Lobby.eq_of_core Lobby.leaderId (fun _ => rfl) hcore]
    exact hled m htype hpos

/-- A client that leaves is transferred from the lobby that it leaves. -/
theorem transfer_of_leaving (h : Seated s) (hok : Promised s e)
    (hleaving : leaving s e = some (c, l)) :
    ∃ new, new ≠ some l ∧ Transfer e.1 s (step s e) c (some l) new := by
  obtain ⟨d, old, new, htransfer, heq, -⟩ := step_cases h hok
  rw [hleaving] at heq
  split_ifs at heq with hsame
  obtain ⟨m, rfl, hpair⟩ := Option.map_eq_some_iff.mp heq.symm
  cases hpair
  exact ⟨new, fun hnew => hsame hnew.symm, htransfer⟩

/-- In the course of a run, an election goes right exactly under the condition. -/
theorem LedBy.elected_iff (h : LedBy p) (hok : Timely p e) (hleaving : leaving p.1 e = some (c, l))
    (hlead : (p.1.client c).clientId = (p.1.lobby l).leaderId) :
    Elected p.1 c l ((step p.1 e).lobby l) ↔ Electable e.1.later p.1 c l := by
  obtain ⟨new, hnew, htransfer⟩ := transfer_of_leaving h.seated hok.1 hleaving
  refine htransfer.elected_iff hnew h.seated hlead fun d hd => ?_
  exact Nat.le_trans (h.joined d l hd) (Nat.le_trans hok.2.1 hok.2.2)

theorem ledBy_tick (p : Clocked) (e : Event) (h : LedBy p)
    (hok : Timely p e ∧ ElectsOk p.1 e) : LedBy (tick p e) := by
  obtain ⟨htimely, helects⟩ := hok
  obtain ⟨c, old, new, htransfer, hleaving, -⟩ := step_cases h.seated htimely.1
  refine ⟨htransfer.seated h.seated, fun d l hd => ?_, ?_⟩
  · exact htransfer.joinTime_le htimely.2.1 htimely.2.2 h.joined hd
  · refine htransfer.led h.seated h.led fun l hold hnew htype hlead => ?_
    have hleaves : leaving p.1 e = some (c, l) := by
      rw [hleaving, hold, if_neg fun heq => hnew heq.symm]
      rfl
    exact (h.elected_iff htimely hleaves hlead).mpr (helects c l hleaves htype hlead)

theorem Block.Empty.ledBy (h : s.Empty) (t : Nat) : LedBy (s, t) where
  seated := h.seated
  joined d l hd := by
    rw [h.curLobby] at hd
    cases hd
  led l _ hpos := absurd (h.numClients l) (Nat.ne_of_gt hpos)

/-- Wherever the calls lead from empty lobbies while the clock does not go back, and as long
as each election meets the condition, every game that has members has a leader among them.
There, an election chooses the right leader exactly under the condition. -/
theorem leader_run (hempty : s₀.Empty)
    (hrun : Run.Guarded tick (fun p e => Timely p e ∧ ElectsOk p.1 e) (s₀, t₀) es)
    (hp : p = es.foldl tick (s₀, t₀)) :
    Led p.1 ∧
      ∀ e c l, Timely p e → leaving p.1 e = some (c, l) → (p.1.lobby l).type ≠ .default →
        (p.1.client c).clientId = (p.1.lobby l).leaderId →
        (Elected p.1 c l ((step p.1 e).lobby l) ↔ Electable e.1.later p.1 c l) := by
  have hled : LedBy p := hp ▸ hrun.invariant ledBy_tick (hempty.ledBy t₀)
  exact ⟨hled.led, fun e c l htimely hleaving _ hlead => hled.elected_iff htimely hleaving hlead⟩

/-- Two clients join the game in the same second, and the first leaves later. -/
def joinsAndLeaves (leave : Nat) : List Event :=
  [({ now := 1 }, .addToAny 0 none), ({ now := 1 }, .changeLobby 0 1), ({ now := 1 }, .doneBurst 0),
    ({ now := 1 }, .addToAny 1 none), ({ now := 1 }, .changeLobby 1 1),
    ({ now := leave }, .removePlayer 0)]

/-- Leaving a lobby that is no game, or where the condition holds. -/
theorem electsOk_of_leaving (h : leaving s e = some (c, l))
    (hok : (s.lobby l).type ≠ .default → Electable e.1.later s c l) : ElectsOk s e := by
  intro d m hleaving htype _
  obtain ⟨rfl, rfl⟩ := Prod.mk.inj (Option.some.inj (h.symm.trans hleaving))
  exact hok htype

theorem electsOk_of_not_leaving (h : leaving s e = none) : ElectsOk s e := by
  intro d m hleaving
  rw [h] at hleaving
  cases hleaving

theorem guarded_joinsAndLeaves :
    Run.Guarded tick (fun p e => Timely p e ∧ ElectsOk p.1 e) (twoLobbies, 0)
      (joinsAndLeaves 2) := by
  refine ⟨⟨by decide, electsOk_of_not_leaving rfl⟩,
    ⟨by decide, electsOk_of_leaving (c := 0) (l := 0) (by decide) fun h => absurd rfl h⟩,
    ⟨by decide, electsOk_of_not_leaving rfl⟩, ⟨by decide, electsOk_of_not_leaving rfl⟩,
    ⟨by decide, electsOk_of_leaving (c := 1) (l := 0) (by decide) fun h => absurd rfl h⟩,
    ⟨by decide, electsOk_of_leaving (c := 0) (l := 1) (by decide) fun _ _ => ?_⟩, trivial⟩
  exact .inl ⟨1, ⟨⟨by decide, by decide⟩, fun hcross => absurd hcross (by decide)⟩, by decide⟩

theorem leader_run_joinsAndLeaves : Led ((joinsAndLeaves 2).foldl tick (twoLobbies, 0)).1 :=
  (leader_run empty_twoLobbies guarded_joinsAndLeaves rfl).1

/-- A game is left without a leader when the first leaves in the second that both joined. -/
theorem not_led_sameSecond :
    twoLobbies.Empty ∧ Run.Guarded tick Timely (twoLobbies, 0) (joinsAndLeaves 1) ∧
      ¬Led ((joinsAndLeaves 1).foldl tick (twoLobbies, 0)).1 := by
  refine ⟨empty_twoLobbies, by decide, fun hled => ?_⟩
  obtain ⟨c, hc⟩ := hled 1 (by decide) (by decide)
  have hnone : (((joinsAndLeaves 1).foldl tick (twoLobbies, 0)).1.lobby 1).clients
      (((joinsAndLeaves 1).foldl tick (twoLobbies, 0)).1.lobby 1).leaderId = none := by decide
  rw [hnone] at hc
  cases hc

end Runs

end Sylverant.Ship
