/-
# Where the lobbies are

Every lobby that was allocated is in the list, or waits for an answer, or was freed, and
only once in only one of these. This holds also while a packet is handled, and together
with what is known of the clients it is kept by everything that happens to lobbies.
-/

import Sylverant.Library.Counting
import Sylverant.Ship.Games
import Sylverant.Ship.Membership

namespace Sylverant.Ship

open Function (update)

/-! ## Accounts -/

/-- The number of connected clients that a lobby waits for. -/
def waitingFor (s : Block) (l : LobbyRef) : Nat :=
  s.clients.countP fun c => (s.client c).createLobby = some l

/-- How often a lobby is in the list, waits, or was freed. -/
def uses (s : Block) (l : LobbyRef) : Nat :=
  s.lobbies.count l + waitingFor s l + s.freed.count l

/-- The number of games in the list. -/
def games (s : Block) : Nat := s.lobbies.countP fun l => (s.lobby l).type ≠ .default

/-- What holds at all times, also while a packet is handled. -/
structure Accounted (s : Block) : Prop where
  seated : Seated s
  uses_eq : ∀ l, uses s l = if l < s.fresh then 1 else 0
  numGames : s.numGames = games s
  nodupClients : s.clients.Nodup
  connected : ∀ c, c ∉ s.clients → (s.client c).curLobby = none
  waits : ∀ c ∈ s.clients, ∀ l, (s.client c).createLobby = some l →
    (s.lobby l).type ≠ .default ∧ 1 < (s.lobby l).maxClients

theorem count_cons_eq (l m : LobbyRef) (ms : List LobbyRef) :
    (m :: ms).count l = ms.count l + if l = m then 1 else 0 := by
  by_cases h : l = m
  · rw [h, List.count_cons_self, if_pos rfl]
  · rw [List.count_cons_of_ne (Ne.symm h), if_neg h, Nat.add_zero]

namespace Accounted

variable {s : Block} {c : ClientRef} {l : LobbyRef}

/-- A lobby in the list is there once, and is nowhere else. -/
theorem of_mem (h : Accounted s) (hl : l ∈ s.lobbies) :
    s.lobbies.count l = 1 ∧ waitingFor s l = 0 ∧ s.freed.count l = 0 ∧ l < s.fresh := by
  have hcount : 0 < s.lobbies.count l := List.count_pos_iff.mpr hl
  have huses := h.uses_eq l
  rw [uses] at huses
  split_ifs at huses with hlt
  · exact ⟨by omega, by omega, by omega, hlt⟩
  · omega

/-- No lobby is in the list twice. -/
theorem nodup (h : Accounted s) : s.lobbies.Nodup := by
  refine List.nodup_iff_count_le_one.mpr fun l => ?_
  by_cases hl : l ∈ s.lobbies
  · exact Nat.le_of_eq (h.of_mem hl).1
  · rw [List.count_eq_zero_of_not_mem hl]
    exact Nat.zero_le 1

/-- The next lobby to be allocated is nowhere. -/
theorem fresh (h : Accounted s) :
    s.fresh ∉ s.lobbies ∧ waitingFor s s.fresh = 0 ∧ s.freed.count s.fresh = 0 := by
  have huses := h.uses_eq s.fresh
  rw [uses, if_neg (Nat.lt_irrefl _)] at huses
  exact ⟨fun hmem => Nat.lt_irrefl _ (h.of_mem hmem).2.2.2, by omega, by omega⟩

/-- A client that a lobby waits for counts. -/
theorem waitingFor_pos (hc : c ∈ s.clients) (hl : (s.client c).createLobby = some l) :
    0 < waitingFor s l :=
  List.countP_pos_iff.mpr ⟨c, hc, decide_eq_true hl⟩

/-- A lobby that waits is not in the list. -/
theorem not_mem_of_waiting (h : Accounted s) (hc : c ∈ s.clients)
    (hl : (s.client c).createLobby = some l) : l ∉ s.lobbies := by
  intro hmem
  have hpos := waitingFor_pos hc hl
  rw [(h.of_mem hmem).2.1] at hpos
  exact absurd hpos (Nat.lt_irrefl 0)

/-- A lobby that is not in the list is empty. -/
theorem empty (h : Accounted s) (hl : l ∉ s.lobbies) :
    (∀ i, (s.lobby l).clients i = none) ∧ (s.lobby l).numClients = 0 := by
  have hnone (i : Nat) : (s.lobby l).clients i = none := by
    cases hi : (s.lobby l).clients i with
    | none => rfl
    | some d => exact absurd (h.seated.listed d l (h.seated.clients_iff.mp hi).1) hl
  exact ⟨hnone, (h.seated.counted l).count.trans
    (Slots.filled_eq_zero_iff.mpr fun i _ => hnone i)⟩

end Accounted

/-! ## Transfers -/

section Transfers

variable {env : Env} {s s' : Block} {c : ClientRef} {l m : LobbyRef} {old new : Option LobbyRef}

theorem Transfer.createLobby_eq (h : Transfer env s s' c old new) (d : ClientRef) :
    (s'.client d).createLobby = (s.client d).createLobby := by
  by_cases hd : d = c
  · rw [hd, h.createLobby]
  · rw [h.others d hd]

theorem Transfer.waitingFor_eq (h : Transfer env s s' c old new) :
    waitingFor s' l = waitingFor s l := by
  simp only [waitingFor, h.clients, h.createLobby_eq]

/-- A lobby that leaves the list is freed. -/
theorem Transfer.uses_eq (h : Transfer env s s' c old new) (hs : Seated s) :
    uses s' l = uses s l := by
  rw [uses, uses, h.waitingFor_eq]
  obtain ⟨-, hlobbies, -, hfreed⟩ | ⟨k, ⟨hk, -⟩, hlobbies, -, hfreed⟩ := h.cleared
  · rw [hlobbies, hfreed]
  · have hmem : k ∈ s.lobbies := hs.listed c k (h.before.trans hk)
    rw [hlobbies, hfreed]
    by_cases hl : l = k
    · subst hl
      have hcount := List.count_pos_iff.mpr hmem
      rw [List.count_erase_self, List.count_cons_self]
      omega
    · rw [List.count_erase_of_ne hl, List.count_cons_of_ne (Ne.symm hl)]

/-- Games are counted as they leave the list. -/
theorem Transfer.numGames_eq (h : Transfer env s s' c old new) (hs : Seated s)
    (hnum : s.numGames = games s) : s'.numGames = games s' := by
  have htype : games s' = s'.lobbies.countP fun l => (s.lobby l).type ≠ .default := by
    simp only [games, h.type_eq]
  obtain ⟨-, hlobbies, hgames, -⟩ | ⟨k, ⟨hk, -, hgame, -⟩, hlobbies, hgames, -⟩ := h.cleared
  · rw [htype, hlobbies, hgames, hnum, games]
  · have hmem : k ∈ s.lobbies := hs.listed c k (h.before.trans hk)
    have hcount := Counting.countP_erase (p := fun l => decide ((s.lobby l).type ≠ .default)) hmem
    rw [decide_eq_true hgame, Bool.toNat_true] at hcount
    rw [htype, hlobbies, hgames, hnum, games]
    omega

/-- Transfers keep the accounts. -/
theorem Transfer.accounted (h : Transfer env s s' c old new) (hs : Accounted s)
    (hc : c ∈ s.clients ∨ old = new) : Accounted s' where
  seated := h.seated hs.seated
  uses_eq l := by rw [h.uses_eq hs.seated, hs.uses_eq, h.fresh]
  numGames := h.numGames_eq hs.seated hs.numGames
  nodupClients := by
    rw [h.clients]
    exact hs.nodupClients
  connected d hd := by
    rw [h.clients] at hd
    by_cases hdc : d = c
    · subst hdc
      have hold := hs.connected d hd
      rw [h.before] at hold
      rw [h.after, ← hc.resolve_left hd, hold]
    · rw [h.others d hdc]
      exact hs.connected d hd
  waits d hd l hl := by
    rw [h.clients] at hd
    rw [h.createLobby_eq] at hl
    rw [h.type_eq, h.maxClients_eq]
    exact hs.waits d hd l hl

end Transfers

/-! ## Beginnings and ends -/

section Lifetimes

variable {s t : Block} {x : Lobby} {c : ClientRef} {l g : LobbyRef}

/-- Lobbies and clients that are where they were. -/
theorem Seated.congr (h : Seated s) (hcounted : ∀ l, (t.lobby l).Counted)
    (hclients : ∀ l, (t.lobby l).clients = (s.lobby l).clients)
    (hseat : ∀ c, seat t c = seat s c)
    (hlisted : ∀ c l, (s.client c).curLobby = some l → l ∈ t.lobbies) : Seated t where
  paired := by
    have hguest : guest t = guest s := by
      funext p
      rw [guest, guest, hclients]
    rw [hguest, funext hseat]
    exact h.paired
  counted := hcounted
  listed c l hl := by
    have hsame := seat_eq_some.mpr ⟨hl, rfl⟩
    rw [hseat] at hsame
    exact hlisted c l (seat_eq_some.mp hsame).1

/-- Writing to a client without changing its place. -/
theorem seat_modifyClient (g : Client → Client)
    (hcur : (g (s.client c)).curLobby = (s.client c).curLobby)
    (hid : (g (s.client c)).clientId = (s.client c).clientId) (d : ClientRef) :
    seat (s.modifyClient c g) d = seat s d := by
  rw [seat, seat, apply_client_modifyClient s c d g Client.curLobby hcur,
    apply_client_modifyClient s c d g Client.clientId hid]

theorem lobby_alloc_self : (s.alloc x).lobby s.fresh = x := Function.update_self ..

theorem lobby_alloc_of_ne (h : l ≠ s.fresh) : (s.alloc x).lobby l = s.lobby l :=
  Function.update_of_ne h ..

/-- A new lobby, as long as it has no clients. -/
structure Lobby.New (x : Lobby) : Prop where
  counted : x.Counted
  clients : ∀ i, x.clients i = none
  game : x.type ≠ .default

namespace Accounted

/-- Allocating a lobby changes nothing for the others. -/
theorem seated_alloc (h : Accounted s) (hx : x.New) : Seated (s.alloc x) := by
  refine h.seated.congr (fun l => ?_) (fun l => ?_) (fun _ => rfl) h.seated.listed
  · by_cases hl : l = s.fresh
    · rw [hl, lobby_alloc_self]
      exact hx.counted
    · rw [lobby_alloc_of_ne hl]
      exact h.seated.counted l
  · by_cases hl : l = s.fresh
    · rw [hl, lobby_alloc_self]
      funext i
      rw [hx.clients, (h.empty h.fresh.1).1]
    · rw [lobby_alloc_of_ne hl]

theorem games_alloc (h : Accounted s) : games (s.alloc x) = games s := by
  refine List.countP_congr fun l hl => ?_
  have hne : l ≠ s.fresh := fun heq => h.fresh.1 (heq ▸ hl)
  rw [lobby_alloc_of_ne hne]

theorem waits_alloc (h : Accounted s) (hc : c ∈ s.clients)
    (hl : (s.client c).createLobby = some l) : (s.alloc x).lobby l = s.lobby l := by
  refine lobby_alloc_of_ne ?_
  rintro rfl
  have hpos := waitingFor_pos hc hl
  rw [h.fresh.2.1] at hpos
  exact absurd hpos (Nat.lt_irrefl 0)

/-- Counting one lobby more. -/
theorem uses_fresh (h : Accounted s) {n : Nat}
    (hn : n = uses s l + (if l = s.fresh then 1 else 0)) :
    n = if l < s.fresh + 1 then 1 else 0 := by
  rw [hn, h.uses_eq]
  by_cases hl : l = s.fresh
  · rw [hl, if_pos rfl, if_neg (Nat.lt_irrefl _), if_pos (Nat.lt_succ_self _)]
  · rw [if_neg hl, Nat.add_zero]
    refine if_congr ⟨Nat.lt_succ_of_lt, fun hlt => ?_⟩ rfl rfl
    exact (Nat.lt_succ_iff_lt_or_eq.mp hlt).resolve_right hl

/-- A game that is allocated and put in the list. -/
theorem created (h : Accounted s) (hx : x.New) : Accounted (insertGame (s.alloc x) s.fresh) where
  seated := by
    refine (h.seated_alloc hx).congr (h.seated_alloc hx).counted (fun _ => rfl) (fun _ => rfl)
      fun d l hl => ?_
    exact List.mem_append_left _ ((h.seated_alloc hx).listed d l hl)
  uses_eq l := by
    refine h.uses_fresh ?_
    show (s.lobbies ++ [s.fresh]).count l + waitingFor s l + s.freed.count l = _
    rw [List.count_append, count_cons_eq, List.count_nil, uses]
    omega
  numGames := by
    show s.numGames + 1 = ((s.lobbies ++ [s.fresh]).countP fun l =>
      decide (((s.alloc x).lobby l).type ≠ .default) : Nat)
    have hgames : games (s.alloc x) = games s := h.games_alloc
    rw [List.countP_append, List.countP_singleton, lobby_alloc_self, decide_eq_true hx.game,
      if_pos rfl, h.numGames, ← hgames]
    rfl
  nodupClients := h.nodupClients
  connected := h.connected
  waits d hd l hl := by
    show ((s.alloc x).lobby l).type ≠ _ ∧ 1 < ((s.alloc x).lobby l).maxClients
    rw [h.waits_alloc hd hl]
    exact h.waits d hd l hl

/-- A game that is freed right after it was allocated. -/
theorem failed (h : Accounted s) (hx : x.New) :
    Accounted { s.alloc x with freed := s.fresh :: s.freed } where
  seated := (h.seated_alloc hx).congr (h.seated_alloc hx).counted (fun _ => rfl) (fun _ => rfl)
    (h.seated_alloc hx).listed
  uses_eq l := by
    refine h.uses_fresh ?_
    show s.lobbies.count l + waitingFor s l + (s.fresh :: s.freed).count l = _
    rw [count_cons_eq, uses]
    omega
  numGames := by
    have hgames : games (s.alloc x) = games s := h.games_alloc
    exact h.numGames.trans (congrArg _ hgames.symm)
  nodupClients := h.nodupClients
  connected := h.connected
  waits d hd l hl := by
    show ((s.alloc x).lobby l).type ≠ _ ∧ 1 < ((s.alloc x).lobby l).maxClients
    rw [h.waits_alloc hd hl]
    exact h.waits d hd l hl

/-- Only the client that is written to may begin or end to be waited for. -/
theorem waitingFor_setCreateLobby (h : Accounted s) (hc : c ∈ s.clients) (v : Option LobbyRef) :
    waitingFor (s.modifyClient c fun y => { y with createLobby := v }) l +
        (if (s.client c).createLobby = some l then 1 else 0) =
      waitingFor s l + if v = some l then 1 else 0 := by
  have hchange := Counting.countP_change h.nodupClients hc
    (p := fun d => decide ((s.client d).createLobby = some l))
    (q := fun d => decide (((s.modifyClient c fun y =>
      { y with createLobby := v }).client d).createLobby = some l))
    fun d hd => by rw [client_modifyClient_of_ne s _ hd]
  rw [client_modifyClient_self] at hchange
  have htoNat (P : Prop) [Decidable P] : (decide P).toNat = if P then 1 else 0 := by
    by_cases hP : P <;> simp [hP]
  rw [htoNat, htoNat] at hchange
  exact hchange

/-- A game that waits for the answer of its creator. -/
theorem waiting (h : Accounted s) (hx : x.New) (hmax : 1 < x.maxClients) (hc : c ∈ s.clients)
    (hnone : (s.client c).createLobby = none) :
    Accounted ((s.alloc x).modifyClient c fun y => { y with createLobby := some s.fresh }) where
  seated := (h.seated_alloc hx).congr (h.seated_alloc hx).counted (fun _ => rfl)
    (seat_modifyClient _ rfl rfl) (h.seated_alloc hx).listed
  uses_eq l := by
    refine h.uses_fresh ?_
    have hwaiting := h.waitingFor_setCreateLobby (l := l) hc (some s.fresh)
    rw [hnone, if_neg (fun heq => (nomatch heq)), Nat.add_zero] at hwaiting
    show s.lobbies.count l +
      waitingFor (s.modifyClient c fun y => { y with createLobby := some s.fresh }) l +
      s.freed.count l = _
    rw [hwaiting, uses]
    simp only [Option.some.injEq, eq_comm]
    omega
  numGames := by
    have hgames : games (s.alloc x) = games s := h.games_alloc
    exact h.numGames.trans (congrArg _ hgames.symm)
  nodupClients := h.nodupClients
  connected d hd := (apply_client_modifyClient (s.alloc x) c d _ Client.curLobby rfl).trans
    (h.connected d hd)
  waits d hd l hl := by
    by_cases hdc : d = c
    · subst hdc
      rw [client_modifyClient_self] at hl
      cases hl
      rw [lobby_modifyClient, lobby_alloc_self]
      exact ⟨hx.game, hmax⟩
    · rw [client_modifyClient_of_ne _ _ hdc] at hl
      rw [lobby_modifyClient, h.waits_alloc hd hl]
      exact h.waits d hd l hl

/-- A game that waited, and is put in the list. -/
theorem answered (h : Accounted s) (hc : c ∈ s.clients) (hl : (s.client c).createLobby = some l)
    {f : Lobby → Lobby} (hcounted : (f (s.lobby l)).Counted)
    (hclients : (f (s.lobby l)).clients = (s.lobby l).clients)
    (htype : (f (s.lobby l)).type = (s.lobby l).type)
    (hmax : (f (s.lobby l)).maxClients = (s.lobby l).maxClients) :
    Accounted ((insertGame (s.modifyLobby l f) l).modifyClient c fun y =>
      { y with createLobby := none }) where
  seated := by
    refine h.seated.congr (fun m => ?_)
      (fun m => apply_lobby_modifyLobby s l m f Lobby.clients hclients)
      (seat_modifyClient _ rfl rfl)
      (fun d m hm => List.mem_append_left _ (h.seated.listed d m hm))
    by_cases hm : m = l
    · rw [hm]
      show ((s.modifyLobby l f).lobby l).Counted
      rw [lobby_modifyLobby_self]
      exact hcounted
    · show ((s.modifyLobby l f).lobby m).Counted
      rw [lobby_modifyLobby_of_ne s f hm]
      exact h.seated.counted m
  uses_eq m := by
    have hwaiting := h.waitingFor_setCreateLobby (l := m) hc none
    rw [hl, if_neg (fun heq : none = some m => (nomatch heq)), Nat.add_zero] at hwaiting
    refine Eq.trans ?_ (h.uses_eq m)
    show (s.lobbies ++ [l]).count m +
      waitingFor (s.modifyClient c fun y => { y with createLobby := none }) m +
      s.freed.count m = _
    rw [List.count_append, count_cons_eq, List.count_nil, uses, ← hwaiting]
    simp only [Option.some.injEq, eq_comm]
    omega
  numGames := by
    show s.numGames + 1 = ((s.lobbies ++ [l]).countP fun m =>
      decide (((s.modifyLobby l f).lobby m).type ≠ .default) : Nat)
    have hgame : ((s.modifyLobby l f).lobby l).type ≠ .default := by
      rw [lobby_modifyLobby_self, htype]
      exact (h.waits c hc l hl).1
    have hgames : (s.lobbies.countP fun m =>
        decide (((s.modifyLobby l f).lobby m).type ≠ .default)) = games s := by
      refine List.countP_congr fun m _ => ?_
      rw [apply_lobby_modifyLobby s l m f Lobby.type htype]
    rw [List.countP_append, List.countP_singleton, decide_eq_true hgame, if_pos rfl, h.numGames,
      hgames]
    rfl
  nodupClients := h.nodupClients
  connected d hd := (apply_client_modifyClient _ c d _ Client.curLobby rfl).trans
    (h.connected d hd)
  waits d hd m hm := by
    by_cases hdc : d = c
    · rw [hdc, client_modifyClient_self] at hm
      cases hm
    · rw [client_modifyClient_of_ne _ _ hdc] at hm
      have hwaits := h.waits d hd m hm
      show ((s.modifyLobby l f).lobby m).type ≠ _ ∧ 1 < ((s.modifyLobby l f).lobby m).maxClients
      rwa [apply_lobby_modifyLobby s l m f Lobby.type htype,
        apply_lobby_modifyLobby s l m f Lobby.maxClients hmax]

/-- A game that is destroyed before anybody is in it. -/
theorem destroyed (h : Accounted s) (hl : l ∈ s.lobbies) (hgame : (s.lobby l).type ≠ .default)
    (hempty : ∀ d, (s.client d).curLobby ≠ some l) : Accounted (lobbyDestroyLocked s l true) where
  seated := by
    refine h.seated.congr h.seated.counted (fun _ => rfl) (fun _ => rfl) fun d m hm => ?_
    have hne : m ≠ l := by
      rintro rfl
      exact hempty d hm
    exact (List.mem_erase_of_ne hne).mpr (h.seated.listed d m hm)
  uses_eq m := by
    refine Eq.trans ?_ (h.uses_eq m)
    show (s.lobbies.erase l).count m + waitingFor s m + (l :: s.freed).count m = _
    rw [count_cons_eq, uses]
    by_cases hm : m = l
    · subst hm
      have hcount := List.count_pos_iff.mpr hl
      rw [List.count_erase_self, if_pos rfl]
      omega
    · rw [List.count_erase_of_ne hm, if_neg hm, Nat.add_zero]
  numGames := by
    have hcount := Counting.countP_erase (p := fun m => decide ((s.lobby m).type ≠ .default)) hl
    rw [decide_eq_true hgame, Bool.toNat_true] at hcount
    have hgames : games (lobbyDestroyLocked s l true) + 1 = games s := hcount
    have hnum : (lobbyDestroyLocked s l true).numGames = s.numGames - 1 := by
      simp only [lobbyDestroyLocked, if_true, if_pos hgame]
    rw [hnum, h.numGames]
    omega
  nodupClients := h.nodupClients
  connected := h.connected
  waits := h.waits

theorem client_connect_self (version : Version) :
    (connect s c version).client c = clientCreateConnection version :=
  Function.update_self ..

theorem client_connect_of_ne {d : ClientRef} (version : Version) (h : d ≠ c) :
    (connect s c version).client d = s.client d :=
  Function.update_of_ne h ..

/-- A client that connects. -/
theorem connected_new (h : Accounted s) (hc : c ∉ s.clients) (version : Version) :
    Accounted (connect s c version) where
  seated := by
    refine h.seated.congr h.seated.counted (fun _ => rfl) (fun d => ?_) h.seated.listed
    by_cases hd : d = c
    · rw [hd, seat, seat, client_connect_self, h.connected c hc]
      rfl
    · rw [seat, seat, client_connect_of_ne version hd]
  uses_eq l := by
    refine Eq.trans ?_ (h.uses_eq l)
    have hrest : (s.clients.countP fun d =>
        decide (((connect s c version).client d).createLobby = some l)) = waitingFor s l := by
      refine List.countP_congr fun d hd => ?_
      have hne : d ≠ c := fun heq => hc (heq ▸ hd)
      rw [client_connect_of_ne version hne]
    have hwaiting : waitingFor (connect s c version) l = waitingFor s l := by
      show ((s.clients ++ [c]).countP fun d =>
        decide (((connect s c version).client d).createLobby = some l)) = _
      rw [List.countP_append, hrest, List.countP_singleton, client_connect_self]
      rfl
    show s.lobbies.count l + waitingFor (connect s c version) l + s.freed.count l = _
    rw [hwaiting, uses]
  numGames := h.numGames
  nodupClients := h.nodupClients.append (List.nodup_singleton c) (by simpa using hc)
  connected d hd := by
    obtain ⟨hd, hdc⟩ : d ∉ s.clients ∧ d ≠ c := by
      simpa [connect, not_or] using hd
    rw [client_connect_of_ne version hdc]
    exact h.connected d hd
  waits d hd l hl := by
    by_cases hdc : d = c
    · rw [hdc, client_connect_self] at hl
      cases hl
    · rw [client_connect_of_ne version hdc] at hl
      obtain hd | hd := List.mem_append.mp hd
      · exact h.waits d hd l hl
      · exact absurd (List.mem_singleton.mp hd) hdc

/-- A client that is in no lobby and is disconnected. -/
theorem disconnected (h : Accounted s) (hc : c ∈ s.clients) (hcur : (s.client c).curLobby = none) :
    Accounted (clientDestroyConnection s c) := by
  obtain ⟨t, ht⟩ : ∃ t, t = { s with clients := s.clients.erase c } := ⟨_, rfl⟩
  have hwaiting (l : LobbyRef) : waitingFor t l +
      (decide ((s.client c).createLobby = some l)).toNat = waitingFor s l := by
    rw [ht]
    exact Counting.countP_erase hc
  obtain ⟨u, hu⟩ : ∃ u, u = clientDestroyConnection s c := ⟨_, rfl⟩
  have hfields : u.lobbies = s.lobbies ∧ u.clients = s.clients.erase c ∧ u.lobby = s.lobby ∧
      u.client = s.client ∧ u.fresh = s.fresh ∧ u.numGames = s.numGames ∧
      ∀ l, waitingFor u l + u.freed.count l = waitingFor s l + s.freed.count l := by
    rw [hu, clientDestroyConnection]
    cases hcreate : (s.client c).createLobby with
    | none =>
        refine ⟨rfl, rfl, rfl, rfl, rfl, rfl, fun l => ?_⟩
        have hl := hwaiting l
        rw [hcreate, decide_eq_false (fun heq => (nomatch heq)), ht] at hl
        exact congrArg (· + s.freed.count l) hl
    | some k =>
        refine ⟨rfl, rfl, rfl, rfl, rfl, rfl, fun l => ?_⟩
        have hl := hwaiting l
        rw [hcreate, ht] at hl
        show waitingFor { s with clients := s.clients.erase c } l + (k :: s.freed).count l = _
        rw [count_cons_eq, ← hl]
        by_cases hlk : l = k
        · subst hlk
          rw [decide_eq_true rfl, if_pos rfl, Bool.toNat_true]
          omega
        · rw [decide_eq_false (fun heq => hlk (Option.some.inj heq).symm), if_neg hlk,
            Bool.toNat_false]
          omega
  obtain ⟨hlobbies, hclients, hlobby, hclient, hfresh, hnum, huses⟩ := hfields
  rw [← hu]
  have hgames : games u = games s := by
    rw [games, games, hlobbies, hlobby]
  refine
    { seated := ?_
      uses_eq := fun l => ?_
      numGames := by rw [hnum, hgames, h.numGames]
      nodupClients := by rw [hclients]; exact h.nodupClients.erase c
      connected := fun d hd => ?_
      waits := fun d hd l hl => ?_ }
  · refine h.seated.congr (fun l => by rw [hlobby]; exact h.seated.counted l)
      (fun l => by rw [hlobby]) (fun d => by rw [seat, seat, hclient]) fun d l hl => ?_
    rw [hlobbies]
    exact h.seated.listed d l hl
  · rw [hfresh, ← h.uses_eq l, uses, uses, hlobbies, Nat.add_assoc, huses, Nat.add_assoc]
  · rw [hclients] at hd
    rw [hclient]
    by_cases hdc : d = c
    · rw [hdc]
      exact hcur
    · exact h.connected d fun hmem => hd ((List.mem_erase_of_ne hdc).mpr hmem)
  · rw [hclients] at hd
    rw [hclient] at hl
    rw [hlobby]
    exact h.waits d (List.mem_of_mem_erase hd) l hl

end Accounted

end Lifetimes

end Sylverant.Ship
