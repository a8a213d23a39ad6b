/-
# Who is where

Every transfer keeps the records of the lobbies and of the clients in agreement. So
in every state that the calls can lead to, a client is in at most one slot of at most
one lobby, and the lobbies know how many clients they have.
-/

import Sylverant.Library.Run
import Sylverant.Ship.Calls

namespace Sylverant.Ship

open Function (update)
open Seating (Paired)
open Slots (filled)

/-! ## What a transfer does to the slots -/

section Slots

variable {env : Env} {s s' : Block} {c : ClientRef} {l m : LobbyRef} {old new : Option LobbyRef}

/-- The slot for a new client is free. -/
theorem Lobby.Counted.slotFor {x : Lobby} (h : x.Counted) {i : Nat} (hi : slotFor x = some i) :
    i < x.maxClients ∧ x.clients i = none := by
  rw [Ship.slotFor] at hi
  split_ifs at hi with hone
  · cases hi
    exact ⟨h.slotOne hone.2.1 hone.2.2, hone.1⟩
  · exact Slots.firstFree_eq_some hi

/-- A lobby keeps its count when a client takes a free slot. -/
theorem Lobby.Counted.fillSlot {x : Lobby} (h : x.Counted) {clev i : Nat}
    (hi : Ship.slotFor x = some i) : (fillSlot x c clev i).Counted where
  slot_lt j d hd := by
    by_cases hj : j = i
    · rw [hj]
      exact (h.slotFor hi).1
    · rw [clients_fillSlot, Function.update_of_ne hj] at hd
      exact h.slot_lt j d hd
  count := by
    obtain ⟨hlt, hfree⟩ := h.slotFor hi
    rw [clients_fillSlot]
    exact (congrArg (· + 1) h.count).trans (Slots.filled_update_some hlt hfree c).symm
  slotOne := h.slotOne

/-- A lobby keeps its count when a client gives up its slot. -/
theorem Lobby.Counted.dropSlot {x : Lobby} (h : x.Counted) {now i : Nat}
    (hi : x.clients i = some c) : (dropSlot now s x i).Counted where
  slot_lt j d hd := by
    rw [dropSlot_clients] at hd
    by_cases hj : j = i
    · rw [hj, Function.update_self] at hd
      cases hd
    · rw [Function.update_of_ne hj] at hd
      rw [dropSlot_maxClients]
      exact h.slot_lt j d hd
  count := by
    rw [dropSlot_numClients, dropSlot_maxClients, dropSlot_clients, h.count,
      ← Slots.filled_update_none (h.slot_lt i c hi) hi]
    exact Nat.add_sub_cancel ..
  slotOne hversion htype := by
    rw [dropSlot_maxClients]
    rw [dropSlot_type] at htype
    refine h.slotOne ?_ htype
    rw [dropSlot_elected Lobby.version fun _ _ _ _ => rfl] at hversion
    split_ifs at hversion
    · obtain hkeep | hgc := @replaceLeader_version now s x
      · rwa [hkeep] at hversion
      · rw [hgc] at hversion
        exact absurd hversion (Nat.lt_irrefl _)
    · exact hversion

/-- Flags do not count. -/
theorem Lobby.Counted.of_core {x y : Lobby} (h : x.Counted) (hcore : y.core = x.core) :
    y.Counted where
  slot_lt := by
    rw [Lobby.eq_of_core Lobby.clients (fun _ => rfl) hcore,
      Lobby.eq_of_core Lobby.maxClients (fun _ => rfl) hcore]
    exact h.slot_lt
  count := by
    rw [Lobby.eq_of_core Lobby.clients (fun _ => rfl) hcore,
      Lobby.eq_of_core Lobby.maxClients (fun _ => rfl) hcore,
      Lobby.eq_of_core Lobby.numClients (fun _ => rfl) hcore]
    exact h.count
  slotOne := by
    rw [Lobby.eq_of_core Lobby.version (fun _ => rfl) hcore,
      Lobby.eq_of_core Lobby.type (fun _ => rfl) hcore,
      Lobby.eq_of_core Lobby.maxClients (fun _ => rfl) hcore]
    exact h.slotOne

end Slots

/-! ## What a transfer does to the seats -/

namespace Transfer

variable {env : Env} {s s' : Block} {c d : ClientRef} {l m : LobbyRef} {i : Nat}
  {old new : Option LobbyRef}

theorem clients_kept (h : Transfer env s s' c old new) (hm : old = some m ↔ new = some m) :
    (s'.lobby m).clients = (s.lobby m).clients :=
  Lobby.eq_of_core Lobby.clients (fun _ => rfl) (h.kept m hm)

theorem clients_joined (h : Transfer env s s' c old new) (hold : old ≠ some m)
    (hnew : new = some m) :
    (s'.lobby m).clients = update (s.lobby m).clients (s'.client c).clientId (some c) := by
  obtain ⟨-, -, -, -, clev, hcore⟩ := h.joined m hold hnew
  exact Lobby.eq_of_core Lobby.clients (fun _ => rfl) hcore

theorem clients_left (h : Transfer env s s' c old new) (hold : old = some m)
    (hnew : new ≠ some m) :
    (s'.lobby m).clients = update (s.lobby m).clients (s.client c).clientId none := by
  rw [Lobby.eq_of_core Lobby.clients (fun _ => rfl) (h.left m hold hnew), dropSlot_clients]

/-- Nobody else changes places. -/
theorem seat_eq (h : Transfer env s s' c old new) : seat s' = update (seat s) c (seat s' c) := by
  funext d
  by_cases hd : d = c
  · rw [hd, Function.update_self]
  · rw [Function.update_of_ne hd, seat, seat, h.others d hd]

/-- A client that stays where it is. -/
theorem paired_stayed (h : Transfer env s s' c old old) (hs : Seated s) :
    Paired (guest s') (seat s') := by
  have hguest : guest s' = guest s := by
    funext p
    exact congrFun (h.clients_kept Iff.rfl) p.2
  have hseat : seat s' c = seat s c := by
    rw [seat, seat, h.after, h.before, (h.stayed rfl).1]
  rw [hguest, h.seat_eq, hseat, Function.update_eq_self]
  exact hs.paired

/-- A client in no lobby that joins one. -/
theorem paired_entered (h : Transfer env s s' c none (some m)) (hs : Seated s) :
    Paired (guest s') (seat s') := by
  have hguest : guest s' = update (guest s) (m, (s'.client c).clientId) (some c) :=
    Seating.update_row (fun q => (s.lobby q).clients) (fun q => (s'.lobby q).clients)
      (fun q hq => h.clients_kept
        ⟨fun heq => (nomatch heq), fun heq => absurd (Option.some.inj heq).symm hq⟩)
      (h.clients_joined (fun heq => (nomatch heq)) rfl)
  have hseat : seat s' c = some (m, (s'.client c).clientId) := seat_eq_some.mpr ⟨h.after, rfl⟩
  have hnone : seat s c = none := by
    rw [seat, h.before, Option.map_none]
  obtain ⟨-, -, hslot, -⟩ := h.joined m (fun heq => (nomatch heq)) rfl
  rw [hguest, h.seat_eq, hseat]
  exact hs.paired.enter hnone ((hs.counted m).slotFor hslot).2

/-- A client that leaves its lobby, and joins none. -/
theorem paired_left (h : Transfer env s s' c (some l) none) (hs : Seated s) :
    Paired (guest s') (seat s') := by
  have hguest : guest s' = update (guest s) (l, (s.client c).clientId) none :=
    Seating.update_row (fun q => (s.lobby q).clients) (fun q => (s'.lobby q).clients)
      (fun q hq => h.clients_kept
        ⟨fun heq => absurd (Option.some.inj heq).symm hq, fun heq => (nomatch heq)⟩)
      (h.clients_left rfl fun heq => (nomatch heq))
  have hseat : seat s' c = none := by
    rw [seat, h.after, Option.map_none]
  rw [hguest, h.seat_eq, hseat]
  exact hs.paired.leave (hs.clients_clientId h.before)

/-- A client that joins another lobby than the one it is in. -/
theorem paired_moved (h : Transfer env s s' c (some l) (some m)) (hlm : l ≠ m) (hs : Seated s) :
    Paired (guest s') (seat s') := by
  have hml : some l ≠ some m := fun heq => hlm (Option.some.inj heq)
  -- the slots after the new one is taken, and before the old one is given up
  obtain ⟨row, hrow⟩ : ∃ row, row = update (fun q => (s.lobby q).clients) m
      (update (s.lobby m).clients (s'.client c).clientId (some c)) := ⟨_, rfl⟩
  have htaken : (fun p : LobbyRef × Nat => row p.1 p.2) =
      update (guest s) (m, (s'.client c).clientId) (some c) := by
    refine Seating.update_row (fun q => (s.lobby q).clients) row (fun q hq => ?_) ?_
    · rw [hrow, Function.update_of_ne hq]
    · rw [hrow, Function.update_self]
  have hguest : guest s' =
      update (fun p : LobbyRef × Nat => row p.1 p.2) (l, (s.client c).clientId) none := by
    refine Seating.update_row row (fun q => (s'.lobby q).clients) (fun q hq => ?_) ?_
    · by_cases hqm : q = m
      · subst hqm
        rw [hrow, Function.update_self]
        exact h.clients_joined hml rfl
      · rw [hrow, Function.update_of_ne hqm]
        exact h.clients_kept ⟨fun heq => absurd (Option.some.inj heq).symm hq,
          fun heq => absurd (Option.some.inj heq).symm hqm⟩
    · rw [hrow, Function.update_of_ne hlm]
      exact h.clients_left rfl hml.symm
  have hseat : seat s' c = some (m, (s'.client c).clientId) := seat_eq_some.mpr ⟨h.after, rfl⟩
  obtain ⟨-, -, hslot, -⟩ := h.joined m hml rfl
  rw [hguest, htaken, h.seat_eq, hseat]
  exact hs.paired.move (hs.clients_clientId h.before) ((hs.counted m).slotFor hslot).2

theorem paired (h : Transfer env s s' c old new) (hs : Seated s) :
    Paired (guest s') (seat s') := by
  by_cases hsame : old = new
  · subst hsame
    exact h.paired_stayed hs
  · cases old with
    | none =>
        cases new with
        | none => exact absurd rfl hsame
        | some m => exact h.paired_entered hs
    | some l =>
        cases new with
        | none => exact h.paired_left hs
        | some m => exact h.paired_moved (fun heq => hsame (congrArg some heq)) hs

/-- The lobbies keep their counts. -/
theorem counted (h : Transfer env s s' c old new) (hs : Seated s) (m : LobbyRef) :
    (s'.lobby m).Counted := by
  by_cases hold : old = some m <;> by_cases hnew : new = some m
  · exact (hs.counted m).of_core (h.kept m ⟨fun _ => hnew, fun _ => hold⟩)
  · have hslot : (s.lobby m).clients (s.client c).clientId = some c :=
      hs.clients_clientId (h.before.trans hold)
    exact ((hs.counted m).dropSlot hslot).of_core (h.left m hold hnew)
  · obtain ⟨-, -, hslot, -, clev, hcore⟩ := h.joined m hold hnew
    exact ((hs.counted m).fillSlot hslot).of_core hcore
  · exact (hs.counted m).of_core
      (h.kept m ⟨fun heq => absurd heq hold, fun heq => absurd heq hnew⟩)

/-- The lobby that a client is in was in the list. -/
theorem listed_before (h : Transfer env s s' c old new) (hs : Seated s)
    (hd : (s'.client d).curLobby = some m) : m ∈ s.lobbies := by
  by_cases hdc : d = c
  · subst hdc
    have hnew : new = some m := h.after.symm.trans hd
    by_cases hold : old = some m
    · exact hs.listed d m (h.before.trans hold)
    · exact (h.joined m hold hnew).1
  · rw [h.others d hdc] at hd
    exact hs.listed d m hd

/-- A lobby with a client in it is not destroyed. -/
theorem listed (h : Transfer env s s' c old new) (hs : Seated s)
    (hd : (s'.client d).curLobby = some m) : m ∈ s'.lobbies := by
  have hbefore : m ∈ s.lobbies := h.listed_before hs hd
  obtain ⟨-, hlobbies, -⟩ | ⟨l, ⟨-, -, -, hzero⟩, hlobbies, -⟩ := h.cleared
  · rwa [hlobbies]
  · have hne : m ≠ l := by
      rintro rfl
      have hslot : (s'.lobby m).clients (s'.client d).clientId = some d :=
        (h.paired hs (m, _) d).mpr (seat_eq_some.mpr ⟨hd, rfl⟩)
      have hcounted := h.counted hs m
      have hpos := Slots.filled_pos (hcounted.slot_lt _ d hslot) hslot
      rw [← hcounted.count, hzero] at hpos
      exact absurd hpos (Nat.lt_irrefl 0)
    rw [hlobbies]
    exact (List.mem_erase_of_ne hne).mpr hbefore

/-- Transfers keep lobbies and clients in agreement. -/
theorem seated (h : Transfer env s s' c old new) (hs : Seated s) : Seated s' :=
  ⟨h.paired hs, h.counted hs, fun _ _ hd => h.listed hs hd⟩

/-! ## What a transfer does to the list -/

/-- A field of the lobbies that does not depend on who is where. -/
theorem field_eq {α : Type} (field : Lobby → α)
    (hfield : ∀ z leaderId version flags episode clients numClients maxChal,
      field { z with
        leaderId := leaderId, version := version, flags := flags, episode := episode,
        clients := clients, numClients := numClients, maxChal := maxChal } = field z)
    (h : Transfer env s s' c old new) (m : LobbyRef) : field (s'.lobby m) = field (s.lobby m) := by
  have hcore (x : Lobby) : field x.core = field x :=
    hfield x x.leaderId x.version {} x.episode x.clients x.numClients x.maxChal
  by_cases hold : old = some m <;> by_cases hnew : new = some m
  · exact Lobby.eq_of_core field hcore (h.kept m ⟨fun _ => hnew, fun _ => hold⟩)
  · rw [Lobby.eq_of_core field hcore (h.left m hold hnew)]
    exact dropSlot_field field
      fun z leaderId version gcAllowed episode clients numClients maxChal =>
      hfield z leaderId version { z.flags with gcAllowed := gcAllowed } episode clients numClients
        maxChal
  · obtain ⟨-, -, -, -, clev, hfill⟩ := h.joined m hold hnew
    rw [Lobby.eq_of_core field hcore hfill]
    exact hfield _ _ (s.lobby m).version (s.lobby m).flags (s.lobby m).episode _ _ _
  · exact Lobby.eq_of_core field hcore
      (h.kept m ⟨fun heq => absurd heq hold, fun heq => absurd heq hnew⟩)

theorem type_eq (h : Transfer env s s' c old new) (m : LobbyRef) :
    (s'.lobby m).type = (s.lobby m).type :=
  h.field_eq Lobby.type (fun _ _ _ _ _ _ _ _ => rfl) m

theorem lobbyId_eq (h : Transfer env s s' c old new) (m : LobbyRef) :
    (s'.lobby m).lobbyId = (s.lobby m).lobbyId :=
  h.field_eq Lobby.lobbyId (fun _ _ _ _ _ _ _ _ => rfl) m

theorem maxClients_eq (h : Transfer env s s' c old new) (m : LobbyRef) :
    (s'.lobby m).maxClients = (s.lobby m).maxClients :=
  h.field_eq Lobby.maxClients (fun _ _ _ _ _ _ _ _ => rfl) m

/-- Calls do not add to the list. -/
theorem mem_of_mem (h : Transfer env s s' c old new) (hm : m ∈ s'.lobbies) :
    m ∈ s.lobbies := by
  obtain ⟨-, hlobbies, -⟩ | ⟨l, -, hlobbies, -⟩ := h.cleared
  · rwa [hlobbies] at hm
  · rw [hlobbies] at hm
    exact List.mem_of_mem_erase hm

theorem nodup (h : Transfer env s s' c old new) (hs : s.lobbies.Nodup) :
    s'.lobbies.Nodup := by
  obtain ⟨-, hlobbies, -⟩ | ⟨l, -, hlobbies, -⟩ := h.cleared
  · rwa [hlobbies]
  · rw [hlobbies]
    exact hs.erase l

/-- A lobby has one member less when a client has left it. -/
theorem numClients_left (h : Transfer env s s' c old new) (hold : old = some l)
    (hnew : new ≠ some l) : (s'.lobby l).numClients = (s.lobby l).numClients - 1 :=
  (Lobby.eq_of_core Lobby.numClients (fun _ => rfl) (h.left l hold hnew)).trans
    dropSlot_numClients

/-- A game is off the list when its last member has left it. -/
theorem not_mem_of_last (h : Transfer env s s' c old new) (hs : s.lobbies.Nodup)
    (hold : old = some l) (hnew : new ≠ some l) (hgame : (s.lobby l).type ≠ .default)
    (hlast : (s.lobby l).numClients = 1) : l ∉ s'.lobbies := by
  have hzero : (s'.lobby l).numClients = 0 := by
    rw [h.numClients_left hold hnew, hlast]
  obtain ⟨hnone, -⟩ | ⟨m, ⟨hm, -⟩, hlobbies, -⟩ := h.cleared
  · exact absurd ⟨hold, hnew, hgame, hzero⟩ (hnone l)
  · obtain rfl : l = m := Option.some.inj (hold.symm.trans hm)
    rw [hlobbies]
    exact hs.not_mem_erase

/-- A game stays in the list as long as it has members. -/
theorem mem_of_others (h : Transfer env s s' c old new) (hs : Seated s)
    (hold : old = some l) (hnew : new ≠ some l) (hothers : (s.lobby l).numClients ≠ 1) :
    l ∈ s'.lobbies := by
  have hcur : (s.client c).curLobby = some l := h.before.trans hold
  have hslot := hs.clients_clientId hcur
  have hpos : 0 < (s.lobby l).numClients := by
    rw [(hs.counted l).count]
    exact Slots.filled_pos ((hs.counted l).slot_lt _ c hslot) hslot
  have hleft : (s'.lobby l).numClients ≠ 0 := by
    rw [h.numClients_left hold hnew]
    omega
  obtain ⟨-, hlobbies, -⟩ | ⟨m, ⟨hm, -, -, hzero⟩, -⟩ := h.cleared
  · rw [hlobbies]
    exact hs.listed c l hcur
  · obtain rfl : l = m := Option.some.inj (hold.symm.trans hm)
    exact absurd hzero hleft

end Transfer

/-! ## Runs -/

section Runs

variable {s s₀ : Block} {e : Event} {es : List Event}

theorem seated_step (s : Block) (e : Event) (h : Seated s) (hok : Promised s e) :
    Seated (step s e) := by
  obtain ⟨c, old, new, htransfer, -⟩ := step_cases h hok
  exact htransfer.seated h

theorem seated_run (h : Seated s₀) (hrun : Run.Guarded step Promised s₀ es) :
    Seated (es.foldl step s₀) :=
  hrun.invariant seated_step h

/-- Nobody is in a lobby, and each lobby is for several clients. -/
structure Block.Empty (s : Block) : Prop where
  clients : ∀ l i, (s.lobby l).clients i = none
  numClients : ∀ l, (s.lobby l).numClients = 0
  curLobby : ∀ c, (s.client c).curLobby = none
  maxClients : ∀ l, 2 ≤ (s.lobby l).maxClients

theorem Block.Empty.seated (h : s.Empty) : Seated s where
  paired p c := by
    rw [guest, h.clients, seat, h.curLobby, Option.map_none]
    constructor <;>
      · intro heq
        cases heq
  counted l :=
    { slot_lt := fun i c hc => by
        rw [h.clients] at hc
        cases hc
      count := by
        rw [h.numClients, eq_comm, Slots.filled_eq_zero_iff]
        exact fun i _ => h.clients l i
      slotOne := fun _ _ => h.maxClients l }
  listed c l hl := by
    rw [h.curLobby] at hl
    cases hl

/-- The return values of `lobby_change_lobby` that refuse a client by policy. -/
def refusals : List Int := [-1, -3, -4, -5, -6, -7, -8, -9, -10, -12, -13, -14, -15]

/-- Wherever the calls lead from empty lobbies, a slot holds a client exactly if the client
is in that lobby with that number, so no client is in two places, the lobbies know how
many clients they have, and a client that is refused changes nothing of this. -/
theorem membership_run (hempty : s₀.Empty) (hrun : Run.Guarded step Promised s₀ es)
    (hs : s = es.foldl step s₀) :
    (∀ l i c, (s.lobby l).clients i = some c ↔
      (s.client c).curLobby = some l ∧ (s.client c).clientId = i) ∧
    (∀ c l i m j, (s.lobby l).clients i = some c → (s.lobby m).clients j = some c →
      l = m ∧ i = j) ∧
    (∀ l, (s.lobby l).numClients = filled (s.lobby l).maxClients (s.lobby l).clients ∧
      (s.lobby l).numClients ≤ (s.lobby l).maxClients) ∧
    ∀ env c req, req ∈ s.lobbies → (lobbyChangeLobby env s c req).2 ∈ refusals →
      (lobbyChangeLobby env s c req).1.lobby = s.lobby ∧
      ∀ d, ((lobbyChangeLobby env s c req).1.client d).curLobby = (s.client d).curLobby ∧
        ((lobbyChangeLobby env s c req).1.client d).clientId = (s.client d).clientId := by
  have hseated : Seated s := hs ▸ seated_run hempty.seated hrun
  refine ⟨fun l i c => hseated.clients_iff, fun c l i m j hl hm => ?_, fun l => ?_,
    fun env c req hreq hrefused => ?_⟩
  · have hplace : (l, i) = (m, j) := hseated.paired.place_unique (x := c) hl hm
    exact ⟨(Prod.mk.inj hplace).1, (Prod.mk.inj hplace).2⟩
  · have hcount := (hseated.counted l).count
    exact ⟨hcount, hcount ▸ Slots.filled_le ..⟩
  · obtain ⟨-, rv, -, hfail⟩ | ⟨s', new, rv, hmove, hrv, -⟩ :=
      lobbyChangeLobby_cases env c hseated hreq
    · have hcur (d : ClientRef) : ((clearOverride s c).client d).curLobby = _ :=
        apply_client_modifyClient s c d _ Client.curLobby rfl
      have hid (d : ClientRef) : ((clearOverride s c).client d).clientId = _ :=
        apply_client_modifyClient s c d _ Client.clientId rfl
      rw [hfail]
      exact ⟨rfl, fun d => ⟨hcur d, hid d⟩⟩
    · have hnot : rv ∉ refusals := by
        obtain ⟨-, -, rfl | rfl⟩ | ⟨-, -, rfl⟩ := hrv <;> decide
      rw [hmove] at hrefused
      exact absurd hrefused hnot

/-- A block with a default lobby and a game, both empty. -/
def twoLobbies : Block where
  lobbies := [0, 1]
  numGames := 1
  clients := [0, 1]
  lobby l :=
    if l = 0 then
      { lobbyId := 1, type := .default, maxClients := 12, version := .dcv1, minLevel := 0
        maxLevel := 9001 }
    else
      { lobbyId := 33, type := .game, maxClients := 4, version := .gc, minLevel := 0
        maxLevel := 9001 }
  client _ := { version := .gc, level := 0, chClass := 0, times := fun _ => 0 }
  fresh := 2
  freed := []

theorem empty_twoLobbies : twoLobbies.Empty where
  clients l i := by
    simp only [twoLobbies]
    split <;> rfl
  numClients l := by
    simp only [twoLobbies]
    split <;> rfl
  curLobby c := rfl
  maxClients l := by
    simp only [twoLobbies]
    split <;> decide

/-- A client joins the block, then the game, and another comes and is refused. -/
def twoJoins : List Event :=
  [({ now := 1 }, .addToAny 0 none), ({ now := 2 }, .changeLobby 0 1),
    ({ now := 3 }, .addToAny 1 (some 0)), ({ now := 4 }, .changeLobby 1 1),
    ({ now := 5 }, .removePlayer 0)]

theorem guarded_twoJoins : Run.Guarded step Promised twoLobbies twoJoins := by decide

theorem membership_run_twoJoins :
    ((twoJoins.foldl step twoLobbies).lobby 0).clients 0 = some 1 ↔
      ((twoJoins.foldl step twoLobbies).client 1).curLobby = some 0 ∧
        ((twoJoins.foldl step twoLobbies).client 1).clientId = 0 :=
  (membership_run empty_twoLobbies guarded_twoJoins rfl).1 0 0 1

end Runs

end Sylverant.Ship
