/-
# The list of games

Between packets the lobbies in the list have different ids, each game in it has a member
and is counted, and no game is lost. This rests on what the handlers take for granted:
that a creator is in a lobby, that no game waits for a client that creates another one to
wait, and that the id of a game that waited is still free when it comes into the list.
-/

import Sylverant.Ship.Accounting

namespace Sylverant.Ship

open Function (update)

/-! ## The list between packets, and while a game is created -/

/-- What holds between packets. -/
structure Tidy (s : Block) : Prop where
  accounted : Accounted s
  ids : ∀ l ∈ s.lobbies, ∀ m ∈ s.lobbies, (s.lobby l).lobbyId = (s.lobby m).lobbyId → l = m
  members : ∀ l ∈ s.lobbies, (s.lobby l).type ≠ .default → 0 < (s.lobby l).numClients

/-- What holds when a game was put in the list and nobody has joined it yet. -/
structure Pending (s : Block) (g : LobbyRef) : Prop where
  accounted : Accounted s
  ids : ∀ l ∈ s.lobbies, ∀ m ∈ s.lobbies, l ≠ g → m ≠ g →
    (s.lobby l).lobbyId = (s.lobby m).lobbyId → l = m
  members : ∀ l ∈ s.lobbies, l ≠ g → (s.lobby l).type ≠ .default → 0 < (s.lobby l).numClients
  mem : g ∈ s.lobbies
  game : (s.lobby g).type ≠ .default
  vacant : ∀ d, (s.client d).curLobby ≠ some g

section Lists

variable {env : Env} {s s' : Block} {c : ClientRef} {g m : LobbyRef} {old new : Option LobbyRef}
  {x : Lobby}

/-- A game in the list has a member afterwards if it had one before, or is joined. -/
theorem Transfer.numClients_pos (h : Transfer env s s' c old new) (hs : Accounted s)
    (hm : m ∈ s'.lobbies) (hgame : (s.lobby m).type ≠ .default)
    (hpos : 0 < (s.lobby m).numClients ∨ new = some m) : 0 < (s'.lobby m).numClients := by
  by_cases hold : old = some m <;> by_cases hnew : new = some m
  · rw [Lobby.eq_of_core Lobby.numClients (fun _ => rfl) (h.kept m ⟨fun _ => hnew, fun _ => hold⟩),
      (hs.seated.counted m).count]
    have hslot := hs.seated.clients_clientId (h.before.trans hold)
    exact Slots.filled_pos ((hs.seated.counted m).slot_lt _ c hslot) hslot
  · have hlast : (s.lobby m).numClients ≠ 1 := fun hlast =>
      h.not_mem_of_last hs.nodup hold hnew hgame hlast hm
    have hbefore := hpos.resolve_right hnew
    rw [h.numClients_left hold hnew]
    omega
  · obtain ⟨-, -, -, -, clev, hcore⟩ := h.joined m hold hnew
    rw [Lobby.eq_of_core Lobby.numClients (fun _ => rfl) hcore]
    exact Nat.succ_pos _
  · rw [Lobby.eq_of_core Lobby.numClients (fun _ => rfl)
      (h.kept m ⟨fun heq => absurd heq hold, fun heq => absurd heq hnew⟩)]
    exact hpos.resolve_right hnew

/-- Transfers keep the list tidy. -/
theorem Transfer.tidy (h : Transfer env s s' c old new) (hs : Tidy s)
    (hc : c ∈ s.clients ∨ old = new) : Tidy s' where
  accounted := h.accounted hs.accounted hc
  ids l hl m hm heq := by
    rw [h.lobbyId_eq, h.lobbyId_eq] at heq
    exact hs.ids l (h.mem_of_mem hl) m (h.mem_of_mem hm) heq
  members l hl hgame := by
    rw [h.type_eq] at hgame
    exact h.numClients_pos hs.accounted hl hgame (.inl (hs.members l (h.mem_of_mem hl) hgame))

/-- A transfer elsewhere leaves a new game pending. -/
theorem Transfer.pending (h : Transfer env s s' c old new) (hs : Pending s g)
    (hc : c ∈ s.clients ∨ old = new) (hnew : new ≠ some g) : Pending s' g where
  accounted := h.accounted hs.accounted hc
  ids l hl m hm hlg hmg heq := by
    rw [h.lobbyId_eq, h.lobbyId_eq] at heq
    exact hs.ids l (h.mem_of_mem hl) m (h.mem_of_mem hm) hlg hmg heq
  members l hl hlg hgame := by
    rw [h.type_eq] at hgame
    exact h.numClients_pos hs.accounted hl hgame (.inl (hs.members l (h.mem_of_mem hl) hlg hgame))
  mem := by
    obtain ⟨-, hlobbies, -⟩ | ⟨k, ⟨hk, -⟩, hlobbies, -⟩ := h.cleared
    · rw [hlobbies]
      exact hs.mem
    · have hne : g ≠ k := by
        rintro rfl
        exact hs.vacant c (h.before.trans hk)
      rw [hlobbies]
      exact (List.mem_erase_of_ne hne).mpr hs.mem
  game := by
    rw [h.type_eq]
    exact hs.game
  vacant d hd := by
    by_cases hdc : d = c
    · rw [hdc, h.after] at hd
      exact hnew hd
    · rw [h.others d hdc] at hd
      exact hs.vacant d hd

/-- Destroying a new game that nobody joined leaves the list as it was. -/
theorem Pending.destroyed (h : Pending s g) :
    Tidy (lobbyDestroyLocked s g true) ∧ g ∉ (lobbyDestroyLocked s g true).lobbies := by
  have hmem {l : LobbyRef} (hl : l ∈ (lobbyDestroyLocked s g true).lobbies) :
      l ≠ g ∧ l ∈ s.lobbies := h.accounted.nodup.mem_erase_iff.mp hl
  refine ⟨⟨h.accounted.destroyed h.mem h.game h.vacant, fun l hl m hm heq => ?_,
    fun l hl hgame => ?_⟩, fun hg => (hmem hg).1 rfl⟩
  · exact h.ids l (hmem hl).2 m (hmem hm).2 (hmem hl).1 (hmem hm).1 heq
  · exact h.members l (hmem hl).2 (hmem hl).1 hgame

/-- A new game that its creator joins, unless its id is taken by a game that stays. -/
theorem Transfer.tidy_of_pending (h : Transfer env s s' c old (some g)) (hs : Pending s g)
    (hc : c ∈ s.clients)
    (hid : ∀ k ∈ s.lobbies, k ≠ g → (s.lobby k).lobbyId = (s.lobby g).lobbyId →
      old = some k ∧ (s.lobby k).type ≠ .default ∧ (s.lobby k).numClients = 1) : Tidy s' := by
  have hother {k : LobbyRef} (hk : k ∈ s'.lobbies) (hkg : k ≠ g) :
      (s.lobby k).lobbyId ≠ (s.lobby g).lobbyId := by
    intro heq
    obtain ⟨hold, hgame, hlast⟩ := hid k (h.mem_of_mem hk) hkg heq
    exact h.not_mem_of_last hs.accounted.nodup hold
      (fun hnew => hkg (Option.some.inj hnew).symm) hgame hlast hk
  refine ⟨h.accounted hs.accounted (.inl hc), fun l hl m hm heq => ?_, fun l hl hgame => ?_⟩
  · rw [h.lobbyId_eq, h.lobbyId_eq] at heq
    by_cases hlg : l = g <;> by_cases hmg : m = g
    · rw [hlg, hmg]
    · rw [hlg] at heq
      exact absurd heq.symm (hother hm hmg)
    · rw [hmg] at heq
      exact absurd heq (hother hl hlg)
    · exact hs.ids l (h.mem_of_mem hl) m (h.mem_of_mem hm) hlg hmg heq
  · rw [h.type_eq] at hgame
    refine h.numClients_pos hs.accounted hl hgame ?_
    by_cases hlg : l = g
    · exact .inr (by rw [hlg])
    · exact .inl (hs.members l (h.mem_of_mem hl) hlg hgame)

end Lists

/-! ## Joining a new game -/

/-- A client in no lobby does not get into a default lobby when it should join a game. -/
def Placed (env : Env) (s : Block) (c : ClientRef) : Prop :=
  (s.client c).curLobby = none → (s.client c).flags.gcProtect ∨ env.sent = false ∨
    ∀ l ∈ s.lobbies, ¬(s.lobby l).openTo (s.client c)

instance (env : Env) (s : Block) (c : ClientRef) : Decidable (Placed env s c) :=
  inferInstanceAs (Decidable (_ → _ ∨ _ ∨ ∀ l ∈ s.lobbies, ¬_))

/-- No lobby with the id of a game stays in the list when a client in a lobby joins the game:
the client is not let in, or what has the id is a game that the client leaves as the last. -/
def IdFree (env : Env) (s : Block) (c : ClientRef) (x : Lobby) : Prop :=
  (s.client c).curLobby = none ∨ (s.client c).flags.gcProtect ∨
    ¬x.admits env.legit (s.client c).flags.overrideGame (s.client c) ∨
    ∀ k ∈ s.lobbies, (s.lobby k).lobbyId = x.lobbyId → (s.client c).curLobby = some k ∧
      (s.lobby k).type ≠ .default ∧ (s.lobby k).numClients = 1

instance (env : Env) (s : Block) (c : ClientRef) (x : Lobby) : Decidable (IdFree env s c x) :=
  inferInstanceAs (Decidable (_ ∨ _ ∨ ¬_ ∨ ∀ k ∈ s.lobbies, _ → _ ∧ _ ∧ _))

section Joining

variable {env : Env} {s : Block} {c : ClientRef} {g : LobbyRef}

theorem joinCreated_of_joinGame {t : Block} {rv : Int} (h : joinGame env s c g = (t, rv)) :
    joinCreated env s c g = if rv ≠ 0 then lobbyDestroyLocked t g true else t := by
  simp only [joinCreated, h]

/-- A creator gets into the new game, or the game is destroyed. -/
theorem joinCreated_tidy (hs : Pending s g) (hc : c ∈ s.clients) (hplaced : Placed env s c)
    (hid : (s.client c).curLobby = none ∨ (s.client c).flags.gcProtect ∨
      ¬(s.lobby g).admits env.legit (s.client c).flags.overrideGame (s.client c) ∨
      ∀ k ∈ s.lobbies, k ≠ g → (s.lobby k).lobbyId = (s.lobby g).lobbyId →
        (s.client c).curLobby = some k ∧ (s.lobby k).type ≠ .default ∧
          (s.lobby k).numClients = 1) :
    Tidy (joinCreated env s c g) ∧ (g ∈ (joinCreated env s c g).lobbies →
      ((joinCreated env s c g).client c).curLobby = some g) := by
  have hdestroyed {t : Block} (ht : Pending t g) : Tidy (lobbyDestroyLocked t g true) ∧
      (g ∈ (lobbyDestroyLocked t g true).lobbies →
        ((lobbyDestroyLocked t g true).client c).curLobby = some g) :=
    ⟨ht.destroyed.1, fun hg => absurd hg ht.destroyed.2⟩
  by_cases hprotect : (s.client c).flags.gcProtect
  · rw [joinCreated_of_joinGame (if_pos hprotect), if_pos (by decide)]
    exact hdestroyed hs
  · have hjoin : joinGame env s c g = lobbyChangeLobby env s c g := if_neg hprotect
    obtain ⟨-, rv, hrv, hfail⟩ | ⟨s', new, rv, hmove, hcases, htransfer, hleaving, -⟩ :=
      lobbyChangeLobby_cases env c hs.accounted.seated hs.mem
    · rw [joinCreated_of_joinGame (hjoin.trans hfail), if_pos hrv]
      have hstill : Transfer env s (clearOverride s c) c _ _ :=
        (still_clearOverride s c).transfer rfl rfl rfl
      exact hdestroyed (hstill.pending hs (.inl hc) (hs.vacant c))
    · obtain ⟨hcur, hdefault, -⟩ | ⟨hcur, rfl, rfl⟩ := hcases
      · -- a client in no lobby was put in a default lobby
        have hnew : some new ≠ some g := by
          rintro heq
          rw [Option.some.inj heq] at hdefault
          exact hs.game hdefault
        have hrv : rv ≠ 0 := by
          rintro rfl
          obtain ⟨hsent, l, hl, hopen⟩ := exists_openTo_of_lobbyChangeLobby hcur hs.game
            (congrArg Prod.snd hmove)
          obtain hp | hunsent | hclosed := hplaced hcur
          · exact hprotect hp
          · rw [hunsent] at hsent
            cases hsent
          · exact hclosed l hl hopen
        rw [joinCreated_of_joinGame (hjoin.trans hmove), if_pos hrv]
        exact hdestroyed (htransfer.pending hs (.inl hc) hnew)
      · rw [joinCreated_of_joinGame (hjoin.trans hmove), if_neg (by decide)]
        obtain ⟨l, hl⟩ := Option.ne_none_iff_exists'.mp hcur
        have hadmits : (s.lobby new).admits env.legit (s.client c).flags.overrideGame
            (s.client c) := by
          have hlg : (s.client c).curLobby ≠ some new := hs.vacant c
          rw [if_neg hlg, hl] at hleaving
          simp only [leaving, hl, Option.map_some] at hleaving
          split_ifs at hleaving with hadmits
          exact hadmits.2
        refine ⟨htransfer.tidy_of_pending hs hc ?_, fun _ => htransfer.after⟩
        obtain hnone | hp | hnot | hlast := hid
        · exact absurd hnone hcur
        · exact absurd hp hprotect
        · exact absurd hadmits hnot
        · exact hlast

end Joining

/-! ## Creating a game -/

section Creating

variable {env : Env} {s : Block} {c : ClientRef} {l : LobbyRef} {x : Lobby} {a : GameArgs}

/-- The id that is selected for a new game is unused. -/
theorem lobbyId_ne_selectId (hl : l ∈ s.lobbies) : (s.lobby l).lobbyId ≠ selectId s := by
  have hused (id : Nat) (hnot : id ∉ s.lobbies.map fun l => (s.lobby l).lobbyId) :
      (blockGetLobby s id).isSome = false := by
    rw [blockGetLobby, Option.isSome_eq_false_iff, Option.isNone_iff_eq_none, List.find?_eq_none]
    intro m hm heq
    exact hnot (List.mem_map.mpr ⟨m, hm, of_decide_eq_true heq⟩)
  obtain ⟨k, hk, hnot⟩ :=
    Unused.exists_not_mem (s.lobbies.map fun l => (s.lobby l).lobbyId) 0x21
  rw [List.length_map] at hk
  have hfree : (blockGetLobby s (selectId s)).isSome = false :=
    @Unused.used_firstUnused (fun id => (blockGetLobby s id).isSome) s.lobbies.length 0x21
      ⟨k, hk, hused _ hnot⟩
  rw [blockGetLobby, Option.isSome_eq_false_iff, Option.isNone_iff_eq_none,
    List.find?_eq_none] at hfree
  exact fun heq => hfree l hl (decide_eq_true heq)

/-- A lobby in the list is not touched by an allocation. -/
theorem Accounted.lobby_alloc (h : Accounted s) (hl : l ∈ s.lobbies) :
    (s.alloc x).lobby l = s.lobby l :=
  lobby_alloc_of_ne fun heq => h.fresh.1 (heq ▸ hl)

/-- A new game in the list. -/
theorem Tidy.pending_created (h : Tidy s) (hx : x.New) :
    Pending (insertGame (s.alloc x) s.fresh) s.fresh := by
  have hold {l : LobbyRef} (hl : l ∈ s.lobbies ++ [s.fresh]) (hne : l ≠ s.fresh) :
      l ∈ s.lobbies ∧ (s.alloc x).lobby l = s.lobby l := by
    obtain hl | hl := List.mem_append.mp hl
    · exact ⟨hl, h.accounted.lobby_alloc hl⟩
    · exact absurd (List.mem_singleton.mp hl) hne
  refine
    { accounted := h.accounted.created hx
      ids := fun l hl m hm hlg hmg heq => ?_
      members := fun l hl hlg hgame => ?_
      mem := List.mem_append_right _ (List.mem_singleton.mpr rfl)
      game := ?_
      vacant := fun d hd => h.accounted.fresh.1 (h.accounted.seated.listed d _ hd) }
  · obtain ⟨hl, hsameL⟩ := hold hl hlg
    obtain ⟨hm, hsameM⟩ := hold hm hmg
    have heq' : ((s.alloc x).lobby l).lobbyId = ((s.alloc x).lobby m).lobbyId := heq
    rw [hsameL, hsameM] at heq'
    exact h.ids l hl m hm heq'
  · obtain ⟨hl, hsame⟩ := hold hl hlg
    have hgame' : ((s.alloc x).lobby l).type ≠ .default := hgame
    show 0 < ((s.alloc x).lobby l).numClients
    rw [hsame] at hgame' ⊢
    exact h.members l hl hgame'
  · show ((s.alloc x).lobby s.fresh).type ≠ .default
    rw [lobby_alloc_self]
    exact hx.game

/-- Creating a game for a client that is placed. -/
theorem Tidy.created (h : Tidy s) (hc : c ∈ s.clients) (hx : x.New) (hid : x.lobbyId = selectId s)
    (hplaced : Placed env s c) :
    Tidy (joinCreated env (insertGame (s.alloc x) s.fresh) c s.fresh) ∧
      (s.fresh ∈ (joinCreated env (insertGame (s.alloc x) s.fresh) c s.fresh).lobbies →
        ((joinCreated env (insertGame (s.alloc x) s.fresh) c s.fresh).client c).curLobby =
          some s.fresh) := by
  refine joinCreated_tidy (h.pending_created hx) hc (fun hcur => ?_)
    (.inr (.inr (.inr fun k hk hkg heq => ?_)))
  · obtain hp | hunsent | hclosed := hplaced hcur
    · exact .inl hp
    · exact .inr (.inl hunsent)
    · refine .inr (.inr fun l hl hopen => ?_)
      have hopen' : ((s.alloc x).lobby l).openTo (s.client c) := hopen
      obtain hl | hl := List.mem_append.mp hl
      · rw [h.accounted.lobby_alloc hl] at hopen'
        exact hclosed l hl hopen'
      · rw [List.mem_singleton.mp hl, lobby_alloc_self] at hopen'
        exact hx.game hopen'.2.1
  · -- the id is unused
    exfalso
    obtain hk | hk := List.mem_append.mp hk
    · have heq' : ((s.alloc x).lobby k).lobbyId = ((s.alloc x).lobby s.fresh).lobbyId := heq
      rw [h.accounted.lobby_alloc hk, lobby_alloc_self, hid] at heq'
      exact @lobbyId_ne_selectId s k hk heq'
    · exact hkg (List.mem_singleton.mp hk)

/-- A game that waited, and comes into the list. -/
theorem Tidy.answered (h : Tidy s) (hc : c ∈ s.clients) (hl : (s.client c).createLobby = some l)
    (itemId : Nat) (hplaced : Placed env s c)
    (hid : IdFree env s c (answerGame itemId (s.lobby l))) :
    Tidy (processGameType env s c itemId) ∧
      (l ∈ (processGameType env s c itemId).lobbies →
        ((processGameType env s c itemId).client c).curLobby = some l) := by
  obtain ⟨t, ht⟩ : ∃ t, t = (insertGame (s.modifyLobby l (answerGame itemId)) l).modifyClient c
      fun y => { y with createLobby := none } := ⟨_, rfl⟩
  have hprocess : processGameType env s c itemId = joinCreated env t c l := by
    rw [processGameType, hl, ht]
  have hnot : l ∉ s.lobbies := h.accounted.not_mem_of_waiting hc hl
  obtain ⟨hgame, hmax⟩ := h.accounted.waits c hc l hl
  -- the answer changes the version and a flag only
  have hanswer : (answerGame itemId (s.lobby l)).Counted ∧
      (answerGame itemId (s.lobby l)).clients = (s.lobby l).clients ∧
      (answerGame itemId (s.lobby l)).type = (s.lobby l).type ∧
      (answerGame itemId (s.lobby l)).maxClients = (s.lobby l).maxClients := by
    have hcounted := h.accounted.seated.counted l
    rw [answerGame]
    split_ifs
    · exact ⟨⟨hcounted.slot_lt, hcounted.count, fun _ _ => hmax⟩, rfl, rfl, rfl⟩
    · exact ⟨⟨hcounted.slot_lt, hcounted.count, hcounted.slotOne⟩, rfl, rfl, rfl⟩
    · exact ⟨hcounted, rfl, rfl, rfl⟩
  have hself : t.lobby l = answerGame itemId (s.lobby l) := by
    rw [ht]
    exact lobby_modifyLobby_self s l _
  have hold {k : LobbyRef} (hk : k ∈ t.lobbies) (hne : k ≠ l) :
      k ∈ s.lobbies ∧ t.lobby k = s.lobby k := by
    rw [ht] at hk ⊢
    obtain hk | hk := List.mem_append.mp hk
    · exact ⟨hk, lobby_modifyLobby_of_ne s _ hne⟩
    · exact absurd (List.mem_singleton.mp hk) hne
  have hclient : t.client c = { s.client c with createLobby := none } := by
    rw [ht]
    exact client_modifyClient_self _ c _
  have hpending : Pending t l := by
    refine
      { accounted := ?_
        ids := fun k hk m hm hkl hml heq => ?_
        members := fun k hk hkl hkgame => ?_
        mem := by rw [ht]; exact List.mem_append_right _ (List.mem_singleton.mpr rfl)
        game := by rw [hself, hanswer.2.2.1]; exact hgame
        vacant := fun d hd => ?_ }
    · rw [ht]
      exact h.accounted.answered hc hl hanswer.1 hanswer.2.1 hanswer.2.2.1 hanswer.2.2.2
    · rw [(hold hk hkl).2, (hold hm hml).2] at heq
      exact h.ids k (hold hk hkl).1 m (hold hm hml).1 heq
    · rw [(hold hk hkl).2] at hkgame ⊢
      exact h.members k (hold hk hkl).1 hkgame
    · rw [ht, apply_client_modifyClient _ c d _ Client.curLobby rfl] at hd
      exact hnot (h.accounted.seated.listed d l hd)
  have hconnected : c ∈ t.clients := by
    rw [ht]
    exact hc
  rw [hprocess]
  refine joinCreated_tidy hpending hconnected (fun hcur => ?_) ?_
  · rw [hclient] at hcur ⊢
    obtain hp | hunsent | hclosed := hplaced hcur
    · exact .inl hp
    · exact .inr (.inl hunsent)
    · refine .inr (.inr fun k hk hopen => ?_)
      by_cases hkl : k = l
      · rw [hkl, hself] at hopen
        exact hgame (hanswer.2.2.1.symm.trans hopen.2.1)
      · rw [(hold hk hkl).2] at hopen
        exact hclosed k (hold hk hkl).1 hopen
  · rw [hclient, hself]
    refine hid.imp_right (Or.imp_right (Or.imp_right fun hall k hk hkl heq => ?_))
    rw [(hold hk hkl).2] at heq ⊢
    exact hall k (hold hk hkl).1 heq

/-- Nothing in the list changes when a lobby outside of it does. -/
theorem Tidy.of_accounted (h : Tidy s) {t : Block} (ht : Accounted t)
    (hlobbies : t.lobbies = s.lobbies) (hlobby : ∀ l ∈ s.lobbies, t.lobby l = s.lobby l) :
    Tidy t where
  accounted := ht
  ids l hl m hm heq := by
    rw [hlobbies] at hl hm
    rw [hlobby l hl, hlobby m hm] at heq
    exact h.ids l hl m hm heq
  members l hl hgame := by
    rw [hlobbies] at hl
    rw [hlobby l hl] at hgame ⊢
    exact h.members l hl hgame

/-- The game that `lobby_create_game` sets up is a new one. -/
theorem new_newGame (hsingle : a.singlePlayer → a.version = .bb) (id : Nat) :
    (newGame id a).New where
  clients _ := rfl
  game := fun h => (nomatch h)
  counted :=
    { slot_lt := fun _ _ h => (nomatch h)
      count := (Slots.filled_eq_zero_iff.mpr fun _ _ => rfl).symm
      slotOne := fun hversion _ => by
        cases hs : a.singlePlayer with
        | false =>
            show 1 < (if a.singlePlayer = true then 1 else 4)
            rw [hs]
            decide
        | true =>
            have hbb : (newGame id a).version = .bb := by
              show (if a.version = .dcv2 ∧ a.v2 = 0 then .dcv1 else a.version) = Version.bb
              rw [hsingle hs, if_neg (fun h => (nomatch h.1))]
            rw [hbb] at hversion
            exact absurd hversion (by decide) }

/-- The game that `lobby_create_ep3_game` sets up is a new one. -/
theorem new_newEp3Game (id : Nat) (passwd : String) (viewBattle : Nat) :
    (newEp3Game id passwd viewBattle).New where
  clients _ := rfl
  game := fun h => (nomatch h)
  counted :=
    { slot_lt := fun _ _ h => (nomatch h)
      count := (Slots.filled_eq_zero_iff.mpr fun _ _ => rfl).symm
      slotOne := fun _ h => (nomatch h) }

end Creating

/-! ## Packets -/

/-- The arguments with which a packet for creating a game calls `lobby_create_game`, if it
comes to that. -/
def gameArgs (y : Client) (pkt : GameCreatePkt) : Option GameArgs :=
  if y.version = .bb then
    if pkt.battle ≠ 0 ∨ pkt.challenge ≠ 0 then none
    else if y.tooLow pkt.difficulty then none
    else some (bbGame y pkt)
  else if y.flags.isDcnte then some (dcnteGame y pkt)
  else if y.tooLow pkt.difficulty then none
  else if y.version ≠ .pc ∧ y.version ≠ .gc then some (dcGame y pkt)
  else if y.version = .pc then some (pcGame y pkt)
  else some (gcGame y pkt)

/-- The condition for creating a game. A game in the list needs a creator that is placed,
and a game that waits a creator that no other game waits for, and that is asked. -/
def Creatable (env : Env) (s : Block) (c : ClientRef) (a : GameArgs) : Prop :=
  (a.needsEnemies → env.loaded) →
    if a.listed then Placed env s c
    else ¬(s.client c).flags.isDcnte ∧ (s.client c).createLobby = none

instance (env : Env) (s : Block) (c : ClientRef) (a : GameArgs) : Decidable (Creatable env s c a) :=
  inferInstanceAs (Decidable (_ → if a.listed then _ else ¬_ ∧ _))

/-- The condition under which a packet leaves the list right. -/
def PacketOk (s : Block) (e : Arrival) : Prop :=
  match e.2.2 with
  | .gameCreate pkt => ∀ a ∈ gameArgs (s.client e.2.1) pkt, Creatable e.1 s e.2.1 a
  | .ep3GameCreate _ _ => (s.client e.2.1).version ≠ .bb → Placed e.1 s e.2.1
  | .gameType itemId => ∀ l ∈ (s.client e.2.1).createLobby,
      Placed e.1 s e.2.1 ∧ IdFree e.1 s e.2.1 (answerGame itemId (s.lobby l))
  | _ => True

instance : (s : Block) → (e : Arrival) → Decidable (PacketOk s e)
  | s, (env, c, .gameCreate pkt) =>
      inferInstanceAs (Decidable (∀ a ∈ gameArgs (s.client c) pkt, Creatable env s c a))
  | s, (env, c, .ep3GameCreate _ _) =>
      inferInstanceAs (Decidable ((s.client c).version ≠ .bb → Placed env s c))
  | s, (env, c, .gameType itemId) =>
      inferInstanceAs (Decidable (∀ l ∈ (s.client c).createLobby,
        Placed env s c ∧ IdFree env s c (answerGame itemId (s.lobby l))))
  | _, (_, _, .connect _) => inferInstanceAs (Decidable True)
  | _, (_, _, .char _) => inferInstanceAs (Decidable True)
  | _, (_, _, .gameSelect _ _) => inferInstanceAs (Decidable True)
  | _, (_, _, .changeLobby _) => inferInstanceAs (Decidable True)
  | _, (_, _, .doneBurst) => inferInstanceAs (Decidable True)
  | _, (_, _, .disconnect) => inferInstanceAs (Decidable True)
  | _, (_, _, .setFlags _ _) => inferInstanceAs (Decidable True)
  | _, (_, _, .setClient _ _ _ _ _) => inferInstanceAs (Decidable True)

/-- The game that a packet may put in the list. -/
def createdBy (s : Block) (e : Arrival) : Option LobbyRef :=
  match e.2.2 with
  | .gameCreate _ => some s.fresh
  | .ep3GameCreate _ _ => some s.fresh
  | .gameType _ => (s.client e.2.1).createLobby
  | _ => none

/-- A packet that puts a game in the list leaves the creator in it. -/
def CreatorIn (s : Block) (e : Arrival) : Prop :=
  ∀ g, createdBy s e = some g → g ∈ (process s e).lobbies →
    ((process s e).client e.2.1).curLobby = some g

section Packets

variable {env : Env} {s : Block} {c : ClientRef} {l req : LobbyRef} {a : GameArgs}
  {pkt : GameCreatePkt}

theorem gameArgs_spec {y : Client} (h : gameArgs y pkt = some a) :
    a.version = y.version ∧ (a.singlePlayer → a.version = .bb) := by
  rw [gameArgs] at h
  split_ifs at h with hbb
  · cases h
    exact ⟨rfl, fun _ => hbb⟩
  all_goals
    cases h
    exact ⟨rfl, fun hsingle => (nomatch hsingle)⟩

/-- What the handlers do when they come to call `lobby_create_game`. -/
def createWith (env : Env) (s : Block) (c : ClientRef) (a : GameArgs) : Block :=
  match lobbyCreateGame env s a with
  | (t, none) => t
  | (t, some l) =>
      if a.listed ∨ (s.client c).flags.isDcnte then joinCreated env t c l
      else t.modifyClient c fun y => { y with createLobby := some l }

theorem createAndJoin_eq (h : a.listed ∨ (s.client c).flags.isDcnte) :
    createAndJoin env s c a = createWith env s c a := by
  rw [createAndJoin, createWith]
  obtain ⟨t, l⟩ := lobbyCreateGame env s a
  cases l with
  | none => rfl
  | some l => exact (if_pos h).symm

/-- The handlers differ in the arguments, and in whether they ask the creator. -/
theorem processGameCreate_eq : processGameCreate pkt env s c =
    match gameArgs (s.client c) pkt with
    | none => s
    | some a => createWith env s c a := by
  by_cases hbb : (s.client c).version = .bb
  · have hlisted : (bbGame (s.client c) pkt).listed := .inl fun heq =>
      absurd (hbb.symm.trans heq) (by decide)
    simp only [processGameCreate, gameArgs, if_pos hbb, bbProcessGameCreate]
    split_ifs
    · rfl
    · rfl
    · exact createAndJoin_eq (.inl hlisted)
  · simp only [processGameCreate, gameArgs, if_neg hbb]
    by_cases hdcnte : (s.client c).flags.isDcnte
    · simp only [if_pos hdcnte, dcnteProcessGameCreate]
      exact createAndJoin_eq (.inr hdcnte)
    · simp only [if_neg hdcnte]
      by_cases hlow : (s.client c).tooLow pkt.difficulty
      · simp only [dcProcessGameCreate, pcProcessGameCreate, gcProcessGameCreate, if_pos hlow]
        split_ifs <;> rfl
      · simp only [dcProcessGameCreate, pcProcessGameCreate, gcProcessGameCreate, if_neg hlow]
        by_cases hdc : (s.client c).version ≠ .pc ∧ (s.client c).version ≠ .gc
        · simp only [if_pos hdc]
          exact createAndJoin_eq (.inl (.inl hdc.1))
        · simp only [if_neg hdc]
          by_cases hpc : (s.client c).version = .pc
          · -- the creator is asked exactly when the game is not put in the list
            have hasked : (pkt.battle = 0 ∧ pkt.challenge = 0 ∧ pkt.difficulty ≠ 3) ↔
                ¬((pcGame (s.client c) pkt).listed ∨ (s.client c).flags.isDcnte) := by
              simp only [GameArgs.listed, pcGame, dcGame, hpc, hdcnte]
              tauto
            simp only [if_pos hpc, createWith]
            obtain ⟨t, l⟩ := lobbyCreateGame env s (pcGame (s.client c) pkt)
            cases l with
            | none => rfl
            | some l => simp only [hasked, ite_not]
          · simp only [if_neg hpc]
            exact createAndJoin_eq (.inl (.inl hpc))

/-- A creation that meets the condition. -/
theorem createWith_tidy (h : Tidy s) (hc : c ∈ s.clients)
    (hsingle : a.singlePlayer → a.version = .bb) (hok : Creatable env s c a) :
    Tidy (createWith env s c a) ∧ (s.fresh ∈ (createWith env s c a).lobbies →
      ((createWith env s c a).client c).curLobby = some s.fresh) := by
  have hx := new_newGame hsingle (selectId s)
  have hfresh : s.fresh ∉ s.lobbies := h.accounted.fresh.1
  by_cases hload : a.needsEnemies ∧ !env.loaded
  · -- the enemies cannot be loaded
    have heq : createWith env s c a =
        { s.alloc (newGame (selectId s) a) with freed := s.fresh :: s.freed } := by
      simp only [createWith, lobbyCreateGame, if_pos hload]
      rfl
    rw [heq]
    refine ⟨h.of_accounted (h.accounted.failed hx) rfl fun l hl => h.accounted.lobby_alloc hl, ?_⟩
    exact fun hmem => absurd hmem hfresh
  have hok := hok fun hneeds => by
    by_contra hnot
    exact hload ⟨hneeds, by simpa using hnot⟩
  by_cases hlisted : a.listed
  · have heq : createWith env s c a =
        joinCreated env (insertGame (s.alloc (newGame (selectId s) a)) s.fresh) c s.fresh := by
      simp only [createWith, lobbyCreateGame, if_neg hload, if_pos hlisted,
        if_pos (Or.inl hlisted : a.listed ∨ (s.client c).flags.isDcnte)]
    rw [if_pos hlisted] at hok
    rw [heq]
    exact h.created hc hx rfl hok
  · rw [if_neg hlisted] at hok
    have heq : createWith env s c a = (s.alloc (newGame (selectId s) a)).modifyClient c fun y =>
        { y with createLobby := some s.fresh } := by
      simp only [createWith, lobbyCreateGame, if_neg hload, if_neg hlisted,
        if_neg (not_or.mpr ⟨hlisted, hok.1⟩)]
    have hmax : 1 < (newGame (selectId s) a).maxClients := by
      have hpc : a.version = .pc := not_not.mp (not_or.mp hlisted).1
      have hmany : ¬a.singlePlayer := fun hone => by
        rw [hsingle hone] at hpc
        cases hpc
      show 1 < (if a.singlePlayer then 1 else 4)
      rw [if_neg hmany]
      decide
    rw [heq]
    refine ⟨h.of_accounted (h.accounted.waiting hx hmax hc hok.2) rfl
      fun l hl => h.accounted.lobby_alloc hl, ?_⟩
    exact fun hmem => absurd hmem hfresh

/-- Where nothing moves, the list stays tidy. -/
theorem Still.tidy {s' : Block} (hstill : Still s s' c) (h : Tidy s)
    (hlobbies : s'.lobbies = s.lobbies) (hnum : s'.numGames = s.numGames)
    (hfreed : s'.freed = s.freed) : Tidy s' := by
  have htransfer : Transfer { now := 0 } s s' c _ _ := hstill.transfer hlobbies hnum hfreed
  exact htransfer.tidy h (.inr rfl)

theorem lobbyChangeLobby_tidy (h : Tidy s) (hc : c ∈ s.clients) (hreq : req ∈ s.lobbies) :
    Tidy (lobbyChangeLobby env s c req).1 := by
  obtain ⟨-, rv, -, hfail⟩ | ⟨s', new, rv, hmove, -, htransfer, -⟩ :=
    lobbyChangeLobby_cases env c h.accounted.seated hreq
  · rw [hfail]
    exact (still_clearOverride s c).tidy h rfl rfl rfl
  · rw [hmove]
    exact htransfer.tidy h (.inl hc)

theorem mem_of_blockGetLobby {id : Nat} (h : blockGetLobby s id = some l) : l ∈ s.lobbies :=
  List.mem_of_find?_eq_some h

theorem processGameSelect_tidy (h : Tidy s) (hc : c ∈ s.clients) (itemId : Nat)
    (passwd : String) : Tidy (processGameSelect env s c itemId passwd) := by
  rw [processGameSelect]
  split
  · exact h
  · rename_i l hl
    simp only [joinGame]
    split_ifs
    · exact h
    · exact h
    · exact lobbyChangeLobby_tidy h hc (mem_of_blockGetLobby hl)

theorem processChangeLobby_tidy (h : Tidy s) (hc : c ∈ s.clients) (itemId : Nat) :
    Tidy (processChangeLobby env s c itemId) := by
  rw [processChangeLobby]
  split_ifs
  · exact h
  · split
    · exact h
    · rename_i req hreq
      exact lobbyChangeLobby_tidy h hc (mem_of_blockGetLobby hreq)

theorem lobbyRemovePlayer_tidy (h : Tidy s) (hc : c ∈ s.clients) :
    Tidy (lobbyRemovePlayer env s c).1 :=
  (lobbyRemovePlayer_transfer h.accounted.seated).tidy h (.inl hc)

theorem processChar_tidy (h : Tidy s) (hc : c ∈ s.clients) (leaving : Bool) :
    Tidy (processChar env s c leaving) := by
  rw [processChar]
  split_ifs with _ hcur
  · exact lobbyRemovePlayer_tidy h hc
  · cases hadd : lobbyAddToAny env s c none with
    | none => exact h
    | some s' =>
        obtain ⟨l, hl, hadded⟩ := added_lobbyAddToAny
          (fun l hl => absurd hl (Option.not_mem_none l)) hadd
        exact (hadded.transfer hcur hl).tidy h (.inl hc)
  · exact h

theorem dcProcessDoneBurst_tidy (h : Tidy s) : Tidy (dcProcessDoneBurst s c).1 := by
  rw [dcProcessDoneBurst]
  split
  · exact h
  · split_ifs
    · exact h
    · exact (still_setBursting s c _ false).tidy h rfl rfl rfl

/-- A client that is disconnected leaves its lobby first. -/
theorem disconnect_tidy (h : Tidy s) (hc : c ∈ s.clients) : Tidy (disconnect env s c) := by
  obtain ⟨t, ht⟩ : ∃ t, t = (lobbyRemovePlayer env s c).1 := ⟨_, rfl⟩
  have htransfer : Transfer env s t c (s.client c).curLobby none := by
    rw [ht]
    exact lobbyRemovePlayer_transfer h.accounted.seated
  have htidy : Tidy t := htransfer.tidy h (.inl hc)
  have hct : c ∈ t.clients := by
    rw [htransfer.clients]
    exact hc
  have hsame : (clientDestroyConnection t c).lobbies = t.lobbies ∧
      (clientDestroyConnection t c).lobby = t.lobby := by
    rw [clientDestroyConnection]
    split <;> exact ⟨rfl, rfl⟩
  rw [disconnect, ← ht]
  exact htidy.of_accounted (htidy.accounted.disconnected hct htransfer.after) hsame.1
    fun l _ => by rw [hsame.2]

theorem ep3ProcessGameCreate_tidy (h : Tidy s) (hc : c ∈ s.clients) (passwd : String)
    (viewBattle : Nat) (hok : (s.client c).version ≠ .bb → Placed env s c) :
    Tidy (ep3ProcessGameCreate env s c passwd viewBattle) ∧
      (s.fresh ∈ (ep3ProcessGameCreate env s c passwd viewBattle).lobbies →
        ((ep3ProcessGameCreate env s c passwd viewBattle).client c).curLobby = some s.fresh) := by
  by_cases hbb : (s.client c).version = .bb
  · rw [ep3ProcessGameCreate, if_pos hbb]
    exact ⟨h, fun hmem => absurd hmem h.accounted.fresh.1⟩
  · rw [ep3ProcessGameCreate, if_neg hbb]
    exact h.created hc (new_newEp3Game _ _ _) rfl (hok hbb)

theorem processGameCreate_tidy (h : Tidy s) (hc : c ∈ s.clients)
    (hok : ∀ a, gameArgs (s.client c) pkt = some a → Creatable env s c a) :
    Tidy (processGameCreate pkt env s c) ∧ (s.fresh ∈ (processGameCreate pkt env s c).lobbies →
      ((processGameCreate pkt env s c).client c).curLobby = some s.fresh) := by
  rw [processGameCreate_eq]
  cases hargs : gameArgs (s.client c) pkt with
  | none => exact ⟨h, fun hmem => absurd hmem h.accounted.fresh.1⟩
  | some a => exact createWith_tidy h hc (gameArgs_spec hargs).2 (hok a hargs)

/-- What the handlers keep up, if the packet meets the condition. -/
theorem process_tidy (s : Block) (e : Arrival) (h : Tidy s) (harrives : Arrives s e)
    (hok : PacketOk s e) : Tidy (process s e) ∧ CreatorIn s e := by
  obtain ⟨env, c, packet⟩ := e
  have hnothing {t : Block} (ht : Tidy t) {P : LobbyRef → Prop} :
      Tidy t ∧ ∀ g, (none : Option LobbyRef) = some g → P g := ⟨ht, fun _ hg => (nomatch hg)⟩
  cases packet with
  | connect version =>
      have hconnect : Tidy (connect s c version) :=
        h.of_accounted (h.accounted.connected_new harrives version) rfl fun _ _ => rfl
      exact hnothing hconnect
  | char leaving => exact hnothing (processChar_tidy h harrives leaving)
  | gameCreate pkt =>
      obtain ⟨htidy, hcreator⟩ := processGameCreate_tidy h harrives hok
      exact ⟨htidy, fun g hg => Option.some.inj hg ▸ hcreator⟩
  | ep3GameCreate passwd viewBattle =>
      obtain ⟨htidy, hcreator⟩ := ep3ProcessGameCreate_tidy h harrives passwd viewBattle hok
      exact ⟨htidy, fun g hg => Option.some.inj hg ▸ hcreator⟩
  | gameType itemId =>
      cases hl : (s.client c).createLobby with
      | none =>
          have hsame : process s (env, c, .gameType itemId) = s := by
            simp only [process, processGameType, hl]
          refine ⟨by rw [hsame]; exact h, fun g hg => ?_⟩
          rw [createdBy, hl] at hg
          cases hg
      | some l =>
          obtain ⟨hplaced, hid⟩ := hok l hl
          obtain ⟨htidy, hcreator⟩ := h.answered harrives hl itemId hplaced hid
          exact ⟨htidy, fun g hg => Option.some.inj (hl.symm.trans hg) ▸ hcreator⟩
  | gameSelect itemId passwd => exact hnothing (processGameSelect_tidy h harrives itemId passwd)
  | changeLobby itemId => exact hnothing (processChangeLobby_tidy h harrives itemId)
  | doneBurst => exact hnothing (dcProcessDoneBurst_tidy h)
  | disconnect => exact hnothing (disconnect_tidy h harrives)
  | setFlags l flags => exact hnothing ((still_setFlags s c l flags).tidy h rfl rfl rfl)
  | setClient version flags level chClass times =>
      exact hnothing ((still_setClient s c version flags level chClass times).tidy h rfl rfl rfl)

end Packets

/-! ## Runs -/

/-- The list of games is right: the ids differ, the games are counted and have members,
and each lobby that was allocated is in the list, or waits, or was freed, and only once
in only one of these. When nobody is connected, all games were freed. -/
structure GamesOk (s : Block) : Prop where
  ids : (s.lobbies.map fun l => (s.lobby l).lobbyId).Nodup
  numGames : s.numGames = games s
  members : ∀ l ∈ s.lobbies, (s.lobby l).type ≠ .default →
    ∃ i c, (s.lobby l).clients i = some c
  once : ∀ l < s.fresh, uses s l = 1
  freed : s.clients = [] → ∀ l < s.fresh, (s.lobby l).type ≠ .default → s.freed.count l = 1

section Runs

variable {s : Block} {es : List Arrival}

/-- Somebody is in each game of the list. -/
theorem Tidy.exists_member (h : Tidy s) {l : LobbyRef} (hl : l ∈ s.lobbies)
    (hgame : (s.lobby l).type ≠ .default) : ∃ i c, (s.lobby l).clients i = some c := by
  have hpos := h.members l hl hgame
  rw [(h.accounted.seated.counted l).count] at hpos
  by_contra hnone
  refine Nat.ne_of_gt hpos (Slots.filled_eq_zero_iff.mpr fun i _ => ?_)
  by_contra hi
  obtain ⟨c, hc⟩ := Option.ne_none_iff_exists'.mp hi
  exact hnone ⟨i, c, hc⟩

theorem Tidy.gamesOk (h : Tidy s) : GamesOk s where
  ids := h.accounted.nodup.map_on h.ids
  numGames := h.accounted.numGames
  members l hl hgame := h.exists_member hl hgame
  once l hl := by rw [h.accounted.uses_eq, if_pos hl]
  freed hclients l hl hgame := by
    have huses : uses s l = 1 := by rw [h.accounted.uses_eq, if_pos hl]
    have hwaiting : waitingFor s l = 0 := by rw [waitingFor, hclients, List.countP_nil]
    have hlist : s.lobbies.count l = 0 := by
      refine List.count_eq_zero_of_not_mem fun hmem => ?_
      obtain ⟨i, c, hc⟩ := h.exists_member hmem hgame
      have hcur := (h.accounted.seated.clients_iff.mp hc).1
      rw [h.accounted.connected c (by rw [hclients]; exact List.not_mem_nil)] at hcur
      cases hcur
    rw [uses] at huses
    omega

/-- The block is tidy when it starts. -/
theorem tidy_blockServerStart : Tidy blockServerStart where
  accounted :=
    { seated := Block.Empty.seated
        { clients := fun _ _ => rfl
          numClients := fun _ => rfl
          curLobby := fun _ => rfl
          maxClients := fun _ => show 2 ≤ 12 by decide }
      uses_eq := fun l => by
        show (List.range 20).count l = if l < 20 then 1 else 0
        split_ifs with hl
        · exact List.count_eq_one_of_mem List.nodup_range (List.mem_range.mpr hl)
        · exact List.count_eq_zero_of_not_mem fun hmem => hl (List.mem_range.mp hmem)
      numGames := rfl
      nodupClients := List.nodup_nil
      connected := fun _ _ => rfl
      waits := fun _ hc => absurd hc List.not_mem_nil }
  ids _ _ _ _ heq := Nat.succ.inj heq
  members _ _ hgame := absurd rfl hgame

/-- The list of games is right after each packet that leaves it so, and a creator gets into
its game. -/
theorem games_run
    (hrun : Run.Guarded process (fun s e => Arrives s e ∧ PacketOk s e) blockServerStart es)
    (hs : s = es.foldl process blockServerStart) :
    GamesOk s ∧ ∀ e, Arrives s e → PacketOk s e → CreatorIn s e := by
  have htidy : Tidy s := hs ▸ hrun.invariant
    (fun s e h hok => (process_tidy s e h hok.1 hok.2).1) tidy_blockServerStart
  exact ⟨htidy.gamesOk, fun e harrives hok => (process_tidy s e htidy harrives hok).2⟩

/-- A client on GameCube and one on PC connect, and join the block. -/
def twoPlayers : List Arrival :=
  [({ now := 1 }, 0, .connect .gc), ({ now := 2 }, 0, .char false),
    ({ now := 3 }, 1, .connect .pc), ({ now := 4 }, 1, .char false)]

/-- A packet for a game. -/
def anyGame : GameCreatePkt where
  passwd := ""
  difficulty := 0
  battle := 0
  challenge := 0
  version := 0
  episode := 1
  singlePlayer := false

/-- The game on PC waits, comes into the list, and is joined by the other client, which
leaves it for a game of its own. Then both are disconnected. -/
def createsInTurn : List Arrival :=
  twoPlayers ++
    [({ now := 5 }, 1, .gameCreate anyGame), ({ now := 6 }, 1, .gameType 0),
      ({ now := 7 }, 1, .doneBurst), ({ now := 8 }, 0, .gameSelect 0x21 ""),
      ({ now := 9 }, 0, .doneBurst), ({ now := 10 }, 0, .gameCreate anyGame),
      ({ now := 11 }, 1, .disconnect), ({ now := 12 }, 0, .disconnect)]

/-- A game is created while another one waits, and both get the same id. -/
def createsMeanwhile : List Arrival :=
  twoPlayers ++
    [({ now := 5 }, 1, .gameCreate anyGame), ({ now := 6 }, 0, .gameCreate anyGame),
      ({ now := 7 }, 1, .gameType 0)]

theorem games_run_createsInTurn : GamesOk (createsInTurn.foldl process blockServerStart) :=
  (@games_run _ createsInTurn (by decide) rfl).1

/-- Two games in the list have the id 33 when one came into the list after it had waited. -/
theorem not_gamesOk_createsMeanwhile :
    Run.Guarded process Arrives blockServerStart createsMeanwhile ∧
      ¬GamesOk (createsMeanwhile.foldl process blockServerStart) :=
  ⟨by decide, fun h => absurd h.ids (by decide)⟩

end Runs

end Sylverant.Ship
