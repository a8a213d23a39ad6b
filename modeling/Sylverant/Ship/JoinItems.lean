/-
# The items of a client that joins a game

A client that joins a game gets new ids for its items, and the game keeps the last id
that it gave out for the slot. `join_game` does this in the last branch of a chain that
goes through the return values of `lobby_change_lobby`. One of them is looked at before
the chain and not in it, so that the client it refuses gets the new ids as well.

The counters are an array of four cells; what lies behind them is what the memory holds.
-/

import Sylverant.Ship.BbGame
import Sylverant.Ship.Games
import Sylverant.Ship.Membership

namespace Sylverant.Ship

open Function (update)
open Bb (Item numberItems)

/-- The items of the clients and the counters of the lobbies. -/
structure Stock where
  /-- The items in `bb_pl->inv`. -/
  bbInv : ClientRef → List Item
  /-- The first `item_count` of the array `items`. -/
  items : ClientRef → List Item
  /-- The array `highest_item`, and what lies behind it. -/
  highestItem : LobbyRef → Nat → UInt32

/-- The items of a client of some version. -/
def Stock.carried (k : Stock) (version : Version) (c : ClientRef) : List Item :=
  if version = .bb then k.bbInv c else k.items c

/-- The first id that `join_game` gives out for a slot. -/
def Stock.firstId (k : Stock) (l : LobbyRef) (clientId : Nat) : UInt32 :=
  (0x00010000 : UInt32) ||| (clientId.toUInt32 <<< 21) ||| k.highestItem l clientId

/-- The last branch of `join_game`: the inventory is fixed up for the new lobby. -/
def fixItems (k : Stock) (version : Version) (c : ClientRef) (l : LobbyRef) (clientId : Nat) :
    Stock :=
  let id := k.firstId l clientId
  let last := id + (k.carried version c).length.toUInt32 - 1
  let k := { k with highestItem := update k.highestItem l (update (k.highestItem l) clientId last) }
  if version = .bb then { k with bbInv := update k.bbInv c (numberItems id (k.bbInv c)) }
  else { k with items := update k.items c (numberItems id (k.items c)) }

/-- What `join_game` leaves and returns, with the places of `highest_item` that it went to. -/
structure Joined where
  block : Block
  stock : Stock
  rv : Int
  indices : List Nat := []

/-- The return values that the chain of `join_game` goes through. -/
def reported : List Int := [-14, -13, -12, -11, -10, -9, -8, -7, -6, -5, -4, -3, -2, -1]

/-- `join_game`, with the items. -/
def joinGameItems (env : Env) (s : Block) (k : Stock) (c : ClientRef) (l : LobbyRef) : Joined :=
  if (s.client c).flags.gcProtect then { block := s, stock := k, rv := -1 }
  else
    let (s, rv) := lobbyChangeLobby env s c l
    if rv ∈ reported then { block := s, stock := k, rv }
    else
      let y := s.client c
      { block := s, stock := fixItems k y.version c l y.clientId, rv
        indices := [y.clientId, y.clientId] }

/-! ## What is intended -/

/-- Items have consecutive ids. -/
def Consecutive (first : UInt32) (inv : List Item) : Prop :=
  ∀ (i : Nat) (it : Item), inv[i]? = some it → it.itemId = first + i.toUInt32

/-- A join that is refused changes no item and no counter, the counters are those of the
four slots, and a join that goes through gives out consecutive ids, the last of which is
kept for the slot. -/
structure JoinsAsIntended (k : Stock) (c : ClientRef) (l : LobbyRef) (r : Joined) : Prop where
  refused : r.rv ≠ 0 → r.stock = k
  inside : ∀ i ∈ r.indices, i < 4
  issued : r.rv = 0 → ∃ first,
    (r.stock.carried (r.block.client c).version c).length =
      (k.carried (r.block.client c).version c).length ∧
    Consecutive first (r.stock.carried (r.block.client c).version c) ∧
    ∀ it ∈ (r.stock.carried (r.block.client c).version c).getLast?,
      r.stock.highestItem l (r.block.client c).clientId = it.itemId

/-- A client whose class is not allowed in the game. -/
def ClassRefused (y : Client) (x : Lobby) : Prop :=
  x.type = .game ∧ x.version = .dcv1 ∧ y.chClass > 8

instance (y : Client) (x : Lobby) : Decidable (ClassRefused y x) :=
  inferInstanceAs (Decidable (_ ∧ _ ∧ _))

/-- The items have the ids that they would get, and the counter is at the last. -/
def Stock.Numbered (k : Stock) (version : Version) (c : ClientRef) (l : LobbyRef)
    (clientId : Nat) : Prop :=
  Consecutive (k.firstId l clientId) (k.carried version c) ∧
    k.highestItem l clientId =
      k.firstId l clientId + (k.carried version c).length.toUInt32 - 1

/-- The lobby that a client in no lobby gets into when it asks for a game. -/
def entrance (s : Block) (c : ClientRef) : Option LobbyRef :=
  s.lobbies.find? fun m => (s.lobby m).openTo (s.client c)

/-- The condition under which `join_game` does what is intended: the client is not refused
for its class, unless it has the new ids already, and a client in no lobby does not end up
in one of the later slots of a default lobby. -/
def JoinSafe (env : Env) (s : Block) (k : Stock) (c : ClientRef) (l : LobbyRef) : Prop :=
  ¬(s.client c).flags.gcProtect →
    match (s.client c).curLobby with
    | none => env.sent → ∀ m i, entrance s c = some m → slotFor (s.lobby m) = some i → i < 4
    | some _ => ClassRefused (s.client c) (s.lobby l) → (s.client c).clientId < 4 ∧
        k.Numbered (s.client c).version c l (s.client c).clientId

/-! ## Ids -/

section Ids

variable {k : Stock} {version : Version} {c : ClientRef} {l : LobbyRef} {clientId : Nat}
  {id : UInt32} {inv : List Item}

theorem length_numberItems : (numberItems id inv).length = inv.length := by
  induction inv generalizing id with
  | nil => rfl
  | cons it inv ih => rw [numberItems, List.length_cons, List.length_cons, ih]

theorem consecutive_cons {it : Item} :
    Consecutive id (it :: inv) ↔ it.itemId = id ∧ Consecutive (id + 1) inv := by
  have hshift (i : Nat) : id + 1 + i.toUInt32 = id + (i + 1).toUInt32 := by
    rw [UInt32.add_assoc, UInt32.add_comm 1]
    exact congrArg (id + ·) (UInt32.ofNat_add i 1).symm
  constructor
  · intro h
    refine ⟨(h 0 it rfl).trans (UInt32.add_zero id), fun i x hx => ?_⟩
    rw [hshift]
    exact h (i + 1) x hx
  · rintro ⟨hid, h⟩ i x hx
    cases i with
    | zero =>
        obtain rfl := Option.some.inj hx
        exact hid.trans (UInt32.add_zero id).symm
    | succ i =>
        rw [← hshift]
        exact h i x hx

theorem consecutive_numberItems : Consecutive id (numberItems id inv) := by
  induction inv generalizing id with
  | nil => exact fun i it h => nomatch h
  | cons it inv ih =>
      rw [numberItems, consecutive_cons]
      exact ⟨rfl, ih⟩

/-- Items that have the ids already stay as they are. -/
theorem numberItems_eq_self_iff : numberItems id inv = inv ↔ Consecutive id inv := by
  induction inv generalizing id with
  | nil => exact iff_of_true rfl fun i it h => nomatch h
  | cons it inv ih =>
      have hhead : { it with itemId := id } = it ↔ it.itemId = id :=
        ⟨fun h => (congrArg Item.itemId h).symm, fun h => h ▸ rfl⟩
      rw [numberItems, consecutive_cons, List.cons.injEq, hhead, ih]

/-- The last of consecutive ids. -/
theorem Consecutive.getLast {it : Item} (h : Consecutive id inv) (hlast : inv.getLast? = some it) :
    it.itemId = id + inv.length.toUInt32 - 1 := by
  have hpos : inv ≠ [] := by
    rintro rfl
    exact nomatch hlast
  obtain ⟨n, hn⟩ := Nat.exists_eq_succ_of_ne_zero (mt List.length_eq_zero_iff.mp hpos)
  rw [List.getLast?_eq_getElem?, hn] at hlast
  have hcount : (n + 1).toUInt32 = n.toUInt32 + 1 := UInt32.ofNat_add n 1
  rw [h n it hlast, hn, Nat.succ_eq_add_one, hcount, ← UInt32.add_assoc, UInt32.add_sub_cancel]

/-- What is carried after the ids were given out. -/
theorem carried_fixItems :
    (fixItems k version c l clientId).carried version c =
      numberItems (k.firstId l clientId) (k.carried version c) := by
  by_cases hbb : version = .bb
  · simp [fixItems, Stock.carried, hbb]
  · simp [fixItems, Stock.carried, hbb]

theorem highestItem_fixItems :
    (fixItems k version c l clientId).highestItem l clientId =
      k.firstId l clientId + (k.carried version c).length.toUInt32 - 1 := by
  by_cases hbb : version = .bb
  · simp [fixItems, Stock.carried, hbb]
  · simp [fixItems, Stock.carried, hbb]

/-- Giving out ids changes nothing only if they are given out already. -/
theorem fixItems_eq_self_iff :
    fixItems k version c l clientId = k ↔ k.Numbered version c l clientId := by
  constructor
  · intro h
    have hcarried := @carried_fixItems k version c l clientId
    have hlast := @highestItem_fixItems k version c l clientId
    rw [h] at hcarried hlast
    exact ⟨numberItems_eq_self_iff.mp hcarried.symm, hlast⟩
  · rintro ⟨hids, hlast⟩
    have hcounter : update k.highestItem l (update (k.highestItem l) clientId
        (k.firstId l clientId + (k.carried version c).length.toUInt32 - 1)) = k.highestItem := by
      rw [← hlast, Function.update_eq_self, Function.update_eq_self]
    have hsame := numberItems_eq_self_iff.mpr hids
    by_cases hbb : version = .bb
    · rw [Stock.carried, if_pos hbb] at hsame
      rw [fixItems, if_pos hbb, hcounter, hsame, Function.update_eq_self]
    · rw [Stock.carried, if_neg hbb] at hsame
      rw [fixItems, if_neg hbb, hcounter, hsame, Function.update_eq_self]

end Ids

/-! ## Return values -/

section Returns

variable {env : Env} {s : Block} {c : ClientRef} {l : LobbyRef}

/-- A check whose return value is in the chain. -/
theorem reported_of_check {P : Prop} [Decidable P] {a rv : Int} {rest : Option Int}
    (ha : a ∈ reported) (hrest : rest = some rv → rv ∈ reported)
    (h : (if P then some a else rest) = some rv) : rv ∈ reported := by
  split at h
  · cases h
    exact ha
  · exact hrest h

theorem policyError_of_class {legit override : Bool} {y : Client} {x : Lobby}
    (h : ClassRefused y x) : policyError legit override y x = some (-15) := if_pos h

/-- Of the reasons to refuse a client, its class is not in the chain. -/
theorem policyError_reported {legit override : Bool} {y : Client} {x : Lobby} {rv : Int}
    (h : policyError legit override y x = some rv) :
    ClassRefused y x ∧ rv = -15 ∨ ¬ClassRefused y x ∧ rv ∈ reported := by
  by_cases hclass : x.type = .game ∧ x.version = .dcv1 ∧ y.chClass > 8
  · rw [policyError_of_class hclass] at h
    exact .inl ⟨hclass, (Option.some.inj h).symm⟩
  · refine .inr ⟨hclass, ?_⟩
    rw [policyError, if_neg hclass] at h
    revert h
    iterate 12 refine reported_of_check (by decide) ?_
    exact fun h => absurd h.symm (Option.some_ne_none rv)

/-- A client is added to a lobby that is open to it. -/
theorem addAndNote_of_openTo {now : Nat} {m : LobbyRef} (hcounted : (s.lobby m).Counted)
    (hopen : (s.lobby m).openTo (s.client c)) : ∃ t, addAndNote now s c m = some t := by
  refine Option.ne_none_iff_exists'.mp fun hnone => ?_
  rw [addAndNote, Option.map_eq_none_iff] at hnone
  exact not_roomFor_of_eq_none hcounted hnone hopen.2.2

/-- A client is added to the first lobby that is open to it. -/
theorem addToFirst_eq {now : Nat} (hcounted : ∀ l, (s.lobby l).Counted) (ls : List LobbyRef) :
    addToFirst now s c ls =
      (ls.find? fun m => (s.lobby m).openTo (s.client c)).bind (addAndNote now s c) := by
  induction ls with
  | nil => rfl
  | cons m ls ih =>
      rw [addToFirst, List.find?_cons]
      by_cases hopen : (s.lobby m).openTo (s.client c)
      · obtain ⟨t, ht⟩ : ∃ t, addAndNote now s c m = some t :=
          addAndNote_of_openTo (hcounted m) hopen
        rw [decide_eq_true hopen, if_neg hopen.1, if_pos ⟨hopen.2.1, hopen.2.2.1⟩, ht]
        exact ht.symm
      · rw [decide_eq_false hopen, ← ih]
        by_cases hhidden : (s.client c).version = .dcv1 ∧ (s.lobby m).lobbyId > 10
        · rw [if_pos hhidden]
        rw [if_neg hhidden]
        by_cases havail : (s.lobby m).available
        · -- There is a free slot, but the client may not take part in the challenge.
          have hnone : addAndNote now s c m = none := by
            rw [addAndNote, Option.map_eq_none_iff]
            by_contra hsome
            obtain ⟨t, ht⟩ := Option.ne_none_iff_exists'.mp hsome
            exact hopen ⟨hhidden, havail.1, (lobbyAddClientLocked_eq_some ht).1⟩
          rw [if_pos havail, hnone]
        · rw [if_neg havail]

/-- The slot of a client that was added. -/
theorem slotFor_of_addAndNote {now : Nat} {t : Block} {m : LobbyRef}
    (h : addAndNote now s c m = some t) : slotFor (s.lobby m) = some (t.client c).clientId := by
  rw [addAndNote, Option.map_eq_some_iff] at h
  obtain ⟨u, hu, rfl⟩ := h
  obtain ⟨-, clev, i, hslot, rfl⟩ := lobbyAddClientLocked_eq_some hu
  rw [client_modifyClient_self, client_takeSlot_self]
  exact hslot

/-- What joining a game does for a client in no lobby: it gets into a default lobby, if
there is one for it and it can be told so. -/
theorem lobbyChangeLobby_none (hs : Seated s) (hcur : (s.client c).curLobby = none)
    (hgame : (s.lobby l).type ≠ .default) :
    (lobbyChangeLobby env s c l).2 = -11 ∧ (entrance s c = none ∨ env.sent = false) ∨
    (lobbyChangeLobby env s c l).2 = 0 ∧ env.sent ∧ ∃ m, entrance s c = some m ∧
      slotFor (s.lobby m) = some ((lobbyChangeLobby env s c l).1.client c).clientId := by
  have hclient : (clearOverride s c).client c =
      { s.client c with flags := { (s.client c).flags with overrideGame := false } } :=
    client_modifyClient_self s c _
  have hasked : ¬((clearOverride s c).lobby l).available := fun havail => hgame havail.1
  have hcounted : ∀ m, ((clearOverride s c).lobby m).Counted := hs.counted
  have hfirst : addToFirst env.now (clearOverride s c) c (clearOverride s c).lobbies =
      (entrance s c).bind (addAndNote env.now (clearOverride s c) c) := by
    rw [addToFirst_eq hcounted, hclient]
    rfl
  simp only [lobbyChangeLobby, hcur, enterLobby, lobbyAddToAny, if_neg hasked, hfirst]
  cases hentrance : entrance s c with
  | none => exact .inl ⟨rfl, .inl rfl⟩
  | some m =>
      rw [Option.bind_some]
      have hfound : (s.lobby m).openTo (s.client c) := by
        rw [entrance] at hentrance
        have hdecide := List.find?_some hentrance
        exact of_decide_eq_true hdecide
      have hopen : ((clearOverride s c).lobby m).openTo ((clearOverride s c).client c) := by
        rw [hclient]
        exact hfound
      obtain ⟨t, ht⟩ : ∃ t, addAndNote env.now (clearOverride s c) c m = some t :=
        addAndNote_of_openTo (hcounted m) hopen
      have hslot := slotFor_of_addAndNote ht
      rw [ht]
      cases hsent : env.sent with
      | false => exact .inl ⟨rfl, .inr rfl⟩
      | true => exact .inr ⟨rfl, rfl, m, rfl, hslot⟩

/-- A slot that is free for a client is one of the first four where there are no more, or
the one that Dreamcast and PC games prefer. -/
theorem slotFor_lt {x : Lobby} (hmax : x.maxClients ≤ 4) {i : Nat} (h : slotFor x = some i) :
    i < 4 := by
  rw [slotFor] at h
  split at h
  · cases h
    decide
  · exact Nat.lt_of_lt_of_le (Slots.firstFree_eq_some h).1 hmax

/-- The slot of a client that `lobby_change_lobby` moved to a game, or left there. -/
theorem moveToLobby_slot {override : Bool} {cur : LobbyRef} (hs : Seated s)
    (hcur : (s.client c).curLobby = some cur) (hlist : l ∈ s.lobbies)
    (hmax : (s.lobby l).maxClients ≤ 4) (hrv : (moveToLobby env override s c cur l).2 = 0) :
    ((moveToLobby env override s c cur l).1.client c).clientId < 4 := by
  rcases moveToLobby_cases env override hs hcur hlist with
    ⟨-, rv, hne, heq⟩ | ⟨hsame, -, heq⟩ | ⟨⟨hne, -⟩, -, -, -, s', -, heq, htransfer⟩
  · rw [heq] at hrv
    exact absurd hrv hne
  · subst hsame
    rw [heq, (still_finishChange s c cur false).clientId]
    exact Nat.lt_of_lt_of_le ((hs.counted cur).slot_lt _ c (hs.clients_clientId hcur)) hmax
  · rw [heq]
    have hold : some cur ≠ some l := fun h => hne (Option.some.inj h)
    exact slotFor_lt hmax (htransfer.joined l hold rfl).2.2.1

/-- What `lobby_change_lobby` returns for a client that the policy lets in. -/
theorem moveToLobby_ret {override : Bool} {cur : LobbyRef}
    (hpolicy : policyError env.legit override (s.client c) (s.lobby l) = none) :
    (moveToLobby env override s c cur l).2 = 0 ∨
      (moveToLobby env override s c cur l).2 ∈ reported := by
  rw [moveToLobby, hpolicy]
  dsimp only
  by_cases hsame : cur = l
  · rw [if_pos hsame]
    exact .inl rfl
  rw [if_neg hsame]
  cases lobbyAddClientLocked env.now s c l with
  | none => exact .inr (by decide : (-1 : Int) ∈ reported)
  | some t =>
      dsimp only
      cases lobbyRemoveClientLocked env.later t c (s.client c).clientId cur with
      | none => exact .inr (by decide : (-2 : Int) ∈ reported)
      | some removed => exact .inl rfl

/-- What joining a game does for a client in a lobby: it is refused for its class, or for
a reason in the chain, or it has one of the four slots. -/
theorem lobbyChangeLobby_some {cur : LobbyRef} (hs : Seated s)
    (hcur : (s.client c).curLobby = some cur) (hlist : l ∈ s.lobbies)
    (hmax : (s.lobby l).maxClients ≤ 4) :
    ClassRefused (s.client c) (s.lobby l) ∧
      lobbyChangeLobby env s c l = (clearOverride s c, -15) ∨
    ¬ClassRefused (s.client c) (s.lobby l) ∧ (lobbyChangeLobby env s c l).2 ∈ reported ∨
    ¬ClassRefused (s.client c) (s.lobby l) ∧ (lobbyChangeLobby env s c l).2 = 0 ∧
      ((lobbyChangeLobby env s c l).1.client c).clientId < 4 := by
  have hclient : (clearOverride s c).client c =
      { s.client c with flags := { (s.client c).flags with overrideGame := false } } :=
    client_modifyClient_self s c _
  have hclass : ClassRefused ((clearOverride s c).client c) ((clearOverride s c).lobby l) ↔
      ClassRefused (s.client c) (s.lobby l) := by
    rw [hclient]
    exact Iff.rfl
  have hcur' : ((clearOverride s c).client c).curLobby = some cur := by
    rw [hclient]
    exact hcur
  have hchange : lobbyChangeLobby env s c l =
      moveToLobby env (s.client c).flags.overrideGame (clearOverride s c) c cur l := by
    rw [lobbyChangeLobby, hcur]
  rw [hchange]
  cases hpolicy : policyError env.legit (s.client c).flags.overrideGame
      ((clearOverride s c).client c) ((clearOverride s c).lobby l) with
  | some rv =>
      have hmove : moveToLobby env (s.client c).flags.overrideGame (clearOverride s c) c cur l =
          (clearOverride s c, rv) := by
        rw [moveToLobby, hpolicy]
      rw [hmove]
      rcases policyError_reported hpolicy with ⟨hrefused, rfl⟩ | ⟨hnot, hrv⟩
      · exact .inl ⟨hclass.mp hrefused, rfl⟩
      · exact .inr (.inl ⟨mt hclass.mpr hnot, hrv⟩)
  | none =>
      have hnot : ¬ClassRefused (s.client c) (s.lobby l) := by
        intro hrefused
        rw [policyError_of_class (hclass.mpr hrefused)] at hpolicy
        cases hpolicy
      rcases moveToLobby_ret hpolicy with hzero | hrv
      · exact .inr (.inr ⟨hnot, hzero,
          moveToLobby_slot (seated_clearOverride hs) hcur' hlist hmax hzero⟩)
      · exact .inr (.inl ⟨hnot, hrv⟩)

end Returns

/-! ## Joining -/

section Joining

variable {env : Env} {s : Block} {k : Stock} {c : ClientRef} {l : LobbyRef}

/-- The block is as if there were no items. -/
theorem joinGameItems_block (env : Env) (s : Block) (k : Stock) (c : ClientRef) (l : LobbyRef) :
    ((joinGameItems env s k c l).block, (joinGameItems env s k c l).rv) = joinGame env s c l := by
  rw [joinGameItems, joinGame]
  by_cases hprotect : (s.client c).flags.gcProtect
  · rw [if_pos hprotect, if_pos hprotect]
  · rw [if_neg hprotect, if_neg hprotect]
    simp only
    split <;> rfl

/-- A client that the chain reports about keeps its items. -/
theorem joinGameItems_of_reported (hprotect : ¬(s.client c).flags.gcProtect)
    (hrv : (lobbyChangeLobby env s c l).2 ∈ reported) :
    JoinsAsIntended k c l (joinGameItems env s k c l) := by
  rw [joinGameItems, if_neg hprotect]
  simp only
  rw [if_pos hrv]
  refine ⟨fun _ => rfl, nofun, fun hzero => ?_⟩
  rw [show (lobbyChangeLobby env s c l).2 = 0 from hzero] at hrv
  exact absurd hrv (by decide)

/-- Any other client gets new ids, in its slot whatever that is. -/
theorem joinGameItems_of_not_reported (hprotect : ¬(s.client c).flags.gcProtect)
    (hrv : (lobbyChangeLobby env s c l).2 ∉ reported) {y : Client}
    (hy : (lobbyChangeLobby env s c l).1.client c = y) :
    JoinsAsIntended k c l (joinGameItems env s k c l) ↔ y.clientId < 4 ∧
      ((lobbyChangeLobby env s c l).2 ≠ 0 → k.Numbered y.version c l y.clientId) := by
  have hjoin : joinGameItems env s k c l =
      { block := (lobbyChangeLobby env s c l).1, stock := fixItems k y.version c l y.clientId
        rv := (lobbyChangeLobby env s c l).2, indices := [y.clientId, y.clientId] } := by
    rw [joinGameItems, if_neg hprotect, ← hy]
    simp only
    rw [if_neg hrv]
  rw [hjoin]
  constructor
  · intro h
    exact ⟨h.inside _ List.mem_cons_self, fun hne => fixItems_eq_self_iff.mp (h.refused hne)⟩
  · rintro ⟨hslot, hnumbered⟩
    refine ⟨fun hne => fixItems_eq_self_iff.mpr (hnumbered hne), fun i hi => ?_, fun _ => ?_⟩
    · simp only [List.mem_cons, List.not_mem_nil, or_false, or_self] at hi
      rw [hi]
      exact hslot
    · simp only [hy, carried_fixItems, highestItem_fixItems, length_numberItems]
      refine ⟨k.firstId l y.clientId, trivial, consecutive_numberItems, fun it hit => ?_⟩
      rw [consecutive_numberItems.getLast hit, length_numberItems]

/-- Joining a game that is in the list, which has no more than four slots as all games do,
does what is intended exactly if it is safe. -/
theorem joinGameItems_asIntended_iff (env : Env) (k : Stock) (c : ClientRef) (hs : Seated s)
    (hlist : l ∈ s.lobbies) (hgame : (s.lobby l).type ≠ .default)
    (hmax : (s.lobby l).maxClients ≤ 4) :
    JoinsAsIntended k c l (joinGameItems env s k c l) ↔ JoinSafe env s k c l := by
  by_cases hprotect : (s.client c).flags.gcProtect
  · rw [joinGameItems, if_pos hprotect]
    exact iff_of_true ⟨fun _ => rfl, nofun, nofun⟩ fun hnot => absurd hprotect hnot
  have hsafe : JoinSafe env s k c l ↔
      match (s.client c).curLobby with
      | none => env.sent → ∀ m i, entrance s c = some m → slotFor (s.lobby m) = some i → i < 4
      | some _ => ClassRefused (s.client c) (s.lobby l) → (s.client c).clientId < 4 ∧
          k.Numbered (s.client c).version c l (s.client c).clientId :=
    ⟨fun h => h hprotect, fun h _ => h⟩
  rw [hsafe]
  cases hcur : (s.client c).curLobby with
  | none =>
      rcases lobbyChangeLobby_none hs hcur hgame with
        ⟨hrv, hnot⟩ | ⟨hrv, hsent, m, hentrance, hslot⟩
      · refine iff_of_true (joinGameItems_of_reported hprotect (by rw [hrv]; decide)) ?_
        intro hsent m i hentrance
        rcases hnot with hnone | hunsent
        · exact nomatch hnone.symm.trans hentrance
        · exact nomatch hunsent.symm.trans hsent
      · rw [joinGameItems_of_not_reported hprotect (by rw [hrv]; decide) rfl]
        constructor
        · rintro ⟨hlt, -⟩ - m' i hentrance' hslot'
          obtain rfl := Option.some.inj (hentrance.symm.trans hentrance')
          obtain rfl := Option.some.inj (hslot.symm.trans hslot')
          exact hlt
        · exact fun h => ⟨h hsent m _ hentrance hslot, fun hne => absurd hrv hne⟩
  | some cur =>
      rcases lobbyChangeLobby_some hs hcur hlist hmax with
        ⟨hclass, heq⟩ | ⟨hclass, hrv⟩ | ⟨hclass, hrv, hslot⟩
      · have hversion : ((clearOverride s c).client c).version = (s.client c).version := by
          rw [clearOverride, client_modifyClient_self]
        have hid : ((clearOverride s c).client c).clientId = (s.client c).clientId :=
          (still_clearOverride s c).clientId
        have hnot : (-15 : Int) ∉ reported := by decide
        rw [joinGameItems_of_not_reported hprotect (by rw [heq]; exact hnot) (by rw [heq]),
          hversion, hid, heq]
        constructor
        · rintro ⟨hlt, hnumbered⟩ -
          exact ⟨hlt, hnumbered (show (-15 : Int) ≠ 0 by decide)⟩
        · intro h
          exact ⟨(h hclass).1, fun _ => (h hclass).2⟩
      · exact iff_of_true (joinGameItems_of_reported hprotect hrv) fun h => absurd h hclass
      · rw [joinGameItems_of_not_reported hprotect (by rw [hrv]; decide) rfl]
        exact iff_of_true ⟨hslot, fun hne => absurd hrv hne⟩ fun h => absurd h hclass

/-- A lobby and a game for the first version, with clients of a class that is not in it. -/
def laterClass : Block :=
  { twoLobbies with
    lobby := fun l => { twoLobbies.lobby l with version := .dcv1 }
    client := fun _ => { version := .dcv2, level := 0, chClass := 9, times := fun _ => 0 } }

theorem empty_laterClass : laterClass.Empty where
  clients := empty_twoLobbies.clients
  numClients := empty_twoLobbies.numClients
  curLobby _ := rfl
  maxClients := empty_twoLobbies.maxClients

/-- The same with a client in the lobby. -/
def laterClassEntered : Block := step laterClass ({ now := 1 }, .addToAny 0 none)

theorem seated_laterClassEntered : Seated laterClassEntered :=
  seated_step laterClass _ empty_laterClass.seated (by decide)

/-- The client has one item. -/
def oneItem : Stock where
  bbInv _ := []
  items _ := [{ data := ⟨0, 0, 0⟩, itemId := 5 }]
  highestItem _ _ := 0

theorem joinGameItems_asIntended_iff_later :
    JoinsAsIntended oneItem 0 1 (joinGameItems { now := 2 } laterClassEntered oneItem 0 1) ↔
      JoinSafe { now := 2 } laterClassEntered oneItem 0 1 :=
  joinGameItems_asIntended_iff { now := 2 } oneItem 0 seated_laterClassEntered (by decide)
    (by decide) (by decide)

/-- The client is refused, and its item has another id afterwards. -/
theorem not_joinsAsIntended : ¬∀ (env : Env) (s : Block) (k : Stock) (c : ClientRef) (l : LobbyRef),
    Seated s → l ∈ s.lobbies → (s.lobby l).type ≠ .default → (s.lobby l).maxClients ≤ 4 →
      JoinsAsIntended k c l (joinGameItems env s k c l) := by
  intro h
  have hjoin := h { now := 2 } laterClassEntered oneItem 0 1 seated_laterClassEntered (by decide)
    (by decide) (by decide)
  have hsame := congrArg (fun k => k.items 0) (hjoin.refused (by decide))
  exact absurd hsame (by decide)

end Joining

end Sylverant.Ship
