/-
# The pages of the list of players

A search counts the matches and lists a stretch of them: from the one that has the number
`first` up to the one with `first + 4`. On the first page there is no match with the number 0,
so that it has the first four. Every page behind it begins with the last match of the page
before, and has five of them.
-/

import Mathlib.Algebra.GroupWithZero.Nat
import Sylverant.Library.Decimal
import Sylverant.Ship.PlayerList

namespace Sylverant.Ship.PlayerList

/-! ## What a page should have -/

namespace Online

variable (o : Online)

/-- The clients in the order in which a search comes to them. -/
def traversal : Domain → List ClientRef
  | .ship => (o.blocks.filterMap id).flatten
  | .block => o.block
  | .lobby => o.lobby.filterMap id

/-- The clients that match, in the same order. -/
def found (f : Query) (dom : Domain) : List ClientRef :=
  (o.traversal dom).filter fun c2 => f.passes (o.player c2)

theorem traversal_nodup (dom : Domain) : (o.traversal dom).Nodup := by
  cases dom with
  | ship => exact o.blocks_nodup
  | block => exact o.block_nodup
  | lobby => exact o.lobby_nodup

theorem found_nodup (f : Query) (dom : Domain) : (o.found f dom).Nodup :=
  (o.traversal_nodup dom).filter _

end Online

/-- The matches from number `4 * (p - 1) + 1` to number `4 * p`. -/
def page (ms : List ClientRef) (p : Nat) : List ClientRef := (ms.drop (4 * (p - 1))).take 4

/-- A search for a page lists the matches that should be on it, and its text fits. -/
def ListsPage (o : Online) (f : Query) (dom : Domain) (p : Nat) : Prop :=
  ∃ count, o.search f (pageFirst p) dom = .ok ⟨count, page (o.found f dom) p⟩

/-- Whether none of `m` matches is where a search with this `first` lists them. Where
`first + 4` is too large for an `int` or `first` is negative, only the loop over the clients
of a block is entered, and it ends after a match. -/
def Past (dom : Domain) (first : Int) (m : Nat) : Prop :=
  m = 0 ∨ if 0 ≤ first ∧ first + 4 < 2 ^ 31 then m < first else dom ≠ .block ∨ 0 ≤ first

/-- Where a search lists its matches: how many it leaves out, and how many it lists. -/
def window (dom : Domain) (first : Int) : Nat × Nat :=
  if 0 ≤ first ∧ first + 4 < 2 ^ 31 then (first.toNat - 1, if first = 0 then 4 else 5)
  else (0, if dom = .block ∧ first < 0 then 1 else 0)

/-- The matches that a search lists. -/
def listed (ms : List ClientRef) (dom : Domain) (first : Int) : List ClientRef :=
  (ms.drop (window dom first).1).take (window dom first).2

/-! ## Texts -/

section Texts

variable (o : Online)

theorem length_text_append (xs ys : List ClientRef) :
    (o.text (xs ++ ys)).length =
      (o.text xs).length + (ys.map fun c2 => (o.line c2).length).sum := by
  induction ys generalizing xs with
  | nil => rw [List.append_nil, List.map_nil, List.sum_nil, Nat.add_zero]
  | cons c2 ys ih =>
      have hone : (o.text (xs ++ [c2])).length = (o.text xs).length + (o.line c2).length := by
        rw [Online.text, List.foldl_concat, String.length_append]
        rfl
      rw [List.append_cons, ih, hone, List.map_cons, List.sum_cons, Nat.add_assoc]

/-- A page has no shorter a text than the entries at its beginning. -/
theorem length_text_le (xs ys : List ClientRef) :
    (o.text xs).length ≤ (o.text (xs ++ ys)).length :=
  length_text_append o xs ys ▸ Nat.le_add_right _ _

end Texts

/-! ## What the searches list -/

section Searches

variable (o : Online) (f : Query) (first : Int)

/-- The searches as a loop over the matches alone. -/
def walk : List ClientRef → Listing → Except Fault Listing
  | [], s => .ok s
  | c2 :: ms, s => do
      let s ← o.addMatch first c2 s
      if s.count ≥ CInt.ofInt (first + 4) then return s else walk ms s

theorem searchQueue_eq (queue : List ClientRef) (s : Listing) :
    o.searchQueue f first queue s =
      walk o first (queue.filter fun c2 => f.passes (o.player c2)) s := by
  induction queue generalizing s with
  | nil => rfl
  | cons c2 queue ih =>
      rw [Online.searchQueue, List.filter_cons]
      split_ifs with hpasses
      · rw [walk]
        simp only [ih]
      · exact ih s

/-- After the matches of a part of the clients the search goes on if it is not at the end of
the page. -/
theorem walk_append {xs : List ClientRef} (ys : List ClientRef) {s : Listing}
    (h : s.count < CInt.ofInt (first + 4)) :
    walk o first (xs ++ ys) s = (do
      let t ← walk o first xs s
      if t.count < CInt.ofInt (first + 4) then walk o first ys t else .ok t) := by
  induction xs generalizing s with
  | nil => exact (if_pos h).symm
  | cons c2 xs ih =>
      rw [List.cons_append, walk, walk]
      cases o.addMatch first c2 s with
      | error fault => rfl
      | ok t =>
          by_cases hend : t.count ≥ CInt.ofInt (first + 4)
          · simp only [bind, Except.bind, if_pos hend, pure, Except.pure]
            rw [if_neg (Int.not_lt.mpr hend)]
          · simp only [bind, Except.bind, if_neg hend]
            exact ih (Int.not_le.mp hend)

theorem searchBlocks_eq (blocks : List (Option (List ClientRef))) (s : Listing) :
    o.searchBlocks f first blocks s =
      if s.count < CInt.ofInt (first + 4) then
        walk o first ((blocks.filterMap id).flatten.filter fun c2 => f.passes (o.player c2)) s
      else .ok s := by
  induction blocks generalizing s with
  | nil => exact (ite_self _).symm
  | cons b blocks ih =>
      by_cases hmore : s.count < CInt.ofInt (first + 4)
      · rw [if_pos hmore]
        cases b with
        | none =>
            rw [Online.searchBlocks, if_pos hmore, ih, if_pos hmore]
            rfl
        | some queue =>
            rw [Online.searchBlocks, if_pos hmore, searchQueue_eq]
            simp only [ih]
            rw [← walk_append o first _ hmore, ← List.filter_append]
            rfl
      · rw [if_neg hmore]
        cases b <;> exact if_neg hmore

theorem searchSlots_eq (slots : List (Option ClientRef)) (s : Listing) :
    o.searchSlots f first slots s =
      if s.count < CInt.ofInt (first + 4) then
        walk o first ((slots.filterMap id).filter fun c2 => f.passes (o.player c2)) s
      else .ok s := by
  induction slots generalizing s with
  | nil => exact (ite_self _).symm
  | cons slot slots ih =>
      by_cases hmore : s.count < CInt.ofInt (first + 4)
      · rw [if_pos hmore]
        cases slot with
        | none =>
            rw [Online.searchSlots, if_pos hmore, ih, if_pos hmore]
            rfl
        | some c2 =>
            have hcons : (some c2 :: slots).filterMap id = c2 :: slots.filterMap id := rfl
            rw [Online.searchSlots, if_pos hmore, hcons, List.filter_cons]
            split_ifs with hpasses
            · rw [walk]
              simp only [ih, ← Int.not_lt]
              congr 1
              funext t
              split_ifs <;> rfl
            · exact (ih s).trans (if_pos hmore)
      · rw [if_neg hmore]
        cases slot <;> exact if_neg hmore

/-- All the searches are loops over the matches, and only that of a block is entered in any
case. -/
theorem search_eq_walk (dom : Domain) :
    o.search f first dom =
      if dom = .block ∨ 0 < CInt.ofInt (first + 4) then walk o first (o.found f dom) {}
      else .ok {} := by
  cases dom with
  | ship =>
      rw [Online.search, searchBlocks_eq]
      simp only [reduceCtorEq, false_or]
      rfl
  | block =>
      rw [Online.search, searchQueue_eq, if_pos (.inl rfl)]
      rfl
  | lobby =>
      rw [Online.search, searchSlots_eq]
      simp only [reduceCtorEq, false_or]
      rfl

end Searches

/-! ## The stretch of a search -/

section Stretches

variable (o : Online) (f : Query)

/-- What a search ends with that lists these clients, if their text fits. -/
def fit (count : Int) (listed : List ClientRef) : Except Fault Listing :=
  if (o.text listed).length < 512 then .ok ⟨count, listed⟩ else .error .overrun

theorem fit_eq_error {xs : List ClientRef} (ys : List ClientRef) (count : Int)
    (h : ¬ (o.text xs).length < 512) : fit o count (xs ++ ys) = .error .overrun :=
  if_neg fun hlt => h (Nat.lt_of_le_of_lt (length_text_le o xs ys) hlt)

/-- The loop ends where `count` has come to the end of the page. -/
theorem fit_bind_of_le {count last : Int} (h : last ≤ count) (xs : List ClientRef)
    (rest : Listing → Except Fault Listing) :
    (do let s ← fit o count xs; if s.count ≥ last then return s else rest s) = fit o count xs := by
  rw [fit]
  split_ifs
  · exact if_pos h
  · rfl

theorem length_text_nil : (o.text []).length < 512 := show "\tE".length < 512 by decide

/-- A match is counted, and is listed from the number `first` on. -/
theorem addMatch_eq (first : Int) (c2 : ClientRef) {n : Nat} (hn : n + 1 < 2 ^ 31)
    {shown : List ClientRef} (hshown : (o.text shown).length < 512) :
    o.addMatch first c2 ⟨n, shown⟩ =
      fit o (n + 1 : Nat) (if first ≤ (n + 1 : Nat) then shown ++ [c2] else shown) := by
  have hcount : CInt.ofInt ((n : Int) + 1) = (n + 1 : Nat) := by
    rw [← CInt.ofInt_natCast hn]
    rfl
  have hlength : (o.text shown).length + (o.line c2).length =
      (o.text (shown ++ [c2])).length := by
    rw [length_text_append, List.map_singleton, List.sum_singleton]
  rw [Online.addMatch]
  simp only [hcount, ge_iff_le, hlength]
  by_cases hpage : first ≤ (n + 1 : Nat)
  · rw [if_pos hpage, if_pos hpage]
    rfl
  · rw [if_neg hpage, if_neg hpage]
    exact (if_pos hshown).symm

/-- The loop lists the matches from the one with the number `first` up to the one with
`first + 4`. There is none with the number 0. -/
theorem walk_eq {a : Nat} (ha : a + 4 < 2 ^ 31) (ms : List ClientRef) {n : Nat}
    (hn : n < a + 4) {shown : List ClientRef} (hshown : (o.text shown).length < 512) :
    walk o a ms ⟨n, shown⟩ =
      fit o (min (n + ms.length) (a + 4) : Nat)
        (shown ++ (ms.take (a + 4 - n)).drop (a - 1 - n)) := by
  have hend : CInt.ofInt ((a : Int) + 4) = (a + 4 : Nat) := CInt.ofInt_natCast ha
  induction ms generalizing n shown with
  | nil =>
      rw [walk, List.take_nil, List.drop_nil, List.append_nil, fit, if_pos hshown,
        List.length_nil, Nat.add_zero, Nat.min_eq_left (Nat.le_of_lt hn)]
  | cons c2 ms ih =>
      have hcount : min (n + (c2 :: ms).length) (a + 4) = min (n + 1 + ms.length) (a + 4) := by
        rw [List.length_cons, Nat.add_assoc, Nat.add_comm 1]
      have htake : (c2 :: ms).take (a + 4 - n) = c2 :: ms.take (a + 4 - (n + 1)) := by
        rw [show a + 4 - n = a + 4 - (n + 1) + 1 by omega, List.take_succ_cons]
      rw [walk, addMatch_eq o a c2 (by omega) hshown, hcount, htake]
      by_cases hpage : (a : Int) ≤ (n + 1 : Nat)
      · rw [if_pos hpage, show a - 1 - n = 0 by omega, List.drop_zero,
          List.append_cons shown c2 (ms.take _)]
        by_cases hfits : (o.text (shown ++ [c2])).length < 512
        · rw [fit, if_pos hfits]
          simp only [bind, Except.bind, hend, ge_iff_le, Int.ofNat_le]
          by_cases hlast : a + 4 ≤ n + 1
          · have hstop : min (n + 1 + ms.length) (a + 4) = n + 1 := by omega
            rw [if_pos hlast, show a + 4 - (n + 1) = 0 by omega, List.take_zero,
              List.append_nil, fit, if_pos hfits, hstop]
            rfl
          · rw [if_neg hlast, ih (by omega) hfits, show a - 1 - (n + 1) = 0 by omega,
              List.drop_zero]
        · rw [fit_eq_error o _ _ hfits, fit, if_neg hfits]
          rfl
      · rw [if_neg hpage, fit, if_pos hshown]
        simp only [bind, Except.bind, hend, ge_iff_le, Int.ofNat_le]
        rw [if_neg (by omega), ih (by omega) hshown,
          show a - 1 - n = a - 1 - (n + 1) + 1 by omega, List.drop_succ_cons]

/-- Where the end of the page is not above 0 the loop ends after a match. -/
theorem walk_eq_of_nonpos {first : Int} (hend : CInt.ofInt (first + 4) ≤ 0)
    (ms : List ClientRef) :
    ∃ count, walk o first ms {} = fit o count (if first ≤ 1 then ms.take 1 else []) := by
  cases ms with
  | nil => exact ⟨0, by rw [List.take_nil, ite_self]; exact (if_pos (length_text_nil o)).symm⟩
  | cons c2 ms =>
      have hadd : o.addMatch first c2 {} = fit o 1 (if first ≤ 1 then [c2] else []) :=
        addMatch_eq o first c2 (n := 0) (by decide) (length_text_nil o)
      refine ⟨1, ?_⟩
      rw [walk, hadd, fit_bind_of_le o (by omega)]
      rfl

/-- A search lists the matches of its stretch, if the text of their entries fits. -/
theorem search_eq {first : Int} (hlow : -2 ^ 31 ≤ first) (hhigh : first < 2 ^ 31)
    (hpage : 4 ∣ first) (dom : Domain) :
    ∃ count, o.search f first dom = fit o count (listed (o.found f dom) dom first) := by
  rw [search_eq_walk]
  by_cases hin : 0 ≤ first ∧ first + 4 < 2 ^ 31
  · obtain ⟨a, rfl⟩ := Int.eq_ofNat_of_zero_le hin.1
    have ha : a + 4 < 2 ^ 31 := by omega
    have hend : CInt.ofInt ((a : Int) + 4) = (a + 4 : Nat) := CInt.ofInt_natCast ha
    refine ⟨(min (0 + (o.found f dom).length) (a + 4) : Nat), ?_⟩
    rw [if_pos (.inr (by rw [hend]; omega)), listed, window, if_pos hin]
    have hwalk := walk_eq o ha (o.found f dom) (n := 0) (by omega) (length_text_nil o)
    refine hwalk.trans (congrArg (fit o _) ?_)
    rw [List.nil_append, List.drop_take, Int.toNat_natCast]
    congr 1
    split_ifs <;> omega
  · have hend : CInt.ofInt (first + 4) ≤ 0 := by
      by_cases hneg : first < 0
      · rw [CInt.ofInt_eq_self (by omega) (by omega)]
        omega
      · exact Int.le_of_lt (CInt.ofInt_neg (by omega) (by omega))
    rw [listed, window, if_neg hin, List.drop_zero, if_congr (or_iff_left (by omega)) rfl rfl]
    by_cases hblock : dom = .block
    · obtain ⟨count, hwalk⟩ := walk_eq_of_nonpos o hend (o.found f dom)
      refine ⟨count, ?_⟩
      rw [if_pos hblock, hwalk]
      by_cases hneg : first < 0
      · rw [if_pos (by omega), if_pos ⟨hblock, hneg⟩]
      · rw [if_neg (by omega), if_neg (mt And.right hneg), List.take_zero]
    · refine ⟨0, ?_⟩
      rw [if_neg hblock, if_neg (mt And.left hblock), List.take_zero]
      exact (if_pos (length_text_nil o)).symm

end Stretches

/-! ## Pages -/

theorem pageFirst_bounds (page : Int) :
    -2 ^ 31 ≤ pageFirst page ∧ pageFirst page < 2 ^ 31 ∧ 4 ∣ pageFirst page := by
  have hmod : pageFirst page = ((CInt.ofInt page - 1) * 4).bmod (2 ^ 32) := CInt.ofInt_eq_bmod _
  rw [hmod, Int.bmod_def]
  omega

/-- The variable `first` is not behind the beginning of the page. -/
theorem pageFirst_le {p : Nat} (hp : 1 ≤ p) : pageFirst p ≤ (4 * (p - 1) : Nat) := by
  rw [pageFirst, CInt.ofInt_eq_bmod, CInt.ofInt_eq_bmod, Int.bmod_def, Int.bmod_def]
  omega

/-- A search for another page than the first leaves out fewer matches than are on the pages
before. -/
theorem window_lt {p : Nat} (hp : 2 ≤ p) (dom : Domain) :
    (window dom (pageFirst p)).1 < 4 * (p - 1) := by
  have hle := pageFirst_le (by omega : 1 ≤ p)
  rw [window]
  split_ifs <;> dsimp only <;> omega

theorem window_empty_iff (dom : Domain) (first : Int) (m : Nat) :
    (window dom first).2 = 0 ∨ m ≤ (window dom first).1 ↔ Past dom first m := by
  rw [window, Past]
  by_cases hin : 0 ≤ first ∧ first + 4 < 2 ^ 31
  · have hsome : ¬ (if first = 0 then 4 else 5) = 0 := by split_ifs <;> decide
    rw [if_pos hin, if_pos hin, or_iff_right hsome]
    omega
  · rw [if_neg hin, if_neg hin, ← Int.not_lt, ← not_and_or]
    by_cases hone : dom = .block ∧ first < 0
    · rw [if_pos hone, or_iff_right (by decide), or_iff_left (not_not_intro hone)]
      exact Nat.le_zero
    · rw [if_neg hone]
      exact iff_of_true (.inl rfl) (.inr hone)

/-- Two stretches of different beginnings have the same clients where there are none. -/
theorem take_drop_eq_iff {ms : List ClientRef} (hnodup : ms.Nodup) {a b n m : Nat} (hab : a < b)
    (hm : 0 < m) :
    (ms.drop a).take n = (ms.drop b).take m ↔ ms.length ≤ b ∧ (n = 0 ∨ ms.length ≤ a) := by
  constructor
  · intro heq
    have hright : n = 0 ∨ ms.length ≤ a := by
      by_contra hsome
      obtain ⟨hn, ha⟩ := not_or.mp hsome
      have hhead := congrArg (fun xs => xs[0]?) heq
      simp only [List.getElem?_take_of_lt hm, List.getElem?_take_of_lt (Nat.pos_of_ne_zero hn),
        List.getElem?_drop, Nat.add_zero] at hhead
      exact Nat.ne_of_lt hab ((List.getElem?_inj (Nat.lt_of_not_le ha) hnodup).mp hhead)
    refine ⟨?_, hright⟩
    have hnil : (ms.drop b).take m = [] := by
      rw [← heq, List.take_eq_nil_iff, List.drop_eq_nil_iff]
      exact hright
    exact List.drop_eq_nil_iff.mp ((List.take_eq_nil_iff.mp hnil).resolve_left (Nat.ne_of_gt hm))
  · rintro ⟨hb, ha⟩
    rw [List.drop_eq_nil_of_le hb, List.take_nil, List.take_eq_nil_iff, List.drop_eq_nil_iff]
    exact ha

theorem listed_eq_page_iff {ms : List ClientRef} (hnodup : ms.Nodup) (dom : Domain) {p : Nat}
    (hp : 1 ≤ p) :
    listed ms dom (pageFirst p) = page ms p ↔
      p = 1 ∨ ms.length ≤ 4 * (p - 1) ∧ Past dom (pageFirst p) ms.length := by
  obtain rfl | hlater := Nat.eq_or_lt_of_le hp
  · exact iff_of_true rfl (.inl rfl)
  · have hwindow := take_drop_eq_iff hnodup (window_lt hlater dom)
      (n := (window dom (pageFirst p)).2) (m := 4) (by decide)
    have hnot : ¬ p = 1 := Nat.ne_of_gt hlater
    rw [listed, page, hwindow, window_empty_iff, or_iff_right hnot]

/-- What a search lists depends on nothing but the matches. -/
theorem listsPage_iff_listed (o : Online) (f : Query) (dom : Domain) (p : Nat) :
    ListsPage o f dom p ↔
      listed (o.found f dom) dom (pageFirst p) = page (o.found f dom) p ∧
        (o.text (page (o.found f dom) p)).length < 512 := by
  obtain ⟨hlow, hhigh, hdvd⟩ := pageFirst_bounds p
  obtain ⟨count, hsearch⟩ := search_eq o f hlow hhigh hdvd dom
  rw [ListsPage, hsearch, fit]
  constructor
  · rintro ⟨count', hfit⟩
    split_ifs at hfit with htext
    have heq : listed (o.found f dom) dom (pageFirst p) = page (o.found f dom) p :=
      congrArg Listing.listed (Except.ok.inj hfit)
    exact ⟨heq, heq ▸ htext⟩
  · rintro ⟨heq, htext⟩
    exact ⟨count, by rw [heq, if_pos htext]⟩

/-- A page has the matches that should be on it if and only if it is the first one, or there
are no matches for it and none where the search lists them. In all cases the text of the
entries has to fit. -/
theorem listsPage_iff (o : Online) (f : Query) (dom : Domain) {p : Nat} (hp : 1 ≤ p) :
    ListsPage o f dom p ↔
      (p = 1 ∨ (o.found f dom).length ≤ 4 * (p - 1) ∧
        Past dom (pageFirst p) (o.found f dom).length) ∧
      (o.text (page (o.found f dom) p)).length < 512 := by
  rw [listsPage_iff_listed, listed_eq_page_iff (o.found_nodup f dom) dom hp]

/-- Five players in a lobby of a ship with one block. -/
def fivePlayers : Online where
  player c2 :=
    { level := 0, chClass := 0, name := "Ash", guildcard := UInt32.ofNat c2, b := 1,
      ip := "10.0.0.1", curLobby := none }
  blocks := [some [1, 2, 3, 4, 5]]
  blocks_nodup := by decide
  block := [1, 2, 3, 4, 5]
  block_nodup := by decide
  lobby := [some 1, some 2, none, some 3, some 4, some 5]
  lobby_nodup := by decide
  beyond _ := ""

/-- The arguments that are there when none are given. -/
def everyone : Query := { name := none, minlvl := 0, maxlvl := 200, chClass := -1 }

theorem listsPage_iff_fivePlayers :
    1 ≤ 2 ∧ (ListsPage fivePlayers everyone .ship 2 ↔
      (2 = 1 ∨ (fivePlayers.found everyone .ship).length ≤ 4 * (2 - 1) ∧
        Past .ship (pageFirst 2) (fivePlayers.found everyone .ship).length) ∧
      (fivePlayers.text (page (fivePlayers.found everyone .ship) 2)).length < 512) :=
  ⟨by decide, listsPage_iff fivePlayers everyone .ship (by decide)⟩

/-- Of five players the fourth, who is on the first page, is on the second again. -/
theorem not_listsPage_fivePlayers :
    ¬ ListsPage fivePlayers everyone .ship 2 ∧ ¬ ListsPage fivePlayers everyone .block 2 ∧
      ¬ ListsPage fivePlayers everyone .lobby 2 := by
  have hnone : ∀ dom, ¬ ListsPage fivePlayers everyone dom 2 := by
    intro dom hlists
    have heq := ((listsPage_iff_listed fivePlayers everyone dom 2).mp hlists).1
    revert heq
    cases dom <;> decide
  exact ⟨hnone .ship, hnone .block, hnone .lobby⟩

/-! ## Commands -/

/-- The page that is asked for in decimal digits. -/
theorem readArg_page (ps : Params) {p : Nat} (hp : p < 2 ^ 63) :
    readArg ps "p" (some (toString (p : Int))) = .ok { ps with first := pageFirst p } := by
  rw [readArg, if_pos rfl, number, CString.strtol_toString (by omega) (by omega)]
  rfl

/-- The message for a page that lists what should be on it. -/
theorem pllist_of_listsPage {o : Online} {regcomp : String → Option (String → Bool)}
    {name : Option String} {f : Query} {dom : Domain} {p : Nat}
    (hname : name.map regcomp = f.name.map some) (h : ListsPage o f dom p) :
    pllist o regcomp dom name (pageFirst p) f.minlvl f.maxlvl f.chClass =
      .ok (.messageBox
        (if (o.text (page (o.found f dom) p)).length = 2 then "\tENo matches found."
        else o.text (page (o.found f dom) p))) := by
  obtain ⟨count, hsearch⟩ := h
  obtain ⟨re, minlvl, maxlvl, chClass⟩ := f
  cases name with
  | none =>
      obtain rfl : re = none := Option.map_eq_none_iff.mp hname.symm
      simp only [pllist, hsearch]
      rfl
  | some name =>
      obtain ⟨re, rfl, hre⟩ := Option.map_eq_some_iff.mp hname.symm
      simp only [pllist, ← hre, hsearch]
      rfl

end Sylverant.Ship.PlayerList
