/-
# Sorting an inventory

A Blue Burst client names its items in the order that it wants them in. The server copies
them one by one into an inventory of its own, marks the places that it copied from, and
takes the copy over if as many items were copied as the client has.

The copy is a local variable, so that the places behind its last item hold what was on the
stack before.
-/

import Mathlib.Data.List.Nodup
import Mathlib.Data.List.Perm.Subperm
import Sylverant.Ship.BbGame

namespace Sylverant.Ship.Bb

/-- `sylverant_inventory_t`, with all its places. Those from `item_count` on hold nothing
that counts. -/
structure Inventory where
  itemCount : UInt8
  hpmatsUsed : UInt8
  tpmatsUsed : UInt8
  language : UInt8
  items : Vector Item 30
  count_le : itemCount.toNat ≤ 30

/-- The items of an inventory. -/
def Inventory.held (inv : Inventory) : List Item := inv.items.toList.take inv.itemCount.toNat

/-- The two inventories that are kept for a client. -/
structure Carried where
  /-- `bb_pl->inv` -/
  inv : Inventory
  /-- `pl->bb.inv` -/
  plInv : Inventory

/-- `subcmd_bb_sort_inv_t` -/
structure SortInvPkt extends Header where
  itemIds : Vector UInt32 30

/-- The loop of `handle_bb_sort_inv` over the ids, which are those from place `i` on. It
returns where it stopped and what it copied, unless the request is rejected. -/
def sortItems (held : List Item) :
    List UInt32 → Nat → Vector Bool 30 → Vector Item 30 → Option (Nat × Vector Item 30)
  | [], i, _, items => some (i, items)
  | id :: ids, i, used, items =>
      if id = 0xFFFFFFFF then some (i, items)
      else
        match findItem held id with
        | none => none
        | some j =>
            if used[j]? = some true then none
            else sortItems held ids (i + 1) (used.setIfInBounds j true)
              (items.setIfInBounds i (held.getD j default))

/-- `handle_bb_sort_inv`, in a lobby of some type. The items of the local inventory are
`stack` before any is copied. -/
def handleBbSortInv (stack : Vector Item 30) (type : LobbyType) (c : Carried)
    (pkt : SortInvPkt) : Carried × Int :=
  if type = .default then (c, -1)
  else if pkt.pktLen ≠ 0x84 ∨ pkt.size ≠ 0x1F then (c, -1)
  else
    match sortItems c.inv.held pkt.itemIds.toList 0 (Vector.replicate 30 false) stack with
    | none => (c, -1)
    | some (i, items) =>
        if i ≠ c.inv.itemCount.toNat then (c, -1)
        else
          let inv := { c.inv with items }
          ({ inv := inv, plInv := inv }, 0)

/-! ## The loop -/

/-- The first items of `items` are copies of those in the places `places`, each of which is
copied once and is marked. -/
structure CopiedFrom (held : List Item) (places : List Nat) (used : Vector Bool 30)
    (items : Vector Item 30) : Prop where
  nodup : places.Nodup
  inside : ∀ j ∈ places, j < held.length
  marked : ∀ j ∈ places, used[j]? = some true
  copied : items.toList.take places.length = places.map (held.getD · default)

theorem length_held (inv : Inventory) : inv.held.length = inv.itemCount.toNat := by
  rw [Inventory.held, List.length_take, Vector.length_toList]
  exact Nat.min_eq_left inv.count_le

/-- What a search finds is an item with the id. -/
theorem findItem_some {held : List Item} {id : UInt32} {j : Nat} (h : findItem held id = some j) :
    j < held.length ∧ (held.getD j default).itemId = id := by
  obtain ⟨inside, here, -⟩ := List.findIdx?_eq_some_iff_getElem.mp h
  refine ⟨inside, ?_⟩
  rw [List.getD_eq_getElem?_getD, List.getElem?_eq_getElem inside]
  exact of_decide_eq_true here

theorem take_setIfInBounds {items : Vector Item 30} {i : Nat} (it : Item) (hi : i < 30) :
    (items.setIfInBounds i it).toList.take (i + 1) = items.toList.take i ++ [it] := by
  have hlen : i < items.toList.length := by rw [Vector.length_toList]; exact hi
  have hfront : (items.toList.take i).length = i := by
    rw [List.length_take]
    exact Nat.min_eq_left (Nat.le_of_lt hlen)
  rw [Vector.toList_setIfInBounds, List.set_eq_take_append_cons_drop, if_pos hlen,
    List.take_append, hfront, Nat.add_sub_cancel_left, List.take_of_length_le (by omega)]
  rfl

/-- Setting a mark leaves the others set. -/
theorem getElem?_mark {used : Vector Bool 30} {i j : Nat} (hi : i < 30)
    (h : used[i]? = some true ∨ i = j) : (used.setIfInBounds j true)[i]? = some true := by
  rw [Vector.getElem?_setIfInBounds]
  by_cases hij : j = i
  · rw [if_pos hij, if_pos (hij ▸ hi)]
  · rw [if_neg hij]
    exact h.resolve_right fun heq => hij heq.symm

/-- One more item is copied. -/
theorem CopiedFrom.copy {held : List Item} {places : List Nat} {used : Vector Bool 30}
    {items : Vector Item 30} (h : CopiedFrom held places used items) (hheld : held.length ≤ 30)
    (hroom : places.length < 30) {j : Nat} (hj : j < held.length)
    (hnew : used[j]? ≠ some true) :
    CopiedFrom held (places ++ [j]) (used.setIfInBounds j true)
      (items.setIfInBounds places.length (held.getD j default)) where
  nodup := by
    refine List.nodup_append.mpr ⟨h.nodup, List.nodup_singleton j, ?_⟩
    intro i hi i' hi' heq
    obtain rfl := List.mem_singleton.mp hi'
    exact hnew (heq ▸ h.marked i hi)
  inside := by
    intro i hi
    rcases List.mem_append.mp hi with hi | hi
    · exact h.inside i hi
    · exact List.mem_singleton.mp hi ▸ hj
  marked := by
    intro i hi
    rcases List.mem_append.mp hi with hi | hi
    · exact getElem?_mark (Nat.lt_of_lt_of_le (h.inside i hi) hheld) (.inl (h.marked i hi))
    · obtain rfl := List.mem_singleton.mp hi
      exact getElem?_mark (Nat.lt_of_lt_of_le hj hheld) (.inr rfl)
  copied := by
    rw [List.length_append, List.length_singleton, take_setIfInBounds _ hroom, h.copied,
      List.map_append]
    rfl

/-- What the loop leaves if the request is not rejected: it stops at the end of the list
or of the array, and has copied the items with the ids up to there. -/
theorem sortItems_some {held : List Item} (hheld : held.length ≤ 30) {ids : List UInt32}
    {places : List Nat} {used : Vector Bool 30} {items out : Vector Item 30} {k : Nat}
    (hcopied : CopiedFrom held places used items) (hroom : places.length + ids.length = 30)
    (h : sortItems held ids places.length used items = some (k, out)) :
    ∃ more used', places.length + more.length = k ∧ CopiedFrom held (places ++ more) used' out ∧
      (∀ j ∈ more, findItem held (held.getD j default).itemId = some j) ∧
      more.map (fun j => (held.getD j default).itemId) = ids.takeWhile (· ≠ 0xFFFFFFFF) := by
  induction ids generalizing places used items with
  | nil =>
      rw [sortItems] at h
      obtain ⟨rfl, rfl⟩ := Prod.mk.inj (Option.some.inj h)
      exact ⟨[], used, rfl, by rw [List.append_nil]; exact hcopied, nofun, rfl⟩
  | cons id ids ih =>
      rw [sortItems] at h
      by_cases hend : id = 0xFFFFFFFF
      · rw [if_pos hend] at h
        obtain ⟨rfl, rfl⟩ := Prod.mk.inj (Option.some.inj h)
        exact ⟨[], used, rfl, by rw [List.append_nil]; exact hcopied, nofun, by simp [hend]⟩
      rw [if_neg hend] at h
      cases hfound : findItem held id with
      | none =>
          rw [hfound] at h
          exact nomatch h
      | some j =>
          simp only [hfound] at h
          by_cases hused : used[j]? = some true
          · rw [if_pos hused] at h
            exact nomatch h
          rw [if_neg hused] at h
          obtain ⟨hj, hid⟩ := findItem_some hfound
          have hnext := hcopied.copy hheld (by simp at hroom; omega) hj hused
          have hlength : (places ++ [j]).length = places.length + 1 := List.length_append
          obtain ⟨more, used', hmore, hall, hfirst, hids⟩ :=
            ih hnext (by rw [hlength]; simp at hroom; omega) (by rw [hlength]; exact h)
          refine ⟨j :: more, used', ?_, ?_, ?_, ?_⟩
          · rw [List.length_cons, ← hmore, hlength]
            omega
          · rw [List.append_cons]
            exact hall
          · intro j' hj'
            rcases List.mem_cons.mp hj' with rfl | hj'
            · rw [hid]
              exact hfound
            · exact hfirst j' hj'
          · rw [List.map_cons, hids, hid, List.takeWhile_cons, if_pos (by simpa using hend)]

/-- Places that are all different and as many as there are items are a permutation. -/
theorem CopiedFrom.perm {held : List Item} {places : List Nat} {used : Vector Bool 30}
    {items : Vector Item 30} (h : CopiedFrom held places used items)
    (hall : places.length = held.length) :
    (items.toList.take held.length).Perm held := by
  have hsub : places ⊆ List.range held.length := fun j hj => List.mem_range.mpr (h.inside j hj)
  have hlength : (List.range held.length).length ≤ places.length :=
    Nat.le_of_eq (List.length_range.trans hall.symm)
  have hperm : places.Perm (List.range held.length) :=
    (List.subperm_of_subset h.nodup hsub).perm_of_length_le hlength
  have hheld : (List.range held.length).map (held.getD · default) = held := by
    refine List.ext_getElem (by simp) fun i hi hi' => ?_
    rw [List.getElem_map, List.getElem_range, List.getD_eq_getElem?_getD,
      List.getElem?_eq_getElem hi']
    rfl
  calc items.toList.take held.length
      = places.map (held.getD · default) := by rw [← hall, h.copied]
    _ |>.Perm ((List.range held.length).map (held.getD · default)) := hperm.map _
    _ = held := hheld

/-- The ids that are asked for, which end at the first one that is not used. -/
def SortInvPkt.asked (pkt : SortInvPkt) : List UInt32 :=
  pkt.itemIds.toList.takeWhile (· ≠ 0xFFFFFFFF)

/-- The loop gets through a list of ids that are there, as long as no id comes twice. -/
theorem sortItems_isSome {held : List Item} {ids : List UInt32} {i : Nat} {used : Vector Bool 30}
    {items : Vector Item 30} (hnodup : (ids.takeWhile (· ≠ 0xFFFFFFFF)).Nodup)
    (hthere : ∀ id ∈ ids.takeWhile (· ≠ 0xFFFFFFFF), id ∈ held.map (·.itemId))
    (hfree : ∀ j, used[j]? = some true →
      (held.getD j default).itemId ∉ ids.takeWhile (· ≠ 0xFFFFFFFF)) :
    (sortItems held ids i used items).isSome := by
  induction ids generalizing i used items with
  | nil => rfl
  | cons id ids ih =>
      rw [sortItems]
      by_cases hend : id = 0xFFFFFFFF
      · rw [if_pos hend]
        rfl
      rw [if_neg hend]
      rw [List.takeWhile_cons, if_pos (by simpa using hend)] at hnodup hthere hfree
      obtain ⟨hid, hnodup⟩ := List.nodup_cons.mp hnodup
      cases hfound : findItem held id with
      | none =>
          obtain ⟨it, hit, heq⟩ := List.mem_map.mp (hthere id List.mem_cons_self)
          exact absurd heq (by simpa using List.findIdx?_eq_none_iff.mp hfound it hit)
      | some j =>
          obtain ⟨-, hj⟩ := findItem_some hfound
          simp only
          rw [if_neg fun hused => hfree j hused (hj ▸ List.mem_cons_self)]
          refine ih hnodup (fun id' h => hthere id' (List.mem_cons_of_mem _ h)) ?_
          intro j' hused hmem
          rw [Vector.getElem?_setIfInBounds] at hused
          by_cases hsame : j = j'
          · exact hid (by rw [← hj, hsame]; exact hmem)
          · rw [if_neg hsame] at hused
            exact hfree j' hused (List.mem_cons_of_mem _ hmem)

/-! ## The handler -/

/-- The first inventory was sorted as it was asked for. -/
structure Sorted (c c' : Carried) (pkt : SortInvPkt) : Prop where
  perm : c'.inv.held.Perm c.inv.held
  order : c'.inv.held.map (·.itemId) = pkt.asked
  itemCount : c'.inv.itemCount = c.inv.itemCount
  hpmatsUsed : c'.inv.hpmatsUsed = c.inv.hpmatsUsed
  tpmatsUsed : c'.inv.tpmatsUsed = c.inv.tpmatsUsed
  language : c'.inv.language = c.inv.language
  both : c'.plInv = c'.inv

theorem copiedFrom_nil (held : List Item) (stack : Vector Item 30) :
    CopiedFrom held [] (Vector.replicate 30 false) stack :=
  ⟨List.nodup_nil, nofun, nofun, rfl⟩

/-- What the loop copies when it is not rejected, and copied as many items as there are. -/
theorem sorted_of_sortItems {c : Carried} {pkt : SortInvPkt} {stack out : Vector Item 30}
    (h : sortItems c.inv.held pkt.itemIds.toList 0 (Vector.replicate 30 false) stack =
      some (c.inv.itemCount.toNat, out)) :
    Sorted c ⟨{ c.inv with items := out }, { c.inv with items := out }⟩ pkt := by
  have hheld : c.inv.held.length ≤ 30 := by rw [length_held]; exact c.inv.count_le
  obtain ⟨more, used', hlength, hall, -, hids⟩ :=
    sortItems_some hheld (copiedFrom_nil _ stack) (by rw [Vector.length_toList]; rfl) h
  have hmany : more.length = c.inv.held.length := by
    rw [length_held, ← hlength, List.length_nil, Nat.zero_add]
  refine ⟨?_, ?_, rfl, rfl, rfl, rfl, rfl⟩
  · have hperm := hall.perm hmany
    rw [length_held] at hperm
    exact hperm
  · have hcopied := hall.copied
    rw [List.nil_append, hmany, length_held] at hcopied
    rw [SortInvPkt.asked, ← hids, Inventory.held, hcopied, List.map_map]
    rfl

/-- A request to sort an inventory is rejected, or the inventory holds the same items
afterwards, in the order that was asked for. -/
theorem handleBbSortInv_sorts (stack : Vector Item 30) (type : LobbyType) (c : Carried)
    (pkt : SortInvPkt) :
    let r := handleBbSortInv stack type c pkt
    r.2 = -1 ∧ r.1 = c ∨ r.2 = 0 ∧ Sorted c r.1 pkt := by
  unfold handleBbSortInv
  by_cases htype : type = .default
  · rw [if_pos htype]
    exact .inl ⟨rfl, rfl⟩
  rw [if_neg htype]
  by_cases hlen : pkt.pktLen ≠ 0x84 ∨ pkt.size ≠ 0x1F
  · rw [if_pos hlen]
    exact .inl ⟨rfl, rfl⟩
  rw [if_neg hlen]
  cases hloop : sortItems c.inv.held pkt.itemIds.toList 0 (Vector.replicate 30 false) stack with
  | none => exact .inl ⟨rfl, rfl⟩
  | some r =>
      obtain ⟨i, out⟩ := r
      simp only
      by_cases hcount : i ≠ c.inv.itemCount.toNat
      · rw [if_pos hcount]
        exact .inl ⟨rfl, rfl⟩
      · rw [if_neg hcount]
        obtain rfl := not_not.mp hcount
        exact .inr ⟨rfl, sorted_of_sortItems hloop⟩

/-- No id is asked for twice if the loop gets through the list, and it gets as far as there
are ids. -/
theorem asked_of_sortItems {inv : Inventory} {pkt : SortInvPkt} {stack out : Vector Item 30}
    {i : Nat} (h : sortItems inv.held pkt.itemIds.toList 0 (Vector.replicate 30 false) stack =
      some (i, out)) : pkt.asked.Nodup ∧ pkt.asked.length = i := by
  have hheld : inv.held.length ≤ 30 := by rw [length_held]; exact inv.count_le
  obtain ⟨more, used', hlength, hall, hfirst, hids⟩ :=
    sortItems_some hheld (copiedFrom_nil _ stack) (by rw [Vector.length_toList]; rfl) h
  constructor
  · rw [SortInvPkt.asked, ← hids]
    refine hall.nodup.map_on fun j hj j' hj' heq => ?_
    have hsame := hfirst j hj
    rw [heq, hfirst j' hj'] at hsame
    exact (Option.some.inj hsame).symm
  · rw [SortInvPkt.asked, ← hids, List.length_map, ← hlength, List.length_nil, Nat.zero_add]

/-- A request is granted if it names each item once, by an id that no other item has. -/
theorem handleBbSortInv_eq_zero_iff (stack : Vector Item 30) (type : LobbyType) (c : Carried)
    (pkt : SortInvPkt) :
    (handleBbSortInv stack type c pkt).2 = 0 ↔
      type ≠ .default ∧ pkt.pktLen = 0x84 ∧ pkt.size = 0x1F ∧
        pkt.asked.Nodup ∧ pkt.asked.Perm (c.inv.held.map (·.itemId)) := by
  constructor
  · intro h
    have hsorts := handleBbSortInv_sorts stack type c pkt
    unfold handleBbSortInv at h hsorts
    by_cases htype : type = .default
    · rw [if_pos htype] at h
      exact nomatch h
    rw [if_neg htype] at h hsorts
    by_cases hlen : pkt.pktLen ≠ 0x84 ∨ pkt.size ≠ 0x1F
    · rw [if_pos hlen] at h
      exact nomatch h
    rw [if_neg hlen] at h hsorts
    obtain ⟨hpktLen, hsize⟩ := not_or.mp hlen
    refine ⟨htype, not_not.mp hpktLen, not_not.mp hsize, ?_⟩
    rcases hsorts with ⟨hneg, -⟩ | ⟨-, hsorted⟩
    · rw [h] at hneg
      exact nomatch hneg
    cases hloop : sortItems c.inv.held pkt.itemIds.toList 0 (Vector.replicate 30 false) stack with
    | none =>
        simp only [hloop] at h
        exact nomatch h
    | some r => exact ⟨(asked_of_sortItems hloop).1, hsorted.order ▸ hsorted.perm.map _⟩
  · rintro ⟨htype, hlen, hsize, hnodup, hperm⟩
    have hsome : (sortItems c.inv.held pkt.itemIds.toList 0 (Vector.replicate 30 false)
        stack).isSome := by
      refine sortItems_isSome hnodup (fun id h => hperm.mem_iff.mp h) fun j hj => ?_
      rw [Vector.getElem?_replicate] at hj
      by_cases hin : j < 30
      · rw [if_pos hin] at hj
        exact nomatch hj
      · rw [if_neg hin] at hj
        exact nomatch hj
    obtain ⟨⟨i, out⟩, hloop⟩ := Option.isSome_iff_exists.mp hsome
    have hcount : i = c.inv.itemCount.toNat := by
      rw [← (asked_of_sortItems hloop).2, hperm.length_eq, List.length_map, length_held]
    unfold handleBbSortInv
    rw [if_neg htype, if_neg (by simp [hlen, hsize]), hloop]
    simp only
    rw [if_neg (not_not.mpr hcount)]

end Sylverant.Ship.Bb
