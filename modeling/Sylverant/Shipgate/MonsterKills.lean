/-
# Monster kills

A ship reports how often a client has killed each enemy. While an event runs, the shipgate adds
the counts to the totals in its database: those of the enemies that the event lists, or all if it
lists none. The enemies in the list come from a table, and one of them may lie behind the counts.
-/

import Mathlib.Data.List.Nodup
import Mathlib.Data.Nat.Bitwise
import Sylverant.Ship.Kills

namespace Sylverant.Shipgate.MonsterKills

open Function (update)
open Sylverant.Ship.Kills (Mkill)

/-! ## Events -/

/-- `event_monster_t` -/
structure EventMonster where
  monster : Nat
  episode : Nat
  deriving DecidableEq

/-- `monster_event_t` -/
structure MonsterEvent where
  eventId : Nat
  startTime : Nat
  endTime : Nat
  difficulties : Nat
  versions : Nat
  allowQuests : Bool
  monsters : List EventMonster

/-- `find_current_event` -/
def findCurrentEvent (events : List MonsterEvent) (now difficulty ver : Nat) :
    Option MonsterEvent :=
  if ver &&& 0xC0 ≠ 0 then none
  else
    events.find? fun ev =>
      ev.startTime ≤ now ∧ now ≤ ev.endTime ∧ ev.versions.testBit (ver &&& 0x07) ∧
        ev.difficulties.testBit difficulty ∧ (ev.allowQuests ∨ ver &&& 0x20 = 0)

/-! ## The database -/

/-- The key of a row of `monster_kills`. -/
structure Key where
  eventId : Nat
  accountId : Nat
  guildcard : Nat
  episode : Nat
  difficulty : Nat
  enemy : Nat
  deriving DecidableEq

/-- The column `count`, with zero for a row that is not there. -/
abbrev Totals := Key → Nat

/-- What the query for the account of a guildcard gives. -/
inductive Lookup
  /-- The query fails. -/
  | failed
  /-- There is no row. -/
  | absent
  /-- The column is `NULL`. -/
  | unlinked
  | account (accountId : Nat)

/-- What a packet finds when it comes. -/
structure Gate where
  now : Nat
  events : List MonsterEvent
  lookup : Nat → Lookup
  /-- Whether the database takes a statement for the row. -/
  takes : Key → Bool

/-- The shipgate is done with the packet, or sends an error. -/
inductive Reply
  | done
  | error
  deriving DecidableEq

/-! ## The packet -/

/-- The row for an enemy. -/
def keyOf (ev : MonsterEvent) (acc : Nat) (pkt : Mkill) (enemy : Nat) : Key where
  eventId := ev.eventId
  accountId := acc
  guildcard := pkt.heading.guildcard
  episode := pkt.heading.episode
  difficulty := pkt.heading.difficulty
  enemy := enemy

/-- The statement with `ON DUPLICATE KEY UPDATE`. -/
def addTo (t : Totals) (k : Key) (ct : Nat) : Totals := update t k (t k + ct)

/-- The loop over the enemies in the list. There is no result if it reads behind the counts. -/
def addListed (gate : Gate) (pkt : Mkill) (key : Nat → Key) :
    List EventMonster → Totals → Option (Totals × Reply)
  | [], t => some (t, .done)
  | m :: ms, t =>
      if 0x60 < m.monster then addListed gate pkt key ms t
      else
        match Bounded.load pkt.counts m.monster with
        | none => none
        | some ct =>
            if ct = 0 ∨ pkt.heading.episode ≠ m.episode then addListed gate pkt key ms t
            else if gate.takes (key m.monster) then
              addListed gate pkt key ms (addTo t (key m.monster) ct)
            else some (t, .error)

/-- The loop over all enemies. -/
def addEach (gate : Gate) (pkt : Mkill) (key : Nat → Key) :
    List Nat → Totals → Option (Totals × Reply)
  | [], t => some (t, .done)
  | i :: is, t =>
      match Bounded.load pkt.counts i with
      | none => none
      | some ct =>
          if ct = 0 then addEach gate pkt key is t
          else if gate.takes (key i) then addEach gate pkt key is (addTo t (key i) ct)
          else some (t, .error)

/-- `handle_mkill` -/
def handleMkill (gate : Gate) (pkt : Mkill) (t : Totals) : Option (Totals × Reply) :=
  if pkt.hdrVersion < 1 then some (t, .done)
  else
    match findCurrentEvent gate.events gate.now pkt.heading.difficulty pkt.heading.version with
    | none => some (t, .done)
    | some ev =>
        match gate.lookup pkt.heading.guildcard with
        | .failed => some (t, .error)
        | .absent => some (t, .error)
        | .unlinked => some (t, .done)
        | .account acc =>
            if ev.monsters ≠ [] then addListed gate pkt (keyOf ev acc pkt) ev.monsters t
            else addEach gate pkt (keyOf ev acc pkt) (List.range 0x60) t

/-! ## What should be added -/

/-- The event that the packet counts for, and the account. -/
def credited (gate : Gate) (pkt : Mkill) : Option (MonsterEvent × Nat) :=
  if pkt.hdrVersion < 1 then none
  else
    match findCurrentEvent gate.events gate.now pkt.heading.difficulty pkt.heading.version with
    | none => none
    | some ev =>
        match gate.lookup pkt.heading.guildcard with
        | .account acc => some (ev, acc)
        | _ => none

/-- The event records the enemy in the episode. -/
def MonsterEvent.Records (ev : MonsterEvent) (episode enemy : Nat) : Prop :=
  enemy < 0x60 ∧ (ev.monsters = [] ∨ (⟨enemy, episode⟩ : EventMonster) ∈ ev.monsters)

instance (ev : MonsterEvent) (episode enemy : Nat) : Decidable (ev.Records episode enemy) :=
  inferInstanceAs (Decidable (_ ∧ _))

/-- The count of an enemy in a packet. -/
def countOf (pkt : Mkill) (enemy : Nat) : Nat := (Bounded.load pkt.counts enemy).getD 0

/-- What a packet should add to a row. -/
def due (gate : Gate) (pkt : Mkill) (k : Key) : Nat :=
  match credited gate pkt with
  | none => 0
  | some (ev, acc) =>
      if k = keyOf ev acc pkt k.enemy ∧ ev.Records pkt.heading.episode k.enemy then
        countOf pkt k.enemy
      else 0

/-- The packet adds what it should to every row, and is read only inside. -/
def Credits (gate : Gate) (pkt : Mkill) : Prop :=
  ∀ t, ∃ t' reply, handleMkill gate pkt t = some (t', reply) ∧ ∀ k, t' k = t k + due gate pkt k

/-- The list of the event does not have the enemy behind the counts, it has each enemy that the
packet counts once, and the database takes the statements for these. -/
def Listed (gate : Gate) (pkt : Mkill) : Prop :=
  ∀ ev acc, credited gate pkt = some (ev, acc) →
    (∀ m ∈ ev.monsters, m.monster ≠ 0x60) ∧
    ∀ enemy, ev.Records pkt.heading.episode enemy → countOf pkt enemy ≠ 0 →
      ev.monsters.count ⟨enemy, pkt.heading.episode⟩ ≤ 1 ∧ gate.takes (keyOf ev acc pkt enemy)

section Credits

variable {gate : Gate} {pkt : Mkill} {ev : MonsterEvent} {acc : Nat} {ms : List EventMonster}
  {t t' : Totals} {reply : Reply} {enemy : Nat}

theorem load_of_lt (h : enemy < 0x60) :
    Bounded.load pkt.counts enemy = some (countOf pkt enemy) := by
  obtain ⟨n, rest, hdrop⟩ := Bounded.drop_of_lt (b := pkt.counts) h
  rw [countOf, Bounded.load_cons hdrop]
  rfl

theorem load_behind : Bounded.load pkt.counts 0x60 = none :=
  Bounded.load_outside (Nat.le_refl _)

/-- The loop over all enemies is the loop over a list of all of them. -/
theorem addEach_eq {key : Nat → Key} {is : List Nat} (hsmall : ∀ i ∈ is, i < 0x60) :
    addEach gate pkt key is t =
      addListed gate pkt key (is.map fun i => ⟨i, pkt.heading.episode⟩) t := by
  induction is generalizing t with
  | nil => rfl
  | cons i is ih =>
      have hi := hsmall i List.mem_cons_self
      have hrest := fun t => ih (t := t) fun j hj => hsmall j (List.mem_cons_of_mem i hj)
      have hle : ¬0x60 < i := by omega
      rw [List.map_cons, addEach, addListed, load_of_lt hi]
      simp only [hrest, ne_eq, not_true_eq_false, or_false, if_neg hle]

/-- The enemies that are gone through for an event. -/
def entries (ev : MonsterEvent) (episode : Nat) : List EventMonster :=
  if ev.monsters ≠ [] then ev.monsters else (List.range 0x60).map fun i => ⟨i, episode⟩

theorem handleMkill_eq (h : credited gate pkt = some (ev, acc)) :
    handleMkill gate pkt t =
      addListed gate pkt (keyOf ev acc pkt) (entries ev pkt.heading.episode) t := by
  simp only [credited] at h
  split_ifs at h with hversion
  rw [handleMkill, if_neg hversion]
  cases hevent : findCurrentEvent gate.events gate.now pkt.heading.difficulty
      pkt.heading.version with
  | none => simp only [hevent, reduceCtorEq] at h
  | some ev' =>
      simp only [hevent] at h ⊢
      cases hlookup : gate.lookup pkt.heading.guildcard with
      | failed => simp only [hlookup, reduceCtorEq] at h
      | absent => simp only [hlookup, reduceCtorEq] at h
      | unlinked => simp only [hlookup, reduceCtorEq] at h
      | account acc' =>
          simp only [hlookup] at h ⊢
          cases h
          rw [entries]
          split_ifs
          · rfl
          · exact addEach_eq fun i hi => List.mem_range.mp hi

/-- A packet that counts for nothing changes nothing. -/
theorem handleMkill_none (h : credited gate pkt = none) :
    ∃ reply, handleMkill gate pkt t = some (t, reply) := by
  rw [handleMkill]
  simp only [credited] at h
  split_ifs at h ⊢
  · exact ⟨_, rfl⟩
  cases hevent : findCurrentEvent gate.events gate.now pkt.heading.difficulty
      pkt.heading.version with
  | none => exact ⟨_, rfl⟩
  | some ev' =>
      simp only [hevent] at h
      cases hlookup : gate.lookup pkt.heading.guildcard with
      | failed => exact ⟨_, rfl⟩
      | absent => exact ⟨_, rfl⟩
      | unlinked => exact ⟨_, rfl⟩
      | account acc' => simp only [hlookup, reduceCtorEq] at h

/-- What the entries add to a row when they are all gone through. -/
def added (pkt : Mkill) (key : Nat → Key) (ms : List EventMonster) (k : Key) : Nat :=
  if k = key k.enemy ∧ k.enemy < 0x60 then
    ms.count ⟨k.enemy, pkt.heading.episode⟩ * countOf pkt k.enemy
  else 0

/-- An entry that the loop passes over. -/
theorem added_skip {key : Nat → Key} {m : EventMonster}
    (h : 0x60 < m.monster ∨ countOf pkt m.monster = 0 ∨ pkt.heading.episode ≠ m.episode)
    (k : Key) : added pkt key (m :: ms) k = added pkt key ms k := by
  rw [added, added]
  split_ifs with hk
  · rw [List.count_cons]
    split_ifs with hm
    · obtain rfl : m = ⟨k.enemy, pkt.heading.episode⟩ := by simpa using hm
      obtain hlarge | hzero | hother := h
      · exact absurd hk.2 (by simp only at hlarge; omega)
      · rw [show countOf pkt k.enemy = 0 from hzero, Nat.mul_zero, Nat.mul_zero]
      · exact absurd rfl hother
    · rw [Nat.add_zero]
  · rfl

/-- An entry that is counted. -/
theorem added_take {key : Nat → Key} (hkey : ∀ i, (key i).enemy = i) {m : EventMonster}
    (hsmall : m.monster < 0x60) (hepisode : pkt.heading.episode = m.episode) (k : Key) :
    t k + added pkt key (m :: ms) k =
      addTo t (key m.monster) (countOf pkt m.monster) k + added pkt key ms k := by
  rw [addTo]
  by_cases hk : k = key m.monster
  · have henemy : k.enemy = m.monster := hk ▸ hkey m.monster
    have hsame : (⟨k.enemy, pkt.heading.episode⟩ : EventMonster) = m := by
      rw [henemy, hepisode]
    rw [added, added, hsame, henemy, if_pos ⟨hk, hsmall⟩, if_pos ⟨hk, hsmall⟩,
      List.count_cons_self, hk, Function.update_self, Nat.succ_mul]
    omega
  · rw [Function.update_of_ne hk, added, added]
    split_ifs with hrow
    · have hne : m ≠ ⟨k.enemy, pkt.heading.episode⟩ := by
        rintro rfl
        exact hk hrow.1
      rw [List.count_cons_of_ne hne]
    · rfl

/-- Entries that are counted, and the statements for them taken. -/
def Taken (gate : Gate) (pkt : Mkill) (key : Nat → Key) (ms : List EventMonster) : Prop :=
  ∀ m ∈ ms, m.monster < 0x60 → pkt.heading.episode = m.episode → countOf pkt m.monster ≠ 0 →
    gate.takes (key m.monster)

/-- The loop when the database takes all: it adds what the entries say, unless it comes to the
enemy behind the counts. -/
theorem addListed_taken {key : Nat → Key} (hkey : ∀ i, (key i).enemy = i)
    (htaken : Taken gate pkt key ms) (t : Totals) :
    ((∃ m ∈ ms, m.monster = 0x60) ∧ addListed gate pkt key ms t = none) ∨
      (∀ m ∈ ms, m.monster ≠ 0x60) ∧ ∃ t', addListed gate pkt key ms t = some (t', .done) ∧
        ∀ k, t' k = t k + added pkt key ms k := by
  induction ms generalizing t with
  | nil =>
      refine .inr ⟨fun m hm => absurd hm List.not_mem_nil, t, rfl, fun k => ?_⟩
      rw [added, List.count_nil, Nat.zero_mul, ite_self, Nat.add_zero]
  | cons m ms ih =>
      have hnext := fun t => ih (fun n hn => htaken n (List.mem_cons_of_mem m hn)) t
      -- what is left of the list decides, once its head is not the enemy behind the counts
      have hrest {t₁ : Totals} (hne : m.monster ≠ 0x60)
          (hstep : addListed gate pkt key (m :: ms) t = addListed gate pkt key ms t₁)
          (hadd : ∀ k, t k + added pkt key (m :: ms) k = t₁ k + added pkt key ms k) :
          ((∃ n ∈ m :: ms, n.monster = 0x60) ∧ addListed gate pkt key (m :: ms) t = none) ∨
            (∀ n ∈ m :: ms, n.monster ≠ 0x60) ∧
              ∃ t', addListed gate pkt key (m :: ms) t = some (t', .done) ∧
                ∀ k, t' k = t k + added pkt key (m :: ms) k := by
        rw [hstep]
        obtain ⟨⟨n, hn, hbehind⟩, hnone⟩ | ⟨hall, t', hdone, ht'⟩ := hnext t₁
        · exact .inl ⟨⟨n, List.mem_cons_of_mem m hn, hbehind⟩, hnone⟩
        · refine .inr ⟨fun n hn => ?_, t', hdone, fun k => (ht' k).trans (hadd k).symm⟩
          rcases List.mem_cons.mp hn with rfl | hn
          · exact hne
          · exact hall n hn
      by_cases hlarge : 0x60 < m.monster
      · exact hrest (by omega) (by rw [addListed, if_pos hlarge])
          fun k => by rw [added_skip (.inl hlarge)]
      by_cases hbehind : m.monster = 0x60
      · refine .inl ⟨⟨m, List.mem_cons_self, hbehind⟩, ?_⟩
        rw [addListed, if_neg hlarge, hbehind, load_behind]
      have hsmall : m.monster < 0x60 := by omega
      by_cases hskip : countOf pkt m.monster = 0 ∨ pkt.heading.episode ≠ m.episode
      · refine hrest hbehind ?_ fun k => by rw [added_skip (.inr hskip)]
        rw [addListed, if_neg hlarge, load_of_lt hsmall]
        exact if_pos hskip
      · rw [not_or, not_not] at hskip
        have htake := htaken m List.mem_cons_self hsmall hskip.2 hskip.1
        refine hrest hbehind ?_ fun k => added_take hkey hsmall hskip.2 k
        rw [addListed, if_neg hlarge, load_of_lt hsmall]
        simp only
        rw [if_neg (by rw [not_or, not_not]; exact hskip), if_pos htake]

/-- A row whose statements are not taken stays as it is. -/
theorem addListed_refused {key : Nat → Key} {k : Key} (hrefused : gate.takes k = false)
    (h : addListed gate pkt key ms t = some (t', reply)) : t' k = t k := by
  induction ms generalizing t with
  | nil =>
      cases h
      rfl
  | cons m ms ih =>
      rw [addListed] at h
      by_cases hlarge : 0x60 < m.monster
      · rw [if_pos hlarge] at h
        exact ih h
      · rw [if_neg hlarge] at h
        cases hload : Bounded.load pkt.counts m.monster with
        | none =>
            rw [hload] at h
            exact nomatch h
        | some ct =>
            simp only [hload] at h
            split_ifs at h with hskip htake
            · exact ih h
            · have hne : k ≠ key m.monster := by
                rintro rfl
                rw [hrefused] at htake
                cases htake
              rw [ih h, addTo, Function.update_of_ne hne]
            · cases h
              rfl

/-! ## Events with any list -/

theorem mem_entries (ev : MonsterEvent) (episode : Nat) (hsmall : enemy < 0x60) :
    (⟨enemy, episode⟩ : EventMonster) ∈ entries ev episode ↔ ev.Records episode enemy := by
  rw [entries, MonsterEvent.Records]
  split_ifs with hlist
  · exact ⟨fun h => ⟨hsmall, .inr h⟩, fun h => h.2.resolve_left hlist⟩
  · rw [not_not] at hlist
    refine iff_of_true ?_ ⟨hsmall, .inl hlist⟩
    exact List.mem_map.mpr ⟨enemy, List.mem_range.mpr hsmall, rfl⟩

theorem count_entries_nil {episode : Nat} (hnil : ev.monsters = []) :
    (entries ev episode).count ⟨enemy, episode⟩ ≤ 1 := by
  rw [entries, if_neg (not_not.mpr hnil)]
  refine List.nodup_iff_count_le_one.mp ?_ _
  refine List.Nodup.map (fun i j h => ?_) List.nodup_range
  exact congrArg EventMonster.monster h

/-- What a packet should add, in terms of the entries. -/
theorem due_eq (h : credited gate pkt = some (ev, acc)) (k : Key) :
    due gate pkt k =
      if k = keyOf ev acc pkt k.enemy ∧ k.enemy < 0x60 then
        if (⟨k.enemy, pkt.heading.episode⟩ : EventMonster) ∈ entries ev pkt.heading.episode then
          countOf pkt k.enemy
        else 0
      else 0 := by
  rw [due, h]
  simp only
  by_cases hsmall : k.enemy < 0x60
  · have hmem := mem_entries ev pkt.heading.episode hsmall
    by_cases hkey : k = keyOf ev acc pkt k.enemy
    · rw [if_pos (show k = keyOf ev acc pkt k.enemy ∧ k.enemy < 0x60 from ⟨hkey, hsmall⟩)]
      by_cases hrecords : ev.Records pkt.heading.episode k.enemy
      · rw [if_pos ⟨hkey, hrecords⟩, if_pos (hmem.mpr hrecords)]
      · rw [if_neg fun h => hrecords h.2, if_neg fun h => hrecords (hmem.mp h)]
    · rw [if_neg fun h => hkey h.1, if_neg fun h => hkey h.1]
  · rw [if_neg fun h => hsmall h.2.1, if_neg fun h => hsmall h.2]

/-- The totals are right exactly when the list is. -/
theorem credits_iff (gate : Gate) (pkt : Mkill) : Credits gate pkt ↔ Listed gate pkt := by
  cases hcredited : credited gate pkt with
  | none =>
      refine iff_of_true (fun t => ?_) fun ev acc h => ?_
      · obtain ⟨reply, hsame⟩ := handleMkill_none (t := t) hcredited
        refine ⟨t, reply, hsame, fun k => ?_⟩
        rw [due, hcredited]
        rfl
      · rw [hcredited] at h
        exact nomatch h
  | some target =>
      obtain ⟨ev, acc⟩ := target
      have hkey : ∀ i, (keyOf ev acc pkt i).enemy = i := fun _ => rfl
      have hentry (m : EventMonster) (hsmall : m.monster < 0x60)
          (hepisode : pkt.heading.episode = m.episode) :
          m ∈ entries ev pkt.heading.episode ↔ ev.Records pkt.heading.episode m.monster := by
        rw [← mem_entries ev pkt.heading.episode hsmall, hepisode]
      have hduerow (enemy : Nat) (hrecords : ev.Records pkt.heading.episode enemy) :
          due gate pkt (keyOf ev acc pkt enemy) = countOf pkt enemy := by
        rw [due_eq hcredited, if_pos ⟨rfl, hrecords.1⟩]
        exact if_pos ((mem_entries ev pkt.heading.episode hrecords.1).mpr hrecords)
      constructor
      · intro h ev' acc' hcredited'
        rw [hcredited] at hcredited'
        cases hcredited'
        obtain ⟨t', reply, hresult, hadds⟩ := h fun _ => 0
        rw [handleMkill_eq hcredited] at hresult
        have htakes (enemy : Nat) (hrecords : ev.Records pkt.heading.episode enemy)
            (hcount : countOf pkt enemy ≠ 0) : gate.takes (keyOf ev acc pkt enemy) := by
          by_contra hrefused
          have hsame := addListed_refused (Bool.eq_false_iff.mpr hrefused) hresult
          rw [hadds, hduerow enemy hrecords, Nat.zero_add] at hsame
          exact hcount hsame
        have htaken : Taken gate pkt (keyOf ev acc pkt) (entries ev pkt.heading.episode) :=
          fun m hm hsmall hepisode hcount =>
            htakes m.monster ((hentry m hsmall hepisode).mp hm) hcount
        obtain ⟨-, hnone⟩ | ⟨hinside, t'', hdone, ht''⟩ := addListed_taken hkey htaken fun _ => 0
        · rw [hnone] at hresult
          exact nomatch hresult
        · rw [hdone] at hresult
          cases hresult
          refine ⟨fun m hm => hinside m ?_, fun enemy hrecords hcount =>
            ⟨?_, htakes enemy hrecords hcount⟩⟩
          · rw [entries, if_pos (List.ne_nil_of_mem hm)]
            exact hm
          · by_cases hlist : ev.monsters = []
            · rw [hlist, List.count_nil]
              exact Nat.zero_le 1
            · have hrow := (hadds (keyOf ev acc pkt enemy)).symm.trans
                (ht'' (keyOf ev acc pkt enemy))
              rw [hduerow enemy hrecords, added, if_pos ⟨rfl, hrecords.1⟩, entries, if_pos hlist,
                Nat.zero_add, Nat.zero_add] at hrow
              have hone : ev.monsters.count ⟨enemy, pkt.heading.episode⟩ = 1 :=
                (Nat.eq_of_mul_eq_mul_right (Nat.pos_of_ne_zero hcount)
                  ((Nat.one_mul _).trans hrow)).symm
              exact Nat.le_of_eq hone
      · intro h t
        obtain ⟨hbehind, hlisted⟩ := h ev acc hcredited
        have htaken : Taken gate pkt (keyOf ev acc pkt) (entries ev pkt.heading.episode) :=
          fun m hm hsmall hepisode hcount =>
            (hlisted m.monster ((hentry m hsmall hepisode).mp hm) hcount).2
        obtain ⟨⟨m, hm, hm60⟩, -⟩ | ⟨-, t', hdone, ht'⟩ := addListed_taken hkey htaken t
        · rw [entries] at hm
          split_ifs at hm
          · exact absurd hm60 (hbehind m hm)
          · obtain ⟨i, hi, rfl⟩ := List.mem_map.mp hm
            exact absurd (List.mem_range.mp hi) (by simp only at hm60; omega)
        · refine ⟨t', .done, (handleMkill_eq hcredited).trans hdone, fun k => ?_⟩
          rw [ht', due_eq hcredited, added]
          congr 1
          split_ifs with hrow hmem
          · by_cases hcount : countOf pkt k.enemy = 0
            · rw [hcount, Nat.mul_zero]
            · have hrecords := (mem_entries ev pkt.heading.episode hrow.2).mp hmem
              have hone : (entries ev pkt.heading.episode).count
                  ⟨k.enemy, pkt.heading.episode⟩ ≤ 1 := by
                by_cases hlist : ev.monsters = []
                · exact count_entries_nil hlist
                · rw [entries, if_pos hlist]
                  exact (hlisted k.enemy hrecords hcount).1
              have hpos := List.count_pos_iff.mpr hmem
              rw [show (entries ev pkt.heading.episode).count
                ⟨k.enemy, pkt.heading.episode⟩ = 1 by omega, Nat.one_mul]
          · rw [List.count_eq_zero_of_not_mem hmem, Nat.zero_mul]
          · rfl

end Credits

end Sylverant.Shipgate.MonsterKills
