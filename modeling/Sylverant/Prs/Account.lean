/-
# The record of a run

The positions that were added to the hash table are those below the current one, so that every
search is made among all the earlier positions. `Account` says what a part of the encoder does
to the record: whether the bytes that it reads are inside the input, and that the searches in
the record stay right, where their lengths fit.
-/

import Sylverant.Library.Stopping
import Sylverant.Prs.Compress
import Sylverant.Prs.Observed
import Sylverant.Prs.Searches

namespace Sylverant.Prs.Observed

open Observing (Tells note quiet)
open HashChain (below)

/-- The strings below `count` were added, and a search was right if and only if the lengths that
it compared fit. -/
structure Settled (src : Nat → UInt8) (n count : Nat) (log : List Event) : Prop where
  added : ∀ q, .insert q ∈ log ↔ q < count
  searches : ∀ p visited len pos before, .search p visited len pos :: before <:+ log →
    (SearchRight src n (fun q => .insert q ∈ before) p visited len pos ↔ Fits src n p)

/-- What a part of the encoder adds to the record: its reads are inside the input if and only if
`inside` holds, its searches are at positions of `S` if and only if `allowed` holds, and it adds
the strings from `count` up to `count'`. -/
structure Account (S : Nat → Prop) (src : Nat → UInt8) (n : Nat) (inside allowed : Prop)
    (count count' : Nat) (events : List Event) : Prop where
  reads : (∀ i, .read i ∈ events → i < n) ↔ inside
  searched : (∀ p visited len pos, .search p visited len pos ∈ events → S p) ↔ allowed
  settles : ∀ log, Settled src n count log → Settled src n count' (events ++ log)

section Accounts

variable {S : Nat → Prop} {src : Nat → UInt8} {n count count' count'' : Nat}
  {A B C T U V : Prop} {xs ys log : List Event}

theorem Account.nil : Account S src n True True count count [] :=
  ⟨iff_of_true (fun _ hi => (nomatch hi)) trivial,
    iff_of_true (fun _ _ _ _ hp => (nomatch hp)) trivial, fun _ h => h⟩

theorem Account.append (hx : Account S src n A T count count' xs)
    (hy : Account S src n B U count' count'' ys) (hC : C ↔ A ∧ B) (hV : V ↔ T ∧ U) :
    Account S src n C V count count'' (ys ++ xs) := by
  refine ⟨?_, ?_, fun log h => ?_⟩
  · rw [hC, ← hx.reads, ← hy.reads]
    simp only [List.mem_append, or_imp, forall_and]
    exact and_comm
  · rw [hV, ← hx.searched, ← hy.searched]
    simp only [List.mem_append, or_imp, forall_and]
    exact and_comm
  · rw [List.append_assoc]
    exact hy.settles _ (hx.settles _ h)

theorem Account.congr (hx : Account S src n A T count count' xs) (hA : A ↔ B) (hT : T ↔ U) :
    Account S src n B U count count' xs :=
  ⟨hx.reads.trans hA, hx.searched.trans hT, hx.settles⟩

/-- A search in a longer record is the new event or an older one. -/
theorem Settled.cons {event : Event} (h : Settled src n count log)
    (hadded : ∀ q, .insert q ∈ event :: log ↔ q < count')
    (hsearch : ∀ p visited len pos, event = .search p visited len pos →
      (SearchRight src n (fun q => .insert q ∈ log) p visited len pos ↔ Fits src n p)) :
    Settled src n count' (event :: log) := by
  refine ⟨hadded, fun p visited len pos before hsuffix => ?_⟩
  obtain heq | hold := List.suffix_cons_iff.mp hsuffix
  · obtain ⟨hevent, rfl⟩ := List.cons.inj heq
    exact hsearch p visited len pos hevent.symm
  · exact h.searches p visited len pos before hold

theorem Account.read (i : Nat) : Account S src n (i < n) True count count [.read i] := by
  refine ⟨?_, ?_, fun log h => h.cons (fun q => ?_) fun p visited len pos heq => (nomatch heq)⟩
  · simp only [List.mem_singleton, Event.read.injEq, forall_eq]
  · exact iff_of_true (fun p _ _ _ hp => (nomatch List.mem_singleton.mp hp)) trivial
  · rw [← h.added q, List.mem_cons]
    exact or_iff_right fun heq => (nomatch heq)

theorem Account.insert : Account S src n True True count (count + 1) [.insert count] := by
  refine ⟨?_, ?_, fun log h => h.cons (fun q => ?_) fun p visited len pos heq => (nomatch heq)⟩
  · exact iff_of_true (fun i hi => (nomatch List.mem_singleton.mp hi)) trivial
  · exact iff_of_true (fun p _ _ _ hp => (nomatch List.mem_singleton.mp hp)) trivial
  · rw [List.mem_cons, Event.insert.injEq, h.added q]
    omega

/-- A search among all the earlier positions. -/
theorem Account.search {p : Nat} (hp : p ≤ n) :
    Account S src n True (S p) p p [.search p (below (sameHash src p) p) (bestMatch src n p).1
      (bestOffset src n p)] := by
  refine ⟨?_, ?_, fun log h => h.cons (fun q => ?_) fun p' visited len pos heq => ?_⟩
  · exact iff_of_true (fun i hi => (nomatch List.mem_singleton.mp hi)) trivial
  · constructor
    · exact fun h => h p _ _ _ List.mem_cons_self
    · intro hS p' visited len pos hmem
      rwa [(Event.search.inj (List.mem_singleton.mp hmem)).1]
  · rw [← h.added q, List.mem_cons]
    exact or_iff_right fun heq => (nomatch heq)
  · obtain ⟨rfl, rfl, rfl, rfl⟩ := Event.search.inj heq
    exact searchRight_iff hp h.added

/-- Two parts of the encoder, one after the other. -/
theorem tells_bind {α β : Type} {m : Run α} {f : α → Run β} {a : α} {b : β}
    (hm : Tells m a (Account S src n A T count count'))
    (hf : Tells (f a) b (Account S src n B U count' count'')) (hC : C ↔ A ∧ B) (hV : V ↔ T ∧ U) :
    Tells (m >>= f) b (Account S src n C V count count'') :=
  hm.bind hf fun _ _ hx hy => hx.append hy hC hV

/-- Two parts that do not search. -/
theorem tells_bind_reads {α β : Type} {m : Run α} {f : α → Run β} {a : α} {b : β}
    (hm : Tells m a (Account S src n A True count count'))
    (hf : Tells (f a) b (Account S src n B True count' count'')) (hC : C ↔ A ∧ B) :
    Tells (m >>= f) b (Account S src n C True count count'') :=
  tells_bind hm hf hC (iff_of_true trivial ⟨trivial, trivial⟩)

theorem tells_bind_true {α β : Type} {m : Run α} {f : α → Run β} {a : α} {b : β}
    (hm : Tells m a (Account S src n A T count count'))
    (hf : Tells (f a) b (Account S src n True True count' count'')) :
    Tells (m >>= f) b (Account S src n A T count count'') :=
  tells_bind hm hf (iff_of_eq (and_true A).symm) (iff_of_eq (and_true T).symm)

theorem tells_true_bind {α β : Type} {m : Run α} {f : α → Run β} {a : α} {b : β}
    (hm : Tells m a (Account S src n True True count count'))
    (hf : Tells (f a) b (Account S src n B U count' count'')) :
    Tells (m >>= f) b (Account S src n B U count count'') :=
  tells_bind hm hf (iff_of_eq (true_and B).symm) (iff_of_eq (true_and U).symm)

/-- A part that notes nothing, and then another one. -/
theorem tells_quiet_bind {α β : Type} {r : Except Stop α} {f : α → Run β} {a : α} {b : β}
    (hr : r = .ok a) (hf : Tells (f a) b (Account S src n A T count count')) :
    Tells (quiet r >>= f) b (Account S src n A T count count') :=
  tells_true_bind (Tells.quiet hr .nil) hf

end Accounts

/-! ## Reading -/

section Reading

variable {S : Nat → Prop} {src : Nat → UInt8} {n count : Nat}

theorem load_tells (i : Nat) :
    Tells (load src i) (src i) (Account S src n (i < n) True count count) :=
  tells_bind_true (Tells.note (.read i)) (Tells.pure _ .nil)

/-- The hash of a string reads two bytes. -/
theorem hashStr_tells (s : Nat) :
    Tells (hashStr src s) (Prs.hashStr src s) (Account S src n (s + 1 < n) True count count) :=
  tells_bind_reads (load_tells s) (tells_bind_true (load_tells (s + 1)) (Tells.pure _ .nil))
    (by omega)

theorem addToHash_tells (base : Nat) (hc : HashCxt) (h : UInt8) :
    Tells (addToHash base hc count h) (hc.addToHash base count h)
      (Account S src n True True count (count + 1)) :=
  tells_bind_true (Tells.note .insert) (Tells.pure _ .nil)

/-- The match loop reads no byte behind the end of the input. -/
theorem matchLoop_tells {s1 s2 left : Nat} (hend : s1 + left ≤ n) (hle : s2 ≤ s1) :
    Tells (matchLoop src s1 s2 left) (Prs.matchLoop src s1 s2 left)
      (Account S src n True True count count) := by
  induction left generalizing s1 s2 with
  | zero => exact Tells.pure 0 .nil
  | succ left ih =>
      have hrest : Tells (if src s1 = src s2 then do
            let len ← matchLoop src (s1 + 1) (s2 + 1) left
            return len + 1
          else return 0) (Prs.matchLoop src s1 s2 (left + 1))
          (Account S src n True True count count) := by
        rw [Prs.matchLoop]
        split_ifs
        · exact tells_bind_true (ih (by omega) (by omega)) (Tells.pure _ .nil)
        · exact Tells.pure 0 .nil
      exact tells_bind_reads (load_tells s1) (tells_bind_true (load_tells s2) hrest)
        (iff_of_true trivial ⟨by omega, by omega⟩)

theorem matchLength_tells (count : Nat) {cxt : CompCxt} {s2 : Nat} (hle : s2 ≤ cxt.srcPos)
    (hpos : cxt.srcPos ≤ cxt.srcLen) :
    Tells (matchLength cxt s2) (Prs.matchLength cxt s2)
      (Account S cxt.src cxt.srcLen True True count count) :=
  tells_bind_true (matchLoop_tells (by omega) hle) (Tells.pure _ .nil)

end Reading

/-! ## Searching -/

section Searching

variable {S : Nat → Prop} {base : Nat} {cxt : CompCxt} {hc : HashCxt} {horizon : Nat}

/-- Following a chain visits the positions of the window from there on. -/
theorem followChain_tells (fuel : Nat) {e : Nat} {hc hc' : HashCxt}
    {longest best : Int × Option Nat} (h : hc.Holds base cxt.src cxt.srcPos cxt.srcPos)
    (hlt : e < cxt.srcPos) (hin : cxt.srcPos ≤ e + maxWindow)
    (hkey : Prs.hashStr cxt.src e = Prs.hashStr cxt.src cxt.srcPos) (hpos : cxt.srcPos ≤ cxt.srcLen)
    (hrun : Prs.followChain base cxt fuel hc e longest = .ok (best, hc')) :
    Tells (followChain base cxt fuel hc e longest)
      (best, hc', below (sameHash cxt.src cxt.srcPos) (e + 1))
      (Account S cxt.src cxt.srcLen True True cxt.srcPos cxt.srcPos) := by
  induction fuel generalizing e longest with
  | zero => cases hrun
  | succ fuel ih =>
      have hvisit : below (sameHash cxt.src cxt.srcPos) (e + 1) =
          e :: below (sameHash cxt.src cxt.srcPos) e := HashChain.Chains.below_of_live hkey hin
      have hlength := matchLength_tells (S := S) cxt.srcPos (Nat.le_of_lt hlt) hpos
      rw [hvisit, followChain]
      refine tells_true_bind hlength ?_
      obtain ⟨hp, hend⟩ | ⟨e', hp, hout, hend, -⟩ | ⟨e', hp, hout, hlt', hnear, hkey', hnext⟩ :=
        h.link_cases hlt hin hkey
      · simp only [Prs.followChain, hp] at hrun ⊢
        cases hrun
        rw [hend]
        exact Tells.pure _ .nil
      · simp only [Prs.followChain, hp, hout, if_true] at hrun ⊢
        cases hrun
        rw [hend]
        exact Tells.pure _ .nil
      · simp only [Prs.followChain, hp, hout, Bool.false_eq_true, if_false] at hrun ⊢
        rw [hnext]
        exact tells_true_bind (ih (by omega) hnear hkey' hrun) (Tells.pure _ .nil)

/-- The end of a search notes what it should find, and adds the string if it is not lazy. -/
theorem endSearch_tells (lazy : Bool) {visited : List Nat} {len pos : Int}
    (hpos : cxt.srcPos ≤ cxt.srcLen)
    (hvisited : visited = below (sameHash cxt.src cxt.srcPos) cxt.srcPos)
    (hlen : len = (bestMatch cxt.src cxt.srcLen cxt.srcPos).1)
    (hoffset : pos = bestOffset cxt.src cxt.srcLen cxt.srcPos) :
    Tells (endSearch base cxt lazy (Prs.hashStr cxt.src cxt.srcPos) visited len pos hc)
      (len, pos, if lazy then hc
        else hc.addToHash base cxt.srcPos (Prs.hashStr cxt.src cxt.srcPos))
      (Account S cxt.src cxt.srcLen True (S cxt.srcPos) cxt.srcPos
        (HashCxt.searched lazy cxt.srcPos)) := by
  subst hvisited hlen hoffset
  refine tells_bind_true (Tells.note (.search hpos)) ?_
  cases lazy with
  | true => exact Tells.pure _ .nil
  | false => exact tells_true_bind (addToHash_tells base hc _) (Tells.pure _ .nil)

/-- A search reads the byte behind the one that it is for. -/
theorem findLongestMatch_tells (cxt : CompCxt) (lazy : Bool)
    (h : hc.Holds base cxt.src cxt.srcPos horizon)
    (hle : horizon ≤ cxt.srcPos) (hmore : cxt.srcPos < cxt.srcLen) :
    ∃ hc', Prs.findLongestMatch base cxt hc lazy =
        .ok ((bestMatch cxt.src cxt.srcLen cxt.srcPos).1,
          bestOffset cxt.src cxt.srcLen cxt.srcPos, hc') ∧
      hc'.Holds base cxt.src (HashCxt.searched lazy cxt.srcPos) cxt.srcPos ∧
      Tells (findLongestMatch base cxt hc lazy)
        ((bestMatch cxt.src cxt.srcLen cxt.srcPos).1,
          bestOffset cxt.src cxt.srcLen cxt.srcPos, hc')
        (Account S cxt.src cxt.srcLen (cxt.srcPos + 1 < cxt.srcLen) (S cxt.srcPos) cxt.srcPos
          (HashCxt.searched lazy cxt.srcPos)) := by
  obtain ⟨hc', hrun, hholds⟩ := findLongestMatch_eq cxt lazy h hle hmore
  refine ⟨hc', hrun, hholds, ?_⟩
  have hnow : hc.Holds base cxt.src cxt.srcPos cxt.srcPos := HashChain.Chains.advance h hle
  have hsome : ¬ cxt.srcPos ≥ cxt.srcLen := Nat.not_le.mpr hmore
  rw [findLongestMatch, if_neg hsome]
  refine tells_bind (hashStr_tells cxt.srcPos) ?_ (iff_of_eq (and_true _).symm)
    (iff_of_eq (true_and _).symm)
  obtain ⟨hhead, hempty⟩ | ⟨e, hhead, hout, hempty, -⟩ |
    ⟨e, hhead, hout, hlt, hin, hkey, hall⟩ := hnow.head_cases
  · simp only [Prs.findLongestMatch, hsome, if_false, hhead] at hrun ⊢
    have hresult := Except.ok.inj hrun
    obtain ⟨hlen, hrest⟩ := Prod.mk.inj hresult
    rw [← hresult]
    exact endSearch_tells lazy (Nat.le_of_lt hmore) hempty.symm hlen (Prod.mk.inj hrest).1
  · simp only [Prs.findLongestMatch, hsome, if_false, hhead, hout, if_true] at hrun ⊢
    have hresult := Except.ok.inj hrun
    obtain ⟨hlen, hrest⟩ := Prod.mk.inj hresult
    rw [← hresult]
    exact endSearch_tells lazy (Nat.le_of_lt hmore) hempty.symm hlen (Prod.mk.inj hrest).1
  · obtain ⟨hc₁, hfollow, -⟩ := followChain_eq (cxt.srcPos + 1) hc hnow hlt hin hkey
      (by omega) (0, none)
    have htells := followChain_tells (S := S) (cxt.srcPos + 1) hnow hlt hin hkey
      (Nat.le_of_lt hmore) hfollow
    rw [← hall] at hfollow htells
    change _ = Except.ok (bestMatch cxt.src cxt.srcLen cxt.srcPos, hc₁) at hfollow
    change Tells _ (bestMatch cxt.src cxt.srcLen cxt.srcPos, hc₁, _) _ at htells
    simp only [Prs.findLongestMatch, hsome, if_false, hhead, hout, Bool.false_eq_true, hfollow]
      at hrun ⊢
    refine tells_true_bind htells ?_
    dsimp only
    cases hbest : bestMatch cxt.src cxt.srcLen cxt.srcPos with
    | mk len ent =>
        rw [hbest] at hrun
        have hlen : len = (bestMatch cxt.src cxt.srcLen cxt.srcPos).1 := by rw [hbest]
        cases ent <;>
          · have hresult := Except.ok.inj hrun
            rw [← hresult]
            exact endSearch_tells lazy (Nat.le_of_lt hmore) rfl hlen
              (Prod.mk.inj (Prod.mk.inj hresult).2).1

end Searching

/-! ## Writing -/

section Writing

open Stopping (bind_eq_ok_iff)

variable {S : Nat → Prop} {base : Nat} {cxt cxt' : CompCxt} {hc hc' : HashCxt} {count : Nat}

/-- A part that leaves the input and the position alone. -/
def Stays (m : CompCxt → Except Stop CompCxt) : Prop :=
  ∀ cxt cxt', m cxt = .ok cxt' →
    cxt'.src = cxt.src ∧ cxt'.srcLen = cxt.srcLen ∧ cxt'.srcPos = cxt.srcPos

theorem Stays.bind {m m' : CompCxt → Except Stop CompCxt} (hm : Stays m) (hm' : Stays m') :
    Stays fun cxt => m cxt >>= m' := by
  intro cxt cxt' hrun
  obtain ⟨c₁, h₁, h₂⟩ := bind_eq_ok_iff.mp hrun
  obtain ⟨hsrc, hlen, hpos⟩ := hm cxt c₁ h₁
  obtain ⟨hsrc', hlen', hpos'⟩ := hm' c₁ cxt' h₂
  exact ⟨hsrc'.trans hsrc, hlen'.trans hlen, hpos'.trans hpos⟩

theorem stays_storeByte (i : CompCxt → Nat) (b : CompCxt → UInt8) :
    Stays fun cxt => storeByte cxt (i cxt) (b cxt) := by
  intro cxt cxt' hrun
  simp only [storeByte] at hrun
  split_ifs at hrun
  cases hrun
  exact ⟨rfl, rfl, rfl⟩

theorem stays_setBit (value : Nat) : Stays fun cxt => setBit cxt value := by
  intro cxt cxt' hrun
  simp only [setBit] at hrun
  split_ifs at hrun
  · obtain ⟨c₁, h₁, h₂⟩ := bind_eq_ok_iff.mp hrun
    cases h₂
    exact stays_storeByte CompCxt.flagPtr CompCxt.flags cxt c₁ h₁
  · cases hrun
    exact ⟨rfl, rfl, rfl⟩

theorem stays_writeLiteral (val : UInt8) : Stays fun cxt => writeLiteral cxt val := by
  intro cxt cxt' hrun
  simp only [writeLiteral] at hrun
  split_ifs at hrun
  obtain ⟨c₁, h₁, h₂⟩ := bind_eq_ok_iff.mp hrun
  cases h₂
  exact stays_storeByte CompCxt.dstPos (fun _ => val) cxt c₁ h₁

theorem stays_putShortMatch (mlen offset : Int) : Stays fun cxt => putShortMatch cxt mlen offset :=
  (stays_setBit 0).bind ((stays_setBit 0).bind ((stays_setBit _).bind ((stays_setBit _).bind
    (stays_writeLiteral _))))

theorem stays_putLongMatch (mlen offset : Int) : Stays fun cxt => putLongMatch cxt mlen offset :=
  (stays_setBit 0).bind ((stays_setBit 1).bind ((stays_writeLiteral _).bind (stays_writeLiteral _)))

theorem stays_putSizedMatch (mlen offset : Int) : Stays fun cxt => putSizedMatch cxt mlen offset :=
  (stays_setBit 0).bind ((stays_setBit 1).bind ((stays_writeLiteral _).bind
    ((stays_writeLiteral _).bind (stays_writeLiteral _))))

/-- A literal reads its byte, which is inside the input. -/
theorem putLiteral_tells (count : Nat) (hrun : Prs.putLiteral cxt = .ok cxt') :
    (cxt'.src = cxt.src ∧ cxt'.srcLen = cxt.srcLen ∧ cxt'.srcPos = cxt.srcPos + 1) ∧
      Tells (putLiteral cxt) cxt' (Account S cxt.src cxt.srcLen True True count count) := by
  obtain ⟨c₁, h₁, h₂⟩ := bind_eq_ok_iff.mp hrun
  obtain ⟨hsrc, hlen, hpos⟩ := stays_setBit 1 cxt c₁ h₁
  simp only [Prs.copyLiteral] at h₂
  split_ifs at h₂ with hfull hend
  obtain ⟨c₂, hstore, h₃⟩ := bind_eq_ok_iff.mp h₂
  obtain ⟨hsrc', hlen', hpos'⟩ :=
    stays_storeByte CompCxt.dstPos (fun c => c.src c.srcPos) c₁ c₂ hstore
  cases h₃
  refine ⟨⟨hsrc'.trans hsrc, hlen'.trans hlen, by simp only; omega⟩, tells_quiet_bind h₁ ?_⟩
  rw [copyLiteral, if_neg hfull, if_neg hend]
  rw [← hsrc, ← hlen]
  exact tells_bind_reads (load_tells c₁.srcPos) (tells_quiet_bind hstore (Tells.pure _ .nil))
    (iff_of_true trivial ⟨Nat.lt_of_not_le hend, trivial⟩)

/-- The strings of a match are added one after the other. The hash of the last one reads the
byte behind the match. -/
theorem addIntermediates_tells (base : Nat) (cxt : CompCxt) (hc : HashCxt) {len : Nat}
    (hlen : 1 ≤ len) (hmore : cxt.srcPos + 1 < cxt.srcLen) :
    Tells (addIntermediates base cxt hc len) (Prs.addIntermediates base cxt hc len)
      (Account S cxt.src cxt.srcLen (cxt.srcPos + len < cxt.srcLen) True (cxt.srcPos + 1)
        (cxt.srcPos + len)) := by
  suffices hall : ∀ (k i : Nat) (hc : HashCxt),
      Tells ((List.range' i k).foldlM (fun hc i => do
            let hash ← hashStr cxt.src (cxt.srcPos + i)
            addToHash base hc (cxt.srcPos + i) hash) hc)
        ((List.range' i k).foldl (fun hc i =>
          hc.addToHash base (cxt.srcPos + i) (Prs.hashStr cxt.src (cxt.srcPos + i))) hc)
        (Account S cxt.src cxt.srcLen (k = 0 ∨ cxt.srcPos + i + k < cxt.srcLen) True
          (cxt.srcPos + i) (cxt.srcPos + i + k)) by
    refine (hall (len - 1) 1 hc).mono fun events h => ?_
    rw [Nat.add_assoc, Nat.add_sub_cancel' hlen] at h
    exact h.congr (by omega) Iff.rfl
  intro k
  induction k with
  | zero =>
      intro i hc
      exact Tells.pure hc (Account.nil.congr (iff_of_true trivial (.inl rfl)) Iff.rfl)
  | succ k ih =>
      intro i hc
      have hrest := ih (i + 1) (hc.addToHash base (cxt.srcPos + i)
        (Prs.hashStr cxt.src (cxt.srcPos + i)))
      rw [← Nat.add_assoc, Nat.add_right_comm _ 1 k, Nat.add_assoc _ k 1] at hrest
      rw [List.range'_succ, List.foldlM_cons, List.foldl_cons]
      exact tells_bind_reads (tells_bind_true (hashStr_tells _) (addToHash_tells base hc _)) hrest
        (by omega)

theorem skipMatch_tells (base : Nat) (cxt : CompCxt) (hc : HashCxt) {mlen : Int}
    (hlen : 1 ≤ mlen.toNat) (hmore : cxt.srcPos + 1 < cxt.srcLen) :
    Tells (skipMatch base cxt hc mlen) (Prs.skipMatch base cxt hc mlen)
      (Account S cxt.src cxt.srcLen (cxt.srcPos + mlen.toNat < cxt.srcLen) True (cxt.srcPos + 1)
        (cxt.srcPos + mlen.toNat)) :=
  tells_bind_true (addIntermediates_tells base cxt hc hlen hmore) (Tells.pure _ .nil)

/-- A copy in one of its shapes. -/
theorem copy_tells {m : CompCxt → Except Stop CompCxt} (hm : Stays m) {mlen : Int}
    (hlen : 1 ≤ mlen.toNat) (hmore : cxt.srcPos + 1 < cxt.srcLen)
    (hrun : (do return Prs.skipMatch base (← m cxt) hc mlen : Except Stop _) = .ok (cxt', hc')) :
    Tells (do
        let cxt ← quiet (m cxt)
        skipMatch base cxt hc mlen) (cxt', hc')
      (Account S cxt.src cxt.srcLen (cxt'.srcPos < cxt.srcLen) True (cxt.srcPos + 1)
        cxt'.srcPos) := by
  obtain ⟨c₁, h₁, h₂⟩ := bind_eq_ok_iff.mp hrun
  obtain ⟨hsrc, hlen', hpos⟩ := hm cxt c₁ h₁
  have htells := skipMatch_tells (S := S) base c₁ hc hlen (by omega)
  have hresult : Prs.skipMatch base c₁ hc mlen = (cxt', hc') := Except.ok.inj h₂
  have hnext : c₁.srcPos + mlen.toNat = cxt'.srcPos :=
    congrArg (fun r : CompCxt × HashCxt => r.1.srcPos) hresult
  rw [hresult, hnext, hsrc, hlen', hpos] at htells
  exact tells_quiet_bind h₁ htells

/-- A literal in the place of a match. -/
theorem literal_tells (hmore : cxt.srcPos + 1 < cxt.srcLen)
    (hrun : (do return (← Prs.putLiteral cxt, hc) : Except Stop _) = .ok (cxt', hc')) :
    Tells (do
        let cxt ← putLiteral cxt
        return (cxt, hc)) (cxt', hc')
      (Account S cxt.src cxt.srcLen (cxt'.srcPos < cxt.srcLen) True (cxt.srcPos + 1)
        cxt'.srcPos) := by
  obtain ⟨c₁, h₁, h₂⟩ := bind_eq_ok_iff.mp hrun
  obtain ⟨⟨-, -, hpos⟩, htells⟩ := putLiteral_tells (S := S) (cxt.srcPos + 1) h₁
  cases h₂
  rw [hpos]
  exact tells_bind_reads htells (Tells.pure _ .nil) (iff_of_true hmore ⟨trivial, trivial⟩)

/-- After a match the string of its last byte has been added, and that byte must not be the last
one of the input. -/
theorem putMatch_tells {mlen offset : Int} (hmore : cxt.srcPos + 1 < cxt.srcLen)
    (hrun : Prs.putMatch base cxt hc mlen offset = .ok (cxt', hc')) :
    Tells (putMatch base cxt hc mlen offset) (cxt', hc')
      (Account S cxt.src cxt.srcLen (cxt'.srcPos < cxt.srcLen) True (cxt.srcPos + 1)
        cxt'.srcPos) := by
  rw [Prs.putMatch] at hrun
  rw [putMatch]
  split_ifs at hrun ⊢
  · exact copy_tells (stays_putShortMatch mlen offset) (by omega) hmore hrun
  · exact copy_tells (stays_putLongMatch mlen offset) (by omega) hmore hrun
  · exact copy_tells (stays_putSizedMatch _ offset) (by omega) hmore hrun
  · exact copy_tells (stays_putSizedMatch mlen offset) (by omega) hmore hrun
  · exact literal_tells hmore hrun

end Writing

/-! ## Passes -/

/-- What has to hold where a token begins for the reads to be inside the input: the token does
not end with the input, and in front of the last byte no match is found. -/
def PassInside (src : Nat → UInt8) (n p : Nat) : Prop :=
  p + (tokenAt src n p).size < n ∧ (p + 2 = n → (bestMatch src n p).1 = 0)

/-- The positions at which a match is searched for where a token begins belong to `S`: this one,
and the next one if there is a match. -/
def PassSearches (S : Nat → Prop) (src : Nat → UInt8) (n p : Nat) : Prop :=
  S p ∧ ((bestMatch src n p).1 ≠ 0 → S (p + 1))

/-- `P` holds at each position where the parse begins a token that is searched for. -/
def AtTokens (P : Nat → Prop) (src : Nat → UInt8) (n : Nat) : Prop :=
  ∀ p, Reaches src n p → p + 1 < n → P p

/-- `P` holds where the tokens from `p` on begin. -/
def AtTokensFrom (P : Nat → Prop) (src : Nat → UInt8) (n : Nat) : Nat → Nat → Prop
  | 0, _ => True
  | fuel + 1, p => p < n - 1 → P p ∧ AtTokensFrom P src n fuel (p + (tokenAt src n p).size)

theorem atTokensFrom_iff {P : Nat → Prop} {src : Nat → UInt8} {n : Nat} :
    AtTokensFrom P src n n 2 ↔ AtTokens P src n := by
  constructor
  · intro h
    suffices hall : ∀ p, Reaches src n p → ∃ fuel, n - p ≤ fuel ∧ AtTokensFrom P src n fuel p by
      intro p hreaches hp
      obtain ⟨fuel, hfuel, hrest⟩ := hall p hreaches
      obtain ⟨fuel, rfl⟩ : ∃ k, fuel = k + 1 := ⟨fuel - 1, by omega⟩
      exact (hrest (by omega)).1
    intro p hreaches
    induction hreaches with
    | start => exact ⟨n, by omega, h⟩
    | @step p _ more ih =>
        obtain ⟨fuel, hfuel, hrest⟩ := ih
        obtain ⟨fuel, rfl⟩ : ∃ k, fuel = k + 1 := ⟨fuel - 1, by omega⟩
        have hsize := (takes_tokenAt src (n := n) (p := p) (by omega)).size_pos
        exact ⟨fuel, by omega, (hrest more).2⟩
  · intro h
    suffices hall : ∀ fuel p, Reaches src n p → AtTokensFrom P src n fuel p from hall n 2 .start
    intro fuel
    induction fuel with
    | zero => exact fun p _ => trivial
    | succ fuel ih =>
        exact fun p hreaches hmore =>
          ⟨h p hreaches (by omega), ih _ (hreaches.step hmore)⟩

section Passes

open FlagStream

variable {S : Nat → Prop} {base : Nat} {cxt : CompCxt} {hc : HashCxt} {horizon : Nat}
  {items : List Item}

theorem compressPass_tells (h : Emitted cxt items) (hitems : items ≠ [])
    (hmore : cxt.srcPos < cxt.srcLen - 1)
    (hholds : hc.Holds base cxt.src cxt.srcPos horizon) (hle : horizon ≤ cxt.srcPos)
    (hroom : packedSize 0 (items ++ (tokenAt cxt.src cxt.srcLen cxt.srcPos).items) ≤
      cxt.dstLen) :
    ∃ cxt' hc', Prs.compressPass base cxt hc = .ok (cxt', hc') ∧
      PassDone base cxt items (tokenAt cxt.src cxt.srcLen cxt.srcPos) cxt' hc' ∧
      Tells (compressPass base cxt hc) (cxt', hc')
        (Account S cxt.src cxt.srcLen (PassInside cxt.src cxt.srcLen cxt.srcPos)
          (PassSearches S cxt.src cxt.srcLen cxt.srcPos) cxt.srcPos cxt'.srcPos) := by
  obtain ⟨cxt', hc', hrun, hdone⟩ := compressPass_eq h hitems hmore hholds hle hroom
  refine ⟨cxt', hc', hrun, hdone, ?_⟩
  obtain ⟨hc₁, hfind, hholds₁, htells⟩ := findLongestMatch_tells (S := S) cxt false hholds hle
    (by omega)
  obtain ⟨hc₂, hfind₂, -, htells₂⟩ := findLongestMatch_tells (S := S)
    { cxt with srcPos := cxt.srcPos + 1 } true hholds₁ (by simp only; omega)
    (by simp only; omega)
  rw [PassInside, ← hdone.srcPos_eq]
  simp only [Prs.compressPass, hfind, bind, Except.bind] at hrun
  refine tells_bind htells (B := cxt'.srcPos < cxt.srcLen ∧
    (cxt.srcPos + 2 = cxt.srcLen → (bestMatch cxt.src cxt.srcLen cxt.srcPos).1 = 0)) ?_
    (by omega) Iff.rfl
  dsimp only
  by_cases hmatch : (bestMatch cxt.src cxt.srcLen cxt.srcPos).1 = 0
  · rw [if_neg (not_not.mpr hmatch)] at hrun ⊢
    refine (literal_tells (by omega) hrun).mono fun events h => h.congr ?_ ?_
    · exact (and_iff_left fun _ => hmatch).symm
    · exact iff_of_true trivial fun hne => absurd hmatch hne
  · rw [if_pos hmatch] at hrun ⊢
    simp only [hfind₂] at hrun
    refine tells_bind htells₂ (B := cxt'.srcPos < cxt.srcLen) (U := True) ?_
      (by simp only; omega) ((imp_iff_right hmatch).trans (iff_of_eq (and_true _).symm))
    dsimp only
    split_ifs at hrun ⊢ with hlazy
    · exact literal_tells (by omega) hrun
    · exact putMatch_tells (by omega) hrun

/-- The loop, up to the last byte. -/
theorem compressLoop_tells (fuel : Nat) {cxt cxt' : CompCxt} {hc : HashCxt} {items : List Item}
    {horizon : Nat} (h : Emitted cxt items) (hitems : items ≠ [])
    (hholds : hc.Holds base cxt.src cxt.srcPos horizon) (hle : horizon ≤ cxt.srcPos)
    (hroom : packedSize 0 (items ++ streamItems (parseFrom cxt.src cxt.srcLen fuel cxt.srcPos)) ≤
      cxt.dstLen)
    (hrun : Prs.compressLoop base fuel cxt hc = .ok cxt') :
    Tells (compressLoop base fuel cxt hc) cxt'
      (Account S cxt.src cxt.srcLen
        (AtTokensFrom (PassInside cxt.src cxt.srcLen) cxt.src cxt.srcLen fuel cxt.srcPos)
        (AtTokensFrom (PassSearches S cxt.src cxt.srcLen) cxt.src cxt.srcLen fuel cxt.srcPos)
        cxt.srcPos cxt'.srcPos) ∧ cxt'.src = cxt.src ∧ cxt'.srcLen = cxt.srcLen := by
  induction fuel generalizing cxt hc items horizon with
  | zero => cases hrun
  | succ fuel ih =>
      rw [Prs.compressLoop] at hrun
      rw [compressLoop, AtTokensFrom, AtTokensFrom]
      by_cases hmore : cxt.srcPos < cxt.srcLen - 1
      · rw [if_pos hmore] at hrun ⊢
        rw [parseFrom, if_pos hmore, append_streamItems_cons] at hroom
        obtain ⟨c₁, hc₁, hpass, hdone, htells⟩ := compressPass_tells (S := S) h hitems hmore
          hholds hle (by rw [packedSize_append] at hroom; omega)
        obtain ⟨hsrc, hlen, hdst⟩ := hdone.same
        rw [hpass] at hrun
        have hholds₁ := hdone.holds
        rw [← hsrc] at hholds₁
        have hsize := (takes_tokenAt cxt.src (n := cxt.srcLen) (p := cxt.srcPos)
          (by omega)).size_pos
        obtain ⟨hrest, hsrc', hlen'⟩ := ih hdone.emitted (by simp [hitems]) hholds₁
          (by rw [hdone.srcPos_eq]; omega)
          (by rw [hsrc, hlen, hdone.srcPos_eq, hdst]; exact hroom) hrun
        rw [hsrc, hlen] at hrest
        rw [← hdone.srcPos_eq]
        exact ⟨tells_bind htells hrest (imp_iff_right hmore) (imp_iff_right hmore),
          hsrc'.trans hsrc, hlen'.trans hlen⟩
      · rw [if_neg hmore] at hrun ⊢
        have hend {P : Nat → Prop} : True ↔ (cxt.srcPos < cxt.srcLen - 1 → P cxt.srcPos ∧
            AtTokensFrom P cxt.src cxt.srcLen fuel
              (cxt.srcPos + (tokenAt cxt.src cxt.srcLen cxt.srcPos).size)) :=
          iff_of_true trivial fun h => absurd h hmore
        rw [← Except.ok.inj hrun]
        exact ⟨Tells.pure _ (Account.nil.congr hend hend), rfl, rfl⟩

end Passes

/-! ## Whole runs -/

section Runs

open Stopping (bind_eq_ok_iff)
open FlagStream

variable {S : Nat → Prop} {cxt cxt' : CompCxt} {count : Nat}

theorem putLeftOver_tells (count : Nat) (hrun : Prs.putLeftOver cxt = .ok cxt') :
    Tells (putLeftOver cxt) cxt' (Account S cxt.src cxt.srcLen True True count count) := by
  rw [Prs.putLeftOver] at hrun
  rw [putLeftOver]
  split_ifs at hrun ⊢
  · exact (putLiteral_tells count hrun).2
  · cases hrun
    exact Tells.pure _ .nil

theorem archiveLoop_tells (left : Nat) (hrun : Prs.archiveLoop left cxt = .ok cxt') :
    Tells (archiveLoop left cxt) cxt' (Account S cxt.src cxt.srcLen True True count count) := by
  induction left generalizing cxt with
  | zero =>
      cases hrun
      exact Tells.pure _ .nil
  | succ left ih =>
      obtain ⟨c₁, h₁, h₂⟩ := bind_eq_ok_iff.mp hrun
      obtain ⟨⟨hsrc, hlen, -⟩, htells⟩ := putLiteral_tells (S := S) count h₁
      have hrest := ih h₂
      rw [hsrc, hlen] at hrest
      exact tells_true_bind htells hrest

/-- `prs_archive` reads its input and nothing else. -/
theorem prsArchive_tells {junk : Nat → UInt8} {src : Nat → UInt8} {n : Nat} (hn : 1 ≤ n)
    {r : Int × List UInt8} (hrun : Prs.prsArchive junk src n = .ok r) :
    Tells (prsArchive junk src n) r (Account S src n True True count count) := by
  rw [Prs.prsArchive, if_neg (by omega)] at hrun
  obtain ⟨c₁, h₁, hrun⟩ := bind_eq_ok_iff.mp hrun
  obtain ⟨c₂, h₂, hrun⟩ := bind_eq_ok_iff.mp hrun
  cases hrun
  rw [prsArchive, if_neg (by omega)]
  exact tells_true_bind (archiveLoop_tells n h₁) (tells_quiet_bind h₂ (Tells.pure _ .nil))

/-- A run has the result of the encoder, and what its reads and its searches are is told by the
parse. -/
theorem prsCompress_tells (S : Nat → Prop) (junk : Nat → UInt8) (base : Nat)
    (src : Nat → UInt8) {n : Nat} (hn : 1 ≤ n) :
    ∃ r count, Prs.prsCompress junk base src n = .ok r ∧
      Tells (prsCompress junk base src n) r
        (Account S src n (AtTokens (PassInside src n) src n)
          (AtTokens (PassSearches S src n) src n) 0 count) := by
  have hrun := prsCompress_eq junk base src hn
  by_cases hshort : n ≤ 3
  · have hnone : ∀ P, AtTokens P src n := fun P p hreaches hp => by
      have hlow := hreaches.two_le
      omega
    refine ⟨_, 0, hrun, ?_⟩
    rw [Prs.prsCompress, if_neg (by omega), if_pos hshort] at hrun
    rw [prsCompress, if_neg (by omega), if_pos hshort]
    exact (prsArchive_tells hn hrun).mono fun events h =>
      h.congr (iff_of_true trivial (hnone _)) (iff_of_true trivial (hnone _))
  · have hlong : 3 < n := Nat.lt_of_not_le hshort
    obtain ⟨c₁, c₂, h₁, h₂, hemitted, hsame, hpos⟩ := begin_eq junk src (n := n) (by omega)
      (packedSize_begin_le src hlong)
    have hsrc : c₂.src = src := hsame.src_eq
    have hlen : c₂.srcLen = n := hsame.srcLen_eq
    have hdst : c₂.dstLen = prsMaxCompressedSize n := hsame.dstLen_eq
    have hholds := ((HashCxt.holds_empty base src).add).add
    have hcompress := hrun
    rw [Prs.prsCompress, if_neg (by omega), if_neg hshort, h₁] at hrun
    simp only [Stopping.ok_bind, h₂] at hrun
    obtain ⟨c₃, h₃, hrun⟩ := bind_eq_ok_iff.mp hrun
    obtain ⟨c₄, h₄, hrun⟩ := bind_eq_ok_iff.mp hrun
    obtain ⟨c₅, h₅, hrun⟩ := bind_eq_ok_iff.mp hrun
    obtain ⟨⟨hsrc₁, hlen₁, -⟩, hfirst⟩ := putLiteral_tells (S := S) 2 h₁
    have hsecond := (putLiteral_tells (S := S) 2 h₂).2
    obtain ⟨hloop, hsrc₃, hlen₃⟩ := compressLoop_tells (S := S) n hemitted (by simp [Token.items])
      (by rw [hsrc, hpos]; exact hholds) (by omega)
      (by
        rw [hsrc, hlen, hpos, hdst, ← streamItems_parse src hlong]
        exact packedSize_parse_le src n) h₃
    have hlast := putLeftOver_tells (S := S) c₃.srcPos h₄
    rw [hsrc₁, hlen₁] at hsecond
    rw [hsrc, hlen, hpos, atTokensFrom_iff, atTokensFrom_iff] at hloop
    rw [hsrc₃, hlen₃, hsrc, hlen] at hlast
    refine ⟨_, c₃.srcPos, hcompress, ?_⟩
    rw [prsCompress, if_neg (by omega), if_neg hshort, ← Except.ok.inj hrun]
    refine tells_bind (hashStr_tells 0) ?_ (and_iff_right (by omega)).symm
      (iff_of_eq (true_and _).symm)
    refine tells_true_bind (addToHash_tells base _ _) ?_
    refine tells_bind (hashStr_tells 1) ?_ (and_iff_right (by omega)).symm
      (iff_of_eq (true_and _).symm)
    refine tells_true_bind (addToHash_tells base _ _) ?_
    refine tells_true_bind hfirst (tells_true_bind hsecond ?_)
    exact tells_bind_true hloop (tells_true_bind hlast (tells_quiet_bind h₅ (Tells.pure _ .nil)))

end Runs

end Sylverant.Prs.Observed
