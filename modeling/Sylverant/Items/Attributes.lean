/-
# The attributes of weapons

Which weapons the limits accept, as far as their attribute decides it. The mask of an
entry has 41 bits, but the ones that are shifted into it and out of it are ints: from
32 on an attribute works on the bit of another one, and 31 is the sign.
-/

import Mathlib.Data.List.Nodup
import Sylverant.Items.Check
import Sylverant.Library.BitMask

namespace Sylverant.Items

open BitMask (members)

/-! ## Masks that are worked on with ints -/

/-- The bits of a mask of 64 bits that `1 << i` has. -/
def Touches (i j : Nat) : Prop := j < 64 ∧ if i % 32 = 31 then 31 ≤ j else j = i % 32

theorem mem_intShift {i j : Nat} : j ∈ members ((intShift i).signExtend 64) ↔ Touches i j := by
  have small : i % 32 < 32 := Nat.mod_lt _ (by decide)
  rw [BitMask.mem_members, BitVec.getLsbD_signExtend, intShift, ← BitVec.twoPow_eq,
    BitVec.getLsbD_twoPow, BitVec.msb_twoPow]
  by_cases low : j < 32
  · simp only [low, if_true, small, decide_true, Bool.true_and, Bool.and_eq_true,
      decide_eq_true_eq, Touches]
    by_cases sign : i % 32 = 31
    · rw [if_pos sign]
      omega
    · rw [if_neg sign]
      omega
  · simp only [low, if_false, small, decide_true, Bool.true_and, Bool.and_eq_true,
      decide_eq_true_eq, Touches]
    by_cases sign : i % 32 = 31
    · rw [if_pos sign]
      omega
    · rw [if_neg sign]
      omega

theorem members_clearBit (valid : BitVec 64) (i : Nat) :
    members (clearBit valid i) = {j ∈ members valid | ¬ Touches i j} := by
  ext j
  rw [clearBit, BitMask.members_and, BitVec.signExtend_not (by decide), Set.mem_inter_iff,
    BitMask.mem_not, mem_intShift, Set.mem_ofPred_eq]
  constructor
  · rintro ⟨h, -, free⟩
    exact ⟨h, free⟩
  · rintro ⟨h, free⟩
    exact ⟨h, BitMask.lt_of_mem h, free⟩

theorem mem_fullAttrValid {j : Nat} : j ∈ members fullAttrValid ↔ j < 41 := by
  have full : fullAttrValid = BitVec.ofNat 64 (2 ^ 41 - 1) := by decide
  rw [full, BitMask.mem_members, BitVec.getLsbD_ofNat, Nat.testBit_two_pow_sub_one,
    Bool.and_eq_true, decide_eq_true_eq, decide_eq_true_eq]
  omega

/-! ## Disallow lists -/

/-- An attribute is among the names of a disallow list. -/
def Names (toks : List String) (d : Nat) : Prop := ∃ name ∈ toks, weaponAttrs[d]? = some name

theorem Names.le {toks : List String} {d : Nat} (h : Names toks d) : d ≤ 40 := by
  obtain ⟨name, -, hd⟩ := h
  obtain ⟨inside, -⟩ := List.getElem?_eq_some_iff.mp hd
  exact Nat.le_of_lt_succ inside

/-- The attributes have different names, so that a name that is found is the name of
the attribute found, and of no other. -/
theorem idxOf_weaponAttrs {tok : String} {i d : Nat} (found : weaponAttrs.idxOf? tok = some i) :
    weaponAttrs[d]? = some tok ↔ d = i := by
  have distinct : weaponAttrs.Nodup := by decide
  obtain ⟨inside, same, -⟩ := List.findIdx?_eq_some_iff_getElem.mp found
  have here : weaponAttrs[i] = tok := by simpa using same
  constructor
  · intro h
    obtain ⟨hd, heq⟩ := List.getElem?_eq_some_iff.mp h
    exact (List.Nodup.getElem_inj_iff distinct).mp (heq.trans here.symm)
  · rintro rfl
    exact List.getElem?_eq_some_iff.mpr ⟨inside, here⟩

theorem names_cons {tok : String} {toks : List String} {i d : Nat}
    (found : weaponAttrs.idxOf? tok = some i) : Names (tok :: toks) d ↔ d = i ∨ Names toks d := by
  constructor
  · rintro ⟨name, hname, hd⟩
    rcases List.mem_cons.mp hname with rfl | later
    · exact Or.inl ((idxOf_weaponAttrs found).mp hd)
    · exact Or.inr ⟨name, later, hd⟩
  · rintro (same | ⟨name, hname, hd⟩)
    · exact ⟨tok, List.mem_cons_self, (idxOf_weaponAttrs found).mpr same⟩
    · exact ⟨name, List.mem_cons_of_mem _ hname, hd⟩

/-- The names of attributes, as a disallow list has them. -/
def listed (names : List String) : String :=
  String.ofList ([',', ' '].intercalate (names.map String.toList))

/-- Any attributes can be listed, in any order. -/
theorem disallowed_listed {names : List String} (known : ∀ name ∈ names, name ∈ weaponAttrs) :
    disallowed (listed names) = names := by
  have checked : weaponAttrs.all (fun name => !name.toList.isEmpty &&
      name.toList.all fun c => !(List.contains [',', ' '] c)) = true := by
    decide
  have words : ∀ name ∈ weaponAttrs, name.toList ≠ [] ∧ ∀ c ∈ name.toList, c ∉ [',', ' '] := by
    intro name h
    have hname := List.all_eq_true.mp checked name h
    rw [Bool.and_eq_true, Bool.not_eq_true', List.isEmpty_eq_false_iff] at hname
    refine ⟨hname.1, fun c hc hmem => ?_⟩
    have hfree := List.all_eq_true.mp hname.2 c hc
    rw [Bool.not_eq_true', List.contains_eq_mem, decide_eq_false_iff_not] at hfree
    exact hfree hmem
  apply CString.strtok_intercalate
  · exact List.cons_ne_nil _ _
  · intro c h
    exact h
  · intro name h
    exact words name (known name h)

/-- What is left of a mask when a disallow list has been gone through. -/
theorem members_disallow {toks : List String} {valid valid' : BitVec 64}
    (h : disallow weaponAttrs toks valid = some valid') :
    members valid' = {j ∈ members valid | ∀ d, Names toks d → ¬ Touches d j} := by
  induction toks generalizing valid with
  | nil =>
      obtain rfl : valid = valid' := Option.some.inj h
      ext j
      constructor
      · intro hj
        refine ⟨hj, ?_⟩
        rintro d ⟨name, none, -⟩
        contradiction
      · rintro ⟨hj, -⟩
        exact hj
  | cons tok toks ih =>
      rw [disallow] at h
      cases found : weaponAttrs.idxOf? tok with
      | none =>
          rw [found] at h
          contradiction
      | some i =>
          rw [found] at h
          rw [ih h, members_clearBit]
          ext j
          simp only [Set.mem_ofPred_eq, names_cons found]
          constructor
          · rintro ⟨⟨hj, first⟩, rest⟩
            refine ⟨hj, ?_⟩
            rintro d (rfl | hd)
            · exact first
            · exact rest d hd
          · rintro ⟨hj, all⟩
            exact ⟨⟨hj, all i (Or.inl rfl)⟩, fun d hd => all d (Or.inr hd)⟩

/-- Where the mask answers for an attribute as the list asks for: the attributes that
are 32 apart from it do not interfere. -/
def Unmixed (disallows : Nat → Prop) (a : Nat) : Prop :=
  (a ≤ 8 → disallows (a + 32) → disallows a) ∧ (32 ≤ a → disallows (a - 32) → disallows a)

/-- The mask of a disallow list that starts from all attributes lets one pass when
neither it nor one that is 32 apart from it is in the list. -/
theorem attributeValid_iff {toks : List String} {valid : BitVec 64} {a : Nat} (inside : a ≤ 40)
    (h : disallow weaponAttrs toks fullAttrValid = some valid) :
    attributeValid valid a = true ↔
      ¬ Names toks a ∧ (a ≤ 8 → ¬ Names toks (a + 32)) ∧ (32 ≤ a → ¬ Names toks (a - 32)) := by
  have some_bit : attributeValid valid a = true ↔
      ∃ j, (j < 41 ∧ ∀ d, Names toks d → ¬ Touches d j) ∧ Touches a j := by
    rw [attributeValid, Bool.and_eq_true, decide_eq_true_eq, decide_eq_true_eq,
      BitMask.ne_zero_iff, BitMask.members_and, members_disallow h]
    simp only [Set.mem_inter_iff, Set.mem_ofPred_eq, mem_fullAttrValid, mem_intShift]
    exact and_iff_right inside
  rw [some_bit]
  constructor
  · rintro ⟨j, ⟨hj, free⟩, ⟨-, here⟩⟩
    by_cases sign : a = 31
    · subst sign
      refine ⟨?_, by omega, by omega⟩
      intro named
      exact free 31 named ⟨by omega, here⟩
    · rw [if_neg (by omega)] at here
      have apart : ∀ d, Names toks d → d % 32 ≠ a % 32 := by
        intro d hd same
        have hbound := hd.le
        apply free d hd
        refine ⟨by omega, ?_⟩
        rw [if_neg (by omega)]
        omega
      refine ⟨?_, ?_, ?_⟩
      · intro named
        exact apart a named rfl
      · intro low named
        exact apart (a + 32) named (by omega)
      · intro high named
        exact apart (a - 32) named (by omega)
  · rintro ⟨itself, above, below⟩
    refine ⟨a % 32, ⟨by omega, ?_⟩, ⟨by omega, ?_⟩⟩
    · rintro d hd ⟨-, here⟩
      have hbound := hd.le
      by_cases sign : d % 32 = 31
      · rw [if_pos sign] at here
        have same : d = a := by omega
        exact itself (same ▸ hd)
      · rw [if_neg sign] at here
        rcases Nat.lt_trichotomy d a with less | same | more
        · have apart : d = a - 32 := by omega
          exact below (by omega) (apart ▸ hd)
        · exact itself (same ▸ hd)
        · have apart : d = a + 32 := by omega
          exact above (by omega) (apart ▸ hd)
    · by_cases sign : a % 32 = 31
      · rw [if_pos sign]
        omega
      · rw [if_neg sign]

/-! ## The weapons that a document lists -/

/-- The weapon that an item element of a document stands for, when it does and its
handler accepts it. -/
def weaponOf (swap : Bool) : Node → Option Weapon
  | .other => none
  | .element name props children =>
      if name = "item" then
        match itemCodeOf props swap with
        | .error _ => none
        | .ok code =>
            if code &&& 0xFF = 0x00 then (readWeapon code children).toOption else none
      else none

theorem ok_of_map {α β : Type} {read : Except Int α} {f : α → β} {y : β}
    (h : read.map f = .ok y) : ∃ x, read = .ok x ∧ f x = y := by
  cases read with
  | error rv => contradiction
  | ok x => exact ⟨x, rfl, Except.ok.inj h⟩

/-- Only weapons come into the list of weapons. -/
theorem handleItem_weapons {props : Props} {children : List Node} {l l' : Limits} {swap : Bool}
    (h : handleItem props children l swap = .ok l') :
    l'.weapons = l.weapons ++ (weaponOf swap (.element "item" props children)).toList := by
  rw [weaponOf, if_pos rfl]
  rw [handleItem] at h
  cases read : itemCodeOf props swap with
  | error rv =>
      rw [read] at h
      contradiction
  | ok code =>
      simp only [read] at h ⊢
      by_cases weapon : code &&& 0xFF = 0x00
      · rw [if_pos weapon] at h ⊢
        obtain ⟨w, hw, rfl⟩ := ok_of_map h
        rw [hw]
        rfl
      · rw [if_neg weapon] at h ⊢
        rw [Option.toList_none, List.append_nil]
        split_ifs at h
        · obtain ⟨g, -, rfl⟩ := ok_of_map h
          rfl
        · obtain ⟨m, -, rfl⟩ := ok_of_map h
          rfl
        · obtain ⟨t, -, rfl⟩ := ok_of_map h
          rfl

/-- The list of weapons is that of the weapons in the document, in its order. -/
theorem readChildren_weapons {swap : Bool} {ns : List Node} {l l' : Limits}
    (h : readChildren swap ns l = .ok l') :
    l'.weapons = l.weapons ++ ns.filterMap (weaponOf swap) := by
  induction ns generalizing l with
  | nil =>
      obtain rfl := Except.ok.inj h
      rw [List.filterMap_nil, List.append_nil]
  | cons n ns ih =>
      cases n with
      | other => exact ih h
      | element name props children =>
          rw [readChildren] at h
          by_cases item : name = "item"
          · subst item
            rw [if_pos rfl] at h
            cases handled : handleItem props children l swap with
            | error rv =>
                rw [handled] at h
                contradiction
            | ok l₁ =>
                rw [handled] at h
                rw [ih h, handleItem_weapons handled, List.append_assoc, List.filterMap_cons]
                cases weaponOf swap (.element "item" props children) with
                | none => rfl
                | some w => rfl
          · have skipped : weaponOf swap (.element name props children) = none := by
              rw [weaponOf, if_neg item]
            rw [if_neg item] at h
            rw [List.filterMap_cons_none skipped]
            by_cases pbs : name = "pbs"
            · rw [if_pos pbs] at h
              cases handled : handlePbs props l.defaultCpb l.defaultRpb l.defaultLpb with
              | none =>
                  rw [handled] at h
                  contradiction
              | some v =>
                  rw [handled] at h
                  have tail := ih h
                  exact tail
            · rw [if_neg pbs] at h
              by_cases colors : name = "colors"
              · rw [if_pos colors] at h
                cases handled : handleColors props with
                | none =>
                    rw [handled] at h
                    contradiction
                | some v =>
                    rw [handled] at h
                    have tail := ih h
                    exact tail
              · rw [if_neg colors] at h
                exact ih h

/-! ## The disallow lists of a weapon -/

/-- The attributes that the children of an item disallow, in all their lists. -/
def disallowedNames : List Node → List String
  | [] => []
  | .other :: ns => disallowedNames ns
  | .element name props _ :: ns =>
      if name = "attributes" then
        disallowed ((xmlGetProp props "disallow").getD "") ++ disallowedNames ns
      else disallowedNames ns

theorem disallow_append {w : Nat} {names toks toks' : List String} {valid : BitVec w} :
    disallow names (toks ++ toks') valid = (disallow names toks valid).bind
      (disallow names toks') := by
  induction toks generalizing valid with
  | nil => rfl
  | cons tok toks ih =>
      rw [List.cons_append, disallow, disallow]
      cases names.idxOf? tok with
      | none => rfl
      | some i => exact ih

theorem handleChild_own {α : Type} {tags : List (Tag α)} {common : String → Props → α → Option α}
    {unknown : Int} {name : String} {props : Props} {item item' : α} {tag : Tag α}
    (own : tags.find? (fun tag => tag.name = name) = some tag)
    (h : handleChild tags common unknown name props item = .ok item') :
    tag.handle props item = some item' := by
  rw [handleChild, own] at h
  cases handled : tag.handle props item with
  | none =>
      simp only [handled] at h
      contradiction
  | some item₁ =>
      simp only [handled] at h
      rw [Except.ok.inj h]

theorem handleChild_common {α : Type} {tags : List (Tag α)}
    {common : String → Props → α → Option α} {unknown : Int} {name : String} {props : Props}
    {item item' : α} (other : tags.find? (fun tag => tag.name = name) = none)
    (h : handleChild tags common unknown name props item = .ok item') :
    common name props item = some item' := by
  rw [handleChild, other] at h
  cases handled : common name props item with
  | none =>
      simp only [handled] at h
      contradiction
  | some item₁ =>
      simp only [handled] at h
      rw [Except.ok.inj h]

theorem handleChild_disallow {name : String} {props : Props} {w w' : Weapon}
    (h : handleChild weaponTags weaponCommonTag (-4) name props w = .ok w') :
    disallow weaponAttrs (if name = "attributes" then
      disallowed ((xmlGetProp props "disallow").getD "") else []) w.validAttrs =
        some w'.validAttrs := by
  by_cases grind : name = "grind"
  · subst grind
    obtain ⟨b, -, rfl⟩ := Option.map_eq_some_iff.mp (handleChild_own rfl h)
    rfl
  by_cases percents : name = "percents"
  · subst percents
    obtain ⟨b, -, rfl⟩ := Option.map_eq_some_iff.mp (handleChild_own rfl h)
    rfl
  by_cases attributes : name = "attributes"
  · subst attributes
    obtain ⟨validAttrs, ha, rfl⟩ := Option.map_eq_some_iff.mp (handleChild_own rfl h)
    rw [if_pos rfl]
    rw [handleAttributes] at ha
    cases list : xmlGetProp props "disallow" with
    | none =>
        rw [list] at ha
        contradiction
    | some attr =>
        rw [list] at ha
        exact ha
  · have other : weaponTags.find? (fun tag => tag.name = name) = none := by
      simp [weaponTags, Ne.symm grind, Ne.symm percents, Ne.symm attributes]
    rw [if_neg attributes]
    obtain ⟨base, -, rfl⟩ := Option.map_eq_some_iff.mp (handleChild_common other h)
    rfl

/-- The mask of a weapon is what its disallow lists make of the mask at the start, as
no other tag touches it. -/
theorem handleWeapon_disallow {ns : List Node} {w w' : Weapon} (h : handleWeapon ns w = .ok w') :
    disallow weaponAttrs (disallowedNames ns) w.validAttrs = some w'.validAttrs := by
  induction ns generalizing w with
  | nil =>
      obtain rfl := Except.ok.inj h
      rfl
  | cons n ns ih =>
      cases n with
      | other => exact ih h
      | element name props children =>
          rw [handleWeapon, handleChildren] at h
          cases handled : handleChild weaponTags weaponCommonTag (-4) name props w with
          | error rv =>
              rw [handled] at h
              contradiction
          | ok w₁ =>
              rw [handled] at h
              have first := handleChild_disallow handled
              have rest := ih h
              rw [disallowedNames]
              by_cases attributes : name = "attributes"
              · rw [if_pos attributes] at first ⊢
                rw [disallow_append, first]
                exact rest
              · rw [if_neg attributes] at first ⊢
                rw [Option.some.inj first]
                exact rest

/-! ## The entry for an item -/

/-- The attributes that an item of the document disallows. -/
def Disallows : Node → Nat → Prop
  | .other, _ => False
  | .element _ _ children, d => Names (disallowedNames children) d

/-- The node is the weapon of the document that an item is checked against: the first
one that applies to it. -/
structure IsEntry (swap : Bool) (ns : List Node) (ic version : UInt32) (n : Node) (w : Weapon) :
    Prop where
  weapon : weaponOf swap n = some w
  applies : w.toItemBase.applies ic version = true
  first : ∃ before after, ns = before ++ n :: after ∧
    ∀ m ∈ before, ∀ w', weaponOf swap m = some w' → w'.toItemBase.applies ic version = false

theorem IsEntry.find {swap : Bool} {ns : List Node} {ic version : UInt32} {n : Node} {w : Weapon}
    (h : IsEntry swap ns ic version n w) :
    (ns.filterMap (weaponOf swap)).find? (fun w => w.toItemBase.applies ic version) = some w := by
  obtain ⟨before, after, rfl, skipped⟩ := h.first
  have none_before : (before.filterMap (weaponOf swap)).find?
      (fun w => w.toItemBase.applies ic version) = none := by
    rw [List.find?_eq_none]
    intro w' hw'
    obtain ⟨m, hm, read⟩ := List.mem_filterMap.mp hw'
    rw [skipped m hm w' read]
    exact Bool.false_ne_true
  rw [List.filterMap_append, List.filterMap_cons_some h.weapon, List.find?_append, none_before,
    Option.none_or, List.find?_cons, h.applies]

/-- The mask of a weapon of the document is what its disallow lists leave of all. -/
theorem weaponOf_disallow {swap : Bool} {n : Node} {w : Weapon} (h : weaponOf swap n = some w) :
    ∃ toks, disallow weaponAttrs toks fullAttrValid = some w.validAttrs ∧
      ∀ d, Disallows n d ↔ Names toks d := by
  cases n with
  | other => contradiction
  | element name props children =>
      rw [weaponOf] at h
      by_cases item : name = "item"
      · rw [if_pos item] at h
        cases read : itemCodeOf props swap with
        | error rv =>
            rw [read] at h
            contradiction
        | ok code =>
            simp only [read] at h
            split_ifs at h
            cases handled : handleWeapon children
                { itemCode := code, validAttrs := fullAttrValid } with
            | error rv =>
                rw [readWeapon, handled] at h
                contradiction
            | ok w₁ =>
                rw [readWeapon, handled] at h
                obtain rfl : w₁ = w := Option.some.inj h
                exact ⟨disallowedNames children, handleWeapon_disallow handled, fun _ => Iff.rfl⟩
      · rw [if_neg item] at h
        contradiction

/-- The item codes of the document are to be swapped. -/
def swaps (props : Props) : Bool := xmlGetProp props "byteorder" = some "big"

theorem sylverantReadLimits_weapons {name : String} {props : Props} {ns : List Node} {l : Limits}
    (h : sylverantReadLimits (.element name props ns) = .ok l) :
    l.weapons = ns.filterMap (weaponOf (swaps props)) := by
  rw [sylverantReadLimits] at h
  split_ifs at h with root
  cases bo : xmlGetProp props "byteorder" with
  | none => simp [bo] at h
  | some byteorder =>
      cases def_act : xmlGetProp props "default" with
      | none => simp [bo, def_act] at h
      | some defAct =>
          cases sr : xmlGetProp props "check_sranks" with
          | none => simp [bo, def_act, sr] at h
          | some srank =>
              cases pb : xmlGetProp props "check_pbs" with
              | none => simp [bo, def_act, sr, pb] at h
              | some pbs =>
                  simp only [bo, def_act, sr, pb] at h
                  have read := readChildren_weapons h
                  rw [read]
                  simp [startLimits, swaps, bo]

/-- The item passes all checks of weapons but the one of its attribute. -/
structure Passes (l : Limits) (w : Weapon) (i : IItem) (ic : UInt32) : Prop where
  autoReject : w.autoReject = false
  srank : srankRejects l i ic = false
  duplicates : (!isNamedSrank i ic && duplicatePercents i) = false
  grind : grindRejects w i = false
  percents : (!isNamedSrank i ic && percentsReject w i) = false

/-- A weapon that passes the other checks is accepted when the mask of its entry lets
its attribute pass. -/
theorem checkItem_eq_one_iff {l : Limits} {i : IItem} {version : UInt32} {w : Weapon}
    (weapon : itemCode i &&& 0xFF = 0x00)
    (entry : l.weapons.find? (fun w => w.toItemBase.applies (weaponCode i (itemCode i)) version) =
      some w)
    (passes : Passes l w i (weaponCode i (itemCode i))) :
    sylverantLimitsCheckItem l i version ≠ 0 ↔
      attributeValid w.validAttrs (attributeOf i) = true := by
  rw [sylverantLimitsCheckItem, if_pos weapon, checkWeapon]
  simp only [passes.srank, passes.duplicates, entry, passes.autoReject, passes.grind,
    passes.percents, Bool.false_eq_true, if_false]
  cases attributeValid w.validAttrs (attributeOf i) with
  | false => simp
  | true => simp

/-- A weapon that matches an entry of the document, and passes the other checks, is
accepted exactly when the entry does not disallow its attribute, if and only if the list
treats the attribute that is 32 apart from it alike: when the other one is disallowed,
so is it. -/
theorem attributes_exact_iff {name : String} {props : Props} {ns : List Node} {l : Limits}
    (read : sylverantReadLimits (.element name props ns) = .ok l) {i : IItem} {version : UInt32}
    (weapon : itemCode i &&& 0xFF = 0x00) {n : Node} {w : Weapon}
    (entry : IsEntry (swaps props) ns (weaponCode i (itemCode i)) version n w)
    (passes : Passes l w i (weaponCode i (itemCode i))) (known : attributeOf i ≤ 40) :
    (sylverantLimitsCheckItem l i version ≠ 0 ↔ ¬ Disallows n (attributeOf i)) ↔
      Unmixed (Disallows n) (attributeOf i) := by
  have found : l.weapons.find?
      (fun w => w.toItemBase.applies (weaponCode i (itemCode i)) version) = some w := by
    rw [sylverantReadLimits_weapons read]
    exact entry.find
  obtain ⟨toks, mask, same⟩ := weaponOf_disallow entry.weapon
  rw [checkItem_eq_one_iff weapon found passes, attributeValid_iff known mask, Unmixed]
  simp only [same]
  constructor
  · intro exact_here
    constructor
    · intro low above
      by_contra allowed
      exact (exact_here.mpr allowed).2.1 low above
    · intro high below
      by_contra allowed
      exact (exact_here.mpr allowed).2.2 high below
  · rintro ⟨low, high⟩
    constructor
    · intro accepted
      exact accepted.1
    · intro allowed
      exact ⟨allowed, fun h above => allowed (low h above), fun h below => allowed (high h below)⟩

/-- A weapon that may not have the attribute Shadow, which has the number 32. -/
def shadowlessEntry : Node :=
  .element "item" [("code", "000100")]
    [.element "versions" [("v1", "true"), ("v2", "true"), ("gc", "true")] [],
      .element "grind" [("max", "35")] [], .element "attributes" [("disallow", "Shadow")] []]

def shadowlessProps : Props :=
  [("byteorder", "little"), ("default", "reject"), ("check_sranks", "true"), ("check_pbs", "true")]

def shadowlessWeapon : Weapon where
  itemCode := 0x000100
  versions := 0x07
  grind := { max := 35 }
  validAttrs := 0x1FFFFFFFFFE

def shadowlessLimits : Limits where
  weapons := [shadowlessWeapon]
  defaultBehavior := 0
  checkSrankNames := true
  checkPbs := true

/-- The weapon with the attribute of a number, and nothing else. -/
def plain (attr : UInt8) : IItem where
  dataB := #v[0x00, 0x01, 0x00, 0x00, attr, 0, 0, 0, 0, 0, 0, 0]

theorem shadowless_read :
    sylverantReadLimits (.element "items" shadowlessProps [shadowlessEntry]) =
      .ok shadowlessLimits := by rfl

theorem plain_code {attr : UInt8} (h : attr = 0 ∨ attr = 1) :
    weaponCode (plain attr) (itemCode (plain attr)) = 0x000100 := by
  rcases h with rfl | rfl
  · decide
  · decide

theorem shadowless_entry :
    IsEntry (swaps shadowlessProps) [shadowlessEntry] 0x000100 0x04 shadowlessEntry
      shadowlessWeapon where
  weapon := rfl
  applies := rfl
  first := ⟨[], [], rfl, fun _ none => absurd none List.not_mem_nil⟩

theorem shadowless_passes {attr : UInt8} (h : attr = 0 ∨ attr = 1) :
    Passes shadowlessLimits shadowlessWeapon (plain attr) 0x000100 := by
  rcases h with rfl | rfl
  · exact ⟨rfl, by decide, by decide, by decide, by decide⟩
  · exact ⟨rfl, by decide, by decide, by decide, by decide⟩

/-- What is said of the attributes of weapons: an entry lets through all but those that
it disallows. -/
def AttributesExact : Prop :=
  ∀ (name : String) (props : Props) (ns : List Node) (l : Limits) (i : IItem) (version : UInt32)
    (n : Node) (w : Weapon), sylverantReadLimits (.element name props ns) = .ok l →
    itemCode i &&& 0xFF = 0x00 →
    IsEntry (swaps props) ns (weaponCode i (itemCode i)) version n w →
    Passes l w i (weaponCode i (itemCode i)) → attributeOf i ≤ 40 →
    (sylverantLimitsCheckItem l i version ≠ 0 ↔ ¬ Disallows n (attributeOf i))

theorem disallows_shadowless {d : Nat} : Disallows shadowlessEntry d ↔ d = 32 := by
  have list : disallowedNames [.element "versions" [("v1", "true"), ("v2", "true"),
      ("gc", "true")] [], .element "grind" [("max", "35")] [],
      .element "attributes" [("disallow", "Shadow")] []] = ["Shadow"] := by decide
  rw [shadowlessEntry, Disallows, list]
  have found : weaponAttrs.idxOf? "Shadow" = some 32 := by decide
  rw [names_cons found]
  constructor
  · rintro (same | ⟨name, none, -⟩)
    · exact same
    · contradiction
  · exact Or.inl

/-- Without Shadow, no weapon without an attribute is accepted either. -/
theorem not_attributesExact : ¬ AttributesExact := by
  intro exact
  have here := exact "items" shadowlessProps [shadowlessEntry] shadowlessLimits (plain 0) 0x04
    shadowlessEntry shadowlessWeapon shadowless_read (by decide)
    (plain_code (Or.inl rfl) ▸ shadowless_entry)
    (plain_code (Or.inl rfl) ▸ shadowless_passes (Or.inl rfl)) (by decide)
  have allowed : ¬ Disallows shadowlessEntry (attributeOf (plain 0)) := by
    rw [disallows_shadowless]
    decide
  exact absurd (here.mpr allowed) (by decide)

theorem attributes_exact_iff_shadowless :
    (sylverantLimitsCheckItem shadowlessLimits (plain 1) 0x04 ≠ 0 ↔
      ¬ Disallows shadowlessEntry (attributeOf (plain 1))) ↔
        Unmixed (Disallows shadowlessEntry) (attributeOf (plain 1)) :=
  attributes_exact_iff shadowless_read (by decide) (plain_code (Or.inr rfl) ▸ shadowless_entry)
    (plain_code (Or.inr rfl) ▸ shadowless_passes (Or.inr rfl)) (by decide)

end Sylverant.Items
