import Mathlib.Data.List.Nodup
import Brainslug.JsonReader

/-! The parser decides the grammar: soundness and completeness by induction on the fuel, and fuel enough for
every stream of tokens. -/

namespace Brainslug.Json.Reader

variable {format : NumberFormat}

theorem matchExpectedToken_eq_ok {nExpected : TokenType} {tokens rest : TokenStream} {sValue : String}
    (h : matchExpectedToken nExpected tokens = .ok (sValue, rest)) :
    ∃ token, tokens = token :: rest ∧ token.nType = nExpected ∧ token.sValue = sValue := by
  cases tokens with
  | nil => cases h
  | cons token tokens =>
      rw [matchExpectedToken] at h
      split_ifs at h with htype
      obtain ⟨hvalue, hrest⟩ := Prod.mk.inj (Except.ok.inj h)
      exact ⟨token, by rw [hrest], htype, hvalue⟩

theorem matchExpectedToken_cons {nExpected : TokenType} {token : Token} (htype : token.nType = nExpected)
    (rest : TokenStream) : matchExpectedToken nExpected (token :: rest) = .ok (token.sValue, rest) := if_pos htype

theorem nextIs_cons (nType : TokenType) (token : Token) (rest : TokenStream) :
    nextIs nType (token :: rest) = decide (token.nType = nType) := rfl

theorem nextIsNot_cons (nType : TokenType) (token : Token) (rest : TokenStream) :
    nextIsNot nType (token :: rest) = decide (token.nType ≠ nType) := rfl

theorem insert_eq_ok {o o' : Object} {name : String} {element : UnknownElement}
    (h : Object.insert o name element = .ok o') : name ∉ o.map Prod.fst ∧ o' = o ++ [(name, element)] := by
  rw [Object.insert] at h
  split_ifs at h with hmem
  exact ⟨hmem, (Except.ok.inj h).symm⟩

theorem wellFormed_object {members : List (String × UnknownElement)} :
    (UnknownElement.object members).WellFormed ↔ (members.map Prod.fst).Nodup ∧ membersWellFormed members := by
  rw [UnknownElement.WellFormed]

theorem wellFormed_array {elements : List UnknownElement} :
    (UnknownElement.array elements).WellFormed ↔ elementsWellFormed elements := by
  rw [UnknownElement.WellFormed]

/-! ### Soundness -/

/-- What a parse with this fuel returns was spelled by the tokens that it took. -/
structure Sound (format : NumberFormat) (fuel : Nat) : Prop where
  element : ∀ {tokens rest e}, parseElement format fuel tokens = .ok (e, rest) →
    ∃ pre, tokens = pre ++ rest ∧ Spells format e pre ∧ e.WellFormed
  object : ∀ {object object' tokens rest}, (object.map Prod.fst).Nodup →
    parseObject format fuel object tokens = .ok (object', rest) →
    ∃ members pre, object' = object ++ members ∧ tokens = pre ++ rest ∧ Spells format (.object members) pre ∧
      membersWellFormed members ∧ (object'.map Prod.fst).Nodup
  members : ∀ {object object' tokens rest}, (object.map Prod.fst).Nodup →
    parseMembers format fuel object tokens = .ok (object', rest) →
    ∃ members pre, object' = object ++ members ∧ tokens = pre ++ rest ∧ SpellsMembers format members pre ∧
      membersWellFormed members ∧ (object'.map Prod.fst).Nodup
  array : ∀ {array tokens rest}, parseArray format fuel tokens = .ok (array, rest) →
    ∃ pre, tokens = pre ++ rest ∧ Spells format (.array array) pre ∧ elementsWellFormed array
  elements : ∀ {array array' tokens rest}, parseElements format fuel array tokens = .ok (array', rest) →
    ∃ elements pre, array' = array ++ elements ∧ tokens = pre ++ rest ∧ SpellsElements format elements pre ∧
      elementsWellFormed elements

theorem sound_parseNumber {tokens rest : TokenStream} {bits : UInt64}
    (h : parseNumber format tokens = .ok (bits, rest)) :
    ∃ token, tokens = token :: rest ∧ token.nType = .number ∧ format.read token.sValue = some bits := by
  cases tokens with
  | nil => cases h
  | cons currentToken tokens =>
      obtain ⟨⟨sValue, tokens'⟩, hmatch, hread⟩ := exists_of_bind_ok h
      obtain ⟨token, heq, htype, rfl⟩ := matchExpectedToken_eq_ok hmatch
      cases hbits : format.read token.sValue with
      | none =>
          simp only [hbits] at hread
          cases hread
      | some bits' =>
          simp only [hbits] at hread
          obtain ⟨rfl, rfl⟩ := Prod.mk.inj (Except.ok.inj hread)
          exact ⟨token, heq, htype, hbits⟩

theorem sound_parseObject {fuel : Nat} (ih : Sound format fuel) {object object' : Object} {tokens rest : TokenStream}
    (hnodup : (object.map Prod.fst).Nodup) (h : parseObject format (fuel + 1) object tokens = .ok (object', rest)) :
    ∃ members pre, object' = object ++ members ∧ tokens = pre ++ rest ∧ Spells format (.object members) pre ∧
      membersWellFormed members ∧ (object'.map Prod.fst).Nodup := by
  rw [parseObject] at h
  obtain ⟨⟨_, tokens1⟩, hbegin, h1⟩ := exists_of_bind_ok h
  obtain ⟨⟨object1, tokens2⟩, hloop, h2⟩ := exists_of_bind_ok h1
  obtain ⟨⟨_, tokens3⟩, hend, hreturn⟩ := exists_of_bind_ok h2
  obtain ⟨rfl, rfl⟩ := Prod.mk.inj (Except.ok.inj hreturn)
  obtain ⟨first, rfl, hfirst, -⟩ := matchExpectedToken_eq_ok hbegin
  obtain ⟨last, rfl, hlast, -⟩ := matchExpectedToken_eq_ok hend
  split_ifs at hloop with hnext
  · obtain ⟨members, pre, rfl, rfl, hspells, hwell, hnodup'⟩ := ih.members hnodup hloop
    refine ⟨members, first :: (pre ++ [last]), rfl, ?_, .object hfirst hspells hlast, hwell, hnodup'⟩
    rw [List.cons_append, List.append_assoc, List.singleton_append]
  · obtain ⟨rfl, rfl⟩ := Prod.mk.inj (Except.ok.inj hloop)
    refine ⟨[], [first, last], (List.append_nil _).symm, rfl, .emptyObject hfirst hlast, ?_, hnodup⟩
    rw [membersWellFormed]
    trivial

theorem sound_parseArray {fuel : Nat} (ih : Sound format fuel) {array : List UnknownElement}
    {tokens rest : TokenStream} (h : parseArray format (fuel + 1) tokens = .ok (array, rest)) :
    ∃ pre, tokens = pre ++ rest ∧ Spells format (.array array) pre ∧ elementsWellFormed array := by
  rw [parseArray] at h
  obtain ⟨⟨_, tokens1⟩, hbegin, h1⟩ := exists_of_bind_ok h
  obtain ⟨⟨array1, tokens2⟩, hloop, h2⟩ := exists_of_bind_ok h1
  obtain ⟨⟨_, tokens3⟩, hend, hreturn⟩ := exists_of_bind_ok h2
  obtain ⟨rfl, rfl⟩ := Prod.mk.inj (Except.ok.inj hreturn)
  obtain ⟨first, rfl, hfirst, -⟩ := matchExpectedToken_eq_ok hbegin
  obtain ⟨last, rfl, hlast, -⟩ := matchExpectedToken_eq_ok hend
  split_ifs at hloop with hnext
  · obtain ⟨elements, pre, rfl, rfl, hspells, hwell⟩ := ih.elements hloop
    refine ⟨first :: (pre ++ [last]), ?_, .array hfirst hspells hlast, hwell⟩
    rw [List.cons_append, List.append_assoc, List.singleton_append]
  · obtain ⟨rfl, rfl⟩ := Prod.mk.inj (Except.ok.inj hloop)
    refine ⟨[first, last], rfl, .emptyArray hfirst hlast, ?_⟩
    rw [elementsWellFormed]
    trivial

theorem nodup_append_singleton {object : Object} {name : String} (element : UnknownElement)
    (hnodup : (object.map Prod.fst).Nodup) (hnew : name ∉ object.map Prod.fst) :
    ((object ++ [(name, element)]).map Prod.fst).Nodup := by
  rw [List.map_append, List.map_singleton]
  refine List.nodup_append.mpr ⟨hnodup, List.nodup_singleton _, fun a ha b hb heq => hnew ?_⟩
  obtain rfl := List.mem_singleton.mp hb
  exact heq ▸ ha

theorem sound_parseMembers {fuel : Nat} (ih : Sound format fuel) {object object' : Object}
    {tokens rest : TokenStream} (hnodup : (object.map Prod.fst).Nodup)
    (h : parseMembers format (fuel + 1) object tokens = .ok (object', rest)) :
    ∃ members pre, object' = object ++ members ∧ tokens = pre ++ rest ∧ SpellsMembers format members pre ∧
      membersWellFormed members ∧ (object'.map Prod.fst).Nodup := by
  cases tokens with
  | nil => cases h
  | cons tokenName tokens =>
      rw [parseMembers] at h
      obtain ⟨⟨_, tokens1⟩, hname, h1⟩ := exists_of_bind_ok h
      obtain ⟨⟨_, tokens2⟩, hassign, h2⟩ := exists_of_bind_ok h1
      obtain ⟨⟨element, tokens3⟩, helement, h3⟩ := exists_of_bind_ok h2
      obtain ⟨name, heqName, hnameType, rfl⟩ := matchExpectedToken_eq_ok hname
      obtain ⟨rfl, rfl⟩ := List.cons.inj heqName
      obtain ⟨assign, rfl, hassignType, -⟩ := matchExpectedToken_eq_ok hassign
      obtain ⟨pre, rfl, hspells, hwell⟩ := ih.element helement
      cases hinsert : Object.insert object tokenName.sValue element with
      | error e =>
          simp only [hinsert] at h3
          cases h3
      | ok object1 =>
          simp only [hinsert] at h3
          obtain ⟨hnew, rfl⟩ := insert_eq_ok hinsert
          have hnodup1 := nodup_append_singleton element hnodup hnew
          split_ifs at h3 with hcomma
          · obtain ⟨⟨_, tokens4⟩, hmatch, h4⟩ := exists_of_bind_ok h3
            obtain ⟨comma, rfl, hcommaType, -⟩ := matchExpectedToken_eq_ok hmatch
            obtain ⟨members, pre', rfl, rfl, hspells', hwell', hnodup'⟩ := ih.members hnodup1 h4
            refine ⟨(tokenName.sValue, element) :: members, _, by rw [List.append_assoc]; rfl, ?_,
              .cons hnameType hassignType hspells hcommaType hspells', ?_, hnodup'⟩
            · simp
            · rw [membersWellFormed]
              exact ⟨hwell, hwell'⟩
          · obtain ⟨rfl, rfl⟩ := Prod.mk.inj (Except.ok.inj h3)
            refine ⟨[(tokenName.sValue, element)], _, rfl, ?_, .last hnameType hassignType hspells, ?_, hnodup1⟩
            · simp
            · rw [membersWellFormed, membersWellFormed]
              exact ⟨hwell, trivial⟩

theorem sound_parseElements {fuel : Nat} (ih : Sound format fuel) {array array' : List UnknownElement}
    {tokens rest : TokenStream} (h : parseElements format (fuel + 1) array tokens = .ok (array', rest)) :
    ∃ elements pre, array' = array ++ elements ∧ tokens = pre ++ rest ∧ SpellsElements format elements pre ∧
      elementsWellFormed elements := by
  rw [parseElements] at h
  obtain ⟨⟨element, tokens1⟩, helement, h1⟩ := exists_of_bind_ok h
  obtain ⟨pre, rfl, hspells, hwell⟩ := ih.element helement
  dsimp only at h1
  split_ifs at h1 with hcomma
  · obtain ⟨⟨_, tokens2⟩, hmatch, h2⟩ := exists_of_bind_ok h1
    obtain ⟨comma, rfl, hcommaType, -⟩ := matchExpectedToken_eq_ok hmatch
    obtain ⟨elements, pre', rfl, rfl, hspells', hwell'⟩ := ih.elements h2
    refine ⟨element :: elements, _, by rw [List.append_assoc]; rfl, ?_, .cons hspells hcommaType hspells', ?_⟩
    · simp
    · rw [elementsWellFormed]
      exact ⟨hwell, hwell'⟩
  · obtain ⟨rfl, rfl⟩ := Prod.mk.inj (Except.ok.inj h1)
    refine ⟨[element], pre, rfl, rfl, .last hspells, ?_⟩
    rw [elementsWellFormed, elementsWellFormed]
    exact ⟨hwell, trivial⟩

theorem sound_parseElement {fuel : Nat} (ih : Sound format fuel) {e : UnknownElement} {tokens rest : TokenStream}
    (h : parseElement format (fuel + 1) tokens = .ok (e, rest)) :
    ∃ pre, tokens = pre ++ rest ∧ Spells format e pre ∧ e.WellFormed := by
  cases tokens with
  | nil => cases h
  | cons token tokens =>
      rw [parseElement] at h
      split at h
      · obtain ⟨⟨object, tokens'⟩, hparse, hreturn⟩ := exists_of_bind_ok h
        obtain ⟨rfl, rfl⟩ := Prod.mk.inj (Except.ok.inj hreturn)
        obtain ⟨members, pre, rfl, heq, hspells, hwell, hnodup⟩ := ih.object (by exact List.nodup_nil) hparse
        exact ⟨pre, heq, hspells, wellFormed_object.mpr ⟨hnodup, hwell⟩⟩
      · obtain ⟨⟨array, tokens'⟩, hparse, hreturn⟩ := exists_of_bind_ok h
        obtain ⟨rfl, rfl⟩ := Prod.mk.inj (Except.ok.inj hreturn)
        obtain ⟨pre, heq, hspells, hwell⟩ := ih.array hparse
        exact ⟨pre, heq, hspells, wellFormed_array.mpr hwell⟩
      · obtain ⟨⟨sValue, tokens'⟩, hmatch, hreturn⟩ := exists_of_bind_ok h
        obtain ⟨rfl, rfl⟩ := Prod.mk.inj (Except.ok.inj hreturn)
        obtain ⟨token', heq, htype, rfl⟩ := matchExpectedToken_eq_ok hmatch
        exact ⟨[token'], heq, .string htype, trivial⟩
      · obtain ⟨⟨bits, tokens'⟩, hparse, hreturn⟩ := exists_of_bind_ok h
        obtain ⟨rfl, rfl⟩ := Prod.mk.inj (Except.ok.inj hreturn)
        obtain ⟨token', heq, htype, hread⟩ := sound_parseNumber hparse
        exact ⟨[token'], heq, .number htype hread, trivial⟩
      · obtain ⟨⟨sValue, tokens'⟩, hmatch, hreturn⟩ := exists_of_bind_ok h
        obtain ⟨rfl, rfl⟩ := Prod.mk.inj (Except.ok.inj hreturn)
        obtain ⟨token', heq, htype, rfl⟩ := matchExpectedToken_eq_ok hmatch
        exact ⟨[token'], heq, .boolean htype, trivial⟩
      · obtain ⟨⟨sValue, tokens'⟩, hmatch, hreturn⟩ := exists_of_bind_ok h
        obtain ⟨rfl, rfl⟩ := Prod.mk.inj (Except.ok.inj hreturn)
        obtain ⟨token', heq, htype, -⟩ := matchExpectedToken_eq_ok hmatch
        exact ⟨[token'], heq, .null htype, trivial⟩
      · cases h

theorem sound (format : NumberFormat) (fuel : Nat) : Sound format fuel := by
  induction fuel with
  | zero => constructor <;> intros <;> contradiction
  | succ fuel ih =>
      exact ⟨sound_parseElement ih, sound_parseObject ih, sound_parseMembers ih, sound_parseArray ih,
        sound_parseElements ih⟩

/-! ### Completeness -/

/-- A parse with this fuel takes any spelling that three times its length fits into. -/
structure Complete (format : NumberFormat) (fuel : Nat) : Prop where
  element : ∀ {e pre} (rest : TokenStream), Spells format e pre → e.WellFormed → 3 * pre.length ≤ fuel →
    parseElement format fuel (pre ++ rest) = .ok (e, rest)
  object : ∀ (object) {members pre} (rest : TokenStream), Spells format (.object members) pre →
    membersWellFormed members → ((object ++ members).map Prod.fst).Nodup → 3 * pre.length ≤ fuel + 1 →
    parseObject format fuel object (pre ++ rest) = .ok (object ++ members, rest)
  members : ∀ (object) {members pre} {rest : TokenStream}, SpellsMembers format members pre →
    membersWellFormed members → ((object ++ members).map Prod.fst).Nodup → nextIs .nextElement rest = false →
    3 * pre.length ≤ fuel → parseMembers format fuel object (pre ++ rest) = .ok (object ++ members, rest)
  array : ∀ {array pre} (rest : TokenStream), Spells format (.array array) pre → elementsWellFormed array →
    3 * pre.length ≤ fuel + 1 → parseArray format fuel (pre ++ rest) = .ok (array, rest)
  elements : ∀ (array) {elements pre} {rest : TokenStream}, SpellsElements format elements pre →
    elementsWellFormed elements → nextIs .nextElement rest = false → 3 * pre.length < fuel →
    parseElements format fuel array (pre ++ rest) = .ok (array ++ elements, rest)

/-- An element begins with one token of these. -/
theorem head_of_spells {e : UnknownElement} {pre : List Token} (h : Spells format e pre) :
    ∃ token tokens, pre = token :: tokens ∧ token.nType ∈
      [.objectBegin, .arrayBegin, .string, .number, .boolean, .null] := by
  cases h with
  | emptyObject hfirst _ | object hfirst _ _ | emptyArray hfirst _ | array hfirst _ _ =>
      exact ⟨_, _, rfl, by rw [hfirst]; decide⟩
  | string htoken | number htoken _ | boolean htoken | null htoken => exact ⟨_, _, rfl, by rw [htoken]; decide⟩

theorem head_of_spellsMembers {members : List (String × UnknownElement)} {pre : List Token}
    (h : SpellsMembers format members pre) : ∃ token tokens, pre = token :: tokens ∧ token.nType = .string := by
  cases h with
  | last hname _ _ | cons hname _ _ _ _ => exact ⟨_, _, rfl, hname⟩

theorem head_of_spellsElements {elements : List UnknownElement} {pre : List Token}
    (h : SpellsElements format elements pre) : ∃ token tokens, pre = token :: tokens ∧ token.nType ∈
      [.objectBegin, .arrayBegin, .string, .number, .boolean, .null] := by
  cases h with
  | last h => exact head_of_spells h
  | cons h _ _ =>
      obtain ⟨token, tokens, rfl, hmem⟩ := head_of_spells h
      exact ⟨token, _, rfl, hmem⟩

theorem nextIsNot_arrayEnd {token : Token}
    (htoken : token.nType ∈ [.objectBegin, .arrayBegin, .string, .number, .boolean, .null]) (rest : TokenStream) :
    nextIsNot .arrayEnd (token :: rest) = true := by
  have hne : token.nType ≠ .arrayEnd := by
    intro hend
    rw [hend] at htoken
    revert htoken
    decide
  exact decide_eq_true hne

theorem complete_parseObject {fuel : Nat} (ih : Complete format fuel) {object members : Object} {pre : List Token}
    (rest : TokenStream) (h : Spells format (.object members) pre) (hwell : membersWellFormed members)
    (hnodup : ((object ++ members).map Prod.fst).Nodup) (hfuel : 3 * pre.length ≤ fuel + 1 + 1) :
    parseObject format (fuel + 1) object (pre ++ rest) = .ok (object ++ members, rest) := by
  cases h with
  | @emptyObject first last hfirst hlast =>
      have hnext : ¬nextIsNot .objectEnd (last :: rest) = true := by simp [nextIsNot_cons, hlast]
      rw [List.cons_append, List.cons_append, List.nil_append, parseObject,
        bind_of_eq_ok (matchExpectedToken_cons hfirst _)]
      dsimp only
      rw [if_neg hnext, bind_of_eq_ok rfl]
      dsimp only
      rw [bind_of_eq_ok (matchExpectedToken_cons hlast _), List.append_nil]
      rfl
  | @object first last _ tokens hfirst hmembers hlast =>
      obtain ⟨name, tokens', heq, hname⟩ := head_of_spellsMembers hmembers
      have hnext : nextIsNot .objectEnd (tokens ++ last :: rest) = true := by
        rw [heq, List.cons_append, nextIsNot_cons, hname]
        decide
      have hlength : 3 * tokens.length ≤ fuel := by
        rw [List.length_cons, List.length_append, List.length_singleton] at hfuel
        omega
      have hstop : nextIs .nextElement (last :: rest) = false := by
        rw [nextIs_cons, hlast]
        decide
      have hloop := ih.members object hmembers hwell hnodup hstop hlength
      rw [List.cons_append, List.append_assoc, List.singleton_append, parseObject,
        bind_of_eq_ok (matchExpectedToken_cons hfirst _)]
      dsimp only
      rw [if_pos hnext, bind_of_eq_ok hloop]
      dsimp only
      rw [bind_of_eq_ok (matchExpectedToken_cons hlast _)]
      rfl

theorem complete_parseArray {fuel : Nat} (ih : Complete format fuel) {array : List UnknownElement}
    {pre : List Token} (rest : TokenStream) (h : Spells format (.array array) pre) (hwell : elementsWellFormed array)
    (hfuel : 3 * pre.length ≤ fuel + 1 + 1) :
    parseArray format (fuel + 1) (pre ++ rest) = .ok (array, rest) := by
  cases h with
  | @emptyArray first last hfirst hlast =>
      have hnext : ¬nextIsNot .arrayEnd (last :: rest) = true := by simp [nextIsNot_cons, hlast]
      rw [List.cons_append, List.cons_append, List.nil_append, parseArray,
        bind_of_eq_ok (matchExpectedToken_cons hfirst _)]
      dsimp only
      rw [if_neg hnext, bind_of_eq_ok rfl]
      dsimp only
      rw [bind_of_eq_ok (matchExpectedToken_cons hlast _)]
      rfl
  | @array first last _ tokens hfirst helements hlast =>
      obtain ⟨token, tokens', heq, htoken⟩ := head_of_spellsElements helements
      have hnext : nextIsNot .arrayEnd (tokens ++ last :: rest) = true := by
        rw [heq]
        exact nextIsNot_arrayEnd htoken _
      have hlength : 3 * tokens.length < fuel := by
        rw [List.length_cons, List.length_append, List.length_singleton] at hfuel
        omega
      have hstop : nextIs .nextElement (last :: rest) = false := by
        rw [nextIs_cons, hlast]
        decide
      have hloop := ih.elements [] helements hwell hstop hlength
      rw [List.cons_append, List.append_assoc, List.singleton_append, parseArray,
        bind_of_eq_ok (matchExpectedToken_cons hfirst _)]
      dsimp only
      rw [if_pos hnext, bind_of_eq_ok hloop]
      dsimp only
      rw [bind_of_eq_ok (matchExpectedToken_cons hlast _)]
      rfl

theorem complete_parseElements {fuel : Nat} (ih : Complete format fuel) {array elements : List UnknownElement}
    {pre : List Token} {rest : TokenStream} (h : SpellsElements format elements pre)
    (hwell : elementsWellFormed elements) (hstop : nextIs .nextElement rest = false)
    (hfuel : 3 * pre.length < fuel + 1) :
    parseElements format (fuel + 1) array (pre ++ rest) = .ok (array ++ elements, rest) := by
  cases h with
  | @last element _ h =>
      have helement := ih.element rest h (by rw [elementsWellFormed] at hwell; exact hwell.1) (by omega)
      rw [parseElements, bind_of_eq_ok helement]
      dsimp only
      rw [hstop]
      rfl
  | @cons comma element elements tokens tokens' h hcomma helements =>
      rw [elementsWellFormed] at hwell
      rw [List.length_append, List.length_cons] at hfuel
      have helement := ih.element (comma :: (tokens' ++ rest)) h hwell.1 (by omega)
      have hnext : nextIs .nextElement (comma :: (tokens' ++ rest)) = true := decide_eq_true hcomma
      have hloop := ih.elements (array ++ [element]) helements hwell.2 hstop (by omega)
      rw [List.append_assoc, List.cons_append, parseElements, bind_of_eq_ok helement]
      dsimp only
      rw [if_pos hnext, bind_of_eq_ok (matchExpectedToken_cons hcomma _)]
      dsimp only
      rw [hloop, List.append_assoc, List.singleton_append]

theorem insert_of_not_mem {o : Object} {name : String} (element : UnknownElement) (h : name ∉ o.map Prod.fst) :
    Object.insert o name element = .ok (o ++ [(name, element)]) := if_neg h

theorem complete_parseMembers {fuel : Nat} (ih : Complete format fuel) {object members : Object} {pre : List Token}
    {rest : TokenStream} (h : SpellsMembers format members pre) (hwell : membersWellFormed members)
    (hnodup : ((object ++ members).map Prod.fst).Nodup) (hstop : nextIs .nextElement rest = false)
    (hfuel : 3 * pre.length ≤ fuel + 1) :
    parseMembers format (fuel + 1) object (pre ++ rest) = .ok (object ++ members, rest) := by
  have hnew : ∀ {name element} {members' : Object}, members = (name, element) :: members' →
      name ∉ object.map Prod.fst := by
    rintro name element members' rfl hmem
    rw [List.map_append] at hnodup
    exact (List.nodup_append.mp hnodup).2.2 name hmem name (List.mem_cons_self ..) rfl
  cases h with
  | @last name assign element tokens hname hassign h =>
      rw [membersWellFormed] at hwell
      rw [List.length_cons, List.length_cons] at hfuel
      have helement := ih.element rest h hwell.1 (by omega)
      rw [List.cons_append, List.cons_append, parseMembers, bind_of_eq_ok (matchExpectedToken_cons hname _)]
      dsimp only
      rw [bind_of_eq_ok (matchExpectedToken_cons hassign _)]
      dsimp only
      rw [bind_of_eq_ok helement]
      dsimp only
      rw [insert_of_not_mem element (hnew rfl)]
      dsimp only
      rw [hstop]
      rfl
  | @cons name assign comma element members tokens tokens' hname hassign h hcomma hmembers =>
      rw [membersWellFormed] at hwell
      rw [List.length_cons, List.length_cons, List.length_append, List.length_cons] at hfuel
      have helement := ih.element (comma :: (tokens' ++ rest)) h hwell.1 (by omega)
      have hnext : nextIs .nextElement (comma :: (tokens' ++ rest)) = true := decide_eq_true hcomma
      have hnodup' : ((object ++ [(name.sValue, element)] ++ members).map Prod.fst).Nodup := by
        rw [List.append_assoc]
        exact hnodup
      have hloop := ih.members (object ++ [(name.sValue, element)]) hmembers hwell.2 hnodup' hstop (by omega)
      rw [List.cons_append, List.cons_append, List.append_assoc, List.cons_append, parseMembers,
        bind_of_eq_ok (matchExpectedToken_cons hname _)]
      dsimp only
      rw [bind_of_eq_ok (matchExpectedToken_cons hassign _)]
      dsimp only
      rw [bind_of_eq_ok helement]
      dsimp only
      rw [insert_of_not_mem element (hnew rfl)]
      dsimp only
      rw [if_pos hnext, bind_of_eq_ok (matchExpectedToken_cons hcomma _)]
      dsimp only
      rw [hloop, List.append_assoc, List.singleton_append]

theorem complete_parseElement {fuel : Nat} (ih : Complete format fuel) {e : UnknownElement} {pre : List Token}
    (rest : TokenStream) (h : Spells format e pre) (hwell : e.WellFormed) (hfuel : 3 * pre.length ≤ fuel + 1) :
    parseElement format (fuel + 1) (pre ++ rest) = .ok (e, rest) := by
  cases e with
  | object members =>
      obtain ⟨hnodup, hmembers⟩ := wellFormed_object.mp hwell
      have hparse := ih.object [] rest h hmembers hnodup hfuel
      obtain ⟨token, tokens, rfl, htoken⟩ : ∃ token tokens, pre = token :: tokens ∧ token.nType = .objectBegin := by
        cases h with
        | emptyObject hfirst _ | object hfirst _ _ => exact ⟨_, _, rfl, hfirst⟩
      rw [List.cons_append, parseElement, htoken]
      dsimp only
      rw [← List.cons_append, bind_of_eq_ok hparse]
      rfl
  | array elements =>
      have hparse := ih.array rest h (wellFormed_array.mp hwell) hfuel
      obtain ⟨token, tokens, rfl, htoken⟩ : ∃ token tokens, pre = token :: tokens ∧ token.nType = .arrayBegin := by
        cases h with
        | emptyArray hfirst _ | array hfirst _ _ => exact ⟨_, _, rfl, hfirst⟩
      rw [List.cons_append, parseElement, htoken]
      dsimp only
      rw [← List.cons_append, bind_of_eq_ok hparse]
      rfl
  | string s =>
      cases h with
      | @string token htoken =>
          rw [List.cons_append, List.nil_append, parseElement, htoken]
          dsimp only
          rw [bind_of_eq_ok (matchExpectedToken_cons htoken _)]
          rfl
  | number bits =>
      cases h with
      | @number token _ htoken hread =>
          rw [List.cons_append, List.nil_append, parseElement, htoken]
          dsimp only
          rw [parseNumber, bind_of_eq_ok (matchExpectedToken_cons htoken _)]
          dsimp only
          rw [hread]
          rfl
  | boolean b =>
      cases h with
      | @boolean token htoken =>
          rw [List.cons_append, List.nil_append, parseElement, htoken]
          dsimp only
          rw [bind_of_eq_ok (matchExpectedToken_cons htoken _)]
          rfl
  | null =>
      cases h with
      | @null token htoken =>
          rw [List.cons_append, List.nil_append, parseElement, htoken]
          dsimp only
          rw [bind_of_eq_ok (matchExpectedToken_cons htoken _)]
          rfl

theorem complete (format : NumberFormat) (fuel : Nat) : Complete format fuel := by
  induction fuel with
  | zero =>
      refine ⟨?_, ?_, ?_, ?_, ?_⟩
      · intro e pre rest h _ hfuel
        obtain ⟨token, tokens, rfl, -⟩ := head_of_spells h
        exact absurd hfuel (by simp)
      · intro object members pre rest h _ _ hfuel
        obtain ⟨token, tokens, rfl, -⟩ := head_of_spells h
        exact absurd hfuel (by simp; omega)
      · intro object members pre rest h _ _ _ hfuel
        obtain ⟨token, tokens, rfl, -⟩ := head_of_spellsMembers h
        exact absurd hfuel (by simp)
      · intro array pre rest h _ hfuel
        obtain ⟨token, tokens, rfl, -⟩ := head_of_spells h
        exact absurd hfuel (by simp; omega)
      · intro array elements pre rest _ _ _ hfuel
        exact absurd hfuel (Nat.not_lt_zero _)
  | succ fuel ih =>
      exact ⟨complete_parseElement ih, fun _ => complete_parseObject ih, fun _ => complete_parseMembers ih,
        complete_parseArray ih, fun _ => complete_parseElements ih⟩

/-- What is read spells the tokens of the text. -/
theorem spells_of_read {format : NumberFormat} {text : List Char} {e : UnknownElement} (h : read format text = .ok e) :
    ∃ tokens, scan ⟨text, .start⟩ = .ok tokens ∧ Spells format e tokens ∧ e.WellFormed := by
  obtain ⟨tokens, hscan, h1⟩ := exists_of_bind_ok h
  obtain ⟨⟨e', rest⟩, hparse, hend⟩ := exists_of_bind_ok h1
  obtain ⟨pre, rfl, hspells, hwell⟩ := (sound format _).element hparse
  cases rest with
  | nil =>
      obtain rfl := Except.ok.inj hend
      rw [List.append_nil] at hscan
      exact ⟨pre, hscan, hspells, hwell⟩
  | cons token rest => cases hend

theorem read_of_spells {format : NumberFormat} {text : List Char} {e : UnknownElement} {tokens : List Token}
    (hscan : scan ⟨text, .start⟩ = .ok tokens) (hspells : Spells format e tokens) (hwell : e.WellFormed) :
    read format text = .ok e := by
  have hparse := (complete format (fuelFor tokens)).element [] hspells hwell (Nat.le_succ _)
  rw [List.append_nil] at hparse
  rw [read, bind_of_eq_ok hscan, bind_of_eq_ok hparse]
  rfl

/-- **The reader decides the grammar.** It returns the elements that the tokens of the document spell and in
which no object has a name twice. -/
theorem read_eq_ok_iff (format : NumberFormat) (text : List Char) (e : UnknownElement) :
    read format text = .ok e ↔ ∃ tokens, Tiles ⟨text, .start⟩ tokens ∧ Spells format e tokens ∧ e.WellFormed := by
  constructor
  · intro h
    obtain ⟨tokens, hscan, hspells, hwell⟩ := spells_of_read h
    exact ⟨tokens, tiles_of_scan hscan, hspells, hwell⟩
  · rintro ⟨tokens, htiles, hspells, hwell⟩
    exact read_of_spells (scan_of_tiles htiles) hspells hwell

end Brainslug.Json.Reader
