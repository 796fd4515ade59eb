import Brainslug.JsonGrammar

/-! What the writer prints, the reader reads. The writer escapes strings but not the names of members, so this
holds exactly for elements in whose names there is nothing to escape. -/

namespace Brainslug.Json

/-- A name that needs no escapes. -/
def Plain (name : String) : Prop := ∀ c ∈ name.toList, c ≠ '"' ∧ c ≠ '\\'

instance (name : String) : Decidable (Plain name) := List.decidableBAll _ _

mutual

/-- The names of the members, at every depth. -/
def UnknownElement.names : UnknownElement → List String
  | .object members => membersNames members
  | .array elements => elementsNames elements
  | _ => []

def membersNames : List (String × UnknownElement) → List String
  | [] => []
  | (name, element) :: members => name :: element.names ++ membersNames members

def elementsNames : List UnknownElement → List String
  | [] => []
  | element :: elements => element.names ++ elementsNames elements

end

mutual

/-- The numbers, at every depth. -/
def UnknownElement.numbers : UnknownElement → List UInt64
  | .object members => membersNumbers members
  | .array elements => elementsNumbers elements
  | .number bits => [bits]
  | _ => []

def membersNumbers : List (String × UnknownElement) → List UInt64
  | [] => []
  | (_, element) :: members => element.numbers ++ membersNumbers members

def elementsNumbers : List UnknownElement → List UInt64
  | [] => []
  | element :: elements => element.numbers ++ elementsNumbers elements

end

namespace Reader

/-- How streams treat the numbers that are finite: they print a digit or a sign first, nothing that does not
belong to a number, and read the number again. -/
structure RoundTrips (format : NumberFormat) (bits : UInt64) : Prop where
  head : ∃ c ∈ numberStart, (format.print bits).toList.head? = some c
  numeric : ∀ c ∈ (format.print bits).toList, c ∈ numericChars
  read : format.read (format.print bits) = some bits

variable {format : NumberFormat}

/-! ### Strings and names -/

theorem unescapes_escape (c : Char) {raw chars : List Char} (h : Unescapes raw chars) :
    Unescapes (Writer.escape c ++ raw) (c :: chars) := by
  unfold Writer.escape
  split
  · exact .escape rfl h
  · exact .escape rfl h
  · exact .escape rfl h
  · exact .escape rfl h
  · exact .escape rfl h
  · exact .escape rfl h
  · exact .escape rfl h
  · next hquote hbackslash _ _ _ _ _ => exact .char hquote hbackslash h

theorem unescapes_flatMap (chars : List Char) : Unescapes (chars.flatMap Writer.escape) chars := by
  induction chars with
  | nil => exact .nil
  | cons c chars ih => exact unescapes_escape c ih

theorem unescapes_self {chars : List Char} (h : ∀ c ∈ chars, c ≠ '"' ∧ c ≠ '\\') : Unescapes chars chars := by
  induction chars with
  | nil => exact .nil
  | cons c chars ih =>
      obtain ⟨⟨hquote, hbackslash⟩, hchars⟩ := List.forall_mem_cons.mp h
      exact .char hquote hbackslash (ih hchars)

/-- Behind an escape the reader is ahead of the text that it has read: it never meets the closing quote. -/
theorem not_unescapes_behind {raw chars : List Char} (h : Unescapes raw chars) (k : Nat) (rest rest' : List Char) :
    chars ++ '"' :: rest ≠ List.replicate (k + 1) '\\' ++ (raw ++ '"' :: rest') := by
  induction h generalizing k with
  | nil =>
      intro heq
      cases (List.cons.inj heq).1
  | char _ hbackslash _ _ =>
      intro heq
      exact hbackslash (List.cons.inj heq).1
  | @escape c c' raw chars hescape _ ih =>
      intro heq
      rw [List.cons_append, List.replicate_succ, List.cons_append] at heq
      obtain ⟨rfl, htail⟩ := List.cons.inj heq
      have hc : c = '\\' := by
        unfold unescape at hescape
        split at hescape <;> simp_all
      subst hc
      refine ih (k + 1) ?_
      rw [htail, List.replicate_succ', List.replicate_succ']
      simp

/-- A text that reads back as itself has nothing to escape. -/
theorem plain_of_unescapes {raw chars : List Char} (h : Unescapes raw chars) {rest rest' : List Char}
    (heq : chars ++ '"' :: rest = raw ++ '"' :: rest') : ∀ c ∈ chars, c ≠ '"' ∧ c ≠ '\\' := by
  induction h with
  | nil => simp
  | char hquote hbackslash _ ih =>
      exact List.forall_mem_cons.mpr ⟨⟨hquote, hbackslash⟩, ih (List.cons.inj heq).2⟩
  | @escape c c' raw chars hescape h _ =>
      obtain ⟨rfl, htail⟩ := List.cons.inj heq
      have hc : c = '\\' := by
        unfold unescape at hescape
        split at hescape <;> simp_all
      subst hc
      exact absurd htail (not_unescapes_behind h 0 rest rest')

/-! ### Scanning a text in front of others -/

/-- Any scan of the text and the rest begins with tokens of this kind and goes on with the rest. -/
def Scans (text rest : List Char) (P : List Token → Prop) : Prop :=
  ∀ loc, ∃ pre loc', P pre ∧ scan ⟨text ++ rest, loc⟩ = (fun tokens => pre ++ tokens) <$> scan ⟨rest, loc'⟩

def IsToken (nType : TokenType) (sValue : String) (pre : List Token) : Prop :=
  ∃ token, pre = [token] ∧ token.nType = nType ∧ token.sValue = sValue

theorem Scans.append {text text' rest : List Char} {P Q R : List Token → Prop} (h : Scans text (text' ++ rest) P)
    (h' : Scans text' rest Q) (hR : ∀ pre pre', P pre → Q pre' → R (pre ++ pre')) : Scans (text ++ text') rest R := by
  intro loc
  obtain ⟨pre, loc', hpre, hscan⟩ := h loc
  obtain ⟨pre', loc'', hpre', hscan'⟩ := h' loc'
  refine ⟨pre ++ pre', loc'', hR pre pre' hpre hpre', ?_⟩
  rw [List.append_assoc, hscan, hscan']
  simp [Functor.map_map]

theorem Scans.imp {text rest : List Char} {P Q : List Token → Prop} (h : Scans text rest P)
    (himp : ∀ pre, P pre → Q pre) : Scans text rest Q := by
  intro loc
  obtain ⟨pre, loc', hpre, hscan⟩ := h loc
  exact ⟨pre, loc', himp pre hpre, hscan⟩

theorem eatWhiteSpace_append {space : List Char} (hspace : ∀ c ∈ space, isspace c = true) (rest : List Char)
    (loc : Location) : eatWhiteSpace ⟨space ++ rest, loc⟩ = eatWhiteSpace ⟨rest, space.foldl Location.advance loc⟩ := by
  have htake : (space ++ rest).takeWhile isspace = space ++ rest.takeWhile isspace :=
    List.takeWhile_append_of_pos hspace
  have hdrop : (space ++ rest).dropWhile isspace = rest.dropWhile isspace := List.dropWhile_append_of_pos hspace
  simp only [eatWhiteSpace, Cursor.takeWhile, htake, hdrop, List.foldl_append]

theorem scan_congr {s s' : InputStream} (h : eatWhiteSpace s = eatWhiteSpace s') : scan s = scan s' := by
  cases hrest : (eatWhiteSpace s).rest with
  | nil => rw [scan_nil hrest, scan_nil (h ▸ hrest)]
  | cons c rest => rw [scan_cons hrest, scan_cons (h ▸ hrest), h]

theorem scans_space {space : List Char} (hspace : ∀ c ∈ space, isspace c = true) (rest : List Char) :
    Scans space rest (fun pre => pre = []) := by
  intro loc
  refine ⟨[], space.foldl Location.advance loc, rfl, ?_⟩
  rw [scan_congr (eatWhiteSpace_append hspace rest loc)]
  simp

theorem scans_token {nType : TokenType} {sValue : String} {text rest : List Char} (h : Lexes nType sValue text rest) :
    Scans text rest (IsToken nType sValue) := by
  intro loc
  obtain ⟨c, hhead, hc⟩ := h.head?
  have heat : eatWhiteSpace ⟨text ++ rest, loc⟩ = ⟨text ++ rest, loc⟩ := by
    have hrest : ∀ d ∈ (text ++ rest).head?, isspace d = false := by
      intro d hd
      rw [List.head?_append, hhead] at hd
      obtain rfl := Option.some.inj hd
      exact hc
    exact congrArg Prod.snd (Cursor.takeWhile_append (List.forall_mem_nil _) hrest loc)
  obtain ⟨text', rfl⟩ : ∃ text', text = c :: text' := by
    cases text with
    | nil => cases hhead
    | cons d text =>
        obtain rfl := Option.some.inj hhead
        exact ⟨text, rfl⟩
  have hrest : (eatWhiteSpace ⟨c :: text' ++ rest, loc⟩).rest = c :: (text' ++ rest) := by rw [heat]; rfl
  let locEnd := (c :: text').foldl Location.advance loc
  refine ⟨[⟨nType, sValue, loc, locEnd⟩], locEnd, ⟨_, rfl, rfl, rfl⟩, ?_⟩
  rw [scan_cons hrest, heat, scanToken_append h hhead]
  rfl

theorem scans_string (s : String) (rest : List Char) : Scans (Writer.writeString s) rest (IsToken .string s) :=
  scans_token ⟨_, rfl, unescapes_flatMap s.toList⟩

theorem scans_fixed {nType : TokenType} {sValue : String} (rest : List Char) (h : sValue ∈ fixedTexts nType) :
    Scans sValue.toList rest (IsToken nType sValue) := scans_token (lexes_fixed rest h)

/-! ### What is written -/

/-- The rest does not go on with a number. -/
def EndsNumber (rest : List Char) : Prop := ∀ c ∈ rest.head?, c ∉ numericChars

theorem endsNumber_cons {c : Char} (hc : c ∉ numericChars) (rest : List Char) : EndsNumber (c :: rest) := by
  intro d hd
  obtain rfl := Option.some.inj hd
  exact hc

theorem scans_number {bits : UInt64} (h : RoundTrips format bits) {rest : List Char} (hrest : EndsNumber rest) :
    Scans (format.print bits).toList rest (IsToken .number (format.print bits)) :=
  scans_token ⟨rfl, h.head, h.numeric, hrest⟩

theorem scans_boolean (b : Bool) (rest : List Char) :
    Scans (Writer.writeBoolean b) rest (IsToken .boolean (if b then "true" else "false")) := by
  cases b with
  | false => exact scans_fixed rest (by decide)
  | true => exact scans_fixed rest (by decide)

theorem isspace_tabs (depth : Nat) : ∀ c ∈ Writer.tabs depth, isspace c = true := by
  intro c hc
  rw [List.eq_of_mem_replicate hc]
  decide

theorem scans_tabs (depth : Nat) (rest : List Char) : Scans (Writer.tabs depth) rest (fun pre => pre = []) :=
  scans_space (isspace_tabs depth) rest

theorem scans_newline (rest : List Char) : Scans ['\n'] rest (fun pre => pre = []) :=
  scans_space (List.forall_mem_singleton.mpr rfl) rest

/-- White space in front changes nothing. -/
theorem Scans.space {text text' rest : List Char} {P : List Token → Prop}
    (h : Scans text (text' ++ rest) (fun pre => pre = [])) (h' : Scans text' rest P) : Scans (text ++ text') rest P :=
  h.append h' fun _ _ hpre hpre' => by rwa [hpre]

/-- The part of a member in front of its element. -/
def memberHead (depth : Nat) (name : String) : List Char := Writer.tabs depth ++ ('"' :: (name.toList ++ ['"']) ++ " : ".toList)

/-- The part behind it. -/
def itemTail {α : Type} (items : List α) : List Char := (if items.isEmpty then [] else [',']) ++ ['\n']

theorem writeMembers_cons (depth : Nat) (name : String) (element : UnknownElement)
    (members : List (String × UnknownElement)) : Writer.writeMembers format depth ((name, element) :: members) =
      memberHead depth name ++ (Writer.writeElement format depth element ++
        (itemTail members ++ Writer.writeMembers format depth members)) := by
  rw [Writer.writeMembers]
  simp [memberHead, itemTail]

theorem writeElements_cons (depth : Nat) (element : UnknownElement) (elements : List UnknownElement) :
    Writer.writeElements format depth (element :: elements) =
      Writer.tabs depth ++ (Writer.writeElement format depth element ++
        (itemTail elements ++ Writer.writeElements format depth elements)) := by
  rw [Writer.writeElements]
  simp [itemTail]

theorem writeElement_object (depth : Nat) (member : String × UnknownElement)
    (members : List (String × UnknownElement)) : Writer.writeElement format depth (.object (member :: members)) =
      ['{'] ++ (['\n'] ++ (Writer.writeMembers format (depth + 1) (member :: members) ++
        (Writer.tabs depth ++ ['}']))) := by
  rw [Writer.writeElement]
  simp

theorem writeElement_array (depth : Nat) (element : UnknownElement) (elements : List UnknownElement) :
    Writer.writeElement format depth (.array (element :: elements)) =
      ['['] ++ (['\n'] ++ (Writer.writeElements format (depth + 1) (element :: elements) ++
        (Writer.tabs depth ++ [']']))) := by
  rw [Writer.writeElement]
  simp

theorem endsNumber_itemTail {α : Type} (items : List α) (rest : List Char) : EndsNumber (itemTail items ++ rest) := by
  cases items with
  | nil => exact endsNumber_cons (by decide) _
  | cons => exact endsNumber_cons (by decide) _

/-- Two tokens: the name and the colon. -/
def IsMemberHead (name : String) (pre : List Token) : Prop :=
  ∃ token assign, pre = [token, assign] ∧ token.nType = .string ∧ token.sValue = name ∧ assign.nType = .memberAssign

theorem scans_memberHead (depth : Nat) {name : String} (hname : Plain name) (rest : List Char) :
    Scans (memberHead depth name) rest (IsMemberHead name) := by
  apply (scans_tabs depth _).space
  have hstring : Scans ('"' :: (name.toList ++ ['"'])) (" : ".toList ++ rest) (IsToken .string name) :=
    scans_token ⟨_, rfl, unescapes_self hname⟩
  have hcolon : Scans ([' '] ++ ([':'] ++ [' '])) rest (IsToken .memberAssign ":") := by
    have hassign : Scans [':'] ([' '] ++ rest) (IsToken .memberAssign ":") := scans_fixed _ (by decide)
    have hspace : Scans [' '] rest (fun pre => pre = []) :=
      scans_space (List.forall_mem_singleton.mpr rfl) rest
    apply (scans_space (List.forall_mem_singleton.mpr rfl) _).space
    refine hassign.append hspace ?_
    rintro pre pre' hpre rfl
    rwa [List.append_nil]
  refine hstring.append hcolon ?_
  rintro pre pre' ⟨token, rfl, htype, hvalue⟩ ⟨assign, rfl, hassign, -⟩
  exact ⟨token, assign, rfl, htype, hvalue, hassign⟩

/-- Nothing behind the last item; a comma and the others behind another one. -/
def IsItemTail {α : Type} (items : List α) (P : List Token → Prop) (pre : List Token) : Prop :=
  items = [] ∧ pre = [] ∨ ∃ comma tokens, pre = comma :: tokens ∧ comma.nType = .nextElement ∧ P tokens

theorem scans_itemTail {α : Type} (items : List α) {text rest : List Char} {P : List Token → Prop}
    (hnil : items = [] → text = []) (hcons : items ≠ [] → Scans text rest P) :
    Scans (itemTail items ++ text) rest (IsItemTail items P) := by
  cases items with
  | nil =>
      rw [hnil rfl, List.append_nil]
      exact (scans_newline rest).imp fun pre hpre => Or.inl ⟨rfl, hpre⟩
  | cons item items =>
      have hcomma : Scans [','] (['\n'] ++ text ++ rest) (IsToken .nextElement ",") := scans_fixed _ (by decide)
      have htail : Scans (['\n'] ++ text) rest P := (scans_newline _).space (hcons (List.cons_ne_nil _ _))
      change Scans ([','] ++ (['\n'] ++ text)) rest _
      refine hcomma.append htail ?_
      rintro pre pre' ⟨comma, rfl, htype, -⟩ htokens
      exact Or.inr ⟨comma, pre', rfl, htype, htokens⟩

/-! ### Elements whose names are plain -/

theorem spells_of_isToken {e : UnknownElement} {nType : TokenType} {sValue : String} {pre : List Token}
    (h : IsToken nType sValue pre)
    (hspells : ∀ token : Token, token.nType = nType → token.sValue = sValue → Spells format e [token]) :
    Spells format e pre := by
  obtain ⟨token, rfl, htype, hvalue⟩ := h
  exact hspells token htype hvalue

/-- Between two brackets. -/
theorem scans_between (nFirst nLast : TokenType) (first last : String) {depth : Nat} {inner rest : List Char}
    {P : List Token → Prop} (hfirst : first ∈ fixedTexts nFirst) (hlast : last ∈ fixedTexts nLast)
    (hinner : Scans inner (Writer.tabs depth ++ last.toList ++ rest) P) :
    Scans (first.toList ++ (['\n'] ++ (inner ++ (Writer.tabs depth ++ last.toList)))) rest fun pre =>
      ∃ token tokens token', pre = token :: (tokens ++ [token']) ∧ token.nType = nFirst ∧ P tokens ∧
        token'.nType = nLast := by
  have hclose : Scans (Writer.tabs depth ++ last.toList) rest (IsToken nLast last) :=
    (scans_tabs depth _).space (scans_fixed rest hlast)
  have hbody : Scans (['\n'] ++ (inner ++ (Writer.tabs depth ++ last.toList))) rest fun pre =>
      ∃ tokens token', pre = tokens ++ [token'] ∧ P tokens ∧ token'.nType = nLast := by
    apply (scans_newline _).space
    refine hinner.append hclose ?_
    rintro pre pre' hpre ⟨token', rfl, htype, -⟩
    exact ⟨pre, token', rfl, hpre, htype⟩
  refine (scans_fixed _ hfirst).append hbody ?_
  rintro pre pre' ⟨token, rfl, htype, -⟩ ⟨tokens, token', rfl, htokens, htype'⟩
  exact ⟨token, tokens, token', rfl, htype, htokens, htype'⟩

mutual

theorem scans_writeElement : ∀ (e : UnknownElement) (depth : Nat) (rest : List Char),
    (∀ name ∈ e.names, Plain name) → (∀ bits ∈ e.numbers, RoundTrips format bits) → EndsNumber rest →
    Scans (Writer.writeElement format depth e) rest (Spells format e)
  | .object [], depth, rest, _, _, _ => by
      rw [Writer.writeElement]
      have hopen : Scans ['{'] (['}'] ++ rest) (IsToken .objectBegin "\x7b") := scans_fixed _ (by decide)
      have hclose : Scans ['}'] rest (IsToken .objectEnd "\x7d") := scans_fixed _ (by decide)
      refine hopen.append hclose ?_
      rintro pre pre' ⟨first, rfl, hfirst, -⟩ ⟨last, rfl, hlast, -⟩
      exact .emptyObject hfirst hlast
  | .object (member :: members), depth, rest, hnames, hnumbers, hrest => by
      rw [UnknownElement.names] at hnames
      rw [UnknownElement.numbers] at hnumbers
      rw [writeElement_object]
      have hmembers := scans_writeMembers (member :: members) (depth + 1) (Writer.tabs depth ++ ['}'] ++ rest)
        hnames hnumbers (List.cons_ne_nil _ _)
      refine (scans_between .objectBegin .objectEnd "\x7b" "\x7d" (by decide) (by decide) hmembers).imp ?_
      rintro pre ⟨token, tokens, token', rfl, hfirst, htokens, hlast⟩
      exact .object hfirst htokens hlast
  | .array [], depth, rest, _, _, _ => by
      rw [Writer.writeElement]
      have hopen : Scans ['['] ([']'] ++ rest) (IsToken .arrayBegin "[") := scans_fixed _ (by decide)
      have hclose : Scans [']'] rest (IsToken .arrayEnd "]") := scans_fixed _ (by decide)
      refine hopen.append hclose ?_
      rintro pre pre' ⟨first, rfl, hfirst, -⟩ ⟨last, rfl, hlast, -⟩
      exact .emptyArray hfirst hlast
  | .array (element :: elements), depth, rest, hnames, hnumbers, hrest => by
      rw [UnknownElement.names] at hnames
      rw [UnknownElement.numbers] at hnumbers
      rw [writeElement_array]
      have helements := scans_writeElements (element :: elements) (depth + 1) (Writer.tabs depth ++ [']'] ++ rest)
        hnames hnumbers (List.cons_ne_nil _ _)
      refine (scans_between .arrayBegin .arrayEnd "[" "]" (by decide) (by decide) helements).imp ?_
      rintro pre ⟨token, tokens, token', rfl, hfirst, htokens, hlast⟩
      exact .array hfirst htokens hlast
  | .number bits, depth, rest, _, hnumbers, hrest => by
      have hbits : RoundTrips format bits := hnumbers bits (List.mem_singleton.mpr rfl)
      rw [Writer.writeElement]
      refine (scans_number hbits hrest).imp fun pre hpre => spells_of_isToken hpre fun token htype hvalue => ?_
      exact .number htype (by rw [hvalue]; exact hbits.read)
  | .boolean b, depth, rest, _, _, _ => by
      rw [Writer.writeElement]
      refine (scans_boolean b rest).imp fun pre hpre => spells_of_isToken hpre fun token htype hvalue => ?_
      have hb : (token.sValue == "true") = b := by cases b <;> simp [hvalue]
      exact hb ▸ .boolean htype
  | .string s, depth, rest, _, _, _ => by
      rw [Writer.writeElement]
      refine (scans_string s rest).imp fun pre hpre => spells_of_isToken hpre fun token htype hvalue => ?_
      exact hvalue ▸ .string htype
  | .null, depth, rest, _, _, _ => by
      rw [Writer.writeElement]
      have hnull : Scans Writer.writeNull rest (IsToken .null "null") := scans_fixed _ (by decide)
      exact hnull.imp fun pre hpre => spells_of_isToken hpre fun token htype _ => .null htype

theorem scans_writeMembers : ∀ (members : List (String × UnknownElement)) (depth : Nat) (rest : List Char),
    (∀ name ∈ membersNames members, Plain name) → (∀ bits ∈ membersNumbers members, RoundTrips format bits) →
    members ≠ [] → Scans (Writer.writeMembers format depth members) rest (SpellsMembers format members)
  | [], _, _, _, _, hne => absurd rfl hne
  | (name, element) :: members, depth, rest, hnames, hnumbers, _ => by
      rw [membersNames, List.cons_append] at hnames
      rw [membersNumbers] at hnumbers
      obtain ⟨hname, hnames⟩ := List.forall_mem_cons.mp hnames
      obtain ⟨hnamesElement, hnamesMembers⟩ := List.forall_mem_append.mp hnames
      obtain ⟨hnumbersElement, hnumbersMembers⟩ := List.forall_mem_append.mp hnumbers
      rw [writeMembers_cons]
      have hend := endsNumber_itemTail members (Writer.writeMembers format depth members ++ rest)
      rw [← List.append_assoc] at hend
      have helement := scans_writeElement element depth _ hnamesElement hnumbersElement hend
      have htail : Scans (itemTail members ++ Writer.writeMembers format depth members) rest
          (IsItemTail members (SpellsMembers format members)) :=
        scans_itemTail members (fun hnil => by rw [hnil, Writer.writeMembers])
          (scans_writeMembers members depth rest hnamesMembers hnumbersMembers)
      have hbody : Scans (Writer.writeElement format depth element ++
          (itemTail members ++ Writer.writeMembers format depth members)) rest fun pre =>
          ∃ tokens tail, pre = tokens ++ tail ∧ Spells format element tokens ∧
            IsItemTail members (SpellsMembers format members) tail :=
        helement.append htail fun tokens tail htokens htail => ⟨tokens, tail, rfl, htokens, htail⟩
      refine (scans_memberHead depth hname _).append hbody ?_
      rintro pre pre' ⟨token, assign, rfl, htype, rfl, hassign⟩ ⟨tokens, tail, rfl, htokens, htail⟩
      obtain ⟨rfl, rfl⟩ | ⟨comma, tokens', rfl, hcomma, htokens'⟩ := htail
      · rw [List.append_nil]
        exact .last htype hassign htokens
      · exact .cons htype hassign htokens hcomma htokens'

theorem scans_writeElements : ∀ (elements : List UnknownElement) (depth : Nat) (rest : List Char),
    (∀ name ∈ elementsNames elements, Plain name) → (∀ bits ∈ elementsNumbers elements, RoundTrips format bits) →
    elements ≠ [] → Scans (Writer.writeElements format depth elements) rest (SpellsElements format elements)
  | [], _, _, _, _, hne => absurd rfl hne
  | element :: elements, depth, rest, hnames, hnumbers, _ => by
      rw [elementsNames] at hnames
      rw [elementsNumbers] at hnumbers
      obtain ⟨hnamesElement, hnamesElements⟩ := List.forall_mem_append.mp hnames
      obtain ⟨hnumbersElement, hnumbersElements⟩ := List.forall_mem_append.mp hnumbers
      rw [writeElements_cons]
      have hend := endsNumber_itemTail elements (Writer.writeElements format depth elements ++ rest)
      rw [← List.append_assoc] at hend
      have helement := scans_writeElement element depth _ hnamesElement hnumbersElement hend
      have htail : Scans (itemTail elements ++ Writer.writeElements format depth elements) rest
          (IsItemTail elements (SpellsElements format elements)) :=
        scans_itemTail elements (fun hnil => by rw [hnil, Writer.writeElements])
          (scans_writeElements elements depth rest hnamesElements hnumbersElements)
      apply (scans_tabs depth _).space
      refine helement.append htail ?_
      rintro tokens tail htokens (⟨rfl, rfl⟩ | ⟨comma, tokens', rfl, hcomma, htokens'⟩)
      · rw [List.append_nil]
        exact .last htokens
      · exact .cons htokens hcomma htokens'

end

/-! ### Names that are not plain -/

theorem Scans.split {text rest : List Char} {P : List Token → Prop} (h : Scans text rest P) {loc : Location}
    {tokens : List Token} (hscan : scan ⟨text ++ rest, loc⟩ = .ok tokens) :
    ∃ pre tokens' loc', P pre ∧ tokens = pre ++ tokens' ∧ scan ⟨rest, loc'⟩ = .ok tokens' := by
  obtain ⟨pre, loc', hpre, heq⟩ := h loc
  rw [heq] at hscan
  cases hrest : scan ⟨rest, loc'⟩ with
  | error e =>
      rw [hrest] at hscan
      cases hscan
  | ok tokens' =>
      rw [hrest] at hscan
      exact ⟨pre, tokens', loc', hpre, (Except.ok.inj hscan).symm, hrest⟩

/-- Behind a token and a line feed. -/
theorem exists_scan_behind (nType : TokenType) (sValue : String) (hfixed : sValue ∈ fixedTexts nType)
    {text : List Char} {loc : Location} {token : Token} {tokens : List Token}
    (hscan : scan ⟨sValue.toList ++ (['\n'] ++ text), loc⟩ = .ok (token :: tokens)) :
    ∃ loc', scan ⟨text, loc'⟩ = .ok tokens := by
  obtain ⟨pre, tokens1, loc1, ⟨token', rfl, -⟩, heq, hscan1⟩ := (scans_fixed _ hfixed).split hscan
  obtain ⟨-, rfl⟩ := List.cons.inj heq
  obtain ⟨pre, tokens2, loc2, rfl, rfl, hscan2⟩ := (scans_newline _).split hscan1
  exact ⟨loc2, hscan2⟩

/-- A string token that stands for the name of a member: then there was nothing to escape. -/
theorem plain_of_scan {depth : Nat} {name : String} {rest : List Char} {loc : Location} {token : Token}
    {tokens : List Token} (hscan : scan ⟨memberHead depth name ++ rest, loc⟩ = .ok (token :: tokens))
    (htype : token.nType = .string) (hvalue : token.sValue = name) : Plain name := by
  rw [memberHead, List.append_assoc] at hscan
  obtain ⟨pre, tokens1, loc1, rfl, rfl, hscan1⟩ := (scans_tabs depth _).split hscan
  cases tiles_of_scan hscan1 with
  | @cons _ s1 s2 space text _ _ hspace hbefore _ hlexes htext _ _ =>
      rw [htype, hvalue] at hlexes
      obtain ⟨raw, rfl, hraw⟩ := hlexes
      have hrest := hbefore.rest_eq
      rw [htext.rest_eq] at hrest
      cases space with
      | nil =>
          have heq : name.toList ++ '"' :: (" : ".toList ++ rest) = raw ++ '"' :: s2.rest := by simpa using hrest
          exact plain_of_unescapes hraw heq
      | cons c space =>
          obtain ⟨rfl, -⟩ := List.cons.inj hrest
          exact absurd (hspace _ (List.mem_cons_self ..)) (by decide)

/-- Behind an element the same tokens remain, however it is found in front of them. -/
theorem rest_eq_of_spells {e : UnknownElement} {pre pre' rest rest' : List Token} (h : Spells format e pre)
    (h' : Spells format e pre') (hwell : e.WellFormed) (heq : pre ++ rest = pre' ++ rest') : rest = rest' := by
  have hparse := (complete format (3 * (pre ++ rest).length)).element rest h hwell
    (by rw [List.length_append]; omega)
  have hparse' := (complete format (3 * (pre' ++ rest').length)).element rest' h' hwell
    (by rw [List.length_append]; omega)
  rw [← heq, hparse] at hparse'
  exact (Prod.mk.inj (Except.ok.inj hparse')).2

theorem spellsMembers_cons {name : String} {element : UnknownElement} {members : List (String × UnknownElement)}
    {pre : List Token} (h : SpellsMembers format ((name, element) :: members) pre) :
    ∃ token assign tokens tail, pre = token :: assign :: (tokens ++ tail) ∧ token.nType = .string ∧
      token.sValue = name ∧ Spells format element tokens ∧ IsItemTail members (SpellsMembers format members) tail := by
  cases h with
  | @last token assign _ tokens hname _ h =>
      exact ⟨token, assign, tokens, [], by rw [List.append_nil], hname, rfl, h, Or.inl ⟨rfl, rfl⟩⟩
  | @cons token assign comma _ _ tokens tokens' hname _ h hcomma hmembers =>
      exact ⟨token, assign, tokens, _, rfl, hname, rfl, h, Or.inr ⟨comma, tokens', rfl, hcomma, hmembers⟩⟩

theorem spellsElements_cons {element : UnknownElement} {elements : List UnknownElement} {pre : List Token}
    (h : SpellsElements format (element :: elements) pre) : ∃ tokens tail, pre = tokens ++ tail ∧
      Spells format element tokens ∧ IsItemTail elements (SpellsElements format elements) tail := by
  cases h with
  | last h => exact ⟨pre, [], (List.append_nil _).symm, h, Or.inl ⟨rfl, rfl⟩⟩
  | @cons comma _ _ tokens tokens' h hcomma helements =>
      exact ⟨tokens, _, rfl, h, Or.inr ⟨comma, tokens', rfl, hcomma, helements⟩⟩

mutual

theorem plain_of_spells : ∀ (e : UnknownElement) (depth : Nat) (rest : List Char) (loc : Location)
    (pre tokens : List Token), e.WellFormed → (∀ bits ∈ e.numbers, RoundTrips format bits) → EndsNumber rest →
    scan ⟨Writer.writeElement format depth e ++ rest, loc⟩ = .ok (pre ++ tokens) → Spells format e pre →
    ∀ name ∈ e.names, Plain name
  | .object [], _, _, _, _, _, _, _, _, _, _ => by
      rw [UnknownElement.names, membersNames]
      exact List.forall_mem_nil _
  | .object (member :: members), depth, rest, loc, pre, tokens, hwell, hnumbers, hrest, hscan, h => by
      rw [UnknownElement.numbers] at hnumbers
      rw [UnknownElement.names]
      cases h with
      | @object first last _ inner hfirst h hlast =>
          rw [writeElement_object] at hscan
          simp only [List.append_assoc, List.cons_append] at hscan
          obtain ⟨loc', hinner⟩ := exists_scan_behind .objectBegin "\x7b" (by decide) hscan
          exact plain_of_spellsMembers (member :: members) (depth + 1) _ loc' inner _ (wellFormed_object.mp hwell).2
            hnumbers hinner h
  | .array [], _, _, _, _, _, _, _, _, _, _ => by
      rw [UnknownElement.names, elementsNames]
      exact List.forall_mem_nil _
  | .array (element :: elements), depth, rest, loc, pre, tokens, hwell, hnumbers, hrest, hscan, h => by
      rw [UnknownElement.numbers] at hnumbers
      rw [UnknownElement.names]
      cases h with
      | @array first last _ inner hfirst h hlast =>
          rw [writeElement_array] at hscan
          simp only [List.append_assoc, List.cons_append] at hscan
          obtain ⟨loc', hinner⟩ := exists_scan_behind .arrayBegin "[" (by decide) hscan
          exact plain_of_spellsElements (element :: elements) (depth + 1) _ loc' inner _ (wellFormed_array.mp hwell)
            hnumbers hinner h
  | .number _, _, _, _, _, _, _, _, _, _, _ => List.forall_mem_nil _
  | .boolean _, _, _, _, _, _, _, _, _, _, _ => List.forall_mem_nil _
  | .string _, _, _, _, _, _, _, _, _, _, _ => List.forall_mem_nil _
  | .null, _, _, _, _, _, _, _, _, _, _ => List.forall_mem_nil _

theorem plain_of_spellsMembers : ∀ (members : List (String × UnknownElement)) (depth : Nat) (rest : List Char)
    (loc : Location) (pre tokens : List Token), membersWellFormed members →
    (∀ bits ∈ membersNumbers members, RoundTrips format bits) →
    scan ⟨Writer.writeMembers format depth members ++ rest, loc⟩ = .ok (pre ++ tokens) →
    SpellsMembers format members pre → ∀ name ∈ membersNames members, Plain name
  | [], _, _, _, _, _, _, _, _, _ => by
      rw [membersNames]
      exact List.forall_mem_nil _
  | (name, element) :: members, depth, rest, loc, pre, tokens, hwell, hnumbers, hscan, h => by
      rw [membersWellFormed] at hwell
      rw [membersNumbers] at hnumbers
      obtain ⟨hnumbersElement, hnumbersMembers⟩ := List.forall_mem_append.mp hnumbers
      obtain ⟨token, assign, toks, tail, rfl, htype, hvalue, helement, htail⟩ := spellsMembers_cons h
      rw [writeMembers_cons] at hscan
      simp only [List.append_assoc, List.cons_append] at hscan
      have hname : Plain name := plain_of_scan hscan htype hvalue
      have hend := endsNumber_itemTail members (Writer.writeMembers format depth members ++ rest)
      -- behind the name and the colon
      obtain ⟨pre1, tokens1, loc1, ⟨_, _, rfl, -⟩, heq1, hscan1⟩ := (scans_memberHead depth hname _).split hscan
      obtain ⟨-, rfl⟩ := List.cons.inj (List.cons.inj heq1).2
      have hnamesElement := plain_of_spells element depth _ loc1 toks _ hwell.1 hnumbersElement hend hscan1 helement
      -- behind the element
      obtain ⟨pre2, tokens2, loc2, hpre2, heq2, hscan2⟩ :=
        (scans_writeElement element depth _ hnamesElement hnumbersElement hend).split hscan1
      obtain rfl := rest_eq_of_spells helement hpre2 hwell.1 heq2
      have hnamesMembers : ∀ name ∈ membersNames members, Plain name := by
        obtain ⟨rfl, -⟩ | ⟨comma, tokens', rfl, -, htokens'⟩ := htail
        · rw [membersNames]
          exact List.forall_mem_nil _
        · cases members with
          | nil => cases htokens'
          | cons member members =>
              obtain ⟨loc3, hscan3⟩ := exists_scan_behind .nextElement "," (by decide) hscan2
              exact plain_of_spellsMembers (member :: members) depth rest loc3 tokens' tokens hwell.2
                hnumbersMembers hscan3 htokens'
      rw [membersNames, List.cons_append]
      exact List.forall_mem_cons.mpr ⟨hname, List.forall_mem_append.mpr ⟨hnamesElement, hnamesMembers⟩⟩

theorem plain_of_spellsElements : ∀ (elements : List UnknownElement) (depth : Nat) (rest : List Char)
    (loc : Location) (pre tokens : List Token), elementsWellFormed elements →
    (∀ bits ∈ elementsNumbers elements, RoundTrips format bits) →
    scan ⟨Writer.writeElements format depth elements ++ rest, loc⟩ = .ok (pre ++ tokens) →
    SpellsElements format elements pre → ∀ name ∈ elementsNames elements, Plain name
  | [], _, _, _, _, _, _, _, _, _ => by
      rw [elementsNames]
      exact List.forall_mem_nil _
  | element :: elements, depth, rest, loc, pre, tokens, hwell, hnumbers, hscan, h => by
      rw [elementsWellFormed] at hwell
      rw [elementsNumbers] at hnumbers
      obtain ⟨hnumbersElement, hnumbersElements⟩ := List.forall_mem_append.mp hnumbers
      obtain ⟨toks, tail, rfl, helement, htail⟩ := spellsElements_cons h
      rw [writeElements_cons] at hscan
      simp only [List.append_assoc] at hscan
      have hend := endsNumber_itemTail elements (Writer.writeElements format depth elements ++ rest)
      obtain ⟨pre1, tokens1, loc1, rfl, rfl, hscan1⟩ := (scans_tabs depth _).split hscan
      have hnamesElement := plain_of_spells element depth _ loc1 toks _ hwell.1 hnumbersElement hend hscan1 helement
      obtain ⟨pre2, tokens2, loc2, hpre2, heq2, hscan2⟩ :=
        (scans_writeElement element depth _ hnamesElement hnumbersElement hend).split hscan1
      obtain rfl := rest_eq_of_spells helement hpre2 hwell.1 heq2
      have hnamesElements : ∀ name ∈ elementsNames elements, Plain name := by
        obtain ⟨rfl, -⟩ | ⟨comma, tokens', rfl, -, htokens'⟩ := htail
        · rw [elementsNames]
          exact List.forall_mem_nil _
        · cases elements with
          | nil => cases htokens'
          | cons element' elements =>
              obtain ⟨loc3, hscan3⟩ := exists_scan_behind .nextElement "," (by decide) hscan2
              exact plain_of_spellsElements (element' :: elements) depth rest loc3 tokens' tokens hwell.2
                hnumbersElements hscan3 htokens'
      rw [elementsNames]
      exact List.forall_mem_append.mpr ⟨hnamesElement, hnamesElements⟩

end

theorem plain_of_read_write {format : NumberFormat} {e : UnknownElement} (hwell : e.WellFormed)
    (hnumbers : ∀ bits ∈ e.numbers, RoundTrips format bits) (h : read format (Writer.write format e) = .ok e) :
    ∀ name ∈ e.names, Plain name := by
  obtain ⟨tokens, hscan, hspells, -⟩ := spells_of_read h
  rw [← List.append_nil (Writer.write format e), ← List.append_nil tokens] at hscan
  exact plain_of_spells e 0 [] .start tokens [] hwell hnumbers (fun _ hc => by cases hc) hscan hspells

theorem read_write_of_plain {format : NumberFormat} {e : UnknownElement} (hwell : e.WellFormed)
    (hnumbers : ∀ bits ∈ e.numbers, RoundTrips format bits) (hnames : ∀ name ∈ e.names, Plain name) :
    read format (Writer.write format e) = .ok e := by
  obtain ⟨pre, loc, hpre, hscan⟩ := scans_writeElement e 0 [] hnames hnumbers (fun _ hc => by cases hc) .start
  have hempty : scan ⟨[], loc⟩ = .ok [] := scan_nil rfl
  rw [hempty, List.append_nil] at hscan
  refine read_of_spells ?_ hpre hwell
  rw [Writer.write, hscan]
  exact congrArg Except.ok (List.append_nil pre)

/-- **Round trip.** What the writer prints reads back exactly when no name of a member has a character in it that
the writer should have escaped. -/
theorem read_write_iff (format : NumberFormat) (e : UnknownElement) (hwell : e.WellFormed)
    (hnumbers : ∀ bits ∈ e.numbers, RoundTrips format bits) :
    read format (Writer.write format e) = .ok e ↔ ∀ name ∈ e.names, Plain name :=
  ⟨plain_of_read_write hwell hnumbers, read_write_of_plain hwell hnumbers⟩

theorem roundTrips_two : RoundTrips .wholeNumbers 0x4000000000000000 :=
  ⟨⟨'2', by decide, rfl⟩, List.forall_mem_singleton.mpr (by decide), rfl⟩

def quotedName : UnknownElement := .object [("id", .number 0x4000000000000000), ("\"", .null)]

theorem read_write_iff_quote :
    read .wholeNumbers (Writer.write .wholeNumbers quotedName) = .ok quotedName ↔
      ∀ name ∈ quotedName.names, Plain name :=
  read_write_iff .wholeNumbers quotedName
    (wellFormed_object.mpr ⟨by decide, trivial, trivial, trivial⟩)
    (List.forall_mem_singleton.mpr roundTrips_two)

end Reader

end Brainslug.Json
