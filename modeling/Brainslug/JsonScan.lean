import Brainslug.JsonText

/-! `Reader::Scan`. Every matching function takes a text off the stream, so the tokens lie in the document one
behind the other, with nothing but white space in between, and their locations are those of their texts. -/

namespace Brainslug.Json.Reader

abbrev Consumes (s : InputStream) (text : List Char) (s' : InputStream) : Prop :=
  Cursor.Consumes Location.advance s text s'

/-- The characters between the quotes and the string they are read as. -/
inductive Unescapes : List Char → List Char → Prop where
  | nil : Unescapes [] []
  | char {c : Char} {raw chars : List Char} (hquote : c ≠ '"') (hbackslash : c ≠ '\\') (h : Unescapes raw chars) :
      Unescapes (c :: raw) (c :: chars)
  | escape {c c' : Char} {raw chars : List Char} (hescape : unescape c = some c') (h : Unescapes raw chars) :
      Unescapes ('\\' :: c :: raw) (c' :: chars)

/-- The texts of the tokens that are not strings or numbers. -/
def fixedTexts : TokenType → List String
  | .objectBegin => ["\x7b"]
  | .objectEnd => ["\x7d"]
  | .arrayBegin => ["["]
  | .arrayEnd => ["]"]
  | .nextElement => [","]
  | .memberAssign => [":"]
  | .boolean => ["true", "false"]
  | .null => ["null"]
  | .string | .number => []

/-- The characters at which the scanner takes a number. -/
def numberStart : List Char := ['-', '0', '1', '2', '3', '4', '5', '6', '7', '8', '9']

/-- The text of a token in front of the rest of the document. A number goes on as long as it can. -/
def Lexes (nType : TokenType) (sValue : String) (text rest : List Char) : Prop :=
  match nType with
  | .string => ∃ raw, text = '"' :: (raw ++ ['"']) ∧ Unescapes raw sValue.toList
  | .number => text = sValue.toList ∧ (∃ c ∈ numberStart, text.head? = some c) ∧
      (∀ c ∈ text, c ∈ numericChars) ∧ ∀ c ∈ rest.head?, c ∉ numericChars
  | nType => sValue ∈ fixedTexts nType ∧ text = sValue.toList

/-- What two steps return, the first returned something for. -/
theorem exists_of_bind_ok {ε α β : Type} {x : Except ε α} {f : α → Except ε β} {b : β} (h : (x >>= f) = .ok b) :
    ∃ a, x = .ok a ∧ f a = .ok b := by
  cases x with
  | error e => cases h
  | ok a => exact ⟨a, rfl, h⟩

theorem bind_of_eq_ok {ε α β : Type} {x : Except ε α} {a : α} (h : x = .ok a) (f : α → Except ε β) :
    (x >>= f) = f a := by
  rw [h]
  rfl

/-! ### What each function takes off the stream -/

theorem consumes_matchChars {sExpected : String} {expected : List Char} {s s' : InputStream}
    (h : matchChars sExpected expected s = .ok s') : Consumes s expected s' := by
  induction expected generalizing s with
  | nil =>
      obtain rfl := Except.ok.inj h
      exact .refl s
  | cons c expected ih =>
      rw [matchChars] at h
      split at h
      · cases h
      · next c' s1 hget =>
          split_ifs at h with heq
          subst heq
          exact (Cursor.consumes_next hget).trans (ih h)

theorem consumes_matchExpectedString {sExpected : String} {s s' : InputStream}
    (h : matchExpectedString sExpected s = .ok s') : Consumes s sExpected.toList s' :=
  consumes_matchChars h

/-- The loop stops at the end of the stream or before a quote that is not escaped. -/
theorem consumes_stringChars {rest : List Char} {loc : Location} {chars : List Char} {s' : InputStream}
    (h : stringChars rest loc = .ok (chars, s')) :
    ∃ raw, Consumes ⟨rest, loc⟩ raw s' ∧ (s'.rest ≠ [] → Unescapes raw chars) := by
  fun_induction stringChars rest loc generalizing chars s' with
  | case1 loc =>
      obtain ⟨rfl, rfl⟩ := Prod.mk.inj (Except.ok.inj h)
      exact ⟨[], .refl _, fun _ => .nil⟩
  | case2 rest loc =>
      obtain ⟨rfl, rfl⟩ := Prod.mk.inj (Except.ok.inj h)
      exact ⟨[], .refl _, fun _ => .nil⟩
  | case3 c rest loc c' hescape ih =>
      obtain ⟨⟨chars', s1⟩, hrest, hreturn⟩ := exists_of_bind_ok h
      obtain ⟨rfl, rfl⟩ := Prod.mk.inj (Except.ok.inj hreturn)
      obtain ⟨raw, hconsumes, hraw⟩ := ih hrest
      refine ⟨'\\' :: c :: raw, ⟨?_, hconsumes.position_eq⟩, fun hne => .escape hescape (hraw hne)⟩
      exact congrArg (fun rest => '\\' :: c :: rest) hconsumes.rest_eq
  | case4 c rest loc hescape => cases h
  | case5 c rest loc hquote hbackslash ih =>
      obtain ⟨⟨chars', s1⟩, hrest, hreturn⟩ := exists_of_bind_ok h
      obtain ⟨rfl, rfl⟩ := Prod.mk.inj (Except.ok.inj hreturn)
      obtain ⟨raw, hconsumes, hraw⟩ := ih hrest
      refine ⟨c :: raw, ⟨congrArg (List.cons c) hconsumes.rest_eq, hconsumes.position_eq⟩, fun hne => ?_⟩
      refine .char hquote (fun heq => ?_) (hraw hne)
      cases rest with
      | nil =>
          -- a backslash in front of nothing ends the stream
          obtain ⟨-, rfl⟩ := Prod.mk.inj (Except.ok.inj hrest)
          exact hne rfl
      | cons c' rest' => exact hbackslash c' rest' heq rfl

theorem consumes_matchString {s s' : InputStream} {sValue : String} (h : matchString s = .ok (sValue, s')) :
    ∃ raw, Consumes s ('"' :: (raw ++ ['"'])) s' ∧ Unescapes raw sValue.toList := by
  obtain ⟨s1, hopen, h⟩ := exists_of_bind_ok h
  obtain ⟨⟨chars, s2⟩, hchars, h⟩ := exists_of_bind_ok h
  obtain ⟨s3, hclose, hreturn⟩ := exists_of_bind_ok h
  obtain ⟨rfl, rfl⟩ := Prod.mk.inj (Except.ok.inj hreturn)
  obtain ⟨raw, hraw, hunescapes⟩ := consumes_stringChars hchars
  have hquote := consumes_matchExpectedString hclose
  have hne : s2.rest ≠ [] := by
    rw [hquote.rest_eq]
    exact List.cons_ne_nil _ _
  refine ⟨raw, (consumes_matchExpectedString hopen).trans (hraw.trans hquote), ?_⟩
  rw [String.toList_ofList]
  exact hunescapes hne

theorem lexes_fixed {nType : TokenType} {sValue : String} (rest : List Char) (h : sValue ∈ fixedTexts nType) :
    Lexes nType sValue sValue.toList rest := by
  cases nType with
  | string | number => cases h
  | _ => exact ⟨h, rfl⟩

theorem consumes_fixedToken {nType nType' : TokenType} {sValue sValue' : String} {s s' : InputStream}
    (hfixed : sValue' ∈ fixedTexts nType') (h : fixedToken nType' sValue' s = .ok (nType, sValue, s')) :
    ∃ text, Consumes s text s' ∧ Lexes nType sValue text s'.rest := by
  obtain ⟨s1, hmatch, hreturn⟩ := exists_of_bind_ok h
  obtain ⟨rfl, hvalue⟩ := Prod.mk.inj (Except.ok.inj hreturn)
  obtain ⟨rfl, rfl⟩ := Prod.mk.inj hvalue
  exact ⟨sValue'.toList, consumes_matchExpectedString hmatch, lexes_fixed _ hfixed⟩

theorem consumes_stringToken {s s' : InputStream} {nType : TokenType} {sValue : String}
    (h : stringToken s = .ok (nType, sValue, s')) :
    ∃ text, Consumes s text s' ∧ Lexes nType sValue text s'.rest := by
  obtain ⟨⟨sValue', s1⟩, hstring, hreturn⟩ := exists_of_bind_ok h
  obtain ⟨rfl, hvalue⟩ := Prod.mk.inj (Except.ok.inj hreturn)
  obtain ⟨rfl, rfl⟩ := Prod.mk.inj hvalue
  obtain ⟨raw, hconsumes, hunescapes⟩ := consumes_matchString hstring
  exact ⟨_, hconsumes, raw, rfl, hunescapes⟩

theorem mem_numericChars {c : Char} (h : c ∈ numberStart) : c ∈ numericChars := by
  have hsubset : numberStart ⊆ numericChars := by decide
  exact hsubset h

/-- A stream at the beginning of a number goes on with one. -/
theorem consumes_numberToken {c : Char} {s s' : InputStream} {nType : TokenType} {sValue : String}
    (hhead : s.rest.head? = some c) (hc : c ∈ numberStart) (h : numberToken s = .ok (nType, sValue, s')) :
    ∃ text, Consumes s text s' ∧ Lexes nType sValue text s'.rest := by
  obtain ⟨rfl, hvalue⟩ := Prod.mk.inj (Except.ok.inj h)
  obtain ⟨rfl, rfl⟩ := Prod.mk.inj hvalue
  refine ⟨_, Cursor.consumes_takeWhile _ s, String.toList_ofList.symm, ⟨c, hc, ?_⟩, ?_, ?_⟩
  · rw [Cursor.head?_takeWhile, hhead]
    simp [mem_numericChars hc]
  · intro d hd
    simpa using Cursor.forall_mem_takeWhile d hd
  · intro d hd
    simpa using Cursor.forall_head?_takeWhile d hd

/-- **One token.** It takes its own text off the stream. -/
theorem consumes_scanToken {c : Char} {s s' : InputStream} {nType : TokenType} {sValue : String}
    (hhead : s.rest.head? = some c) (h : scanToken c s = .ok (nType, sValue, s')) :
    ∃ text, Consumes s text s' ∧ Lexes nType sValue text s'.rest := by
  unfold scanToken at h
  split at h
  all_goals first
    | exact consumes_stringToken h
    | exact consumes_numberToken hhead (by decide) h
    | exact consumes_fixedToken (by decide) h
    | cases h

theorem fixed_head? {nType : TokenType} {sValue : String} (h : sValue ∈ fixedTexts nType) :
    ∃ c, sValue.toList.head? = some c ∧ isspace c = false := by
  have hall : ∀ sValue ∈ fixedTexts nType, (sValue.toList.head?.any fun c => !isspace c) = true := by
    cases nType <;> decide
  simpa [Option.any_eq_true] using hall sValue h

/-- The text of a token is not empty, and white space in front of it ends where it begins. -/
theorem Lexes.head? {nType : TokenType} {sValue : String} {text rest : List Char}
    (h : Lexes nType sValue text rest) : ∃ c, text.head? = some c ∧ isspace c = false := by
  cases nType with
  | string =>
      obtain ⟨raw, rfl, -⟩ := h
      exact ⟨'"', rfl, by decide⟩
  | number =>
      obtain ⟨-, ⟨c, hc, hhead⟩, -⟩ := h
      have hall : (numberStart.all fun c => !isspace c) = true := by decide
      exact ⟨c, hhead, by simpa using List.all_eq_true.mp hall c hc⟩
  | _ =>
      obtain ⟨hfixed, rfl⟩ := h
      exact fixed_head? hfixed

theorem Lexes.ne_nil {nType : TokenType} {sValue : String} {text rest : List Char}
    (h : Lexes nType sValue text rest) : text ≠ [] := by
  obtain ⟨c, hhead, -⟩ := h.head?
  intro heq
  rw [heq] at hhead
  cases hhead

theorem consumes_eatWhiteSpace (s : InputStream) :
    ∃ space, (∀ c ∈ space, isspace c = true) ∧ Consumes s space (eatWhiteSpace s) :=
  ⟨_, Cursor.forall_mem_takeWhile, Cursor.consumes_takeWhile isspace s⟩

/-! ### `Scan` -/

theorem length_scanToken_lt {c : Char} {rest : List Char} {s s' : InputStream} {nType : TokenType} {sValue : String}
    (hrest : (eatWhiteSpace s).rest = c :: rest) (htoken : scanToken c (eatWhiteSpace s) = .ok (nType, sValue, s')) :
    s'.rest.length < s.rest.length := by
  obtain ⟨space, -, hspace⟩ := consumes_eatWhiteSpace s
  obtain ⟨text, htext, hlexes⟩ := consumes_scanToken (by rw [hrest]; rfl) htoken
  exact (htext.length_lt hlexes.ne_nil).trans_le hspace.length_le

def scan (s : InputStream) : Except Failure (List Token) :=
  match hrest : (eatWhiteSpace s).rest with
  | [] => .ok []
  | c :: _ =>
      match htoken : scanToken c (eatWhiteSpace s) with
      | .error e => .error e
      | .ok (nType, sValue, s') =>
          have := length_scanToken_lt hrest htoken
          do
            let tokens ← scan s'
            return ⟨nType, sValue, (eatWhiteSpace s).position, s'.position⟩ :: tokens
termination_by s.rest.length

theorem scan_nil {s : InputStream} (hrest : (eatWhiteSpace s).rest = []) : scan s = .ok [] := by
  rw [scan]
  split
  · rfl
  · next heq =>
    rw [hrest] at heq
    cases heq

theorem scan_cons {s : InputStream} {c : Char} {rest : List Char} (hrest : (eatWhiteSpace s).rest = c :: rest) :
    scan s = (do
      let (nType, sValue, s') ← scanToken c (eatWhiteSpace s)
      let tokens ← scan s'
      return ⟨nType, sValue, (eatWhiteSpace s).position, s'.position⟩ :: tokens) := by
  rw [scan]
  split
  · next heq =>
    rw [hrest] at heq
    cases heq
  · next c' rest' heq =>
    obtain ⟨rfl, -⟩ := List.cons.inj (heq.symm.trans hrest)
    split
    · next e htoken =>
      rw [htoken]
      rfl
    · next nType sValue s' htoken => rw [bind_of_eq_ok htoken]

/-- From here on the document is white space and the texts of these tokens, in order. -/
inductive Tiles : InputStream → List Token → Prop where
  | nil {s : InputStream} (hspace : ∀ c ∈ s.rest, isspace c = true) : Tiles s []
  | cons {s s1 s2 : InputStream} {space text : List Char} {token : Token} {tokens : List Token}
      (hspace : ∀ c ∈ space, isspace c = true) (hbefore : Consumes s space s1) (hbegin : token.locBegin = s1.position)
      (hlexes : Lexes token.nType token.sValue text s2.rest) (htext : Consumes s1 text s2)
      (hend : token.locEnd = s2.position) (hrest : Tiles s2 tokens) : Tiles s (token :: tokens)

theorem tiles_of_scan {s : InputStream} {tokens : List Token} (h : scan s = .ok tokens) : Tiles s tokens := by
  obtain ⟨space, hspace, hbefore⟩ := consumes_eatWhiteSpace s
  cases hrest : (eatWhiteSpace s).rest with
  | nil =>
      rw [scan_nil hrest] at h
      obtain rfl := Except.ok.inj h
      refine .nil ?_
      rw [hbefore.rest_eq, hrest, List.append_nil]
      exact hspace
  | cons c rest =>
      rw [scan_cons hrest] at h
      obtain ⟨⟨nType, sValue, s'⟩, htoken, h⟩ := exists_of_bind_ok h
      obtain ⟨tokens', htokens, hreturn⟩ := exists_of_bind_ok h
      obtain rfl := Except.ok.inj hreturn
      obtain ⟨text, htext, hlexes⟩ := consumes_scanToken (by rw [hrest]; rfl) htoken
      exact .cons hspace hbefore rfl hlexes htext rfl (tiles_of_scan htokens)
termination_by s.rest.length
decreasing_by
  exact (htext.length_lt hlexes.ne_nil).trans_le hbefore.length_le

/-! ### Texts that scan -/

theorem matchChars_append (sExpected : String) (expected rest : List Char) (loc : Location) :
    matchChars sExpected expected ⟨expected ++ rest, loc⟩ = .ok ⟨rest, expected.foldl Location.advance loc⟩ := by
  induction expected generalizing loc with
  | nil => rfl
  | cons c expected ih =>
      rw [List.cons_append, matchChars, get, Cursor.next_cons]
      exact (if_pos rfl).trans (ih _)

theorem stringChars_append {raw chars : List Char} (h : Unescapes raw chars) (rest : List Char) (loc : Location) :
    stringChars (raw ++ '"' :: rest) loc = .ok (chars, ⟨'"' :: rest, raw.foldl Location.advance loc⟩) := by
  induction h generalizing loc with
  | nil => rw [List.nil_append, stringChars, List.foldl_nil]
  | @char c raw chars hquote hbackslash _ ih =>
      rw [List.cons_append, stringChars]
      · rw [ih]
        rfl
      · exact hquote
      · intro c' rest' heq
        exact absurd heq hbackslash
  | @escape c c' raw chars hescape _ ih =>
      rw [List.cons_append, List.cons_append, stringChars, hescape]
      simp only [ih]
      rfl

theorem matchString_append {raw : List Char} {sValue : String} (h : Unescapes raw sValue.toList)
    (rest : List Char) (loc : Location) : matchString ⟨'"' :: (raw ++ ['"']) ++ rest, loc⟩ =
      .ok (sValue, ⟨rest, ('"' :: (raw ++ ['"'])).foldl Location.advance loc⟩) := by
  have hopen : matchExpectedString "\"" ⟨'"' :: (raw ++ ['"']) ++ rest, loc⟩ =
      .ok ⟨raw ++ '"' :: rest, loc.advance '"'⟩ := by
    have htext : '"' :: (raw ++ ['"']) ++ rest = ['"'] ++ (raw ++ '"' :: rest) := by simp
    rw [htext]
    exact matchChars_append _ ['"'] _ _
  have hclose : ∀ loc, matchExpectedString "\"" ⟨'"' :: rest, loc⟩ = .ok ⟨rest, loc.advance '"'⟩ := fun loc =>
    matchChars_append _ ['"'] rest loc
  rw [matchString, bind_of_eq_ok hopen, bind_of_eq_ok (stringChars_append h _ _)]
  dsimp only
  rw [bind_of_eq_ok (hclose _)]
  simp [pure, Except.pure, List.foldl_append]

theorem fixedToken_append (nType : TokenType) (sValue : String) (rest : List Char) (loc : Location) :
    fixedToken nType sValue ⟨sValue.toList ++ rest, loc⟩ =
      .ok (nType, sValue, ⟨rest, sValue.toList.foldl Location.advance loc⟩) := by
  rw [fixedToken, matchExpectedString, matchChars_append]
  rfl

theorem scanToken_number {c : Char} (hc : c ∈ numberStart) (s : InputStream) : scanToken c s = numberToken s := by
  simp only [numberStart, List.mem_cons, List.not_mem_nil, or_false] at hc
  obtain rfl | rfl | rfl | rfl | rfl | rfl | rfl | rfl | rfl | rfl | rfl := hc <;> rfl

theorem scanToken_fixed {nType : TokenType} {sValue : String} {c : Char} (h : sValue ∈ fixedTexts nType)
    (hhead : sValue.toList.head? = some c) (s : InputStream) : scanToken c s = fixedToken nType sValue s := by
  cases nType <;> simp only [fixedTexts, List.mem_cons, List.not_mem_nil, or_false] at h
  case boolean => obtain rfl | rfl := h <;> obtain rfl := Option.some.inj hhead <;> rfl
  all_goals
    subst h
    obtain rfl := Option.some.inj hhead
    rfl

theorem scanToken_append {nType : TokenType} {sValue : String} {text rest : List Char} {c : Char}
    (h : Lexes nType sValue text rest) (hhead : text.head? = some c) (loc : Location) :
    scanToken c ⟨text ++ rest, loc⟩ = .ok (nType, sValue, ⟨rest, text.foldl Location.advance loc⟩) := by
  cases nType with
  | string =>
      obtain ⟨raw, rfl, hraw⟩ := h
      obtain rfl := Option.some.inj hhead
      change stringToken _ = _
      rw [stringToken, matchString_append hraw]
      rfl
  | number =>
      obtain ⟨htext, ⟨c', hc', hhead'⟩, hnumeric, hrest⟩ := h
      obtain rfl := Option.some.inj (hhead.symm.trans hhead')
      have htake : (⟨text ++ rest, loc⟩ : InputStream).takeWhile Location.advance (fun c => c ∈ numericChars) =
          (text, ⟨rest, text.foldl Location.advance loc⟩) :=
        Cursor.takeWhile_append (by simpa using hnumeric) (by simpa using hrest) loc
      rw [scanToken_number hc', numberToken, matchNumber, htake, htext]
      simp
  | _ =>
      obtain ⟨hfixed, rfl⟩ := h
      rw [scanToken_fixed hfixed hhead, fixedToken_append]

theorem scan_of_tiles {s : InputStream} {tokens : List Token} (h : Tiles s tokens) : scan s = .ok tokens := by
  induction h with
  | @nil s hspace =>
      apply scan_nil
      change s.rest.dropWhile isspace = []
      exact List.dropWhile_eq_nil_iff.mpr hspace
  | @cons s s1 s2 space text token tokens hspace hbefore hbegin hlexes htext hend _ ih =>
      obtain ⟨c, hhead, hc⟩ := hlexes.head?
      have hs1 : s1 = ⟨text ++ s2.rest, s1.position⟩ := htext.eq.1
      have heat : eatWhiteSpace s = s1 := by
        have hrest : ∀ d ∈ (text ++ s2.rest).head?, isspace d = false := by
          intro d hd
          rw [List.head?_append, hhead] at hd
          obtain rfl := Option.some.inj hd
          exact hc
        have htake : eatWhiteSpace ⟨space ++ (text ++ s2.rest), s.position⟩ =
            ⟨text ++ s2.rest, space.foldl Location.advance s.position⟩ :=
          congrArg Prod.snd (Cursor.takeWhile_append hspace hrest s.position)
        rw [hbefore.eq.1, hs1, htake, hbefore.position_eq]
      obtain ⟨rest, hrest⟩ : ∃ rest, (eatWhiteSpace s).rest = c :: rest := by
        cases text with
        | nil => cases hhead
        | cons d text =>
            obtain rfl := Option.some.inj hhead
            exact ⟨text ++ s2.rest, by rw [heat, hs1]; rfl⟩
      rw [scan_cons hrest, heat, hs1, scanToken_append hlexes hhead]
      have hs2 : (⟨s2.rest, text.foldl Location.advance s1.position⟩ : InputStream) = s2 := htext.eq.2.symm
      rw [hs2]
      change (scan s2 >>= _) = _
      rw [bind_of_eq_ok ih, ← hbegin, ← hend]
      rfl

/-- **The scanner.** It returns these tokens exactly for the documents that their texts lie in. -/
theorem scan_eq_ok_iff {s : InputStream} {tokens : List Token} : scan s = .ok tokens ↔ Tiles s tokens :=
  ⟨tiles_of_scan, scan_of_tiles⟩

end Brainslug.Json.Reader
