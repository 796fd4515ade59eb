import Mathlib.Data.Set.Basic
import Brainslug.JsonGrammar

/-! How reading fails: always with the location of some place in the document, and with the failed assertion
exactly when the tokens end behind a comma between two members of an object. -/

namespace Brainslug.Json.Reader

variable {format : NumberFormat}

/-! ### Locations -/

/-- The location behind a text: its line feeds, the characters behind the last of them, and all of them, each
counted modulo 2^32. -/
def locationAfter (text : List Char) : Location :=
  ⟨.ofNat (text.count '\n'), .ofNat (text.reverse.takeWhile fun c => c ≠ '\n').length, .ofNat text.length⟩

theorem foldl_advance (text : List Char) : text.foldl Location.advance .start = locationAfter text := by
  induction text using List.reverseRecOn with
  | nil => rfl
  | append_singleton text c ih =>
      rw [List.foldl_append, ih, List.foldl_cons, List.foldl_nil, Location.advance]
      by_cases hc : c = '\n'
      · subst hc
        simp [locationAfter, UInt32.ofNat_add]
      · rw [if_neg hc]
        simp [locationAfter, hc, UInt32.ofNat_add]

/-- The locations are those of the token's text in the document. -/
theorem token_located {doc before : List Char} {s : InputStream} {tokens : List Token}
    (hbefore : Consumes ⟨doc, .start⟩ before s) (h : Tiles s tokens) (token : Token) (htoken : token ∈ tokens) :
    ∃ pre text post, doc = pre ++ text ++ post ∧ Lexes token.nType token.sValue text post ∧
      token.locBegin = locationAfter pre ∧ token.locEnd = locationAfter (pre ++ text) := by
  induction h generalizing before with
  | nil => cases htoken
  | @cons s s1 s2 space text token' tokens _ hspace hbegin hlexes htext hend _ ih =>
      have hpre := hbefore.trans hspace
      have hend' := hpre.trans htext
      rcases List.mem_cons.mp htoken with rfl | htail
      · refine ⟨before ++ space, text, s2.rest, hend'.rest_eq, hlexes, ?_, ?_⟩
        · rw [hbegin, hpre.position_eq, foldl_advance]
        · rw [hend, hend'.position_eq, foldl_advance]
      · exact ih hend' htail

/-- The places that a failure points to. -/
def Failure.locations : Failure → List Location
  | .scan _ locError => [locError]
  | .escape locError => [locError]
  | .parse _ locTokenBegin locTokenEnd => [locTokenBegin, locTokenEnd]
  | .number locTokenBegin locTokenEnd => [locTokenBegin, locTokenEnd]
  | .assertion | .outOfFuel => []

/-! ### Failures of the scanner -/

theorem exists_of_bind_error {ε α β : Type} {x : Except ε α} {f : α → Except ε β} {e : ε}
    (h : (x >>= f) = .error e) : x = .error e ∨ ∃ a, x = .ok a ∧ f a = .error e := by
  cases x with
  | error e' => exact Or.inl (congrArg Except.error (Except.error.inj h))
  | ok a => exact Or.inr ⟨a, rfl, h⟩

/-- The failure points to where some text was taken off the stream. -/
def FailsWithin (s : InputStream) (e : Failure) : Prop := ∃ text s', Consumes s text s' ∧ e.locations = [s'.position]

theorem FailsWithin.of_consumes {s s' : InputStream} {text : List Char} {e : Failure} (hs : Consumes s text s')
    (h : FailsWithin s' e) : FailsWithin s e := by
  obtain ⟨text', s'', hs', hlocations⟩ := h
  exact ⟨text ++ text', s'', hs.trans hs', hlocations⟩

theorem fails_matchChars {sExpected : String} {expected : List Char} {s : InputStream} {e : Failure}
    (h : matchChars sExpected expected s = .error e) : FailsWithin s e := by
  induction expected generalizing s with
  | nil => cases h
  | cons c expected ih =>
      rw [matchChars] at h
      split at h
      · obtain rfl := Except.error.inj h
        exact ⟨[], s, .refl s, rfl⟩
      · next c' s1 hget =>
          have hnext := Cursor.consumes_next hget
          split_ifs at h
          · exact .of_consumes hnext (ih h)
          · obtain rfl := Except.error.inj h
            exact ⟨[c'], s1, hnext, rfl⟩

theorem fails_stringChars {rest : List Char} {loc : Location} {e : Failure} (h : stringChars rest loc = .error e) :
    FailsWithin ⟨rest, loc⟩ e := by
  fun_induction stringChars rest loc with
  | case1 loc => cases h
  | case2 rest loc => cases h
  | case3 c rest loc c' hescape ih =>
      have hskip : Consumes ⟨'\\' :: c :: rest, loc⟩ ['\\', c] ⟨rest, (loc.advance '\\').advance c⟩ := ⟨rfl, rfl⟩
      obtain hfails | ⟨_, _, hreturn⟩ := exists_of_bind_error h
      · exact .of_consumes hskip (ih hfails)
      · cases hreturn
  | case4 c rest loc hescape =>
      obtain rfl := Except.error.inj h
      exact ⟨['\\', c], ⟨rest, _⟩, ⟨rfl, rfl⟩, rfl⟩
  | case5 c rest loc hquote hbackslash ih =>
      have hskip : Consumes ⟨c :: rest, loc⟩ [c] ⟨rest, loc.advance c⟩ := ⟨rfl, rfl⟩
      obtain hfails | ⟨_, _, hreturn⟩ := exists_of_bind_error h
      · exact .of_consumes hskip (ih hfails)
      · cases hreturn

theorem fails_matchString {s : InputStream} {e : Failure} (h : matchString s = .error e) : FailsWithin s e := by
  obtain hopen | ⟨s1, hopen, h1⟩ := exists_of_bind_error h
  · exact fails_matchChars hopen
  · have hquote := consumes_matchExpectedString hopen
    obtain hchars | ⟨⟨chars, s2⟩, hchars, h2⟩ := exists_of_bind_error h1
    · exact .of_consumes hquote (fails_stringChars hchars)
    · obtain ⟨raw, hraw, -⟩ := consumes_stringChars hchars
      obtain hclose | ⟨_, _, hreturn⟩ := exists_of_bind_error h2
      · exact .of_consumes (hquote.trans hraw) (fails_matchChars hclose)
      · cases hreturn

theorem fails_fixedToken {nType : TokenType} {sValue : String} {s : InputStream} {e : Failure}
    (h : fixedToken nType sValue s = .error e) : FailsWithin s e := by
  obtain hmatch | ⟨_, _, hreturn⟩ := exists_of_bind_error h
  · exact fails_matchChars hmatch
  · cases hreturn

theorem fails_stringToken {s : InputStream} {e : Failure} (h : stringToken s = .error e) : FailsWithin s e := by
  obtain hmatch | ⟨_, _, hreturn⟩ := exists_of_bind_error h
  · exact fails_matchString hmatch
  · cases hreturn

theorem fails_unexpected {s : InputStream} {message : String} {e : Failure}
    (h : (Except.error (.scan message s.position) : Except Failure (TokenType × String × InputStream)) = .error e) :
    FailsWithin s e := by
  obtain rfl := Except.error.inj h
  exact ⟨[], s, .refl s, rfl⟩

theorem fails_scanToken {c : Char} {s : InputStream} {e : Failure} (h : scanToken c s = .error e) :
    FailsWithin s e := by
  unfold scanToken at h
  split at h
  all_goals first
    | exact fails_stringToken h
    | exact fails_fixedToken h
    | exact fails_unexpected h
    | cases h

theorem fails_scan {s : InputStream} {e : Failure} (h : scan s = .error e) : FailsWithin s e := by
  obtain ⟨space, -, hbefore⟩ := consumes_eatWhiteSpace s
  cases hrest : (eatWhiteSpace s).rest with
  | nil =>
      rw [scan_nil hrest] at h
      cases h
  | cons c rest =>
      rw [scan_cons hrest] at h
      obtain htoken | ⟨⟨nType, sValue, s'⟩, htoken, h1⟩ := exists_of_bind_error h
      · exact .of_consumes hbefore (fails_scanToken htoken)
      · obtain ⟨text, htext, hlexes⟩ := consumes_scanToken (by rw [hrest]; rfl) htoken
        obtain htokens | ⟨_, _, hreturn⟩ := exists_of_bind_error h1
        · exact .of_consumes (hbefore.trans htext) (fails_scan htokens)
        · cases hreturn
termination_by s.rest.length
decreasing_by
  exact (htext.length_lt hlexes.ne_nil).trans_le hbefore.length_le

/-! ### Failures of the parser -/

mutual

/-- The tokens begin an element and end inside it, right behind the comma after a member of an object. -/
inductive Stuck (format : NumberFormat) : List Token → Prop where
  | object {first : Token} {tokens : List Token} (hfirst : first.nType = .objectBegin)
      (h : StuckMembers format [] tokens) : Stuck format (first :: tokens)
  | array {first : Token} {tokens : List Token} (hfirst : first.nType = .arrayBegin) (h : StuckElements format tokens) :
      Stuck format (first :: tokens)

/-- The same from a member on, behind the members with these names. -/
inductive StuckMembers (format : NumberFormat) : List String → List Token → Prop where
  | comma {names : List String} {name assign comma : Token} {element : UnknownElement} {tokens : List Token}
      (hname : name.nType = .string) (hassign : assign.nType = .memberAssign) (h : Spells format element tokens)
      (hwell : element.WellFormed) (hnew : name.sValue ∉ names) (hcomma : comma.nType = .nextElement) :
      StuckMembers format names (name :: assign :: (tokens ++ [comma]))
  | inside {names : List String} {name assign : Token} {tokens : List Token} (hname : name.nType = .string)
      (hassign : assign.nType = .memberAssign) (h : Stuck format tokens) :
      StuckMembers format names (name :: assign :: tokens)
  | next {names : List String} {name assign comma : Token} {element : UnknownElement} {tokens tokens' : List Token}
      (hname : name.nType = .string) (hassign : assign.nType = .memberAssign) (h : Spells format element tokens)
      (hwell : element.WellFormed) (hnew : name.sValue ∉ names) (hcomma : comma.nType = .nextElement)
      (hnext : StuckMembers format (names ++ [name.sValue]) tokens') :
      StuckMembers format names (name :: assign :: (tokens ++ comma :: tokens'))

inductive StuckElements (format : NumberFormat) : List Token → Prop where
  | inside {tokens : List Token} (h : Stuck format tokens) : StuckElements format tokens
  | next {comma : Token} {element : UnknownElement} {tokens tokens' : List Token} (h : Spells format element tokens)
      (hwell : element.WellFormed) (hcomma : comma.nType = .nextElement) (hnext : StuckElements format tokens') :
      StuckElements format (tokens ++ comma :: tokens')

end

/-- A location of one of the tokens, or the one that stands for no location. -/
def Among (tokens : List Token) (loc : Location) : Prop :=
  loc = .start ∨ ∃ token ∈ tokens, loc = token.locBegin ∨ loc = token.locEnd

/-- What a parser can raise on the tokens, if the assertion fails in this case. -/
def Explains (stuck : Prop) (tokens : List Token) : Failure → Prop
  | .parse _ locTokenBegin locTokenEnd => Among tokens locTokenBegin ∧ Among tokens locTokenEnd
  | .number locTokenBegin locTokenEnd => Among tokens locTokenBegin ∧ Among tokens locTokenEnd
  | .assertion => stuck
  | _ => False

theorem Among.mono {tokens tokens' : List Token} (hsub : tokens ⊆ tokens') {loc : Location} (h : Among tokens loc) :
    Among tokens' loc := by
  obtain hstart | ⟨token, htoken, hloc⟩ := h
  · exact Or.inl hstart
  · exact Or.inr ⟨token, hsub htoken, hloc⟩

theorem Explains.mono {stuck stuck' : Prop} {tokens tokens' : List Token} {e : Failure} (hsub : tokens ⊆ tokens')
    (hstuck : stuck → stuck') (h : Explains stuck tokens e) : Explains stuck' tokens' e := by
  cases e with
  | parse _ _ _ | number _ _ => exact ⟨h.1.mono hsub, h.2.mono hsub⟩
  | assertion => exact hstuck h
  | scan _ _ | escape _ | outOfFuel => exact h

/-- A failure at the first token. -/
theorem among_head (token : Token) (rest : List Token) :
    Among (token :: rest) token.locBegin ∧ Among (token :: rest) token.locEnd :=
  ⟨Or.inr ⟨token, List.mem_cons_self .., Or.inl rfl⟩, Or.inr ⟨token, List.mem_cons_self .., Or.inr rfl⟩⟩

theorem explains_matchExpectedToken {stuck : Prop} {nExpected : TokenType} {tokens : TokenStream} {e : Failure}
    (h : matchExpectedToken nExpected tokens = .error e) : Explains stuck tokens e := by
  cases tokens with
  | nil =>
      obtain rfl := Except.error.inj h
      exact ⟨Or.inl rfl, Or.inl rfl⟩
  | cons token tokens =>
      rw [matchExpectedToken] at h
      split_ifs at h
      obtain rfl := Except.error.inj h
      exact among_head token tokens

theorem explains_parseNumber {stuck : Prop} {token : Token} {tokens : TokenStream} {e : Failure}
    (h : parseNumber format (token :: tokens) = .error e) : Explains stuck (token :: tokens) e := by
  obtain hmatch | ⟨⟨sValue, tokens'⟩, hmatch, hread⟩ := exists_of_bind_error h
  · exact explains_matchExpectedToken hmatch
  · dsimp only at hread
    split at hread
    · cases hread
    · obtain rfl := Except.error.inj hread
      exact among_head token tokens

/-- With this fuel every failure is explained by the tokens. -/
structure Explained (format : NumberFormat) (fuel : Nat) : Prop where
  element : ∀ {tokens e}, 3 * tokens.length < fuel → parseElement format fuel tokens = .error e →
    Explains (Stuck format tokens) tokens e
  object : ∀ {object first tokens e}, (object.map Prod.fst).Nodup → first.nType = .objectBegin →
    3 * tokens.length + 1 < fuel → parseObject format fuel object (first :: tokens) = .error e →
    Explains (StuckMembers format (object.map Prod.fst) tokens) (first :: tokens) e
  members : ∀ {object tokens e}, (object.map Prod.fst).Nodup → tokens ≠ [] → 3 * tokens.length ≤ fuel →
    parseMembers format fuel object tokens = .error e →
    Explains (StuckMembers format (object.map Prod.fst) tokens) tokens e
  array : ∀ {first tokens e}, first.nType = .arrayBegin → 3 * tokens.length + 2 < fuel →
    parseArray format fuel (first :: tokens) = .error e → Explains (StuckElements format tokens) (first :: tokens) e
  elements : ∀ {array tokens e}, 3 * tokens.length + 1 < fuel → parseElements format fuel array tokens = .error e →
    Explains (StuckElements format tokens) tokens e

theorem explained_parseElement {fuel : Nat} (ih : Explained format fuel) {tokens : TokenStream} {e : Failure}
    (hfuel : 3 * tokens.length < fuel + 1) (h : parseElement format (fuel + 1) tokens = .error e) :
    Explains (Stuck format tokens) tokens e := by
  cases tokens with
  | nil =>
      obtain rfl := Except.error.inj h
      exact ⟨Or.inl rfl, Or.inl rfl⟩
  | cons token tokens =>
      rw [List.length_cons] at hfuel
      rw [parseElement] at h
      split at h
      · next hfirst =>
          obtain hparse | ⟨_, _, hreturn⟩ := exists_of_bind_error h
          · exact (ih.object (by exact List.nodup_nil) hfirst (by omega) hparse).mono (List.Subset.refl _)
              (.object hfirst)
          · cases hreturn
      · next hfirst =>
          obtain hparse | ⟨_, _, hreturn⟩ := exists_of_bind_error h
          · exact (ih.array hfirst (by omega) hparse).mono (List.Subset.refl _) (.array hfirst)
          · cases hreturn
      · obtain hmatch | ⟨_, _, hreturn⟩ := exists_of_bind_error h
        · exact explains_matchExpectedToken hmatch
        · cases hreturn
      · obtain hparse | ⟨_, _, hreturn⟩ := exists_of_bind_error h
        · exact explains_parseNumber hparse
        · cases hreturn
      · obtain hmatch | ⟨_, _, hreturn⟩ := exists_of_bind_error h
        · exact explains_matchExpectedToken hmatch
        · cases hreturn
      · obtain hmatch | ⟨_, _, hreturn⟩ := exists_of_bind_error h
        · exact explains_matchExpectedToken hmatch
        · cases hreturn
      · obtain rfl := Except.error.inj h
        exact among_head token tokens

theorem explained_parseObject {fuel : Nat} (ih : Explained format fuel) {object : Object} {first : Token}
    {tokens : TokenStream} {e : Failure} (hnodup : (object.map Prod.fst).Nodup) (hfirst : first.nType = .objectBegin)
    (hfuel : 3 * tokens.length + 1 < fuel + 1) (h : parseObject format (fuel + 1) object (first :: tokens) = .error e) :
    Explains (StuckMembers format (object.map Prod.fst) tokens) (first :: tokens) e := by
  rw [parseObject, bind_of_eq_ok (matchExpectedToken_cons hfirst _)] at h
  dsimp only at h
  obtain hloop | ⟨⟨object', tokens'⟩, hloop, h1⟩ := exists_of_bind_error h
  · split_ifs at hloop with hnext
    have hne : tokens ≠ [] := by
      rintro rfl
      cases hnext
    exact (ih.members hnodup hne (by omega) hloop).mono (List.subset_cons_self ..) id
  · have hsub : tokens' ⊆ tokens := by
      split_ifs at hloop with hnext
      · obtain ⟨_, pre, _, rfl, _⟩ := (sound format fuel).members hnodup hloop
        exact List.subset_append_right ..
      · obtain ⟨-, rfl⟩ := Prod.mk.inj (Except.ok.inj hloop)
        exact List.Subset.refl _
    obtain hend | ⟨_, _, hreturn⟩ := exists_of_bind_error h1
    · exact (explains_matchExpectedToken hend).mono (fun token htoken => List.mem_cons_of_mem _ (hsub htoken)) id
    · cases hreturn

theorem explained_parseArray {fuel : Nat} (ih : Explained format fuel) {first : Token} {tokens : TokenStream}
    {e : Failure} (hfirst : first.nType = .arrayBegin) (hfuel : 3 * tokens.length + 2 < fuel + 1)
    (h : parseArray format (fuel + 1) (first :: tokens) = .error e) :
    Explains (StuckElements format tokens) (first :: tokens) e := by
  rw [parseArray, bind_of_eq_ok (matchExpectedToken_cons hfirst _)] at h
  dsimp only at h
  obtain hloop | ⟨⟨array, tokens'⟩, hloop, h1⟩ := exists_of_bind_error h
  · split_ifs at hloop with hnext
    exact (ih.elements (by omega) hloop).mono (List.subset_cons_self ..) id
  · have hsub : tokens' ⊆ tokens := by
      split_ifs at hloop with hnext
      · obtain ⟨_, pre, _, rfl, _⟩ := (sound format fuel).elements hloop
        exact List.subset_append_right ..
      · obtain ⟨-, rfl⟩ := Prod.mk.inj (Except.ok.inj hloop)
        exact List.Subset.refl _
    obtain hend | ⟨_, _, hreturn⟩ := exists_of_bind_error h1
    · exact (explains_matchExpectedToken hend).mono (fun token htoken => List.mem_cons_of_mem _ (hsub htoken)) id
    · cases hreturn

theorem map_append_singleton (object : Object) (name : String) (element : UnknownElement) :
    (object ++ [(name, element)]).map Prod.fst = object.map Prod.fst ++ [name] := by
  rw [List.map_append]
  rfl

theorem explained_parseMembers {fuel : Nat} (ih : Explained format fuel) {object : Object} {tokens : TokenStream}
    {e : Failure} (hnodup : (object.map Prod.fst).Nodup) (hne : tokens ≠ []) (hfuel : 3 * tokens.length ≤ fuel + 1)
    (h : parseMembers format (fuel + 1) object tokens = .error e) :
    Explains (StuckMembers format (object.map Prod.fst) tokens) tokens e := by
  cases tokens with
  | nil => exact absurd rfl hne
  | cons name tokens =>
      rw [parseMembers] at h
      obtain hname | ⟨⟨_, tokens1⟩, hname, h1⟩ := exists_of_bind_error h
      · exact explains_matchExpectedToken hname
      obtain ⟨name', heq, hnameType, rfl⟩ := matchExpectedToken_eq_ok hname
      obtain ⟨rfl, rfl⟩ := List.cons.inj heq
      obtain hassign | ⟨⟨_, tokens2⟩, hassign, h2⟩ := exists_of_bind_error h1
      · exact (explains_matchExpectedToken hassign).mono (List.subset_cons_self ..) id
      obtain ⟨assign, rfl, hassignType, -⟩ := matchExpectedToken_eq_ok hassign
      rw [List.length_cons, List.length_cons] at hfuel
      obtain helement | ⟨⟨element, tokens3⟩, helement, h3⟩ := exists_of_bind_error h2
      · exact (ih.element (by omega) helement).mono
          (List.Subset.trans (List.subset_cons_self ..) (List.subset_cons_self ..)) (.inside hnameType hassignType)
      obtain ⟨pre, rfl, hspells, hwell⟩ := (sound format fuel).element helement
      dsimp only at h3
      split at h3
      · obtain rfl := Except.error.inj h3
        exact among_head name _
      · next object' hinsert =>
          obtain ⟨hnew, rfl⟩ := insert_eq_ok hinsert
          have hnodup' := nodup_append_singleton element hnodup hnew
          by_cases hcomma : nextIs .nextElement tokens3 = true
          rotate_left
          · rw [if_neg hcomma] at h3
            cases h3
          rw [if_pos hcomma] at h3
          cases tokens3 with
          | nil => cases hcomma
          | cons comma tokens' =>
              have hcommaType : comma.nType = .nextElement := of_decide_eq_true hcomma
              rw [bind_of_eq_ok (matchExpectedToken_cons hcommaType _)] at h3
              dsimp only at h3
              rw [List.length_append, List.length_cons] at hfuel
              cases tokens' with
              | nil =>
                  -- the loop peeks at the token of a name that is not there
                  have hstuck : StuckMembers format (object.map Prod.fst) (name :: assign :: (pre ++ [comma])) :=
                    .comma hnameType hassignType hspells hwell hnew hcommaType
                  cases fuel with
                  | zero => omega
                  | succ fuel =>
                      obtain rfl := Except.error.inj h3
                      exact hstuck
              | cons name' tokens' =>
                  have hrest := ih.members hnodup' (List.cons_ne_nil _ _) (by omega) h3
                  rw [map_append_singleton] at hrest
                  refine hrest.mono ?_ (.next hnameType hassignType hspells hwell hnew hcommaType)
                  intro token htoken
                  exact List.mem_cons_of_mem _ (List.mem_cons_of_mem _
                    (List.mem_append_right _ (List.mem_cons_of_mem _ htoken)))

theorem explained_parseElements {fuel : Nat} (ih : Explained format fuel) {array : List UnknownElement}
    {tokens : TokenStream} {e : Failure} (hfuel : 3 * tokens.length + 1 < fuel + 1)
    (h : parseElements format (fuel + 1) array tokens = .error e) :
    Explains (StuckElements format tokens) tokens e := by
  rw [parseElements] at h
  obtain helement | ⟨⟨element, tokens1⟩, helement, h1⟩ := exists_of_bind_error h
  · exact (ih.element (by omega) helement).mono (List.Subset.refl _) .inside
  obtain ⟨pre, rfl, hspells, hwell⟩ := (sound format fuel).element helement
  dsimp only at h1
  by_cases hcomma : nextIs .nextElement tokens1 = true
  rotate_left
  · rw [if_neg hcomma] at h1
    cases h1
  rw [if_pos hcomma] at h1
  cases tokens1 with
  | nil => cases hcomma
  | cons comma tokens' =>
      have hcommaType : comma.nType = .nextElement := of_decide_eq_true hcomma
      rw [bind_of_eq_ok (matchExpectedToken_cons hcommaType _)] at h1
      dsimp only at h1
      rw [List.length_append, List.length_cons] at hfuel
      refine (ih.elements (by omega) h1).mono ?_ (.next hspells hwell hcommaType)
      intro token htoken
      exact List.mem_append_right _ (List.mem_cons_of_mem _ htoken)

theorem explained (format : NumberFormat) (fuel : Nat) : Explained format fuel := by
  induction fuel with
  | zero =>
      refine ⟨?_, ?_, ?_, ?_, ?_⟩
      · intro tokens e hfuel
        exact absurd hfuel (Nat.not_lt_zero _)
      · intro object first tokens e _ _ hfuel
        exact absurd hfuel (Nat.not_lt_zero _)
      · intro object tokens e _ hne hfuel
        have hpos := List.length_pos_iff.mpr hne
        omega
      · intro first tokens e _ hfuel
        exact absurd hfuel (Nat.not_lt_zero _)
      · intro array tokens e hfuel
        exact absurd hfuel (Nat.not_lt_zero _)
  | succ fuel ih =>
      exact ⟨explained_parseElement ih, explained_parseObject ih, explained_parseMembers ih, explained_parseArray ih,
        explained_parseElements ih⟩

/-- With this fuel the assertion fails on every stuck stream. -/
structure Stops (format : NumberFormat) (fuel : Nat) : Prop where
  element : ∀ {tokens}, Stuck format tokens → 3 * tokens.length ≤ fuel →
    parseElement format fuel tokens = .error .assertion
  object : ∀ (object) {first tokens}, first.nType = .objectBegin → StuckMembers format (object.map Prod.fst) tokens →
    3 * tokens.length < fuel → parseObject format fuel object (first :: tokens) = .error .assertion
  members : ∀ (object) {tokens}, StuckMembers format (object.map Prod.fst) tokens → 3 * tokens.length ≤ fuel →
    parseMembers format fuel object tokens = .error .assertion
  array : ∀ {first tokens}, first.nType = .arrayBegin → StuckElements format tokens → 3 * tokens.length + 1 < fuel →
    parseArray format fuel (first :: tokens) = .error .assertion
  elements : ∀ (array) {tokens}, StuckElements format tokens → 3 * tokens.length < fuel →
    parseElements format fuel array tokens = .error .assertion

theorem bind_of_eq_error {ε α β : Type} {x : Except ε α} {e : ε} (h : x = .error e) (f : α → Except ε β) :
    (x >>= f) = .error e := by
  rw [h]
  rfl

theorem stops_parseElement {fuel : Nat} (ih : Stops format fuel) {tokens : TokenStream} (h : Stuck format tokens)
    (hfuel : 3 * tokens.length ≤ fuel + 1) : parseElement format (fuel + 1) tokens = .error .assertion := by
  cases h with
  | @object first tokens hfirst h =>
      rw [List.length_cons] at hfuel
      rw [parseElement, hfirst]
      exact bind_of_eq_error (ih.object [] hfirst h (by omega)) _
  | @array first tokens hfirst h =>
      rw [List.length_cons] at hfuel
      rw [parseElement, hfirst]
      exact bind_of_eq_error (ih.array hfirst h (by omega)) _

theorem nextIsNot_of_stuckMembers {names : List String} {tokens : TokenStream}
    (h : StuckMembers format names tokens) : nextIsNot .objectEnd tokens = true := by
  cases h with
  | comma hname _ _ _ _ _ | inside hname _ _ | next hname _ _ _ _ _ _ =>
      rw [nextIsNot_cons, hname]
      decide

theorem nextIsNot_of_stuckElements {tokens : TokenStream} (h : StuckElements format tokens) :
    nextIsNot .arrayEnd tokens = true := by
  cases h with
  | inside h =>
      cases h with
      | object hfirst _ | array hfirst _ =>
          rw [nextIsNot_cons, hfirst]
          decide
  | next h _ _ _ =>
      obtain ⟨token, tokens, rfl, htoken⟩ := head_of_spells h
      exact nextIsNot_arrayEnd htoken _

theorem stops_parseObject {fuel : Nat} (ih : Stops format fuel) (object : Object) {first : Token}
    {tokens : TokenStream} (hfirst : first.nType = .objectBegin)
    (h : StuckMembers format (object.map Prod.fst) tokens) (hfuel : 3 * tokens.length < fuel + 1) :
    parseObject format (fuel + 1) object (first :: tokens) = .error .assertion := by
  rw [parseObject, bind_of_eq_ok (matchExpectedToken_cons hfirst _)]
  dsimp only
  rw [if_pos (nextIsNot_of_stuckMembers h)]
  exact bind_of_eq_error (ih.members object h (Nat.le_of_lt_succ hfuel)) _

theorem stops_parseArray {fuel : Nat} (ih : Stops format fuel) {first : Token} {tokens : TokenStream}
    (hfirst : first.nType = .arrayBegin) (h : StuckElements format tokens) (hfuel : 3 * tokens.length + 1 < fuel + 1) :
    parseArray format (fuel + 1) (first :: tokens) = .error .assertion := by
  rw [parseArray, bind_of_eq_ok (matchExpectedToken_cons hfirst _)]
  dsimp only
  rw [if_pos (nextIsNot_of_stuckElements h)]
  exact bind_of_eq_error (ih.elements [] h (Nat.lt_of_succ_lt_succ hfuel)) _

/-- A member and a comma, and then the members go on. -/
theorem parseMembers_comma {fuel : Nat} (object : Object) {name assign comma : Token} {element : UnknownElement}
    {tokens : List Token} (rest : TokenStream) (hname : name.nType = .string) (hassign : assign.nType = .memberAssign)
    (h : Spells format element tokens) (hwell : element.WellFormed) (hnew : name.sValue ∉ object.map Prod.fst)
    (hcomma : comma.nType = .nextElement) (hfuel : 3 * tokens.length ≤ fuel) :
    parseMembers format (fuel + 1) object (name :: assign :: (tokens ++ comma :: rest)) =
      parseMembers format fuel (object ++ [(name.sValue, element)]) rest := by
  have helement := (complete format fuel).element (comma :: rest) h hwell hfuel
  have hnext : nextIs .nextElement (comma :: rest) = true := decide_eq_true hcomma
  rw [parseMembers, bind_of_eq_ok (matchExpectedToken_cons hname _)]
  dsimp only
  rw [bind_of_eq_ok (matchExpectedToken_cons hassign _)]
  dsimp only
  rw [bind_of_eq_ok helement]
  dsimp only
  rw [insert_of_not_mem element hnew]
  dsimp only
  rw [if_pos hnext, bind_of_eq_ok (matchExpectedToken_cons hcomma _)]

theorem stops_parseMembers {fuel : Nat} (ih : Stops format fuel) (object : Object) {tokens : TokenStream}
    (h : StuckMembers format (object.map Prod.fst) tokens) (hfuel : 3 * tokens.length ≤ fuel + 1) :
    parseMembers format (fuel + 1) object tokens = .error .assertion := by
  generalize hnames : object.map Prod.fst = names at h
  cases h with
  | @comma _ name assign comma element tokens hname hassign h hwell hnew hcomma =>
      subst hnames
      rw [List.length_cons, List.length_cons, List.length_append, List.length_singleton] at hfuel
      rw [parseMembers_comma object [] hname hassign h hwell hnew hcomma (by omega)]
      cases fuel with
      | zero => omega
      | succ fuel => rfl
  | @inside _ name assign tokens hname hassign h =>
      rw [List.length_cons, List.length_cons] at hfuel
      rw [parseMembers, bind_of_eq_ok (matchExpectedToken_cons hname _)]
      dsimp only
      rw [bind_of_eq_ok (matchExpectedToken_cons hassign _)]
      exact bind_of_eq_error (ih.element h (by omega)) _
  | @next _ name assign comma element tokens tokens' hname hassign h hwell hnew hcomma hnext =>
      subst hnames
      rw [List.length_cons, List.length_cons, List.length_append, List.length_cons] at hfuel
      rw [parseMembers_comma object tokens' hname hassign h hwell hnew hcomma (by omega)]
      rw [← map_append_singleton object name.sValue element] at hnext
      exact ih.members _ hnext (by omega)

theorem stops_parseElements {fuel : Nat} (ih : Stops format fuel) (array : List UnknownElement)
    {tokens : TokenStream} (h : StuckElements format tokens) (hfuel : 3 * tokens.length < fuel + 1) :
    parseElements format (fuel + 1) array tokens = .error .assertion := by
  cases h with
  | inside h => exact bind_of_eq_error (ih.element h (Nat.le_of_lt_succ hfuel)) _
  | @next comma element tokens tokens' h hwell hcomma hnext =>
      rw [List.length_append, List.length_cons] at hfuel
      have helement := (complete format fuel).element (comma :: tokens') h hwell (by omega)
      have hnextIs : nextIs .nextElement (comma :: tokens') = true := decide_eq_true hcomma
      rw [parseElements, bind_of_eq_ok helement]
      dsimp only
      rw [if_pos hnextIs, bind_of_eq_ok (matchExpectedToken_cons hcomma _)]
      dsimp only
      exact ih.elements _ hnext (by omega)

theorem stops (format : NumberFormat) (fuel : Nat) : Stops format fuel := by
  induction fuel with
  | zero =>
      refine ⟨?_, ?_, ?_, ?_, ?_⟩
      · intro tokens h hfuel
        cases h <;> exact absurd hfuel (by simp)
      · intro object first tokens _ _ hfuel
        exact absurd hfuel (Nat.not_lt_zero _)
      · intro object tokens h hfuel
        generalize object.map Prod.fst = names at h
        cases h <;> exact absurd hfuel (by simp)
      · intro first tokens _ _ hfuel
        exact absurd hfuel (Nat.not_lt_zero _)
      · intro array tokens _ hfuel
        exact absurd hfuel (Nat.not_lt_zero _)
  | succ fuel ih =>
      exact ⟨stops_parseElement ih, stops_parseObject ih, stops_parseMembers ih, stops_parseArray ih,
        stops_parseElements ih⟩

/-! ### Failures of `Read` -/

/-- What a parse of all tokens raises, and what is raised if tokens remain. -/
theorem explains_of_read_error {tokens : TokenStream} {e : Failure}
    (h : (parseElement format (fuelFor tokens) tokens >>= expectEnd) = .error e) :
    Explains (Stuck format tokens) tokens e := by
  obtain hparse | ⟨⟨element, rest⟩, hparse, hend⟩ := exists_of_bind_error h
  · exact (explained format _).element (Nat.lt_succ_self _) hparse
  · obtain ⟨pre, rfl, -, -⟩ := (sound format _).element hparse
    cases rest with
    | nil => cases hend
    | cons token rest =>
        obtain rfl := Except.error.inj hend
        exact ⟨(among_head token rest).1.mono (List.subset_append_right ..),
          (among_head token rest).2.mono (List.subset_append_right ..)⟩

theorem located_of_among {text : List Char} {tokens : List Token} (htiles : Tiles ⟨text, .start⟩ tokens)
    {loc : Location} (h : Among tokens loc) : ∃ pre post, text = pre ++ post ∧ loc = locationAfter pre := by
  obtain rfl | ⟨token, htoken, hloc⟩ := h
  · exact ⟨[], text, rfl, rfl⟩
  · obtain ⟨pre, t, post, htext, -, hbegin, hend⟩ := token_located (.refl _) htiles token htoken
    obtain rfl | rfl := hloc
    · exact ⟨pre, t ++ post, by rw [htext, List.append_assoc], hbegin⟩
    · exact ⟨pre ++ t, post, htext, hend⟩

/-- The fuel is always enough. -/
theorem read_ne_outOfFuel (format : NumberFormat) (text : List Char) : read format text ≠ .error .outOfFuel := by
  intro h
  obtain hscan | ⟨tokens, -, hparse⟩ := exists_of_bind_error h
  · obtain ⟨_, _, _, hlocations⟩ := fails_scan hscan
    cases hlocations
  · exact (explains_of_read_error hparse).elim

/-- **Failures lie in the document.** Every place that a failed read points to is behind some beginning of the
document. -/
theorem read_error_located (format : NumberFormat) (text : List Char) (e : Failure)
    (h : read format text = .error e) :
    ∀ loc ∈ e.locations, ∃ pre post, text = pre ++ post ∧ loc = locationAfter pre := by
  obtain hscan | ⟨tokens, hscan, hparse⟩ := exists_of_bind_error h
  · obtain ⟨pre, s', hs', hlocations⟩ := fails_scan hscan
    intro loc hloc
    rw [hlocations, List.mem_singleton] at hloc
    exact ⟨pre, s'.rest, hs'.rest_eq, by rw [hloc, hs'.position_eq, foldl_advance]⟩
  · have hexplains := explains_of_read_error hparse
    have htiles := tiles_of_scan hscan
    cases e with
    | parse _ _ _ | number _ _ =>
        intro loc hloc
        simp only [Failure.locations, List.mem_cons, List.not_mem_nil, or_false] at hloc
        obtain rfl | rfl := hloc
        · exact located_of_among htiles hexplains.1
        · exact located_of_among htiles hexplains.2
    | assertion => exact List.forall_mem_nil _
    | scan _ _ | escape _ | outOfFuel => exact hexplains.elim

theorem read_error_located_secondLine :
    ∃ pre post, ['\n', ';'] = pre ++ post ∧ (⟨1, 0, 1⟩ : Location) = locationAfter pre := by
  have herror : read ⟨fun _ => "0", fun _ => none⟩ ['\n', ';'] =
      .error (.scan "Unexpected character in stream: ;" ⟨1, 0, 1⟩) := by
    rw [read, scan_cons rfl]
    rfl
  exact read_error_located _ _ _ herror ⟨1, 0, 1⟩ (List.mem_singleton.mpr rfl)

/-- **When the assertion fails.** Exactly for the documents whose tokens end inside an object, behind the comma
after a member. -/
theorem read_eq_assertion_iff (format : NumberFormat) (text : List Char) :
    read format text = .error .assertion ↔ ∃ tokens, Tiles ⟨text, .start⟩ tokens ∧ Stuck format tokens := by
  constructor
  · intro h
    obtain hscan | ⟨tokens, hscan, hparse⟩ := exists_of_bind_error h
    · obtain ⟨_, _, _, hlocations⟩ := fails_scan hscan
      cases hlocations
    · exact ⟨tokens, tiles_of_scan hscan, explains_of_read_error hparse⟩
  · rintro ⟨tokens, htiles, hstuck⟩
    rw [read, bind_of_eq_ok (scan_of_tiles htiles)]
    exact bind_of_eq_error ((stops format _).element hstuck (Nat.le_succ _)) _

end Brainslug.Json.Reader
