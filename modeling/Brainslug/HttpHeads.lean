import Brainslug.HttpParser

/-! Heads and their parser. What the parser accepts is well-formed, whatever arrives and in whatever buffers, and a
well-formed head is read from its text: no header and no query can add a line of its own. -/

namespace Brainslug

open HTTPParser

/-- A head with its headers as they are. -/
def RequestHead.text (head : RequestHead) : List Char :=
  head.updateFirstLine ++ "\r\n".toList ++ head.message.appendHeaders

def ResponseHead.text (head : ResponseHead) : List Char :=
  head.updateFirstLine ++ "\r\n".toList ++ head.message.appendHeaders

/-! ### Well-formed heads -/

/-- A name of the protocol: a method, or a header. -/
def Token (max : Nat) (text : List Char) : Prop := text ≠ [] ∧ (∀ c ∈ text, isToken c = true) ∧ text.length ≤ max

instance (max : Nat) (text : List Char) : Decidable (Token max text) :=
  @instDecidableAnd _ _ inferInstance (@instDecidableAnd _ _ (List.decidableBAll _ _) inferInstance)

structure HTTPMessage.WellFormed (message : HTTPMessage) : Prop where
  versionMajor : message.versionMajor < 2 ^ 16
  versionMinor : message.versionMinor < 2 ^ 16
  headers : ∀ header ∈ message.headers, Token headerNameMax header.1 ∧ Accepted headerValueMax header.2

structure RequestHead.WellFormed (head : RequestHead) : Prop where
  method : Token methodMax head.method
  resource : Accepted resourceMax head.resource ∧ ' ' ∉ head.resource ∧ '?' ∉ head.resource
  queryString : Accepted queryStringMax head.queryString ∧ ' ' ∉ head.queryString
  message : head.message.WellFormed

structure ResponseHead.WellFormed (head : ResponseHead) : Prop where
  statusCode : head.statusCode < 2 ^ 16
  statusMessage : Accepted statusMessageMax head.statusMessage
  message : head.message.WellFormed

theorem token_singleton {max : Nat} (hmax : 0 < max) {c : Char} (hc : isToken c = true) : Token max [c] :=
  ⟨List.cons_ne_nil _ _, List.forall_mem_singleton.mpr hc, hmax⟩

theorem Token.snoc {max : Nat} {text : List Char} {c : Char} (h : Token max text)
    (hc : ¬ (¬ isToken c = true ∨ max ≤ text.length)) : Token max (text ++ [c]) := by
  obtain ⟨htoken, hlength⟩ := not_or.mp hc
  refine ⟨by simp, ?_, ?_⟩
  · intro d hd
    rcases List.mem_append.mp hd with hd | hd
    · exact h.2.1 d hd
    · rw [List.mem_singleton.mp hd]
      exact not_not.mp htoken
  · rw [List.length_append, List.length_singleton]
    omega

theorem not_mem_snoc {text : List Char} {c d : Char} (htext : d ∉ text) (hc : c ≠ d) : d ∉ text ++ [c] := by
  simp [htext, Ne.symm hc]

theorem isControl_of_isToken {c : Char} (hc : isToken c = true) : isControl c = false := by
  simp only [isToken, Bool.not_eq_true', Bool.or_eq_false_iff] at hc
  exact hc.1.2

theorem appendDigit_lt (n : Nat) (c : Char) : appendDigit n c < 2 ^ 16 := Nat.mod_lt _ (by decide)

/-! ### What the machine keeps -/

/-- The states in which a request has a method. -/
def HeadersParseState.HasMethod : HeadersParseState → Prop
  | .methodStart => False
  | _ => True

/-- The states in which the name of a header is known. -/
def HeadersParseState.IsNamed : HeadersParseState → Prop
  | .headerName => True
  | .spaceBeforeHeaderValue => True
  | .headerValue => True
  | _ => False

/-- What the states know about the value of a header. -/
def HeadersParseState.Holds (value : List Char) : HeadersParseState → Prop
  | .spaceBeforeHeaderValue => value = []
  | .headerValue => Accepted headerValueMax value
  | _ => True

theorem HeadersParseState.holds_of_not_named {state : HeadersParseState} (h : ¬ state.IsNamed) (value : List Char) :
    state.Holds value := by
  cases state
  case spaceBeforeHeaderValue => exact (h trivial).elim
  case headerValue => exact (h trivial).elim
  all_goals trivial

namespace HTTPParser

structure Sound (isRequest : Bool) (p : HTTPParser) : Prop where
  isRequest_eq : p.isRequest = isRequest
  method : isRequest = true → p.headersParseState.HasMethod → Token methodMax p.method
  resource : Accepted resourceMax p.resource ∧ ' ' ∉ p.resource ∧ '?' ∉ p.resource
  queryString : Accepted queryStringMax p.queryString ∧ ' ' ∉ p.queryString
  statusCode : p.statusCode < 2 ^ 16
  statusMessage : Accepted statusMessageMax p.statusMessage
  headerName : p.headersParseState.IsNamed → Token headerNameMax p.headerName
  headerValue : p.headersParseState.Holds p.headerValue
  message : p.message.WellFormed

variable {isRequest : Bool} {p p' : HTTPParser} {c : Char}

theorem accepted_nil (max : Nat) : Accepted max [] := ⟨List.forall_mem_nil _, Nat.zero_le _⟩

theorem sound_create (isRequest : Bool) : Sound isRequest (create isRequest) where
  isRequest_eq := rfl
  method hrequest hstate := by
    obtain rfl : isRequest = true := hrequest
    exact hstate.elim
  resource := ⟨accepted_nil _, List.not_mem_nil, List.not_mem_nil⟩
  queryString := ⟨accepted_nil _, List.not_mem_nil⟩
  statusCode := Nat.two_pow_pos 16
  statusMessage := accepted_nil _
  headerName hnamed := by cases isRequest <;> exact hnamed.elim
  headerValue := by cases isRequest <;> trivial
  message := ⟨Nat.one_lt_two_pow (by decide), Nat.one_lt_two_pow (by decide), List.forall_mem_nil _⟩

/-- Another state that knows no name. -/
theorem Sound.goto (h : Sound isRequest p) (hstart : p.headersParseState.HasMethod) {state : HeadersParseState}
    (hnamed : ¬ state.IsNamed) : Sound isRequest { p with headersParseState := state } :=
  { h with
    method := fun hrequest _ => h.method hrequest hstart
    headerName := fun hstate => absurd hstate hnamed
    headerValue := state.holds_of_not_named hnamed _ }

theorem Sound.setResource (h : Sound isRequest p) {resource : List Char}
    (hresource : Accepted resourceMax resource ∧ ' ' ∉ resource ∧ '?' ∉ resource) :
    Sound isRequest { p with resource := resource } :=
  { h with resource := hresource }

theorem Sound.setQueryString (h : Sound isRequest p) {queryString : List Char}
    (hquery : Accepted queryStringMax queryString ∧ ' ' ∉ queryString) : Sound isRequest { p with queryString := queryString } :=
  { h with queryString := hquery }

theorem Sound.setStatusMessage (h : Sound isRequest p) {statusMessage : List Char}
    (hmessage : Accepted statusMessageMax statusMessage) : Sound isRequest { p with statusMessage := statusMessage } :=
  { h with statusMessage := hmessage }

theorem Sound.setMessage (h : Sound isRequest p) {message : HTTPMessage} (hmessage : message.WellFormed) :
    Sound isRequest { p with message := message } :=
  { h with message := hmessage }

theorem Sound.setVersionMajor (h : Sound isRequest p) (n : Nat) (c : Char) :
    Sound isRequest { p with message := { p.message with versionMajor := appendDigit n c } } :=
  h.setMessage { h.message with versionMajor := appendDigit_lt n c }

theorem Sound.setVersionMinor (h : Sound isRequest p) (n : Nat) (c : Char) :
    Sound isRequest { p with message := { p.message with versionMinor := appendDigit n c } } :=
  h.setMessage { h.message with versionMinor := appendDigit_lt n c }

theorem Sound.setStatusCode (h : Sound isRequest p) (n : Nat) (c : Char) : Sound isRequest { p with statusCode := appendDigit n c } :=
  { h with statusCode := appendDigit_lt n c }

/-- Between the states that know the name. -/
theorem Sound.setHeaderValue (h : Sound isRequest p) (hstart : p.headersParseState.HasMethod)
    (hnamed : p.headersParseState.IsNamed) {value : List Char} {state : HeadersParseState}
    (hvalue : state.Holds value) : Sound isRequest { p with headerValue := value, headersParseState := state } :=
  { h with
    method := fun hrequest _ => h.method hrequest hstart
    headerName := fun _ => h.headerName hnamed
    headerValue := hvalue }

/-- A header is stored with the name and the value that were read. -/
theorem Sound.addHeader (h : Sound isRequest p) (hstart : p.headersParseState.HasMethod)
    (hnamed : p.headersParseState.IsNamed) (hvalue : Accepted headerValueMax p.headerValue)
    {state : HeadersParseState} (hnamed' : ¬ state.IsNamed) : Sound isRequest (p.addHeader state) := by
  have hmessage : HTTPMessage.WellFormed
      { p.message with headers := p.message.headers ++ [(p.headerName, p.headerValue)] } :=
    { h.message with
      headers := fun header hheader => by
        rcases List.mem_append.mp hheader with hheader | hheader
        · exact h.message.headers header hheader
        · rw [List.mem_singleton.mp hheader]
          exact ⟨h.headerName hnamed, hvalue⟩ }
  exact (h.setMessage hmessage).goto hstart hnamed'

theorem Sound.startHeader (h : Sound isRequest p) (hstart : p.headersParseState.HasMethod)
    (hnext : p.startHeader c = .next p') : Sound isRequest p' := by
  unfold HTTPParser.startHeader at hnext
  split_ifs at hnext with htoken
  obtain rfl := Verdict.next.inj hnext
  exact
    { h with
      method := fun hrequest _ => h.method hrequest hstart
      headerName := fun _ => token_singleton (by decide) htoken
      headerValue := trivial }

theorem Sound.expect (h : Sound isRequest p) (hstart : p.headersParseState.HasMethod) {expected : Char}
    {state : HeadersParseState} (hnamed : ¬ state.IsNamed)
    (hnext : HTTPParser.expect expected c state p = .next p') : Sound isRequest p' := by
  unfold HTTPParser.expect at hnext
  split_ifs at hnext
  exact Verdict.next.inj hnext ▸ h.goto hstart hnamed

/-- **What one step keeps.** -/
theorem sound_step (h : Sound isRequest p) (hnext : parseHeader p c = .next p') : Sound isRequest p' := by
  obtain ⟨isRequest', state, method, resource, queryString, statusCode, statusMessage, headerName, headerValue,
    message⟩ := p
  cases state <;> unfold parseHeader at hnext <;> dsimp only at hnext
  case methodStart =>
    split_ifs at hnext with hblank htoken
    · exact Verdict.next.inj hnext ▸ h
    · exact Verdict.next.inj hnext ▸
        { h with
          method := fun _ _ => token_singleton (by decide) htoken
          headerName := fun hnamed => hnamed.elim
          headerValue := trivial }
  case method =>
    split_ifs at hnext with hend hbad
    · have hresource := h.setResource ⟨accepted_nil _, List.not_mem_nil, List.not_mem_nil⟩
      exact Verdict.next.inj hnext ▸ hresource.goto trivial id
    · exact Verdict.next.inj hnext ▸ { h with method := fun hrequest _ => (h.method hrequest trivial).snoc hbad }
  case uriStem =>
    split_ifs at hnext with hspace hquery hbad
    · exact Verdict.next.inj hnext ▸ h.goto trivial id
    · have hquery := h.setQueryString ⟨accepted_nil _, List.not_mem_nil⟩
      exact Verdict.next.inj hnext ▸ hquery.goto trivial id
    · obtain ⟨haccepted, hnospace, hnoquery⟩ := h.resource
      exact Verdict.next.inj hnext ▸ h.setResource
        ⟨accepted_snoc haccepted hbad, not_mem_snoc hnospace hspace, not_mem_snoc hnoquery hquery⟩
  case uriQuery =>
    split_ifs at hnext with hspace hbad
    · exact Verdict.next.inj hnext ▸ h.goto trivial id
    · obtain ⟨haccepted, hnospace⟩ := h.queryString
      exact Verdict.next.inj hnext ▸
        h.setQueryString ⟨accepted_snoc haccepted hbad, not_mem_snoc hnospace hspace⟩
  case httpVersionH => exact h.expect trivial id hnext
  case httpVersionT1 => exact h.expect trivial id hnext
  case httpVersionT2 => exact h.expect trivial id hnext
  case httpVersionP => exact h.expect trivial id hnext
  case httpVersionSlash => exact h.expect trivial id hnext
  case httpVersionMajorStart =>
    split_ifs at hnext
    exact Verdict.next.inj hnext ▸ (h.setVersionMajor 0 c).goto trivial id
  case httpVersionMajor =>
    split_ifs at hnext
    · exact Verdict.next.inj hnext ▸ h.goto trivial id
    · exact Verdict.next.inj hnext ▸ h.setVersionMajor _ c
  case httpVersionMinorStart =>
    split_ifs at hnext
    exact Verdict.next.inj hnext ▸ (h.setVersionMinor 0 c).goto trivial id
  case httpVersionMinor =>
    split_ifs at hnext
    · exact Verdict.next.inj hnext ▸ h.goto trivial id
    · exact Verdict.next.inj hnext ▸ h.goto trivial id
    · exact Verdict.next.inj hnext ▸ h.goto trivial id
    · exact Verdict.next.inj hnext ▸ h.setVersionMinor _ c
  case statusCodeStart =>
    split_ifs at hnext
    exact Verdict.next.inj hnext ▸ (h.setStatusCode 0 c).goto trivial id
  case statusCode =>
    split_ifs at hnext
    · exact Verdict.next.inj hnext ▸ (h.setStatusMessage (accepted_nil _)).goto trivial id
    · exact Verdict.next.inj hnext ▸ h.setStatusCode _ c
  case statusMessage =>
    split_ifs at hnext with hcr hlf hbad
    · exact Verdict.next.inj hnext ▸ h.goto trivial id
    · exact Verdict.next.inj hnext ▸ h.goto trivial id
    · exact Verdict.next.inj hnext ▸ h.setStatusMessage (accepted_snoc h.statusMessage hbad)
  case expectingNewline =>
    split_ifs at hnext
    · exact Verdict.next.inj hnext ▸ h.goto trivial id
    · exact Verdict.next.inj hnext ▸ h.goto trivial id
    · exact h.startHeader trivial hnext
  case expectingCR =>
    split_ifs at hnext
    · exact Verdict.next.inj hnext ▸ h.goto trivial id
    · exact Verdict.next.inj hnext ▸ h.goto trivial id
    · exact h.startHeader trivial hnext
  case headerWhitespace =>
    split_ifs at hnext
    · exact Verdict.next.inj hnext ▸ h.goto trivial id
    · exact Verdict.next.inj hnext ▸ h.goto trivial id
    · exact Verdict.next.inj hnext ▸ h
    · exact h.startHeader trivial hnext
  case headerStart =>
    split_ifs at hnext
    · exact Verdict.next.inj hnext ▸ h.goto trivial id
    · exact Verdict.next.inj hnext ▸ h.goto trivial id
    · exact Verdict.next.inj hnext ▸ h.goto trivial id
    · exact h.startHeader trivial hnext
  case headerName =>
    split_ifs at hnext with hend hbad
    · exact Verdict.next.inj hnext ▸ h.setHeaderValue trivial trivial rfl
    · exact Verdict.next.inj hnext ▸ { h with headerName := fun _ => (h.headerName trivial).snoc hbad }
  case spaceBeforeHeaderValue =>
    obtain rfl : headerValue = [] := h.headerValue
    split_ifs at hnext with hspace hcr hlf htoken
    · exact Verdict.next.inj hnext ▸ h.setHeaderValue trivial trivial (accepted_nil _)
    · exact Verdict.next.inj hnext ▸ h.addHeader trivial trivial (accepted_nil _) id
    · exact Verdict.next.inj hnext ▸ h.addHeader trivial trivial (accepted_nil _) id
    · have hvalue : Accepted headerValueMax [c] :=
        ⟨List.forall_mem_singleton.mpr (isControl_of_isToken htoken), (token_singleton (by decide) htoken).2.2⟩
      exact Verdict.next.inj hnext ▸ h.setHeaderValue trivial trivial hvalue
  case headerValue =>
    have hvalue : Accepted headerValueMax headerValue := h.headerValue
    split_ifs at hnext with hcr hlf hbad
    · exact Verdict.next.inj hnext ▸ h.addHeader trivial trivial hvalue id
    · exact Verdict.next.inj hnext ▸ h.addHeader trivial trivial hvalue id
    · exact Verdict.next.inj hnext ▸ h.setHeaderValue trivial trivial (accepted_snoc hvalue hbad)
  case expectingFinalNewline => cases hnext
  case expectingFinalCR => cases hnext

/-- The machine ends behind an empty line. -/
theorem hasMethod_of_done {takes : Bool} (hdone : parseHeader p c = .done takes) : p.headersParseState.HasMethod := by
  obtain ⟨isRequest', state, method, resource, queryString, statusCode, statusMessage, headerName, headerValue,
    message⟩ := p
  cases state
  case methodStart =>
    unfold parseHeader at hdone
    dsimp only at hdone
    split_ifs at hdone
  all_goals trivial

theorem parseHeaders_eq (p : HTTPParser) (buffers : List (List Char)) :
    parseHeaders p buffers = ReadMachine.run parseHeader p buffers.flatten :=
  (ReadMachine.resumable_run parseHeader).runBuffers_eq rfl buffers

theorem sound_of_done {buffers : List (List Char)} {rest : List Char}
    (hdone : parseHeaders (create isRequest) buffers = .done p rest) :
    Sound isRequest p ∧ p.headersParseState.HasMethod := by
  rw [parseHeaders_eq] at hdone
  obtain ⟨hsound, c, takes, hstep⟩ := ReadMachine.run_invariant (Sound isRequest)
    (fun p c p' h hnext => sound_step h hnext) (sound_create isRequest) hdone
  exact ⟨hsound, hasMethod_of_done hstep⟩

/-- **Accepted requests are well-formed.** -/
theorem wellFormed_requestHead {buffers : List (List Char)} {rest : List Char}
    (hdone : parseHeaders (create true) buffers = .done p rest) : p.requestHead.WellFormed := by
  obtain ⟨hsound, hmethod⟩ := sound_of_done hdone
  exact ⟨hsound.method rfl hmethod, hsound.resource, hsound.queryString, hsound.message⟩

/-- **Accepted responses are well-formed.** -/
theorem wellFormed_responseHead {buffers : List (List Char)} {rest : List Char}
    (hdone : parseHeaders (create false) buffers = .done p rest) : p.responseHead.WellFormed := by
  obtain ⟨hsound, -⟩ := sound_of_done hdone
  exact ⟨hsound.statusCode, hsound.statusMessage, hsound.message⟩

/-! ### Heads from their text -/

theorem ne_of_isToken {c d : Char} (hc : isToken c = true) (hd : isToken d = false) : c ≠ d := by
  rintro rfl
  exact Bool.false_ne_true (hd.symm.trans hc)

theorem ne_of_not_isControl {c d : Char} (hc : isControl c = false) (hd : isControl d = true) : c ≠ d := by
  rintro rfl
  exact Bool.false_ne_true (hc.symm.trans hd)

/-- The loops over digits compute the number that they spell, as far as it fits. -/
theorem foldl_appendDigit (text : List Char) (n : Nat) :
    text.foldl appendDigit (n % 2 ^ 16) = Nat.ofDigitChars 10 text n % 2 ^ 16 := by
  induction text generalizing n with
  | nil => rfl
  | cons c text ih =>
      have hstep : appendDigit (n % 2 ^ 16) c = (10 * n + (c.toNat - '0'.toNat)) % 2 ^ 16 := by
        unfold appendDigit
        omega
      rw [List.foldl_cons, hstep, ih, Nat.ofDigitChars_cons]

theorem foldl_toDigits {n : Nat} (hn : n < 2 ^ 16) : (Nat.toDigits 10 n).foldl appendDigit 0 = n := by
  have hfold := foldl_appendDigit (Nat.toDigits 10 n) 0
  rwa [Nat.ofDigitChars_ten_toDigits, Nat.zero_mod, Nat.mod_eq_of_lt hn] at hfold

theorem isDigit_of_mem_toDigits {n : Nat} {c : Char} (hc : c ∈ Nat.toDigits 10 n) : isDigit c = true := by
  have hdigit := Nat.isDigit_of_mem_toDigits (by decide) (by decide) hc
  exact hdigit

/-- A number, read by a state for its first digit and a state for the others. -/
theorem reads_number (start : HTTPParser) (state : Nat → HTTPParser)
    (hfirst : ∀ c, isDigit c = true → parseHeader start c = .next (state (appendDigit 0 c)))
    (hothers : ∀ n c, isDigit c = true → parseHeader (state n) c = .next (state (appendDigit n c))) {n : Nat}
    (hn : n < 2 ^ 16) : ReadMachine.Reads parseHeader start (Nat.toDigits 10 n) (state n) := by
  obtain ⟨c, digits, hdigits⟩ := List.exists_cons_of_ne_nil Nat.toDigits_ne_nil
  have hall : ∀ d ∈ Nat.toDigits 10 n, isDigit d = true := fun d hd => isDigit_of_mem_toDigits hd
  have hvalue := foldl_toDigits hn
  rw [hdigits] at hall hvalue ⊢
  obtain ⟨hc, hrest⟩ := List.forall_mem_cons.mp hall
  have hfold := ReadMachine.Reads.fold state hothers (appendDigit 0 c) hrest
  rw [← List.foldl_cons, hvalue] at hfold
  exact ReadMachine.Reads.cons (hfirst c hc) hfold

section

open ReadMachine

/-- A text without control characters, gathered by a state that ends at a separator. -/
theorem reads_accepted (state : List Char → HTTPParser) {max : Nat} (separators : List Char)
    (hstep : ∀ text c, isControl c = false → c ∉ separators → text.length < max →
      parseHeader (state text) c = .next (state (text ++ [c])))
    {text : List Char} (htext : Accepted max text) (hseparators : ∀ c ∈ separators, c ∉ text) :
    Reads parseHeader (state []) text (state text) := by
  have hok : ∀ c ∈ text, isControl c = false ∧ c ∉ separators := fun c hc =>
    ⟨htext.1 c hc, fun hsep => hseparators c hsep hc⟩
  refine Reads.gather state max (fun text c hc hlt => hstep text c hc.1 hc.2 hlt) [] hok ?_
  rw [List.length_nil, Nat.zero_add]
  exact htext.2

/-- A name, read by a state for its first character and a state that gathers the others. -/
theorem reads_token {start : HTTPParser} (state : List Char → HTTPParser) {max : Nat}
    (hfirst : ∀ c, isToken c = true → parseHeader start c = .next (state [c]))
    (hothers : ∀ text c, isToken c = true → text.length < max →
      parseHeader (state text) c = .next (state (text ++ [c])))
    {text : List Char} (htext : Token max text) : Reads parseHeader start text (state text) := by
  obtain ⟨hne, htoken, hlength⟩ := htext
  obtain ⟨c, text, rfl⟩ := List.exists_cons_of_ne_nil hne
  obtain ⟨hc, htext⟩ := List.forall_mem_cons.mp htoken
  have hgather := Reads.gather state max hothers [c] htext ((Nat.add_comm 1 text.length).trans_le hlength)
  exact Reads.cons (hfirst c hc) hgather

theorem not_refused {max : Nat} {text : List Char} {c : Char} (hc : isControl c = false) (hlt : text.length < max) :
    ¬ (isControl c = true ∨ max ≤ text.length) :=
  not_or.mpr ⟨Bool.eq_false_iff.mp hc, not_le.mpr hlt⟩

variable (p : HTTPParser)

theorem reads_method {method : List Char} (hmethod : Token methodMax method) :
    Reads parseHeader { p with headersParseState := .methodStart } (method ++ [' '])
      { p with headersParseState := .uriStem, method := method, resource := [] } := by
  have hfirst : ∀ c, isToken c = true → parseHeader { p with headersParseState := .methodStart } c =
      .next { p with headersParseState := .method, method := [c] } := by
    intro c hc
    have hblank : ¬ (c = ' ' ∨ c = '\r' ∨ c = '\n') := by
      rintro (rfl | rfl | rfl) <;> exact absurd hc (by decide)
    exact (if_neg hblank).trans (if_pos hc)
  have hothers : ∀ text c, isToken c = true → text.length < methodMax →
      parseHeader { p with headersParseState := .method, method := text } c =
        .next { p with headersParseState := .method, method := text ++ [c] } := by
    intro text c hc hlt
    exact (if_neg (ne_of_isToken hc (by decide))).trans (if_neg (not_or.mpr ⟨not_not.mpr hc, not_le.mpr hlt⟩))
  have hend := reads_token (fun text => { p with headersParseState := .method, method := text }) hfirst hothers hmethod
  exact hend.trans (Reads.single rfl)

theorem reads_resource {resource : List Char}
    (hresource : Accepted resourceMax resource ∧ ' ' ∉ resource ∧ '?' ∉ resource) :
    Reads parseHeader { p with headersParseState := .uriStem, resource := [] } resource
      { p with headersParseState := .uriStem, resource := resource } := by
  refine reads_accepted (fun text => { p with headersParseState := .uriStem, resource := text })
    [' ', '?'] ?_ hresource.1 (by simpa using hresource.2)
  intro text c hc hsep hlt
  rw [List.mem_pair, not_or] at hsep
  exact (if_neg hsep.1).trans ((if_neg hsep.2).trans (if_neg (not_refused hc hlt)))

theorem reads_queryString {queryString : List Char}
    (hquery : Accepted queryStringMax queryString ∧ ' ' ∉ queryString) :
    Reads parseHeader { p with headersParseState := .uriQuery, queryString := [] } queryString
      { p with headersParseState := .uriQuery, queryString := queryString } := by
  refine reads_accepted (fun text => { p with headersParseState := .uriQuery, queryString := text })
    [' '] ?_ hquery.1 (by simpa using hquery.2)
  intro text c hc hsep hlt
  exact (if_neg (mt List.mem_singleton.mpr hsep)).trans (if_neg (not_refused hc hlt))

theorem reads_statusMessage {statusMessage : List Char} (hmessage : Accepted statusMessageMax statusMessage) :
    Reads parseHeader { p with headersParseState := .statusMessage, statusMessage := [] } statusMessage
      { p with headersParseState := .statusMessage, statusMessage := statusMessage } := by
  refine reads_accepted (fun text => { p with headersParseState := .statusMessage, statusMessage := text })
    [] ?_ hmessage (List.forall_mem_nil _)
  intro text c hc _ hlt
  exact (if_neg (ne_of_not_isControl hc (by decide))).trans
    ((if_neg (ne_of_not_isControl hc (by decide))).trans (if_neg (not_refused hc hlt)))

theorem reads_headerValue {headerValue : List Char} (hvalue : Accepted headerValueMax headerValue) :
    Reads parseHeader { p with headersParseState := .headerValue, headerValue := [] } headerValue
      { p with headersParseState := .headerValue, headerValue := headerValue } := by
  refine reads_accepted (fun text => { p with headersParseState := .headerValue, headerValue := text })
    [] ?_ hvalue (List.forall_mem_nil _)
  intro text c hc _ hlt
  exact (if_neg (ne_of_not_isControl hc (by decide))).trans
    ((if_neg (ne_of_not_isControl hc (by decide))).trans (if_neg (not_refused hc hlt)))

theorem reads_headerName {headerName : List Char} (hname : Token headerNameMax headerName) :
    Reads parseHeader { p with headersParseState := .headerStart } (headerName ++ [':'])
      { p with headersParseState := .spaceBeforeHeaderValue, headerName := headerName, headerValue := [] } := by
  have hfirst : ∀ c, isToken c = true → parseHeader { p with headersParseState := .headerStart } c =
      .next { p with headersParseState := .headerName, headerName := [c] } := by
    intro c hc
    have hblank : ¬ (c = '\t' ∨ c = ' ') := by
      rintro (rfl | rfl) <;> exact absurd hc (by decide)
    exact (if_neg (ne_of_isToken hc (by decide))).trans ((if_neg (ne_of_isToken hc (by decide))).trans
      ((if_neg hblank).trans (if_pos hc)))
  have hothers : ∀ text c, isToken c = true → text.length < headerNameMax →
      parseHeader { p with headersParseState := .headerName, headerName := text } c =
        .next { p with headersParseState := .headerName, headerName := text ++ [c] } := by
    intro text c hc hlt
    exact (if_neg (ne_of_isToken hc (by decide))).trans (if_neg (not_or.mpr ⟨not_not.mpr hc, not_le.mpr hlt⟩))
  have hend := reads_token (fun text => { p with headersParseState := .headerName, headerName := text }) hfirst hothers
    hname
  exact hend.trans (Reads.single rfl)

/-- What the parser knows after a header. -/
def storeHeader (p : HTTPParser) (header : List Char × List Char) : HTTPParser :=
  { p with
    headersParseState := .headerStart
    headerName := header.1
    headerValue := header.2
    message := { p.message with headers := p.message.headers ++ [header] } }

theorem reads_header {header : List Char × List Char} (hname : Token headerNameMax header.1)
    (hvalue : Accepted headerValueMax header.2) :
    Reads parseHeader { p with headersParseState := .headerStart } (HTTPMessage.headerText header)
      (p.storeHeader header) := by
  have hspace : Reads parseHeader
      { p with headersParseState := .spaceBeforeHeaderValue, headerName := header.1, headerValue := [] } [' ']
      { p with headersParseState := .headerValue, headerName := header.1, headerValue := [] } := Reads.single rfl
  have hend : Reads parseHeader
      { p with headersParseState := .headerValue, headerName := header.1, headerValue := header.2 } ['\r', '\n']
      (p.storeHeader header) := Reads.cons rfl (Reads.single rfl)
  have htext : HTTPMessage.headerText header = (header.1 ++ [':']) ++ ([' '] ++ (header.2 ++ ['\r', '\n'])) := by
    simp [HTTPMessage.headerText]
  rw [htext]
  exact (reads_headerName p hname).trans (hspace.trans
    ((reads_headerValue { p with headerName := header.1 } hvalue).trans hend))

theorem ne_of_isDigit {c d : Char} (hc : isDigit c = true) (hd : isDigit d = false) : c ≠ d := by
  rintro rfl
  exact Bool.false_ne_true (hd.symm.trans hc)

theorem reads_version {message : HTTPMessage} (hmessage : message.WellFormed) :
    Reads parseHeader { p with headersParseState := .httpVersionH } message.getVersionString
      { p with
        headersParseState := .httpVersionMinor
        message := { message with headers := p.message.headers } } := by
  have hprotocol : Reads parseHeader { p with headersParseState := .httpVersionH } "HTTP/".toList
      { p with headersParseState := .httpVersionMajorStart } := rfl
  have hmajor : Reads parseHeader { p with headersParseState := .httpVersionMajorStart }
      (Nat.toDigits 10 message.versionMajor)
      { p with
        headersParseState := .httpVersionMajor
        message := { p.message with versionMajor := message.versionMajor } } :=
    reads_number { p with headersParseState := .httpVersionMajorStart }
      (fun n => { p with headersParseState := .httpVersionMajor, message := { p.message with versionMajor := n } })
      (fun c hc => if_pos hc)
      (fun n c hc => (if_neg (ne_of_isDigit hc (by decide))).trans (if_pos hc)) hmessage.versionMajor
  have hminor : Reads parseHeader
      { p with
        headersParseState := .httpVersionMinorStart
        message := { p.message with versionMajor := message.versionMajor } }
      (Nat.toDigits 10 message.versionMinor)
      { p with
        headersParseState := .httpVersionMinor
        message := { message with headers := p.message.headers } } :=
    reads_number
      { p with
        headersParseState := .httpVersionMinorStart
        message := { p.message with versionMajor := message.versionMajor } }
      (fun n => { p with
        headersParseState := .httpVersionMinor
        message := ⟨message.versionMajor, n, p.message.headers⟩ })
      (fun c hc => if_pos hc)
      (fun n c hc => (if_neg (ne_of_isDigit hc (by decide))).trans ((if_neg (ne_of_isDigit hc (by decide))).trans
        ((if_neg (ne_of_isDigit hc (by decide))).trans (if_pos hc)))) hmessage.versionMinor
  have hdot : Reads parseHeader
      { p with
        headersParseState := .httpVersionMajor
        message := { p.message with versionMajor := message.versionMajor } }
      ('.' :: Nat.toDigits 10 message.versionMinor)
      { p with
        headersParseState := .httpVersionMinor
        message := { message with headers := p.message.headers } } := Reads.cons rfl hminor
  exact (hprotocol.trans hmajor).trans hdot

theorem reads_headers {headers : QueryEntries}
    (hheaders : ∀ header ∈ headers, Token headerNameMax header.1 ∧ Accepted headerValueMax header.2) :
    Reads parseHeader { p with headersParseState := .headerStart } (headers.flatMap HTTPMessage.headerText)
      (headers.foldl storeHeader { p with headersParseState := .headerStart }) := by
  induction headers generalizing p with
  | nil => exact Reads.refl _
  | cons header headers ih =>
      obtain ⟨⟨hname, hvalue⟩, hheaders⟩ := List.forall_mem_cons.mp hheaders
      exact (reads_header p hname hvalue).trans (ih (p.storeHeader header) hheaders)

/-- The headers are stored, and nothing else that a head is made of changes. -/
theorem foldl_storeHeader (headers : QueryEntries) : (headers.foldl storeHeader p).message =
      { p.message with headers := p.message.headers ++ headers } ∧
    (headers.foldl storeHeader p).method = p.method ∧ (headers.foldl storeHeader p).resource = p.resource ∧
    (headers.foldl storeHeader p).queryString = p.queryString ∧
    (headers.foldl storeHeader p).statusCode = p.statusCode ∧
    (headers.foldl storeHeader p).statusMessage = p.statusMessage := by
  induction headers generalizing p with
  | nil =>
      refine ⟨?_, rfl, rfl, rfl, rfl, rfl⟩
      rw [List.append_nil]
      rfl
  | cons header headers ih =>
      obtain ⟨hmessage, hrest⟩ := ih (p.storeHeader header)
      refine ⟨?_, hrest⟩
      rw [List.foldl_cons, hmessage, storeHeader, List.append_assoc]
      rfl

theorem state_foldl_storeHeader (headers : QueryEntries) :
    (headers.foldl storeHeader { p with headersParseState := .headerStart }).headersParseState = .headerStart := by
  induction headers generalizing p with
  | nil => rfl
  | cons header headers ih => exact ih (p.storeHeader header)

theorem run_emptyLine {p : HTTPParser} (hstate : p.headersParseState = .headerStart) (rest : List Char) :
    run parseHeader p ('\r' :: '\n' :: rest) = .done { p with headersParseState := .expectingFinalNewline } rest := by
  obtain ⟨isRequest, state, method, resource, queryString, statusCode, statusMessage, headerName, headerValue,
    message⟩ := p
  obtain rfl : state = .headerStart := hstate
  rfl

/-- From the end of the first line on. -/
theorem run_headers {p : HTTPParser} (hstate : p.headersParseState = .expectingNewline) {headers : QueryEntries}
    (hheaders : ∀ header ∈ headers, Token headerNameMax header.1 ∧ Accepted headerValueMax header.2)
    (rest : List Char) : ∃ p',
      run parseHeader p ('\n' :: headers.flatMap HTTPMessage.headerText ++ '\r' :: '\n' :: rest) = .done p' rest ∧
        p'.requestHead = ⟨p.method, p.resource, p.queryString, { p.message with headers := p.message.headers ++ headers }⟩ ∧
        p'.responseHead = ⟨p.statusCode, p.statusMessage, { p.message with headers := p.message.headers ++ headers }⟩ := by
  obtain ⟨isRequest, state, method, resource, queryString, statusCode, statusMessage, headerName, headerValue,
    message⟩ := p
  obtain rfl : state = .expectingNewline := hstate
  let p : HTTPParser := ⟨isRequest, .headerStart, method, resource, queryString, statusCode, statusMessage, headerName,
    headerValue, message⟩
  have hnewline : Reads parseHeader { p with headersParseState := .expectingNewline } ['\n'] p := Reads.single rfl
  have hread := hnewline.trans (reads_headers p hheaders)
  obtain ⟨hmessage, hmethod, hresource, hquery, hcode, hstatus⟩ := foldl_storeHeader p headers
  refine ⟨_, (hread.run_append _).trans (run_emptyLine (state_foldl_storeHeader p headers) rest), ?_, ?_⟩
  · exact congr (congr (congr (congrArg RequestHead.mk hmethod) hresource) hquery) hmessage
  · exact congr (congr (congrArg ResponseHead.mk hcode) hstatus) hmessage

/-- What stands between a method and a version. -/
theorem reads_target {resource queryString : List Char}
    (hresource : Accepted resourceMax resource ∧ ' ' ∉ resource ∧ '?' ∉ resource)
    (hquery : Accepted queryStringMax queryString ∧ ' ' ∉ queryString) :
    Reads parseHeader { p with headersParseState := .uriStem, resource := [], queryString := [] }
      (resource ++ ((if queryString = [] then [] else '?' :: queryString) ++ [' ']))
      { p with headersParseState := .httpVersionH, resource := resource, queryString := queryString } := by
  refine (reads_resource { p with queryString := [] } hresource).trans ?_
  split_ifs with hempty
  · subst hempty
    exact Reads.single rfl
  · have hspace : Reads parseHeader
        { p with headersParseState := .uriQuery, resource := resource, queryString := queryString } [' ']
        { p with headersParseState := .httpVersionH, resource := resource, queryString := queryString } :=
      Reads.single rfl
    exact Reads.cons rfl ((reads_queryString { p with resource := resource } hquery).trans hspace)

/-- What stands between a version and the end of the first line of a response. -/
theorem reads_status {statusCode : Nat} {statusMessage : List Char} (hcode : statusCode < 2 ^ 16)
    (hmessage : Accepted statusMessageMax statusMessage) :
    Reads parseHeader { p with isRequest := false, headersParseState := .httpVersionMinor }
      (' ' :: Nat.toDigits 10 statusCode ++ ' ' :: statusMessage)
      { p with
        isRequest := false
        headersParseState := .statusMessage
        statusCode := statusCode
        statusMessage := statusMessage } := by
  have hnumber : Reads parseHeader { p with isRequest := false, headersParseState := .statusCodeStart }
      (Nat.toDigits 10 statusCode)
      { p with isRequest := false, headersParseState := .statusCode, statusCode := statusCode } :=
    reads_number { p with isRequest := false, headersParseState := .statusCodeStart }
      (fun n => { p with isRequest := false, headersParseState := .statusCode, statusCode := n })
      (fun c hc => if_pos hc)
      (fun n c hc => (if_neg (ne_of_isDigit hc (by decide))).trans (if_pos hc)) hcode
  have htext := reads_statusMessage { p with isRequest := false, statusCode := statusCode } hmessage
  exact (Reads.cons rfl hnumber).trans (Reads.cons (c := ' ') rfl htext)

theorem run_requestHead {head : RequestHead} (h : head.WellFormed) (rest : List Char) :
    ∃ p, run parseHeader (create true) (head.text ++ rest) = .done p rest ∧ p.requestHead = head := by
  have hmethod := reads_method (create true) h.method
  have htarget := reads_target { create true with method := head.method } h.resource h.queryString
  have hversion := reads_version
    { create true with method := head.method, resource := head.resource, queryString := head.queryString } h.message
  let p : HTTPParser :=
    { create true with
      method := head.method
      resource := head.resource
      queryString := head.queryString
      message := { head.message with headers := [] } }
  have hline : Reads parseHeader { p with headersParseState := .httpVersionMinor } ['\r']
      { p with headersParseState := .expectingNewline } := Reads.single rfl
  obtain ⟨p, hrun, hhead, -⟩ := run_headers (p := { p with headersParseState := .expectingNewline }) rfl
    h.message.headers rest
  refine ⟨p, ?_, hhead⟩
  have htext : head.text ++ rest = (head.method ++ [' ']) ++
      ((head.resource ++ ((if head.queryString = [] then [] else '?' :: head.queryString) ++ [' '])) ++
        (head.message.getVersionString ++ ['\r'])) ++
      ('\n' :: head.message.headers.flatMap HTTPMessage.headerText ++ '\r' :: '\n' :: rest) := by
    simp [RequestHead.text, RequestHead.updateFirstLine, HTTPMessage.appendHeaders]
  rw [htext]
  exact ((hmethod.trans (htarget.trans (hversion.trans hline))).run_append _).trans hrun

theorem run_responseHead {head : ResponseHead} (h : head.WellFormed) (rest : List Char) :
    ∃ p, run parseHeader (create false) (head.text ++ rest) = .done p rest ∧ p.responseHead = head := by
  have hversion := reads_version (create false) h.message
  have hstatus := reads_status { create false with message := { head.message with headers := [] } }
    h.statusCode h.statusMessage
  let p : HTTPParser :=
    { create false with
      statusCode := head.statusCode
      statusMessage := head.statusMessage
      message := { head.message with headers := [] } }
  have hline : Reads parseHeader { p with headersParseState := .statusMessage } ['\r']
      { p with headersParseState := .expectingNewline } := Reads.single rfl
  obtain ⟨p, hrun, -, hhead⟩ := run_headers (p := { p with headersParseState := .expectingNewline }) rfl
    h.message.headers rest
  refine ⟨p, ?_, hhead⟩
  have htext : head.text ++ rest = (head.message.getVersionString ++
      ((' ' :: Nat.toDigits 10 head.statusCode ++ ' ' :: head.statusMessage) ++ ['\r'])) ++
      ('\n' :: head.message.headers.flatMap HTTPMessage.headerText ++ '\r' :: '\n' :: rest) := by
    simp [ResponseHead.text, ResponseHead.updateFirstLine, HTTPMessage.appendHeaders]
  rw [htext]
  exact ((hversion.trans (hstatus.trans hline)).run_append _).trans hrun

end

end HTTPParser

end Brainslug
