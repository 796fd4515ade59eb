import Brainslug.JsonText

/-! Query strings: how pion-net prints parameters, and how it reads them. A character stands for a byte. The parser
cuts the string character by character; the names and values that it finds are still encoded. -/

namespace Brainslug

/-- The names and values of a dictionary, in the order of their insertion. -/
abbrev QueryEntries := List (List Char × List Char)

namespace HTTPTypes

/-! ### `url_encode` and `url_decode` -/

def hexDigit (n : Nat) : Char := Char.ofNat (if n < 10 then 48 + n else 55 + n)

def hexValue (c : Char) : Option Nat :=
  if '0' ≤ c ∧ c ≤ '9' then some (c.toNat - 48)
  else if 'A' ≤ c ∧ c ≤ 'F' then some (c.toNat - 55)
  else if 'a' ≤ c ∧ c ≤ 'f' then some (c.toNat - 87)
  else none

def hexDigits (buf : List Char) : Nat :=
  ((buf.takeWhile fun c => (hexValue c).isSome).filterMap hexValue).foldl (fun n d => 16 * n + d) 0

/-- `strtol(buf, 0, 16)`, for a buffer that is too short for a prefix in front of a digit. -/
def strtol (buf : List Char) : Int :=
  match buf.dropWhile Json.Reader.isspace with
  | '-' :: rest => -hexDigits rest
  | '+' :: rest => hexDigits rest
  | rest => hexDigits rest

/-- `static_cast<char>`. -/
def toChar (n : Int) : Char := Char.ofNat (n % 256).toNat

def urlDecode : List Char → List Char
  | [] => []
  | '+' :: rest => ' ' :: urlDecode rest
  | '%' :: a :: b :: rest => toChar (strtol [a, b]) :: urlDecode rest
  | c :: rest => c :: urlDecode rest

/-- The cases of the switch, and the characters that fall through to them. -/
def needsEncoding (c : Char) : Bool :=
  c ∈ [' ', '$', '&', '+', ',', '/', ':', ';', '=', '?', '@', '"', '<', '>', '#', '%', '{', '}', '|', '\\', '^', '~',
    '[', ']', '`'] || !(32 < c.toNat && c.toNat < 127)

def urlEncodeChar (c : Char) : List Char :=
  if needsEncoding c then ['%', hexDigit (c.toNat / 16), hexDigit (c.toNat % 16)] else [c]

def urlEncode (str : List Char) : List Char := str.flatMap urlEncodeChar

/-- `make_query_string`, over the parameters in the order of their iteration. -/
def makeQueryString : QueryEntries → List Char
  | [] => []
  | [(name, value)] => urlEncode name ++ '=' :: urlEncode value
  | (name, value) :: entry :: entries =>
      urlEncode name ++ '=' :: urlEncode value ++ '&' :: makeQueryString (entry :: entries)

theorem hexDigit_spec : ∀ n < 16, hexValue (hexDigit n) = some n ∧ hexDigit n ≠ '-' ∧ hexDigit n ≠ '+' ∧
    Json.Reader.isspace (hexDigit n) = false ∧ needsEncoding (hexDigit n) = false := by
  decide

theorem strtol_hexDigits {m n : Nat} (hm : m < 16) (hn : n < 16) : strtol [hexDigit m, hexDigit n] = 16 * m + n := by
  obtain ⟨hvalue, hminus, hplus, hspace, -⟩ := hexDigit_spec m hm
  obtain ⟨hvalue', -⟩ := hexDigit_spec n hn
  have hdrop : [hexDigit m, hexDigit n].dropWhile Json.Reader.isspace = [hexDigit m, hexDigit n] := by simp [hspace]
  have hdigits : hexDigits [hexDigit m, hexDigit n] = 16 * m + n := by simp [hexDigits, hvalue, hvalue']
  rw [strtol, hdrop]
  split
  · next heq => exact absurd (List.cons.inj heq).1 hminus
  · next heq => exact absurd (List.cons.inj heq).1 hplus
  · rw [hdigits]
    norm_cast

theorem urlDecode_urlEncodeChar {c : Char} (hc : c.toNat < 256) (rest : List Char) :
    urlDecode (urlEncodeChar c ++ rest) = c :: urlDecode rest := by
  unfold urlEncodeChar
  cases hneeds : needsEncoding c with
  | true =>
      have hchar : toChar (strtol [hexDigit (c.toNat / 16), hexDigit (c.toNat % 16)]) = c := by
        have hdiv : 16 * (c.toNat / 16) + c.toNat % 16 = c.toNat := Nat.div_add_mod c.toNat 16
        have hmod : (16 * ((c.toNat / 16 : Nat) : Int) + ((c.toNat % 16 : Nat) : Int)) % 256 = c.toNat := by omega
        rw [strtol_hexDigits (by omega) (by omega), toChar, hmod, Int.toNat_natCast, Char.ofNat_toNat]
      rw [if_pos rfl, List.cons_append, List.cons_append, List.cons_append, List.nil_append, urlDecode, hchar]
  | false =>
      rw [if_neg Bool.false_ne_true, List.singleton_append, urlDecode]
      · rintro rfl
        exact absurd hneeds (by decide)
      · rintro a b _ rfl
        exact absurd hneeds (by decide)

/-- **Decoding undoes encoding.** -/
theorem urlDecode_urlEncode {str : List Char} (hstr : ∀ c ∈ str, c.toNat < 256) : urlDecode (urlEncode str) = str := by
  induction str with
  | nil => rfl
  | cons c str ih =>
      obtain ⟨hc, hstr⟩ := List.forall_mem_cons.mp hstr
      rw [urlEncode, List.flatMap_cons, urlDecode_urlEncodeChar hc]
      exact congrArg (List.cons c) (ih hstr)

end HTTPTypes

namespace HTTPParser

/-! ### `parseURLEncoded` -/

def queryNameMax : Nat := 1024

def queryValueMax : Nat := 1024 * 1024

def isControl (c : Char) : Bool := c.toNat ≤ 31 || c.toNat == 127

inductive QueryParseState where
  | name
  | value

/-- The loop of `parseURLEncoded`: whether it read everything, and what is in the dictionary then. -/
def parseQuery : QueryParseState → List Char → List Char → QueryEntries → List Char → Bool × QueryEntries
  | _, queryName, queryValue, dict, [] => (true, if queryName = [] then dict else dict ++ [(queryName, queryValue)])
  | .name, queryName, queryValue, dict, c :: rest =>
      if c = '=' then
        if queryName = [] then (false, dict) else parseQuery .value queryName queryValue dict rest
      else if c = '&' then
        -- an empty name is skipped, and a missing '=' stands for an empty value
        if queryName = [] then parseQuery .name queryName queryValue dict rest
        else parseQuery .name [] queryValue (dict ++ [(queryName, queryValue)]) rest
      else if c = '\r' ∨ c = '\n' then parseQuery .name queryName queryValue dict rest
      else if isControl c ∨ queryNameMax ≤ queryName.length then (false, dict)
      else parseQuery .name (queryName ++ [c]) queryValue dict rest
  | .value, queryName, queryValue, dict, c :: rest =>
      if c = '&' then parseQuery .name [] [] (dict ++ [(queryName, queryValue)]) rest
      else if c = '\r' ∨ c = '\n' then parseQuery .value queryName queryValue dict rest
      else if isControl c ∨ queryValueMax ≤ queryValue.length then (false, dict)
      else parseQuery .value queryName (queryValue ++ [c]) dict rest

def parseURLEncoded (dict : QueryEntries) (text : List Char) : Bool × QueryEntries := parseQuery .name [] [] dict text

/-! ### What a query string says -/

def isLineBreak (c : Char) : Bool := c = '\r' ∨ c = '\n'

/-- A text that a name or a value may be. -/
def Accepted (max : Nat) (text : List Char) : Prop := (∀ c ∈ text, isControl c = false) ∧ text.length ≤ max

instance (max : Nat) (text : List Char) : Decidable (Accepted max text) :=
  @instDecidableAnd _ _ (List.decidableBAll _ _) inferInstance

/-- What the text between two `&` adds to the dictionary: nothing if it is empty. The first `=` ends the name. -/
def readParameter (text : List Char) : Option QueryEntries :=
  let queryName := text.takeWhile (· ≠ '=')
  let queryValue := (text.dropWhile (· ≠ '=')).drop 1
  if text = [] then some []
  else if queryName ≠ [] ∧ Accepted queryNameMax queryName ∧ Accepted queryValueMax queryValue then
    some [(queryName, queryValue)]
  else none

/-- The parameters up to the first one that is not read. -/
def readParameters : List (List Char) → Bool × QueryEntries
  | [] => (true, [])
  | text :: texts =>
      match readParameter text with
      | some entries => ((readParameters texts).1, entries ++ (readParameters texts).2)
      | none => (false, [])

/-- The meaning of a query string without line breaks. -/
def readQuery (text : List Char) : Bool × QueryEntries := readParameters (text.splitOn '&')

def insertAll (dict : QueryEntries) (read : Bool × QueryEntries) : Bool × QueryEntries := (read.1, dict ++ read.2)

theorem readParameter_nil : readParameter [] = some [] := rfl

theorem takeWhile_ne_eq {pre : List Char} (hpre : '=' ∉ pre) (rest : List Char) :
    (pre ++ rest).takeWhile (· ≠ '=') = pre ++ rest.takeWhile (· ≠ '=') ∧
      (pre ++ rest).dropWhile (· ≠ '=') = rest.dropWhile (· ≠ '=') := by
  have hall : ∀ c ∈ pre, decide (c ≠ '=') = true := by
    intro c hc
    simpa using fun (heq : c = '=') => hpre (heq ▸ hc)
  exact ⟨List.takeWhile_append_of_pos hall, List.dropWhile_append_of_pos hall⟩

theorem readParameter_name {queryName : List Char} (hname : '=' ∉ queryName) (hne : queryName ≠ []) :
    readParameter queryName =
      if Accepted queryNameMax queryName then some [(queryName, [])] else none := by
  have hcut := takeWhile_ne_eq hname []
  simp only [List.append_nil, List.takeWhile_nil, List.dropWhile_nil] at hcut
  have hvalue : Accepted queryValueMax [] := by decide
  simp only [readParameter, hcut, List.drop_nil, hne, hvalue, ne_eq, not_false_eq_true, and_true, true_and, if_false]

theorem readParameter_pair {queryName : List Char} (hname : '=' ∉ queryName) (queryValue : List Char) :
    readParameter (queryName ++ '=' :: queryValue) =
      if queryName ≠ [] ∧ Accepted queryNameMax queryName ∧ Accepted queryValueMax queryValue then
        some [(queryName, queryValue)]
      else none := by
  have hcut := takeWhile_ne_eq hname ('=' :: queryValue)
  have hne : queryName ++ '=' :: queryValue ≠ [] := by simp
  simp only [ne_eq, not_true_eq_false, decide_false, Bool.false_eq_true, not_false_eq_true,
    List.takeWhile_cons_of_neg, List.dropWhile_cons_of_neg, List.append_nil] at hcut
  simp only [readParameter, ne_eq, hcut, if_neg hne, List.drop_succ_cons, List.drop_zero]

theorem not_accepted {max : Nat} {pre : List Char} {c : Char} (h : isControl c ∨ max ≤ pre.length) (rest : List Char) :
    ¬ Accepted max (pre ++ c :: rest) := by
  rintro ⟨hcontrol, hlength⟩
  rcases h with hc | hmax
  · exact absurd (hcontrol c (by simp)) (by simp [hc])
  · rw [List.length_append, List.length_cons] at hlength
    omega

theorem accepted_snoc {max : Nat} {pre : List Char} {c : Char} (hpre : Accepted max pre)
    (h : ¬ (isControl c ∨ max ≤ pre.length)) : Accepted max (pre ++ [c]) := by
  obtain ⟨hcontrol, hlength⟩ := not_or.mp h
  refine ⟨?_, ?_⟩
  · intro d hd
    rcases List.mem_append.mp hd with hd | hd
    · exact hpre.1 d hd
    · rw [List.mem_singleton.mp hd]
      exact Bool.eq_false_iff.mpr hcontrol
  · rw [List.length_append, List.length_singleton]
    omega

theorem readParameter_name_refused {queryName : List Char} {c : Char} (hname : '=' ∉ queryName) (hc : c ≠ '=')
    (hbad : isControl c ∨ queryNameMax ≤ queryName.length) (rest : List Char) :
    readParameter (queryName ++ c :: rest) = none := by
  have hcut := (takeWhile_ne_eq hname (c :: rest)).1
  rw [List.takeWhile_cons_of_pos (by simpa using hc)] at hcut
  have hrefused := not_accepted hbad (rest.takeWhile (· ≠ '='))
  have hne : queryName ++ c :: rest ≠ [] := by simp
  simp only [readParameter, hcut, if_neg hne, hrefused, false_and, and_false, if_false]

theorem readParameter_value_refused {queryName queryValue : List Char} {c : Char} (hname : '=' ∉ queryName)
    (hbad : isControl c ∨ queryValueMax ≤ queryValue.length) (rest : List Char) :
    readParameter ((queryName ++ '=' :: queryValue) ++ c :: rest) = none := by
  rw [List.append_assoc, List.cons_append, readParameter_pair hname]
  exact if_neg fun h => not_accepted hbad rest h.2.2

theorem filter_break {c : Char} (hbreak : c = '\r' ∨ c = '\n') (text : List Char) :
    (c :: text).filter (!isLineBreak ·) = text.filter (!isLineBreak ·) :=
  List.filter_cons_of_neg (by simp [isLineBreak, hbreak])

theorem filter_other {c : Char} (hbreak : ¬ (c = '\r' ∨ c = '\n')) (text : List Char) :
    (c :: text).filter (!isLineBreak ·) = c :: text.filter (!isLineBreak ·) :=
  List.filter_cons_of_pos (by simp [isLineBreak, hbreak])

/-- In front of a text without a separator stands the first parameter. -/
theorem splitOn_append {pre : List Char} (hpre : '&' ∉ pre) (text : List Char) :
    ∃ first others, text.splitOn '&' = first :: others ∧ (pre ++ text).splitOn '&' = (pre ++ first) :: others := by
  induction pre with
  | nil =>
      obtain ⟨first, others, hsplit⟩ := List.exists_cons_of_ne_nil (List.splitOn_ne_nil '&' text)
      exact ⟨first, others, hsplit, hsplit⟩
  | cons c pre ih =>
      obtain ⟨hc, hpre⟩ := not_or.mp (mt List.mem_cons.mpr hpre)
      obtain ⟨first, others, hsplit, happend⟩ := ih hpre
      refine ⟨first, others, hsplit, ?_⟩
      rw [List.cons_append, List.splitOn_cons_eq_if_modifyHead, happend, if_neg (by simpa using Ne.symm hc)]
      rfl

/-- The first parameter is refused. -/
theorem readQuery_refused {pre : List Char} {c : Char} (hpre : '&' ∉ pre) (hc : c ≠ '&')
    (h : ∀ rest, readParameter (pre ++ c :: rest) = none) (text : List Char) :
    readQuery (pre ++ c :: text) = (false, []) := by
  have hsep : '&' ∉ pre ++ [c] := by simp [hpre, Ne.symm hc]
  obtain ⟨first, others, -, hsplit⟩ := splitOn_append hsep text
  rw [← List.append_cons] at hsplit
  rw [readQuery, hsplit, readParameters, ← List.append_cons, h]

/-- The first parameter ends. -/
theorem readQuery_separator {pre : List Char} {entries : QueryEntries} (hpre : '&' ∉ pre)
    (hread : readParameter pre = some entries) (text : List Char) :
    readQuery (pre ++ '&' :: text) = insertAll entries (readQuery text) := by
  rw [readQuery, List.splitOn_append_cons_self_of_not_mem hpre, readParameters, hread]
  rfl

theorem readQuery_last {pre : List Char} {entries : QueryEntries} (hpre : '&' ∉ pre)
    (hread : readParameter pre = some entries) : readQuery pre = (true, entries) := by
  rw [readQuery, List.splitOn_eq_singleton hpre, readParameters, hread]
  simp [readParameters]

theorem insertAll_insertAll (dict dict' : QueryEntries) (read : Bool × QueryEntries) :
    insertAll dict (insertAll dict' read) = insertAll (dict ++ dict') read := by
  simp [insertAll]

/-- The state stands for a beginning of the parameter that it reads. -/
theorem parseQuery_eq (text : List Char) :
    (∀ queryName dict, '=' ∉ queryName → '&' ∉ queryName → Accepted queryNameMax queryName →
      parseQuery .name queryName [] dict text =
        insertAll dict (readQuery (queryName ++ text.filter (!isLineBreak ·)))) ∧
    (∀ queryName queryValue dict, queryName ≠ [] → '=' ∉ queryName → '&' ∉ queryName ++ '=' :: queryValue →
      Accepted queryNameMax queryName → Accepted queryValueMax queryValue →
      parseQuery .value queryName queryValue dict text =
        insertAll dict (readQuery ((queryName ++ '=' :: queryValue) ++ text.filter (!isLineBreak ·)))) := by
  induction text with
  | nil =>
      refine ⟨?_, ?_⟩
      · intro queryName dict hequals hsep haccepted
        rw [List.filter_nil, List.append_nil, parseQuery]
        rcases eq_or_ne queryName [] with rfl | hne
        · simp [readQuery, readParameters, readParameter_nil, insertAll]
        · rw [readQuery_last hsep ((readParameter_name hequals hne).trans (if_pos haccepted)), if_neg hne]
          rfl
      · intro queryName queryValue dict hne hequals hsep hname hvalue
        have hread := (readParameter_pair hequals queryValue).trans (if_pos ⟨hne, hname, hvalue⟩)
        rw [List.filter_nil, List.append_nil, parseQuery, if_neg hne, readQuery_last hsep hread]
        rfl
  | cons c text ih =>
      obtain ⟨ihname, ihvalue⟩ := ih
      refine ⟨?_, ?_⟩
      · intro queryName dict hequals hsep haccepted
        rw [parseQuery]
        split_ifs with hc hempty hc' hempty hbreak hbad
        · subst hc hempty
          have hrefused (rest : List Char) : readParameter ([] ++ '=' :: rest) = none :=
            (readParameter_pair (by simp) rest).trans (if_neg (by simp))
          rw [filter_other (by decide), readQuery_refused hsep (by decide) hrefused, insertAll, List.append_nil]
        · subst hc
          rw [ihvalue queryName [] dict hempty hequals (by simp [hsep]) haccepted (by decide),
            filter_other (by decide), List.append_assoc, List.singleton_append]
        · subst hc' hempty
          rw [ihname [] dict hequals hsep haccepted, filter_other (by decide),
            readQuery_separator hsep readParameter_nil, insertAll_insertAll, List.append_nil, List.nil_append]
        · subst hc'
          have hread := (readParameter_name hequals hempty).trans (if_pos haccepted)
          rw [ihname [] _ (by simp) (by simp) (by decide), filter_other (by decide),
            readQuery_separator hsep hread, insertAll_insertAll, List.nil_append]
        · rw [ihname queryName dict hequals hsep haccepted, filter_break hbreak]
        · have hrefused := readParameter_name_refused hequals hc hbad
          rw [filter_other hbreak, readQuery_refused hsep hc' hrefused, insertAll, List.append_nil]
        · rw [ihname (queryName ++ [c]) dict (by simp [hequals, Ne.symm hc]) (by simp [hsep, Ne.symm hc'])
            (accepted_snoc haccepted hbad), filter_other hbreak, ← List.append_cons]
      · intro queryName queryValue dict hne hequals hsep hname hvalue
        rw [parseQuery]
        split_ifs with hc hbreak hbad
        · subst hc
          have hread := (readParameter_pair hequals queryValue).trans (if_pos ⟨hne, hname, hvalue⟩)
          rw [ihname [] _ (by simp) (by simp) (by decide), filter_other (by decide),
            readQuery_separator hsep hread, insertAll_insertAll, List.nil_append]
        · rw [ihvalue queryName queryValue dict hne hequals hsep hname hvalue, filter_break hbreak]
        · have hrefused := readParameter_value_refused hequals hbad
          rw [filter_other hbreak, readQuery_refused hsep hc hrefused, insertAll, List.append_nil]
        · rw [ihvalue queryName (queryValue ++ [c]) dict hne hequals (by simpa [Ne.symm hc] using hsep) hname
            (accepted_snoc hvalue hbad), filter_other hbreak]
          simp

/-- **The parser reads what stands between the separators**, up to the first parameter that it refuses. -/
theorem parseURLEncoded_eq (dict : QueryEntries) (text : List Char) :
    parseURLEncoded dict text = insertAll dict (readQuery (text.filter (!isLineBreak ·))) :=
  (parseQuery_eq text).1 [] dict (by simp) (by simp) (by decide)

/-! ### Printed parameters -/

def parameterText (entry : List Char × List Char) : List Char :=
  HTTPTypes.urlEncode entry.1 ++ '=' :: HTTPTypes.urlEncode entry.2

theorem makeQueryString_eq : ∀ entries : QueryEntries,
    HTTPTypes.makeQueryString entries = ['&'].intercalate (entries.map parameterText)
  | [] => rfl
  | [(queryName, queryValue)] => by simp [HTTPTypes.makeQueryString, parameterText, List.intercalate]
  | (queryName, queryValue) :: entry :: entries => by
      rw [HTTPTypes.makeQueryString, makeQueryString_eq (entry :: entries)]
      simp only [List.map_cons, List.intercalate_cons_cons, parameterText, List.append_assoc, List.cons_append,
        List.nil_append]

/-- A character that the parser takes as it is. -/
def IsPlain (c : Char) : Prop := isControl c = false ∧ c ≠ '=' ∧ c ≠ '&'

theorem isPlain_of_not_needsEncoding {c : Char} (h : HTTPTypes.needsEncoding c = false) : IsPlain c := by
  refine ⟨?_, ?_, ?_⟩
  · simp only [HTTPTypes.needsEncoding, Bool.or_eq_false_iff, Bool.not_eq_false', Bool.and_eq_true,
      decide_eq_true_eq] at h
    simp only [isControl, Bool.or_eq_false_iff, decide_eq_false_iff_not, beq_eq_false_iff_ne]
    omega
  · rintro rfl
    exact absurd h (by decide)
  · rintro rfl
    exact absurd h (by decide)

theorem isPlain_urlEncodeChar {c d : Char} (hc : c.toNat < 256) (hd : d ∈ HTTPTypes.urlEncodeChar c) : IsPlain d := by
  unfold HTTPTypes.urlEncodeChar at hd
  split_ifs at hd with hneeds
  · rcases List.mem_cons.mp hd with rfl | hd
    · exact ⟨by decide, by decide, by decide⟩
    rcases List.mem_cons.mp hd with rfl | hd
    · exact isPlain_of_not_needsEncoding (HTTPTypes.hexDigit_spec _ (by omega)).2.2.2.2
    rw [List.mem_singleton.mp hd]
    exact isPlain_of_not_needsEncoding (HTTPTypes.hexDigit_spec _ (by omega)).2.2.2.2
  · rw [List.mem_singleton.mp hd]
    exact isPlain_of_not_needsEncoding (Bool.eq_false_iff.mpr hneeds)

theorem isPlain_urlEncode {str : List Char} (hstr : ∀ c ∈ str, c.toNat < 256) {d : Char}
    (hd : d ∈ HTTPTypes.urlEncode str) : IsPlain d := by
  obtain ⟨c, hc, hd⟩ := List.mem_flatMap.mp hd
  exact isPlain_urlEncodeChar (hstr c hc) hd

theorem urlEncode_eq_nil {str : List Char} : HTTPTypes.urlEncode str = [] ↔ str = [] := by
  constructor
  · intro h
    cases str with
    | nil => rfl
    | cons c str =>
        rw [HTTPTypes.urlEncode, List.flatMap_cons, List.append_eq_nil_iff] at h
        have hne : HTTPTypes.urlEncodeChar c ≠ [] := by
          unfold HTTPTypes.urlEncodeChar
          split_ifs <;> simp
        exact absurd h.1 hne
  · rintro rfl
    rfl

/-- Names and values whose characters are bytes. -/
def Bytes (entries : QueryEntries) : Prop := ∀ entry ∈ entries, ∀ c ∈ entry.1 ++ entry.2, c.toNat < 256

instance (entries : QueryEntries) : Decidable (Bytes entries) :=
  @List.decidableBAll _ _ (fun _ => List.decidableBAll _ _) _

/-- A parameter that survives: it has a name, and what is printed is not too long. -/
def Fits (entry : List Char × List Char) : Prop :=
  entry.1 ≠ [] ∧ (HTTPTypes.urlEncode entry.1).length ≤ queryNameMax ∧
    (HTTPTypes.urlEncode entry.2).length ≤ queryValueMax

instance (entry : List Char × List Char) : Decidable (Fits entry) := inferInstanceAs (Decidable (_ ∧ _))

def encoded (entry : List Char × List Char) : List Char × List Char :=
  (HTTPTypes.urlEncode entry.1, HTTPTypes.urlEncode entry.2)

def decoded (entry : List Char × List Char) : List Char × List Char :=
  (HTTPTypes.urlDecode entry.1, HTTPTypes.urlDecode entry.2)

theorem decoded_encoded {entries : QueryEntries} (hbytes : Bytes entries) :
    (entries.map encoded).map decoded = entries := by
  rw [List.map_map]
  refine (List.map_congr_left fun entry hentry => ?_).trans (List.map_id entries)
  have hname := HTTPTypes.urlDecode_urlEncode fun c hc => hbytes entry hentry c (List.mem_append_left _ hc)
  have hvalue := HTTPTypes.urlDecode_urlEncode fun c hc => hbytes entry hentry c (List.mem_append_right _ hc)
  exact Prod.ext hname hvalue

theorem readParameter_parameterText {entry : List Char × List Char} (hentry : ∀ c ∈ entry.1 ++ entry.2, c.toNat < 256) :
    readParameter (parameterText entry) = if Fits entry then some [encoded entry] else none := by
  have hname {c : Char} (hc : c ∈ HTTPTypes.urlEncode entry.1) : IsPlain c :=
    isPlain_urlEncode (fun d hd => hentry d (List.mem_append_left _ hd)) hc
  have hvalue {c : Char} (hc : c ∈ HTTPTypes.urlEncode entry.2) : IsPlain c :=
    isPlain_urlEncode (fun d hd => hentry d (List.mem_append_right _ hd)) hc
  have hfits : (HTTPTypes.urlEncode entry.1 ≠ [] ∧ Accepted queryNameMax (HTTPTypes.urlEncode entry.1) ∧
      Accepted queryValueMax (HTTPTypes.urlEncode entry.2)) ↔ Fits entry :=
    and_congr (not_congr urlEncode_eq_nil)
      (and_congr (and_iff_right fun c hc => (hname hc).1) (and_iff_right fun c hc => (hvalue hc).1))
  rw [parameterText, readParameter_pair fun hmem => (hname hmem).2.1 rfl]
  exact if_congr hfits rfl rfl

theorem readParameters_parameterText {entries : QueryEntries} (hbytes : Bytes entries) :
    (∀ entry ∈ entries, Fits entry) ∧ readParameters (entries.map parameterText) = (true, entries.map encoded) ∨
      (¬ ∀ entry ∈ entries, Fits entry) ∧ (readParameters (entries.map parameterText)).1 = false := by
  induction entries with
  | nil => exact Or.inl ⟨by simp, rfl⟩
  | cons entry entries ih =>
      have hread := readParameter_parameterText (hbytes entry List.mem_cons_self)
      rw [List.forall_mem_cons, List.map_cons, readParameters, hread]
      by_cases hfits : Fits entry
      · rw [if_pos hfits]
        rcases ih fun e he => hbytes e (List.mem_cons_of_mem _ he) with ⟨hall, hmap⟩ | ⟨hall, hmap⟩
        · refine Or.inl ⟨⟨hfits, hall⟩, ?_⟩
          simp only [hmap, List.map_cons, List.singleton_append]
        · exact Or.inr ⟨fun h => hall h.2, hmap⟩
      · rw [if_neg hfits]
        exact Or.inr ⟨fun h => hfits h.1, rfl⟩

theorem mem_makeQueryString {c : Char} : ∀ {entries : QueryEntries}, c ∈ HTTPTypes.makeQueryString entries →
    c = '&' ∨ ∃ entry ∈ entries, c ∈ parameterText entry
  | [(queryName, queryValue)], hc => Or.inr ⟨(queryName, queryValue), List.mem_cons_self, hc⟩
  | (queryName, queryValue) :: entry :: entries, hc => by
      rw [HTTPTypes.makeQueryString, List.mem_append, List.mem_cons] at hc
      rcases hc with hc | hc | hc
      · exact Or.inr ⟨(queryName, queryValue), List.mem_cons_self, hc⟩
      · exact Or.inl hc
      · refine (mem_makeQueryString hc).imp_right ?_
        rintro ⟨other, hother, hmem⟩
        exact ⟨other, List.mem_cons_of_mem _ hother, hmem⟩

/-- A printed parameter holds no separator, and one `=` that is not encoded. -/
theorem isPlain_parameterText {entry : List Char × List Char} (hentry : ∀ c ∈ entry.1 ++ entry.2, c.toNat < 256)
    {c : Char} (hc : c ∈ parameterText entry) : IsPlain c ∨ c = '=' := by
  rw [parameterText, List.mem_append, List.mem_cons] at hc
  rcases hc with hc | hc | hc
  · exact Or.inl (isPlain_urlEncode (fun d hd => hentry d (List.mem_append_left _ hd)) hc)
  · exact Or.inr hc
  · exact Or.inl (isPlain_urlEncode (fun d hd => hentry d (List.mem_append_right _ hd)) hc)

theorem IsPlain.not_isLineBreak {c : Char} (hc : IsPlain c) : isLineBreak c = false := by
  have hcontrol := hc.1
  refine Bool.eq_false_iff.mpr fun hbreak => ?_
  rcases of_decide_eq_true hbreak with rfl | rfl
  · exact absurd hcontrol (by decide)
  · exact absurd hcontrol (by decide)

/-- What is printed has no line breaks, and the separators stand between the parameters. -/
theorem parse_makeQueryString {entries : QueryEntries} (hbytes : Bytes entries) :
    parseURLEncoded [] (HTTPTypes.makeQueryString entries) = readParameters (entries.map parameterText) := by
  have hfilter : (HTTPTypes.makeQueryString entries).filter (!isLineBreak ·) = HTTPTypes.makeQueryString entries := by
    refine List.filter_eq_self.mpr fun c hc => ?_
    rcases mem_makeQueryString hc with rfl | ⟨entry, hentry, hmem⟩
    · rfl
    · rcases isPlain_parameterText (hbytes entry hentry) hmem with hplain | rfl
      · rw [hplain.not_isLineBreak]
        rfl
      · rfl
  have hsep : ∀ text ∈ entries.map parameterText, '&' ∉ text := by
    intro text htext hmem
    obtain ⟨entry, hentry, rfl⟩ := List.mem_map.mp htext
    rcases isPlain_parameterText (hbytes entry hentry) hmem with hplain | heq
    · exact hplain.2.2 rfl
    · exact absurd heq (by decide)
  have hparse := (parseQuery_eq (HTTPTypes.makeQueryString entries)).1 [] [] (by simp) (by simp) (by decide)
  rw [parseURLEncoded, hparse, List.nil_append, hfilter, insertAll, List.nil_append, readQuery, makeQueryString_eq]
  cases entries with
  | nil => rfl
  | cons entry entries => rw [List.splitOn_intercalate '&' hsep (by simp)]

/-- **Which parameters survive a query string**: those that have a name, unless what is printed is too long. -/
theorem parse_makeQueryString_iff {entries : QueryEntries} (hbytes : Bytes entries) :
    (parseURLEncoded [] (HTTPTypes.makeQueryString entries)).1 = true ∧
        (parseURLEncoded [] (HTTPTypes.makeQueryString entries)).2.map decoded = entries ↔
      ∀ entry ∈ entries, Fits entry := by
  rw [parse_makeQueryString hbytes]
  rcases readParameters_parameterText hbytes with ⟨hall, hread⟩ | ⟨hall, hread⟩
  · rw [hread]
    exact iff_of_true ⟨rfl, decoded_encoded hbytes⟩ hall
  · exact iff_of_false (fun h => Bool.false_ne_true (hread.symm.trans h.1)) hall

theorem parse_makeQueryString_iff_twoWords :
    (parseURLEncoded [] (HTTPTypes.makeQueryString [("title".toList, "Out & In".toList)])).1 = true ∧
        (parseURLEncoded [] (HTTPTypes.makeQueryString [("title".toList, "Out & In".toList)])).2.map decoded =
          [("title".toList, "Out & In".toList)] ↔
      ∀ entry ∈ [("title".toList, "Out & In".toList)], Fits entry :=
  parse_makeQueryString_iff (by decide)

end HTTPParser

end Brainslug
