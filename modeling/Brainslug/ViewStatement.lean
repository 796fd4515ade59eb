import Brainslug.StatementText

/-! The texts that a view hands to the library are statements of the SQL fragment: the select of the handler,
with a condition for each of the columns. -/

namespace Sql

/-! ### Texts put together from texts -/

/-- At a character that belongs to no word and no literal the tokens so far are complete. -/
theorem lex_append_break {s : LexState} {cs : List Char} {ts : List Token} (h : lex s cs = some ts) {c : Char}
    (hword : isWordChar c = false) (hquote : (c == quote) = false) (rest : List Char) :
    lex s (cs ++ c :: rest) = (fun r => ts ++ ((startChar c).1 ++ r)) <$> lex (startChar c).2 rest := by
  fun_induction lex s cs generalizing ts with
  | case1 =>
      obtain rfl := Option.some.inj h
      rw [List.nil_append, lex]
      rfl
  | case2 read =>
      obtain rfl := Option.some.inj h
      rw [List.nil_append, lex, hword]
      rfl
  | case3 read => cases h
  | case4 read =>
      obtain rfl := Option.some.inj h
      rw [List.nil_append, lex, hquote]
      rfl
  | case5 d cs ih =>
      obtain ⟨ts', hts', rfl⟩ := Option.map_eq_some_iff.mp h
      rw [List.cons_append, lex, ih hts']
      cases lex (startChar c).2 rest <;> simp
  | case6 read d cs hd ih =>
      rw [List.cons_append, lex, if_pos hd]
      exact ih h
  | case7 read d cs hd ih =>
      obtain ⟨ts', hts', rfl⟩ := Option.map_eq_some_iff.mp h
      rw [List.cons_append, lex, if_neg hd, ih hts']
      cases lex (startChar c).2 rest <;> simp
  | case8 read d cs hd ih =>
      rw [List.cons_append, lex, if_pos hd]
      exact ih h
  | case9 read d cs hd ih =>
      rw [List.cons_append, lex, if_neg hd]
      exact ih h
  | case10 read d cs hd ih =>
      rw [List.cons_append, lex, if_pos hd]
      exact ih h
  | case11 read d cs hd ih =>
      obtain ⟨ts', hts', rfl⟩ := Option.map_eq_some_iff.mp h
      rw [List.cons_append, lex, if_neg hd, ih hts']
      cases lex (startChar c).2 rest <;> simp

theorem lex_append_space {s : LexState} {cs : List Char} {ts : List Token} (h : lex s cs = some ts)
    (rest : List Char) : lex s (cs ++ ' ' :: rest) = (fun r => ts ++ r) <$> lex .blank rest :=
  lex_append_break h (by decide) (by decide) rest

/-- The text is one word, and a name. -/
def IsName (column : String) : Prop := lex .blank column.toList = some [.name column]

instance (column : String) : Decidable (IsName column) := inferInstanceAs (Decidable (_ = _))

/-- The tokens of a where clause, behind its keyword. -/
def conditionTokens : List String → List Token
  | [] => [.sym ';']
  | [column] => [.name column, .sym '=', .sym '?', .sym ';']
  | column :: columns => .name column :: .sym '=' :: .sym '?' :: .kw .and :: conditionTokens columns

theorem parseConditions_conditionTokens {columns : List String} (hne : columns ≠ []) :
    parseConditions (conditionTokens columns) = some columns := by
  induction columns with
  | nil => exact absurd rfl hne
  | cons column columns ih =>
      cases columns with
      | nil => rfl
      | cons column' columns =>
          rw [conditionTokens, parseConditions, ih (List.cons_ne_nil _ _)]
          · rfl
          · simp

theorem lex_condition {column : String} (h : IsName column) (rest : List Char) :
    lex .blank (column.toList ++ ' ' :: '=' :: ' ' :: '?' :: rest) =
      (fun r => .name column :: .sym '=' :: .sym '?' :: r) <$> lex .blank rest := by
  have hequal : lex .blank ['='] = some [.sym '='] := by decide
  have hspace := lex_append_space hequal ('?' :: rest)
  rw [List.singleton_append] at hspace
  rw [lex_append_space h, hspace, lex]
  change _ <$> (_ <$> ((fun r => [.sym '?'] ++ r) <$> lex .blank rest)) = _
  cases lex .blank rest <;> rfl

theorem lex_and (rest : List Char) :
    lex .blank (" AND ".toList ++ rest) = (fun r => .kw .and :: r) <$> lex .blank rest := by
  have hand : lex .blank " AND".toList = some [.kw .and] := by decide
  exact lex_append_space hand rest

theorem lex_conditions {columns : List String} (hne : columns ≠ []) (hnames : ∀ c ∈ columns, IsName c) :
    lex .blank (" AND ".intercalate (columns.map fun c => c ++ " = ?") ++ ";").toList =
      some (conditionTokens columns) := by
  induction columns with
  | nil => exact absurd rfl hne
  | cons column columns ih =>
      obtain ⟨hname, hnames⟩ := List.forall_mem_cons.mp hnames
      cases columns with
      | nil =>
          have hlex := lex_condition hname [';']
          have hend : lex .blank [';'] = some [.sym ';'] := by decide
          rw [hend] at hlex
          rw [List.map_singleton, String.intercalate_singleton, String.toList_append, String.toList_append,
            List.append_assoc]
          exact hlex
      | cons column' columns =>
          have hrest := ih (List.cons_ne_nil _ _) hnames
          rw [List.map_cons] at hrest
          rw [List.map_cons, List.map_cons, String.intercalate_cons_cons]
          have htext : (column ++ " = ?" ++ " AND " ++
              " AND ".intercalate ((column' ++ " = ?") :: columns.map fun c => c ++ " = ?") ++ ";").toList =
              column.toList ++ ' ' :: '=' :: ' ' :: '?' :: (" AND ".toList ++
                (" AND ".intercalate ((column' ++ " = ?") :: columns.map fun c => c ++ " = ?") ++ ";").toList) := by
            simp only [String.toList_append, List.append_assoc]
            rfl
          rw [htext, lex_condition hname, lex_and, hrest]
          rfl

/-! ### Selects that a where clause is appended to -/

theorem parseItems_append {ts rest : List Token} {items : List (String × String)}
    (h : parseItems ts = some (items, rest)) (hne : rest ≠ []) (more : List Token) :
    parseItems (ts ++ more) = some (items, rest ++ more) := by
  fun_induction parseItems ts generalizing items rest with
  | case1 c f ts ih =>
      obtain ⟨⟨items', rest'⟩, hitems, heq⟩ := Option.map_eq_some_iff.mp h
      obtain ⟨rfl, rfl⟩ := Prod.mk.inj heq
      simp only [List.cons_append, parseItems, ih hitems hne, Option.map_some]
  | case2 c f ts hcomma =>
      obtain ⟨rfl, rfl⟩ := Prod.mk.inj (Option.some.inj h)
      cases ts with
      | nil => exact absurd rfl hne
      | cons t ts =>
          simp only [List.cons_append]
          rw [parseItems]
          intro ts' heq
          exact hcomma ts (congrArg (· :: ts) (List.cons.inj heq).1)
  | case3 => cases h

theorem parseCreate_ne_select (ts : List Token) (sel : Select) (conditions : List String) :
    parseCreate ts ≠ some (.select sel conditions) := by
  intro h
  unfold parseCreate at h
  split at h
  · obtain ⟨⟨parts, rest⟩, -, h⟩ := Option.bind_eq_some_iff.mp h
    dsimp only at h
    split_ifs at h
    obtain ⟨schema, -, h⟩ := Option.bind_eq_some_iff.mp h
    cases h
  · cases h

theorem parseInsert_ne_select (ts : List Token) (sel : Select) (conditions : List String) :
    parseInsert ts ≠ some (.select sel conditions) := by
  intro h
  unfold parseInsert at h
  split at h
  · obtain ⟨⟨columns, rest⟩, -, h⟩ := Option.bind_eq_some_iff.mp h
    dsimp only at h
    split at h
    · obtain ⟨⟨values, rest⟩, -, h⟩ := Option.bind_eq_some_iff.mp h
      dsimp only at h
      split_ifs at h
      cases h
    · cases h
  · cases h

theorem exists_of_parse_select {text : String} {sel : Select} {conditions : List String}
    (h : parse text = some (.select sel conditions)) :
    ∃ ts, lex .blank text.toList = some (.kw .select :: ts) ∧ parseSelect ts = some (.select sel conditions) := by
  obtain ⟨ts, hlex, h⟩ := Option.bind_eq_some_iff.mp h
  split at h
  · exact absurd h (parseCreate_ne_select _ _ _)
  · exact absurd h (parseInsert_ne_select _ _ _)
  · exact ⟨_, hlex, h⟩
  · cases h

theorem parse_of_lex {text : String} {ts : List Token} (h : lex .blank text.toList = some (.kw .select :: ts)) :
    parse text = parseSelect ts := by
  rw [parse, parseChars, h]
  rfl

/-- A select without conditions, in its text with or without a semicolon. -/
theorem parseItems_of_parseSelect {ts : List Token} {sel : Select} (h : parseSelect ts = some (.select sel [])) :
    parseItems ts = some (sel.items, [.kw .from, .name sel.table]) ∨
      parseItems ts = some (sel.items, [.kw .from, .name sel.table, .sym ';']) := by
  obtain ⟨⟨items, rest⟩, hitems, h⟩ := Option.bind_eq_some_iff.mp h
  dsimp only at h
  split at h
  · cases Option.some.inj h
    exact Or.inl hitems
  · cases Option.some.inj h
    exact Or.inr hitems
  · next t ts' =>
      obtain ⟨conditions, hconditions, h⟩ := Option.bind_eq_some_iff.mp h
      cases h
      unfold parseConditions at hconditions
      split at hconditions
      · obtain ⟨columns, -, hcolumns⟩ := Option.map_eq_some_iff.mp hconditions
        cases hcolumns
      · cases hconditions
      · cases hconditions
      · cases hconditions
  · cases h

theorem lex_where {text clause : String} {ts ts' : List Token} (h : lex .blank text.toList = some ts)
    (hclause : lex .blank clause.toList = some ts') :
    lex .blank (text ++ (" WHERE " ++ clause)).toList = some (ts ++ .kw .whereWord :: ts') := by
  have hword : lex .blank "WHERE".toList = some [.kw .whereWord] := by decide
  have hwhere := lex_append_space hword clause.toList
  have hspace := lex_append_space h ("WHERE".toList ++ ' ' :: clause.toList)
  rw [hwhere, hclause] at hspace
  rw [String.toList_append, String.toList_append]
  exact hspace

/-- **A where clause.** Appended to a select that a semicolon can be appended to, it adds its conditions. -/
theorem parse_where {text : String} {sel : Select} (h : parse text = some (.select sel []))
    (hsemicolon : parse (text ++ ";") = some (.select sel [])) {columns : List String} (hne : columns ≠ [])
    (hnames : ∀ c ∈ columns, IsName c) :
    parse (text ++ " WHERE " ++ " AND ".intercalate (columns.map fun c => c ++ " = ?") ++ ";") =
      some (.select sel columns) := by
  obtain ⟨ts, hlex, hselect⟩ := exists_of_parse_select h
  have hitems : parseItems ts = some (sel.items, [.kw .from, .name sel.table]) := by
    obtain hitems | hitems := parseItems_of_parseSelect hselect
    · exact hitems
    · -- a second semicolon could not be read
      have htext : lex .blank (text ++ ";").toList = some (.kw .select :: (ts ++ [.sym ';'])) := by
        have hbreak := lex_append_break hlex (c := ';') (by decide) (by decide) []
        rw [String.toList_append]
        exact hbreak
      rw [parse_of_lex htext, parseSelect, parseItems_append hitems (List.cons_ne_nil _ _)] at hsemicolon
      cases hsemicolon
  have htext := lex_where hlex (lex_conditions hne hnames)
  rw [← String.append_assoc, ← String.append_assoc, List.cons_append] at htext
  rw [parse_of_lex htext, parseSelect, parseItems_append hitems (List.cons_ne_nil _ _)]
  change (parseConditions (conditionTokens columns)).bind _ = _
  rw [parseConditions_conditionTokens hne]
  rfl

end Sql

namespace Brainslug

namespace ResourceHandler

/-- The columns that a request can name are names of the SQL fragment. -/
theorem isName_columns (r : Resource) : ∀ c ∈ r.handler.keys.map Prod.snd, Sql.IsName c := by
  cases r <;> decide

theorem parse_viewText (r : Resource) {columns : List String} (h : ∀ c ∈ columns, c ∈ r.handler.keys.map Prod.snd) :
    Sql.parse (r.handler.viewText columns) = some (.select r.handler.select columns) := by
  unfold viewText
  by_cases hnil : columns = []
  · rw [if_pos hnil, hnil]
    exact r.handler.parse_listStatement
  · rw [if_neg hnil]
    exact Sql.parse_where r.handler.parse_viewStatement r.handler.parse_listStatement hnil
      fun c hc => isName_columns r c (h c hc)

end ResourceHandler

end Brainslug
