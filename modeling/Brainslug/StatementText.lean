import Brainslug.Resources
import Brainslug.Sanitizer
import Brainslug.SQLiteDelivery

/-! The SQL text of a view. It is put together from the view statement and the columns of the sanitized
parameters alone, so the keys that were recognised determine it; the values reach the library only as
bindings, in the order of the placeholders. -/

namespace Brainslug

def SqlCall.text : SqlCall → Option String
  | .exec text => some text
  | .prepare text => some text
  | .bind _ _ => none

def Effect.texts {α : Type} (e : Effect α) : List String := e.sql.filterMap SqlCall.text

def placeholders (text : String) : Nat := text.toList.count '?'

theorem placeholders_append (s t : String) : placeholders (s ++ t) = placeholders s + placeholders t := by
  rw [placeholders, String.toList_append, List.count_append]
  rfl

theorem placeholders_ofList (cs : List Char) : placeholders (String.ofList cs) = cs.count '?' := by
  rw [placeholders, String.toList_ofList]

namespace SQLiteDB

/-! ### The where clause and the bindings -/

def condition (column : String) : String := column ++ " = ?"

theorem foldl_addCondition (l : List (String × String)) (t : String) :
    l.foldl addCondition (t, false) = (t ++ " AND ".intercalate (l.map fun e => condition e.1), !l.isEmpty) := by
  induction l using List.reverseRecOn with
  | nil => simp
  | append_singleton l e ih =>
      rw [List.foldl_append, ih, List.foldl_cons, List.foldl_nil, List.map_append, List.map_singleton]
      cases l with
      | nil => simp [addCondition, condition]
      | cons e' l =>
          rw [String.intercalate_append_of_ne_nil (by simp) (by simp), String.intercalate_singleton]
          simp [addCondition, condition, String.append_assoc]

/-- **The where clause depends on the columns alone.** -/
theorem whereClause_eq (sp : SanitizedParams) :
    whereClause sp = " WHERE " ++ " AND ".intercalate (sp.keys.map condition) ++ ";" := by
  rw [whereClause, foldl_addCondition, ← Std.TreeMap.map_fst_toList_eq_keys, List.map_map]
  rfl

theorem placeholders_intercalate {columns : List String} (h : ∀ c ∈ columns, placeholders c = 0) :
    placeholders (" AND ".intercalate (columns.map condition)) = columns.length := by
  induction columns with
  | nil => rfl
  | cons c columns ih =>
      have hc : placeholders (condition c) = 1 := by
        rw [condition, placeholders_append, h c List.mem_cons_self]
        rfl
      have hrest := ih fun c' hc' => h c' (List.mem_cons_of_mem _ hc')
      cases columns with
      | nil => simpa using hc
      | cons c' columns =>
          have hsep : placeholders " AND " = 0 := by rfl
          rw [List.map_cons, List.map_cons, String.intercalate_cons_cons, placeholders_append, placeholders_append,
            hc, hsep, ← List.map_cons, hrest]
          simp only [List.length_cons]
          omega

/-- The values bound to the placeholders, numbered from one. -/
def bindCalls (values : List String) : List SqlCall := (values.zipIdx 1).map fun v => .bind v.2 v.1

theorem map_bind_bindings (sp : SanitizedParams) :
    (bindings sp).map (fun b => SqlCall.bind b.1 b.2) = bindCalls (sp.toList.map Prod.snd) := by
  rw [bindings, numbered, bindCalls, List.map_map, List.zipIdx_map, List.map_map, List.zipIdx_succ, List.map_map]
  rfl

theorem isPrefix_bindAll (stmt : Stmt) (bs : List (Nat × String)) :
    (bindAll stmt bs).1 <+: bs.map fun b => .bind b.1 b.2 := by
  induction bs with
  | nil => exact List.prefix_rfl
  | cons b bs ih =>
      obtain ⟨i, v⟩ := b
      cases hb : stmt.bindText i v with
      | none =>
          simp only [bindAll, hb, List.map_cons]
          exact List.cons_prefix_cons.mpr ⟨rfl, ih⟩
      | some code =>
          simp only [bindAll, hb, List.map_cons]
          exact List.cons_prefix_cons.mpr ⟨rfl, List.nil_prefix⟩

/-- The library accepts all of these bindings. -/
def Accepts (stmt : Stmt) (calls : List SqlCall) : Prop := ∀ i v, .bind i v ∈ calls → stmt.bindText i v = none

theorem Accepts.bindings {stmt : Stmt} {sp : SanitizedParams} (h : Accepts stmt (bindCalls (sp.toList.map Prod.snd))) :
    ∀ b ∈ bindings sp, stmt.bindText b.1 b.2 = none := by
  intro b hb
  refine h b.1 b.2 ?_
  rw [← map_bind_bindings]
  exact List.mem_map.mpr ⟨b, hb, rfl⟩

/-- What a call with parameters hands to the library: the text, then bindings in order, all of them if each is
accepted. -/
theorem sql_executePrepared (lib : SQLite) (query errorMessage : String) (callback : ExecuteCallback)
    (sp : SanitizedParams) :
    ∃ binds, (executePrepared lib query errorMessage callback sp).sql = .prepare (query ++ whereClause sp) :: binds ∧
      binds <+: bindCalls (sp.toList.map Prod.snd) ∧
      ∀ stmt, lib.prepare (query ++ whereClause sp) = .ok stmt → Accepts stmt (bindCalls (sp.toList.map Prod.snd)) →
        binds = bindCalls (sp.toList.map Prod.snd) := by
  unfold executePrepared
  cases hprepare : lib.prepare (query ++ whereClause sp) with
  | error code =>
      simp only [hprepare]
      exact ⟨[], rfl, List.nil_prefix, fun stmt h => by cases h⟩
  | ok stmt =>
      refine ⟨(bindAll stmt (bindings sp)).1, ?_, ?_, ?_⟩
      · simp only [hprepare]
        split_ifs <;> rfl
      · rw [← map_bind_bindings]
        exact isPrefix_bindAll stmt (bindings sp)
      · rintro stmt' ⟨⟩ hbind
        rw [bindAll_ok hbind.bindings, map_bind_bindings]

end SQLiteDB

namespace ResourceHandler

variable (h : ResourceHandler)

theorem sql_callDb (db : DB) (call : String × SanitizedParams) :
    (callDb db call).sql = (db.execute call.1 "" .bound call.2).sql := by
  change (Effect.bind _ _).sql = _
  unfold Effect.bind
  cases (db.execute call.1 "" .bound call.2).result with
  | ok executed => exact List.append_nil _
  | error fault => rfl

/-- The text for given columns. -/
def viewText (columns : List String) : String :=
  if columns = [] then h.listStatement
  else h.viewStatement ++ " WHERE " ++ " AND ".intercalate (columns.map fun c => c ++ " = ?") ++ ";"

theorem mem_keys_sanitized (request : Request) (column : String) :
    column ∈ (h.sanitized request).keys ↔
      ∃ key, (key, column) ∈ h.keys ∧ key ∈ request.queryParams.map Prod.fst := by
  rw [sanitized, Std.TreeMap.mem_keys, mem_sanitizeQueryParams]
  simp only [lookup_eq_some_iff_mem h.keys_nodup, List.mem_map]
  constructor
  · rintro ⟨entry, hentry, hkey⟩
    exact ⟨entry.1, hkey, entry, hentry, rfl⟩
  · rintro ⟨key, hkey, entry, hentry, rfl⟩
    exact ⟨entry, hentry, hkey⟩

theorem keys_sanitized_eq {request request' : Request}
    (hsame : ∀ key ∈ h.keys.map Prod.fst,
      key ∈ request.queryParams.map Prod.fst ↔ key ∈ request'.queryParams.map Prod.fst) :
    (h.sanitized request).keys = (h.sanitized request').keys := by
  apply SanitizedParams.keys_eq_of_mem_iff
  intro c
  rw [← Std.TreeMap.mem_keys, ← Std.TreeMap.mem_keys, mem_keys_sanitized, mem_keys_sanitized]
  refine exists_congr fun key => and_congr_right fun hkey => ?_
  exact hsame key (List.mem_map.mpr ⟨_, hkey, rfl⟩)

theorem keys_eq_nil_iff (sp : SanitizedParams) : sp.keys = [] ↔ sp.isEmpty = true := by
  rw [← Std.TreeMap.isEmpty_keys, List.isEmpty_iff]

/-- **What a view hands to the library.** A text that its columns determine; without columns that is all,
otherwise it is prepared and the values are bound in the order of the columns, up to the first failure. -/
theorem sql_view (lib : SQLite) (request : Request) :
    ∃ binds, (h.view (SQLiteDB lib) request).sql =
        (if (h.sanitized request).keys = [] then .exec (h.viewText (h.sanitized request).keys)
         else .prepare (h.viewText (h.sanitized request).keys)) :: binds ∧
      binds <+: SQLiteDB.bindCalls ((h.sanitized request).toList.map Prod.snd) ∧
      ∀ stmt, lib.prepare (h.viewText (h.sanitized request).keys) = .ok stmt →
        SQLiteDB.Accepts stmt (SQLiteDB.bindCalls ((h.sanitized request).toList.map Prod.snd)) →
          binds = SQLiteDB.bindCalls ((h.sanitized request).toList.map Prod.snd) := by
  rw [view_eq, sql_callDb]
  simp only [SQLiteDB, SQLiteDB.execute]
  cases hempty : (h.sanitized request).isEmpty with
  | true =>
      have hkeys := (keys_eq_nil_iff _).mpr hempty
      have htoList : (h.sanitized request).toList = [] := by
        rw [← List.isEmpty_iff, Std.TreeMap.isEmpty_toList, hempty]
      refine ⟨[], ?_, List.nil_prefix, ?_⟩
      · rw [if_pos hkeys, viewText, if_pos hkeys]
        simp only [if_true, if_neg h.listStatement_ne]
        rfl
      · rw [htoList]
        exact fun _ _ _ => rfl
  | false =>
      have hkeys : (h.sanitized request).keys ≠ [] := by simp [keys_eq_nil_iff, hempty]
      have htext : h.viewStatement ++ SQLiteDB.whereClause (h.sanitized request) =
          h.viewText (h.sanitized request).keys := by
        rw [viewText, if_neg hkeys, SQLiteDB.whereClause_eq, ← String.append_assoc, ← String.append_assoc]
        rfl
      obtain ⟨binds, hsql, hstart, hall⟩ :=
        SQLiteDB.sql_executePrepared lib h.viewStatement "" .bound (h.sanitized request)
      rw [htext] at hsql hall
      refine ⟨binds, ?_, hstart, hall⟩
      rw [if_neg hkeys, ← hsql]
      simp only [Bool.false_eq_true, if_false, if_neg h.viewStatement_ne, hempty]

theorem texts_view (lib : SQLite) (request : Request) :
    (h.view (SQLiteDB lib) request).texts = [h.viewText (h.sanitized request).keys] := by
  obtain ⟨binds, hsql, hstart, -⟩ := h.sql_view lib request
  have hbinds : binds.filterMap SqlCall.text = [] := by
    rw [List.filterMap_eq_nil_iff]
    intro call hcall
    obtain ⟨v, -, rfl⟩ := List.mem_map.mp (hstart.subset hcall)
    rfl
  rw [Effect.texts, hsql, List.filterMap_cons]
  split_ifs <;> simp only [SqlCall.text, hbinds]

end ResourceHandler

namespace Resource

set_option maxRecDepth 20000 in
theorem placeholders_viewStatement (r : Resource) : placeholders r.handler.viewStatement = 0 := by
  cases r with
  | movies => exact (placeholders_ofList _).trans rfl
  | movieSources => exact (placeholders_ofList _).trans rfl
  | tvShows => exact (placeholders_ofList _).trans rfl
  | seasons => exact (placeholders_ofList _).trans rfl
  | episodes => exact (placeholders_ofList _).trans rfl

theorem placeholders_columns (r : Resource) : ∀ c ∈ r.handler.keys.map Prod.snd, placeholders c = 0 := by
  cases r <;> decide

theorem placeholders_viewText (r : Resource) {columns : List String}
    (h : ∀ c ∈ columns, c ∈ r.handler.keys.map Prod.snd) :
    placeholders (r.handler.viewText columns) = columns.length := by
  unfold ResourceHandler.viewText
  by_cases hnil : columns = []
  · rw [if_pos hnil, hnil, ResourceHandler.listStatement, placeholders_append, r.placeholders_viewStatement]
    rfl
  · have hconditions := SQLiteDB.placeholders_intercalate fun c hc => r.placeholders_columns c (h c hc)
    have hwhere : placeholders " WHERE " = 0 := by rfl
    have hend : placeholders ";" = 0 := by rfl
    rw [if_neg hnil, placeholders_append, placeholders_append, placeholders_append, r.placeholders_viewStatement,
      hwhere, hend]
    unfold SQLiteDB.condition at hconditions
    omega

/-- **No request byte reaches the SQL text.** Requests that supply the same recognised keys make a view hand
the same text to the library. The text is the list statement, or the view statement with one condition
for each of the columns, which increase and belong to the handler; there is a placeholder for each value,
and the values are bound in the order of their columns, all of them if the library accepts each of these
bindings, and each as it was supplied under the key of its column. -/
theorem view_text (r : Resource) (request : Request) :
    (∀ (lib lib' : SQLite) (request' : Request),
      (∀ key ∈ r.handler.keys.map Prod.fst,
        key ∈ request.queryParams.map Prod.fst ↔ key ∈ request'.queryParams.map Prod.fst) →
      (r.handler.view (SQLiteDB lib) request).texts = (r.handler.view (SQLiteDB lib') request').texts) ∧
    ∃ entries : List (String × String),
      (entries.map Prod.fst).Pairwise (· < ·) ∧
      (∀ column, column ∈ entries.map Prod.fst ↔
        ∃ key, (key, column) ∈ r.handler.keys ∧ key ∈ request.queryParams.map Prod.fst) ∧
      (∀ entry ∈ entries, ∃ key, (key, entry.1) ∈ r.handler.keys ∧ (key, entry.2) ∈ request.queryParams) ∧
      placeholders (r.handler.viewText (entries.map Prod.fst)) = entries.length ∧
      ∀ lib : SQLite, ∃ binds,
        (r.handler.view (SQLiteDB lib) request).sql =
          (if entries.map Prod.fst = [] then .exec (r.handler.viewText (entries.map Prod.fst))
           else .prepare (r.handler.viewText (entries.map Prod.fst))) :: binds ∧
        binds <+: SQLiteDB.bindCalls (entries.map Prod.snd) ∧
        ∀ stmt, lib.prepare (r.handler.viewText (entries.map Prod.fst)) = .ok stmt →
          (∀ i v, .bind i v ∈ SQLiteDB.bindCalls (entries.map Prod.snd) → stmt.bindText i v = none) →
            binds = SQLiteDB.bindCalls (entries.map Prod.snd) := by
  constructor
  · intro lib lib' request' hsame
    rw [ResourceHandler.texts_view, ResourceHandler.texts_view, ResourceHandler.keys_sanitized_eq r.handler hsame]
  · refine ⟨(r.handler.sanitized request).toList, ?_⟩
    rw [Std.TreeMap.map_fst_toList_eq_keys]
    refine ⟨SanitizedParams.keys_pairwise _, r.handler.mem_keys_sanitized request, ?_, ?_, ?_⟩
    · rintro ⟨column, value⟩ hentry
      obtain ⟨key, hkey, hmem⟩ := ResourceHandler.supplied_of_getElem? r.handler.keys
        (Std.TreeMap.mem_toList_iff_getElem?_eq_some.mp hentry)
      exact ⟨key, (ResourceHandler.lookup_eq_some_iff_mem r.handler.keys_nodup).mp hkey, hmem⟩
    · have hcolumns : ∀ c ∈ (r.handler.sanitized request).keys, c ∈ r.handler.keys.map Prod.snd := by
        intro c hc
        obtain ⟨key, hkey, -⟩ := (r.handler.mem_keys_sanitized request c).mp hc
        exact List.mem_map.mpr ⟨_, hkey, rfl⟩
      rw [r.placeholders_viewText hcolumns, ← Std.TreeMap.map_fst_toList_eq_keys, List.length_map]
    · exact fun lib => r.handler.sql_view lib request

end Resource

end Brainslug
