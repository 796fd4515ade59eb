import Brainslug.SQLiteDB

/-! What the callback of `SQLiteDB::execute` receives. `sqlite3_exec` hands over each row. The step
loop pushes the text pointers of every row behind those of the rows before it and always hands over
the first of them, so each invocation after the first reads through the pointers of the first row. -/

namespace Brainslug

namespace Stepping

variable (s : Stepping)

def rowCalls : List RowCall := s.rows.map s.colNames.zip

/-- What the memory holds behind the pointers of the first row while row `k` is current. -/
def firstPtrsAt (k : Nat) : List (Option String) := (SQLiteDB.rowPtrs s 0).map (Option.map (s.textAt k))

@[simp] theorem length_rowPtrs (k : Nat) : (SQLiteDB.rowPtrs s k).length = s.colNames.length := by
  simp [SQLiteDB.rowPtrs]

@[simp] theorem length_firstPtrsAt (k : Nat) : (s.firstPtrsAt k).length = s.colNames.length := by
  simp [firstPtrsAt]

variable {s}

theorem length_row {k : Nat} {row : List (Option String)} (h : s.rows[k]? = some row) :
    row.length = s.colNames.length := by
  rw [← s.reports k row h, List.length_map, List.length_range]

theorem firstPtrsAt_zero {row : List (Option String)} (h : s.rows[0]? = some row) : s.firstPtrsAt 0 = row := by
  rw [← s.reports 0 row h, firstPtrsAt, SQLiteDB.rowPtrs, List.map_map]
  rfl

theorem zip_colNames_inj {row row' : List (Option String)} (h : row.length = s.colNames.length)
    (h' : row'.length = s.colNames.length) : s.colNames.zip row = s.colNames.zip row' ↔ row = row' := by
  constructor
  · intro heq
    have hsnd := congrArg (List.map Prod.snd) heq
    rwa [List.map_snd_zip h.le, List.map_snd_zip h'.le] at hsnd
  · rintro rfl
    rfl

end Stepping

/-! ### A library that reuses its memory

Each column has a place of its own, in which the text of the current row is put, if it has one. -/

namespace Stepping

/-- The text that was last put in the place of a column. -/
def lastText (rows : List (List (Option String))) (k i : Nat) : Option String :=
  ((rows.take (k + 1)).filterMap fun row => row[i]?.join).getLast?

theorem lastText_of_some {rows : List (List (Option String))} {k i : Nat} {row : List (Option String)} {text : String}
    (hrow : rows[k]? = some row) (htext : row[i]?.join = some text) : lastText rows k i = some text := by
  rw [lastText, List.take_add_one, hrow, List.filterMap_append]
  simp [htext]

theorem exists_of_lastText {rows : List (List (Option String))} {k i : Nat} {text : String}
    (h : lastText rows k i = some text) : ∃ row ∈ rows, some text ∈ row := by
  obtain ⟨row, hrow, hcell⟩ := List.mem_filterMap.mp (List.mem_of_getLast? h)
  exact ⟨row, List.mem_of_mem_take hrow, List.mem_of_getElem? (Option.join_eq_some_iff.mp hcell)⟩

/-- The run that reports the given rows and puts the texts of a column in one place. -/
def reusing (colNames : List String) (rows : List (List (Option String)))
    (hrows : ∀ row ∈ rows, row.length = colNames.length) (hcolumns : rows ≠ [] → colNames ≠ []) : Stepping where
  colNames := colNames
  rows := rows
  failure := none
  textPtr k i := (rows[k]?.bind fun row => row[i]?.join).map fun _ => i
  textAt k i := (lastText rows k i).getD ""
  reports k row hrow := by
    apply List.ext_getElem
    · simp [hrows row (List.mem_of_getElem? hrow)]
    · intro i hi hi'
      have hcell : row[i]?.join = row[i] := by rw [List.getElem?_eq_getElem hi', Option.join_some]
      simp only [List.getElem_map, List.getElem_range, hrow, Option.bind_some, hcell]
      cases hvalue : row[i] with
      | none => rfl
      | some text => simp [lastText_of_some hrow (hcell.trans hvalue)]
  columns := hcolumns

end Stepping

/-- The library on a connection where every statement yields the rows of one run. -/
def SQLite.answering (s : Stepping) : SQLite where
  exec _ := ⟨s.rowCalls, none⟩
  prepare _ := .ok ⟨fun _ _ => none, fun _ => s⟩

namespace SQLiteDB

variable {s : Stepping}

def completed (s : Stepping) : Bool := (s.failure.elim ResultCode.done ResultCode.error).succeeded

/-- Once a row was pushed: the count and the names are those of the statement, and the pointers of the
first row stand in front of the others. -/
structure FirstInFront (s : Stepping) (vars : LoopVars) : Prop where
  colCount : vars.colCount = s.colNames.length
  colNames : vars.colNames = s.colNames
  colValues : rowPtrs s 0 <+: vars.colValues

theorem firstInFront_initial (s : Stepping) : FirstInFront s (pushRow s 0 LoopVars.initial) where
  colCount := rfl
  colNames := rfl
  colValues := List.prefix_rfl

/-- Nothing is removed from the values, so their beginning stays. -/
theorem FirstInFront.pushRow {vars : LoopVars} (h : FirstInFront s vars) (k : Nat) :
    FirstInFront s (pushRow s k vars) := by
  have hcount : ¬vars.colCount < 0 := by
    have := h.colCount
    omega
  unfold SQLiteDB.pushRow
  rw [if_neg hcount]
  exact ⟨h.colCount, h.colNames, h.colValues.trans (List.prefix_append _ _)⟩

theorem FirstInFront.readArrays_eq {vars : LoopVars} (h : FirstInFront s vars) (k : Nat) :
    readArrays s k vars = s.colNames.zip (s.firstPtrsAt k) := by
  obtain ⟨later, hlater⟩ := h.colValues
  have hlen : s.colNames.length = (s.firstPtrsAt k).length := (s.length_firstPtrsAt k).symm
  rw [readArrays, h.colNames, h.colCount, ← hlater, List.map_append, Int.toNat_natCast]
  change (s.colNames.zip (s.firstPtrsAt k ++ _)).take _ = _
  rw [← List.append_nil s.colNames, List.zip_append hlen, List.append_nil, List.zip_nil_left,
    List.append_nil, List.take_of_length_le]
  simp

theorem stepLoop_succ (hcolumns : s.colNames ≠ []) (k left : Nat) (vars : LoopVars) :
    stepLoop s .bound k (left + 1) vars =
      (stepLoop s .bound (k + 1) left (pushRow s k vars)).map
        fun r => (readArrays s k (pushRow s k vars) :: r.1, r.2) := by
  have hlen : ¬(vars.colCount < 0 ∧ s.colNames.length = 0) :=
    fun h => hcolumns (List.length_eq_zero_iff.mp h.2)
  rw [stepLoop, if_neg hlen]
  rfl

/-- The turns after the first: each shows what the pointers of the first row lead to by then. -/
theorem stepLoop_later (hcolumns : s.colNames ≠ []) (left k : Nat) {vars : LoopVars} (h : FirstInFront s vars) :
    stepLoop s .bound k left vars =
      .ok ((List.range' k left).map fun j => s.colNames.zip (s.firstPtrsAt j), completed s) := by
  induction left generalizing k vars with
  | zero => rfl
  | succ left ih =>
      rw [stepLoop_succ hcolumns, ih (k + 1) (h.pushRow k), (h.pushRow k).readArrays_eq, List.range'_succ]
      rfl

theorem stepLoop_bound (s : Stepping) :
    stepLoop s .bound 0 s.rows.length LoopVars.initial =
      .ok ((List.range s.rows.length).map fun k => s.colNames.zip (s.firstPtrsAt k), completed s) := by
  cases hrows : s.rows with
  | nil => rfl
  | cons row rows =>
      have hcolumns : s.colNames ≠ [] := s.columns (by simp [hrows])
      have hfirst := firstInFront_initial s
      rw [List.length_cons, stepLoop_succ hcolumns, stepLoop_later hcolumns _ _ hfirst, hfirst.readArrays_eq,
        List.range_eq_range', List.range'_succ]
      rfl

theorem bindAll_ok {stmt : Stmt} {bs : List (Nat × String)} (h : ∀ b ∈ bs, stmt.bindText b.1 b.2 = none) :
    bindAll stmt bs = (bs.map fun b => .bind b.1 b.2, .ok) := by
  induction bs with
  | nil => rfl
  | cons b bs ih =>
      obtain ⟨i, v⟩ := b
      have hrest := ih fun b hb => h b (List.mem_cons_of_mem _ hb)
      simp only [bindAll, h (i, v) List.mem_cons_self, hrest, List.map_cons]

theorem execute_prepared {lib : SQLite} {query errorMessage : String} {callback : ExecuteCallback}
    {sp : SanitizedParams} {stmt : Stmt} (hquery : query ≠ "") (hsp : sp.isEmpty = false)
    (hprepare : lib.prepare (query ++ whereClause sp) = .ok stmt)
    (hbind : ∀ b ∈ bindings sp, stmt.bindText b.1 b.2 = none) :
    (execute lib query errorMessage callback sp).result =
      (stepLoop (stmt.run (bindings sp)) callback 0 (stmt.run (bindings sp)).rows.length LoopVars.initial).map
        fun r => ⟨r.1, r.2, errorMessage⟩ := by
  simp only [execute, if_neg hquery, hsp, executePrepared, hprepare, bindAll_ok hbind]
  rfl

theorem mapM_execCallback_bound (rows : List RowCall) :
    rows.mapM (execCallback (some .bound)) = .ok (rows.map fun row => [row]) := by
  induction rows with
  | nil => rfl
  | cons row rows ih =>
      rw [List.mapM_cons, ih]
      rfl

theorem execute_plain_bound {lib : SQLite} {query : String} (hquery : query ≠ "") (errorMessage : String) :
    (execute lib query errorMessage .bound ∅).result =
      .ok ⟨(lib.exec query).rows, ((lib.exec query).failure.elim ResultCode.ok fun f => .error f.code).succeeded,
        ((lib.exec query).failure.map ExecFailure.message).getD errorMessage⟩ := by
  have hempty : (∅ : SanitizedParams).isEmpty = true := Std.TreeMap.isEmpty_emptyc
  simp only [execute, if_neg hquery, hempty, if_true, executePlain, mapM_execCallback_bound]
  rw [Except.map, ← List.flatMap_def, List.flatMap_singleton']

/-! ### Faithful delivery -/

/-- The callback was invoked once for each row, in order, with the names and the values of the row. -/
def DeliversRows (s : Stepping) (outcome : Except Fault Executed) : Prop :=
  ∃ executed, outcome = .ok executed ∧ executed.calls = s.rowCalls

/-- Two calls returned after the same sequence of invocations. -/
def SameCalls (outcome outcome' : Except Fault Executed) : Prop :=
  ∃ executed executed', outcome = .ok executed ∧ outcome' = .ok executed' ∧ executed.calls = executed'.calls

/-- At each later row the memory behind the pointers of the first row holds the values of that row. -/
def FirstPtrsFollow (s : Stepping) : Prop :=
  ∀ k row, s.rows[k]? = some row → 0 < k → s.firstPtrsAt k = row

theorem firstPtrsFollow_of_length_le_one (h : s.rows.length ≤ 1) : FirstPtrsFollow s := by
  intro k row hrow hk
  have hlt := (List.getElem?_eq_some_iff.mp hrow).1
  omega

theorem map_firstPtrsAt_eq_rowCalls_iff (s : Stepping) :
    (List.range s.rows.length).map (fun k => s.colNames.zip (s.firstPtrsAt k)) = s.rowCalls ↔
      FirstPtrsFollow s := by
  constructor
  · intro heq k row hrow _
    have hlt := (List.getElem?_eq_some_iff.mp hrow).1
    have hk := congrArg (·[k]?) heq
    simp only [List.getElem?_map, List.getElem?_range hlt, Stepping.rowCalls, hrow, Option.map_some,
      Option.some.injEq] at hk
    exact (Stepping.zip_colNames_inj (s.length_firstPtrsAt k) (Stepping.length_row hrow)).mp hk
  · intro hfollow
    apply List.ext_getElem? (fun k => ?_)
    cases hrow : s.rows[k]? with
    | none =>
        have hle := List.getElem?_eq_none_iff.mp hrow
        rw [List.getElem?_eq_none (by simpa using hle), Stepping.rowCalls, List.getElem?_map, hrow]
        rfl
    | some row =>
        have hlt := (List.getElem?_eq_some_iff.mp hrow).1
        have hptrs : s.firstPtrsAt k = row := by
          rcases Nat.eq_zero_or_pos k with rfl | hpos
          · exact Stepping.firstPtrsAt_zero hrow
          · exact hfollow k row hrow hpos
        simp only [List.getElem?_map, List.getElem?_range hlt, Stepping.rowCalls, hrow, Option.map_some, hptrs]

/-- **When the rows are delivered.** The branch with parameters delivers the rows, equally makes the
invocations that `sqlite3_exec` makes of the same rows, exactly when at each later row the pointers of
the first row lead to the values of that row. -/
theorem execute_prepared_delivers_iff (lib : SQLite) (query errorMessage : String) (sp : SanitizedParams)
    (stmt : Stmt) (hquery : query ≠ "") (hsp : sp.isEmpty = false)
    (hprepare : lib.prepare (query ++ whereClause sp) = .ok stmt)
    (hbind : ∀ b ∈ bindings sp, stmt.bindText b.1 b.2 = none) :
    (DeliversRows (stmt.run (bindings sp)) (execute lib query errorMessage .bound sp).result ↔
        FirstPtrsFollow (stmt.run (bindings sp))) ∧
      ∀ (lib' : SQLite) (query' : String), query' ≠ "" →
        (lib'.exec query').rows = (stmt.run (bindings sp)).rowCalls →
          (SameCalls (execute lib query errorMessage .bound sp).result
              (execute lib' query' errorMessage .bound ∅).result ↔
            FirstPtrsFollow (stmt.run (bindings sp))) := by
  rw [execute_prepared hquery hsp hprepare hbind, stepLoop_bound, ← map_firstPtrsAt_eq_rowCalls_iff]
  refine ⟨?_, fun lib' query' hquery' hrows => ?_⟩
  · constructor
    · rintro ⟨executed, ⟨⟩, hcalls⟩
      exact hcalls
    · intro hcalls
      exact ⟨_, rfl, hcalls⟩
  · rw [execute_plain_bound hquery', hrows]
    constructor
    · rintro ⟨executed, executed', ⟨⟩, ⟨⟩, hcalls⟩
      exact hcalls
    · intro hcalls
      exact ⟨_, _, rfl, rfl, hcalls⟩

/-- The pointers of the first row are null where its values are. -/
theorem isSome_firstPtrsAt {first : List (Option String)} (hfirst : s.rows[0]? = some first) (k : Nat) :
    (s.firstPtrsAt k).map Option.isSome = first.map Option.isSome := by
  rw [← Stepping.firstPtrsAt_zero hfirst, Stepping.firstPtrsAt, Stepping.firstPtrsAt, List.map_map, List.map_map]
  simp [Function.comp_def]

/-- When the library reuses its memory, the rows are delivered if they are NULL in the same columns as the first. -/
theorem firstPtrsFollow_reusing_iff {colNames : List String} {first : List (Option String)}
    {rows : List (List (Option String))} (hrows : ∀ row ∈ first :: rows, row.length = colNames.length)
    (hcolumns : first :: rows ≠ [] → colNames ≠ []) :
    FirstPtrsFollow (.reusing colNames (first :: rows) hrows hcolumns) ↔
      ∀ row ∈ rows, row.map Option.isSome = first.map Option.isSome := by
  constructor
  · intro hfollow row hrow
    obtain ⟨k, hk⟩ := List.mem_iff_getElem?.mp hrow
    rw [← hfollow (k + 1) row hk (Nat.succ_pos k)]
    exact isSome_firstPtrsAt (s := .reusing colNames (first :: rows) hrows hcolumns) rfl (k + 1)
  · intro hall k row hrow hk
    have hsome : row.map Option.isSome = first.map Option.isSome := by
      obtain ⟨k, rfl⟩ := Nat.exists_eq_succ_of_ne_zero hk.ne'
      exact hall row (List.mem_of_getElem? (hrow : rows[k]? = some row))
    apply List.ext_getElem
    · rw [Stepping.length_firstPtrsAt]
      exact (hrows row (List.mem_of_getElem? hrow)).symm
    · intro i hi hi'
      have hlt : i < first.length := by
        rw [← List.length_map (f := Option.isSome), ← hsome, List.length_map]
        exact hi'
      have hcell : row[i].isSome = first[i].isSome := by
        have hmap := congrArg (·[i]?) hsome
        simpa [hi', hlt] using hmap
      simp only [Stepping.firstPtrsAt, rowPtrs, Stepping.reusing, List.getElem_map, List.getElem_range,
        List.getElem?_cons_zero, Option.bind_some, List.getElem?_eq_getElem hlt, Option.join_some]
      cases hvalue : row[i] with
      | none =>
          rw [hvalue] at hcell
          cases hfirst : first[i] with
          | none => rfl
          | some text => rw [hfirst] at hcell; cases hcell
      | some text =>
          have hjoin : row[i]?.join = some text := by rw [List.getElem?_eq_getElem hi', Option.join_some, hvalue]
          rw [hvalue] at hcell
          obtain ⟨text', htext'⟩ := Option.isSome_iff_exists.mp hcell.symm
          have hlast : Stepping.lastText (first :: rows) k i = some text := Stepping.lastText_of_some hrow hjoin
          simp [htext', hlast]

def twoMovies : Stepping :=
  .reusing ["id", "coverUrl"] [[some "1", some "twilight.jpg"], [some "2", none]] (by decide) (by decide)

def twoMoviesQuery : String := "select movie_id as id, movie_coverurl as coverUrl from movies"

theorem execute_prepared_delivers_iff_twoMovies :
    (DeliversRows twoMovies
          (execute (.answering twoMovies) twoMoviesQuery "" .bound {("movie_name", "Twilight")}).result ↔
        FirstPtrsFollow twoMovies) ∧
      (SameCalls (execute (.answering twoMovies) twoMoviesQuery "" .bound {("movie_name", "Twilight")}).result
          (execute (.answering twoMovies) twoMoviesQuery "" .bound ∅).result ↔ FirstPtrsFollow twoMovies) := by
  have h := execute_prepared_delivers_iff (.answering twoMovies) twoMoviesQuery "" {("movie_name", "Twilight")}
    ⟨fun _ _ => none, fun _ => twoMovies⟩ (by decide) (by decide) rfl (fun _ _ => rfl)
  exact ⟨h.1, h.2 (.answering twoMovies) twoMoviesQuery (by decide) rfl⟩

/-- The second movie is delivered with the cover of the first. -/
theorem twoMovies_not_delivered :
    ¬DeliversRows twoMovies
        (execute (.answering twoMovies) twoMoviesQuery "" .bound {("movie_name", "Twilight")}).result ∧
      ¬SameCalls (execute (.answering twoMovies) twoMoviesQuery "" .bound {("movie_name", "Twilight")}).result
        (execute (.answering twoMovies) twoMoviesQuery "" .bound ∅).result := by
  have hrun : (execute (.answering twoMovies) twoMoviesQuery "" .bound {("movie_name", "Twilight")}).result =
      .ok ⟨[[("id", some "1"), ("coverUrl", some "twilight.jpg")],
        [("id", some "2"), ("coverUrl", some "twilight.jpg")]], true, ""⟩ := by rfl
  constructor
  · rintro ⟨executed, hexecuted, hcalls⟩
    rw [hrun] at hexecuted
    cases hexecuted
    exact absurd hcalls (by decide)
  · rintro ⟨executed, executed', hexecuted, hexecuted', hcalls⟩
    rw [hrun] at hexecuted
    cases hexecuted
    cases hexecuted'
    exact absurd hcalls (by decide)

end SQLiteDB

end Brainslug
