import Brainslug.SQLiteDelivery

/-! How `SQLiteDB::execute` reports its outcome to the caller, who sees a boolean and a text. Five calls
of the library can fail: the execution of the text, preparing it, one of the bindings, the first step
and a later one. Only the first of them comes with a message, and the callback is invoked for the first
row whether or not there is one to invoke. -/

namespace Brainslug

/-- The run of the prepared statement, when it can be prepared and every parameter bound. -/
def SQLite.stepping (lib : SQLite) (query : String) (sp : SanitizedParams) : Option Stepping :=
  match lib.prepare (query ++ SQLiteDB.whereClause sp) with
  | .error _ => none
  | .ok stmt =>
      if (SQLiteDB.bindings sp).all (fun b => (stmt.bindText b.1 b.2).isNone) then
        some (stmt.run (SQLiteDB.bindings sp))
      else none

/-- The number of rows the library reports before the statement ends or fails. -/
def SQLite.rowsReported (lib : SQLite) (query : String) (sp : SanitizedParams) : Nat :=
  if sp.isEmpty then (lib.exec query).rows.length
  else (lib.stepping query sp).elim 0 fun s => s.rows.length

/-- No call of the library fails, so that the statement runs to its end. -/
def SQLite.completes (lib : SQLite) (query : String) (sp : SanitizedParams) : Bool :=
  if sp.isEmpty then (lib.exec query).failure.isNone
  else (lib.stepping query sp).elim false fun s => s.failure.isNone

namespace SQLiteDB

variable {lib : SQLite} {query : String} {sp : SanitizedParams}

/-! ### The branch without parameters -/

theorem mapM_execCallback_empty {rows : List RowCall} (h : rows ≠ []) :
    rows.mapM (execCallback (some .empty)) = .error .badFunctionCall := by
  cases rows with
  | nil => exact absurd rfl h
  | cons row rows =>
      rw [List.mapM_cons]
      rfl

theorem mapM_execCallback_of_returns {callback : ExecuteCallback} {rows : List RowCall}
    (h : callback = .bound ∨ rows.length = 0) :
    rows.mapM (execCallback (some callback)) = .ok (rows.map fun row => [row]) := by
  rcases h with rfl | h
  · exact mapM_execCallback_bound rows
  · rw [List.length_eq_zero_iff.mp h]
    rfl

theorem execRun_succeeded (failure : Option ExecFailure) :
    (failure.elim ResultCode.ok fun f => .error f.code).succeeded = failure.isNone := by
  cases failure <;> rfl

/-! ### The branch with parameters -/

theorem completed_eq (s : Stepping) : completed s = s.failure.isNone := by
  unfold completed
  cases s.failure <;> rfl

theorem stepLoop_empty {s : Stepping} {left : Nat} (hleft : left ≠ 0) (k : Nat) (vars : LoopVars) :
    stepLoop s .empty k left vars = .error .badFunctionCall := by
  obtain ⟨n, rfl⟩ := Nat.exists_eq_succ_of_ne_zero hleft
  rw [stepLoop]
  split_ifs <;> rfl

theorem stepLoop_of_returns {s : Stepping} {callback : ExecuteCallback}
    (h : callback = .bound ∨ s.rows.length = 0) :
    ∃ calls, stepLoop s callback 0 s.rows.length LoopVars.initial = .ok (calls, s.failure.isNone) ∧
      calls.length = s.rows.length := by
  rcases h with rfl | h
  · exact ⟨_, by rw [stepLoop_bound, completed_eq], by simp⟩
  · refine ⟨[], ?_, h.symm⟩
    rw [h, ← completed_eq]
    rfl

/-- The binding loop stops at the first failure, and then its status is that failure. -/
theorem bindAll_status (stmt : Stmt) (bs : List (Nat × String)) :
    ((bindAll stmt bs).2 = .ok ↔ bs.all (fun b => (stmt.bindText b.1 b.2).isNone) = true) ∧
      (bindAll stmt bs).2 ≠ .done := by
  induction bs with
  | nil => exact ⟨⟨fun _ => rfl, fun _ => rfl⟩, ResultCode.noConfusion⟩
  | cons b bs ih =>
      obtain ⟨i, v⟩ := b
      cases hb : stmt.bindText i v with
      | none => simpa only [bindAll, hb, List.all_cons, Option.isNone_none, Bool.true_and] using ih
      | some code => simp [bindAll, hb]

theorem executePrepared_of_none {errorMessage : String} {callback : ExecuteCallback}
    (h : lib.stepping query sp = none) :
    (executePrepared lib query errorMessage callback sp).result = .ok ⟨[], false, errorMessage⟩ := by
  unfold SQLite.stepping at h
  unfold executePrepared
  cases hprepare : lib.prepare (query ++ whereClause sp) with
  | error code => simp only [hprepare]
  | ok stmt =>
      simp only [hprepare] at h ⊢
      obtain ⟨hok, hdone⟩ := bindAll_status stmt (bindings sp)
      have hnot : (bindAll stmt (bindings sp)).2 ≠ .ok := fun heq => by simp [hok.mp heq] at h
      rw [if_neg hnot]
      cases hstatus : (bindAll stmt (bindings sp)).2 with
      | ok => exact absurd hstatus hnot
      | done => exact absurd hstatus hdone
      | row => rfl
      | error code => rfl

theorem executePrepared_of_some {errorMessage : String} {callback : ExecuteCallback} {s : Stepping}
    (h : lib.stepping query sp = some s) :
    (executePrepared lib query errorMessage callback sp).result =
      (stepLoop s callback 0 s.rows.length LoopVars.initial).map fun r => ⟨r.1, r.2, errorMessage⟩ := by
  unfold SQLite.stepping at h
  unfold executePrepared
  cases hprepare : lib.prepare (query ++ whereClause sp) with
  | error code => simp [hprepare] at h
  | ok stmt =>
      simp only [hprepare] at h ⊢
      by_cases hall : (bindings sp).all (fun b => (stmt.bindText b.1 b.2).isNone) = true
      · rw [if_pos hall, Option.some.injEq] at h
        rw [if_pos ((bindAll_status stmt (bindings sp)).1.mpr hall), h]
      · rw [if_neg hall] at h
        cases h

/-! ### Both branches -/

/-- The caller's message afterwards: `sqlite3_exec` sets it when it fails, nothing else does. -/
def messageAfter (lib : SQLite) (query errorMessage : String) (sp : SanitizedParams) : String :=
  if sp.isEmpty then ((lib.exec query).failure.map ExecFailure.message).getD errorMessage else errorMessage

/-- **What a call reports.** Unless an empty callback is invoked, the call returns after one invocation
for each row, with true exactly when the statement ran to its end. -/
theorem execute_returns (hquery : query ≠ "") {callback : ExecuteCallback}
    (h : callback = .bound ∨ lib.rowsReported query sp = 0) (errorMessage : String) :
    ∃ calls, (execute lib query errorMessage callback sp).result =
        .ok ⟨calls, lib.completes query sp, messageAfter lib query errorMessage sp⟩ ∧
      calls.length = lib.rowsReported query sp := by
  unfold execute SQLite.completes messageAfter
  unfold SQLite.rowsReported at h ⊢
  rw [if_neg hquery]
  cases hsp : sp.isEmpty with
  | true =>
      simp only [hsp, if_true] at h ⊢
      refine ⟨(lib.exec query).rows, ?_, rfl⟩
      simp only [executePlain, mapM_execCallback_of_returns h, execRun_succeeded, Except.map]
      rw [← List.flatMap_def, List.flatMap_singleton']
  | false =>
      simp only [hsp, Bool.false_eq_true, if_false] at h ⊢
      cases hstepping : lib.stepping query sp with
      | none => exact ⟨[], executePrepared_of_none hstepping, rfl⟩
      | some s =>
          simp only [hstepping, Option.elim_some] at h ⊢
          obtain ⟨calls, hcalls, hlen⟩ := stepLoop_of_returns h
          exact ⟨calls, by rw [executePrepared_of_some hstepping, hcalls]; rfl, hlen⟩

/-- What a bound callback is invoked with. -/
def boundCalls (lib : SQLite) (query : String) (sp : SanitizedParams) : List RowCall :=
  if sp.isEmpty then (lib.exec query).rows
  else (lib.stepping query sp).elim [] fun s => (List.range s.rows.length).map fun k => s.colNames.zip (s.firstPtrsAt k)

theorem execute_bound (hquery : query ≠ "") (errorMessage : String) :
    (execute lib query errorMessage .bound sp).result =
      .ok ⟨boundCalls lib query sp, lib.completes query sp, messageAfter lib query errorMessage sp⟩ := by
  unfold execute SQLite.completes messageAfter boundCalls
  rw [if_neg hquery]
  cases hsp : sp.isEmpty with
  | true =>
      simp only [if_true, executePlain, mapM_execCallback_bound, execRun_succeeded, Except.map]
      rw [← List.flatMap_def, List.flatMap_singleton']
  | false =>
      simp only [Bool.false_eq_true, if_false]
      cases hstepping : lib.stepping query sp with
      | none => exact executePrepared_of_none hstepping
      | some s =>
          rw [executePrepared_of_some hstepping, stepLoop_bound, completed_eq]
          rfl

theorem execute_throws (hquery : query ≠ "") (h : lib.rowsReported query sp ≠ 0) (errorMessage : String) :
    (execute lib query errorMessage .empty sp).result = .error .badFunctionCall := by
  unfold execute
  unfold SQLite.rowsReported at h
  rw [if_neg hquery]
  cases hsp : sp.isEmpty with
  | true =>
      simp only [hsp, if_true] at h ⊢
      have hrows : (lib.exec query).rows ≠ [] := fun hnil => h (List.length_eq_zero_iff.mpr hnil)
      simp only [executePlain, mapM_execCallback_empty hrows, Except.map]
  | false =>
      simp only [hsp, Bool.false_eq_true, if_false] at h ⊢
      cases hstepping : lib.stepping query sp with
      | none => simp [hstepping] at h
      | some s =>
          simp only [hstepping, Option.elim_some] at h
          rw [executePrepared_of_some hstepping, stepLoop_empty h]
          rfl

/-- The outcome as the caller is to see it: the call returns, with true exactly when the statement ran to
its end, the callback then invoked as often as rows were reported, and with a message when it returns false. -/
def MeetsContract (lib : SQLite) (query : String) (callback : ExecuteCallback) (sp : SanitizedParams)
    (outcome : Except Fault Executed) : Prop :=
  ∃ executed, outcome = .ok executed ∧ (executed.ok = true ↔ lib.completes query sp = true) ∧
    (callback = .bound → executed.ok = true → executed.calls.length = lib.rowsReported query sp) ∧
    (executed.ok = false → executed.errorMessage ≠ "")

theorem messageAfter_ne_iff (hfails : lib.completes query sp = false) (errorMessage : String) :
    messageAfter lib query errorMessage sp ≠ "" ↔ sp.isEmpty = true ∨ errorMessage ≠ "" := by
  unfold messageAfter
  unfold SQLite.completes at hfails
  cases hsp : sp.isEmpty with
  | true =>
      simp only [hsp, if_true] at hfails ⊢
      obtain ⟨failure, hfailure⟩ := Option.isSome_iff_exists.mp (Option.isNone_eq_false_iff.mp hfails)
      simp [hfailure, failure.message_ne]
  | false => simp

theorem meetsContract_ok_iff {callback : ExecuteCallback} {calls : List RowCall} {message : String}
    (hlen : calls.length = lib.rowsReported query sp) :
    MeetsContract lib query callback sp (.ok ⟨calls, lib.completes query sp, message⟩) ↔
      lib.completes query sp = true ∨ message ≠ "" := by
  constructor
  · rintro ⟨executed, ⟨⟩, -, -, hne⟩
    cases hcompletes : lib.completes query sp with
    | true => exact Or.inl rfl
    | false => exact Or.inr (hne hcompletes)
  · intro hor
    refine ⟨_, rfl, Iff.rfl, fun _ _ => hlen, fun hfails => ?_⟩
    rcases hor with hcompletes | hne
    · cases hcompletes.symm.trans hfails
    · exact hne

theorem not_meetsContract_error {callback : ExecuteCallback} {fault : Fault} :
    ¬MeetsContract lib query callback sp (.error fault) := by
  rintro ⟨executed, ⟨⟩, -⟩

/-- **When the contract is met.** The callback is bound or no row is reported, and the statement runs to
its end, or has no parameters, or the caller's message was not empty to begin with. -/
theorem execute_meetsContract_iff (lib : SQLite) (query errorMessage : String) (callback : ExecuteCallback)
    (sp : SanitizedParams) (hquery : query ≠ "") :
    MeetsContract lib query callback sp ((SQLiteDB lib).execute query errorMessage callback sp).result ↔
      (callback = .bound ∨ lib.rowsReported query sp = 0) ∧
        (lib.completes query sp = true ∨ sp.isEmpty = true ∨ errorMessage ≠ "") := by
  change MeetsContract lib query callback sp (execute lib query errorMessage callback sp).result ↔ _
  by_cases hreturns : callback = .bound ∨ lib.rowsReported query sp = 0
  · obtain ⟨calls, hresult, hlen⟩ := execute_returns hquery hreturns errorMessage
    rw [hresult, meetsContract_ok_iff hlen, and_iff_right hreturns]
    cases hcompletes : lib.completes query sp with
    | true => simp
    | false => rw [messageAfter_ne_iff hcompletes]
  · have hempty : callback = .empty := by
      cases callback with
      | empty => rfl
      | bound => exact absurd (Or.inl rfl) hreturns
    have hrows : lib.rowsReported query sp ≠ 0 := fun h => hreturns (Or.inr h)
    refine ⟨fun hmeets => ?_, fun h => absurd h.1 hreturns⟩
    rw [hempty, execute_throws hquery hrows] at hmeets
    exact absurd hmeets not_meetsContract_error

end SQLiteDB

def SQLite.refusing : SQLite where
  exec _ := ⟨[], some ⟨1, "no such table: movies", by decide⟩⟩
  prepare _ := .error 1

namespace SQLiteDB

theorem execute_meetsContract_iff_refusing :
    MeetsContract .refusing twoMoviesQuery .empty {("movie_name", "Twilight")}
        ((SQLiteDB .refusing).execute twoMoviesQuery "" .empty {("movie_name", "Twilight")}).result ↔
      ((ExecuteCallback.empty = .bound ∨ SQLite.refusing.rowsReported twoMoviesQuery {("movie_name", "Twilight")} = 0) ∧
        (SQLite.refusing.completes twoMoviesQuery {("movie_name", "Twilight")} = true ∨
          ({("movie_name", "Twilight")} : SanitizedParams).isEmpty = true ∨ "" ≠ "")) :=
  execute_meetsContract_iff .refusing twoMoviesQuery "" .empty {("movie_name", "Twilight")} (by decide)

/-- A statement that cannot be prepared fails without a message, and a row of a statement executed without
a callback throws. -/
theorem contract_not_met :
    ¬MeetsContract .refusing twoMoviesQuery .bound {("movie_name", "Twilight")}
        ((SQLiteDB .refusing).execute twoMoviesQuery "" .bound {("movie_name", "Twilight")}).result ∧
      ¬MeetsContract (.answering twoMovies) twoMoviesQuery .empty ∅
        ((SQLiteDB (.answering twoMovies)).execute twoMoviesQuery "" .empty ∅).result := by
  constructor
  · rintro ⟨executed, hexecuted, -, -, hmessage⟩
    cases hexecuted
    exact hmessage rfl rfl
  · rintro ⟨executed, hexecuted, -⟩
    cases hexecuted

end SQLiteDB

end Brainslug
