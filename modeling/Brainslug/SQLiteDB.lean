import Brainslug.DB

/-! `SQLiteDB::execute`. Without parameters the statement goes to `sqlite3_exec`, which calls back
once a row; with parameters a where clause is appended and the statement is prepared, bound and
stepped by hand. The library is a parameter: what it answers to each call, and where the text
pointers of the current row lead. -/

namespace Brainslug

/-- The result codes the code tells apart; `error` stands for all the others. -/
inductive ResultCode where
  | ok
  | row
  | done
  | error (code : Nat)
  deriving DecidableEq

/-- `ret == SQLITE_DONE || ret == SQLITE_OK`. -/
def ResultCode.succeeded (ret : ResultCode) : Bool := ret == .done || ret == .ok

structure ExecFailure where
  code : Nat
  message : String
  message_ne : message ≠ ""

/-- A run of `sqlite3_exec`: the rows it calls back with, then its failure, if any. -/
structure ExecRun where
  rows : List RowCall
  failure : Option ExecFailure

/-- What stepping a bound statement reports. The `k`-th row is current from the `k`-th step that
yields `SQLITE_ROW` to the next step. A text pointer is got for a column of the current row; while
row `k` is current, `textAt k` is what the memory holds, and only for the pointers of row `k` itself
does the library promise what that is. -/
structure Stepping where
  colNames : List String
  rows : List (List (Option String))
  /-- The code of the step after the last row: `SQLITE_DONE`, or an error. -/
  failure : Option Nat
  textPtr : Nat → Nat → Option Nat
  textAt : Nat → Nat → String
  /-- `sqlite3_column_text` reports the current row. -/
  reports : ∀ k row, rows[k]? = some row →
    (List.range colNames.length).map (fun i => (textPtr k i).map (textAt k)) = row
  /-- A statement that yields rows has columns. -/
  columns : rows ≠ [] → colNames ≠ []

/-- A prepared statement: the error code of binding a text at a position, if that fails, and the run
of the statement under the values bound. -/
structure Stmt where
  bindText : Nat → String → Option Nat
  run : List (Nat × String) → Stepping

structure SQLite where
  exec : String → ExecRun
  prepare : String → Except Nat Stmt

namespace SQLiteDB

/-! ### The where clause and the bindings -/

/-- One turn of the clause loop; the flag is `notFirst`. -/
def addCondition (acc : String × Bool) (entry : String × String) : String × Bool :=
  ((if acc.2 then acc.1 ++ " AND " else acc.1) ++ (entry.1 ++ " = ?"), true)

def whereClause (sp : SanitizedParams) : String :=
  (sp.toList.foldl addCondition (" WHERE ", false)).1 ++ ";"

/-- The values of conditions, numbered from one. -/
def numbered (conditions : List (String × String)) : List (Nat × String) :=
  conditions.zipIdx.map fun entry => (entry.2 + 1, entry.1.2)

def bindings (sp : SanitizedParams) : List (Nat × String) := numbered sp.toList

/-- The binding loop: the calls made, and the status it leaves. -/
def bindAll (stmt : Stmt) : List (Nat × String) → List SqlCall × ResultCode
  | [] => ([], .ok)
  | (i, v) :: rest =>
      match stmt.bindText i v with
      | some code => ([.bind i v], .error code)
      | none => (.bind i v :: (bindAll stmt rest).1, (bindAll stmt rest).2)

/-! ### The step loop -/

/-- The variables of the step loop. The values are the text pointers pushed so far. -/
structure LoopVars where
  colCount : Int
  colNames : List String
  colValues : List (Option Nat)

def LoopVars.initial : LoopVars := ⟨-1, [], []⟩

/-- What a callback reads through the two arrays while row `k` is current. -/
def readArrays (s : Stepping) (k : Nat) (vars : LoopVars) : RowCall :=
  (vars.colNames.zip (vars.colValues.map fun p => p.map (s.textAt k))).take vars.colCount.toNat

def rowPtrs (s : Stepping) (k : Nat) : List (Option Nat) := (List.range s.colNames.length).map (s.textPtr k)

/-- The variables when the callback of row `k` is invoked: the column count and the names are fetched at
the first row only, the values of the row are pushed behind those of the rows before it. -/
def pushRow (s : Stepping) (k : Nat) (vars : LoopVars) : LoopVars :=
  let vars : LoopVars :=
    if vars.colCount < 0 then { vars with colCount := s.colNames.length, colNames := vars.colNames ++ s.colNames }
    else vars
  { vars with colValues := vars.colValues ++ rowPtrs s k }

/-- The step loop with `k` rows behind it and `left` still to come: the invocations of the callback and
the value returned. -/
def stepLoop (s : Stepping) (callback : ExecuteCallback) :
    (k left : Nat) → LoopVars → Except Fault (List RowCall × Bool)
  | _, 0, _ => .ok ([], (s.failure.elim ResultCode.done ResultCode.error).succeeded)
  | k, left + 1, vars =>
      if vars.colCount < 0 ∧ s.colNames.length = 0 then do
        -- `callback(colCount,NULL,NULL); return true;`
        let call ← callback.invoke []
        return ([call], true)
      else do
        let vars := pushRow s k vars
        let call ← callback.invoke (readArrays s k vars)
        let (calls, ok) ← stepLoop s callback (k + 1) left vars
        return (call :: calls, ok)

/-! ### `execute` -/

/-- `execCallback`: a null pointer is skipped, a callback is invoked, and the answer is to go on. -/
def execCallback (callback : Option ExecuteCallback) (row : RowCall) : Except Fault (List RowCall) :=
  match callback with
  | some callback => (callback.invoke row).map fun call => [call]
  | none => .ok []

/-- The branch without parameters. The pointer handed on is the address of `callback`, never null. -/
def executePlain (lib : SQLite) (query errorMessage : String) (callback : ExecuteCallback) : Effect Executed :=
  let run := lib.exec query
  let ret := run.failure.elim ResultCode.ok fun f => .error f.code
  ⟨[.exec query], (run.rows.mapM (execCallback (some callback))).map fun calls =>
    ⟨calls.flatten, ret.succeeded, (run.failure.map ExecFailure.message).getD errorMessage⟩⟩

/-- The branch with parameters. It never assigns `errorMessage`. -/
def executePrepared (lib : SQLite) (query errorMessage : String) (callback : ExecuteCallback)
    (sp : SanitizedParams) : Effect Executed :=
  let newQuery := query ++ whereClause sp
  match lib.prepare newQuery with
  | .error _ => ⟨[.prepare newQuery], .ok ⟨[], false, errorMessage⟩⟩
  | .ok stmt =>
      let bound := bindAll stmt (bindings sp)
      if bound.2 = .ok then
        let s := stmt.run (bindings sp)
        ⟨.prepare newQuery :: bound.1, (stepLoop s callback 0 s.rows.length LoopVars.initial).map fun r =>
          ⟨r.1, r.2, errorMessage⟩⟩
      else ⟨.prepare newQuery :: bound.1, .ok ⟨[], bound.2.succeeded, errorMessage⟩⟩

def execute (lib : SQLite) (query errorMessage : String) (callback : ExecuteCallback) (sp : SanitizedParams) :
    Effect Executed :=
  if query = "" then ⟨[], .error .assertion⟩
  else if sp.isEmpty then executePlain lib query errorMessage callback
  else executePrepared lib query errorMessage callback sp

end SQLiteDB

def SQLiteDB (lib : SQLite) : DB where
  execute := SQLiteDB.execute lib

end Brainslug
