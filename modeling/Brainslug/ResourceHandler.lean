import Brainslug.Http
import Brainslug.SqlTables

/-! `ResourceHandler`: how a request on one resource becomes a call of the database, and the rows that
are delivered become the response. A derived class supplies the texts and the query keys. -/

namespace Brainslug

/-! ### The rows as a document -/

structure Lister where
  doc : Json.Object
  content : List Json.UnknownElement

namespace Lister

def initial : Lister := ⟨[], []⟩

def setColumn (item : Json.Object) (column : String × Option String) : Json.Object :=
  match column.2 with
  | some value => item.set column.1 (.string value)
  | none => item.set column.1 .null

def item (call : RowCall) : Json.Object := call.foldl setColumn []

def callback (l : Lister) (call : RowCall) : Lister := { l with content := l.content ++ [.object (item call)] }

def finish (l : Lister) : Lister := { l with doc := (l.doc.set "content" (.array l.content)).set "error" .null }

end Lister

/-! ### The handler -/

/-- What a derived class supplies: the table its constructor creates, with what is printed when that
fails, the query keys of its sanitizer with their columns, and its statements. The texts come with the
statements they spell; as the base class demands, a where clause can be appended to the view statement. -/
structure ResourceHandler where
  createStatement : String
  createFailure : String
  keys : List (String × String)
  viewStatement : String
  testData : List String
  schema : Sql.Schema
  select : Sql.Select
  inserts : List Sql.Insert
  parse_createStatement : Sql.parse createStatement = some (.create schema)
  parse_viewStatement : Sql.parse viewStatement = some (.select select [])
  parse_listStatement : Sql.parse (viewStatement ++ ";") = some (.select select [])
  parse_testData : testData.map Sql.parse = inserts.map fun ins => some (.insert ins)
  keys_nodup : (keys.map Prod.fst).Nodup
  columns_nodup : (keys.map Prod.snd).Nodup
  select_table : select.table = schema.name
  columns_declared : ∀ c ∈ select.items.map Prod.fst ++ keys.map Prod.snd, c ∈ schema.names
  primaryKey_isSome : schema.primaryKey.isSome = true
  inserts_accepted : ∀ ins ∈ inserts, ins.table = schema.name ∧ schema.Accepts ins

namespace ResourceHandler

/-- One turn of the loop of every `sanitizeQueryParams`: a known key inserts its column, and `insert` keeps
the value that is there already. -/
def sanitizeParam (keys : List (String × String)) (sq : SanitizedParams) (entry : String × String) : SanitizedParams :=
  match keys.lookup entry.1 with
  | some sanitizedKey => sq.insertIfNew sanitizedKey entry.2
  | none => sq

def sanitizeQueryParams (keys : List (String × String)) (dirtyParams : QueryParams) : SanitizedParams :=
  dirtyParams.foldl (sanitizeParam keys) ∅

variable (h : ResourceHandler)

def listStatement : String := h.viewStatement ++ ";"

def writeJsonHttpResponse (obj : Json.Object) (writer : HTTPResponseWriter) (setStatusOK : Bool) : Response :=
  let writer := if setStatusOK then { writer with statusCode := 200, statusMessage := "OK" } else writer
  writer.send (.json obj)

/-- `assert(!stmt.empty())`. -/
def assertNonempty (stmt : String) : Effect Unit := if stmt = "" then ⟨[], .error .assertion⟩ else pure ()

/-- What follows the call of `execute`: a response, if it returned true. -/
def respond (executed : Executed) : List Response :=
  let l := executed.calls.foldl Lister.callback Lister.initial
  if executed.ok then [writeJsonHttpResponse l.finish.doc .create true] else []

def list (db : DB) (_request : Request) : Effect (List Response) := do
  let stmt := h.listStatement
  assertNonempty stmt
  let executed ← db.execute stmt "" .bound ∅
  return respond executed

def sanitized (request : Request) : SanitizedParams := sanitizeQueryParams h.keys request.queryParams

def view (db : DB) (request : Request) : Effect (List Response) := do
  let sq := h.sanitized request
  if sq.isEmpty then list h db request
  else
    let stmt := h.viewStatement
    assertNonempty stmt
    let executed ← db.execute stmt "" .bound sq
    return respond executed

def unrecognized (request : Request) : Response :=
  let doc := Json.Object.set [] "error" (.string ("unrecognized query " ++ request.queryString))
  writeJsonHttpResponse doc
    { HTTPResponseWriter.create with statusCode := 501, statusMessage := "Not Implemented" } false

def handle (db : DB) (request : Request) : Effect (List Response) :=
  if request.hasQuery "list" then list h db request
  else if request.hasQuery "view" then view h db request
  else pure [unrecognized request]

/-! ### The database call of a request -/

theorem viewStatement_ne : h.viewStatement ≠ "" := Sql.ne_of_parse h.parse_viewStatement

theorem listStatement_ne : h.listStatement ≠ "" := Sql.ne_of_parse h.parse_listStatement

/-- The statement and the parameters that the database is called with, if it is called. -/
def dbCall (request : Request) : Option (String × SanitizedParams) :=
  if request.hasQuery "list" then some (h.listStatement, ∅)
  else if request.hasQuery "view" then
    let sq := h.sanitized request
    if sq.isEmpty then some (h.listStatement, ∅) else some (h.viewStatement, sq)
  else none

def callDb (db : DB) (call : String × SanitizedParams) : Effect (List Response) := do
  let executed ← db.execute call.1 "" .bound call.2
  return respond executed

theorem assertNonempty_of_ne {stmt : String} (hne : stmt ≠ "") : assertNonempty stmt = pure () := if_neg hne

theorem list_eq (db : DB) (request : Request) : h.list db request = callDb db (h.listStatement, ∅) := by
  simp only [list, assertNonempty_of_ne h.listStatement_ne]
  rfl

theorem view_eq (db : DB) (request : Request) :
    h.view db request = callDb db
      (if (h.sanitized request).isEmpty then (h.listStatement, ∅) else (h.viewStatement, h.sanitized request)) := by
  simp only [view, list_eq, assertNonempty_of_ne h.viewStatement_ne]
  split_ifs <;> rfl

/-- **One call.** A request makes its database call, if it has one, and responds to what comes of it. -/
theorem handle_eq (db : DB) (request : Request) :
    h.handle db request = match h.dbCall request with
      | some call => callDb db call
      | none => pure [unrecognized request] := by
  unfold handle dbCall
  by_cases hlist : request.hasQuery "list" = true
  · simp only [if_pos hlist, list_eq]
  · by_cases hview : request.hasQuery "view" = true
    · simp only [if_neg hlist, if_pos hview, view_eq]
      split_ifs <;> rfl
    · simp only [if_neg hlist, if_neg hview]

theorem callDb_of_ok (db : DB) (call : String × SanitizedParams) {executed : Executed}
    (hexecuted : (db.execute call.1 "" .bound call.2).result = .ok executed) :
    callDb db call = ⟨(db.execute call.1 "" .bound call.2).sql, .ok (respond executed)⟩ := by
  rw [callDb, Effect.bind_of_ok hexecuted]
  simp

end ResourceHandler

end Brainslug
