import Brainslug.DB
import Brainslug.Elements

/-! The parts of the pion-net HTTP server that stand between a connection and a resource handler:
query parameters, responses, the registered resources and the choice of the handler. The requests are
valid, and neither redirections nor authentication are set up. -/

namespace Brainslug

/-- `HTTPTypes::QueryParams`, a hash multimap, in the order of its iteration. -/
abbrev QueryParams := List (String × String)

structure Request where
  resource : String
  queryString : String
  queryParams : QueryParams

def caseInsensitiveEqual (str1 str2 : String) : Bool :=
  str1.toList.map Char.toLower == str2.toList.map Char.toLower

def Request.hasQuery (request : Request) (key : String) : Bool :=
  request.queryParams.any fun entry => caseInsensitiveEqual entry.1 key

/-- What a response carries: a page, or a document as `json::Writer` prints it. -/
inductive Payload where
  | html (page : String)
  | json (document : Json.Object)

structure Response where
  statusCode : Nat
  statusMessage : String
  payload : Payload
  finishes : Bool

/-- A writer of a response: its status, and whether its finished handler is `TCPConnection::finish`. -/
structure HTTPResponseWriter where
  statusCode : Nat
  statusMessage : String
  finishes : Bool

namespace HTTPResponseWriter

/-- `create(connection, request, boost::bind(&TCPConnection::finish, connection))`. -/
def create : HTTPResponseWriter := ⟨200, "OK", true⟩

def send (writer : HTTPResponseWriter) (payload : Payload) : Response :=
  ⟨writer.statusCode, writer.statusMessage, payload, writer.finishes⟩

end HTTPResponseWriter

abbrev RequestHandler := Request → Effect (List Response)

/-- The server: the registered function objects, by a name each, what they run, and the handler of
requests that match no resource. -/
structure HTTPServer (α : Type) where
  resources : Std.TreeMap String α
  requestHandler : α → RequestHandler
  notFoundHandler : RequestHandler

namespace HTTPServer

variable {α : Type}

def stripTrailingSlash (str : String) : String :=
  if str.toList.getLast? = some '/' then String.ofList str.toList.dropLast else str

def addResource (resources : Std.TreeMap String α) (resource : String) (requestHandler : α) : Std.TreeMap String α :=
  resources.insertIfNew (stripTrailingSlash resource) requestHandler

def matchesResource (registered resource : String) : Bool :=
  registered.toList.isPrefixOf resource.toList &&
    match resource.toList.drop registered.length with
    | [] => true
    | c :: _ => c == '/'

/-- Walks back from `upper_bound(resource)` to the first registered resource that matches. -/
def findRequestHandler (resources : Std.TreeMap String α) (resource : String) : Option α :=
  ((resources.toList.filter fun entry => entry.1 ≤ resource).reverse.find?
    fun entry => matchesResource entry.1 resource).map Prod.snd

def handleServerError (errorMsg : String) : Response :=
  HTTPResponseWriter.send { HTTPResponseWriter.create with statusCode := 500, statusMessage := "Server Error" }
    (.html ("<html><head>\n<title>500 Server Error</title>\n</head><body>\n<h1>Internal Server Error</h1>\n" ++
      "<p>The server encountered an internal error: <strong>" ++ errorMsg ++ "</strong></p>\n</body></html>\n"))

def handleRequest (server : HTTPServer α) (request : Request) : Effect (List Response) :=
  match findRequestHandler server.resources (stripTrailingSlash request.resource) with
  | some name =>
      let handled := server.requestHandler name request
      match handled.result with
      -- an exception is answered; a failed assertion ends the process
      | .error .badFunctionCall => ⟨handled.sql, .ok [handleServerError "call to empty boost::function"]⟩
      | _ => handled
  | none => server.notFoundHandler request

theorem handleRequest_of_found (server : HTTPServer α) {request : Request} {name : α} {responses : List Response}
    (hfound : findRequestHandler server.resources (stripTrailingSlash request.resource) = some name)
    (hresult : (server.requestHandler name request).result = .ok responses) :
    server.handleRequest request = server.requestHandler name request := by
  simp only [handleRequest, hfound, hresult]

theorem handleRequest_of_none (server : HTTPServer α) {request : Request}
    (hfound : findRequestHandler server.resources (stripTrailingSlash request.resource) = none) :
    server.handleRequest request = server.notFoundHandler request := by
  simp only [handleRequest, hfound]

end HTTPServer

end Brainslug
