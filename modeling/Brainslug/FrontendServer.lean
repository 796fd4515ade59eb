import Brainslug.Resources

/-! `FrontendServer` as its requests see it: the five registered resources and the handler of requests
that match none of them. -/

namespace Brainslug

namespace FrontendServer

/-- The `addResource` calls of the constructor. -/
def resources : Std.TreeMap String Resource :=
  [("/movies", Resource.movies), ("/moviesources", .movieSources), ("/tvshows", .tvShows), ("/seasons", .seasons),
    ("/episodes", .episodes)].foldl (fun resources entry => HTTPServer.addResource resources entry.1 entry.2) ∅

/-- Prints the request on the console. -/
def handleNotFound (_request : Request) : Effect (List Response) := pure []

def httpServer (db : DB) : HTTPServer Resource where
  resources := resources
  requestHandler resource := resource.handler.handle db
  notFoundHandler := handleNotFound

def resourceOf (request : Request) : Option Resource :=
  HTTPServer.findRequestHandler resources (HTTPServer.stripTrailingSlash request.resource)

theorem handleRequest_of_none {db : DB} {request : Request} (h : resourceOf request = none) :
    (httpServer db).handleRequest request = pure [] :=
  HTTPServer.handleRequest_of_none (httpServer db) h

/-- **Dispatch.** A request on a resource makes the database call of its handler, if it has one, and
sends what comes of it. -/
theorem handleRequest_of_some {db : DB} {request : Request} {resource : Resource}
    (h : resourceOf request = some resource) {responses : List Response}
    (hresult : (resource.handler.handle db request).result = .ok responses) :
    (httpServer db).handleRequest request = resource.handler.handle db request :=
  HTTPServer.handleRequest_of_found (httpServer db) h hresult

end FrontendServer

end Brainslug
