import Propositional.Service
import Propositional.Service.Address

/-!
# Routing

What a web framework makes of the method and the URL of a request before the service is asked. No
result about the service rests on it: they hold for every `Routing`.

## Main definitions

* `Router.endpoint?`: the question or the static file that a path belongs to
* `Router.route`: the routing of a request
-/

namespace Propositional.Service.Router

/-- What a path belongs to: a question, or a static file, of which there are none. -/
inductive Endpoint where
  | question (route : Route)
  | file
deriving DecidableEq, Inhabited

/-- The beginning of the paths of static files. -/
def fileRoot : List Char := "/static/".toList

/-- Whether a path is that of a static file. -/
def isFilePath (path : List Char) : Bool :=
  fileRoot.isPrefixOf path &&
    match path.drop fileRoot.length with
    | [] => false
    | c :: cs => c != '/' && !cs.contains '\n'

/-- What a path belongs to, if anything. -/
def endpoint? (path : List Char) : Option Endpoint :=
  match Route.ofPath? (String.ofList path) with
  | some route => some (.question route)
  | none => if isFilePath path then some .file else none

/-- The methods that an endpoint allows. -/
def Endpoint.methods : Endpoint → List String
  | .question _ => ["POST", "OPTIONS"]
  | .file => ["GET", "HEAD", "OPTIONS"]

/-- The routing to an endpoint by one of its methods. The framework answers `OPTIONS` itself. -/
def routeAt (method : String) : Endpoint → Routing
  | .question route => if method == "OPTIONS" then .settled 200 else .question route
  | .file => .settled (if method == "OPTIONS" then 200 else 404)

/-- The routing to a destination. No endpoint takes a WebSocket, and a path with several slashes in
one place is redirected to the path with one. -/
def routeTo (method : String) (d : Address.Destination) : Routing :=
  match endpoint? d.path, endpoint? (Address.merge d.path) with
  | some e, _ =>
    if !e.methods.contains method then .settled 405
    else if d.webSocket then .settled 400
    else routeAt method e
  | none, some e =>
    if !e.methods.contains method then .settled 405
    else if d.webSocket then .settled 400
    else .settled 308
  | none, none => .settled 404

/-- The routing of a request, unless its URL is refused before it is sent. -/
def route (method url : String) : Except Address.Fault Routing :=
  match Address.destination url with
  | .error f => .error f
  | .ok d => .ok (routeTo (Text.upper method) d)

end Propositional.Service.Router
