import RequestGuard.Guard.Stage
import RequestGuard.Text.Listing

namespace RequestGuard

-- The methods that a route answers. What answers GET answers HEAD too.
inductive Methods where
  | get
  | post
  | all
deriving DecidableEq

namespace Methods

def names : Methods → Option (List String)
  | get => some ["GET", "HEAD"]
  | post => some ["POST"]
  | all => none

def admits (methods : Methods) (method : String) : Bool :=
  methods.names.all (·.contains method)

end Methods

structure Route (σ : Type) where
  isFor : String → Bool
  methods : Methods
  handler : Handler σ

def Route.at (path : String) (methods : Methods) (handler : Handler σ) : Route σ where
  isFor := (· == path)
  methods
  handler

namespace Routing

def find? (routes : List (Route σ)) (request : Request) : Option (Route σ) :=
  routes.find? (·.isFor request.path)

-- Nothing comes with the answer that a tunnel is open.
def withoutTunnelled (method : String) (response : Response) : Response :=
  if method = "CONNECT" ∧ response.isSuccess then { response with body := [] } else response

-- An unknown path is not found; a known one may not be asked in every way.
def dispatch (routes : List (Route σ)) : Handler σ :=
  fun request state =>
    match find? routes request with
    | none => (.ok (.bare 404), state)
    | some route =>
      if route.methods.admits request.method then
        route.handler.map (withoutTunnelled request.method) request state
      else (.ok (.bare 405), state)

-- The methods to tell a caller who asks in a way that the path does not answer.
def allowed? (routes : List (Route σ)) (request : Request) : Option String := do
  let route ← find? routes request
  if route.methods.admits request.method then none
  return joined "," (← route.methods.names)

def withAllowed (methods : Option String) (response : Response) : Response :=
  match methods with
  | none => response
  | some names =>
    if response.headers.contains "allow" then response else response.header "allow" names

-- Who asks for the head only gets no body.
def withoutBody (method : String) (response : Response) : Response :=
  if method = "HEAD" then { response with body := [] } else response

-- Routes as they answer from behind stages. Whatever these say, the methods of a path are
-- told and the body is left out where only the head is asked for.
def serve (routes : List (Route σ)) (wrap : Handler σ → Handler σ) : Handler σ :=
  fun request =>
    (wrap (dispatch routes)).map
      (fun response => withoutBody request.method (withAllowed (allowed? routes request) response))
      request

-- A path without its slashes at the end, and with one at the start. A path that neither
-- ends with a slash nor starts with two stays.
def trimmedPath (path : String) : String :=
  let text := path.toList
  if text.getLast? == some '/' || text.take 2 == ['/', '/'] then
    let inner := ((text.dropWhile (· == '/')).reverse.dropWhile (· == '/')).reverse
    String.ofList ('/' :: inner)
  else path

def trimmingPaths (handler : Handler σ) : Handler σ :=
  fun request => handler { request with path := trimmedPath request.path }

end Routing

end RequestGuard
