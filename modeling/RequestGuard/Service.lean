import RequestGuard.Guard.Standard
import RequestGuard.Http.MediaType
import RequestGuard.Routing

namespace RequestGuard.Service

-- Tells whether the service and its store are well. A service without its store is not.
def health : Handler (Exchange α) :=
  fun _ exchange =>
    let isHealthy := exchange.backend.isHealthy
    (.ok (.json (if isHealthy then 200 else 503) (Health.ofStore isHealthy).toJson), exchange)

-- Tells callers who they are.
def me : Handler (Exchange α) :=
  fun _ exchange =>
    match exchange.context.identity with
    | none => exchange.refuse (.authentication "no identity attached to request")
    | some identity =>
      let caller : Caller :=
        { userId := identity.userId
          requestId := exchange.context.requestId
          credentialId := exchange.context.credentialId }
      (.ok (.json 200 caller.toJson), exchange)

def isJson (request : Request) : Bool :=
  ((request.headers.text? "content-type").bind fun kind => MediaType.read kind.toList).any
    MediaType.isJson

def notJson : Response :=
  .text 415 "Expected request with \x60Content-Type: application/json\x60"

def tooLong (fault : Body.Fault) : Response :=
  .text 413 ("Failed to buffer the request body: " ++ fault.message)

def notParsed (message : String) : Response :=
  .text 400 ("Failed to parse the request body as JSON: " ++ message)

-- No more of a body is read for a route than this.
def bodyLimit : Nat := 2097152

-- Gives back the value that came through the stages.
def echo : Handler (Exchange α) :=
  fun request exchange =>
    let response :=
      if !isJson request then notJson
      else
        match request.body.collect bodyLimit with
        | .error fault => tooLong fault
        | .ok body =>
          match Json.parse body with
          | .error fault => notParsed (fault.message body)
          | .ok value => .json 200 value
    (.ok response, exchange)

def routes : List (Route (Exchange α)) :=
  [.at "/health" .get health, .at "/api/me" .get me, .at "/api/echo" .post echo]

def handler (settings : Settings) (resolver : Resolver) : Handler (Exchange α) :=
  Routing.serve routes (protect settings resolver)

-- The whole application. It takes a path with too many slashes at its ends for the path
-- without them.
def app (settings : Settings) (resolver : Resolver) : Handler (Exchange α) :=
  Routing.trimmingPaths (handler settings resolver)

end RequestGuard.Service
