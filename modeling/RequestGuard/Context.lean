import RequestGuard.Record
import RequestGuard.Verifier

namespace RequestGuard

-- What the stages learn about one request.
structure Context where
  requestId : String
  receivedAt : String
  caller : Option (Identity × String) := none
  events : List Event := []
  requestFields : Fields := []
  performanceFields : Fields := []
  securityFields : Fields := []
  analyticsFields : Fields := []
  errorFields : Fields := []

namespace Context

def identity (context : Context) : Option Identity :=
  context.caller.map Prod.fst

def credentialId (context : Context) : Option String :=
  context.caller.map Prod.snd

-- The first identity stays.
def attach (context : Context) (identity : Identity) (credentialId : String) : Bool × Context :=
  match context.caller with
  | some _ => (false, context)
  | none => (true, { context with caller := some (identity, credentialId) })

def record (context : Context) (event : Event) : Context :=
  { context with events := context.events ++ [event] }

def fields (context : Context) : Category → Fields
  | .request => context.requestFields
  | .performance => context.performanceFields
  | .security => context.securityFields
  | .analytics => context.analyticsFields
  | .error => context.errorFields

def addField (context : Context) (category : Category) (key : String) (value : Json) : Context :=
  let fields := Json.member key value (context.fields category)
  match category with
  | .request => { context with requestFields := fields }
  | .performance => { context with performanceFields := fields }
  | .security => { context with securityFields := fields }
  | .analytics => { context with analyticsFields := fields }
  | .error => { context with errorFields := fields }

end Context

end RequestGuard
