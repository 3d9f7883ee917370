import RequestGuard.Guard.Exchange
import RequestGuard.Http.Reason

namespace RequestGuard.Guard

-- An error that is told in no form of ours, as a path that is not known.
def isBareError (response : Response) : Bool :=
  response.isError &&
    !((response.headers.text? "content-type").any fun kind => kind.startsWith "application/json")

-- The failure that a bare error stands for, with the kind under which it is noted.
def bareFailure (status : Nat) : String × Failure :=
  let reason := (reason? status).getD "error"
  let internal := "framework response " ++ reason
  let base : Failure := { Failure.unclassified internal with code := "HTTP_" ++ decimal status }
  if 500 ≤ status then (base.kind.name, base)
  else ("http", { base with userMessage := reason })

-- What the caller is told of a bare error keeps its status.
def bareResponse (status : Nat) (requestId timestamp : String) : Response :=
  let told : Failure :=
    { (bareFailure status).2 with
      userMessage :=
        if 500 ≤ status then Failure.unexpectedMessage
        else (reason? status).getD "Request failed" }
  .json status (told.envelope requestId timestamp false).toJson

-- The new response takes over the headers of the old one that it does not have yet.
def withHeadersOf (old new : Response) : Response :=
  { new with
    headers := old.headers.foldl (fun headers (name, value) =>
      if name == "content-length" || headers.contains name then headers
      else headers ++ [(name, value)]) new.headers }

def optionally (key : String) (value : Option String) (record : Record) : Record :=
  match value with
  | none => record
  | some s => record.field key (.text s)

def errorRecord (context : Context) (request : Request) (status : Nat) (kind : String)
    (f : Failure) : Record :=
  let base : Record :=
    { category := .error
      severity := if 500 ≤ status then .error else .warn
      message := "Request failed" }
  let told := base.extend [
    ("request_id", .text context.requestId), ("method", .text request.method),
    ("path", .text request.path), ("status", .nat status), ("kind", .text kind),
    ("code", .text f.code), ("internal", .text f.internal), ("user_message", .text f.userMessage)]
  let detailed :=
    if f.fields.isEmpty then told else told.field "field_errors" (Failure.fieldsJson f.fields)
  optionally "user_id" (context.identity.map (·.userId)) (optionally "trace" f.trace detailed)

def withRequestId (requestId : String) (response : Response) : Response :=
  response.header "x-request-id" requestId

-- Tells of a failure in the one form that callers know, and notes it.
def enveloped (settings : Settings) (request : Request) (response : Response)
    (exchange : Exchange α) : Response × Exchange α :=
  let context := exchange.context
  let note := exchange.write settings.logging.sensitiveFields
  match response.failure with
  | some f =>
    (withHeadersOf response
        (f.render context.requestId exchange.clocks.written settings.debug),
      note (errorRecord context request f.status f.kind.name f))
  | none =>
    if isBareError response then
      let (kind, f) := bareFailure response.status
      (withHeadersOf response
          (bareResponse response.status context.requestId exchange.clocks.written),
        note (errorRecord context request response.status kind f))
    else (response, exchange)

-- Whatever happens inside, the caller gets a response with the id of the request.
def envelope (settings : Settings) : Stage (Exchange α) where
  name := "error_handler"
  process next request exchange :=
    let (outcome, after) := next request exchange
    let response :=
      match outcome with
      | .ok response => response
      | .error crash =>
        (Failure.crashed crash.message).response after.context.requestId after.clocks.written
    let (told, noted) := enveloped settings request response after
    (.ok (withRequestId noted.context.requestId told), noted)

end RequestGuard.Guard
