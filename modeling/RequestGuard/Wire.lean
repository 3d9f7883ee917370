import RequestGuard.Failure
import RequestGuard.Json.Schema
import RequestGuard.Token.Claims

namespace RequestGuard

open Claims (text?)

def texts? : Json → List (String × String)
  | .object members => members.filterMap fun (key, value) => (text? value).map (key, ·)
  | _ => []

-- What a caller is told of a failure. The message and the trace are there in debug mode
-- only.
structure Envelope where
  code : String
  message : Option String := none
  userMessage : String
  details : List (String × String) := []
  requestId : String
  timestamp : String
  trace : Option String := none
deriving DecidableEq

namespace Envelope

open Json in
def schema : Schema :=
  .record "ErrorEnvelope" [("error", .required, .record "ErrorBody" [
    ("code", .required, .text), ("message", .defaulted .null, .optional .text),
    ("user_message", .required, .text), ("details", .defaulted (.object []), .texts),
    ("request_id", .required, .text), ("timestamp", .required, .text),
    ("trace", .defaulted .null, .optional .text)])]

def toJson (e : Envelope) : Json :=
  .object [("error", .object (
    [("code", .text e.code)] ++ Claims.present "message" (e.message.map .text) ++
    [("user_message", .text e.userMessage), ("details", Failure.fieldsJson e.details),
      ("request_id", .text e.requestId), ("timestamp", .text e.timestamp)] ++
    Claims.present "trace" (e.trace.map .text)))]

def ofRecord (record : Json) : Option Envelope := do
  let body ← record.get? "error"
  return {
    code := ← (body.get? "code").bind text?
    message := (body.get? "message").bind text?
    userMessage := ← (body.get? "user_message").bind text?
    details := texts? ((body.get? "details").getD .null)
    requestId := ← (body.get? "request_id").bind text?
    timestamp := ← (body.get? "timestamp").bind text?
    trace := (body.get? "trace").bind text? }

end Envelope

def Failure.envelope (f : Failure) (requestId timestamp : String) (debug : Bool) : Envelope where
  code := f.code
  message := if debug then some f.internal else none
  userMessage := f.userMessage
  details := f.fields
  requestId
  timestamp
  trace := if debug then f.trace else none

-- Whether the service and its store are well.
structure Health where
  status : String
  version : String
  storeStatus : String
  storeMessage : Option String := none
deriving DecidableEq

namespace Health

open Json in
def schema : Schema :=
  .record "HealthResponse" [("status", .required, .text), ("version", .required, .text),
    ("checks", .required, .record "HealthChecks" [("store", .required, .record "CheckStatus" [
      ("status", .required, .text), ("message", .nullable, .optional .text)])])]

def toJson (h : Health) : Json :=
  .object [("status", .text h.status), ("version", .text h.version),
    ("checks", .object [("store", .object ([("status", .text h.storeStatus)] ++
      Claims.present "message" (h.storeMessage.map .text)))])]

def ofRecord (record : Json) : Option Health := do
  let store ← (record.get? "checks").bind (·.get? "store")
  return {
    status := ← (record.get? "status").bind text?
    version := ← (record.get? "version").bind text?
    storeStatus := ← (store.get? "status").bind text?
    storeMessage := (store.get? "message").bind text? }

def ofStore (isHealthy : Bool) : Health where
  status := if isHealthy then "healthy" else "degraded"
  version := "0.1.0"
  storeStatus := if isHealthy then "ok" else "error"
  storeMessage := some (if isHealthy then "Store reachable" else "Store connection failed")

end Health

-- The caller as the service knows them.
structure Caller where
  userId : String
  requestId : String
  credentialId : Option String := none
deriving DecidableEq

namespace Caller

open Json in
def schema : Schema :=
  .record "MeResponse" [("user_id", .required, .text), ("request_id", .required, .text),
    ("credential_id", .nullable, .optional .text)]

def toJson (c : Caller) : Json :=
  .object [("user_id", .text c.userId), ("request_id", .text c.requestId),
    ("credential_id", .ofOption .text c.credentialId)]

def ofRecord (record : Json) : Option Caller := do
  return {
    userId := ← (record.get? "user_id").bind text?
    requestId := ← (record.get? "request_id").bind text?
    credentialId := (record.get? "credential_id").bind text? }

end Caller

end RequestGuard
