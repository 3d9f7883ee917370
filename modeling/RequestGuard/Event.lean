import RequestGuard.Json.Value

namespace RequestGuard

-- What happened to a request that those who watch over security want to know.
inductive Event where
  | scriptDetected (field : String)
  | queryDetected (field : String)
  | invalidCredential (reason : String)
  | revokedCredential (credentialId : String)
  | inactiveIdentity (userId : String)
  | limitExceeded (identity : String) (count limit : Nat)
  | blockedIdentity (identity : String)
  | botDetected (userAgent : String)
deriving DecidableEq

namespace Event

def name : Event → String
  | scriptDetected _ => "xss_detected"
  | queryDetected _ => "sql_injection_detected"
  | invalidCredential _ => "invalid_credential"
  | revokedCredential _ => "revoked_credential"
  | inactiveIdentity _ => "inactive_identity"
  | limitExceeded .. => "rate_limit_exceeded"
  | blockedIdentity _ => "blocked_identity"
  | botDetected _ => "bot_detected"

def details : Event → List (String × Json)
  | scriptDetected field => [("field", .text field)]
  | queryDetected field => [("field", .text field)]
  | invalidCredential reason => [("reason", .text reason)]
  | revokedCredential id => [("credential_id", .text id)]
  | inactiveIdentity id => [("user_id", .text id)]
  | limitExceeded identity count limit =>
    [("identity", .text identity), ("count", .nat count), ("limit", .nat limit)]
  | blockedIdentity identity => [("identity", .text identity)]
  | botDetected agent => [("user_agent", .text agent)]

def toJson (event : Event) : Json :=
  .ofMembers (("event", .text event.name) :: event.details)

end Event

end RequestGuard
