import RequestGuard.Console.Command
import RequestGuard.Console.Target
import RequestGuard.Limiter

namespace RequestGuard.Console

-- The lines that a command prints and why it failed, if it did. A minted token is there on
-- its own too.
structure Outcome where
  lines : List String := []
  failure : Option String := none
  token : Option String := none

-- What a command knows of its surroundings: the time in seconds since the epoch and on the
-- clock of the store, an id that is nobody's yet, and whether the operator agrees when asked.
structure Setting where
  now : Nat
  storeNow : Nat
  freshId : String
  agrees : Bool := false

abbrev Action := Backend → Except Crash Outcome × Backend

def failed (reason : String) (backend : Backend) : Except Crash Outcome × Backend :=
  (.ok { failure := some reason }, backend)

-- Goes on with the answer of the store. A store that fails makes the command fail.
def onReply (reply : Reply α × Backend) (lines : List String) (doing : String)
    (done : α → Outcome) : Except Crash Outcome × Backend :=
  match reply with
  | (.done a, backend) => (.ok (done a), backend)
  | (.failed error, backend) =>
    (.ok { lines, failure := some (doing ++ ": " ++ error.message) }, backend)
  | (.broken crash, backend) => (.error crash, backend)

-- An id without a token stays revoked for a week.
def defaultRevocation : Nat := 604800

-- How long a credential has to be revoked. Of a token that has expired nothing is left.
def revocationLifetime (lifetime remaining : Option Nat) : Option Nat :=
  match lifetime, remaining with
  | some seconds, _ => some seconds
  | none, some 0 => none
  | none, some seconds => some seconds
  | none, none => some defaultRevocation

def revokeTitle : List String :=
  ["🔒 Revoke Credential", ""]

def revokeDetails (id : String) (seconds : Nat) : List String :=
  revokeTitle ++ ["  Credential: " ++ id, "  Expires in: " ++ decimal seconds ++ "s", ""]

def revoke (settings : Settings) (setting : Setting) (credential : String)
    (lifetime : Option Nat) (isSure : Bool) : Action :=
  fun backend =>
    match target settings.auth setting.now credential with
    | .error reason => failed reason backend
    | .ok target =>
      match revocationLifetime lifetime target.remaining with
      | none =>
        (.ok { lines := revokeTitle ++ ["ℹ️  Token already expired; nothing to revoke"] },
          backend)
      | some seconds =>
        let lines := revokeDetails target.id seconds
        if isSure || setting.agrees then
          onReply (backend.set setting.storeNow (Credential.revocationKey target.id) "1" seconds)
            lines "Failed to revoke credential"
            fun _ => { lines := lines ++ ["✅ Credential revoked"] }
        else (.ok { lines := lines ++ ["❌ Cancelled"] }, backend)

def restore (settings : Settings) (setting : Setting) (credential : String) : Action :=
  fun backend =>
    match target settings.auth setting.now credential with
    | .error reason => failed reason backend
    | .ok target =>
      onReply (backend.delete (Credential.revocationKey target.id)) []
        "Failed to lift revocation" fun existed =>
          { lines :=
              [if existed then "✅ Revocation lifted" else "ℹ️  Credential was not revoked"] }

def status (settings : Settings) (setting : Setting) (credential : String) : Action :=
  fun backend =>
    match target settings.auth setting.now credential with
    | .error reason => failed reason backend
    | .ok target =>
      onReply (backend.contains setting.storeNow (Credential.revocationKey target.id)) []
        "Failed to read revocation list" fun isRevoked =>
          { lines := ["  Credential: " ++ target.id,
              "  Status:     " ++ (if isRevoked then "REVOKED" else "ACTIVE")] }

def mintedClaims (setting : Setting) (subject : String) (lifetime : Nat) (withId : Bool) :
    Claims where
  subject
  expiry := setting.now + lifetime
  issuedAt := some setting.now
  id := if withId then some setting.freshId else none
  kind := some "access"

-- Signs a token that is good from now on.
def mint (settings : Settings) (setting : Setting) (subject : String) (lifetime : Nat)
    (withId : Bool) : Except Crash Outcome :=
  if Numeral.maxWord < setting.now + lifetime then .error .countOverflow
  else
    let token := Credential.mint settings.auth.secret
      (mintedClaims setting subject lifetime withId)
    .ok {
      lines := ["✨ Generated new token", "  Subject: " ++ subject, "  Token:   " ++ token, "",
        "Example:",
        "  curl -H \"Authorization: Bearer " ++ token ++ "\" http://localhost:3000/api/me"]
      token := some token }

def usage (settings : Settings) (setting : Setting) (identity : String) : Action :=
  fun backend =>
    onReply (Limiter.usage settings.limits setting.storeNow setting.now identity backend) []
      "Failed to read counter" fun count =>
        { lines := ["📊 Rate Limit Usage", "", "  Identity: " ++ identity,
            "  Window:   " ++ decimal settings.limits.windowSeconds ++ "s",
            "  Used:     " ++ decimal count ++ "/" ++ decimal settings.limits.requests] }

def reset (settings : Settings) (setting : Setting) (identity : String) : Action :=
  fun backend =>
    onReply (Limiter.reset settings.limits setting.now identity backend) []
      "Failed to reset counter" fun existed =>
        { lines := [if existed then "✅ Counter reset"
            else "ℹ️  No requests counted in the current window"] }

def checkStore : Action :=
  fun backend =>
    if backend.isHealthy then (.ok { lines := ["Checking store connection... ✅ OK"] }, backend)
    else
      (.ok {
        lines := ["Checking store connection... ❌ FAILED"]
        failure := some "Store health check failed" }, backend)

def Command.run (settings : Settings) (setting : Setting) : Command → Action
  | revoke credential lifetime isSure =>
    Console.revoke settings setting credential lifetime isSure
  | restore credential => Console.restore settings setting credential
  | status credential => Console.status settings setting credential
  | mint subject lifetime withId =>
    fun backend => (Console.mint settings setting subject lifetime withId, backend)
  | usage identity => Console.usage settings setting identity
  | reset identity => Console.reset settings setting identity
  | checkStore => Console.checkStore

-- Minting needs no store. All other commands work on the one that the settings name.
def Command.needsStore : Command → Bool
  | mint .. => false
  | _ => true

def storeUrl (settings : Settings) : Except String String :=
  match settings.storeUrl with
  | some url => .ok url
  | none => .error "REDIS_URL must be set"

end RequestGuard.Console
