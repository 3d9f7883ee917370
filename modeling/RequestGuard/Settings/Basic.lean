import RequestGuard.Text.Listing

namespace RequestGuard

-- What a request may contain.
structure ValidationSettings where
  maxBytes : Nat := 10485760
  maxDepth : Nat := 10
  maxItems : Nat := 1000
  maxCharacters : Nat := 10000
  cutLongTexts : Bool := true
  refuseScript : Bool := true
  refuseQuery : Bool := true
  cleanTexts : Bool := true
  escapeMarkup : Bool := true

-- How often a caller may come. Without a ceiling the hour or the day is not counted. The
-- identities are in ascending order, each once.
structure LimitSettings where
  requests : Nat := 60
  windowSeconds : Nat := 60
  hourly : Option Nat := some 1000
  daily : Option Nat := some 10000
  whitelist : List String := []
  blacklist : List String := []
  behindProxy : Bool := false

structure AuthSettings where
  secret : String := "secret"
  leeway : Nat := 0
  publicPaths : List String := ["/health"]

-- The field names are in ascending order, each once.
structure LogSettings where
  excludedPaths : List String := ["/health", "/metrics", "/favicon.ico"]
  sensitiveFields : List String := setOf
    ["password", "token", "access_token", "refresh_token", "secret", "key", "api_key",
      "authorization", "cookie", "set-cookie", "x-api-key", "x-auth-token",
      "proxy-authorization", "credit_card", "ssn", "social_security"]
  slowThreshold : Nat := 1000
  maxBodySize : Nat := 10240
  logResponses : Bool := true
  detectBots : Bool := true

inductive Environment where
  | development
  | staging
  | production
  | testing
deriving DecidableEq

def Environment.name : Environment → String
  | development => "development"
  | staging => "staging"
  | production => "production"
  | testing => "testing"

structure Settings where
  address : String := "0.0.0.0:3000"
  storeUrl : Option String := none
  logLevel : String := "info"
  logFormat : String := "text"
  environment : Environment := .development
  debug : Bool := false
  validation : ValidationSettings := {}
  limits : LimitSettings := {}
  auth : AuthSettings := {}
  logging : LogSettings := {}

-- A path lies under another one if it is the same or goes on with a slash. Only the root
-- lies under the root.
def liesUnder (path parent : String) : Bool :=
  if parent = "/" then path = "/"
  else
    path = parent || (parent.toList ++ ['/']).isPrefixOf path.toList

def AuthSettings.isPublic (settings : AuthSettings) (path : String) : Bool :=
  settings.publicPaths.any (liesUnder path)

def LogSettings.isExcluded (settings : LogSettings) (path : String) : Bool :=
  settings.excludedPaths.any (liesUnder path)

end RequestGuard
