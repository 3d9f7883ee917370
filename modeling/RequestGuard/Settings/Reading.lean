import RequestGuard.Settings.Basic
import RequestGuard.Text.Numeral

namespace RequestGuard

def Environment.ofName? (name : String) : Option Environment :=
  let lower := lowered name
  if lower = "development" || lower = "dev" then some .development
  else if lower = "staging" then some .staging
  else if lower = "production" || lower = "prod" then some .production
  else if lower = "testing" || lower = "test" then some .testing
  else none

namespace Settings

inductive ReadingError where
  | unknownEnvironment (name : String)
  | missingSecret

def unknownEnvironment (name : String) : String :=
  "unknown APP_ENV '" ++ lowered name ++ "'"

def ReadingError.message : ReadingError → String
  | unknownEnvironment name => "Failed to parse APP_ENV: " ++ Settings.unknownEnvironment name
  | missingSecret => "JWT_SECRET must be set: environment variable not found"

-- The variables that settings are read from.
def variableNames : List String :=
  ["APP_ENV", "JWT_SECRET", "LISTEN", "REDIS_URL", "REDIS_HOST", "REDIS_PORT", "REDIS_PASSWORD",
    "REDIS_DB", "RUST_LOG", "LOG_FORMAT", "DEBUG", "MAX_REQUEST_SIZE_BYTES", "MAX_JSON_DEPTH",
    "MAX_ARRAY_LENGTH", "MAX_STRING_LENGTH", "TRUNCATE_LONG_STRINGS", "ENABLE_XSS_PROTECTION",
    "ENABLE_SQL_INJECTION_PROTECTION", "ENABLE_INPUT_SANITIZATION", "SANITIZE_HTML",
    "RATE_LIMIT_REQUESTS", "RATE_LIMIT_WINDOW_SECONDS", "RATE_LIMIT_REQUESTS_PER_HOUR",
    "RATE_LIMIT_REQUESTS_PER_DAY", "RATE_LIMIT_WHITELIST", "RATE_LIMIT_BLACKLIST",
    "BEHIND_PROXY", "JWT_LEEWAY_SECONDS", "PUBLIC_PATHS", "EXCLUDED_PATHS", "SENSITIVE_FIELDS",
    "SLOW_REQUEST_THRESHOLD_MS", "MAX_LOG_BODY_SIZE", "LOG_RESPONSES", "DETECT_BOTS"]

-- The value of a variable, if it is set.
abbrev Variables := String → Option String

variable (vars : Variables)

def text (name default : String) : String :=
  (vars name).getD default

-- A value that is no number counts as not set.
def amount (name : String) (default : Nat) : Nat :=
  ((vars name).bind fun v => readWord (trimmed v)).getD default

def flag (name : String) (default : Bool) : Bool :=
  match vars name with
  | none => default
  | some v => lowered v = "true" || v = "1"

def list (name : String) (default : List String) : List String :=
  ((vars name).map entries).getD default

-- Zero stands for no ceiling.
def ceiling (name : String) (default : Nat) : Option Nat :=
  match amount vars name default with
  | 0 => none
  | n => some n

-- The address of the shared store, given whole or in parts. An empty password is none.
def storeAddress : Option String :=
  (vars "REDIS_URL").or <| (vars "REDIS_HOST").map fun host =>
    let place := host ++ ":" ++ text vars "REDIS_PORT" "6379" ++ "/" ++ text vars "REDIS_DB" "0"
    match vars "REDIS_PASSWORD" with
    | some password =>
      if password = "" then "redis://" ++ place
      else "redis://:" ++ password ++ "@" ++ place
    | none => "redis://" ++ place

def readEnvironment : Except ReadingError Environment :=
  match vars "APP_ENV" with
  | none => .ok .development
  | some name =>
    match Environment.ofName? name with
    | some environment => .ok environment
    | none => .error (.unknownEnvironment name)

def readSecret : Except ReadingError String :=
  match vars "JWT_SECRET" with
  | some secret => .ok secret
  | none => .error .missingSecret

def readValidation : ValidationSettings where
  maxBytes := amount vars "MAX_REQUEST_SIZE_BYTES" 10485760
  maxDepth := amount vars "MAX_JSON_DEPTH" 10
  maxItems := amount vars "MAX_ARRAY_LENGTH" 1000
  maxCharacters := amount vars "MAX_STRING_LENGTH" 10000
  cutLongTexts := flag vars "TRUNCATE_LONG_STRINGS" true
  refuseScript := flag vars "ENABLE_XSS_PROTECTION" true
  refuseQuery := flag vars "ENABLE_SQL_INJECTION_PROTECTION" true
  cleanTexts := flag vars "ENABLE_INPUT_SANITIZATION" true
  escapeMarkup := flag vars "SANITIZE_HTML" true

def readLimits : LimitSettings where
  requests := amount vars "RATE_LIMIT_REQUESTS" 60
  windowSeconds := amount vars "RATE_LIMIT_WINDOW_SECONDS" 60
  hourly := ceiling vars "RATE_LIMIT_REQUESTS_PER_HOUR" 1000
  daily := ceiling vars "RATE_LIMIT_REQUESTS_PER_DAY" 10000
  whitelist := setOf (list vars "RATE_LIMIT_WHITELIST" [])
  blacklist := setOf (list vars "RATE_LIMIT_BLACKLIST" [])
  behindProxy := flag vars "BEHIND_PROXY" false

def readLogging : LogSettings :=
  let defaults : LogSettings := {}
  { excludedPaths := list vars "EXCLUDED_PATHS" defaults.excludedPaths
    sensitiveFields := setOf ((list vars "SENSITIVE_FIELDS" defaults.sensitiveFields).map lowered)
    slowThreshold := amount vars "SLOW_REQUEST_THRESHOLD_MS" 1000
    maxBodySize := amount vars "MAX_LOG_BODY_SIZE" 10240
    logResponses := flag vars "LOG_RESPONSES" true
    detectBots := flag vars "DETECT_BOTS" true }

-- The environment is looked at before the secret.
def read : Except ReadingError Settings := do
  let environment ← readEnvironment vars
  let secret ← readSecret vars
  return {
    address := text vars "LISTEN" "0.0.0.0:3000"
    storeUrl := storeAddress vars
    logLevel := text vars "RUST_LOG" "info"
    logFormat := text vars "LOG_FORMAT" "text"
    environment
    debug := flag vars "DEBUG" false
    validation := readValidation vars
    limits := readLimits vars
    auth := {
      secret
      leeway := amount vars "JWT_LEEWAY_SECONDS" 30
      publicPaths := list vars "PUBLIC_PATHS" ["/health"] }
    logging := readLogging vars }

end Settings

end RequestGuard
