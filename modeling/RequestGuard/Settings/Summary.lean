import RequestGuard.Settings.Basic
import RequestGuard.Text.Numeral
import RequestGuard.Text.Quoted

namespace RequestGuard

-- The part before a separator and the part behind it.
def cutAt (separator : List Char) : List Char → Option (List Char × List Char)
  | [] => none
  | c :: rest =>
    if separator.isPrefixOf (c :: rest) then some ([], (c :: rest).drop separator.length)
    else (cutAt separator rest).map fun (before, after) => (c :: before, after)

-- A password in a connection string is what stands between the last colon before the first
-- at sign and that sign.
def maskPassword (url : String) : String :=
  match cutAt "://".toList url.toList with
  | none => url
  | some (scheme, rest) =>
    if rest.contains '@' then
      let credentials := rest.takeWhile (· != '@')
      let place := rest.dropWhile (· != '@')
      if credentials.contains ':' then
        let name := (credentials.reverse.dropWhile (· != ':')).drop 1 |>.reverse
        String.ofList (scheme ++ "://".toList ++ name ++ ":***".toList ++ place)
      else url
    else url

namespace Settings

inductive Unfit where
  | debugInProduction
  | logFormat (given : String)
  | address (given : String)
  | storeUrl (given : String)
  | emptySecret
  | maxBytes
  | maxDepth
  | maxItems
  | maxCharacters
  | requests
  | windowSeconds
  | ceiling

def Unfit.message : Unfit → String
  | debugInProduction => "DEBUG must be disabled when APP_ENV=production"
  | logFormat given => "LOG_FORMAT must be 'text' or 'json', got '" ++ given ++ "'"
  | address given => "LISTEN must be in format 'host:port', got '" ++ given ++ "'"
  | storeUrl given =>
    "REDIS_URL must start with 'redis://' or 'rediss://', got '" ++ maskPassword given ++ "'"
  | emptySecret => "JWT_SECRET must not be empty"
  | maxBytes => "MAX_REQUEST_SIZE_BYTES must be greater than 0"
  | maxDepth => "MAX_JSON_DEPTH must be greater than 0"
  | maxItems => "MAX_ARRAY_LENGTH must be greater than 0"
  | maxCharacters => "MAX_STRING_LENGTH must be greater than 0"
  | requests => "RATE_LIMIT_REQUESTS must be at least 1"
  | windowSeconds => "RATE_LIMIT_WINDOW_SECONDS must be greater than 0"
  | ceiling => "Hourly and daily ceilings must be at least 1 when set"

def hasScheme (url : String) : Bool :=
  "redis://".toList.isPrefixOf url.toList || "rediss://".toList.isPrefixOf url.toList

-- The first thing that makes settings unfit for use.
def unfit (s : Settings) : Option Unfit :=
  if s.debug && s.environment = .production then some .debugInProduction
  else if s.logFormat ≠ "text" && s.logFormat ≠ "json" then some (.logFormat s.logFormat)
  else if !s.address.toList.contains ':' then some (.address s.address)
  else if s.storeUrl.any (!hasScheme ·) then some (.storeUrl (s.storeUrl.getD ""))
  else if s.auth.secret = "" then some .emptySecret
  else if s.validation.maxBytes = 0 then some .maxBytes
  else if s.validation.maxDepth = 0 then some .maxDepth
  else if s.validation.maxItems = 0 then some .maxItems
  else if s.validation.maxCharacters = 0 then some .maxCharacters
  else if s.limits.requests = 0 then some .requests
  else if s.limits.windowSeconds = 0 then some .windowSeconds
  else if s.limits.hourly = some 0 || s.limits.daily = some 0 then some .ceiling
  else none

inductive Tone where
  | info
  | warn

def Tone.name : Tone → String
  | info => "info"
  | warn => "warn"

-- What is told about the settings at the start, without anything secret.
def summary (s : Settings) : List (Tone × String) :=
  let line (text : String) : Tone × String := (.info, "  " ++ text)
  let lineOf (label : String) (n : Option Nat) : List (Tone × String) :=
    (n.map fun n => line (label ++ decimal n)).toList
  let place := match s.storeUrl with
    | some url => maskPassword url ++ " (redis)"
    | none => "in-memory (single instance only)"
  let debug : List (Tone × String) := if s.debug then
      [(.warn, "  Debug mode: ON (internal error detail is exposed to callers)")]
    else []
  [(.info, "Configuration loaded:"), line ("Listen address: " ++ s.address),
    line ("Environment: " ++ s.environment.name), line ("Shared store: " ++ place),
    line ("Log level: " ++ s.logLevel), line ("Log format: " ++ s.logFormat),
    line ("Rate limit: " ++ decimal s.limits.requests ++ " requests / " ++
      decimal s.limits.windowSeconds ++ "s")] ++
  lineOf "Hourly ceiling: " s.limits.hourly ++ lineOf "Daily ceiling: " s.limits.daily ++
  (if s.limits.blacklist.isEmpty then []
    else [line ("Blacklisted identities: " ++ decimal s.limits.blacklist.length)]) ++
  [line ("Max request size: " ++ decimal s.validation.maxBytes ++ " bytes")] ++ debug

end Settings

-- The settings with the secret left out.
def AuthSettings.description (s : AuthSettings) : String :=
  "AuthConfig \x7b jwt_secret: \"***\", leeway_seconds: " ++ decimal s.leeway ++
    ", public_paths: [" ++ joined ", " (s.publicPaths.map Text.quoted) ++ "] \x7d"

end RequestGuard
