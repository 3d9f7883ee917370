import RequestGuard.Json.Printer

namespace RequestGuard

-- Why a request is not served. Every refusal and every accident is one of these.
inductive FailureKind where
  | authentication
  | authorization
  | validation
  | rateLimit (retryAfter : Nat)
  | external
  | dataStore
  | businessRule
  | unclassified
deriving DecidableEq

namespace FailureKind

def name : FailureKind → String
  | authentication => "authentication"
  | authorization => "authorization"
  | validation => "validation"
  | rateLimit _ => "rate_limit"
  | external => "upstream_service"
  | dataStore => "data_store"
  | businessRule => "business_rule"
  | unclassified => "unclassified"

def title : FailureKind → String
  | authentication => "authentication error"
  | authorization => "authorization error"
  | validation => "validation error"
  | rateLimit _ => "rate limit error"
  | external => "upstream service error"
  | dataStore => "data store error"
  | businessRule => "business rule error"
  | unclassified => "unclassified error"

def status : FailureKind → Nat
  | authentication => 401
  | authorization => 403
  | validation => 422
  | rateLimit _ => 429
  | external => 503
  | dataStore => 500
  | businessRule => 400
  | unclassified => 500

end FailureKind

-- The internal text and the trace are for the operators; the caller sees the code, the
-- message and what is wrong with which field.
structure Failure where
  kind : FailureKind
  code : String
  internal : String
  userMessage : String
  fields : List (String × String) := []
  trace : Option String := none
deriving DecidableEq

-- A map from field names to messages: ascending, the last message for a name counts.
def insertField (name message : String) : List (String × String) → List (String × String)
  | [] => [(name, message)]
  | (n, m) :: rest =>
    if name < n then (name, message) :: (n, m) :: rest
    else if name = n then (name, message) :: rest
    else (n, m) :: insertField name message rest

def fieldMap (pairs : List (String × String)) : List (String × String) :=
  pairs.foldl (fun fields (name, message) => insertField name message fields) []

namespace Failure

def authentication (internal : String) : Failure where
  kind := .authentication
  code := "AUTH_001"
  internal
  userMessage := "Please log in to access this resource"

def revoked (internal : String) : Failure :=
  { authentication internal with code := "AUTH_003" }

def authorization (internal : String) : Failure where
  kind := .authorization
  code := "AUTH_002"
  internal
  userMessage := "You don't have permission to access this resource"

def blocked (internal : String) : Failure :=
  { authorization internal with
    code := "RATE_002"
    userMessage := "Access from this client has been blocked" }

def validation (code internal : String) (fields : List (String × String)) : Failure where
  kind := .validation
  code
  internal
  userMessage := "Please check your input and try again"
  fields := fieldMap fields

def invalidField (code field message : String) : Failure :=
  validation code (field ++ ": " ++ message) [(field, message)]

def rateLimited (retryAfter : Nat) : Failure where
  kind := .rateLimit retryAfter
  code := "RATE_001"
  internal := "Rate limit exceeded"
  userMessage := "Too many requests. Please try again later"

def external (internal : String) : Failure where
  kind := .external
  code := "EXT_001"
  internal
  userMessage := "External service is temporarily unavailable"

def dataStore (internal : String) : Failure where
  kind := .dataStore
  code := "DB_001"
  internal
  userMessage := "A database error occurred. Please try again"

def businessRule (internal userMessage : String) : Failure where
  kind := .businessRule
  code := "BIZ_001"
  internal
  userMessage

def unexpectedMessage : String :=
  "An unexpected error occurred. Please try again later"

def unclassified (internal : String) : Failure where
  kind := .unclassified
  code := "SYS_001"
  internal
  userMessage := unexpectedMessage

-- A handler that broke off.
def crashed (message : String) : Failure :=
  { unclassified ("panic: " ++ message) with trace := some message }

def indented (lead continued text : String) : String :=
  lead ++ joined ("\n" ++ continued) ((splitLines text.toList).map String.ofList)
where
  splitLines : List Char → List (List Char)
    | [] => [[]]
    | c :: rest =>
      if c == '\n' then [] :: splitLines rest
      else
        match splitLines rest with
        | [] => [[c]]
        | line :: lines => (c :: line) :: lines

-- A number set flush right in five columns.
def column (n : Nat) : String :=
  String.ofList (List.replicate (5 - (Numeral.digits n).length) ' ' ++ Numeral.digits n)

-- The outermost message of a chain and below it the causes, numbered if they are several.
def traceOf (outer : String) : List String → String
  | [] => outer
  | [cause] => outer ++ "\n\nCaused by:\n" ++ indented "    " "    " cause
  | causes =>
    outer ++ "\n\nCaused by:\n" ++ joined "\n" (causes.zipIdx.map fun (cause, n) =>
      indented (column n ++ ": ") "       " cause)

-- An error that was handed on with a message at every level, outermost first.
def chained (outer : String) (causes : List String) : Failure :=
  { unclassified (joined ": " (outer :: causes)) with trace := some (traceOf outer causes) }

def status (f : Failure) : Nat :=
  f.kind.status

def message (f : Failure) : String :=
  let base := f.kind.title ++ " [" ++ f.code ++ "]: " ++ f.internal
  match f.kind with
  | .rateLimit retryAfter => base ++ " (retry after " ++ decimal retryAfter ++ "s)"
  | _ => base

def fieldsJson (fields : List (String × String)) : Json :=
  .object (fields.map fun (name, message) => (name, .text message))

end Failure

end RequestGuard
