import RequestGuard.Json.Printer
import RequestGuard.Text.Character

namespace RequestGuard

inductive Category where
  | request
  | performance
  | security
  | analytics
  | error
deriving DecidableEq

namespace Category

def name : Category → String
  | request => "request"
  | performance => "performance"
  | security => "security"
  | analytics => "analytics"
  | error => "error"

def all : List Category :=
  [request, performance, security, analytics, error]

def ofName? (name : String) : Option Category :=
  all.find? (·.name == name)

end Category

inductive Severity where
  | debug
  | info
  | warn
  | error
deriving DecidableEq

namespace Severity

def name : Severity → String
  | debug => "debug"
  | info => "info"
  | warn => "warn"
  | error => "error"

def all : List Severity :=
  [debug, info, warn, error]

def ofName? (name : String) : Option Severity :=
  all.find? (·.name == name)

-- A failure of the service itself is worse than one of the caller.
def ofStatus (status : Nat) : Severity :=
  if 500 ≤ status then error else if 400 ≤ status then warn else info

end Severity

abbrev Fields := List (String × Json)

-- What is written down about a request.
structure Record where
  category : Category
  severity : Severity
  message : String
  fields : Fields := []

namespace Record

def field (record : Record) (key : String) (value : Json) : Record :=
  { record with fields := Json.member key value record.fields }

def extend (record : Record) (fields : Fields) : Record :=
  fields.foldl (fun r (key, value) => r.field key value) record

def get? (record : Record) (key : String) : Option Json :=
  Json.lookup key record.fields

def toJson (record : Record) : Json :=
  .object [("category", .text record.category.name), ("severity", .text record.severity.name),
    ("message", .text record.message), ("fields", .object record.fields)]

-- A record as an event of a log: its target, its level, its message and its fields as text.
def event (record : Record) : String × String × String × String :=
  (record.category.name, record.severity.name, record.message,
    (Json.object record.fields).written)

end Record

def redactedMark : String :=
  "[REDACTED]"

namespace Json

mutual

-- Hides the value of every key that is in a list of small-letter names, in any case of its
-- ASCII letters.
def redact (sensitive : List String) : Json → Json
  | array items => array (redactItems sensitive items)
  | object members => object (redactMembers sensitive members)
  | other => other

def redactItems (sensitive : List String) : List Json → List Json
  | [] => []
  | item :: rest => redact sensitive item :: redactItems sensitive rest

def redactMembers (sensitive : List String) : List (String × Json) → List (String × Json)
  | [] => []
  | (key, value) :: rest =>
    (key, if sensitive.contains (lowered key) then text redactedMark else redact sensitive value) ::
      redactMembers sensitive rest

end

end Json

namespace Record

-- The record that is delivered under a list of sensitive names, in any case.
def redacted (sensitive : List String) (record : Record) : Record :=
  { record with fields := Json.redactMembers (sensitive.map lowered) record.fields }

end Record

end RequestGuard
