import RequestGuard.Attack
import RequestGuard.Event
import RequestGuard.Failure
import RequestGuard.Form
import RequestGuard.Json.Clean
import RequestGuard.Json.Reader
import RequestGuard.Validation.Bounds

namespace RequestGuard

inductive BodyKind where
  | json
  | form
  | text
deriving DecidableEq

namespace BodyKind

def name : BodyKind → String
  | json => "json"
  | form => "form"
  | text => "text"

def contentType : BodyKind → String
  | json => "application/json"
  | form => "application/x-www-form-urlencoded"
  | text => "text/plain"

def all : List BodyKind :=
  [json, form, text]

-- Parameters behind a semicolon do not matter, nor do blanks or the case of letters.
def ofContentType? (contentType : String) : Option BodyKind :=
  let essence := lowered (trimmed (String.ofList (contentType.toList.takeWhile (· != ';'))))
  all.find? (·.contentType == essence)

end BodyKind

-- A request that passed, with the body to hand on if it is not the one that came.
structure Validated where
  body : Option Bytes := none
  cutFields : List String := []
  cleanedFields : Nat := 0

structure Rejection where
  failure : Failure
  events : List Event := []

namespace Validation

def sizeFailure (limit : Nat) : Failure :=
  .invalidField "VAL_SIZE" Path.root
    ("request body exceeds maximum size of " ++ decimal limit ++ " bytes")

def contentTypeFailure (contentType : Option String) : Failure :=
  .invalidField "VAL_CONTENT_TYPE" "content_type"
    ("unsupported content type '" ++ contentType.getD "none" ++ "', expected one of: " ++
      joined ", " (BodyKind.all.map (·.contentType)))

def malformed (message : String) : Failure :=
  .invalidField "VAL_MALFORMED" Path.root message

-- A repeated name of a form keeps its last value here.
def readBody : BodyKind → Bytes → Except Failure Json
  | .json, body =>
    (Json.parse body).mapError fun fault => malformed ("invalid JSON: " ++ fault.message body)
  | .form, body => .ok (.ofMembers ((Form.read body).map fun (name, value) => (name, .text value)))
  | .text, body =>
    match Utf8.decode body with
    | some s => .ok (.text s)
    | none => .error (malformed "text body is not valid UTF-8")

def formPair (member : String × Json) : String × String :=
  match member with
  | (name, .text value) => (name, value)
  | (name, _) => (name, "")

def reencodingFailure : Failure :=
  .unclassified "body shape changed during validation"

def writeBody : BodyKind → Json → Except Failure Bytes
  | .json, value => .ok (bytesOf value.written)
  | .form, .object members => .ok (Form.write (members.map formPair))
  | .text, .text s => .ok (bytesOf s)
  | _, _ => .error reencodingFailure

mutual

-- Every text that the caller controls, with its path; a key comes before its value.
def texts (path : String) : Json → List (String × String)
  | .text s => [(Path.display path, s)]
  | .array items => textsOfItems path 0 items
  | .object members => textsOfMembers path members
  | _ => []

def textsOfItems (path : String) (n : Nat) : List Json → List (String × String)
  | [] => []
  | item :: rest => texts (Path.index path n) item ++ textsOfItems path (n + 1) rest

def textsOfMembers (path : String) : List (String × Json) → List (String × String)
  | [] => []
  | (key, value) :: rest =>
    (Path.keyOf path, key) :: texts (Path.key path key) value ++ textsOfMembers path rest

end

inductive Detector where
  | script
  | query
deriving DecidableEq

namespace Detector

def detects : Detector → String → Bool
  | script => hasScript
  | query => hasQuery

def enabled (settings : ValidationSettings) : Detector → Bool
  | script => settings.refuseScript
  | query => settings.refuseQuery

def code : Detector → String
  | script => "VAL_XSS"
  | query => "VAL_SQLI"

def message : Detector → String
  | script => "contains a disallowed script pattern"
  | query => "contains a disallowed SQL pattern"

def title : Detector → String
  | script => "XSS"
  | query => "SQL injection"

def event : Detector → String → Event
  | script => .scriptDetected
  | query => .queryDetected

end Detector

-- The paths of the texts that a detector finds fault with.
def hits (detector : Detector) (found : List (String × String)) : List String :=
  (found.filter (detector.detects ·.2)).map Prod.fst

def rejection (detector : Detector) (paths : List String) : Rejection where
  failure := .validation detector.code
    (detector.title ++ " pattern in " ++ joined ", " paths)
    (paths.map fun path => (path, detector.message))
  events := paths.map detector.event

def detect (settings : ValidationSettings) (found : List (String × String))
    (detector : Detector) : Except Rejection Unit :=
  if detector.enabled settings then
    match hits detector found with
    | [] => .ok ()
    | paths => .error (rejection detector paths)
  else .ok ()

def refuse (failure : Failure) : Rejection :=
  ⟨failure, []⟩

-- The body as a value, if there is one.
def parsed (contentType : Option String) (body : Bytes) :
    Except Rejection (Option (BodyKind × Json)) :=
  if body.isEmpty then .ok none
  else
    match contentType.bind BodyKind.ofContentType? with
    | none => .error (refuse (contentTypeFailure contentType))
    | some kind =>
      match readBody kind body with
      | .error failure => .error (refuse failure)
      | .ok value => .ok (some (kind, value))

def bounded (settings : ValidationSettings) (value : Json) :
    Except Rejection (Json × List String) :=
  let result := value.enforce settings
  match result.violation with
  | some v => .error (refuse (.invalidField v.code v.path v.message))
  | none => .ok (result.value, result.cut)

-- The body is written anew only if something in it was cut or cleaned.
def accepted (settings : ValidationSettings) (kind : BodyKind) (value : Json)
    (cut : List String) : Except Rejection Validated :=
  let (result, count) :=
    if settings.cleanTexts then value.clean settings.escapeMarkup else (value, 0)
  if count = 0 && cut.isEmpty then .ok {}
  else
    match writeBody kind result with
    | .error failure => .error (refuse failure)
    | .ok body => .ok ⟨some body, cut, count⟩

def queryTexts (query : Option String) : List (String × String) :=
  ((query.map fun q => Form.read (bytesOf q)).getD []).map fun (name, value) =>
    (Path.query name, value)

def detectAll (settings : ValidationSettings) (found : List (String × String)) :
    Except Rejection Unit := do
  detect settings found .script
  detect settings found .query

end Validation

open Validation in
-- Runs the checks in order: size, content type, syntax, bounds, script, query.
def validate (settings : ValidationSettings) (contentType query : Option String) (body : Bytes) :
    Except Rejection Validated := do
  if settings.maxBytes < body.length then
    throw (refuse (sizeFailure settings.maxBytes))
  match ← parsed contentType body with
  | none =>
    detectAll settings (queryTexts query)
    return {}
  | some (kind, value) =>
    let (value, cut) ← bounded settings value
    detectAll settings (texts "" value ++ queryTexts query)
    accepted settings kind value cut

end RequestGuard
