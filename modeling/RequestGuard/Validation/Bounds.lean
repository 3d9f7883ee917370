import RequestGuard.Json.Value
import RequestGuard.Settings.Basic
import RequestGuard.Validation.Path

namespace RequestGuard

-- What breaks a bound and where.
inductive Violation where
  | tooDeep (path : String) (limit : Nat)
  | tooManyItems (path : String) (length limit : Nat)
  | tooLongText (path : String) (length limit : Nat)
deriving DecidableEq

namespace Violation

def code : Violation → String
  | tooDeep .. => "VAL_DEPTH"
  | tooManyItems .. => "VAL_ARRAY_LENGTH"
  | tooLongText .. => "VAL_STRING_LENGTH"

def path : Violation → String
  | tooDeep path _ => path
  | tooManyItems path .. => path
  | tooLongText path .. => path

def message : Violation → String
  | tooDeep _ limit => "nesting exceeds maximum depth of " ++ decimal limit
  | tooManyItems _ length limit =>
    "array has " ++ decimal length ++ " items, maximum is " ++ decimal limit
  | tooLongText _ length limit =>
    "string has " ++ decimal length ++ " characters, maximum is " ++ decimal limit

end Violation

-- A walk that came to a violation leaves everything behind it as it was.
structure Bounded (α : Type) where
  value : α
  cut : List String
  violation : Option Violation

namespace Bounded

def map (f : α → β) (b : Bounded α) : Bounded β :=
  ⟨f b.value, b.cut, b.violation⟩

end Bounded

namespace Json

variable (bounds : ValidationSettings)

def boundText (path s : String) : Bounded Json :=
  if s.length ≤ bounds.maxCharacters then ⟨text s, [], none⟩
  else if bounds.cutLongTexts then
    ⟨text (String.ofList (s.toList.take bounds.maxCharacters)), [Path.display path], none⟩
  else ⟨text s, [], some (.tooLongText (Path.display path) s.length bounds.maxCharacters)⟩

mutual

-- Looks at a container before its contents and at these in their order. The depth counts
-- the containers around a value.
def bound (path : String) (depth : Nat) : Json → Bounded Json
  | text s => boundText bounds path s
  | array items =>
    if bounds.maxDepth < depth + 1 then
      ⟨array items, [], some (.tooDeep (Path.display path) bounds.maxDepth)⟩
    else if bounds.maxItems < items.length then
      ⟨array items, [],
        some (.tooManyItems (Path.display path) items.length bounds.maxItems)⟩
    else (boundItems path (depth + 1) 0 items).map array
  | object members =>
    if bounds.maxDepth < depth + 1 then
      ⟨object members, [], some (.tooDeep (Path.display path) bounds.maxDepth)⟩
    else (boundMembers path (depth + 1) members).map object
  | other => ⟨other, [], none⟩

def boundItems (path : String) (depth n : Nat) : List Json → Bounded (List Json)
  | [] => ⟨[], [], none⟩
  | item :: rest =>
    let first := bound (Path.index path n) depth item
    if first.violation.isSome then ⟨first.value :: rest, first.cut, first.violation⟩
    else
      let more := boundItems path depth (n + 1) rest
      ⟨first.value :: more.value, first.cut ++ more.cut, more.violation⟩

def boundMembers (path : String) (depth : Nat) :
    List (String × Json) → Bounded (List (String × Json))
  | [] => ⟨[], [], none⟩
  | (key, value) :: rest =>
    let first := bound (Path.key path key) depth value
    if first.violation.isSome then
      ⟨(key, first.value) :: rest, first.cut, first.violation⟩
    else
      let more := boundMembers path depth rest
      ⟨(key, first.value) :: more.value, first.cut ++ more.cut, more.violation⟩

end

-- Holds a value to the bounds: over-long texts are cut if that is allowed.
def enforce (value : Json) : Bounded Json :=
  bound bounds "" 0 value

end Json

end RequestGuard
