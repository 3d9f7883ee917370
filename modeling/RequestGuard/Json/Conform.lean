import RequestGuard.Json.Schema

namespace RequestGuard.Json

def foundOf : Json → Found
  | .null => .null
  | .bool b => .bool b
  | .number (.integer n) => .integer n
  | .number (.real x) => .real x
  | .text s => .text s
  | .array _ => .sequence
  | .object _ => .map

structure Part where
  name : String
  presence : Presence
  conform : Json → Except Cause Json

def conformText : Json → Except Cause Json
  | .text s => .ok (.text s)
  | other => .error (.wrongType (foundOf other) "a string")

def conformWord : Json → Except Cause Json
  | .number n => wordOf n
  | other => .error (.wrongType (foundOf other) "u64")

def conformFlag : Json → Except Cause Json
  | .bool b => .ok (.bool b)
  | other => .error (.wrongType (foundOf other) "a boolean")

def conformTexts : Json → Except Cause Json
  | .object members =>
    (members.mapM fun member => (conformText member.2).map (member.1, ·)).map .object
  | other => .error (.wrongType (foundOf other) "a map")

-- Members are looked at in their order; what is missing is told after what is wrong.
def conformMembers (parts : List Part) :
    List (String × Json) → Except Cause (List (String × Json))
  | [] => .ok []
  | (key, value) :: rest =>
    match parts.find? (·.name == key) with
    | none => conformMembers parts rest
    | some part => do
      let v ← part.conform value
      let more ← conformMembers parts rest
      return (key, v) :: more

def gatherParts (seen : List (String × Json)) (parts : List Part) :
    Except Cause (List (String × Json)) :=
  gather seen
    (parts.map fun part => ⟨part.name, part.presence, fun _ => .error (.atEnd .endInValue)⟩)

def conformItems (expected : String) (total : Nat) :
    Nat → List Part → List Json → Except Cause (List (String × Json))
  | _, [], [] => .ok []
  | _, [], _ :: _ => .error (.wrongLength total "fewer elements in array")
  | index, part :: parts, [] =>
    match part.presence with
    | .defaulted v => (conformItems expected total (index + 1) parts []).map ((part.name, v) :: ·)
    | _ => .error (.wrongLength index expected)
  | index, part :: parts, item :: rest => do
    let v ← part.conform item
    let more ← conformItems expected total (index + 1) parts rest
    return (part.name, v) :: more

def conformRecord (name : String) (parts : List Part) : Json → Except Cause Json
  | .object members => do
    let seen ← conformMembers parts members
    return .object (← gatherParts seen parts)
  | .array items =>
    (conformItems (name ++ elements parts.length) items.length 0 parts items).map .object
  | other => .error (.wrongType (foundOf other) name)

mutual

-- Whether a value that has been read already has the form of a schema, with the fields of a
-- record in their own order.
def Schema.conform : Schema → Json → Except Cause Json
  | .text, value => conformText value
  | .word, value => conformWord value
  | .flag, value => conformFlag value
  | .optional _, .null => .ok .null
  | .optional inner, value => inner.conform value
  | .texts, value => conformTexts value
  | .record name fields, value => conformRecord ("struct " ++ name) (partsOf fields) value

def partsOf : List (String × Presence × Schema) → List Part
  | [] => []
  | (name, presence, schema) :: more => ⟨name, presence, schema.conform⟩ :: partsOf more

end

end RequestGuard.Json
