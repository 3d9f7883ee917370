import RequestGuard.Json.Conform

namespace RequestGuard.Json

-- The header of a token may carry a key. Nobody uses it, but it has to be one.

def keyAlgorithms : List String :=
  ["HS256", "HS384", "HS512", "ES256", "ES384", "RS256", "RS384", "RS512", "PS256", "PS384",
    "PS512", "EdDSA", "RSA1_5", "RSA-OAEP", "RSA-OAEP-256"]

def curves : List String :=
  ["P-256", "P-384", "P-521", "Ed25519"]

def isNull : Json → Bool
  | .null => true
  | _ => false

def isNothing : Json → Bool
  | .null => true
  | .object members => members.isEmpty
  | _ => false

-- A choice is given by its name, or as an object with its name as the only key and a value
-- that says nothing.
def conformChoice (known : List String) (silent : Json → Bool) : Json → Except Cause Json
  | .text name =>
    if known.contains name then .ok (.text name) else .error (.unknownVariant name known)
  | .object [(name, value)] =>
    if !known.contains name then .error (.unknownVariant name known)
    else if silent value then .ok (.text name)
    else .error (.wrongType (foundOf value) "unit")
  | .object _ => .error (.wrongValue .map "map with a single key")
  | other => .error (.wrongType (foundOf other) "string or map")

def conformTextList : Json → Except Cause Json
  | .array items => (items.mapM conformText).map .array
  | other => .error (.wrongType (foundOf other) "a sequence")

-- What a key of any kind may tell.
def keyParts : List Part :=
  [⟨"use", .nullable, conformText⟩, ⟨"key_ops", .nullable, conformTextList⟩,
    ⟨"alg", .nullable, conformChoice keyAlgorithms isNothing⟩, ⟨"kid", .nullable, conformText⟩,
    ⟨"x5u", .nullable, conformText⟩, ⟨"x5c", .nullable, conformTextList⟩,
    ⟨"x5t", .nullable, conformText⟩, ⟨"x5t#S256", .nullable, conformText⟩]

-- Members are looked at in the order they were written. Each part may be told once, and null
-- tells nothing.
def checkKeyParts (seen : List String) : List (String × Json) → Except Cause Unit
  | [] => .ok ()
  | (name, value) :: rest =>
    match keyParts.find? (·.name == name) with
    | none => checkKeyParts seen rest
    | some part =>
      if seen.contains name then .error (.duplicateField name)
      else if isNull value then checkKeyParts (name :: seen) rest
      else
        match part.conform value with
        | .ok _ => checkKeyParts (name :: seen) rest
        | .error cause => .error cause

-- The kinds of keys, each with the values it needs.
def keyKinds : List (String × List String) :=
  [("EC", ["crv", "x", "y"]), ("RSA", ["n", "e"]), ("oct", ["k"]), ("OKP", ["crv", "x"])]

-- The value of a member that is there exactly once.
def single? (name : String) (members : List (String × Json)) : Option Json :=
  match members.filter (·.1 == name) with
  | [member] => some member.2
  | _ => none

def isKind (members : List (String × Json)) (kind : String) (needs : List String) : Bool :=
  let has (name : String) (conform : Json → Except Cause Json) : Bool :=
    (single? name members).any fun value => (conform value).isOk
  has "kty" (conformChoice [kind] isNull) && needs.all fun name =>
    has name (if name = "crv" then conformChoice curves isNull else conformText)

def conformKey : Json → Except Cause Json
  | .object members =>
    match checkKeyParts [] members with
    | .error cause => .error cause
    | .ok () =>
      if keyKinds.any fun (kind, needs) => isKind members kind needs then .ok (.object members)
      else .error (.noVariant "AlgorithmParameters")
  | other => .error (.wrongType (foundOf other) "struct Jwk")

end RequestGuard.Json
