import RequestGuard.Json.Schema

namespace RequestGuard

-- What a credential says of its subject. Times are seconds since the epoch.
structure Claims where
  subject : String
  expiry : Nat
  issuedAt : Option Nat := none
  id : Option String := none
  kind : Option String := none
  active : Option Bool := none
deriving DecidableEq

namespace Claims

open Json in
def schema : Schema :=
  .record "Claims" [
    ("sub", .required, .text), ("exp", .required, .word),
    ("iat", .defaulted .null, .optional .word), ("jti", .defaulted .null, .optional .text),
    ("type", .defaulted .null, .optional .text), ("active", .defaulted .null, .optional .flag)]

def present (name : String) (value : Option Json) : List (String × Json) :=
  (value.map fun v => (name, v)).toList

-- Absent claims are left out.
def toJson (claims : Claims) : Json :=
  .object ([("sub", .text claims.subject), ("exp", .nat claims.expiry)] ++
    present "iat" (claims.issuedAt.map .nat) ++ present "jti" (claims.id.map .text) ++
    present "type" (claims.kind.map .text) ++ present "active" (claims.active.map .bool))

def text? : Json → Option String
  | .text s => some s
  | _ => none

def word? : Json → Option Nat
  | .number (.integer n) => if n < 0 then none else some n.toNat
  | _ => none

def flag? : Json → Option Bool
  | .bool b => some b
  | _ => none

def ofRecord (record : Json) : Option Claims := do
  let subject ← (record.get? "sub").bind text?
  let expiry ← (record.get? "exp").bind word?
  return {
    subject
    expiry
    issuedAt := (record.get? "iat").bind word?
    id := (record.get? "jti").bind text?
    kind := (record.get? "type").bind text?
    active := (record.get? "active").bind flag? }

end Claims

end RequestGuard
