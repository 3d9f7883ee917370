import RequestGuard.Json.Value
import RequestGuard.Markup

namespace RequestGuard.Json

def changes (before after : String) : Nat :=
  if after = before then 0 else 1

mutual

-- Every text and key is cleaned; the number tells how many of them changed. Keys that become
-- equal keep the last value.
def clean (escape : Bool) : Json → Json × Nat
  | text s =>
    let t := cleaned escape s
    (text t, changes s t)
  | array items =>
    let (cleanedItems, n) := cleanItems escape items
    (array cleanedItems, n)
  | object members =>
    let (pairs, n) := cleanMembers escape members
    (ofMembers pairs, n)
  | other => (other, 0)

def cleanItems (escape : Bool) : List Json → List Json × Nat
  | [] => ([], 0)
  | item :: rest =>
    let (first, n) := clean escape item
    let (more, m) := cleanItems escape rest
    (first :: more, n + m)

def cleanMembers (escape : Bool) : List (String × Json) → List (String × Json) × Nat
  | [] => ([], 0)
  | (key, value) :: rest =>
    let (v, n) := clean escape value
    let k := cleaned escape key
    let (more, m) := cleanMembers escape rest
    ((k, v) :: more, n + changes key k + m)

end

end RequestGuard.Json
