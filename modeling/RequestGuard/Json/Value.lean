import RequestGuard.Json.Shortest

namespace RequestGuard

inductive Number where
  | integer (n : Int)
  | real (x : Binary64)
deriving DecidableEq, Repr

-- The members of an object are kept in ascending order of their keys, each key once. A record
-- has its fields in their own order instead, and a literal its members just as written.
inductive Json where
  | null
  | bool (b : Bool)
  | number (n : Number)
  | text (s : String)
  | array (items : List Json)
  | object (members : List (String × Json))
deriving Repr, Inhabited

namespace Json

def member (key : String) (value : Json) : List (String × Json) → List (String × Json)
  | [] => [(key, value)]
  | (k, v) :: rest =>
    if key < k then (key, value) :: (k, v) :: rest
    else if key = k then (key, value) :: rest
    else (k, v) :: member key value rest

-- A repeated key keeps its last value.
def ofMembers (pairs : List (String × Json)) : Json :=
  object (pairs.foldl (fun members (k, v) => member k v members) [])

def nat (n : Nat) : Json :=
  number (.integer n)

def ofOption (f : α → Json) : Option α → Json
  | none => null
  | some a => f a

def lookup (key : String) : List (String × Json) → Option Json
  | [] => none
  | (k, v) :: rest => if k = key then some v else lookup key rest

def get? (key : String) : Json → Option Json
  | object members => lookup key members
  | _ => none

end Json

end RequestGuard
