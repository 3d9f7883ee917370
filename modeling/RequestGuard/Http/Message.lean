import RequestGuard.Address
import RequestGuard.Failure
import RequestGuard.Text.Utf8

namespace RequestGuard

-- Names are in small letters. A name may be there several times.
abbrev Headers := List (String × Bytes)

namespace Headers

def contains (headers : Headers) (name : String) : Bool :=
  headers.any (·.1 == name)

def values (headers : Headers) (name : String) : List Bytes :=
  (headers.filter (·.1 == name)).map Prod.snd

def isVisible (b : UInt8) : Bool :=
  b == 0x09 || (0x20 ≤ b && b ≤ 0x7E)

-- A value is text if all of it can be seen.
def textOf? (value : Bytes) : Option String :=
  if value.all isVisible then some (String.ofList (value.map fun b => Char.ofNat b.toNat)) else none

-- The first value of a name, if it is text.
def text? (headers : Headers) (name : String) : Option String :=
  (headers.values name).head?.bind textOf?

-- The value takes the place of all others of that name.
def put (headers : Headers) (name value : String) : Headers :=
  headers.filter (·.1 != name) ++ [(name, bytesOf value)]

end Headers

-- A body comes as a whole or bit by bit. A bit that is not there is one that could not be
-- read.
inductive Body where
  | whole (bytes : Bytes)
  | stream (chunks : List (Option Bytes))
deriving DecidableEq

namespace Body

inductive Fault where
  | tooLong
  | brokenOff
deriving DecidableEq

def Fault.message : Fault → String
  | tooLong => "length limit exceeded"
  | brokenOff => "connection reset"

-- What is known of the length before anything is read.
def exactLength : Body → Option Nat
  | whole bytes => some bytes.length
  | stream _ => none

def collectChunks : Nat → List (Option Bytes) → Except Fault Bytes
  | _, [] => .ok []
  | _, none :: _ => .error .brokenOff
  | room, some chunk :: rest =>
    if room < chunk.length then .error .tooLong
    else (collectChunks (room - chunk.length) rest).map (chunk ++ ·)

-- Reads a body of no more bytes than the limit.
def collect (limit : Nat) : Body → Except Fault Bytes
  | whole bytes => if limit < bytes.length then .error .tooLong else .ok bytes
  | stream chunks => collectChunks limit chunks

end Body

structure Request where
  method : String := "GET"
  path : String := "/"
  query : Option String := none
  headers : Headers := []
  body : Body := .whole []
  peer : Option Address := none

namespace Request

-- The declared length, else the actual one if it is known.
def declaredLength (request : Request) : Option Nat :=
  ((request.headers.text? "content-length").bind fun s => readWord (trimmed s)).or
    request.body.exactLength

-- A path with perhaps a query. The fragment is not sent.
def withPath (request : Request) (text : List Char) : Request :=
  let sent := text.takeWhile (· != '#')
  let path := sent.takeWhile (· != '?')
  { request with
    path := if path.isEmpty then "/" else String.ofList path
    query := if sent.contains '?' then some (String.ofList ((sent.dropWhile (· != '?')).drop 1))
      else none }

def isSchemeChar (c : Char) : Bool :=
  c.isAlphanum || c == '+' || c == '-' || c == '.'

-- The host that an absolute target names, and what follows it.
def hostOf? (target : List Char) : Option (List Char) :=
  match target.dropWhile isSchemeChar with
  | ':' :: '/' :: '/' :: rest => some rest
  | _ => none

-- A target is a path, an absolute target with a path behind its host, or the star that asks
-- for the server itself. Anything else names a host alone.
def withTarget (request : Request) (target : String) : Request :=
  let text := target.toList
  if text.head? == some '/' || target == "*" then request.withPath text
  else
    match hostOf? text with
    | some rest => request.withPath (rest.dropWhile fun c => c != '/' && c != '?' && c != '#')
    | none => { request with path := "", query := none }

end Request

-- A response that stands for a failure carries it along for the stages further out.
structure Response where
  status : Nat
  headers : Headers := []
  body : Bytes := []
  failure : Option Failure := none

namespace Response

def isSuccess (response : Response) : Bool :=
  200 ≤ response.status && response.status < 300

def isError (response : Response) : Bool :=
  400 ≤ response.status && response.status < 600

def header (response : Response) (name value : String) : Response :=
  { response with headers := response.headers.put name value }

def bare (status : Nat) : Response :=
  { status }

def text (status : Nat) (body : String) : Response where
  status
  headers := [("content-type", bytesOf "text/plain; charset=utf-8")]
  body := bytesOf body

def json (status : Nat) (value : Json) : Response where
  status
  headers := [("content-type", bytesOf "application/json")]
  body := bytesOf value.written

end Response

end RequestGuard
