import RequestGuard.Json.Value
import RequestGuard.Text.Quoted

namespace RequestGuard

def Number.written : Number → String
  | .integer n =>
    String.ofList (if n < 0 then '-' :: Numeral.digits n.natAbs else Numeral.digits n.natAbs)
  | .real x => x.written

namespace Json

-- Only the quote, the backslash and the controls below the space are escaped.
def escape (c : Char) : List Char :=
  if c == '"' then ['\\', '"']
  else if c == '\\' then ['\\', '\\']
  else if c == '\x08' then ['\\', 'b']
  else if c == '\x0c' then ['\\', 'f']
  else if c == '\n' then ['\\', 'n']
  else if c == '\r' then ['\\', 'r']
  else if c == '\t' then ['\\', 't']
  else if c.toNat < 0x20 then
    ['\\', 'u', '0', '0', Text.hexDigit (c.toNat / 16), Text.hexDigit (c.toNat % 16)]
  else [c]

def writeText (s : String) : List Char :=
  ['"'] ++ s.toList.flatMap escape ++ ['"']

def separated : List (List Char) → List Char
  | [] => []
  | [part] => part
  | part :: rest => part ++ ',' :: separated rest

mutual

def write : Json → List Char
  | null => ['n', 'u', 'l', 'l']
  | bool true => ['t', 'r', 'u', 'e']
  | bool false => ['f', 'a', 'l', 's', 'e']
  | number n => n.written.toList
  | text s => writeText s
  | array items => ['['] ++ separated (writeItems items) ++ [']']
  | object members => ['\x7b'] ++ separated (writeMembers members) ++ ['\x7d']

def writeItems : List Json → List (List Char)
  | [] => []
  | item :: rest => write item :: writeItems rest

def writeMembers : List (String × Json) → List (List Char)
  | [] => []
  | (key, value) :: rest => (writeText key ++ ':' :: write value) :: writeMembers rest

end

def written (value : Json) : String :=
  String.ofList value.write

end Json

end RequestGuard
