import RequestGuard.Json.Printer
import RequestGuard.Text.Quoted
import RequestGuard.Text.Utf8
import RequestGuard.Text.Character

namespace RequestGuard.Json

-- What stood where a typed field was expected.
inductive Found where
  | null
  | bool (b : Bool)
  | integer (n : Int)
  | real (x : Binary64)
  | text (s : String)
  | sequence
  | map

inductive Cause where
  | endInValue
  | endInList
  | endInObject
  | endInText
  | expectedValue
  | expectedWord
  | expectedColon
  | expectedListEnd
  | expectedObjectEnd
  | expectedKey
  | invalidEscape
  | invalidNumber
  | invalidCodePoint
  | numberOutOfRange
  | controlCharacter
  | unpairedSurrogate
  | unfinishedSurrogate
  | trailingComma
  | trailingCharacters
  | tooDeep
  | wrongType (found : Found) (expected : String)
  | wrongValue (found : Found) (expected : String)
  | wrongLength (length : Nat) (expected : String)
  | missingField (name : String)
  | duplicateField (name : String)
  | unknownVariant (name : String) (known : List String)
  | noVariant (choice : String)

def Found.message : Found → String
  | null => "null"
  | bool true => "boolean \x60true\x60"
  | bool false => "boolean \x60false\x60"
  | integer n => "integer \x60" ++ (Number.integer n).written ++ "\x60"
  | real x => "floating point \x60" ++ x.written ++ "\x60"
  | text s => "string " ++ Text.quoted s
  | sequence => "sequence"
  | map => "map"

def ticked (s : String) : String :=
  "\x60" ++ s ++ "\x60"

def Cause.message : Cause → String
  | endInValue => "EOF while parsing a value"
  | endInList => "EOF while parsing a list"
  | endInObject => "EOF while parsing an object"
  | endInText => "EOF while parsing a string"
  | expectedValue => "expected value"
  | expectedWord => "expected ident"
  | expectedColon => "expected " ++ ticked ":"
  | expectedListEnd => "expected " ++ ticked "," ++ " or " ++ ticked "]"
  | expectedObjectEnd => "expected " ++ ticked "," ++ " or " ++ ticked "\x7d"
  | expectedKey => "key must be a string"
  | invalidEscape => "invalid escape"
  | invalidNumber => "invalid number"
  | invalidCodePoint => "invalid unicode code point"
  | numberOutOfRange => "number out of range"
  | controlCharacter => "control character (\\u0000-\\u001F) found while parsing a string"
  | unpairedSurrogate => "lone leading surrogate in hex escape"
  | unfinishedSurrogate => "unexpected end of hex escape"
  | trailingComma => "trailing comma"
  | trailingCharacters => "trailing characters"
  | tooDeep => "recursion limit exceeded"
  | wrongType found expected => "invalid type: " ++ found.message ++ ", expected " ++ expected
  | wrongValue found expected => "invalid value: " ++ found.message ++ ", expected " ++ expected
  | wrongLength length expected =>
    "invalid length " ++ decimal length ++ ", expected " ++ expected
  | missingField name => "missing field " ++ ticked name
  | duplicateField name => "duplicate field " ++ ticked name
  | unknownVariant name known =>
    "unknown variant " ++ ticked name ++ ", expected one of " ++ joined ", " (known.map ticked)
  | noVariant choice => "data did not match any variant of untagged enum " ++ choice

-- The place of a fault is told by the text behind it. Whoever goes on in spite of it does so
-- with what has not been taken, which begins with a byte that was only looked at.
structure Fault where
  cause : Cause
  rest : Bytes
  untaken : Bytes

namespace Fault

def behind (cause : Cause) (rest : Bytes) : Fault :=
  ⟨cause, rest, rest⟩

def upon (cause : Cause) (b : UInt8) (rest : Bytes) : Fault :=
  ⟨cause, rest, b :: rest⟩

def atEnd (cause : Cause) : Fault :=
  behind cause []

end Fault

-- Lines are counted from one; the column is the number of bytes read since the last newline.
structure Position where
  line : Nat
  column : Nat
deriving DecidableEq, Repr

def Position.after (read : Bytes) : Position where
  line := read.count 0x0A + 1
  column := (read.reverse.takeWhile (· != 0x0A)).length

def Fault.position (input : Bytes) (fault : Fault) : Position :=
  .after (input.take (input.length - fault.rest.length))

def Fault.message (input : Bytes) (fault : Fault) : String :=
  let place := fault.position input
  fault.cause.message ++ " at line " ++ decimal place.line ++ " column " ++ decimal place.column

end RequestGuard.Json
