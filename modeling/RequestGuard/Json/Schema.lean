import RequestGuard.Json.Skip

namespace RequestGuard.Json

-- What a field does when nothing is given for it: the record is refused; null is taken if
-- the fields have names; the given value is taken.
inductive Presence where
  | required
  | nullable
  | defaulted (value : Json)

inductive Schema where
  | text
  | word
  | flag
  | optional (inner : Schema)
  | texts
  | record (name : String) (fields : List (String × Presence × Schema))

-- A field as a record's reader sees it.
structure Field where
  name : String
  presence : Presence
  read : Reader Json

-- The fault for a value of another type than expected, behind it, but before a container.
def mismatch (expected : String) (input : Bytes) : Fault :=
  let found (cause : Found) (rest : Bytes) : Fault := .behind (.wrongType cause expected) rest
  let after (read : Except Fault (Found × Bytes)) : Fault :=
    match read with
    | .error fault => fault
    | .ok (cause, rest) => found cause rest
  let amount : Number → Found
    | .integer n => .integer n
    | .real x => .real x
  match input with
  | [] => .atEnd .endInValue
  | b :: rest =>
    if b == 0x6E then after ((readWord rull rest).map (Found.null, ·))
    else if b == 0x74 then after ((readWord rrue rest).map (Found.bool true, ·))
    else if b == 0x66 then after ((readWord ralse rest).map (Found.bool false, ·))
    else if b == 0x2D then after ((readNumber true rest).map fun (n, r) => (amount n, r))
    else if isDigit b then after ((readNumber false input).map fun (n, r) => (amount n, r))
    else if b == 0x22 then after ((readText rest).map fun (s, r) => (.text s, r))
    else if b == 0x5B then found .sequence input
    else if b == 0x7B then found .map input
    else .upon .expectedValue b rest

def readTextField (input : Bytes) : Except Fault (Json × Bytes) :=
  match skip input with
  | 0x22 :: rest => (readText rest).map fun (s, after) => (.text s, after)
  | other => .error (mismatch "a string" other)

def readFlagField (input : Bytes) : Except Fault (Json × Bytes) :=
  match skip input with
  | 0x74 :: rest => constant (.bool true) rrue rest
  | 0x66 :: rest => constant (.bool false) ralse rest
  | other => .error (mismatch "a boolean" other)

def wordOf : Number → Except Cause Json
  | .integer n =>
    if n < 0 then .error (.wrongValue (.integer n) "u64") else .ok (.number (.integer n))
  | .real x => .error (.wrongType (.real x) "u64")

def readWordField (input : Bytes) : Except Fault (Json × Bytes) :=
  let checked (read : Except Fault (Number × Bytes)) : Except Fault (Json × Bytes) :=
    match read with
    | .error fault => .error fault
    | .ok (n, rest) =>
      match wordOf n with
      | .error cause => .error (.behind cause rest)
      | .ok value => .ok (value, rest)
  match skip input with
  | [] => .error (.atEnd .endInValue)
  | b :: rest =>
    if b == 0x2D then checked (readNumber true rest)
    else if isDigit b then checked (readNumber false (b :: rest))
    else .error (mismatch "u64" (b :: rest))

def readOptional (inner : Reader Json) (input : Bytes) : Except Fault (Json × Bytes) :=
  match skip input with
  | 0x6E :: rest => constant .null rull rest
  | _ => inner input

def readTextsField (input : Bytes) : Except Fault (Json × Bytes) :=
  match skip input with
  | 0x7B :: rest =>
    (readMembers (readMember member readTextField) (rest.length + 1) true [] rest).map
      fun (members, after) => (.object members, after)
  | other => .error (mismatch "a map" other)

-- A fault that a record finds after a key is placed behind the closing brace, should that
-- be what follows.
def afterKey (rest : Bytes) : Bytes :=
  match skip rest with
  | 0x7D :: after => after
  | other => other

-- A known field is read once, an unknown one is skipped.
def readEntry (fields : List Field) (seen : List (String × Json)) (input : Bytes) :
    Except Fault (List (String × Json) × Bytes) :=
  match readText input with
  | .error fault => .error fault
  | .ok (key, rest) =>
    match fields.find? (·.name == key) with
    | none =>
      match readColon rest with
      | .error fault => .error fault
      | .ok after => (skipValue after).map fun last => (seen, last)
    | some field =>
      if (lookup key seen).isSome then .error (.behind (.duplicateField key) (afterKey rest))
      else
        match readColon rest with
        | .error fault => .error fault
        | .ok after => (field.read after).map fun (v, last) => (seen ++ [(key, v)], last)

-- The fields in their own order, whatever order they came in.
def gather (seen : List (String × Json)) : List Field → Except Cause (List (String × Json))
  | [] => .ok []
  | field :: more =>
    match lookup field.name seen, field.presence with
    | some v, _ => (gather seen more).map ((field.name, v) :: ·)
    | none, .required => .error (.missingField field.name)
    | none, .nullable => (gather seen more).map ((field.name, .null) :: ·)
    | none, .defaulted v => (gather seen more).map ((field.name, v) :: ·)

def readNamed (fields : List Field) (input : Bytes) : Except Fault (Json × Bytes) :=
  match readMembers (readEntry fields) (input.length + 1) true [] input with
  | .error fault => .error fault
  | .ok (seen, rest) =>
    match gather seen fields with
    | .error cause => .error (.behind cause rest)
    | .ok members => .ok (.object members, rest)

def elements (n : Nat) : String :=
  " with " ++ decimal n ++ (if n = 1 then " element" else " elements")

-- What may stand after the last item that is wanted.
def readListEnd (input : Bytes) : Except Fault Bytes :=
  match skip input with
  | [] => .error (.atEnd .endInList)
  | b :: rest =>
    if b == 0x5D then .ok rest
    else if b == 0x2C then
      match skip rest with
      | 0x5D :: after => .error (.upon .trailingComma 0x5D after)
      | other => .error ⟨.trailingCharacters, other.tail, other⟩
    else .error (.upon .trailingCharacters b rest)

-- A record given as a list of its fields in order. Null is no stand-in for an item here.
def readListed (expected : String) :
    Nat → List Field → Bytes → Except Fault (List (String × Json) × Bytes)
  | _, [], input => (readListEnd input).map fun rest => ([], rest)
  | index, field :: more, input =>
    let item (rest : Bytes) : Except Fault (List (String × Json) × Bytes) :=
      match field.read rest with
      | .error fault => .error fault
      | .ok (v, after) =>
        (readListed expected (index + 1) more after).map
          fun (others, last) => ((field.name, v) :: others, last)
    match skip input with
    | [] => .error (.atEnd .endInList)
    | b :: rest =>
      if b == 0x5D then
        match field.presence with
        | .defaulted v =>
          (readListed expected (index + 1) more input).map
            fun (others, last) => ((field.name, v) :: others, last)
        | _ => .error (.behind (.wrongLength index expected) rest)
      else if index = 0 then item (b :: rest)
      else if b == 0x2C then
        match skip rest with
        | [] => .error (.atEnd .endInValue)
        | c :: after =>
          if c == 0x5D then .error (.upon .trailingComma c after) else item (c :: after)
      else .error (.upon .expectedListEnd b rest)

def readRecord (name : String) (fields : List Field) (input : Bytes) :
    Except Fault (Json × Bytes) :=
  match skip input with
  | [] => .error (.atEnd .endInValue)
  | b :: rest =>
    if b == 0x5B then
      (readListed (name ++ elements fields.length) 0 fields rest).map
        fun (members, after) => (.object members, after)
    else if b == 0x7B then readNamed fields rest
    else .error (mismatch name (b :: rest))

mutual

def Schema.read : Schema → Reader Json
  | .text => readTextField
  | .word => readWordField
  | .flag => readFlagField
  | .optional inner => readOptional inner.read
  | .texts => readTextsField
  | .record name fields => readRecord ("struct " ++ name) (readers fields)

def readers : List (String × Presence × Schema) → List Field
  | [] => []
  | (name, presence, schema) :: more => ⟨name, presence, schema.read⟩ :: readers more

end

def Schema.parse (schema : Schema) (text : Bytes) : Except Fault Json :=
  complete schema.read text

end RequestGuard.Json
