import RequestGuard.Json.Fault

namespace RequestGuard.Json

-- A reader takes what it needs from the front of a text and hands on the rest.
abbrev Reader (α : Type) := Bytes → Except Fault (α × Bytes)

def isSpace (b : UInt8) : Bool :=
  b == 0x20 || b == 0x0A || b == 0x09 || b == 0x0D

def isDigit (b : UInt8) : Bool :=
  0x30 ≤ b && b ≤ 0x39

def skip (text : Bytes) : Bytes :=
  text.dropWhile isSpace

-- Words

def readWord : Bytes → Bytes → Except Fault Bytes
  | [], rest => .ok rest
  | _ :: _, [] => .error (.atEnd .endInValue)
  | w :: word, b :: rest =>
    if w == b then readWord word rest else .error (.behind .expectedWord rest)

def rull : Bytes := [0x75, 0x6C, 0x6C]

def rrue : Bytes := [0x72, 0x75, 0x65]

def ralse : Bytes := [0x61, 0x6C, 0x73, 0x65]

-- Numbers

def digitValue (b : UInt8) : Nat :=
  b.toNat - 48

-- Digits join the significand as long as it fits a word; the others are only counted.
def absorb (significand : Nat) : Bytes → Nat × Nat × Nat
  | [] => (significand, 0, 0)
  | d :: digits =>
    let next := significand * 10 + digitValue d
    if next ≤ Numeral.maxWord then
      let (s, taken, left) := absorb next digits
      (s, taken + 1, left)
    else (significand, 0, digits.length + 1)

def ofParts (negative : Bool) (significand : Nat) (exponent : Int) (rest : Bytes) :
    Except Fault (Number × Bytes) :=
  match Binary64.ofDecimal negative significand exponent with
  | some x => .ok (.real x, rest)
  | none => .error (.behind .numberOutOfRange rest)

def greatestExponent : Nat := 0x7FFFFFFF

-- The digits of an exponent, and the text after the digit that makes it too large.
def readExponentDigits (total : Nat) : Bytes → Nat × Option Bytes × Bytes
  | [] => (total, none, [])
  | d :: rest =>
    if isDigit d then
      let next := total * 10 + digitValue d
      if next ≤ greatestExponent then readExponentDigits next rest
      else (total, some rest, rest.dropWhile isDigit)
    else (total, none, d :: rest)

def readExponent (negative : Bool) (significand : Nat) (start : Int) (text : Bytes) :
    Except Fault (Number × Bytes) :=
  let (positive, body) := match text with
    | 0x2B :: rest => (true, rest)
    | 0x2D :: rest => (false, rest)
    | _ => (true, text)
  match body with
  | [] => .error (.atEnd .endInValue)
  | d :: rest =>
    if !isDigit d then .error (.behind .invalidNumber rest)
    else
      match readExponentDigits (digitValue d) rest with
      | (e, none, after) =>
        ofParts negative significand (if positive then start + e else start - e) after
      | (_, some seen, after) =>
        if significand != 0 && positive then .error (.behind .numberOutOfRange seen)
        else .ok (.real (.zero negative), after)

def isExponentMark (b : UInt8) : Bool :=
  b == 0x65 || b == 0x45

def readFraction (negative : Bool) (significand : Nat) (start : Int) (text : Bytes) :
    Except Fault (Number × Bytes) :=
  let digits := text.takeWhile isDigit
  match digits, text.dropWhile isDigit with
  | [], [] => .error (.atEnd .endInValue)
  | [], b :: rest => .error (.upon .invalidNumber b rest)
  | _, rest =>
    let (s, taken, _) := absorb significand digits
    match rest with
    | mark :: after =>
      if isExponentMark mark then readExponent negative s (start - taken) after
      else ofParts negative s (start - taken) rest
    | [] => ofParts negative s (start - taken) rest

-- Whole numbers that fit 64 bits stay whole; a negative zero does not.
def wholeNumber (negative : Bool) (significand : Nat) : Number :=
  if !negative then .integer significand
  else if significand != 0 && significand ≤ 0x8000000000000000 then .integer (-significand)
  else .real ((Binary64.ofNat true significand).getD (.zero true))

def readNumberTail (negative : Bool) (digits rest : Bytes) : Except Fault (Number × Bytes) :=
  let (s, _, left) := absorb 0 digits
  match rest with
  | 0x2E :: after => readFraction negative s left after
  | mark :: after =>
    if isExponentMark mark then readExponent negative s left after
    else if left = 0 then .ok (wholeNumber negative s, rest)
    else ofParts negative s left rest
  | [] =>
    if left = 0 then .ok (wholeNumber negative s, rest) else ofParts negative s left rest

-- The text after a sign, if there was one.
def readNumber (negative : Bool) : Reader Number
  | [] => .error (.atEnd .endInValue)
  | d :: rest =>
    if d == 0x30 then
      match rest with
      | next :: after =>
        if isDigit next then .error (.upon .invalidNumber next after)
        else readNumberTail negative [d] rest
      | [] => readNumberTail negative [d] rest
    else if isDigit d then
      readNumberTail negative (d :: rest.takeWhile isDigit) (rest.dropWhile isDigit)
    else .error (.behind .invalidNumber rest)

-- Texts

def hexValue (b : UInt8) : Option Nat :=
  if isDigit b then some (b.toNat - 48)
  else if 0x61 ≤ b && b ≤ 0x66 then some (b.toNat - 87)
  else if 0x41 ≤ b && b ≤ 0x46 then some (b.toNat - 55)
  else none

def readHex : Reader Nat
  | a :: b :: c :: d :: rest =>
    match hexValue a, hexValue b, hexValue c, hexValue d with
    | some w, some x, some y, some z => .ok (w * 4096 + x * 256 + y * 16 + z, rest)
    | _, _, _, _ => .error (.behind .invalidEscape rest)
  | _ => .error (.atEnd .endInText)

def isLeading (n : Nat) : Bool :=
  0xD800 ≤ n && n ≤ 0xDBFF

def isTrailing (n : Nat) : Bool :=
  0xDC00 ≤ n && n ≤ 0xDFFF

def codePoint (n : Nat) : Bytes :=
  String.utf8EncodeChar (Char.ofNat n)

-- A character beyond the basic plane is written as a leading and a trailing surrogate.
def readCodePoint (text : Bytes) : Except Fault (Bytes × Bytes) :=
  match readHex text with
  | .error fault => .error fault
  | .ok (n, rest) =>
    if isTrailing n then .error (.behind .unpairedSurrogate rest)
    else if !isLeading n then .ok (codePoint n, rest)
    else
      match rest with
      | [] => .error (.atEnd .endInText)
      | [b] =>
        .error (.atEnd (if b == 0x5C then .endInText else .unfinishedSurrogate))
      | b :: u :: after =>
        if b != 0x5C then .error (.behind .unfinishedSurrogate (u :: after))
        else if u != 0x75 then .error (.behind .unfinishedSurrogate after)
        else
          match readHex after with
          | .error fault => .error fault
          | .ok (m, last) =>
            if isTrailing m then
              .ok (codePoint ((n - 0xD800) * 1024 + (m - 0xDC00) + 0x10000), last)
            else .error (.behind .unpairedSurrogate last)

-- The text after a backslash.
def readEscape : Reader Bytes
  | [] => .error (.atEnd .endInText)
  | c :: rest =>
    if c == 0x22 || c == 0x5C || c == 0x2F then .ok ([c], rest)
    else if c == 0x62 then .ok ([0x08], rest)
    else if c == 0x66 then .ok ([0x0C], rest)
    else if c == 0x6E then .ok ([0x0A], rest)
    else if c == 0x72 then .ok ([0x0D], rest)
    else if c == 0x74 then .ok ([0x09], rest)
    else if c == 0x75 then readCodePoint rest
    else .error (.behind .invalidEscape rest)

theorem readHex_length {text rest : Bytes} {n : Nat} (h : readHex text = .ok (n, rest)) :
    rest.length < text.length := by
  unfold readHex at h
  split at h
  · split at h
    · simp only [Except.ok.injEq, Prod.mk.injEq] at h
      rw [← h.2]
      simp only [List.length_cons]
      omega
    · contradiction
  · contradiction

theorem readCodePoint_length {text content rest : Bytes}
    (h : readCodePoint text = .ok (content, rest)) : rest.length < text.length := by
  unfold readCodePoint at h
  split at h
  · contradiction
  · rename_i n after hread
    have hlt := readHex_length hread
    split at h
    · contradiction
    · split at h
      · simp only [Except.ok.injEq, Prod.mk.injEq] at h
        rw [← h.2]
        exact hlt
      · split at h
        · contradiction
        · split at h <;> contradiction
        · split at h
          · contradiction
          · split at h
            · contradiction
            · split at h
              · contradiction
              · rename_i m last hlast
                have hlt' := readHex_length hlast
                split at h
                · simp only [Except.ok.injEq, Prod.mk.injEq] at h
                  rw [← h.2]
                  simp only [List.length_cons] at hlt
                  omega
                · contradiction

theorem readEscape_length {text content rest : Bytes}
    (h : readEscape text = .ok (content, rest)) : rest.length < text.length := by
  unfold readEscape at h
  split at h
  · contradiction
  · rename_i c after
    have hshort : ∀ {bytes},
        (.ok (bytes, after) : Except Fault (Bytes × Bytes)) = .ok (content, rest) →
        rest.length < (c :: after).length := by
      intro bytes heq
      simp only [Except.ok.injEq, Prod.mk.injEq] at heq
      simp [← heq.2]
    repeat' split at h
    · exact hshort h
    · exact hshort h
    · exact hshort h
    · exact hshort h
    · exact hshort h
    · exact hshort h
    · have hlt := readCodePoint_length h
      simp only [List.length_cons]
      omega
    · contradiction

-- The content of a text after its opening quote, as bytes that may not be UTF-8.
def readContent : Reader Bytes
  | [] => .error (.atEnd .endInText)
  | b :: rest =>
    if b == 0x22 then .ok ([], rest)
    else if b == 0x5C then
      match h : readEscape rest with
      | .error fault => .error fault
      | .ok (content, after) =>
        have := readEscape_length h
        match readContent after with
        | .error fault => .error fault
        | .ok (more, last) => .ok (content ++ more, last)
    else if b < 0x20 then .error (.behind .controlCharacter rest)
    else
      match readContent rest with
      | .error fault => .error fault
      | .ok (more, last) => .ok (b :: more, last)
termination_by text => text.length
decreasing_by
  all_goals simp only [List.length_cons]; omega

-- A text is UTF-8 if its content is. The place of the fault is as far before the end of the
-- text as the first byte of no character is before the end of the content.
def readText (text : Bytes) : Except Fault (String × Bytes) :=
  match readContent text with
  | .error fault => .error fault
  | .ok (content, rest) =>
    match Utf8.decode content with
    | some s => .ok (s, rest)
    | none =>
      let behind := rest.length + (content.length - Utf8.validLength content)
      .error ⟨.invalidCodePoint, text.drop (text.length - behind), rest⟩

-- Lists and objects

-- The items up to the closing bracket. Each takes a byte at least, so the length of the
-- text is fuel enough.
def readItems (item : Reader α) : Nat → Bool → Reader (List α)
  | 0, _, _ => .error (.atEnd .endInList)
  | fuel + 1, first, input =>
    let next (rest : Bytes) : Except Fault (List α × Bytes) :=
      match item rest with
      | .error fault => .error fault
      | .ok (a, after) =>
        match readItems item fuel false after with
        | .error fault => .error fault
        | .ok (more, last) => .ok (a :: more, last)
    match skip input with
    | [] => .error (.atEnd .endInList)
    | b :: rest =>
      if b == 0x5D then .ok ([], rest)
      else if first then next (b :: rest)
      else if b == 0x2C then
        match skip rest with
        | [] => .error (.atEnd .endInValue)
        | c :: after =>
          if c == 0x5D then .error (.upon .trailingComma c after) else next (c :: after)
      else .error (.upon .expectedListEnd b rest)

def readColon (text : Bytes) : Except Fault Bytes :=
  match skip text with
  | [] => .error (.atEnd .endInObject)
  | b :: rest => if b == 0x3A then .ok rest else .error (.upon .expectedColon b rest)

-- The members up to the closing brace. What has been gathered goes to a reader that starts
-- after the quote that opens a key.
def readMembers (entry : σ → Reader σ) : Nat → Bool → σ → Reader σ
  | 0, _, _, _ => .error (.atEnd .endInObject)
  | fuel + 1, first, gathered, input =>
    let next (rest : Bytes) : Except Fault (σ × Bytes) :=
      match entry gathered rest with
      | .error fault => .error fault
      | .ok (more, after) => readMembers entry fuel false more after
    match skip input with
    | [] => .error (.atEnd .endInObject)
    | b :: rest =>
      if b == 0x7D then .ok (gathered, rest)
      else if first then
        if b == 0x22 then next rest else .error (.upon .expectedKey b rest)
      else if b == 0x2C then
        match skip rest with
        | [] => .error (.atEnd .endInValue)
        | c :: after =>
          if c == 0x22 then next after
          else if c == 0x7D then .error (.upon .trailingComma c after)
          else .error (.upon .expectedKey c after)
      else .error (.upon .expectedObjectEnd b rest)

-- A container is closed even if something in it is at fault, should its end come next. In a
-- list a comma is taken too, but not what follows it.

def listLeft (text : Bytes) : Bytes :=
  match skip text with
  | 0x5D :: rest => rest
  | 0x2C :: rest => skip rest
  | other => other

def objectLeft (text : Bytes) : Bytes :=
  match skip text with
  | 0x7D :: rest => rest
  | other => other

def Fault.inList (fault : Fault) : Fault :=
  { fault with untaken := listLeft fault.untaken }

def Fault.inObject (fault : Fault) : Fault :=
  { fault with untaken := objectLeft fault.untaken }

def readMember (put : String → Json → List (String × Json) → List (String × Json))
    (value : Reader Json) (members : List (String × Json)) (text : Bytes) :
    Except Fault (List (String × Json) × Bytes) :=
  match readText text with
  | .error fault => .error fault
  | .ok (key, rest) =>
    match readColon rest with
    | .error fault => .error fault
    | .ok after =>
      match value after with
      | .error fault => .error fault
      | .ok (v, last) => .ok (put key v members, last)

def constant (value : Json) (word : Bytes) (text : Bytes) : Except Fault (Json × Bytes) :=
  (readWord word text).map fun rest => (value, rest)

-- A value in which at most the given number of containers may be open at once.
def readValueWith (put : String → Json → List (String × Json) → List (String × Json)) :
    Nat → Reader Json
  | nesting, input =>
    match skip input with
    | [] => .error (.atEnd .endInValue)
    | b :: rest =>
      if b == 0x6E then constant .null rull rest
      else if b == 0x74 then constant (.bool true) rrue rest
      else if b == 0x66 then constant (.bool false) ralse rest
      else if b == 0x2D then
        (readNumber true rest).map fun (n, after) => (.number n, after)
      else if isDigit b then
        (readNumber false (b :: rest)).map fun (n, after) => (.number n, after)
      else if b == 0x22 then
        (readText rest).map fun (s, after) => (.text s, after)
      else if b == 0x5B then
        match nesting with
        | 0 => .error (.upon .tooDeep b rest)
        | inner + 1 =>
          match readItems (readValueWith put inner) (rest.length + 1) true rest with
          | .error fault => .error fault.inList
          | .ok (items, after) => .ok (.array items, after)
      else if b == 0x7B then
        match nesting with
        | 0 => .error (.upon .tooDeep b rest)
        | inner + 1 =>
          match readMembers (readMember put (readValueWith put inner)) (rest.length + 1) true []
            rest with
          | .error fault => .error fault.inObject
          | .ok (members, after) => .ok (.object members, after)
      else .error (.upon .expectedValue b rest)

-- A repeated key keeps its last value.
def readValue (nesting : Nat) : Reader Json :=
  readValueWith member nesting

-- Members just as they come, a repeated key as often as it does.
def readLiteral (nesting : Nat) : Reader Json :=
  readValueWith (fun key v members => members ++ [(key, v)]) nesting

def nestingLimit : Nat := 127

-- Only blanks may follow the value that a text holds.
def complete (reader : Reader α) (text : Bytes) : Except Fault α :=
  match reader text with
  | .error fault => .error fault
  | .ok (a, rest) =>
    match skip rest with
    | [] => .ok a
    | b :: after => .error (.upon .trailingCharacters b after)

def parse (text : Bytes) : Except Fault Json :=
  complete (readValue nestingLimit) text

end RequestGuard.Json
