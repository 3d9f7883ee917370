import RequestGuard.Text.Character

namespace RequestGuard.Markup

def blanksOff (text : List Char) : List Char :=
  text.dropWhile Text.isBlank

-- The rest of a text that starts with a character.
def past (c : Char) : List Char → Option (List Char)
  | [] => none
  | d :: rest => if d == c then some rest else none

-- The rest of a text that starts with a word in small letters, in any case.
def pastName : List Char → List Char → Option (List Char)
  | [], rest => some rest
  | _ :: _, [] => none
  | w :: word, c :: rest => if Text.fold c == w then pastName word rest else none

def script : List Char := "script".toList

def style : List Char := "style".toList

def pastEither (text : List Char) : Option (List Char) :=
  (pastName script text).or (pastName style text)

def startsInWord : List Char → Bool
  | [] => false
  | c :: _ => Text.isWord c

-- The rest behind the first closing angle.
def pastAngle : List Char → Option (List Char)
  | [] => none
  | c :: rest => if c == '>' then some rest else pastAngle rest

-- The rest behind the next closing angle, if no opening one comes before it.
def pastInside : List Char → Option (List Char)
  | [] => none
  | c :: rest => if c == '>' then some rest else if c == '<' then none else pastInside rest

-- A tag: an angle, perhaps a slash, a letter or an exclamation mark, and all up to the
-- closing angle. Blanks may stand before and after the slash.
def pastTag (text : List Char) : Option (List Char) := do
  let rest := blanksOff (← past '<' text)
  match blanksOff ((past '/' rest).getD rest) with
  | [] => none
  | c :: inside => if c.isAlpha || c == '!' then pastInside inside else none

-- The tag that opens a block of code: it may hold opening angles.
def pastOpening (text : List Char) : Option (List Char) := do
  let rest ← pastEither (blanksOff (← past '<' text))
  if startsInWord rest then none else pastAngle rest

def pastClosing (text : List Char) : Option (List Char) := do
  let rest ← past '/' (blanksOff (← past '<' text))
  past '>' (blanksOff (← pastEither (blanksOff rest)))

-- The rest behind the first closing tag of a block.
def pastContent : List Char → Option (List Char)
  | [] => none
  | c :: rest => (pastClosing (c :: rest)).or (pastContent rest)

-- A block of code with all that it holds, up to the first closing tag.
def pastBlock (text : List Char) : Option (List Char) :=
  (pastOpening text).bind pastContent

-- Leaves out what a finder passes, from left to right. A finder hands on a shorter rest.
def without (finder : List Char → Option (List Char)) : Nat → List Char → List Char
  | 0, text => text
  | _ + 1, [] => []
  | fuel + 1, c :: rest =>
    match finder (c :: rest) with
    | some after => without finder fuel after
    | none => c :: without finder fuel rest

def removed (finder : List Char → Option (List Char)) (text : List Char) : List Char :=
  without finder text.length text

def pass (text : List Char) : List Char :=
  removed pastTag (removed pastBlock text)

-- What one pass leaves may form a tag again, so passes go on as long as they take something
-- away.
def stripped (text : List Char) : List Char :=
  if (pass text).length < text.length then stripped (pass text) else text
termination_by text.length

-- Entities

-- A letter and between one and thirty-one letters and digits.
def isNamed (body : List Char) : Bool :=
  match body with
  | [] => false
  | c :: rest => c.isAlpha && rest.all Char.isAlphanum && 1 ≤ rest.length && rest.length ≤ 31

def isNumbered (body : List Char) : Bool :=
  match body with
  | '#' :: digits =>
    (digits.all Char.isDigit && 1 ≤ digits.length && digits.length ≤ 7) ||
      (match digits with
        | x :: hex =>
          (x == 'x' || x == 'X') && hex.all Text.isHexDigit && 1 ≤ hex.length && hex.length ≤ 6
        | [] => false)
  | _ => false

-- Whether the text behind an ampersand is the rest of an entity. The longest name has
-- thirty-two characters.
def startsEntity (text : List Char) : Bool :=
  let body := (text.take 33).takeWhile (· != ';')
  body.length < (text.take 33).length && (isNamed body || isNumbered body)

def lessThan : List Char := "&lt;".toList

def greaterThan : List Char := "&gt;".toList

def doubleQuote : List Char := "&quot;".toList

def singleQuote : List Char := "&#x27;".toList

def ampersand : List Char := "&amp;".toList

-- Entities that are there already stay as they are.
def escaped : List Char → List Char
  | [] => []
  | c :: rest =>
    let written :=
      if c == '<' then lessThan
      else if c == '>' then greaterThan
      else if c == '"' then doubleQuote
      else if c == '\'' then singleQuote
      else if c == '&' && !startsEntity rest then ampersand
      else [c]
    written ++ escaped rest

end RequestGuard.Markup

namespace RequestGuard

def stripTags (s : String) : String :=
  String.ofList (Markup.stripped s.toList)

def escapeMarkup (s : String) : String :=
  String.ofList (Markup.escaped s.toList)

def cleaned (escape : Bool) (s : String) : String :=
  if escape then escapeMarkup (stripTags s) else stripTags s

end RequestGuard
