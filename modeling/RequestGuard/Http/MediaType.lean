import RequestGuard.Text.Character

namespace RequestGuard

-- A type with its subtype and the suffix behind the last plus sign, in small letters.
structure MediaType where
  type : String
  subtype : String
  suffix : Option String := none
deriving DecidableEq

namespace MediaType

def isToken (c : Char) : Bool :=
  c.isAlphanum || "!#$%&'*+-.^_\x60|~".toList.contains c

def isQuotable (c : Char) : Bool :=
  31 < c.toNat && c.toNat ≠ 127

-- What follows the quote that ends a value. The value has one character at least.
def afterQuote : List Char → Option (List Char)
  | [] => none
  | c :: rest =>
    match rest.dropWhile fun d => isQuotable d && d != '"' with
    | '"' :: after => if isQuotable c then some after else none
    | _ => none

-- What follows a value of a parameter: nothing, or a semicolon.
def afterValue : List Char → Option (List Char)
  | '"' :: quoted => do
    match (← afterQuote quoted).dropWhile (· == ' ') with
    | [] => some []
    | ';' :: rest => some rest
    | _ => none
  | text =>
    match text.dropWhile isToken with
    | [] => some []
    | ';' :: rest => if (text.takeWhile isToken).isEmpty then none else some rest
    | _ => none

def afterName (text : List Char) : Option (List Char) :=
  match text.dropWhile isToken with
  | '=' :: value => if (text.takeWhile isToken).isEmpty then none else some value
  | _ => none

-- Names and values, with semicolons between them. As many steps as there are characters
-- are enough.
def areParameters : Nat → List Char → Bool
  | 0, text => text.isEmpty
  | steps + 1, text =>
    match text.dropWhile (· == ' ') with
    | [] => true
    | named =>
      match (afterName named).bind afterValue with
      | some rest => areParameters steps rest
      | none => false

def splitSuffix (subtype : List Char) : List Char × Option (List Char) :=
  if subtype.tail.contains '+' then
    let back := subtype.reverse
    (((back.dropWhile (· != '+')).drop 1).reverse, some (back.takeWhile (· != '+')).reverse)
  else (subtype, none)

def read (text : List Char) : Option MediaType := do
  let type := text.takeWhile isToken
  let '/' :: rest := text.dropWhile isToken | none
  let subtype := rest.takeWhile isToken
  if type.isEmpty then none
  match rest.dropWhile isToken with
  | [] => pure ()
  | ';' :: parameters =>
    if subtype.isEmpty || !areParameters (parameters.length + 1) parameters then none
  | _ => none
  let (base, suffix) := splitSuffix subtype
  let small (s : List Char) : String := lowered (String.ofList s)
  return { type := small type, subtype := small base, suffix := suffix.map small }

def isJson (media : MediaType) : Bool :=
  media.type == "application" && (media.subtype == "json" || media.suffix == some "json")

end MediaType

end RequestGuard
