import RequestGuard.Text.Listing
import RequestGuard.Text.Numeral

namespace RequestGuard.Console

-- Why a command line is not carried out.
inductive Misuse where
  | helpWanted
  | versionWanted
  | nothingGiven
  | unknownCommand
  | unknownArgument
  | missingArgument
  | missingValue
  | badValue
  | needlessValue
  | repeated
deriving DecidableEq

def Misuse.message : Misuse → String
  | .helpWanted => "Usage: admin <token|rate|store> <command>"
  | .versionWanted => "admin 0.1.0"
  | .nothingGiven => "error: a command is needed"
  | .unknownCommand => "error: unrecognized subcommand"
  | .unknownArgument => "error: unexpected argument found"
  | .missingArgument => "error: a required argument was not provided"
  | .missingValue => "error: a value is required but none was supplied"
  | .badValue => "error: invalid value"
  | .needlessValue => "error: unexpected value found"
  | .repeated => "error: the argument cannot be used multiple times"

inductive OptionKind where
  | switch
  | text
  | word
  | help
  | version
deriving DecidableEq

-- An option has a long name, and perhaps a letter.
structure OptionForm where
  name : String
  letter : Option Char := none
  kind : OptionKind := .switch
  isRequired : Bool := false
deriving DecidableEq

def helpOption : OptionForm :=
  { name := "help", letter := some 'h', kind := .help }

def versionOption : OptionForm :=
  { name := "version", letter := some 'V', kind := .version }

-- The options that a command takes, and how many operands it needs.
structure CommandForm where
  options : List OptionForm := []
  operands : Nat := 0

def CommandForm.all (form : CommandForm) : List OptionForm :=
  form.options ++ [helpOption]

-- What has been read of a command line. The last option may still wait for its value, and
-- its value is looked at only when it is clear that nothing else comes.
structure Given where
  values : List (String × Option String) := []
  operands : List String := []
  pending : Option (OptionForm × Option String) := none

namespace Given

def value? (given : Given) (name : String) : Option String :=
  (given.values.lookup name).join

def has (given : Given) (name : String) : Bool :=
  (given.values.lookup name).isSome

def word? (given : Given) (name : String) : Option Nat :=
  (given.value? name).bind readWord

-- An option may be given once.
def add (given : Given) (option : OptionForm) (value : Option String) : Except Misuse Given :=
  if given.has option.name then .error .repeated
  else if option.kind = .word && ((value.bind readWord).isNone) then .error .badValue
  else .ok { given with values := given.values ++ [(option.name, value)] }

def settle (given : Given) : Except Misuse Given :=
  match given.pending with
  | none => .ok given
  | some (_, none) => .error .missingValue
  | some (option, some value) => { given with pending := none }.add option (some value)

def take (given : Given) (option : OptionForm) (value : Option String) : Except Misuse Given := do
  (← given.settle).add option value

def await (given : Given) (option : OptionForm) : Except Misuse Given := do
  return { ← given.settle with pending := some (option, none) }

-- An option that takes no value.
def switch (given : Given) (option : OptionForm) : Except Misuse Given := do
  let settled ← given.settle
  match option.kind with
  | .help => throw .helpWanted
  | .version => throw .versionWanted
  | _ => settled.add option none

def operand (given : Given) (form : CommandForm) (value : String) : Except Misuse Given :=
  if given.operands.length < form.operands then do
    let settled ← given.settle
    return { settled with operands := settled.operands ++ [value] }
  else .error .unknownArgument

end Given

def takesValue (option : OptionForm) : Bool :=
  option.kind = .text || option.kind = .word

-- An option with its long name; a value may follow an equals sign.
def readLong (options : List OptionForm) (text : List Char) (given : Given) :
    Except Misuse Given :=
  let name := String.ofList (text.takeWhile (· != '='))
  let attached := if text.contains '=' then
      some (String.ofList ((text.dropWhile (· != '=')).drop 1)) else none
  match options.find? (·.name == name) with
  | none => .error .unknownArgument
  | some option =>
    match takesValue option, attached with
    | true, some value => given.take option (some value)
    | true, none => given.await option
    | false, some _ => .error .needlessValue
    | false, none => given.switch option

-- Letters of options in a row. What follows the letter of one that takes a value is the
-- value.
def readLetters (options : List OptionForm) : List Char → Given → Except Misuse Given
  | [], given => .ok given
  | letter :: rest, given =>
    match options.find? (·.letter == some letter) with
    | none => .error .unknownArgument
    | some option =>
      if takesValue option then
        match rest with
        | [] => given.await option
        | '=' :: value => given.take option (some (String.ofList value))
        | value => given.take option (some (String.ofList value))
      else (given.switch option).bind (readLetters options rest)

-- Two hyphens alone end the options.
def readArguments (form : CommandForm) : List String → Given → Except Misuse Given
  | [], given => given.settle
  | argument :: rest, given =>
    match argument.toList with
    | ['-', '-'] => rest.foldlM (Given.operand · form ·) given >>= Given.settle
    | '-' :: '-' :: name => (readLong form.all name given).bind (readArguments form rest)
    | '-' :: letter :: letters =>
      (readLetters form.all (letter :: letters) given).bind (readArguments form rest)
    | _ =>
      match given.pending with
      | some (option, none) =>
        readArguments form rest { given with pending := some (option, some argument) }
      | _ => (given.operand form argument).bind (readArguments form rest)

def isComplete (form : CommandForm) (given : Given) : Bool :=
  given.operands.length == form.operands &&
    (form.options.filter (·.isRequired)).all fun option => given.has option.name

def CommandForm.read (form : CommandForm) (arguments : List String) : Except Misuse Given := do
  let given ← readArguments form arguments {}
  if isComplete form given then return given else throw .missingArgument

end RequestGuard.Console
