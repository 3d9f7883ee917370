import RequestGuard.Console.Arguments

namespace RequestGuard.Console

-- What the operators can do. A credential is named by the token itself or by its id.
inductive Command where
  | revoke (credential : String) (lifetime : Option Nat) (isSure : Bool)
  | restore (credential : String)
  | status (credential : String)
  | mint (subject : String) (lifetime : Nat) (withId : Bool)
  | usage (identity : String)
  | reset (identity : String)
  | checkStore
deriving DecidableEq

namespace Command

def oneOperand : CommandForm :=
  { operands := 1 }

def first (given : Given) : String :=
  given.operands.headD ""

def revokeForm : CommandForm where
  options := [{ name := "ttl", kind := .word }, { name := "yes", letter := some 'y' }]
  operands := 1

def mintForm : CommandForm where
  options := [{ name := "sub", letter := some 's', kind := .text, isRequired := true },
    { name := "ttl", kind := .word }, { name := "jti" }]

def defaultLifetime : Nat := 3600

-- The commands come in groups.
structure Leaf where
  name : String
  form : CommandForm
  command : Given → Command

def tokenLeaves : List Leaf := [
  ⟨"revoke", revokeForm, fun g => .revoke (first g) (g.word? "ttl") (g.has "yes")⟩,
  ⟨"restore", oneOperand, fun g => .restore (first g)⟩,
  ⟨"status", oneOperand, fun g => .status (first g)⟩,
  ⟨"mint", mintForm, fun g =>
    .mint ((g.value? "sub").getD "") ((g.word? "ttl").getD defaultLifetime) (g.has "jti")⟩]

def rateLeaves : List Leaf := [
  ⟨"usage", oneOperand, fun g => .usage (first g)⟩,
  ⟨"reset", oneOperand, fun g => .reset (first g)⟩]

def storeLeaves : List Leaf :=
  [⟨"check", {}, fun _ => .checkStore⟩]

def groups : List (String × List Leaf) :=
  [("token", tokenLeaves), ("rate", rateLeaves), ("store", storeLeaves)]

-- Where the name of a command is expected, only the options for help may come before it.
-- Behind two hyphens no name is looked for.
def choose (names : List String) (options : List OptionForm) (arguments : List String) :
    Except Misuse (String × List String) :=
  match arguments with
  | [] => .error .nothingGiven
  | argument :: rest =>
    if (names ++ ["help"]).contains argument then .ok (argument, rest)
    else
      match argument.toList with
      | ['-', '-'] =>
        match rest with
        | [] => .error .nothingGiven
        | name :: _ =>
          .error (if (names ++ ["help"]).contains name then .unknownArgument else .unknownCommand)
      | '-' :: '-' :: name =>
        (readLong options name {}).bind fun _ => .error .unknownArgument
      | '-' :: letter :: letters =>
        (readLetters options (letter :: letters) {}).bind fun _ => .error .unknownArgument
      | _ => .error .unknownCommand

-- Help may be wanted for a command below.
def helpFor (names : List String) (below : String → List String) : List String → Misuse
  | [] => .helpWanted
  | name :: rest =>
    if name = "help" then (if rest.isEmpty then .helpWanted else .unknownCommand)
    else if names.contains name then
      match rest with
      | [] => .helpWanted
      | inner :: more =>
        if (below name).contains inner && more.isEmpty then .helpWanted
        else if inner = "help" && !(below name).isEmpty && more.isEmpty then .helpWanted
        else .unknownCommand
    else .unknownCommand

def leafNames (group : String) : List String :=
  ((groups.lookup group).getD []).map (·.name)

def readLeaf (leaves : List Leaf) (arguments : List String) : Except Misuse Command := do
  let names := leaves.map (·.name)
  let (name, rest) ← choose names [helpOption] arguments
  if name = "help" then throw (helpFor names (fun _ => []) rest)
  let some leaf := leaves.find? (·.name == name) | throw .unknownCommand
  return leaf.command (← leaf.form.read rest)

-- Reads the words of a command line.
def read (arguments : List String) : Except Misuse Command := do
  let names := groups.map Prod.fst
  let (name, rest) ← choose names [helpOption, versionOption] arguments
  if name = "help" then throw (helpFor names leafNames rest)
  readLeaf ((groups.lookup name).getD []) rest

end Command

end RequestGuard.Console
