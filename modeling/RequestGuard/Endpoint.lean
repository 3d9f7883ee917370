import RequestGuard.Text.Listing

namespace RequestGuard.Endpoint

def isNumber (segment : List Char) : Bool :=
  !segment.isEmpty && segment.all Char.isDigit

-- Five groups of hexadecimal digits of these lengths, with hyphens between them.
def isUnique (segment : List Char) : Bool :=
  let groups := splitOn '-' segment
  groups.map List.length == [8, 4, 4, 4, 12] && groups.all (·.all Text.isHexDigit)

def isVersion : List Char → Bool
  | 'v' :: digits => !digits.isEmpty && digits.all Text.isDecimalDigit
  | _ => false

def placeholder : List Char :=
  ['\x7b', 'i', 'd', '\x7d']

-- What a path asks for, whichever thing of its kind that is.
def ofPath (path : String) : String :=
  let segments := (splitOn '/' path.toList).map fun segment =>
    if isNumber segment || isUnique segment then placeholder else segment
  String.ofList (['/'].intercalate segments)

-- The version of the interface that a path asks for.
def version? (path : String) : Option String :=
  ((splitOn '/' path.toList).find? isVersion).map String.ofList

end RequestGuard.Endpoint
