import RequestGuard.Text.Character

namespace RequestGuard

def splitOn (separator : Char) : List Char → List (List Char)
  | [] => [[]]
  | c :: rest =>
    if c == separator then [] :: splitOn separator rest
    else
      match splitOn separator rest with
      | [] => [[c]]
      | piece :: pieces => (c :: piece) :: pieces

-- The entries of a comma-separated list, without the blanks around them. Empty entries
-- do not count.
def entries (value : String) : List String :=
  ((splitOn ',' value.toList).map Text.trim).filter (!·.isEmpty) |>.map String.ofList

def insertSorted (s : String) : List String → List String
  | [] => [s]
  | t :: rest =>
    if s < t then s :: t :: rest
    else if s = t then t :: rest
    else t :: insertSorted s rest

-- The strings in ascending order, each once.
def setOf (strings : List String) : List String :=
  strings.foldl (fun set s => insertSorted s set) []

end RequestGuard
