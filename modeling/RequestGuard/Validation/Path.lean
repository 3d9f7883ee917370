import RequestGuard.Text.Numeral

namespace RequestGuard.Path

-- The name of the whole body, whose own path is empty.
def root : String :=
  "body"

def display (path : String) : String :=
  if path = "" then root else path

def key (parent name : String) : String :=
  if parent = "" then name else parent ++ "." ++ name

def index (parent : String) (n : Nat) : String :=
  display parent ++ "[" ++ decimal n ++ "]"

-- A key itself is told by its parent only, so that it is never shown.
def keyOf (parent : String) : String :=
  display parent ++ "#key"

def query (name : String) : String :=
  "query." ++ name

end RequestGuard.Path
