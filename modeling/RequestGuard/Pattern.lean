import RequestGuard.Text.Character

namespace RequestGuard

-- A set of characters.
inductive CharSet where
  | exactly (c : Char)
  | folded (c : Char)
  | letter
  | digit
  | blank
  | word
  | either (a b : CharSet)
  | except (a : CharSet)
deriving DecidableEq, Repr

-- Letters are taken up to simple case folding, so `folded` and `letter` hold the long s and
-- the Kelvin sign too.
def CharSet.has : CharSet → Char → Bool
  | exactly d, c => c == d
  | folded d, c => Text.fold c == d
  | letter, c => (Text.fold c).isLower
  | digit, c => c.isDigit
  | blank, c => Text.isBlank c
  | word, c => Text.isWord c
  | either a b, c => a.has c || b.has c
  | except a, c => !a.has c

def CharSet.anyOf : List Char → CharSet
  | [] => .except (.either (.exactly ' ') (.except (.exactly ' ')))
  | [c] => .exactly c
  | c :: rest => .either (.exactly c) (anyOf rest)

-- A language of texts in context: `edge` looks at the characters on both sides.
inductive Pattern where
  | never
  | nothing
  | edge
  | one (set : CharSet)
  | seq (first second : Pattern)
  | or (left right : Pattern)
  | star (body : Pattern)
deriving DecidableEq, Repr

namespace Pattern

def isWordAt : Option Char → Bool
  | none => false
  | some c => Text.isWord c

-- A place where a word begins or ends.
def isEdge (before after : Option Char) : Bool :=
  isWordAt before != isWordAt after

-- The character before the rest of a text, of which `middle` comes first.
def lastOr (before : Option Char) (middle : List Char) : Option Char :=
  middle.getLast?.or before

def firstOr (middle : List Char) (after : Option Char) : Option Char :=
  middle.head?.or after

-- Which texts a pattern matches between a character before and a character after them.
inductive Matches : Pattern → Option Char → List Char → Option Char → Prop where
  | nothing {before after} : Matches .nothing before [] after
  | edge {before after} (h : isEdge before after = true) : Matches .edge before [] after
  | one {set c before after} (h : set.has c = true) : Matches (.one set) before [c] after
  | seq {p q before u v after} (hp : Matches p before u (firstOr v after))
      (hq : Matches q (lastOr before u) v after) : Matches (.seq p q) before (u ++ v) after
  | left {p q before u after} (h : Matches p before u after) : Matches (.or p q) before u after
  | right {p q before u after} (h : Matches q before u after) : Matches (.or p q) before u after
  | done {p before after} : Matches (.star p) before [] after
  | more {p before c u v after} (hp : Matches p before (c :: u) (firstOr v after))
      (hs : Matches (.star p) (lastOr before (c :: u)) v after) :
      Matches (.star p) before (c :: u ++ v) after

-- Whether a pattern matches the empty text between two characters.
def accepts (before after : Option Char) : Pattern → Bool
  | never => false
  | nothing => true
  | edge => isEdge before after
  | one _ => false
  | seq p q => p.accepts before after && q.accepts before after
  | or p q => p.accepts before after || q.accepts before after
  | star _ => true

-- What is left to match once the next character has been taken, as a choice.
def next (before : Option Char) (c : Char) : Pattern → List Pattern
  | never => []
  | nothing => []
  | edge => []
  | one set => if set.has c then [nothing] else []
  | seq p q =>
    (p.next before c).map (fun r => if r = nothing then q else seq r q) ++
      (if p.accepts before (some c) then q.next before c else [])
  | or p q => p.next before c ++ q.next before c
  | star p => (p.next before c).map fun r => if r = nothing then star p else seq r (star p)

def advance (before : Option Char) (c : Char) (choices : List Pattern) : List Pattern :=
  (choices.flatMap (next before c)).eraseDups

-- Follows every match that is under way, and begins a new one at every character.
def search (p : Pattern) : Option Char → List Pattern → List Char → Bool
  | before, choices, [] => (p :: choices).any (·.accepts before none)
  | before, choices, c :: rest =>
    (p :: choices).any (·.accepts before (some c)) ||
      search p (some c) (advance before c (p :: choices)) rest

-- Whether some part of a text matches.
def occursIn (p : Pattern) (text : List Char) : Bool :=
  p.search none [] text

def ofList : List Pattern → Pattern
  | [] => nothing
  | [p] => p
  | p :: rest => seq p (ofList rest)

def oneOf : List Pattern → Pattern
  | [] => never
  | [p] => p
  | p :: rest => or p (oneOf rest)

-- A word in small letters, in any case.
def keyword (s : String) : Pattern :=
  ofList (s.toList.map fun c => one (.folded c))

def char (c : Char) : Pattern :=
  one (.exactly c)

def optional (p : Pattern) : Pattern :=
  or p nothing

def plus (p : Pattern) : Pattern :=
  seq p (star p)

def blanks : Pattern :=
  star (one .blank)

def gap : Pattern :=
  plus (one .blank)

def wordChars : Pattern :=
  plus (one .word)

end Pattern

end RequestGuard
