import RequestGuard.Text.DigitRanges
import RequestGuard.Text.WordRanges

namespace RequestGuard.Text

-- The ranges are ascending, so the search ends at the first one that starts too late.
def covers : List (Nat × Nat) → Nat → Bool
  | [], _ => false
  | (low, high) :: rest, n => low ≤ n && (n ≤ high || covers rest n)

-- White_Space. The information separators U+001C to U+001F, the zero width space and
-- the byte order mark are not in it.
def isBlank (c : Char) : Bool :=
  let n := c.toNat
  (0x9 ≤ n && n ≤ 0xD) || n == 0x20 || n == 0x85 || n == 0xA0 || n == 0x1680 ||
    (0x2000 ≤ n && n ≤ 0x200A) || n == 0x2028 || n == 0x2029 || n == 0x202F ||
    n == 0x205F || n == 0x3000

def isWord (c : Char) : Bool :=
  c.isAlphanum || c == '_' || covers wordRanges c.toNat

def isDecimalDigit (c : Char) : Bool :=
  c.isDigit || covers digitRanges c.toNat

def isHexDigit (c : Char) : Bool :=
  c.isDigit || ('a' ≤ c && c ≤ 'f') || ('A' ≤ c && c ≤ 'F')

-- Simple case folding, as far as it reaches an ASCII letter: beside the capitals only the
-- long s and the Kelvin sign do.
def fold (c : Char) : Char :=
  if c == '\u017F' then 's' else if c == '\u212A' then 'k' else c.toLower

def trim (text : List Char) : List Char :=
  ((text.dropWhile isBlank).reverse.dropWhile isBlank).reverse

end RequestGuard.Text

namespace RequestGuard

def trimmed (s : String) : String :=
  String.ofList (Text.trim s.toList)

-- Lower case for ASCII letters, everything else unchanged.
def lowered (s : String) : String :=
  String.ofList (s.toList.map Char.toLower)

def joined (separator : String) (parts : List String) : String :=
  separator.intercalate parts

end RequestGuard
