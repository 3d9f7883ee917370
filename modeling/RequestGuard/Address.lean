import RequestGuard.Text.Character
import RequestGuard.Text.Numeral

namespace RequestGuard

abbrev Octet := Fin 256

abbrev Group := Fin 65536

-- An address of the internet: four octets, or eight groups of sixteen bits.
inductive Address where
  | v4 (a b c d : Octet)
  | v6 (groups : List Group) (length_eq : groups.length = 8)
deriving DecidableEq

namespace Address

-- One to three decimal digits without leading zeros.
def readOctet (text : List Char) : Option (Octet × List Char) :=
  let digits := text.takeWhile Char.isDigit
  let isPadded := 1 < digits.length && digits.head? == some '0'
  if digits.isEmpty || 3 < digits.length || isPadded then none
  else if h : Numeral.value digits < 256 then
    some (⟨Numeral.value digits, h⟩, text.dropWhile Char.isDigit)
  else none

def readMark (mark : Char) : List Char → Option (List Char)
  | [] => none
  | c :: rest => if c == mark then some rest else none

def readOctets (text : List Char) : Option ((Octet × Octet × Octet × Octet) × List Char) := do
  let (a, rest) ← readOctet text
  let (b, rest) ← readOctet (← readMark '.' rest)
  let (c, rest) ← readOctet (← readMark '.' rest)
  let (d, rest) ← readOctet (← readMark '.' rest)
  return ((a, b, c, d), rest)

def hexValue (c : Char) : Nat :=
  if c.isDigit then c.toNat - 48 else c.toLower.toNat - 87

-- One to four hexadecimal digits.
def readGroup (text : List Char) : Option (Group × List Char) :=
  let digits := text.takeWhile Text.isHexDigit
  let value := digits.foldl (fun total c => total * 16 + hexValue c) 0
  if digits.isEmpty || 4 < digits.length then none
  else if h : value < 65536 then some (⟨value, h⟩, text.dropWhile Text.isHexDigit)
  else none

def pair (high low : Octet) : Group :=
  ⟨high * 256 + low, by omega⟩

-- A colon separates a group from the one before it.
def separated (first : Bool) (text : List Char) : Option (List Char) :=
  if first then some text else readMark ':' text

-- At most so many groups. Four octets may stand for the last two of them, and then no
-- further group follows, which the flag tells.
def readGroups : Nat → Bool → List Char → List Group × Bool × List Char
  | 0, _, text => ([], false, text)
  | room + 1, first, text =>
    let octets := if room = 0 then none else (separated first text).bind readOctets
    match octets with
    | some ((a, b, c, d), rest) => ([pair a b, pair c d], true, rest)
    | none =>
      match (separated first text).bind readGroup with
      | none => ([], false, text)
      | some (group, rest) =>
        let (groups, ended, rest) := readGroups room false rest
        (group :: groups, ended, rest)

def ofGroups (groups : List Group) : Option Address :=
  if h : groups.length = 8 then some (v6 groups h) else none

-- Two colons stand for the groups that are missing, one at least.
def readLong (text : List Char) : Option (Address × List Char) :=
  let (head, ended, rest) := readGroups 8 true text
  if head.length = 8 then (ofGroups head).map (·, rest)
  else if ended then none
  else do
    let rest ← readMark ':' (← readMark ':' rest)
    let (tail, _, rest) := readGroups (7 - head.length) true rest
    let zeros := List.replicate (8 - head.length - tail.length) 0
    return (← ofGroups (head ++ zeros ++ tail), rest)

def readPrefix (text : List Char) : Option (Address × List Char) :=
  match readOctets text with
  | some ((a, b, c, d), rest) => some (v4 a b c d, rest)
  | none => readLong text

-- Reads an address that is the whole of a text.
def read (text : List Char) : Option Address :=
  match readPrefix text with
  | some (address, []) => some address
  | _ => none

def ofText (s : String) : Option Address :=
  read s.toList

def octets (a b c d : Octet) : List Char :=
  Numeral.digits a ++ '.' :: Numeral.digits b ++ '.' :: Numeral.digits c ++ '.' :: Numeral.digits d

def zeroRun (groups : List Group) : Nat :=
  (groups.takeWhile (· == 0)).length

-- The start and the length of the longest run of zeros, of the first one if several are the
-- longest.
def longestRun : Nat → List Group → Nat × Nat
  | _, [] => (0, 0)
  | start, group :: rest =>
    let here := zeroRun (group :: rest)
    let later := longestRun (start + 1) rest
    if later.2 ≤ here then (start, here) else later

def writeGroups (groups : List Group) : List Char :=
  [':'].intercalate (groups.map fun group : Group => Text.hexDigits group.val)

-- Only octets that are mapped into the long form are written as octets in it.
def writeLong (groups : List Group) : List Char :=
  match groups with
  | [0, 0, 0, 0, 0, ⟨65535, _⟩, high, low] =>
    "::ffff:".toList ++ octets ⟨high / 256, by omega⟩ ⟨high % 256, by omega⟩
      ⟨low / 256, by omega⟩ ⟨low % 256, by omega⟩
  | _ =>
    let (start, length) := longestRun 0 groups
    if 1 < length then
      writeGroups (groups.take start) ++ ':' :: ':' :: writeGroups (groups.drop (start + length))
    else writeGroups groups

-- The canonical text: small letters, no leading zeros, the longest run of at least two zero
-- groups left out.
def write : Address → List Char
  | v4 a b c d => octets a b c d
  | v6 groups _ => writeLong groups

def text (address : Address) : String :=
  String.ofList address.write

end Address

end RequestGuard
