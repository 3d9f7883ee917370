import RequestGuard.Text.Utf8

namespace RequestGuard.Form

-- The pieces between the separators, one more than there are separators.
def splitAt (separator : UInt8) : Bytes → List Bytes
  | [] => [[]]
  | b :: rest =>
    if b == separator then [] :: splitAt separator rest
    else
      match splitAt separator rest with
      | [] => [[b]]
      | piece :: pieces => (b :: piece) :: pieces

def nibble (b : UInt8) : Option Nat :=
  if 0x30 ≤ b && b ≤ 0x39 then some (b.toNat - 48)
  else if 0x61 ≤ b && b ≤ 0x66 then some (b.toNat - 87)
  else if 0x41 ≤ b && b ≤ 0x46 then some (b.toNat - 55)
  else none

-- A percent sign that two hexadecimal digits do not follow stands for itself.
def unescape : Bytes → Bytes
  | [] => []
  | 0x2B :: rest => 0x20 :: unescape rest
  | 0x25 :: h :: l :: rest =>
    match nibble h, nibble l with
    | some a, some b => UInt8.ofNat (a * 16 + b) :: unescape rest
    | _, _ => 0x25 :: unescape (h :: l :: rest)
  | b :: rest => b :: unescape rest
termination_by bytes => bytes.length

def readName (bytes : Bytes) : String :=
  Utf8.decodeLossy (unescape bytes)

-- The name ends at the first equals sign; without one the value is empty.
def readPair (piece : Bytes) : String × String :=
  (readName (piece.takeWhile (· != 0x3D)), readName ((piece.dropWhile (· != 0x3D)).drop 1))

-- Every pair in turn, repeated names included. Empty pieces stand for nothing.
def read (text : Bytes) : List (String × String) :=
  ((splitAt 0x26 text).filter (!·.isEmpty)).map readPair

def isPlain (b : UInt8) : Bool :=
  (0x30 ≤ b && b ≤ 0x39) || (0x41 ≤ b && b ≤ 0x5A) || (0x61 ≤ b && b ≤ 0x7A) ||
    b == 0x2A || b == 0x2D || b == 0x2E || b == 0x5F

def upperHex (n : Nat) : UInt8 :=
  UInt8.ofNat (if n < 10 then 48 + n else 55 + n)

def escapeByte (b : UInt8) : Bytes :=
  if isPlain b then [b]
  else if b == 0x20 then [0x2B]
  else [0x25, upperHex (b.toNat / 16), upperHex (b.toNat % 16)]

def escape (s : String) : Bytes :=
  (bytesOf s).flatMap escapeByte

def writePair (pair : String × String) : Bytes :=
  escape pair.1 ++ 0x3D :: escape pair.2

def write (pairs : List (String × String)) : Bytes :=
  [0x26].intercalate (pairs.map writePair)

end RequestGuard.Form
