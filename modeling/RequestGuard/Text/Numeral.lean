namespace RequestGuard

namespace Numeral

def digitOf (n : Nat) : Char :=
  Char.ofNat (48 + n)

-- Decimal digits, most significant first, without leading zeros.
def digits (n : Nat) : List Char :=
  if n < 10 then [digitOf n] else digits (n / 10) ++ [digitOf (n % 10)]
termination_by n

def value : List Char → Nat :=
  List.foldl (fun total c => total * 10 + (c.toNat - 48)) 0

def maxWord : Nat := 0xFFFFFFFFFFFFFFFF

-- A word of 64 bits: decimal digits after an optional plus sign.
def readWord (text : List Char) : Option Nat :=
  let unsigned := match text with
    | '+' :: rest => rest
    | _ => text
  if unsigned.isEmpty || !unsigned.all Char.isDigit then none
  else if value unsigned ≤ maxWord then some (value unsigned) else none

end Numeral

def decimal (n : Nat) : String :=
  String.ofList (Numeral.digits n)

def readWord (s : String) : Option Nat :=
  Numeral.readWord s.toList

namespace Text

def hexDigit (n : Nat) : Char :=
  Char.ofNat (if n < 10 then 48 + n else 87 + n)

-- Hexadecimal digits in small letters, without leading zeros.
def hexDigits (n : Nat) : List Char :=
  if n < 16 then [hexDigit n] else hexDigits (n / 16) ++ [hexDigit (n % 16)]
termination_by n

end Text

end RequestGuard
