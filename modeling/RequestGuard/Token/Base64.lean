import RequestGuard.Text.Numeral
import RequestGuard.Text.Utf8

namespace RequestGuard.Base64

-- The alphabet that is safe in addresses; nothing is added to fill up the last group.
def letter (n : Nat) : Char :=
  if n < 26 then Char.ofNat (65 + n)
  else if n < 52 then Char.ofNat (71 + n)
  else if n < 62 then Char.ofNat (n - 4)
  else if n = 62 then '-'
  else '_'

def value (b : UInt8) : Option Nat :=
  if 0x41 ≤ b && b ≤ 0x5A then some (b.toNat - 65)
  else if 0x61 ≤ b && b ≤ 0x7A then some (b.toNat - 71)
  else if 0x30 ≤ b && b ≤ 0x39 then some (b.toNat + 4)
  else if b = 0x2D then some 62
  else if b = 0x5F then some 63
  else none

-- Three bytes make four letters; one or two bytes at the end make two or three.
def encode : Bytes → List Char
  | [] => []
  | [a] => [letter (a.toNat / 4), letter (a.toNat % 4 * 16)]
  | [a, b] =>
    [letter (a.toNat / 4), letter (a.toNat % 4 * 16 + b.toNat / 16), letter (b.toNat % 16 * 4)]
  | a :: b :: c :: rest =>
    letter (a.toNat / 4) :: letter (a.toNat % 4 * 16 + b.toNat / 16) ::
      letter (b.toNat % 16 * 4 + c.toNat / 64) :: letter (c.toNat % 64) :: encode rest

inductive Fault where
  | symbol (byte : UInt8) (offset : Nat)
  | length (n : Nat)
  | lastSymbol (byte : UInt8) (offset : Nat)
  | padding

def Fault.message : Fault → String
  | symbol byte offset =>
    "Invalid symbol " ++ decimal byte.toNat ++ ", offset " ++ decimal offset ++ "."
  | length n => "Invalid input length: " ++ decimal n
  | lastSymbol byte offset =>
    "Invalid last symbol " ++ decimal byte.toNat ++ ", offset " ++ decimal offset ++ "."
  | padding => "Invalid padding"

def isPad (b : UInt8) : Bool :=
  b == 0x3D

def readLetters (offset : Nat) : Bytes → Except Fault (List Nat)
  | [] => .ok []
  | b :: rest =>
    match value b with
    | none => .error (.symbol b offset)
    | some n => (readLetters (offset + 1) rest).map (n :: ·)

-- The last group may be short. Fill characters are told apart from wrong ones if two letters
-- come before them and none after; `pad` is the offset of the first.
def readLast (start index : Nat) (pad : Option Nat) : Bytes → Except Fault (List Nat × Bool)
  | [] => .ok ([], pad.isSome)
  | b :: rest =>
    if isPad b then
      if index < 2 then .error (.symbol b (start + index))
      else readLast start (index + 1) (pad.or (some (start + index))) rest
    else
      match pad, value b with
      | some offset, _ => .error (.symbol 0x3D offset)
      | none, none => .error (.symbol b (start + index))
      | none, some n =>
        (readLast start (index + 1) none rest).map fun (letters, padded) => (n :: letters, padded)

def groups : List Nat → Bytes
  | a :: b :: c :: d :: rest =>
    UInt8.ofNat (a * 4 + b / 16) :: UInt8.ofNat (b % 16 * 16 + c / 4) ::
      UInt8.ofNat (c % 4 * 64 + d) :: groups rest
  | [a, b, c] => [UInt8.ofNat (a * 4 + b / 16), UInt8.ofNat (b % 16 * 16 + c / 4)]
  | [a, b] => [UInt8.ofNat (a * 4 + b / 16)]
  | _ => []

-- The bits of the last letter that belong to no byte.
def spare : List Nat → Nat
  | [_, _, c] => c % 4
  | [_, b] => b % 16
  | _ => 0

def lastGroupLength (n : Nat) : Nat :=
  if n % 4 = 0 then min n 4 else n % 4

-- Reads what `encode` writes and nothing else. A wrong character at the end of a text that
-- is one too long is told before all others.
def decode (text : Bytes) : Except Fault Bytes := do
  let start := text.length - lastGroupLength text.length
  match text.getLast? with
  | some b =>
    if text.length % 4 = 1 && !isPad b && (value b).isNone then
      throw (.symbol b (text.length - 1))
  | none => pure ()
  let whole ← readLetters 0 (text.take start)
  let (last, padded) ← readLast start 0 none (text.drop start)
  if text ≠ [] && last.length < 2 then throw (.length (start + last.length))
  if padded then throw .padding
  if spare last ≠ 0 then
    throw (.lastSymbol ((text[start + last.length - 1]?).getD 0) (start + last.length - 1))
  return groups (whole ++ last)

end Base64

end RequestGuard
