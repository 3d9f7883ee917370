import RequestGuard.Json.Binary64
import RequestGuard.Text.Numeral

namespace RequestGuard.Binary64

-- Whether the integer a is below b * 10 ^ k, all over 1.
def belowPower (a b : Nat) (k : Int) : Bool :=
  a * Nat.pow 10 (-k).toNat < b * Nat.pow 10 k.toNat

-- The decimal exponent of the first digit of num / den.
def decimalExponent (num den : Nat) : Int :=
  let guess : Int := ((Nat.log2 num : Int) - Nat.log2 den) * 30103 / 100000
  if belowPower num den (guess - 1) then guess - 2
  else if belowPower num den guess then guess - 1
  else if belowPower num den (guess + 1) then guess
  else guess + 1

-- The numbers that round to a given one, in quarters of its last place: the middle and the
-- two ends, which belong to it when the mantissa is even.
structure Interval where
  low : Nat
  middle : Nat
  high : Nat
  closed : Bool
  exponent : Int

def interval (x : Binary64) : Interval where
  low := if x.mantissa = leadingBit && leastExponent < x.exponent then 4 * x.mantissa - 1
    else 4 * x.mantissa - 2
  middle := 4 * x.mantissa
  high := 4 * x.mantissa + 2
  closed := x.mantissa % 2 == 0
  exponent := x.exponent - 2

def Interval.holds (i : Interval) (c : Nat) (k : Int) : Bool :=
  let left := c * Nat.pow 10 k.toNat * Nat.pow 2 (-i.exponent).toNat
  let scale := Nat.pow 10 (-k).toNat * Nat.pow 2 i.exponent.toNat
  if i.closed then i.low * scale ≤ left && left ≤ i.high * scale
  else i.low * scale < left && left < i.high * scale

-- The multiple of 10 ^ k in the interval, the one nearer to the middle if both neighbours
-- of the middle are, and the even one if they are as near.
def Interval.onGrid (i : Interval) (k : Int) : Option Nat :=
  let num := i.middle * Nat.pow 10 (-k).toNat * Nat.pow 2 i.exponent.toNat
  let den := Nat.pow 10 k.toNat * Nat.pow 2 (-i.exponent).toNat
  let below := num / den
  match i.holds below k, i.holds (below + 1) k with
  | true, true => some (roundDiv num den)
  | true, false => some below
  | false, true => some (below + 1)
  | false, false => none

def firstGrid (i : Interval) (top : Int) : Nat → Nat → Nat × Int
  | 0, places => ((i.onGrid (top - places)).getD 0, top - places)
  | more + 1, places =>
    match i.onGrid (top - places) with
    | some c => (c, top - places)
    | none => firstGrid i top more (places + 1)

-- The fewest digits that read back as the number, and the decimal exponent of the first.
def shortest (x : Binary64) : List Char × Int :=
  let (num, den) := x.fraction
  let (c, k) := firstGrid x.interval (decimalExponent num den) 16 0
  let digits := Numeral.digits c
  (((digits.reverse.dropWhile (· == '0')).reverse), k + digits.length - 1)

-- Exponents from -5 to 15 are written positionally, with a zero after the point of a whole
-- number; a written exponent always has its sign.
def written (x : Binary64) : String :=
  let (digits, e) := if x.isZero then (['0'], 0) else x.shortest
  let unsigned :=
    if e < -5 || 15 < e then
      let point := if digits.length ≤ 1 then [] else ['.'] ++ digits.tail
      digits.take 1 ++ point ++ ['e', if e < 0 then '-' else '+'] ++ Numeral.digits e.natAbs
    else if e < 0 then
      ['0', '.'] ++ List.replicate (e.natAbs - 1) '0' ++ digits
    else
      let whole := digits.take (e.toNat + 1)
      let part := digits.drop (e.toNat + 1)
      whole ++ List.replicate (e.toNat + 1 - whole.length) '0' ++ ['.'] ++
        (if part.isEmpty then ['0'] else part)
  String.ofList (if x.negative then '-' :: unsigned else unsigned)

end RequestGuard.Binary64
