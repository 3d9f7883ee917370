namespace RequestGuard

-- A finite binary floating-point number of 64 bits: mantissa * 2 ^ exponent, with the
-- mantissa below 2 ^ 53 and as large as the least exponent allows.
structure Binary64 where
  negative : Bool
  mantissa : Nat
  exponent : Int
deriving DecidableEq, Repr

namespace Binary64

-- The bit that a mantissa has unless it is below all others.
def leadingBit : Nat := 0x10000000000000

def leastExponent : Int := -1074

def greatestExponent : Int := 971

-- The fraction num / den divided by 2 ^ e.
def scaled (num den : Nat) (e : Int) : Nat × Nat :=
  (num * Nat.pow 2 (-e).toNat, den * Nat.pow 2 e.toNat)

-- A half goes to the even neighbour.
def roundDiv (num den : Nat) : Nat :=
  let q := num / den
  let r := num % den
  if 2 * r < den then q
  else if den < 2 * r then q + 1
  else if q % 2 = 0 then q else q + 1

-- The exponent under which num / den has 53 binary digits before the point, unless it is
-- too small for that.
def exponentOf (num den : Nat) : Int :=
  let guess : Int := (Nat.log2 num : Int) - Nat.log2 den - 52
  let (n, d) := scaled num den guess
  max (if n / d < leadingBit then guess - 1 else guess) leastExponent

-- The number nearest to num / den, none when that lies beyond the largest.
def nearest (negative : Bool) (num den : Nat) : Option Binary64 :=
  if num = 0 then some ⟨negative, 0, leastExponent⟩
  else
    let e := exponentOf num den
    let (n, d) := scaled num den e
    let m := roundDiv n d
    let result : Binary64 :=
      if m = 2 * leadingBit then ⟨negative, leadingBit, e + 1⟩ else ⟨negative, m, e⟩
    if result.exponent ≤ greatestExponent then some result else none

def fraction (x : Binary64) : Nat × Nat :=
  (x.mantissa * Nat.pow 2 x.exponent.toNat, Nat.pow 2 (-x.exponent).toNat)

def times (x y : Binary64) : Option Binary64 :=
  let (a, b) := x.fraction
  let (c, d) := y.fraction
  nearest (x.negative != y.negative) (a * c) (b * d)

def dividedBy (x y : Binary64) : Option Binary64 :=
  let (a, b) := x.fraction
  let (c, d) := y.fraction
  nearest (x.negative != y.negative) (a * d) (b * c)

def zero (negative : Bool) : Binary64 :=
  ⟨negative, 0, leastExponent⟩

def isZero (x : Binary64) : Bool :=
  x.mantissa == 0

def ofNat (negative : Bool) (n : Nat) : Option Binary64 :=
  nearest negative n 1

def tenTo (n : Nat) : Option Binary64 :=
  ofNat false (Nat.pow 10 n)

-- The greatest power of ten there is.
def greatestTen : Nat := 308

def overTenTo (x : Binary64) (n : Nat) : Option Binary64 :=
  (tenTo n).bind x.dividedBy

-- Division by that power, repeated until nothing is left.
def strides (x : Binary64) : Nat → Option Binary64
  | 0 => some x
  | n + 1 => if x.isZero then some x else (x.overTenTo greatestTen).bind (strides · n)

-- Division by 10 ^ n goes in steps of the greatest power of ten, each one rounded.
def lowered (x : Binary64) (n : Nat) : Option Binary64 :=
  let steps := (n - 1) / greatestTen
  (x.strides steps).bind (·.overTenTo (n - steps * greatestTen))

-- A written number: the digits are rounded first, then the scaled value.
def ofDecimal (negative : Bool) (significand : Nat) (exponent : Int) : Option Binary64 :=
  match ofNat negative significand with
  | none => none
  | some x =>
    if exponent < 0 then x.lowered (-exponent).toNat
    else if x.isZero then some x
    else if exponent ≤ greatestTen then (tenTo exponent.toNat).bind x.times
    else none

end Binary64

end RequestGuard
