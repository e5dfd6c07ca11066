import ScriptWarden.Numeric.Power

/-!
# Binary64

Finite numbers of IEEE binary64 with exact arithmetic on their parts: a magnitude is a mantissa
times a power of two, and every operation rounds the exact result once, to the nearest number, a
tie going to the even mantissa.
-/

namespace ScriptWarden

/-- Divide and round to the nearest whole number; a tie goes to the even neighbour. -/
def roundDiv (num den : Nat) : Nat :=
  let q := num / den
  let twice := 2 * (num % den)
  if den < twice || (twice == den && q % 2 == 1) then q + 1 else q

/-- A finite number: a sign and the magnitude `mantissa * 2 ^ exponent`. -/
structure Binary64 where
  negative : Bool := false
  mantissa : Nat := 0
  exponent : Int := 0
deriving DecidableEq, Repr, Inhabited

namespace Binary64

/-- The exponent of the smallest numbers. -/
def leastExponent : Int := -1074

/-- The exponent of the largest numbers. -/
def greatestExponent : Int := 971

/-- The numerator of a magnitude. -/
def num (x : Binary64) : Nat := x.mantissa * twoTo x.exponent.toNat

/-- The denominator of a magnitude. -/
def den (x : Binary64) : Nat := twoTo (-x.exponent).toNat

/-- How often a power of two fits: `a / (b * 2 ^ e)`, rounded. -/
def scaled (a b : Nat) (e : Int) : Nat := roundDiv (a * twoTo (-e).toNat) (b * twoTo e.toNat)

/-- The exponent at which a ratio has a mantissa of 53 bits, or the least one. -/
def exponentOf (a b : Nat) : Int :=
  let e : Int := (Nat.log2 a : Int) - (Nat.log2 b : Int) - 52
  let e := if a * twoTo (-e).toNat < twoTo 52 * (b * twoTo e.toNat) then e - 1 else e
  max leastExponent e

/-- The number nearest to a ratio. Its exponent may exceed the greatest one. -/
def nearest (negative : Bool) (a b : Nat) : Binary64 :=
  if a == 0 then { negative }
  else
    let e := exponentOf a b
    let m := scaled a b e
    if m == 0 then { negative }
    else if m == twoTo 53 then { negative, mantissa := twoTo 52, exponent := e + 1 }
    else { negative, mantissa := m, exponent := e }

/-- Whether a number is within the range of binary64. -/
def isFinite (x : Binary64) : Bool := decide (x.exponent ≤ greatestExponent)

/-- Whether a number is a zero. -/
def isZero (x : Binary64) : Bool := x.mantissa == 0

/-- The number nearest to a whole number. -/
def ofNat (n : Nat) : Binary64 := nearest false n 1

/-- The sum of two magnitudes. -/
def add (x y : Binary64) : Binary64 := nearest false (x.num * y.den + y.num * x.den) (x.den * y.den)

/-- The product of two numbers. -/
def mul (x y : Binary64) : Binary64 :=
  nearest (x.negative != y.negative) (x.num * y.num) (x.den * y.den)

/-- The quotient of a number by one that is not zero. -/
def div (x y : Binary64) : Binary64 :=
  nearest (x.negative != y.negative) (x.num * y.den) (x.den * y.num)

/-- The magnitude in units of a power of ten below one, rounded. -/
def inUnits (x : Binary64) (places : Nat) : Nat := roundDiv (x.num * tenTo places) x.den

end Binary64

/-- A whole number of tenths, written with a point. -/
def tenthsText (n : Nat) : String := toString (n / 10) ++ "." ++ toString (n % 10)

end ScriptWarden
