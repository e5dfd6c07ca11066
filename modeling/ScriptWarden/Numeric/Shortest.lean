import ScriptWarden.Numeric.Binary64

/-!
# Shortest decimals

The decimal with the fewest digits that reads back as a given number, and of several such the one
nearest to it. The numbers that read back as `m * 2 ^ e` form an interval around it; for each
count of digits only the two grid points beside the number have to be tried.
-/

namespace ScriptWarden

/-- The value `digits * 10 ^ power`. -/
structure Decimal where
  digits : Nat
  power : Int
deriving DecidableEq, Repr, Inhabited

/-- Move zeros at the end of the digits into the power, at most so many. -/
def Decimal.trim (d : Decimal) : Nat → Decimal
  | 0 => d
  | n + 1 =>
    if d.digits != 0 && d.digits % 10 == 0 then
      Decimal.trim { digits := d.digits / 10, power := d.power + 1 } n
    else d

namespace Binary64

/-- A quarter of the last place as a ratio: numerator and denominator of `2 ^ (exponent - 2)`. -/
def quarter (x : Binary64) : Nat × Nat :=
  let e := x.exponent - 2
  (twoTo e.toNat, twoTo (-e).toNat)

/-- The ends of the interval that reads back as a magnitude, in quarters of the last place. Below
a power of two the numbers lie closer. -/
def interval (x : Binary64) : Nat × Nat :=
  let below := if x.mantissa == twoTo 52 && x.exponent != leastExponent then 1 else 2
  (4 * x.mantissa - below, 4 * x.mantissa + 2)

/-- Whether the decimal `c * 10 ^ k` lies in the interval. -/
def reads (x : Binary64) (c : Nat) (k : Int) : Bool :=
  let (a, b) := x.quarter
  let (lo, hi) := x.interval
  let value := c * tenTo k.toNat * b
  let unit := a * tenTo (-k).toNat
  if x.mantissa % 2 == 0 then lo * unit ≤ value && value ≤ hi * unit
  else lo * unit < value && value < hi * unit

/-- How many digits a whole number has. -/
def digitCount (n : Nat) : Int := (Nat.toDigits 10 n).length

/-- The power `p` with the magnitude, which is not zero, at least `10 ^ (p - 1)` and below
`10 ^ p`. -/
def magnitude (x : Binary64) : Int :=
  if x.den ≤ x.num then digitCount (x.num / x.den) else 1 - digitCount ((x.den - 1) / x.num)

/-- The decimal of a count of digits that reads back as a magnitude, the nearer of two. -/
def withDigits? (x : Binary64) (count : Nat) : Option Decimal :=
  let k := x.magnitude - count
  let a := x.num * tenTo (-k).toNat
  let b := x.den * tenTo k.toNat
  let low := a / b
  match x.reads low k && low != 0, x.reads (low + 1) k with
  | true, true =>
    let rest := 2 * (a % b)
    if rest < b || (rest == b && low % 2 == 0) then some ⟨low, k⟩ else some ⟨low + 1, k⟩
  | true, false => some ⟨low, k⟩
  | false, true => some ⟨low + 1, k⟩
  | false, false => none

/-- The shortest decimal that reads back as a magnitude that is not zero. -/
def shortest (x : Binary64) : Decimal :=
  match ((List.range 17).map (· + 1)).findSome? x.withDigits? with
  | some d => d.trim 400
  | none => ⟨0, 0⟩

/-- A run of zeros. -/
def zeros (n : Nat) : String := String.ofList (List.replicate n '0')

/-- A number as text. Values from `10 ^ -5` up to `10 ^ 16` are written with a point and at least
one place; others with an exponent that has a sign. -/
def text (x : Binary64) : String :=
  let sign := if x.negative then "-" else ""
  if x.isZero then sign ++ "0.0"
  else
    let d := x.shortest
    let digits := toString d.digits
    let point := (digits.length : Int) + d.power
    if 0 ≤ d.power && point ≤ 16 then sign ++ digits ++ zeros d.power.toNat ++ ".0"
    else if 0 < point && point ≤ 16 then
      sign ++ String.ofList (digits.toList.take point.toNat) ++ "." ++
        String.ofList (digits.toList.drop point.toNat)
    else if -5 < point && point ≤ 0 then sign ++ "0." ++ zeros (-point).toNat ++ digits
    else
      let e := point - 1
      let tail := digits.toList.drop 1
      sign ++ String.ofList (digits.toList.take 1) ++
        (if tail.isEmpty then "" else "." ++ String.ofList tail) ++ "e" ++
        (if e < 0 then "-" else "+") ++ toString e.natAbs

end Binary64

end ScriptWarden
