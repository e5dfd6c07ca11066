import ScriptWarden.Toml.Basic

/-!
# Bare TOML values

Values that are words: truth values, integers in four bases, real numbers and moments. Digits may be
grouped by single underscores between them.
-/

namespace ScriptWarden.Toml

/-- Whether a character is a decimal digit. -/
def isDigit (c : Char) : Bool := '0' ≤ c && c ≤ '9'

/-- The value of a digit in a base, if it is one. -/
def digitIn? (base : Nat) (c : Char) : Option Nat :=
  let n :=
    if isDigit c then c.toNat - '0'.toNat
    else if 'a' ≤ c && c ≤ 'z' then c.toNat - 'a'.toNat + 10
    else if 'A' ≤ c && c ≤ 'Z' then c.toNat - 'A'.toNat + 10
    else 36
  if n < base then some n else none

/-- The digits behind underscores that stand between digits only. -/
def ungroup (isDigit : Char → Bool) : List Char → Option (List Char)
  | [] => none
  | [c] => if isDigit c then some [c] else none
  | c :: '_' :: rest => if isDigit c then (ungroup isDigit rest).map (c :: ·) else none
  | c :: rest => if isDigit c then (ungroup isDigit rest).map (c :: ·) else none

/-- The number that grouped digits of a base write. -/
def natIn? (base : Nat) (cs : List Char) : Option Nat := do
  let digits ← ungroup (fun c => (digitIn? base c).isSome) cs
  some (digits.foldl (fun n c => n * base + (digitIn? base c).getD 0) 0)

/-- The number that grouped decimal digits without a leading zero write. -/
def decimal? (cs : List Char) : Option Nat :=
  match cs with
  | ['0'] => some 0
  | '0' :: _ => none
  | _ => natIn? 10 cs

/-- A sign and what follows it. -/
def splitSign : List Char → Bool × List Char
  | '-' :: rest => (true, rest)
  | '+' :: rest => (false, rest)
  | cs => (false, cs)

/-- An integer within the range of integers. -/
def inRange? (n : Int) : Option Toml := if isInteger n then some (.integer n) else none

/-- The integer that a word writes. -/
def integer? (cs : List Char) : Option Toml :=
  match cs with
  | '0' :: 'x' :: rest => (natIn? 16 rest).bind fun n => inRange? n
  | '0' :: 'o' :: rest => (natIn? 8 rest).bind fun n => inRange? n
  | '0' :: 'b' :: rest => (natIn? 2 rest).bind fun n => inRange? n
  | _ =>
    let (negative, digits) := splitSign cs
    (decimal? digits).bind fun n => inRange? (if negative then -(n : Int) else n)

-- ---------------------------------------------------------------------------
-- Real numbers
-- ---------------------------------------------------------------------------

/-- The least number that is taken for infinity: halfway between the greatest number of binary64
and the power of two above it. -/
def infinityBound : Nat := twoTo 1024 - twoTo 970

/-- Whether `digits * 10 ^ exponent` is taken for infinity. -/
def isInfinite (digits : Nat) (exponent : Int) : Bool :=
  let places : Int := (toString digits).length + exponent
  if digits == 0 || places < 309 then false
  else if 309 < places then true
  else decide (infinityBound * tenTo (-exponent).toNat ≤ digits * tenTo exponent.toNat)

/-- Whether a word writes a real number that is not too large. -/
def isReal (cs : List Char) : Bool :=
  let (negative, rest) := splitSign cs
  if rest == ['i', 'n', 'f'] || rest == ['n', 'a', 'n'] then true
  else
    let isExponent := fun c => c == 'e' || c == 'E'
    let number := rest.takeWhile fun c => !isExponent c
    let exponent := rest.dropWhile fun c => !isExponent c
    let whole := number.takeWhile (· != '.')
    let fraction := number.dropWhile (· != '.')
    let fractionDigits := ungroup isDigit (fraction.drop 1)
    let (exponentNegative, exponentRest) := splitSign (exponent.drop 1)
    let exponentDigits := natIn? 10 exponentRest
    if (fraction.isEmpty && exponent.isEmpty) || (!fraction.isEmpty && fractionDigits.isNone) ||
        (!exponent.isEmpty && exponentDigits.isNone) then false
    else
      match decimal? whole with
      | none => false
      | some n =>
        let fd := fractionDigits.getD []
        let all := fd.foldl (fun n c => n * 10 + (digitIn? 10 c).getD 0) n
        let e : Int := exponentDigits.getD 0
        negative || !isInfinite all ((if exponentNegative then -e else e) - fd.length)

-- ---------------------------------------------------------------------------
-- Moments
-- ---------------------------------------------------------------------------

/-- Read a number of so many digits within bounds. -/
def readDigits? (count lo hi : Nat) (cs : List Char) : Option (Nat × List Char) :=
  let digits := cs.take count
  if digits.length == count && digits.all isDigit then
    let n := digits.foldl (fun n c => n * 10 + (digitIn? 10 c).getD 0) 0
    if lo ≤ n && n ≤ hi then some (n, cs.drop count) else none
  else none

/-- What follows a character. -/
def readChar? (c : Char) : List Char → Option (List Char)
  | x :: rest => if x == c then some rest else none
  | [] => none

/-- How many days a month has. -/
def daysIn (year month : Nat) : Nat :=
  if month == 2 then
    if year % 4 == 0 && (year % 100 != 0 || year % 400 == 0) then 29 else 28
  else if [4, 6, 9, 11].contains month then 30
  else 31

/-- What follows a date. -/
def readDate? (cs : List Char) : Option (List Char) := do
  let (year, cs) ← readDigits? 4 0 9999 cs
  let cs ← readChar? '-' cs
  let (month, cs) ← readDigits? 2 1 12 cs
  let cs ← readChar? '-' cs
  let (_, cs) ← readDigits? 2 1 (daysIn year month) cs
  some cs

/-- What follows a time of day. -/
def readTime? (cs : List Char) : Option (List Char) := do
  let (_, cs) ← readDigits? 2 0 23 cs
  let cs ← readChar? ':' cs
  let (_, cs) ← readDigits? 2 0 59 cs
  let cs ← readChar? ':' cs
  let (_, cs) ← readDigits? 2 0 60 cs
  match cs with
  | '.' :: rest =>
    match rest.dropWhile isDigit with
    | after => if after.length == rest.length then none else some after
  | _ => some cs

/-- What follows an offset from UTC. -/
def readOffset? : List Char → Option (List Char)
  | 'Z' :: rest => some rest
  | 'z' :: rest => some rest
  | c :: rest =>
    if c == '+' || c == '-' then do
      let (_, rest) ← readDigits? 2 0 23 rest
      let rest ← readChar? ':' rest
      let (_, rest) ← readDigits? 2 0 59 rest
      some rest
    else none
  | [] => none

/-- Whether a word is a time of day that may follow a date, with an offset or without one. -/
def isZonedTime (cs : List Char) : Bool :=
  match readTime? cs with
  | some [] => true
  | some rest => readOffset? rest == some []
  | none => false

/-- Whether a word is a date. -/
def isDate (cs : List Char) : Bool := readDate? cs == some []

/-- Whether a word is a moment. -/
def isMoment (cs : List Char) : Bool :=
  readTime? cs == some [] ||
    match readDate? cs with
    | some [] => true
    | some (c :: rest) => (c == 'T' || c == 't') && isZonedTime rest
    | none => false

-- ---------------------------------------------------------------------------
-- Words
-- ---------------------------------------------------------------------------

/-- Whether a character may belong to a bare value. -/
def isWordChar (c : Char) : Bool :=
  c.isAlphanum || c == '+' || c == '-' || c == '_' || c == '.' || c == ':'

/-- The value of a word. -/
def ofWord? (cs : List Char) : Option Toml :=
  if cs == "true".toList then some (.boolean true)
  else if cs == "false".toList then some (.boolean false)
  else if isMoment cs then some (.moment (String.ofList cs))
  else if isReal cs then some (.real (String.ofList cs))
  else integer? cs

/-- Read a bare value. A date may be followed by a blank and a time of day. -/
def readWord? (cs : List Char) : Option (Toml × List Char) :=
  let word := cs.takeWhile isWordChar
  let rest := cs.drop word.length
  let time := (rest.drop 1).takeWhile isWordChar
  if isDate word && rest.head? == some ' ' && isZonedTime time then
    some (.moment (String.ofList (word ++ ' ' :: time)), (rest.drop 1).drop time.length)
  else (ofWord? word).map (·, rest)

end ScriptWarden.Toml
