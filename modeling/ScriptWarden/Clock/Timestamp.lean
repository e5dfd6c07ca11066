import ScriptWarden.Clock.Date
import ScriptWarden.Clock.Duration
import ScriptWarden.Numeric.Power
import ScriptWarden.Text.Cut

/-!
# Timestamps

Moments in UTC with nanoseconds, as RFC 3339 text, as text in logs and as text in listings. A
leap second is the second after 59, counted within the same second: its nanoseconds are those past
a thousand million.

The clock of a host counts nanoseconds and never goes back.
-/

namespace ScriptWarden

/-- A moment. -/
structure Timestamp where
  /-- Whole seconds since the beginning of 1970. -/
  seconds : Int := 0
  /-- Nanoseconds after that; in a leap second, a thousand million more. -/
  nanos : Nat := 0
deriving DecidableEq, Repr, Inhabited

namespace Timestamp

/-- How many nanoseconds a second has. -/
def second : Nat := 1000000000

/-- The moment so many nanoseconds after the beginning of 1970. -/
def ofNanos (n : Int) : Timestamp :=
  { seconds := n.fdiv second, nanos := (n.fmod second).toNat }

/-- Nanoseconds since the beginning of 1970. -/
def toNanos (t : Timestamp) : Int := t.seconds * second + t.nanos

/-- A moment later by a span. -/
def add (t : Timestamp) (d : Duration) : Timestamp := ofNanos (t.toNanos + d.nanos)

/-- The day of a moment. -/
def date (t : Timestamp) : Date := Date.ofDays (t.seconds.fdiv 86400)

/-- The seconds of a moment since midnight. -/
def secondOfDay (t : Timestamp) : Nat := (t.seconds.fmod 86400).toNat

-- ---------------------------------------------------------------------------
-- Text
-- ---------------------------------------------------------------------------

/-- A number with at least so many digits. -/
def padded (width n : Nat) : String :=
  let digits := toString n
  String.ofList (List.replicate (width - digits.length) '0') ++ digits

/-- A year with four digits; one outside of 0 to 9999 has a sign. -/
def yearText (y : Int) : String :=
  if 0 ≤ y && y ≤ 9999 then padded 4 y.toNat
  else (if y < 0 then "-" else "+") ++ padded 4 y.natAbs

/-- A day as `2024-01-31`. -/
def dateText (d : Date) : String :=
  yearText d.year ++ "-" ++ padded 2 d.month ++ "-" ++ padded 2 d.day

/-- The hour and minute of a moment. -/
def clockText (t : Timestamp) : String :=
  padded 2 (t.secondOfDay / 3600) ++ ":" ++ padded 2 (t.secondOfDay % 3600 / 60)

/-- The second of a moment, 60 in a leap second. -/
def secondText (t : Timestamp) : String :=
  padded 2 (t.secondOfDay % 60 + t.nanos / second)

/-- The fraction of a second, in the fewest of 0, 3, 6 and 9 places that hold it. -/
def fractionText (nanos : Nat) : String :=
  if nanos == 0 then ""
  else if nanos % 1000000 == 0 then "." ++ padded 3 (nanos / 1000000)
  else if nanos % 1000 == 0 then "." ++ padded 6 (nanos / 1000)
  else "." ++ padded 9 nanos

/-- A moment as RFC 3339 text. -/
def text (t : Timestamp) : String :=
  dateText t.date ++ "T" ++ t.clockText ++ ":" ++ t.secondText ++
    fractionText (t.nanos % second) ++ "Z"

/-- A moment in the head of a log: always with six places. -/
def logText (t : Timestamp) : String :=
  dateText t.date ++ "T" ++ t.clockText ++ ":" ++ t.secondText ++ "." ++
    padded 6 (t.nanos % second / 1000)

/-- A moment in a listing: to the minute. -/
def listingText (t : Timestamp) : String := dateText t.date ++ " " ++ t.clockText

-- ---------------------------------------------------------------------------
-- Reading
-- ---------------------------------------------------------------------------

/-- Whether a character is a digit. -/
def isDigit (c : Char) : Bool := '0' ≤ c && c ≤ '9'

/-- The number that digits write. -/
def digitsValue (cs : List Char) : Nat := cs.foldl (fun n c => n * 10 + (c.toNat - '0'.toNat)) 0

/-- Read a number of one digit up to so many. -/
def readNumber? (most : Nat) (cs : List Char) : Option (Nat × List Char) :=
  let digits := (cs.take most).takeWhile isDigit
  if digits.isEmpty then none else some (digitsValue digits, cs.drop digits.length)

/-- Read a number after blanks. -/
def readPart? (most : Nat) (cs : List Char) : Option (Nat × List Char) :=
  readNumber? most (trimStart cs)

/-- Read a year after blanks: up to four digits, or a sign and any number of them. -/
def readYear? (cs : List Char) : Option (Int × List Char) :=
  match trimStart cs with
  | '-' :: rest => (readNumber? rest.length rest).map fun (n, r) => (-(n : Int), r)
  | '+' :: rest => (readNumber? rest.length rest).map fun (n, r) => ((n : Int), r)
  | rest => (readNumber? 4 rest).map fun (n, r) => ((n : Int), r)

/-- Read a character after blanks. -/
def readMark? (c : Char) (cs : List Char) : Option (List Char) :=
  match trimStart cs with
  | x :: rest => if x == c then some rest else none
  | [] => none

/-- Read a fraction of a second, if there is one. Places after the ninth are passed over. -/
def readFraction? : List Char → Option (Nat × List Char)
  | '.' :: rest =>
    let digits := (rest.take 9).takeWhile isDigit
    if digits.isEmpty then none
    else
      some (digitsValue digits * tenTo (9 - digits.length),
        (rest.drop digits.length).dropWhile isDigit)
  | rest => some (0, rest)

/-- Read how many seconds a clock is ahead of UTC. -/
def readOffset? (cs : List Char) : Option (Int × List Char) :=
  match cs with
  | 'Z' :: rest => some (0, rest)
  | 'z' :: rest => some (0, rest)
  | sign :: h1 :: h2 :: rest =>
    if (sign == '+' || sign == '-' || sign == '\u2212') && isDigit h1 && isDigit h2 then
      match rest.dropWhile fun c => c == ':' || isBlank c with
      | m1 :: m2 :: rest =>
        if isDigit m1 && isDigit m2 && m1 ≤ '5' then
          let n : Int := (digitsValue [h1, h2] * 60 + digitsValue [m1, m2]) * 60
          if n < 86400 then some (if sign == '+' then n else -n, rest) else none
        else none
      | _ => none
    else none
  | _ => none

/-- Read the offset after a time, which may be the word UTC. -/
def readZone? (cs : List Char) : Option (Int × List Char) :=
  let cs := trimStart cs
  if (cs.take 3).map Char.toUpper == ['U', 'T', 'C'] then some (0, cs.drop 3) else readOffset? cs

/-- The years that a moment may lie in. -/
def isYear (y : Int) : Bool := -262143 ≤ y && y ≤ 262142

/-- Read a date. -/
def readDate? (cs : List Char) : Option (Date × List Char) := do
  let (year, cs) ← readYear? cs
  let cs ← readMark? '-' cs
  let (month, cs) ← readPart? 2 cs
  let cs ← readMark? '-' cs
  let (day, cs) ← readPart? 2 cs
  let date : Date := { year, month, day }
  if date.isValid && isYear year then some (date, cs) else none

/-- Read a time of day: seconds since midnight, and nanoseconds. -/
def readTime? (cs : List Char) : Option (Nat × Nat × List Char) := do
  let (hour, cs) ← readPart? 2 cs
  let cs ← readMark? ':' cs
  let (minute, cs) ← readPart? 2 cs
  let cs ← readMark? ':' cs
  let (sec, cs) ← readPart? 2 cs
  let (nanos, cs) ← readFraction? cs
  if 23 < hour || 59 < minute || 60 < sec then none
  else if sec == 60 then some (hour * 3600 + minute * 60 + 59, second + nanos, cs)
  else some (hour * 3600 + minute * 60 + sec, nanos, cs)

/-- The moment that a text in the manner of RFC 3339 stands for. Its years are bounded in UTC too. -/
def ofText? (s : String) : Option Timestamp := do
  let (date, cs) ← readDate? s.toList
  let cs ← match cs with
    | c :: rest => if c == 'T' || c == 't' || c == ' ' then some rest else none
    | [] => none
  let (time, nanos, cs) ← readTime? cs
  let (offset, cs) ← readZone? cs
  let t : Timestamp := { seconds := date.toDays * 86400 + time - offset, nanos }
  if (trimStart cs).isEmpty && isYear t.date.year then some t else none

end Timestamp

-- ---------------------------------------------------------------------------
-- Moments
-- ---------------------------------------------------------------------------

/-- A moment of a host's clock: the nanoseconds since the beginning of 1970. -/
abbrev Moment := Nat

namespace Moment

/-- A moment as the calendar shows it. -/
def timestamp (m : Moment) : Timestamp := Timestamp.ofNanos m

/-- A moment later by a span. -/
def after (m : Moment) (d : Duration) : Moment := m + d.nanos

/-- The span from one moment to another. -/
def since (m start : Moment) : Duration := ⟨m - start⟩

end Moment

end ScriptWarden
