import ScriptWarden.Numeric.Binary64

/-!
# Durations

Spans of time in whole nanoseconds, their seconds as a binary64, and their text for people: tenths
of seconds below a minute, a clock reading above.
-/

namespace ScriptWarden

/-- A span of time. -/
structure Duration where
  nanos : Nat := 0
deriving DecidableEq, Repr, Inhabited

namespace Duration

/-- So many seconds. -/
def ofSeconds (n : Nat) : Duration := ⟨n * 1000000000⟩

/-- So many milliseconds. -/
def ofMillis (n : Nat) : Duration := ⟨n * 1000000⟩

/-- The whole seconds of a span. -/
def wholeSeconds (d : Duration) : Nat := d.nanos / 1000000000

/-- The whole milliseconds of a span. -/
def wholeMillis (d : Duration) : Nat := d.nanos / 1000000

/-- The whole milliseconds of a span in a word of 64 bits. -/
def milliWord (d : Duration) : Nat := d.wholeMillis % twoTo 64

/-- The seconds of a span: the whole ones and the fraction are rounded each, and then their
sum. -/
def seconds (d : Duration) : Binary64 :=
  (Binary64.ofNat d.wholeSeconds).add
    (Binary64.nearest false (d.nanos % 1000000000) 1000000000)

/-- A number below 100 with two digits. -/
def twoDigits (n : Nat) : String := if n < 10 then "0" ++ toString n else toString n

/-- A span for people, such as `4.2s`, `2m 05s` or `1h 02m 03s`. -/
def text (d : Duration) : String :=
  let total := d.wholeSeconds
  if total < 60 then tenthsText (d.seconds.inUnits 1) ++ "s"
  else
    let hours := total / 3600
    let minutes := total % 3600 / 60
    let seconds := total % 60
    if 0 < hours then
      toString hours ++ "h " ++ twoDigits minutes ++ "m " ++ twoDigits seconds ++ "s"
    else toString minutes ++ "m " ++ twoDigits seconds ++ "s"

end Duration

end ScriptWarden
