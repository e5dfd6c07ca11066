import Mathlib.Tactic.NormNum
import ScriptWarden.Clock.Duration
import ScriptWarden.Proofs.Clock.Timestamps
import ScriptWarden.Proofs.Numeric.Rounding

/-!
# Spans as clock readings

The text of a span is a reading: tenths of seconds below a minute, and minutes and seconds, with
hours if there are any, from a minute on. What is read from the text is less than one of its last
digit away from the span, and never goes back when the span grows.

Minutes and hours are cut to whole seconds, and tenths are rounded. Both the seconds of a span and
their sum with its fraction are binary64 numbers on the way, but those are so close that only a span
halfway between two tenths could be rounded to either. So the tenths shown are the nearest ones.

The last half of a tenth before a minute is rounded up to the minute, and is shown as sixty seconds
then (`end_of_minute_shows_sixty`). No other reading has sixty of anything.

## Results

* `tenths_near` — the tenths shown are within half a tenth.
* `ofChars?_text` — a reading is read from its text.
* `span_text_reads_back` — the text of every span.
-/

namespace ScriptWarden

-- ---------------------------------------------------------------------------
-- Readings
-- ---------------------------------------------------------------------------

/-- What a clock shows of a span. -/
inductive ClockReading where
  | tenths (seconds tenth : Nat)
  | minutes (minutes seconds : Nat)
  | hours (hours minutes seconds : Nat)
deriving DecidableEq, Repr

namespace ClockReading

/-- The text of a reading: `S.Ds`, `Mm SSs` or `Hh MMm SSs`. -/
def text : ClockReading → String
  | .tenths s t => toString s ++ "." ++ toString t ++ "s"
  | .minutes m s => toString m ++ "m " ++ Duration.twoDigits s ++ "s"
  | .hours h m s => toString h ++ "h " ++ Duration.twoDigits m ++ "m " ++ Duration.twoDigits s ++ "s"

/-- The span that a reading shows. -/
def span : ClockReading → Duration
  | .tenths s t => ⟨s * 1000000000 + t * 100000000⟩
  | .minutes m s => .ofSeconds (m * 60 + s)
  | .hours h m s => .ofSeconds ((h * 60 + m) * 60 + s)

/-- One of the last digit of a reading. -/
def unit : ClockReading → Duration
  | .tenths _ _ => ⟨100000000⟩
  | _ => .ofSeconds 1

/-- Whether every part of a reading is below the next greater one, and the first one is there for a
reason. -/
def IsClock : ClockReading → Prop
  | .tenths s t => s < 60 ∧ t < 10
  | .minutes m s => 0 < m ∧ m < 60 ∧ s < 60
  | .hours h m s => 0 < h ∧ m < 60 ∧ s < 60

/-- Read a number and one character behind it. -/
def readPart? (most : Nat) (cs : List Char) : Option (Nat × Char × List Char) :=
  match Timestamp.readNumber? most cs with
  | some (n, mark :: rest) => some (n, mark, rest)
  | _ => none

/-- What is read from a text. -/
def ofChars? (cs : List Char) : Option ClockReading :=
  match readPart? cs.length cs with
  | some (s, '.', rest) =>
    match readPart? 1 rest with
    | some (t, 's', []) => some (.tenths s t)
    | _ => none
  | some (m, 'm', ' ' :: rest) =>
    match readPart? 2 rest with
    | some (s, 's', []) => some (.minutes m s)
    | _ => none
  | some (h, 'h', ' ' :: rest) =>
    match readPart? 2 rest with
    | some (m, 'm', ' ' :: rest) =>
      match readPart? 2 rest with
      | some (s, 's', []) => some (.hours h m s)
      | _ => none
    | _ => none
  | _ => none

/-- A number before something that is no digit is read. -/
theorem readPart?_toString (n : Nat) {most : Nat} (hMost : (toString n).toList.length ≤ most)
    {mark : Char} (hMark : mark.isDigit = false) (rest : List Char) :
    readPart? most ((toString n).toList ++ mark :: rest) = some (n, mark, rest) := by
  have hDigits : (toString n).toList = Nat.toDigits 10 n := by
    rw [Nat.toString_eq_repr, Nat.toList_repr]
  rw [hDigits] at hMost
  rw [readPart?, hDigits, Timestamp.readNumber?_digits Nat.toDigits_ne_nil
    (fun c hMem => Nat.isDigit_of_mem_toDigits (by decide) (by decide) hMem) hMost
    (.inr fun c hHead => by cases hHead; exact hMark)]
  simp only [Timestamp.digitsValue_eq, Nat.ofDigitChars_ten_toDigits]

theorem length_digit {n : Nat} (h : n < 10) : (toString n).toList.length ≤ 1 := by
  revert n
  decide

theorem twoDigits_eq_padded {n : Nat} (h : n < 100) : Duration.twoDigits n = Timestamp.padded 2 n := by
  revert n
  decide +kernel

theorem readPart?_twoDigits {n : Nat} (h : n < 100) (mark : Char) (rest : List Char) :
    readPart? 2 ((Duration.twoDigits n).toList ++ mark :: rest) = some (n, mark, rest) := by
  rw [readPart?, twoDigits_eq_padded h,
    Timestamp.readNumber?_padded (by decide) h (Nat.le_refl 2) (.inl rfl)]

theorem ofChars?_text {r : ClockReading} (h : r.IsClock) : ofChars? r.text.toList = some r := by
  have hFirst : ∀ (n : Nat) (mark : Char) (rest : List Char), mark.isDigit = false →
      readPart? ((toString n).toList ++ mark :: rest).length
        ((toString n).toList ++ mark :: rest) = some (n, mark, rest) := fun n mark rest hMark =>
    readPart?_toString n (by simp) hMark rest
  cases r with
  | tenths s t =>
    have hText : (ClockReading.tenths s t).text.toList =
        (toString s).toList ++ '.' :: ((toString t).toList ++ ['s']) := by
      simp [text]
    rw [hText, ofChars?, hFirst s '.' _ rfl]
    simp only [readPart?_toString t (length_digit h.2) (show 's'.isDigit = false from rfl) []]
  | minutes m s =>
    have hText : (ClockReading.minutes m s).text.toList =
        (toString m).toList ++ 'm' :: ' ' :: ((Duration.twoDigits s).toList ++ ['s']) := by
      simp [text]
    rw [hText, ofChars?, hFirst m 'm' _ rfl]
    simp only [readPart?_twoDigits (h.2.2.trans (by decide)) 's' []]
  | hours k m s =>
    have hText : (ClockReading.hours k m s).text.toList =
        (toString k).toList ++ 'h' :: ' ' :: ((Duration.twoDigits m).toList ++
          'm' :: ' ' :: ((Duration.twoDigits s).toList ++ ['s'])) := by
      simp [text]
    rw [hText, ofChars?, hFirst k 'h' _ rfl]
    simp only [readPart?_twoDigits (h.2.1.trans (by decide)) 'm' _,
      readPart?_twoDigits (h.2.2.trans (by decide)) 's' []]

end ClockReading

-- ---------------------------------------------------------------------------
-- Tenths
-- ---------------------------------------------------------------------------

namespace Duration

/-- The tenths of seconds that are shown of a span. -/
def tenths (d : Duration) : Nat := d.seconds.inUnits 1

/-- The seconds of a span below a minute, as a binary64. -/
theorem value_seconds_near {d : Duration} (h : d.wholeSeconds < 60) :
    |d.seconds.value - d.nanos / 1000000000| ≤ 3 * Binary64.halfUnit := by
  have hUnit : Binary64.halfUnit ≤ 1 := by norm_num [Binary64.halfUnit]
  have hWhole : |(Binary64.ofNat d.wholeSeconds).value - (d.wholeSeconds : ℚ) / (1 : Nat)| ≤
      Binary64.halfUnit := Binary64.value_nearest_of_le false (by decide) (by omega)
  have hFraction := Binary64.value_nearest_of_le false (a := d.nanos % 1000000000)
    (b := 1000000000) (by decide) (by omega)
  have hParts : (d.nanos : ℚ) / 1000000000 =
      d.wholeSeconds + (d.nanos % 1000000000 : Nat) / 1000000000 := by
    have hNanos : (d.nanos : ℚ) = 1000000000 * d.wholeSeconds + (d.nanos % 1000000000 : Nat) := by
      exact_mod_cast (Nat.div_add_mod d.nanos 1000000000).symm
    rw [hNanos]
    ring
  have hSmall : (d.wholeSeconds : ℚ) ≤ 59 := by exact_mod_cast Nat.le_of_lt_succ h
  have hRest : ((d.nanos % 1000000000 : Nat) : ℚ) / 1000000000 ≤ 1 := by
    rw [div_le_one (by norm_num)]
    exact_mod_cast (Nat.mod_lt d.nanos (by decide)).le
  rw [abs_le] at hWhole hFraction
  push_cast at hWhole hFraction hRest hParts
  have hSum : |d.seconds.value - ((Binary64.ofNat d.wholeSeconds).value +
      (Binary64.nearest false (d.nanos % 1000000000) 1000000000).value)| ≤ Binary64.halfUnit :=
    Binary64.value_add_near (by linarith)
  rw [abs_le] at hSum
  rw [hParts, abs_le]
  constructor <;> linarith

/-- The tenths shown are within half a tenth. -/
theorem tenths_near {d : Duration} (h : d.wholeSeconds < 60) :
    d.tenths * 100000000 ≤ d.nanos + 50000000 ∧ d.nanos ≤ d.tenths * 100000000 + 50000000 := by
  have hSeconds := value_seconds_near h
  have hTenths := Binary64.inUnits_near d.seconds 1
  -- the three roundings before the last one are worth less than a nanosecond
  have hTiny : 1000000000 * (3 * Binary64.halfUnit) < 1 := by norm_num [Binary64.halfUnit]
  rw [show d.seconds.inUnits 1 = d.tenths from rfl] at hTenths
  rw [abs_le] at hSeconds hTenths
  have hNanos : (d.nanos : ℚ) = 1000000000 * (d.nanos / 1000000000) := by ring
  have hAbove : (d.tenths * 100000000 : ℚ) < d.nanos + 50000000 + 1 := by
    rw [hNanos]
    linarith
  have hBelow : (d.nanos : ℚ) < d.tenths * 100000000 + 50000000 + 1 := by
    rw [hNanos]
    linarith
  have hAbove' : d.tenths * 100000000 < d.nanos + 50000000 + 1 := by exact_mod_cast hAbove
  have hBelow' : d.nanos < d.tenths * 100000000 + 50000000 + 1 := by exact_mod_cast hBelow
  omega

-- ---------------------------------------------------------------------------
-- The text of a span
-- ---------------------------------------------------------------------------

/-- What is shown of a span. -/
def reading (d : Duration) : ClockReading :=
  if d.wholeSeconds < 60 then .tenths (d.tenths / 10) (d.tenths % 10)
  else if d.wholeSeconds < 3600 then .minutes (d.wholeSeconds / 60) (d.wholeSeconds % 60)
  else .hours (d.wholeSeconds / 3600) (d.wholeSeconds % 3600 / 60) (d.wholeSeconds % 60)

theorem text_eq (d : Duration) : d.text = d.reading.text := by
  rw [text, reading]
  split
  · rfl
  · split
    · next hHours =>
      rw [if_neg (by omega), Nat.mod_eq_of_lt hHours]
      rfl
    · next hHours =>
      rw [if_pos (by omega)]
      rfl

/-- Every part of a reading is below the next greater one, but for the sixty seconds shown at the end
of a minute. -/
theorem reading_isClock (d : Duration) :
    d.reading.IsClock ∨ d.reading = .tenths 60 0 ∧ 59950000000 ≤ d.nanos := by
  rw [reading]
  split
  · next hMinute =>
    have hNear := tenths_near hMinute
    rw [wholeSeconds] at hMinute
    by_cases hFull : d.tenths < 600
    · exact .inl ⟨by omega, by omega⟩
    · have hSixty : d.tenths = 600 := by omega
      rw [hSixty]
      exact .inr ⟨rfl, by omega⟩
  · split
    · exact .inl ⟨by omega, by omega, by omega⟩
    · exact .inl ⟨by omega, by omega, by omega⟩

/-- The tenths at the end of a minute are all full. -/
theorem reading_end_of_minute {d : Duration} (h : 59950000000 ≤ d.nanos)
    (hMinute : d.wholeSeconds < 60) : d.reading = .tenths 60 0 := by
  have hNear := tenths_near hMinute
  have hSixty : d.tenths = 600 := by
    rcases Nat.lt_or_eq_of_le h with hLate | hTie
    · rw [wholeSeconds] at hMinute
      omega
    · -- halfway between two tenths, where the binary64 decides
      have hHere : d = ⟨59950000000⟩ := by rw [hTie]
      rw [hHere]
      decide +kernel
  rw [reading, if_pos hMinute, hSixty]

/-- A reading is less than one of its last digit away from the span. -/
theorem reading_near (d : Duration) :
    d.nanos < d.reading.span.nanos + d.reading.unit.nanos ∧
      d.reading.span.nanos < d.nanos + d.reading.unit.nanos := by
  rw [reading]
  split
  · next hMinute =>
    have hNear := tenths_near hMinute
    simp only [ClockReading.span, ClockReading.unit]
    omega
  · split
    · simp only [ClockReading.span, ClockReading.unit, ofSeconds, wholeSeconds]
      omega
    · simp only [ClockReading.span, ClockReading.unit, ofSeconds, wholeSeconds]
      omega

/-- A longer span is shown by a reading that is no smaller. -/
theorem reading_mono {d e : Duration} (h : d.nanos ≤ e.nanos) :
    d.reading.span.nanos ≤ e.reading.span.nanos := by
  have hTenths : ∀ t : Nat, (t / 10) * 1000000000 + (t % 10) * 100000000 = t * 100000000 := by
    intro t
    omega
  by_cases hSame : d.nanos = e.nanos
  · obtain rfl : d = e := by
      cases d
      cases e
      exact congrArg Duration.mk hSame
    exact Nat.le_refl _
  rw [reading, reading]
  by_cases hMinute : d.wholeSeconds < 60
  · have hNear := tenths_near hMinute
    rw [if_pos hMinute]
    by_cases hMinute' : e.wholeSeconds < 60
    · have hNear' := tenths_near hMinute'
      rw [if_pos hMinute']
      simp only [ClockReading.span, hTenths]
      omega
    · rw [if_neg hMinute']
      rw [wholeSeconds] at hMinute hMinute'
      split <;> simp only [ClockReading.span, ofSeconds, hTenths, wholeSeconds] <;> omega
  · have hMinute' : ¬ e.wholeSeconds < 60 := by
      rw [wholeSeconds] at hMinute ⊢
      omega
    have hWhole : ∀ w : Nat, (if w < 3600 then ClockReading.minutes (w / 60) (w % 60)
        else .hours (w / 3600) (w % 3600 / 60) (w % 60)).span = .ofSeconds w := by
      intro w
      split <;> simp only [ClockReading.span] <;> congr 1 <;> omega
    rw [if_neg hMinute, if_neg hMinute', hWhole, hWhole]
    exact Nat.mul_le_mul_right _ (Nat.div_le_div_right h)

/-- What is read from the text of a span is its reading. -/
theorem ofChars?_text (d : Duration) : ClockReading.ofChars? d.text.toList = some d.reading := by
  rw [text_eq]
  rcases d.reading_isClock with hClock | ⟨hSixty, -⟩
  · exact ClockReading.ofChars?_text hClock
  · rw [hSixty]
    decide +kernel

end Duration

/--
**The text of a span is a clock reading of it, but for the end of a minute.** The text of every span
is that of a reading that is read from it again.

* Tenths are shown below a minute, minutes below an hour, and hours from then on; every part is below
  the next greater one, and sixty seconds are shown for the spans from 59.95 seconds up to a minute
  and for no others.
* The reading is less than one of its last digit away from the span.
* No longer span has a text that reads as less.
-/
theorem span_text_reads_back (d : Duration) :
    ∃ r : ClockReading, d.text = r.text ∧ ClockReading.ofChars? d.text.toList = some r ∧
      ((∃ s t, r = .tenths s t) ↔ d.wholeSeconds < 60) ∧
      ((∃ h m s, r = .hours h m s) ↔ 3600 ≤ d.wholeSeconds) ∧
      (if 59950000000 ≤ d.nanos ∧ d.wholeSeconds < 60 then r = .tenths 60 0 else r.IsClock) ∧
      d.nanos < r.span.nanos + r.unit.nanos ∧ r.span.nanos < d.nanos + r.unit.nanos ∧
      ∀ (e : Duration) (r' : ClockReading), d.nanos ≤ e.nanos →
        ClockReading.ofChars? e.text.toList = some r' → r.span.nanos ≤ r'.span.nanos := by
  obtain ⟨hBelow, hAbove⟩ := d.reading_near
  refine ⟨d.reading, d.text_eq, d.ofChars?_text, ?_, ?_, ?_, hBelow, hAbove, fun e r' hLonger hRead => ?_⟩
  · rw [Duration.reading]
    split
    · simpa
    · split <;> simp <;> omega
  · rw [Duration.reading]
    split
    · simp
      omega
    · split <;> simp <;> omega
  · split
    · next hEnd => exact Duration.reading_end_of_minute hEnd.1 hEnd.2
    · next hNotEnd =>
      rcases d.reading_isClock with hClock | ⟨hSixty, hLate⟩
      · exact hClock
      · -- sixty seconds are no reading of a minute or more
        refine absurd ⟨hLate, ?_⟩ hNotEnd
        by_contra hMinute
        rw [Duration.reading, if_neg hMinute] at hSixty
        split at hSixty <;> cases hSixty
  · obtain rfl := Option.some.inj (e.ofChars?_text.symm.trans hRead)
    exact Duration.reading_mono hLonger

/-- A twentieth of a second before a minute, sixty seconds are shown, where a minute is shown from then
on. -/
theorem end_of_minute_shows_sixty :
    (⟨59950000000⟩ : Duration).text = "60.0s" ∧ (⟨60000000000⟩ : Duration).text = "1m 00s" ∧
      ∃ r : ClockReading, r.text = "60.0s" ∧ ¬ r.IsClock := by
  have hSixty : (⟨59950000000⟩ : Duration).text = "60.0s" := by decide +kernel
  obtain ⟨r, hText, -, -, -, hShown, -⟩ := span_text_reads_back ⟨59950000000⟩
  rw [if_pos (by decide)] at hShown
  refine ⟨hSixty, by decide +kernel, r, hText.symm.trans hSixty, ?_⟩
  rw [hShown]
  exact fun h => absurd h.1 (by decide)

end ScriptWarden
