import ScriptWarden.Clock.Timestamp
import ScriptWarden.Proofs.Clock.Dates

/-!
# Moments as text

The text of a moment has a date, a clock reading and a fraction of a second with as few of 0, 3, 6
and 9 places as hold it. What reads it takes blanks, offsets and any number of places as well. The
moments that have a text that is read again are those whose year the calendar has, with the
nanoseconds of one second, or of two in a leap second; and only these are read.

## Results

* `readNumber?_padded` — a number with zeros before it is read.
* `ofText?_text` — the text of a moment is read as that moment.
* `representable_of_ofText?` — what is read is a moment of that kind.
-/

namespace ScriptWarden

namespace Timestamp

-- ---------------------------------------------------------------------------
-- Moments that have a text
-- ---------------------------------------------------------------------------

/-- A year of the calendar, and the nanoseconds of one second. The last second of a minute may be a
leap second, whose nanoseconds go on. -/
structure Representable (t : Timestamp) : Prop where
  year : isYear t.date.year = true
  nanos : t.nanos < second ∨ t.nanos < 2 * second ∧ t.secondOfDay % 60 = 59

instance (t : Timestamp) : Decidable t.Representable :=
  decidable_of_iff (isYear t.date.year = true ∧
      (t.nanos < second ∨ t.nanos < 2 * second ∧ t.secondOfDay % 60 = 59))
    ⟨fun h => ⟨h.1, h.2⟩, fun h => ⟨h.year, h.nanos⟩⟩

-- ---------------------------------------------------------------------------
-- Numbers
-- ---------------------------------------------------------------------------

theorem digitsValue_eq (cs : List Char) : digitsValue cs = Nat.ofDigitChars 10 cs 0 := by
  rw [digitsValue, Nat.ofDigitChars_eq_foldl]
  simp only [Nat.mul_comm]

theorem toList_padded (width n : Nat) : (padded width n).toList =
    List.replicate (width - (Nat.toDigits 10 n).length) '0' ++ Nat.toDigits 10 n := by
  simp only [padded, Nat.toString_eq_repr, String.toList_append, String.toList_ofList,
    Nat.toList_repr, ← String.length_toList]

theorem isDigit_of_mem_padded {width n : Nat} {c : Char} (h : c ∈ (padded width n).toList) :
    isDigit c = true := by
  rw [toList_padded] at h
  rcases List.mem_append.mp h with hZero | hDigit
  · rw [(List.mem_replicate.mp hZero).2]
    rfl
  · exact Nat.isDigit_of_mem_toDigits (by decide) (by decide) hDigit

theorem digitsValue_padded (width n : Nat) : digitsValue (padded width n).toList = n := by
  rw [digitsValue_eq, toList_padded, Nat.ofDigitChars_append, Nat.ofDigitChars_replicate_zero,
    Nat.mul_zero, Nat.ofDigitChars_ten_toDigits]

theorem padded_ne_nil (width n : Nat) : (padded width n).toList ≠ [] := by
  rw [toList_padded]
  exact List.append_ne_nil_of_right_ne_nil _ Nat.toDigits_ne_nil

theorem length_padded {width n : Nat} (hWidth : 0 < width) (h : n < 10 ^ width) :
    (padded width n).toList.length = width := by
  have hShort := (Nat.length_toDigits_le_iff (by decide) hWidth).mpr h
  rw [toList_padded, List.length_append, List.length_replicate]
  omega

/-- Digits are told from what follows, where that is no digit or too far away. -/
theorem takeWhile_digits {digits rest : List Char} {most : Nat}
    (hDigits : ∀ c ∈ digits, isDigit c = true) (hMost : digits.length ≤ most)
    (hStop : digits.length = most ∨ ∀ c ∈ rest.head?, isDigit c = false) :
    ((digits ++ rest).take most).takeWhile isDigit = digits := by
  rw [List.take_append, List.take_of_length_le hMost, List.takeWhile_append_of_pos hDigits]
  rcases hStop with hFull | hStop
  · simp [hFull]
  · cases rest with
    | nil => simp
    | cons c rest =>
      have hOther := hStop c rfl
      cases most - digits.length with
      | zero => simp
      | succ n => simp [hOther]

/-- Digits before something else are read as their number. -/
theorem readNumber?_digits {digits rest : List Char} {most : Nat} (hSome : digits ≠ [])
    (hDigits : ∀ c ∈ digits, isDigit c = true) (hMost : digits.length ≤ most)
    (hStop : digits.length = most ∨ ∀ c ∈ rest.head?, isDigit c = false) :
    readNumber? most (digits ++ rest) = some (digitsValue digits, rest) := by
  rw [readNumber?]
  simp only [takeWhile_digits hDigits hMost hStop, List.isEmpty_iff, if_neg hSome, List.drop_left]

theorem readNumber?_padded {width n most : Nat} (hWidth : 0 < width) (h : n < 10 ^ width)
    (hMost : width ≤ most) {rest : List Char}
    (hStop : width = most ∨ ∀ c ∈ rest.head?, isDigit c = false) :
    readNumber? most ((padded width n).toList ++ rest) = some (n, rest) := by
  have hLength := length_padded hWidth h
  rw [readNumber?_digits (padded_ne_nil width n) (fun c => isDigit_of_mem_padded)
    (hLength.trans_le hMost) (by rwa [hLength]), digitsValue_padded]

theorem not_isBlank_of_isDigit {c : Char} (h : isDigit c = true) : isBlank c = false := by
  simp only [isDigit, Bool.and_eq_true, decide_eq_true_eq, Char.le_def, UInt32.le_iff_toNat_le] at h
  have hLow : 48 ≤ c.toNat := h.1
  have hHigh : c.toNat ≤ 57 := h.2
  simp only [isBlank, Bool.or_eq_false_iff, Bool.and_eq_false_iff, decide_eq_false_iff_not,
    beq_eq_false_iff_ne]
  omega

theorem trimStart_cons {c : Char} (h : isBlank c = false) (rest : List Char) :
    trimStart (c :: rest) = c :: rest := by
  rw [trimStart, List.dropWhile_cons_of_neg (by simp [h])]

/-- The digits of a number begin with one. -/
theorem padded_cons (width n : Nat) : ∃ c rest, (padded width n).toList = c :: rest ∧
    isDigit c = true := by
  obtain ⟨c, rest, hPadded⟩ := List.exists_cons_of_ne_nil (padded_ne_nil width n)
  exact ⟨c, rest, hPadded, isDigit_of_mem_padded (hPadded ▸ List.mem_cons_self)⟩

theorem trimStart_padded (width n : Nat) (rest : List Char) :
    trimStart ((padded width n).toList ++ rest) = (padded width n).toList ++ rest := by
  obtain ⟨c, more, hPadded, hDigit⟩ := padded_cons width n
  rw [hPadded, List.cons_append, trimStart_cons (not_isBlank_of_isDigit hDigit)]

/-- Two digits are read, whatever follows. -/
theorem readPart?_padded {n : Nat} (h : n < 100) (rest : List Char) :
    readPart? 2 ((padded 2 n).toList ++ rest) = some (n, rest) := by
  rw [readPart?, trimStart_padded]
  exact readNumber?_padded (by decide) h (Nat.le_refl 2) (Or.inl rfl)

theorem readMark?_cons {c : Char} (h : isBlank c = false) (rest : List Char) :
    readMark? c (c :: rest) = some rest := by
  simp [readMark?, trimStart_cons h]

-- ---------------------------------------------------------------------------
-- Dates
-- ---------------------------------------------------------------------------

/-- Any number is read up to a mark after it. -/
theorem readNumber?_signed (n : Nat) (rest : List Char) :
    readNumber? ((padded 4 n).toList ++ '-' :: rest).length ((padded 4 n).toList ++ '-' :: rest) =
      some (n, '-' :: rest) := by
  have hStop : ∀ c ∈ ('-' :: rest).head?, isDigit c = false := by simp [isDigit]
  rw [readNumber?_digits (padded_ne_nil 4 n) (fun c => isDigit_of_mem_padded) (by simp)
    (Or.inr hStop), digitsValue_padded]

/-- A year that begins with a digit has four of them. -/
theorem readYear?_of_digit {c : Char} (h : isDigit c = true) (rest : List Char) :
    readYear? (c :: rest) = (readNumber? 4 (c :: rest)).map fun (n, r) => ((n : Int), r) := by
  rw [readYear?, trimStart_cons (not_isBlank_of_isDigit h)]
  split
  · next hSign =>
    obtain ⟨rfl, -⟩ := List.cons.inj hSign
    cases h
  · next hSign =>
    obtain ⟨rfl, -⟩ := List.cons.inj hSign
    cases h
  · rfl

/-- A year is read up to the mark after it. -/
theorem readYear?_yearText (y : Int) (rest : List Char) :
    readYear? ((yearText y).toList ++ '-' :: rest) = some (y, '-' :: rest) := by
  by_cases hFour : 0 ≤ y ∧ y ≤ 9999
  · obtain ⟨n, rfl⟩ := Int.eq_ofNat_of_zero_le hFour.1
    have hText : yearText n = padded 4 n := by simp [yearText, hFour.2]
    have hRead : readNumber? 4 ((padded 4 n).toList ++ '-' :: rest) = some (n, '-' :: rest) :=
      readNumber?_padded (by decide) (show n < 10 ^ 4 by omega) (Nat.le_refl 4) (Or.inl rfl)
    obtain ⟨c, more, hPadded, hDigit⟩ := padded_cons 4 n
    rw [hPadded, List.cons_append] at hRead
    rw [hText, hPadded, List.cons_append, readYear?_of_digit hDigit, hRead]
    rfl
  · have hText : (yearText y).toList ++ '-' :: rest =
        (if y < 0 then '-' else '+') :: ((padded 4 y.natAbs).toList ++ '-' :: rest) := by
      rw [yearText, if_neg (by simpa using hFour)]
      split <;> simp
    have hRead := readNumber?_signed y.natAbs rest
    rw [hText]
    by_cases hNegative : y < 0
    · have hMinus : ∀ cs, readYear? ('-' :: cs) =
          (readNumber? cs.length cs).map fun (n, r) => (-(n : Int), r) := fun _ => rfl
      have hValue : -(y.natAbs : Int) = y := by omega
      rw [if_pos hNegative, hMinus, hRead, Option.map_some]
      exact congrArg (fun year => some (year, '-' :: rest)) hValue
    · have hPlus : ∀ cs, readYear? ('+' :: cs) =
          (readNumber? cs.length cs).map fun (n, r) => ((n : Int), r) := fun _ => rfl
      have hValue : (y.natAbs : Int) = y := by omega
      rw [if_neg hNegative, hPlus, hRead, Option.map_some]
      exact congrArg (fun year => some (year, '-' :: rest)) hValue

theorem daysInMonth_le (y : Int) (m : Nat) : Date.daysInMonth y m ≤ 31 := by
  rw [Date.daysInMonth]
  split
  · split <;> decide
  · split <;> decide

theorem readDate?_dateText {d : Date} (hValid : d.isValid = true) (hYear : isYear d.year = true)
    (rest : List Char) : readDate? ((dateText d).toList ++ rest) = some (d, rest) := by
  have hMonth : d.month < 100 ∧ d.day < 100 := by
    have hDays := daysInMonth_le d.year d.month
    simp only [Date.isValid, Bool.and_eq_true, decide_eq_true_eq] at hValid
    omega
  have hText : (dateText d).toList ++ rest = (yearText d.year).toList ++
      '-' :: ((padded 2 d.month).toList ++ '-' :: ((padded 2 d.day).toList ++ rest)) := by
    simp [dateText]
  have hMark : isBlank '-' = false := by decide
  simp only [hText, readDate?, readYear?_yearText, Option.bind_eq_bind, Option.bind_some,
    readMark?_cons hMark, readPart?_padded hMonth.1, readPart?_padded hMonth.2, hValid, hYear,
    Bool.and_self, if_true]

-- ---------------------------------------------------------------------------
-- Times of day
-- ---------------------------------------------------------------------------

theorem secondOfDay_lt (t : Timestamp) : t.secondOfDay < 86400 := by
  rw [secondOfDay, Int.fmod_eq_emod_of_nonneg _ (by decide)]
  omega

/-- A fraction of so many places is read as its nanoseconds. -/
theorem readFraction?_padded {width n : Nat} (hWidth : 0 < width) (hWidth' : width ≤ 9)
    (h : n < 10 ^ width) :
    readFraction? ('.' :: ((padded width n).toList ++ ['Z'])) =
      some (n * tenTo (9 - width), ['Z']) := by
  have hLength := length_padded hWidth h
  have hTaken := @takeWhile_digits _ ['Z'] _ (fun c => @isDigit_of_mem_padded width n c)
    (hLength.trans_le hWidth') (Or.inr (by simp [isDigit]))
  rw [readFraction?]
  simp only [hTaken, List.isEmpty_iff, if_neg (padded_ne_nil width n), digitsValue_padded, hLength,
    List.drop_left' hLength]
  rfl

/-- The fraction of a second is read as it was, whatever its precision. -/
theorem readFraction?_fractionText {nanos : Nat} (h : nanos < second) :
    readFraction? ((fractionText nanos).toList ++ ['Z']) = some (nanos, ['Z']) := by
  have hPlaces : ∀ width n, 0 < width → width ≤ 9 → n < 10 ^ width → n * tenTo (9 - width) = nanos →
      readFraction? (("." ++ padded width n).toList ++ ['Z']) = some (nanos, ['Z']) := by
    intro width n hWidth hWidth' hSmall hValue
    rw [← hValue, ← readFraction?_padded hWidth hWidth' hSmall]
    simp
  rw [second] at h
  simp only [fractionText, beq_iff_eq]
  split
  · next hZero => simp [hZero, readFraction?]
  split
  · next hMillis => exact hPlaces 3 _ (by decide) (by decide) (by omega) (by simp [tenTo]; omega)
  split
  · next hMicros => exact hPlaces 6 _ (by decide) (by decide) (by omega) (by simp [tenTo]; omega)
  · exact hPlaces 9 _ (by decide) (by decide) (by omega) (by simp [tenTo])

/-- A clock reading with a fraction is read as its seconds since midnight and its nanoseconds. -/
theorem readTime?_parts {hour minute sec nanos : Nat} (hHour : hour < 24) (hMinute : minute < 60)
    (hSec : sec ≤ 60) (hNanos : nanos < second) :
    readTime? ((padded 2 hour).toList ++ ':' :: ((padded 2 minute).toList ++
        ':' :: ((padded 2 sec).toList ++ ((fractionText nanos).toList ++ ['Z'])))) =
      if sec = 60 then some (hour * 3600 + minute * 60 + 59, second + nanos, ['Z'])
      else some (hour * 3600 + minute * 60 + sec, nanos, ['Z']) := by
  have hColon : isBlank ':' = false := by decide
  have hInside : (decide (23 < hour) || decide (59 < minute) || decide (60 < sec)) = false := by
    simp only [Bool.or_eq_false_iff, decide_eq_false_iff_not]
    omega
  rw [readTime?]
  simp only [Option.bind_eq_bind, Option.bind_some, readPart?_padded (show hour < 100 by omega),
    readPart?_padded (show minute < 100 by omega), readPart?_padded (show sec < 100 by omega),
    readMark?_cons hColon, readFraction?_fractionText hNanos, hInside, Bool.false_eq_true, if_false,
    beq_iff_eq]

/-- The clock reading of a moment with its fraction, which may be of a leap second. -/
theorem readTime?_clock {t : Timestamp} (h : t.Representable) :
    readTime? ((t.clockText ++ ":" ++ t.secondText ++ fractionText (t.nanos % second)).toList ++
      ['Z']) = some (t.secondOfDay, t.nanos, ['Z']) := by
  have hDay := t.secondOfDay_lt
  have hPlaces : t.nanos % second < second := Nat.mod_lt _ (by decide)
  have hSecond : t.nanos / second = 0 ∧ t.nanos % second = t.nanos ∨
      t.nanos / second = 1 ∧ second + t.nanos % second = t.nanos ∧ t.secondOfDay % 60 = 59 := by
    have hSpan := h.nanos
    rw [second] at hSpan ⊢
    omega
  have hParts := readTime?_parts (show t.secondOfDay / 3600 < 24 by omega)
    (show t.secondOfDay % 3600 / 60 < 60 by omega)
    (show t.secondOfDay % 60 + t.nanos / second ≤ 60 by omega) hPlaces
  have hText : (t.clockText ++ ":" ++ t.secondText ++ fractionText (t.nanos % second)).toList ++
      ['Z'] = (padded 2 (t.secondOfDay / 3600)).toList ++
        ':' :: ((padded 2 (t.secondOfDay % 3600 / 60)).toList ++
          ':' :: ((padded 2 (t.secondOfDay % 60 + t.nanos / second)).toList ++
            ((fractionText (t.nanos % second)).toList ++ ['Z']))) := by
    simp [clockText, secondText]
  rw [hText, hParts]
  rcases hSecond with ⟨hZero, hNanos⟩ | ⟨hOne, hNanos, hLast⟩
  · have hClock : t.secondOfDay / 3600 * 3600 + t.secondOfDay % 3600 / 60 * 60 +
        (t.secondOfDay % 60 + 0) = t.secondOfDay := by omega
    rw [hZero, if_neg (by omega), hNanos, hClock]
  · have hClock : t.secondOfDay / 3600 * 3600 + t.secondOfDay % 3600 / 60 * 60 + 59 =
        t.secondOfDay := by omega
    rw [hOne, if_pos (by omega), hNanos, hClock]

-- ---------------------------------------------------------------------------
-- Moments
-- ---------------------------------------------------------------------------

/-- **The text of a moment is read as that moment**, for every precision, in every year of the
calendar, in a leap second too. -/
theorem ofText?_text {t : Timestamp} (h : t.Representable) : ofText? t.text = some t := by
  have hText : t.text.toList = (dateText t.date).toList ++ 'T' ::
      ((t.clockText ++ ":" ++ t.secondText ++ fractionText (t.nanos % second)).toList ++
        ['Z']) := by
    simp [text]
  have hDate : ∀ rest, readDate? ((dateText t.date).toList ++ rest) = some (t.date, rest) :=
    readDate?_dateText (Date.isValid_ofDays _) h.year
  have hZone : readZone? ['Z'] = some (0, []) := by decide
  have hSeconds : t.date.toDays * 86400 + t.secondOfDay - 0 = t.seconds := by
    have hDays := Date.toDays_ofDays (t.seconds.fdiv 86400)
    rw [date, hDays, secondOfDay, Int.fdiv_eq_ediv_of_nonneg _ (by decide),
      Int.fmod_eq_emod_of_nonneg _ (by decide)]
    omega
  have hBlank : trimStart [] = [] := rfl
  simp only [ofText?, hText, hDate, Option.bind_eq_bind, Option.bind_some, beq_self_eq_true,
    Bool.true_or, if_true, readTime?_clock h, hZone, hSeconds, hBlank, List.isEmpty_nil, h.year,
    Bool.and_self]

-- ---------------------------------------------------------------------------
-- What is read
-- ---------------------------------------------------------------------------

/-- Digits write less than one with as many zeros. -/
theorem digitsValue_lt {cs : List Char} (h : ∀ c ∈ cs, isDigit c = true) :
    digitsValue cs < 10 ^ cs.length := by
  have hFrom : ∀ n, cs.foldl (fun n c => n * 10 + (c.toNat - '0'.toNat)) n <
      (n + 1) * 10 ^ cs.length := by
    induction cs with
    | nil => intro n; simp
    | cons c rest ih =>
      intro n
      obtain ⟨hDigit, hRest⟩ := List.forall_mem_cons.mp h
      have hValue : c.toNat - '0'.toNat ≤ 9 := by
        simp only [isDigit, Bool.and_eq_true, decide_eq_true_eq, Char.le_def,
          UInt32.le_iff_toNat_le] at hDigit
        have hHigh : c.toNat ≤ 57 := hDigit.2
        have hZero : '0'.toNat = 48 := rfl
        omega
      calc (c :: rest).foldl (fun n c => n * 10 + (c.toNat - '0'.toNat)) n
          < (n * 10 + (c.toNat - '0'.toNat) + 1) * 10 ^ rest.length := ih hRest _
        _ ≤ (n + 1) * 10 * 10 ^ rest.length := Nat.mul_le_mul_right _ (by omega)
        _ = (n + 1) * 10 ^ (c :: rest).length := by
          rw [List.length_cons, Nat.pow_succ', Nat.mul_assoc]
  simpa [digitsValue] using hFrom 0

theorem readFraction?_lt {cs rest : List Char} {nanos : Nat}
    (h : readFraction? cs = some (nanos, rest)) : nanos < second := by
  unfold readFraction? at h
  split at h
  · next places =>
    simp only at h
    split at h
    · cases h
    · obtain ⟨rfl, -⟩ := Prod.mk.inj (Option.some.inj h)
      have hDigits : ∀ c ∈ (places.take 9).takeWhile isDigit, isDigit c = true :=
        List.all_eq_true.mp List.all_takeWhile
      have hLength : ((places.take 9).takeWhile isDigit).length ≤ 9 :=
        (List.takeWhile_prefix isDigit).length_le.trans (by simp)
      calc digitsValue ((places.take 9).takeWhile isDigit) *
            tenTo (9 - ((places.take 9).takeWhile isDigit).length)
          < 10 ^ ((places.take 9).takeWhile isDigit).length *
            10 ^ (9 - ((places.take 9).takeWhile isDigit).length) :=
            Nat.mul_lt_mul_of_pos_right (digitsValue_lt hDigits) (Nat.pow_pos (by decide))
        _ = second := by
          rw [← Nat.pow_add, Nat.add_sub_cancel' hLength]
          rfl
  · obtain ⟨rfl, -⟩ := Prod.mk.inj (Option.some.inj h)
    exact Nat.zero_lt_succ _

/-- An offset is in whole minutes. -/
theorem dvd_of_readOffset? {cs rest : List Char} {offset : Int}
    (h : readOffset? cs = some (offset, rest)) : (60 : Int) ∣ offset := by
  unfold readOffset? at h
  split at h
  · obtain ⟨rfl, -⟩ := Prod.mk.inj (Option.some.inj h)
    exact Int.dvd_zero 60
  · obtain ⟨rfl, -⟩ := Prod.mk.inj (Option.some.inj h)
    exact Int.dvd_zero 60
  · split at h
    · split at h
      · split at h
        · simp only at h
          split at h
          · obtain ⟨rfl, -⟩ := Prod.mk.inj (Option.some.inj h)
            split
            · exact Int.dvd_mul_left _ 60
            · exact Int.dvd_neg.mpr (Int.dvd_mul_left _ 60)
          · cases h
        · cases h
      · cases h
    · cases h
  · cases h

theorem dvd_of_readZone? {cs rest : List Char} {offset : Int}
    (h : readZone? cs = some (offset, rest)) : (60 : Int) ∣ offset := by
  unfold readZone? at h
  simp only at h
  split at h
  · obtain ⟨rfl, -⟩ := Prod.mk.inj (Option.some.inj h)
    exact Int.dvd_zero 60
  · exact dvd_of_readOffset? h

/-- The nanoseconds of a clock reading are those of a second, or of a leap second. -/
theorem readTime?_nanos {cs rest : List Char} {time nanos : Nat}
    (h : readTime? cs = some (time, nanos, rest)) :
    nanos < second ∨ nanos < 2 * second ∧ time % 60 = 59 := by
  simp only [readTime?, Option.bind_eq_bind, Option.bind_eq_some_iff] at h
  obtain ⟨⟨hour, cs₁⟩, -, cs₂, -, ⟨minute, cs₃⟩, -, cs₄, -, ⟨sec, cs₅⟩, -, ⟨fraction, cs₆⟩,
    hFraction, h⟩ := h
  have hPlaces := readFraction?_lt hFraction
  simp only at h
  split at h
  · cases h
  · split at h
    · obtain ⟨rfl, hNanos⟩ := Prod.mk.inj (Option.some.inj h)
      obtain ⟨rfl, -⟩ := Prod.mk.inj hNanos
      exact Or.inr ⟨by omega, by omega⟩
    · obtain ⟨rfl, hNanos⟩ := Prod.mk.inj (Option.some.inj h)
      obtain ⟨rfl, -⟩ := Prod.mk.inj hNanos
      exact Or.inl hPlaces

/-- **What is read has a text**: it is a moment of the calendar. -/
theorem representable_of_ofText? {s : String} {t : Timestamp} (h : ofText? s = some t) :
    t.Representable := by
  obtain ⟨⟨date, cs⟩, -, h⟩ := Option.bind_eq_some_iff.mp h
  simp only at h
  -- a mark stands between the date and the time
  split at h
  · split at h
    · obtain ⟨cs, -, h⟩ := Option.bind_eq_some_iff.mp h
      obtain ⟨⟨time, nanos, cs⟩, hTime, h⟩ := Option.bind_eq_some_iff.mp h
      obtain ⟨⟨offset, cs⟩, hZone, h⟩ := Option.bind_eq_some_iff.mp h
      simp only at h
      split at h
      · next hAll =>
        obtain rfl := Option.some.inj h
        refine ⟨(Bool.and_eq_true_iff.mp hAll).2, ?_⟩
        refine (readTime?_nanos hTime).imp_right fun ⟨hLeap, hLast⟩ => ⟨hLeap, ?_⟩
        obtain ⟨minutes, rfl⟩ := dvd_of_readZone? hZone
        rw [secondOfDay, Int.fmod_eq_emod_of_nonneg _ (by decide)]
        show ((date.toDays * 86400 + time - 60 * minutes) % 86400).toNat % 60 = 59
        omega
      · cases h
    · cases h
  · cases h

end Timestamp

end ScriptWarden
