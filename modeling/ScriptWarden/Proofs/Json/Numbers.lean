import ScriptWarden.Json.Reader
import ScriptWarden.Numeric.Shortest
import ScriptWarden.Proofs.Json.Strings

/-!
# Numbers of JSON

A number ends where a comma or the end of a list or an object stands. Whole numbers of 64 bits are
read as they were written. What reads a real number rounds more than once, so that some are read as
a neighbour; one that is read back from its own text is read back inside any other text too, since
what reads it looks no further than its end.

## Results

* `reads_nat`, `reads_neg` — whole numbers are read as they were written.
* `kept_readNumber` — a number is read alike when more follows it.
* `reads_real` — a number that is read back alone is read back everywhere.
-/

namespace ScriptWarden

open String (utf8EncodeChar)

/-- A step and what follows it succeed when the step does and what follows does on its result. -/
theorem bind_eq_ok_iff {ε α β : Type} {r : Except ε α} {f : α → Except ε β} {b : β} :
    (r >>= f) = .ok b ↔ ∃ a, r = .ok a ∧ f a = .ok b := by
  cases r with
  | error e => simp [bind, Except.bind]
  | ok a => simp [bind, Except.bind]

namespace Json

variable {α : Type} {bs rest : List UInt8} {p q : LinePlace} {negative positive : Bool}
  {significand : Nat}

-- ---------------------------------------------------------------------------
-- What follows a value
-- ---------------------------------------------------------------------------

/-- What may follow a value: nothing, a comma, or the end of a list or an object. -/
def Stops (rest : List UInt8) : Prop :=
  ∀ b ∈ rest.head?, b = ascii ',' ∨ b = ascii ']' ∨ b = ascii '\x7d'

/-- A reader gives a value for some bytes, whatever follows them. -/
def Reads (reader : Reader α) (bytes : List UInt8) (a : α) : Prop :=
  ∀ place rest, Stops rest → ∃ place', reader ⟨bytes ++ rest, place⟩ = .ok (a, ⟨rest, place'⟩)

theorem stops_nil : Stops [] := by simp [Stops]

theorem stops_cons {b : UInt8} (h : b = ascii ',' ∨ b = ascii ']' ∨ b = ascii '\x7d')
    (rest : List UInt8) : Stops (b :: rest) := by
  intro b' hHead
  rwa [← Option.some.inj hHead]

@[simp]
theorem peek_mk (bs : List UInt8) (p : LinePlace) : Cursor.peek ⟨bs, p⟩ = bs.head? := rfl

@[simp]
theorem skip_cons (b : UInt8) (bs : List UInt8) (p : LinePlace) :
    Cursor.skip ⟨b :: bs, p⟩ = ⟨bs, Cursor.placeAfter p b⟩ := rfl

/-- Nothing that goes on with a number follows one. -/
theorem Stops.ends (h : Stops rest) : ∀ b ∈ rest.head?, isDigitByte b = false ∧
    (b == ascii '.') = false ∧ (b == ascii 'e') = false ∧ (b == ascii 'E') = false := by
  intro b hHead
  rcases h b hHead with rfl | rfl | rfl <;> decide

theorem Stops.not_digit (h : Stops rest) : rest.head?.any isDigitByte = false := by
  cases rest with
  | nil => rfl
  | cons b rest => exact (h.ends b rfl).1

theorem Stops.nextIs_point (h : Stops rest) : nextIs ⟨rest, p⟩ ['.'] = false := by
  cases rest with
  | nil => rfl
  | cons b rest => simp [nextIs, h.ends b rfl]

theorem Stops.nextIs_letter (h : Stops rest) : nextIs ⟨rest, p⟩ ['e', 'E'] = false := by
  cases rest with
  | nil => rfl
  | cons b rest => simp [nextIs, h.ends b rfl]

theorem Stops.nextIs_more (h : Stops rest) : nextIs ⟨rest, p⟩ ['.', 'e', 'E'] = false := by
  cases rest with
  | nil => rfl
  | cons b rest => simp [nextIs, h.ends b rfl]

-- ---------------------------------------------------------------------------
-- Whole numbers
-- ---------------------------------------------------------------------------

theorem toNat_ascii {c : Char} (h : c.toNat < 128) : (ascii c).toNat = c.toNat := by
  rw [ascii, Nat.toUInt8, UInt8.toNat_ofNat', Nat.mod_eq_of_lt (by omega)]

theorem isDigit_iff {c : Char} : c.isDigit = true ↔ 48 ≤ c.toNat ∧ c.toNat ≤ 57 := by
  simp only [Char.isDigit, Bool.and_eq_true, decide_eq_true_eq, ge_iff_le, UInt32.le_iff_toNat_le]
  rfl

theorem isDigitByte_iff {b : UInt8} : isDigitByte b = true ↔ 48 ≤ b.toNat ∧ b.toNat ≤ 57 := by
  simp [isDigitByte, UInt8.le_iff_toNat_le]

theorem isDigitByte_ascii {c : Char} (h : c.isDigit = true) :
    isDigitByte (ascii c) = true ∧ digitOf (ascii c) = c.toNat - '0'.toNat := by
  obtain ⟨hLow, hHigh⟩ := isDigit_iff.mp h
  rw [isDigitByte_iff, digitOf, toNat_ascii (by omega)]
  exact ⟨⟨hLow, hHigh⟩, rfl⟩

theorem le_ofDigitChars (cs : List Char) (n : Nat) : n ≤ Nat.ofDigitChars 10 cs n := by
  rw [Nat.ofDigitChars_eq_ofDigitChars_zero]
  have hPower : 1 ≤ 10 ^ cs.length := Nat.one_le_pow _ _ (by omega)
  calc n = 1 * n := (Nat.one_mul n).symm
    _ ≤ 10 ^ cs.length * n := Nat.mul_le_mul_right n hPower
    _ ≤ _ := Nat.le_add_right _ _

/-- Digits that 64 bits hold are read up to their end. -/
theorem readDigits_digits (negative : Bool) {cs : List Char}
    (hDigits : ∀ c ∈ cs, c.isDigit = true) {m : Nat} (hSteps : cs.length < m)
    (hHeld : Nat.ofDigitChars 10 cs significand ≤ maxU64) (hStops : Stops rest) (p : LinePlace) :
    ∃ q, readDigits negative m significand ⟨cs.map ascii ++ rest, p⟩ =
      .ok (wholeOf negative (Nat.ofDigitChars 10 cs significand), ⟨rest, q⟩) := by
  obtain ⟨m, rfl⟩ : ∃ k, m = k + 1 := ⟨m - 1, by omega⟩
  induction cs generalizing significand p m with
  | nil =>
    refine ⟨p, ?_⟩
    rw [readDigits]
    simp only [List.map_nil, List.nil_append, peek_mk, Nat.ofDigitChars_nil,
      hStops.nextIs_more]
    cases hHead : rest.head? with
    | none => rfl
    | some b => simp [(hStops.ends b hHead).1]
  | cons c cs ih =>
    obtain ⟨hDigit, hRest⟩ := List.forall_mem_cons.mp hDigits
    obtain ⟨hByte, hValue⟩ := isDigitByte_ascii hDigit
    have hNext : significand * 10 + digitOf (ascii c) =
        10 * significand + (c.toNat - '0'.toNat) := by rw [hValue, Nat.mul_comm]
    rw [Nat.ofDigitChars_cons] at hHeld ⊢
    have hNotOver : ¬ maxU64 < 10 * significand + (c.toNat - '0'.toNat) :=
      Nat.not_lt.mpr (Nat.le_trans (le_ofDigitChars cs _) hHeld)
    obtain ⟨m, rfl⟩ : ∃ k, m = k + 1 := ⟨m - 1, by simp at hSteps; omega⟩
    obtain ⟨q, hRead⟩ := ih hRest hHeld (Cursor.placeAfter p (ascii c)) m (by simpa using hSteps)
    refine ⟨q, ?_⟩
    rw [readDigits]
    simp only [List.map_cons, List.cons_append, peek_mk, List.head?_cons, hByte, if_true, hNext,
      if_neg hNotOver, skip_cons]
    exact hRead

/-- The digits of a whole number begin with a zero only where they are that zero. -/
theorem toDigits_zero_cons {n : Nat} {cs : List Char} (h : Nat.toDigits 10 n = '0' :: cs) :
    cs = [] := by
  induction n using Nat.strongRecOn generalizing cs with
  | ind n ih =>
    rw [Nat.toDigits_eq_if (by decide)] at h
    split at h
    · exact (List.cons.inj h).2.symm
    · next hMany =>
      obtain ⟨c, front, hFront⟩ := List.exists_cons_of_ne_nil (@Nat.toDigits_ne_nil (n / 10) 10)
      rw [hFront] at h
      obtain ⟨rfl, -⟩ := List.cons.inj h
      obtain rfl := ih (n / 10) (by omega) hFront
      have hNone : n / 10 = 0 := by
        rw [← @Nat.ofDigitChars_ten_toDigits (n / 10), hFront]
        rfl
      omega

/-- A whole number is read after its sign. -/
theorem readNumber_toDigits (negative : Bool) {n : Nat} (hHeld : n ≤ maxU64) (hStops : Stops rest)
    (p : LinePlace) :
    ∃ q, readNumber negative ⟨(Nat.toDigits 10 n).map ascii ++ rest, p⟩ =
      .ok (wholeOf negative n, ⟨rest, q⟩) := by
  obtain ⟨c, cs, hDigits⟩ := List.exists_cons_of_ne_nil (@Nat.toDigits_ne_nil n 10)
  have hAll : ∀ d ∈ c :: cs, d.isDigit = true := fun d hMem =>
    Nat.isDigit_of_mem_toDigits (by decide) (by decide) (hDigits ▸ hMem)
  obtain ⟨hFirst, hRest⟩ := List.forall_mem_cons.mp hAll
  obtain ⟨hByte, hValue⟩ := isDigitByte_ascii hFirst
  have hNumber : Nat.ofDigitChars 10 cs (digitOf (ascii c)) = n := by
    have hWhole := @Nat.ofDigitChars_ten_toDigits n
    rwa [hDigits, Nat.ofDigitChars_cons, Nat.mul_zero, Nat.zero_add, ← hValue] at hWhole
  obtain ⟨q, hRead⟩ := readDigits_digits negative hRest
    (show cs.length < (ascii c :: (cs.map ascii ++ rest)).length + 1 by simp; omega)
    (Nat.le_trans (Nat.le_of_eq hNumber) hHeld) hStops (Cursor.placeAfter p (ascii c))
  refine ⟨q, ?_⟩
  rw [hNumber] at hRead
  rw [hDigits, readNumber]
  simp only [List.map_cons, List.cons_append, peek_mk, List.head?_cons, skip_cons, hByte, if_true]
  split
  · next hZero =>
    have hChar : c = '0' := by
      have hCode := congrArg UInt8.toNat (eq_of_beq hZero)
      rw [toNat_ascii (by have := isDigit_iff.mp hFirst; omega)] at hCode
      exact Char.toNat_inj.mp hCode
    subst hChar
    obtain rfl := toDigits_zero_cons hDigits
    rw [List.map_nil, List.nil_append, hStops.not_digit, if_neg Bool.false_ne_true]
    exact hRead
  · exact hRead

-- ---------------------------------------------------------------------------
-- Values that hold no others
-- ---------------------------------------------------------------------------

theorem skipBlanks_cons {b : UInt8} (h : 32 < b) (bs : List UInt8) (p : LinePlace) :
    Cursor.skipBlanks ⟨b :: bs, p⟩ = ⟨b :: bs, p⟩ := by
  have hNotBlank : ∀ n : UInt8, n ≤ 32 → (b == n) = false := fun n hLow =>
    beq_false_of_ne fun hSame => absurd (hSame ▸ hLow) (UInt8.not_le.mpr h)
  simp [Cursor.skipBlanks, Cursor.skipBlanks.go, hNotBlank 32 (by decide), hNotBlank 10 (by decide),
    hNotBlank 9 (by decide), hNotBlank 13 (by decide)]

/-- A value that begins like one that holds no others is read as one. -/
theorem readWith_scalar {b : UInt8} (hSolid : 32 < b) (hList : b ≠ ascii '[')
    (hObject : b ≠ ascii '\x7b') (inner : Option (Reader Json)) (bs : List UInt8) (p : LinePlace) :
    readWith inner ⟨b :: bs, p⟩ = readScalar b ⟨b :: bs, p⟩ := by
  simp [readWith, skipBlanks_cons hSolid, hList, hObject]

theorem readBelow_scalar {b : UInt8} (hSolid : 32 < b) (hList : b ≠ ascii '[')
    (hObject : b ≠ ascii '\x7b') (depth : Nat) (bs : List UInt8) (p : LinePlace) :
    readBelow depth ⟨b :: bs, p⟩ = readScalar b ⟨b :: bs, p⟩ := by
  cases depth <;> exact readWith_scalar hSolid hList hObject _ bs p

theorem ne_ascii_of_digit {b : UInt8} (h : isDigitByte b = true) {c : Char}
    (hOther : isDigitByte (ascii c) = false) : b ≠ ascii c := by
  rintro rfl
  exact Bool.false_ne_true (hOther.symm.trans h)

theorem solid_of_digit {b : UInt8} (h : isDigitByte b = true) : 32 < b := by
  obtain ⟨hLow, -⟩ := isDigitByte_iff.mp h
  rw [UInt8.lt_iff_toNat_lt]
  exact Nat.lt_of_lt_of_le (by decide) hLow

theorem readBelow_digit {b : UInt8} (h : isDigitByte b = true) (depth : Nat) (bs : List UInt8)
    (p : LinePlace) : readBelow depth ⟨b :: bs, p⟩ = readNumber false ⟨b :: bs, p⟩ := by
  rw [readBelow_scalar (solid_of_digit h) (ne_ascii_of_digit h (by decide))
    (ne_ascii_of_digit h (by decide)), readScalar]
  simp [h, ne_ascii_of_digit h (show isDigitByte (ascii 'n') = false by decide),
    ne_ascii_of_digit h (show isDigitByte (ascii 't') = false by decide),
    ne_ascii_of_digit h (show isDigitByte (ascii 'f') = false by decide),
    ne_ascii_of_digit h (show isDigitByte (ascii '-') = false by decide)]

theorem readBelow_minus (depth : Nat) (bs : List UInt8) (p : LinePlace) :
    readBelow depth ⟨ascii '-' :: bs, p⟩ = readNumber true ⟨bs, Cursor.placeAfter p (ascii '-')⟩ :=
  (readBelow_scalar (by decide) (by decide) (by decide) depth bs p).trans rfl

theorem encodeUtf8_toString_nat (n : Nat) :
    encodeUtf8 (toString n) = (Nat.toDigits 10 n).map ascii := by
  have hText : (toString n).toList = Nat.toDigits 10 n := by
    rw [Nat.toString_eq_repr, Nat.toList_repr]
  rw [encodeUtf8_ascii, hText]
  intro c hMem
  rw [hText] at hMem
  have hCode := isDigit_iff.mp (Nat.isDigit_of_mem_toDigits (by decide) (by decide) hMem)
  omega

/-- **A whole number of 64 bits** is read as it was written. -/
theorem reads_nat {n : Nat} (h : n ≤ maxU64) (depth : Nat) :
    Reads (readBelow depth) (encodeUtf8 (write (.nat n))) (.nat n) := by
  intro p rest hStops
  obtain ⟨c, cs, hDigits⟩ := List.exists_cons_of_ne_nil (@Nat.toDigits_ne_nil n 10)
  have hFirst : isDigitByte (ascii c) = true := (isDigitByte_ascii
    (Nat.isDigit_of_mem_toDigits (by decide) (by decide) (hDigits ▸ List.mem_cons_self))).1
  obtain ⟨q, hRead⟩ := readNumber_toDigits false h hStops p
  refine ⟨q, ?_⟩
  rw [write, encodeUtf8_toString_nat]
  rw [hDigits, List.map_cons, List.cons_append] at hRead ⊢
  rw [readBelow_digit hFirst, hRead]
  rfl

/-- The negative of a whole number that 64 bits hold is read as it was written. -/
theorem reads_neg {n : Nat} (hPositive : 0 < n) (h : n ≤ twoTo 63) (depth : Nat) :
    Reads (readBelow depth) (encodeUtf8 (write (.neg n))) (.neg n) := by
  intro p rest hStops
  have hHeld : n ≤ maxU64 := Nat.le_trans h (by decide)
  obtain ⟨q, hRead⟩ := readNumber_toDigits true hHeld hStops
    (Cursor.placeAfter p (ascii '-'))
  have hWhole : wholeOf true n = .neg n := by
    simp [wholeOf, Nat.ne_of_gt hPositive, Nat.not_lt.mpr h]
  have hMark : encodeUtf8 "-" = [ascii '-'] := by simp [encodeUtf8_ascii]
  refine ⟨q, ?_⟩
  rw [write, encodeUtf8_append, hMark, encodeUtf8_toString_nat, List.singleton_append,
    List.cons_append, readBelow_minus, hRead, hWhole]

-- ---------------------------------------------------------------------------
-- Numbers with more behind them
-- ---------------------------------------------------------------------------

/-- When more bytes follow, a reader gives the same number, and leaves them behind what it left
before. -/
def Kept (bs rest : List UInt8) (alone followed : Except ReadFault (Json × Cursor)) : Prop :=
  ∀ j c, alone = .ok (j, c) →
    c.rest <:+ bs ∧ ∃ q, followed = .ok (j, ⟨c.rest ++ rest, q⟩)

theorem kept_error (f : ReadFault) (followed : Except ReadFault (Json × Cursor)) :
    Kept bs rest (.error f) followed := by
  intro j c h
  cases h

theorem kept_ok (left : List UInt8) (h : left <:+ bs) (j : Json) :
    Kept bs rest (.ok (j, ⟨left, p⟩)) (.ok (j, ⟨left ++ rest, q⟩)) := by
  rintro j c hRead
  cases hRead
  exact ⟨h, q, rfl⟩

theorem Kept.suffix {bs' : List UInt8} {alone followed : Except ReadFault (Json × Cursor)}
    (h : Kept bs rest alone followed) (hSuffix : bs <:+ bs') : Kept bs' rest alone followed := by
  intro j c hRead
  obtain ⟨hLeft, hFollowed⟩ := h j c hRead
  exact ⟨hLeft.trans hSuffix, hFollowed⟩

/-- Where a number is made of its digits matters for faults only. -/
theorem realOf_place {exponent : Int} {c c' : Cursor} {j : Json}
    (h : realOf negative significand exponent c = .ok j) :
    realOf negative significand exponent c' = .ok j := by
  have hGo : ∀ (n : Nat) (x : Binary64) (e : Int), realOf.go negative c x e n = .ok j →
      realOf.go negative c' x e n = .ok j := by
    intro n
    induction n with
    | zero => exact fun x e h => h
    | succ n ih =>
      intro x e h
      rw [realOf.go] at h ⊢
      split at h
      · next hSmall =>
        rw [if_pos hSmall]
        split at h
        · next hWhole =>
          rw [if_pos hWhole]
          simp only at h ⊢
          split at h
          · next hFinite => rwa [if_pos hFinite]
          · cases h
        · next hBelow => rwa [if_neg hBelow]
      · next hLarge =>
        rw [if_neg hLarge]
        split at h
        · next hZero => rwa [if_pos hZero]
        · next hNotZero =>
          rw [if_neg hNotZero]
          split at h
          · cases h
          · next hBelow =>
            rw [if_neg hBelow]
            exact ih _ _ h
  exact hGo 4 _ _ h

theorem kept_realOf (bs : List UInt8) (exponent : Int) :
    Kept bs rest ((realOf negative significand exponent ⟨bs, p⟩).map (·, ⟨bs, p⟩))
      ((realOf negative significand exponent ⟨bs ++ rest, q⟩).map (·, ⟨bs ++ rest, q⟩)) := by
  cases hRead : realOf negative significand exponent ⟨bs, p⟩ with
  | error f => exact kept_error f _
  | ok j =>
    rw [realOf_place hRead]
    exact kept_ok bs List.suffix_rfl j

/-- Going past digits stops where they end. -/
theorem skipDigits_eq {n : Nat} (h : bs.length ≤ n) (p : LinePlace) :
    ∃ q, skipDigits n ⟨bs, p⟩ = ⟨bs.dropWhile isDigitByte, q⟩ := by
  induction n generalizing bs p with
  | zero =>
    obtain rfl := List.eq_nil_of_length_eq_zero (Nat.le_zero.mp h)
    exact ⟨p, rfl⟩
  | succ n ih =>
    cases bs with
    | nil => exact ⟨p, rfl⟩
    | cons b bs =>
      rw [skipDigits]
      cases hDigit : isDigitByte b with
      | false => exact ⟨p, by simp [hDigit]⟩
      | true =>
        obtain ⟨q, hSkip⟩ := ih (Nat.le_of_succ_le_succ h) (Cursor.placeAfter p b)
        exact ⟨q, by simpa [hDigit] using hSkip⟩

theorem Stops.dropWhile_append (h : Stops rest) (bs : List UInt8) :
    (bs ++ rest).dropWhile isDigitByte = bs.dropWhile isDigitByte ++ rest := by
  rw [List.dropWhile_append]
  split
  · next hNone =>
    rw [List.isEmpty_iff.mp hNone, List.nil_append]
    cases rest with
    | nil => rfl
    | cons b rest => exact List.dropWhile_cons_of_neg (by simpa using (h.ends b rfl).1)
  · rfl

/-- Going past digits leaves the same when more follows. -/
theorem kept_skipDigits (hStops : Stops rest) {n m : Nat} (hn : bs.length ≤ n)
    (hm : (bs ++ rest).length ≤ m) (j : Json) :
    Kept bs rest (.ok (j, skipDigits n ⟨bs, p⟩)) (.ok (j, skipDigits m ⟨bs ++ rest, q⟩)) := by
  obtain ⟨p', hAlone⟩ := skipDigits_eq hn p
  obtain ⟨q', hFollowed⟩ := skipDigits_eq hm q
  rw [hAlone, hFollowed, hStops.dropWhile_append]
  exact kept_ok _ (List.dropWhile_suffix _) j

theorem kept_readExponentDigits (hStops : Stops rest) {start : Int} {n m e : Nat}
    (hn : bs.length < n) (hm : (bs ++ rest).length < m) :
    Kept bs rest (readExponentDigits negative significand start positive n e ⟨bs, p⟩)
      (readExponentDigits negative significand start positive m e ⟨bs ++ rest, q⟩) := by
  induction bs generalizing n m e p q with
  | nil =>
    obtain ⟨n, rfl⟩ := Nat.exists_eq_succ_of_ne_zero (Nat.ne_zero_of_lt hn)
    obtain ⟨m, rfl⟩ := Nat.exists_eq_succ_of_ne_zero (Nat.ne_zero_of_lt hm)
    have hFollowed : readExponentDigits negative significand start positive (m + 1) e ⟨rest, q⟩ =
        (realOf negative significand (if positive then start + e else start - e) ⟨rest, q⟩).map
          (·, ⟨rest, q⟩) := by
      rw [readExponentDigits]
      cases hHead : rest.head? with
      | none => simp [hHead]
      | some b => simp [hHead, (hStops.ends b hHead).1]
    rw [List.nil_append, hFollowed]
    exact kept_realOf [] _
  | cons b bs ih =>
    obtain ⟨n, rfl⟩ := Nat.exists_eq_succ_of_ne_zero (Nat.ne_zero_of_lt hn)
    obtain ⟨m, rfl⟩ := Nat.exists_eq_succ_of_ne_zero (Nat.ne_zero_of_lt hm)
    rw [readExponentDigits, readExponentDigits]
    simp only [List.cons_append, peek_mk, List.head?_cons, skip_cons]
    split
    · split
      · split
        · exact kept_error _ _
        · exact (kept_skipDigits hStops (Nat.le_succ _) (Nat.le_succ _) _).suffix
            (List.suffix_cons b bs)
      · exact (ih (Nat.lt_of_succ_lt_succ hn) (Nat.lt_of_succ_lt_succ hm)).suffix
          (List.suffix_cons b bs)
    · exact kept_realOf (b :: bs) _

theorem length_lt_cons (b : UInt8) (bs : List UInt8) : bs.length < (b :: bs).length + 1 :=
  Nat.lt_succ_of_le (Nat.le_succ _)

@[simp]
theorem nextIs_cons (b : UInt8) (bs : List UInt8) (p : LinePlace) (cs : List Char) :
    nextIs ⟨b :: bs, p⟩ cs = cs.any fun x => b == ascii x := rfl

theorem kept_readExponent (hStops : Stops rest) (start : Int) (b : UInt8) :
    Kept (b :: bs) rest (readExponent negative significand start ⟨b :: bs, p⟩)
      (readExponent negative significand start ⟨b :: bs ++ rest, q⟩) := by
  have hDigits : ∀ (d : UInt8) (bs : List UInt8) {p q : LinePlace} (positive : Bool),
      Kept (d :: bs) rest
        (if isDigitByte d then
          readExponentDigits negative significand start positive ((d :: bs).length + 1)
            (digitOf d) ⟨bs, p⟩
        else Cursor.fail ⟨bs, p⟩ .invalidNumber)
        (if isDigitByte d then
          readExponentDigits negative significand start positive ((d :: (bs ++ rest)).length + 1)
            (digitOf d) ⟨bs ++ rest, q⟩
        else Cursor.fail ⟨bs ++ rest, q⟩ .invalidNumber) := by
    intro d bs p q positive
    split
    · exact (kept_readExponentDigits hStops (length_lt_cons d bs) (length_lt_cons d _)).suffix
        (List.suffix_cons d bs)
    · exact kept_error _ _
  unfold readExponent
  simp only [List.cons_append, skip_cons]
  cases bs with
  | nil => exact kept_error _ _
  | cons sign bs =>
    cases hSign : ['+', '-'].any fun x => sign == ascii x with
    | true =>
      simp only [List.cons_append, nextIs_cons, hSign, if_true, skip_cons]
      cases bs with
      | nil => exact kept_error _ _
      | cons d bs =>
        exact (hDigits d bs _).suffix ((List.suffix_cons sign _).trans (List.suffix_cons b _))
    | false =>
      simp only [List.cons_append, nextIs_cons, hSign, Bool.false_eq_true, if_false]
      exact (hDigits sign bs _).suffix (List.suffix_cons b _)

theorem kept_readAfterPlaces (hStops : Stops rest) (bs : List UInt8) (exponent : Int) :
    Kept bs rest (readAfterPlaces negative significand exponent ⟨bs, p⟩)
      (readAfterPlaces negative significand exponent ⟨bs ++ rest, q⟩) := by
  unfold readAfterPlaces
  cases bs with
  | nil =>
    simp only [List.nil_append, hStops.nextIs_letter, Bool.false_eq_true, if_false]
    exact kept_realOf [] _
  | cons b bs =>
    cases hLetter : ['e', 'E'].any fun x => b == ascii x with
    | true =>
      simp only [List.cons_append, nextIs_cons, hLetter, if_true]
      exact kept_readExponent hStops exponent b
    | false =>
      simp only [List.cons_append, nextIs_cons, hLetter, Bool.false_eq_true, if_false]
      exact kept_realOf (b :: bs) _

theorem kept_readPlaces (hStops : Stops rest) {start : Int} {n m places : Nat}
    (hn : bs.length < n) (hm : (bs ++ rest).length < m) :
    Kept bs rest (readPlaces negative start n significand places ⟨bs, p⟩)
      (readPlaces negative start m significand places ⟨bs ++ rest, q⟩) := by
  induction bs generalizing n m significand places p q with
  | nil =>
    obtain ⟨n, rfl⟩ := Nat.exists_eq_succ_of_ne_zero (Nat.ne_zero_of_lt hn)
    obtain ⟨m, rfl⟩ := Nat.exists_eq_succ_of_ne_zero (Nat.ne_zero_of_lt hm)
    rw [readPlaces]
    simp only [peek_mk, List.head?_nil]
    cases hNone : places == 0 with
    | true => exact kept_error _ _
    | false =>
      have hFollowed : readPlaces negative start (m + 1) significand places ⟨rest, q⟩ =
          readAfterPlaces negative significand (start - places) ⟨rest, q⟩ := by
        rw [readPlaces]
        cases hHead : rest.head? with
        | none => simp [hHead, hNone]
        | some b => simp [hHead, hNone, (hStops.ends b hHead).1]
      rw [List.nil_append, hFollowed]
      exact kept_readAfterPlaces hStops [] _
  | cons b bs ih =>
    obtain ⟨n, rfl⟩ := Nat.exists_eq_succ_of_ne_zero (Nat.ne_zero_of_lt hn)
    obtain ⟨m, rfl⟩ := Nat.exists_eq_succ_of_ne_zero (Nat.ne_zero_of_lt hm)
    rw [readPlaces, readPlaces]
    simp only [List.cons_append, peek_mk, List.head?_cons, skip_cons]
    split
    · split
      · obtain ⟨p', hAlone⟩ := skipDigits_eq (Nat.le_refl (b :: bs).length) p
        obtain ⟨q', hFollowed⟩ := skipDigits_eq (Nat.le_refl (b :: bs ++ rest).length) q
        rw [hAlone, ← List.cons_append, hFollowed, hStops.dropWhile_append]
        exact (kept_readAfterPlaces hStops _ _).suffix (List.dropWhile_suffix _)
      · exact (ih (Nat.lt_of_succ_lt_succ hn) (Nat.lt_of_succ_lt_succ hm)).suffix
          (List.suffix_cons b bs)
    · split
      · exact kept_error _ _
      · exact kept_readAfterPlaces hStops (b :: bs) _

theorem kept_readAfterDigits (hStops : Stops rest) (bs : List UInt8) (exponent : Int) :
    Kept bs rest (readAfterDigits negative significand exponent ⟨bs, p⟩)
      (readAfterDigits negative significand exponent ⟨bs ++ rest, q⟩) := by
  unfold readAfterDigits
  cases bs with
  | nil =>
    simp only [List.nil_append, hStops.nextIs_letter, hStops.nextIs_point, Bool.false_eq_true,
      if_false]
    exact kept_realOf [] _
  | cons b bs =>
    cases hPoint : ['.'].any fun x => b == ascii x with
    | true =>
      simp only [List.cons_append, nextIs_cons, hPoint, if_true, skip_cons]
      exact (kept_readPlaces hStops (length_lt_cons b bs) (length_lt_cons b _)).suffix
        (List.suffix_cons b bs)
    | false =>
      cases hLetter : ['e', 'E'].any fun x => b == ascii x with
      | true =>
        simp only [List.cons_append, nextIs_cons, hPoint, hLetter, Bool.false_eq_true, if_false,
          if_true]
        exact kept_readExponent hStops exponent b
      | false =>
        simp only [List.cons_append, nextIs_cons, hPoint, hLetter, Bool.false_eq_true, if_false]
        exact kept_realOf (b :: bs) _

theorem kept_readDigits (hStops : Stops rest) {n m : Nat} (hn : bs.length < n)
    (hm : (bs ++ rest).length < m) :
    Kept bs rest (readDigits negative n significand ⟨bs, p⟩)
      (readDigits negative m significand ⟨bs ++ rest, q⟩) := by
  induction bs generalizing n m significand p q with
  | nil =>
    obtain ⟨n, rfl⟩ := Nat.exists_eq_succ_of_ne_zero (Nat.ne_zero_of_lt hn)
    obtain ⟨m, rfl⟩ := Nat.exists_eq_succ_of_ne_zero (Nat.ne_zero_of_lt hm)
    have hFollowed : readDigits negative (m + 1) significand ⟨rest, q⟩ =
        .ok (wholeOf negative significand, ⟨rest, q⟩) := by
      rw [readDigits]
      simp only [peek_mk, hStops.nextIs_more]
      cases hHead : rest.head? with
      | none => rfl
      | some b => simp [(hStops.ends b hHead).1]
    rw [List.nil_append, hFollowed]
    exact kept_ok [] List.suffix_rfl _
  | cons b bs ih =>
    obtain ⟨n, rfl⟩ := Nat.exists_eq_succ_of_ne_zero (Nat.ne_zero_of_lt hn)
    obtain ⟨m, rfl⟩ := Nat.exists_eq_succ_of_ne_zero (Nat.ne_zero_of_lt hm)
    rw [readDigits, readDigits]
    simp only [List.cons_append, peek_mk, List.head?_cons, skip_cons]
    split
    · split
      · obtain ⟨p', hAlone⟩ := skipDigits_eq (Nat.le_refl (b :: bs).length) p
        obtain ⟨q', hFollowed⟩ := skipDigits_eq (Nat.le_refl (b :: bs ++ rest).length) q
        rw [hAlone, ← List.cons_append, hFollowed, hStops.dropWhile_append]
        simp only [List.length_append, Nat.add_sub_add_right]
        exact (kept_readAfterDigits hStops _ _).suffix (List.dropWhile_suffix _)
      · exact (ih (Nat.lt_of_succ_lt_succ hn) (Nat.lt_of_succ_lt_succ hm)).suffix
          (List.suffix_cons b bs)
    · cases hMore : ['.', 'e', 'E'].any fun x => b == ascii x with
      | true =>
        simp only [nextIs_cons, hMore, if_true]
        exact kept_readAfterDigits hStops (b :: bs) _
      | false =>
        simp only [nextIs_cons, hMore, Bool.false_eq_true, if_false]
        exact kept_ok (b :: bs) List.suffix_rfl _

/-- **A number is read alike when more follows it** that ends a number. -/
theorem kept_readNumber (hStops : Stops rest) :
    Kept bs rest (readNumber negative ⟨bs, p⟩) (readNumber negative ⟨bs ++ rest, q⟩) := by
  unfold readNumber
  cases bs with
  | nil => exact kept_error _ _
  | cons b bs =>
    simp only [List.cons_append, peek_mk, List.head?_cons, skip_cons]
    split
    · have hNext : (bs ++ rest).head?.any isDigitByte = bs.head?.any isDigitByte := by
        cases bs with
        | nil => exact hStops.not_digit
        | cons d bs => rfl
      by_cases hDigit : bs.head?.any isDigitByte = true
      · simp only [hDigit, if_true]
        exact kept_error _ _
      · simp only [hNext, hDigit]
        exact (kept_readDigits hStops (length_lt_cons b bs) (length_lt_cons b _)).suffix
          (List.suffix_cons b bs)
    · split
      · exact (kept_readDigits hStops (length_lt_cons b bs) (length_lt_cons b _)).suffix
          (List.suffix_cons b bs)
      · exact kept_error _ _

-- ---------------------------------------------------------------------------
-- Real numbers
-- ---------------------------------------------------------------------------

/-- The characters of decimals. -/
def IsNumeric (c : Char) : Prop := c.isDigit = true ∨ c = '-' ∨ c = '+' ∨ c = '.' ∨ c = 'e'

/-- A text of such characters. -/
def IsDecimal (s : String) : Prop := ∀ c ∈ s.toList, IsNumeric c

theorem IsDecimal.append {s t : String} (hs : IsDecimal s) (ht : IsDecimal t) :
    IsDecimal (s ++ t) := by
  intro c hMem
  rw [String.toList_append] at hMem
  exact (List.mem_append.mp hMem).elim (hs c) (ht c)

theorem isDecimal_digits (n : Nat) : IsDecimal (toString n) := by
  intro c hMem
  rw [Nat.toString_eq_repr, Nat.toList_repr] at hMem
  exact Or.inl (Nat.isDigit_of_mem_toDigits (by decide) (by decide) hMem)

/-- Some of the digits of a number. -/
theorem isDecimal_of_subset {cs : List Char} {n : Nat} (h : cs ⊆ (toString n).toList) :
    IsDecimal (String.ofList cs) := by
  intro c hMem
  rw [String.toList_ofList] at hMem
  exact isDecimal_digits n c (h hMem)

/-- The text of a number is a decimal. -/
theorem isDecimal_text (x : Binary64) : IsDecimal x.text := by
  have hSign : IsDecimal (if x.negative then "-" else "") := by
    cases x.negative <;> simp [IsDecimal, IsNumeric]
  have hZeros : ∀ n, IsDecimal (Binary64.zeros n) := by
    intro n c hMem
    rw [Binary64.zeros, String.toList_ofList] at hMem
    rw [(List.mem_replicate.mp hMem).2]
    exact Or.inl rfl
  have hPoint : IsDecimal "." ∧ IsDecimal ".0" ∧ IsDecimal "0." ∧ IsDecimal "0.0" := by
    simp [IsDecimal, IsNumeric]
  have hLetter : IsDecimal "e" ∧ IsDecimal "" := by simp [IsDecimal, IsNumeric]
  have hTake : ∀ n k, IsDecimal (String.ofList ((toString n).toList.take k)) := fun n k =>
    isDecimal_of_subset (List.take_subset k _)
  have hDrop : ∀ n k, IsDecimal (String.ofList ((toString n).toList.drop k)) := fun n k =>
    isDecimal_of_subset (List.drop_subset k _)
  obtain ⟨hDot, hWhole, hSmall, hZero⟩ := hPoint
  rw [Binary64.text]
  split
  · exact hSign.append hZero
  simp only
  split
  · exact ((hSign.append (isDecimal_digits _)).append (hZeros _)).append hWhole
  split
  · exact ((hSign.append (hTake _ _)).append hDot).append (hDrop _ _)
  split
  · exact ((hSign.append hSmall).append (hZeros _)).append (isDecimal_digits _)
  · have hTail : IsDecimal (if ((toString x.shortest.digits).toList.drop 1).isEmpty then ""
        else "." ++ String.ofList ((toString x.shortest.digits).toList.drop 1)) := by
      split
      · exact hLetter.2
      · exact hDot.append (hDrop _ _)
    have hPower : ∀ e : Int, IsDecimal (if e < 0 then "-" else "+") := by
      intro e
      split <;> simp [IsDecimal, IsNumeric]
    exact ((((hSign.append (hTake _ _)).append hTail).append hLetter.1).append (hPower _)).append
      (isDecimal_digits _)

end Json

/-- A number is read back from its text. What reads numbers rounds more than once, so that some
numbers are not. -/
def Binary64.RoundTrips (x : Binary64) : Prop := Json.parse x.text = .ok (.real x)

/-- Whether what is read is a number. -/
def Binary64.isRead (x : Binary64) : Except ReadFault Json → Bool
  | .ok (.real y) => y == x
  | _ => false

theorem Binary64.isRead_iff {x : Binary64} {r : Except ReadFault Json} :
    x.isRead r = true ↔ r = .ok (.real x) := by
  unfold isRead
  split
  · simp
  · next hOther => exact ⟨nofun, fun hRead => absurd hRead (hOther x)⟩

instance (x : Binary64) : Decidable x.RoundTrips := decidable_of_iff _ Binary64.isRead_iff

namespace Json

/-- The bytes of a decimal: no blank is among them, and none begins anything but a number. -/
theorem solid_of_isDecimal {s : String} (h : IsDecimal s) :
    ∀ b ∈ encodeUtf8 s, 32 < b ∧
      (isDigitByte b = true ∨ b = ascii '-' ∨ b = ascii '+' ∨ b = ascii '.' ∨ b = ascii 'e') := by
  have hCode : ∀ c ∈ s.toList, c.toNat < 128 := by
    intro c hMem
    rcases h c hMem with hDigit | rfl | rfl | rfl | rfl
    · have := isDigit_iff.mp hDigit
      omega
    all_goals decide
  intro b hByte
  rw [encodeUtf8_ascii hCode] at hByte
  obtain ⟨c, hMem, rfl⟩ := List.mem_map.mp hByte
  rcases h c hMem with hDigit | rfl | rfl | rfl | rfl
  · have hDigitByte := (isDigitByte_ascii hDigit).1
    exact ⟨solid_of_digit hDigitByte, Or.inl hDigitByte⟩
  all_goals decide

/-- What is read of a decimal is a number, which is read alike with more behind it. -/
theorem kept_readBelow {s : String} (h : IsDecimal s) (hStops : Stops rest) (depth depth' : Nat) :
    Kept (encodeUtf8 s) rest (readBelow depth ⟨encodeUtf8 s, p⟩)
      (readBelow depth' ⟨encodeUtf8 s ++ rest, q⟩) := by
  have hBytes := solid_of_isDecimal h
  cases hText : encodeUtf8 s with
  | nil =>
    have hNone : readBelow depth ⟨[], p⟩ = .error (.text .eofInValue p) := by cases depth <;> rfl
    rw [hNone]
    exact kept_error _ _
  | cons b bs =>
    rw [hText] at hBytes
    obtain ⟨hSolid, hFirst⟩ := hBytes b List.mem_cons_self
    rw [List.cons_append]
    rcases hFirst with hDigit | rfl | hOther
    · rw [readBelow_digit hDigit, readBelow_digit hDigit]
      exact kept_readNumber hStops
    · rw [readBelow_minus, readBelow_minus]
      exact (kept_readNumber hStops).suffix (List.suffix_cons _ bs)
    · have hRefused : readBelow depth ⟨b :: bs, p⟩ =
          Cursor.failNext ⟨b :: bs, p⟩ .expectedValue := by
        rcases hOther with rfl | rfl | rfl <;>
          exact (readBelow_scalar (by decide) (by decide) (by decide) depth bs p).trans rfl
      rw [hRefused]
      exact kept_error _ _

/-- What is left of a decimal that is read up to its end. -/
theorem rest_eq_nil {c : Cursor} (hEnd : readEnd c = .ok ()) (hSolid : ∀ b ∈ c.rest, 32 < b) :
    c.rest = [] := by
  obtain ⟨bs, p⟩ := c
  cases bs with
  | nil => rfl
  | cons b bs =>
    simp only [readEnd, skipBlanks_cons (hSolid b List.mem_cons_self), peek_mk,
      List.head?_cons] at hEnd
    cases hEnd

/-- **A number that is read back alone** is read back everywhere. -/
theorem reads_real {x : Binary64} (h : x.RoundTrips) (depth : Nat) :
    Reads (readBelow depth) (encodeUtf8 (write (.real x))) (.real x) := by
  intro p rest hStops
  have hDecimal := isDecimal_text x
  obtain ⟨⟨j, c⟩, hAlone, hAfter⟩ := bind_eq_ok_iff.mp h
  obtain ⟨_, hEnd, hValue⟩ := bind_eq_ok_iff.mp hAfter
  obtain rfl := Except.ok.inj hValue
  obtain ⟨hLeft, q, hFollowed⟩ := kept_readBelow hDecimal hStops maxDepth depth _ _ hAlone
  have hNothing : c.rest = [] := rest_eq_nil hEnd fun b hMem =>
    (solid_of_isDecimal hDecimal b (hLeft.subset hMem)).1
  rw [hNothing, List.nil_append] at hFollowed
  exact ⟨q, hFollowed⟩

end Json

end ScriptWarden
