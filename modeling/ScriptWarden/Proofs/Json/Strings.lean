import ScriptWarden.Json.Reader
import ScriptWarden.Proofs.Text.LossyReading

/-!
# Strings of JSON

A string is written between quotes, with escapes for quotes, backslashes and control characters. The
reader goes over it byte by byte and collects the bytes of the text, which it decodes at the end.

## Results

* `readStringBytes_char` — one character, escaped or not.
* `readString_quoted` — a string is read as it was written, whatever follows it.
-/

namespace ScriptWarden

open String (utf8EncodeChar)

theorem encodeUtf8_append (s t : String) : encodeUtf8 (s ++ t) = encodeUtf8 s ++ encodeUtf8 t := by
  simp [encodeUtf8_eq]

theorem encodeUtf8_toString (c : Char) : encodeUtf8 c.toString = utf8EncodeChar c := by
  simp [encodeUtf8_eq]

namespace Json

-- ---------------------------------------------------------------------------
-- What is written
-- ---------------------------------------------------------------------------

/-- The text of ASCII characters has one byte for each. -/
theorem encodeUtf8_ascii {s : String} (h : ∀ c ∈ s.toList, c.toNat < 128) :
    encodeUtf8 s = s.toList.map ascii := by
  rw [encodeUtf8_eq, ← List.flatMap_singleton' (s.toList.map ascii), List.flatMap_map]
  refine List.flatMap_congr fun c hMem => ?_
  have hCode := h c hMem
  rcases utf8EncodeChar_cases c with ⟨-, hBytes⟩ | ⟨hMore, -⟩ | ⟨hMore, -⟩ | ⟨hMore, -⟩
  · exact hBytes
  all_goals omega

/-- The bytes of a string between its quotes. -/
def quotedBytes (cs : List Char) : List UInt8 := cs.flatMap fun c => encodeUtf8 (escapeChar c)

theorem encodeUtf8_quote (s : String) :
    encodeUtf8 (quote s) = ascii '"' :: (quotedBytes s.toList ++ [ascii '"']) := by
  have hFrom : ∀ (cs : List Char) (acc : String),
      encodeUtf8 (cs.foldl (fun acc c => acc ++ escapeChar c) acc) =
        encodeUtf8 acc ++ quotedBytes cs := by
    intro cs
    induction cs with
    | nil => intro acc; simp [quotedBytes]
    | cons c rest ih =>
      intro acc
      rw [List.foldl_cons, ih, encodeUtf8_append, quotedBytes, quotedBytes, List.flatMap_cons,
        List.append_assoc]
  have hMark : encodeUtf8 "\"" = [ascii '"'] := by simp [encodeUtf8_ascii]
  rw [quote, encodeUtf8_append, hFrom, hMark]
  rfl

-- ---------------------------------------------------------------------------
-- What is read
-- ---------------------------------------------------------------------------

/-- Bytes that are neither quotes nor backslashes nor control characters are taken as they are. -/
theorem readStringBytes_plain {bytes : List UInt8}
    (h : ∀ b ∈ bytes, b ≠ ascii '"' ∧ b ≠ ascii '\\' ∧ 32 ≤ b) (n : Nat) (acc rest : List UInt8)
    (place : LinePlace) :
    ∃ place', readStringBytes (bytes.length + n) acc ⟨bytes ++ rest, place⟩ =
      readStringBytes n (bytes.reverse ++ acc) ⟨rest, place'⟩ := by
  induction bytes generalizing acc place with
  | nil => exact ⟨place, by simp⟩
  | cons b bytes ih =>
    obtain ⟨⟨hQuote, hBackslash, hLow⟩, hRest⟩ := List.forall_mem_cons.mp h
    obtain ⟨place', hRead⟩ := ih hRest (b :: acc) (Cursor.placeAfter place b)
    refine ⟨place', ?_⟩
    rw [List.length_cons, Nat.succ_add, readStringBytes]
    simp only [List.cons_append, beq_eq_false_iff_ne.mpr hQuote, beq_eq_false_iff_ne.mpr hBackslash,
      Bool.false_eq_true, if_false, if_neg (UInt8.not_lt.mpr hLow), Cursor.skip]
    rw [hRead, List.reverse_cons, List.append_assoc]
    rfl

/-- What an escape gives is collected as its bytes. -/
theorem readStringBytes_escape {c : Char} {rest rest' : List UInt8} {place place' : LinePlace}
    (h : readEscape (Cursor.skip ⟨ascii '\\' :: rest, place⟩) = .ok (c, ⟨rest', place'⟩)) (n : Nat)
    (acc : List UInt8) :
    readStringBytes (n + 1) acc ⟨ascii '\\' :: rest, place⟩ =
      readStringBytes n ((utf8EncodeChar c).reverse ++ acc) ⟨rest', place'⟩ := by
  have hQuote : (ascii '\\' == ascii '"') = false := by decide
  rw [readStringBytes]
  simp only [hQuote, Bool.false_eq_true, if_false, beq_self_eq_true, if_true, h, bind, Except.bind,
    encodeUtf8_toString]

/-- The letters that characters are escaped by. -/
def escapeLetters : List (Char × Char) :=
  [('"', '"'), ('\\', '\\'), ('b', '\x08'), ('f', '\x0c'), ('n', '\n'), ('r', '\r'), ('t', '\t')]

theorem readEscape_letter {letter c : Char} (h : (letter, c) ∈ escapeLetters) (rest : List UInt8)
    (place : LinePlace) :
    ∃ place', readEscape ⟨ascii letter :: rest, place⟩ = .ok (c, ⟨rest, place'⟩) := by
  refine ⟨Cursor.placeAfter place (ascii letter), ?_⟩
  simp only [escapeLetters, List.mem_cons, Prod.mk.injEq, List.not_mem_nil, or_false] at h
  rcases h with ⟨rfl, rfl⟩ | ⟨rfl, rfl⟩ | ⟨rfl, rfl⟩ | ⟨rfl, rfl⟩ | ⟨rfl, rfl⟩ | ⟨rfl, rfl⟩ |
    ⟨rfl, rfl⟩ <;> rfl

/-- The two digits of the code of a control character. -/
theorem hexDigit_bytes {n : Nat} (h : n < 32) :
    encodeUtf8 ("\\u00" ++ String.ofList [hexDigit (n / 16), hexDigit n]) =
        [ascii '\\', ascii 'u', 48, 48, ascii (hexDigit (n / 16)), ascii (hexDigit n)] ∧
      hexValue? (ascii (hexDigit (n / 16))) = some (n / 16) ∧
      hexValue? (ascii (hexDigit n)) = some (n % 16) := by
  have hAll : ∀ n : Fin 32,
      encodeUtf8 ("\\u00" ++ String.ofList [hexDigit (n / 16), hexDigit n]) =
          [ascii '\\', ascii 'u', 48, 48, ascii (hexDigit (n / 16)), ascii (hexDigit n)] ∧
        hexValue? (ascii (hexDigit (n.val / 16))) = some (n.val / 16) ∧
        hexValue? (ascii (hexDigit n)) = some (n.val % 16) := by decide +kernel
  exact hAll ⟨n, h⟩

theorem readHex4_code {n : Nat} (h : n < 32) (rest : List UInt8) (place : LinePlace) :
    ∃ place', readHex4
      ⟨48 :: 48 :: ascii (hexDigit (n / 16)) :: ascii (hexDigit n) :: rest, place⟩ =
      .ok (n, ⟨rest, place'⟩) := by
  obtain ⟨-, hHigh, hLow⟩ := hexDigit_bytes h
  have hZero : hexValue? 48 = some 0 := by decide
  have hValue : ((0 * 16 + 0) * 16 + n / 16) * 16 + n % 16 = n := by omega
  simp only [readHex4, hZero, hHigh, hLow, hValue]
  exact ⟨_, rfl⟩

/-- The escape of a control character by its code. -/
theorem readEscape_code {n : Nat} (h : n < 32) (rest : List UInt8) (place : LinePlace) :
    ∃ place', readEscape ⟨ascii 'u' :: 48 :: 48 :: ascii (hexDigit (n / 16)) ::
      ascii (hexDigit n) :: rest, place⟩ = .ok (Char.ofNat n, ⟨rest, place'⟩) := by
  have hNotLow : (decide (0xDC00 ≤ n) && decide (n ≤ 0xDFFF)) = false := by
    simp only [Bool.and_eq_false_iff, decide_eq_false_iff_not]
    omega
  have hPlain : (decide (n < 0xD800) || decide (0xDBFF < n)) = true := by
    simp only [Bool.or_eq_true, decide_eq_true_eq]
    omega
  obtain ⟨place', hHex⟩ := readHex4_code h rest (Cursor.placeAfter place (ascii 'u'))
  have hUnicode : ∀ bytes, readEscape ⟨ascii 'u' :: bytes, place⟩ =
      readUnicodeEscape ⟨bytes, Cursor.placeAfter place (ascii 'u')⟩ := fun _ => rfl
  refine ⟨place', ?_⟩
  rw [hUnicode, readUnicodeEscape, hHex]
  simp only [bind, Except.bind, hNotLow, hPlain, Bool.false_eq_true, if_false, if_true]

/-- The bytes of a character that is not escaped. -/
theorem plain_utf8EncodeChar {c : Char} (hQuote : c ≠ '"') (hBackslash : c ≠ '\\')
    (hControl : ¬ c.toNat < 0x20) :
    ∀ b ∈ utf8EncodeChar c, b ≠ ascii '"' ∧ b ≠ ascii '\\' ∧ 32 ≤ b := by
  have hByte : ∀ n, 32 ≤ n → n < 256 → n ≠ 34 → n ≠ 92 → UInt8.ofNat n ≠ ascii '"' ∧
      UInt8.ofNat n ≠ ascii '\\' ∧ 32 ≤ UInt8.ofNat n := by
    intro n hLow hHigh hNot34 hNot92
    have hValue : (UInt8.ofNat n).toNat = n := by
      rw [UInt8.toNat_ofNat', Nat.mod_eq_of_lt hHigh]
    refine ⟨fun h => hNot34 ?_, fun h => hNot92 ?_, ?_⟩
    · rw [← hValue, h]
      rfl
    · rw [← hValue, h]
      rfl
    · rw [UInt8.le_iff_toNat_le, hValue]
      exact hLow
  have hNot34 : c.toNat ≠ 34 := fun h => hQuote (Char.toNat_inj.mp h)
  have hNot92 : c.toNat ≠ 92 := fun h => hBackslash (Char.toNat_inj.mp h)
  rcases utf8EncodeChar_cases c with ⟨h, hc⟩ | ⟨h, h', hc⟩ | ⟨h, h', hc⟩ | ⟨h, h', hc⟩ <;>
    rw [hc] <;> simp only [List.forall_mem_cons, List.not_mem_nil, IsEmpty.forall_iff, implies_true,
      and_true]
  · exact hByte _ (by omega) (by omega) hNot34 hNot92
  · exact ⟨hByte _ (by omega) (by omega) (by omega) (by omega),
      hByte _ (by omega) (by omega) (by omega) (by omega)⟩
  · exact ⟨hByte _ (by omega) (by omega) (by omega) (by omega),
      hByte _ (by omega) (by omega) (by omega) (by omega),
      hByte _ (by omega) (by omega) (by omega) (by omega)⟩
  · exact ⟨hByte _ (by omega) (by omega) (by omega) (by omega),
      hByte _ (by omega) (by omega) (by omega) (by omega),
      hByte _ (by omega) (by omega) (by omega) (by omega),
      hByte _ (by omega) (by omega) (by omega) (by omega)⟩

/-- How a character is written: by a letter, by its code, or as it is. -/
theorem escapeChar_cases (c : Char) :
    (∃ letter, (letter, c) ∈ escapeLetters ∧
      encodeUtf8 (escapeChar c) = [ascii '\\', ascii letter]) ∨
    (c.toNat < 32 ∧ encodeUtf8 (escapeChar c) = [ascii '\\', ascii 'u', 48, 48,
      ascii (hexDigit (c.toNat / 16)), ascii (hexDigit c.toNat)]) ∨
    (encodeUtf8 (escapeChar c) = utf8EncodeChar c ∧
      ∀ b ∈ utf8EncodeChar c, b ≠ ascii '"' ∧ b ≠ ascii '\\' ∧ 32 ≤ b) := by
  by_cases hLetter : ∃ letter, (letter, c) ∈ escapeLetters
  · obtain ⟨letter, hMem⟩ := hLetter
    have hAll : ∀ p ∈ escapeLetters, encodeUtf8 (escapeChar p.2) = [ascii '\\', ascii p.1] := by
      decide +kernel
    exact Or.inl ⟨letter, hMem, hAll _ hMem⟩
  · have hNone : c ≠ '"' ∧ c ≠ '\\' ∧ c ≠ '\x08' ∧ c ≠ '\x0c' ∧ c ≠ '\n' ∧ c ≠ '\r' ∧ c ≠ '\t' := by
      simpa [escapeLetters, forall_and] using hLetter
    obtain ⟨hQuote, hBackslash, hBack, hFeed, hNewline, hReturn, hTab⟩ := hNone
    have hEscape : escapeChar c = if c.toNat < 0x20 then
        "\\u00" ++ String.ofList [hexDigit (c.toNat / 16), hexDigit c.toNat] else c.toString := by
      simp [escapeChar, hQuote, hBackslash, hNewline, hReturn, hTab, hBack, hFeed]
    by_cases hControl : c.toNat < 0x20
    · rw [hEscape, if_pos hControl]
      exact Or.inr (Or.inl ⟨hControl, (hexDigit_bytes hControl).1⟩)
    · rw [hEscape, if_neg hControl, encodeUtf8_toString]
      exact Or.inr (Or.inr ⟨rfl, plain_utf8EncodeChar hQuote hBackslash hControl⟩)

/-- **One character** is collected, escaped or not, in no more steps than it has bytes. -/
theorem readStringBytes_char (c : Char) {n : Nat} (h : (encodeUtf8 (escapeChar c)).length ≤ n)
    (acc rest : List UInt8) (place : LinePlace) :
    ∃ n' place', n ≤ n' + (encodeUtf8 (escapeChar c)).length ∧
      readStringBytes n acc ⟨encodeUtf8 (escapeChar c) ++ rest, place⟩ =
        readStringBytes n' ((utf8EncodeChar c).reverse ++ acc) ⟨rest, place'⟩ := by
  rcases escapeChar_cases c with ⟨letter, hLetter, hBytes⟩ | ⟨hControl, hBytes⟩ | ⟨hBytes, hPlain⟩
  · rw [hBytes] at h ⊢
    obtain ⟨m, rfl⟩ : ∃ m, n = m + 1 := ⟨n - 1, by simp at h; omega⟩
    obtain ⟨place', hRead⟩ :=
      readEscape_letter hLetter rest (Cursor.placeAfter place (ascii '\\'))
    exact ⟨m, place', by simp, readStringBytes_escape hRead m acc⟩
  · rw [hBytes] at h ⊢
    obtain ⟨m, rfl⟩ : ∃ m, n = m + 1 := ⟨n - 1, by simp at h; omega⟩
    obtain ⟨place', hRead⟩ :=
      readEscape_code hControl rest (Cursor.placeAfter place (ascii '\\'))
    rw [Char.ofNat_toNat] at hRead
    exact ⟨m, place', by simp, readStringBytes_escape hRead m acc⟩
  · rw [hBytes] at h ⊢
    obtain ⟨m, rfl⟩ := Nat.exists_eq_add_of_le h
    obtain ⟨place', hRead⟩ := readStringBytes_plain hPlain m acc rest place
    exact ⟨m, place', by omega, hRead⟩

theorem readStringBytes_quoted (cs : List Char) {n : Nat} (h : (quotedBytes cs).length < n)
    (acc rest : List UInt8) (place : LinePlace) :
    ∃ place', readStringBytes n acc ⟨quotedBytes cs ++ ascii '"' :: rest, place⟩ =
      .ok ((cs.flatMap utf8EncodeChar).reverse ++ acc, ⟨rest, place'⟩) := by
  induction cs generalizing n acc place with
  | nil =>
    obtain ⟨m, rfl⟩ : ∃ m, n = m + 1 := ⟨n - 1, by omega⟩
    exact ⟨Cursor.placeAfter place (ascii '"'), rfl⟩
  | cons c cs ih =>
    rw [quotedBytes, List.flatMap_cons, List.length_append] at h
    obtain ⟨m, place', hSteps, hRead⟩ := readStringBytes_char c
      (show (encodeUtf8 (escapeChar c)).length ≤ n by omega) acc
      (quotedBytes cs ++ ascii '"' :: rest) place
    obtain ⟨place'', hRest⟩ := ih (show (quotedBytes cs).length < m by rw [quotedBytes]; omega)
      ((utf8EncodeChar c).reverse ++ acc) place'
    refine ⟨place'', ?_⟩
    rw [quotedBytes, List.flatMap_cons, List.append_assoc]
    rw [quotedBytes] at hRead hRest
    rw [hRead, hRest, List.flatMap_cons, List.reverse_append, List.append_assoc]

/-- **A string is read as it was written**, whatever follows it. -/
theorem readString_quoted (s : String) (rest : List UInt8) (place : LinePlace) :
    ∃ place', readString ⟨quotedBytes s.toList ++ ascii '"' :: rest, place⟩ =
      .ok (s, ⟨rest, place'⟩) := by
  obtain ⟨place', hBytes⟩ := readStringBytes_quoted s.toList
    (show (quotedBytes s.toList).length < (quotedBytes s.toList ++ ascii '"' :: rest).length + 1 by
      rw [List.length_append]; omega) [] rest place
  have hText : decodeUtf8? (encodeUtf8 s) = some s := by
    rw [decodeUtf8?, decodeLossy_encodeUtf8]
    simp
  refine ⟨place', ?_⟩
  rw [readString, hBytes, List.append_nil]
  simp only [bind, Except.bind, List.reverse_reverse, ← encodeUtf8_eq, hText]

end Json

end ScriptWarden
