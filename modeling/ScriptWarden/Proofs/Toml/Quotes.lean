import Mathlib.Data.List.Basic
import ScriptWarden.Toml.Quoted

/-!
# Quoted texts of TOML

A text is written in one of five styles: between double or single quotes, each once or three times,
the latter with a line break behind the opening where the text has lines. What is written depends on
the text alone, so reading has to find out the style and where the text ends. The one thing that is
asked of what follows is that it does not go on with a quote, which would be taken for the text.

## Results

* `escapeChar_cases` — a character stands as it is, or behind a backslash as something that is read
  as the character.
* `readBasicLine_escaped`, `readBasicLines_escaped` — texts between double quotes.
* `readLiteralLine_plain`, `readLiteralLines_plain` — texts between single quotes.
* `readText?_quotedChars` — any text is read as it was written.
-/

namespace ScriptWarden.Toml

/-- What follows a text does not go on with a quote. -/
def NoQuoteNext (rest : List Char) : Prop := ∀ c ∈ rest.head?, c ≠ '"' ∧ c ≠ '\''

theorem noQuoteNext_cons {c : Char} {rest : List Char} :
    NoQuoteNext (c :: rest) ↔ c ≠ '"' ∧ c ≠ '\'' := by
  simp [NoQuoteNext]

variable {cs rest : List Char} {n : Nat}

-- ---------------------------------------------------------------------------
-- Escapes
-- ---------------------------------------------------------------------------

/-- A character that may stand in a text is no line break. -/
theorem readNewline?_of_isTextChar {c : Char} (h : isTextChar c = true) (rest : List Char) :
    readNewline? (c :: rest) = none := by
  have hLine : c ≠ '\n' := by rintro rfl; revert h; decide
  have hReturn : c ≠ '\r' := by rintro rfl; revert h; decide
  unfold readNewline?
  split <;> simp_all

/-- What may stand behind a backslash for a character: it is read as the character, and does not
look like the end of a line. -/
structure Escapes (c : Char) (code : List Char) : Prop where
  read : ∀ rest, readEscape? (code ++ rest) = some (c, rest)
  goesOn : ∀ rest, readNewline? ((code ++ rest).dropWhile isSpace) = none

/-- The letters that stand for characters. -/
def escapeLetters : List (Char × Char) :=
  [('\n', 'n'), ('"', '"'), ('\\', '\\'), ('\t', 't'), ('\r', 'r'), ('\x08', 'b'), ('\x0c', 'f')]

theorem escapes_letter {c letter : Char} (h : (c, letter) ∈ escapeLetters) :
    Escapes c [letter] := by
  simp only [escapeLetters, List.mem_cons, Prod.mk.injEq, List.not_mem_nil, or_false] at h
  rcases h with ⟨rfl, rfl⟩ | ⟨rfl, rfl⟩ | ⟨rfl, rfl⟩ | ⟨rfl, rfl⟩ | ⟨rfl, rfl⟩ | ⟨rfl, rfl⟩ |
    ⟨rfl, rfl⟩ <;> exact ⟨fun _ => rfl, fun _ => rfl⟩

/-- The four digits of a code below 128 are read as its character. -/
theorem readCode?_fourDigits {c : Char} (h : c.toNat < 128) (rest : List Char) :
    readCode? 4 (fourDigits c.toNat ++ rest) = some (c, rest) := by
  have hAll : ∀ n : Fin 128, ((fourDigits n).mapM hexValue?).map
      (fun ds => (ds.length, ds.foldl (fun n d => n * 16 + d) 0)) = some (4, n.val) := by
    decide +kernel
  obtain ⟨digits, hDigits, hValue⟩ := Option.map_eq_some_iff.mp (hAll ⟨c.toNat, h⟩)
  obtain ⟨hCount, hFold⟩ := Prod.mk.inj hValue
  have hValid : c.toNat.isValidChar := c.valid
  have hTake : (fourDigits c.toNat ++ rest).take 4 = fourDigits c.toNat := List.take_left' rfl
  have hDrop : (fourDigits c.toNat ++ rest).drop 4 = rest := List.drop_left' rfl
  simp only [readCode?, hTake, hDrop, hDigits, Option.bind_eq_bind, Option.bind_some, hCount, hFold,
    hValid, beq_self_eq_true, decide_true, Bool.and_self, if_true, Char.ofNat_toNat]

theorem escapes_code {c : Char} (h : c.toNat < 128) : Escapes c ('u' :: fourDigits c.toNat) where
  read rest := readCode?_fourDigits h rest
  goesOn _ := rfl

/-- How a character is written between double quotes: as it is, if it may stand in a text or is a
line break in a text of several lines, else behind a backslash. -/
theorem escapeChar_cases (lines : Bool) (c : Char) :
    (lines = true ∧ c = '\n' ∧ escapeChar lines c = ['\n']) ∨
    (isTextChar c = true ∧ c ≠ '"' ∧ c ≠ '\\' ∧ escapeChar lines c = [c]) ∨
    ∃ code, escapeChar lines c = '\\' :: code ∧ Escapes c code := by
  by_cases hLetter : ∃ letter, (c, letter) ∈ escapeLetters
  · obtain ⟨letter, hMem⟩ := hLetter
    by_cases hKept : lines = true ∧ c = '\n'
    · obtain ⟨rfl, rfl⟩ := hKept
      exact .inl ⟨rfl, rfl, rfl⟩
    · refine .inr (.inr ⟨[letter], ?_, escapes_letter hMem⟩)
      simp only [escapeLetters, List.mem_cons, Prod.mk.injEq, List.not_mem_nil, or_false] at hMem
      rcases hMem with ⟨rfl, rfl⟩ | ⟨rfl, rfl⟩ | ⟨rfl, rfl⟩ | ⟨rfl, rfl⟩ | ⟨rfl, rfl⟩ | ⟨rfl, rfl⟩ |
        ⟨rfl, rfl⟩
      · rw [Bool.eq_false_iff.mpr fun h => hKept ⟨h, rfl⟩]
        rfl
      all_goals rfl
  · have hNone : ∀ x ∈ escapeLetters, c ≠ x.1 := fun x hMem hEq => hLetter ⟨x.2, hEq ▸ hMem⟩
    simp only [escapeLetters, List.forall_mem_cons, List.not_mem_nil, false_implies, implies_true,
      and_true] at hNone
    obtain ⟨hLine, hQuote, hBackslash, hTab, hReturn, hBack, hFeed⟩ := hNone
    have hCodes : c.toNat ≠ 8 ∧ c.toNat ≠ 12 := by
      refine ⟨fun h => hBack ?_, fun h => hFeed ?_⟩ <;> rw [← c.ofNat_toNat, h]
    have hWritten : escapeChar lines c =
        if isTextChar c then [c] else '\\' :: 'u' :: fourDigits c.toNat := by
      simp [escapeChar, hLine, hQuote, hBackslash, hTab, hReturn, hCodes]
    by_cases hText : isTextChar c = true
    · exact .inr (.inl ⟨hText, hQuote, hBackslash, by rw [hWritten, if_pos hText]⟩)
    · refine .inr (.inr ⟨_, by rw [hWritten, if_neg hText], escapes_code ?_⟩)
      have hControl : ¬ ' ' ≤ c ∨ c.toNat = 127 := by
        by_contra hNot
        obtain ⟨hSpace, hOther⟩ := not_or.mp hNot
        exact hText (by simp [isTextChar, Decidable.not_not.mp hSpace, hOther])
      rcases hControl with hLow | hDelete
      · have hCode : ¬ 32 ≤ c.toNat := hLow
        omega
      · omega

theorem escapeChar_head {lines : Bool} {c : Char} : ∀ x ∈ (escapeChar lines c).head?, x ≠ '"' := by
  rcases escapeChar_cases lines c with ⟨-, -, h⟩ | ⟨-, hQuote, -, h⟩ | ⟨code, h, -⟩ <;> simp_all

theorem escapeChar_ne_nil (lines : Bool) (c : Char) : escapeChar lines c ≠ [] := by
  rcases escapeChar_cases lines c with ⟨-, -, h⟩ | ⟨-, -, -, h⟩ | ⟨code, h, -⟩ <;> simp [h]

/-- What stands between double quotes does not begin with one. -/
theorem escaped_head (lines : Bool) (cs : List Char) :
    ∀ x ∈ ((cs.map (escapeChar lines)).flatten).head?, x ≠ '"' := by
  cases cs with
  | nil => simp
  | cons c cs =>
    rw [List.map_cons, List.flatten_cons, List.head?_append_of_ne_nil _ (escapeChar_ne_nil lines c)]
    exact escapeChar_head

theorem length_le_escaped (lines : Bool) (cs : List Char) :
    cs.length ≤ ((cs.map (escapeChar lines)).flatten).length := by
  induction cs with
  | nil => simp
  | cons c cs ih =>
    have := List.length_pos_iff.mpr (escapeChar_ne_nil lines c)
    simp only [List.map_cons, List.flatten_cons, List.length_append, List.length_cons]
    omega

-- ---------------------------------------------------------------------------
-- Texts between double quotes
-- ---------------------------------------------------------------------------

/-- A text of one line is read up to its closing quote. -/
theorem readBasicLine_escaped (h : cs.length < n) :
    readBasicLine n ((cs.map (escapeChar false)).flatten ++ '"' :: rest) = some (cs, rest) := by
  induction cs generalizing n with
  | nil =>
    obtain ⟨n, rfl⟩ := Nat.exists_eq_succ_of_ne_zero (Nat.ne_of_gt h)
    rfl
  | cons c cs ih =>
    obtain ⟨n, rfl⟩ := Nat.exists_eq_succ_of_ne_zero (Nat.ne_zero_of_lt h)
    have hRest := ih (Nat.lt_of_succ_lt_succ h)
    rw [List.map_cons, List.flatten_cons, List.append_assoc]
    rcases escapeChar_cases false c with ⟨h, -⟩ | ⟨hText, hQuote, hBackslash, hWritten⟩ |
      ⟨code, hWritten, hEscapes⟩
    · cases h
    · rw [hWritten]
      simp [readBasicLine, hQuote, hBackslash, hText, hRest]
    · rw [hWritten]
      simp [readBasicLine, hEscapes.read, hRest]

/-- Three quotes that are not followed by a fourth close a text. -/
theorem readBasicLines_closing (h : NoQuoteNext rest) :
    readBasicLines (n + 1) ('"' :: '"' :: '"' :: rest) = some ([], rest) := by
  have hRun : rest.takeWhile (· == '"') = [] := by
    cases rest with
    | nil => rfl
    | cons c rest => simp [(noQuoteNext_cons.mp h).1]
  simp [readBasicLines, hRun, closingRun]

/-- A text of several lines is read up to its closing quotes. -/
theorem readBasicLines_escaped (hNext : NoQuoteNext rest) (h : cs.length < n) :
    readBasicLines n ((cs.map (escapeChar true)).flatten ++ '"' :: '"' :: '"' :: rest) =
      some (cs, rest) := by
  induction cs generalizing n with
  | nil =>
    obtain ⟨n, rfl⟩ := Nat.exists_eq_succ_of_ne_zero (Nat.ne_of_gt h)
    exact readBasicLines_closing hNext
  | cons c cs ih =>
    obtain ⟨n, rfl⟩ := Nat.exists_eq_succ_of_ne_zero (Nat.ne_zero_of_lt h)
    have hRest := ih (Nat.lt_of_succ_lt_succ h)
    rw [List.map_cons, List.flatten_cons, List.append_assoc]
    rcases escapeChar_cases true c with ⟨-, rfl, hWritten⟩ |
      ⟨hText, hQuote, hBackslash, hWritten⟩ | ⟨code, hWritten, hEscapes⟩
    · rw [hWritten]
      simp [readBasicLines, readNewline?, hRest]
    · rw [hWritten]
      simp [readBasicLines, hQuote, hBackslash, readNewline?_of_isTextChar hText, hText, hRest]
    · rw [hWritten]
      simp [readBasicLines, hEscapes.goesOn, hEscapes.read, hRest]

-- ---------------------------------------------------------------------------
-- Texts between single quotes
-- ---------------------------------------------------------------------------

/-- A text of one line is read up to its closing quote. -/
theorem readLiteralLine_plain (h : ∀ c ∈ cs, c ≠ '\'' ∧ isTextChar c = true) :
    readLiteralLine (cs ++ '\'' :: rest) = some (cs, rest) := by
  have hTake : (cs ++ '\'' :: rest).takeWhile (fun c => c != '\'' && isTextChar c) = cs := by
    rw [List.takeWhile_append_of_pos fun c hMem => by simp [h c hMem]]
    simp
  simp [readLiteralLine, hTake]

/-- Three quotes that are not followed by a fourth close a text. -/
theorem readLiteralLines_closing (h : NoQuoteNext rest) :
    readLiteralLines (n + 1) ('\'' :: '\'' :: '\'' :: rest) = some ([], rest) := by
  have hRun : rest.takeWhile (· == '\'') = [] := by
    cases rest with
    | nil => rfl
    | cons c rest => simp [(noQuoteNext_cons.mp h).2]
  simp [readLiteralLines, hRun, closingRun]

/-- A text that can stand between tripled single quotes as it is. -/
structure Tripleable (cs : List Char) : Prop where
  kept : ∀ c ∈ cs, c = '\n' ∨ isTextChar c = true
  noTriple : hasTripleQuote cs = false
  noLast : cs.getLast? ≠ some '\''

theorem Tripleable.tail {c : Char} (h : Tripleable (c :: cs)) : Tripleable cs where
  kept x hMem := h.kept x (List.mem_cons_of_mem c hMem)
  noTriple := (Bool.or_eq_false_iff.mp h.noTriple).2
  noLast hLast := h.noLast (by
    cases cs with
    | nil => cases hLast
    | cons x cs => simpa using hLast)

/-- A text of several lines is read up to its closing quotes. -/
theorem readLiteralLines_plain (hNext : NoQuoteNext rest) (hText : Tripleable cs)
    (h : cs.length < n) :
    readLiteralLines n (cs ++ '\'' :: '\'' :: '\'' :: rest) = some (cs, rest) := by
  induction n generalizing cs with
  | zero => exact absurd h (Nat.not_lt_zero _)
  | succ n ih =>
    have hShorter : ∀ tail : List Char, tail.length < cs.length → Tripleable tail →
        readLiteralLines n (tail ++ '\'' :: '\'' :: '\'' :: rest) = some (tail, rest) :=
      fun _ hLength hTail => ih hTail (by omega)
    match cs, hText with
    | [], _ => exact readLiteralLines_closing hNext
    | c :: cs, hText =>
      by_cases hQuote : c = '\''
      · -- a quote and what follows it: no quote, or one more
        subst hQuote
        match cs, hText with
        | [], hText => exact absurd rfl hText.noLast
        | c :: cs, hText =>
          by_cases hSecond : c = '\''
          · subst hSecond
            match cs, hText with
            | [], hText => exact absurd rfl hText.noLast
            | c :: cs, hText =>
              have hThird : c ≠ '\'' := by
                rintro rfl
                have := hText.noTriple
                simp [hasTripleQuote] at this
              have hRest := hShorter (c :: cs) (by simp) hText.tail.tail
              rw [List.cons_append] at hRest
              simp [readLiteralLines, hThird, hRest]
          · have hRest := hShorter (c :: cs) (by simp) hText.tail
            rw [List.cons_append] at hRest
            simp [readLiteralLines, hSecond, hRest]
      · have hRest := hShorter cs (by simp) hText.tail
        rcases hText.kept c List.mem_cons_self with rfl | hKept
        · simp [readLiteralLines, readNewline?, hRest]
        · simp [readLiteralLines, hQuote, readNewline?_of_isTextChar hKept, hKept, hRest]

-- ---------------------------------------------------------------------------
-- The five styles
-- ---------------------------------------------------------------------------

theorem tripleable_of_prefersLiteral (h : prefersLiteral cs = true) : Tripleable cs := by
  simp only [prefersLiteral, Bool.and_eq_true, List.all_eq_true, Bool.or_eq_true, beq_iff_eq,
    Bool.not_eq_true', bne_iff_ne] at h
  obtain ⟨⟨⟨-, hKept⟩, hTriple⟩, hLast⟩ := h
  exact ⟨hKept, hTriple, hLast⟩

theorem readText?_tripledBasic (cs : List Char) : readText? ('"' :: '"' :: '"' :: cs) =
    readBasicLines ((dropNewline cs).length + 1) (dropNewline cs) := rfl

theorem readText?_tripledLiteral (cs : List Char) : readText? ('\'' :: '\'' :: '\'' :: cs) =
    readLiteralLines ((dropNewline cs).length + 1) (dropNewline cs) := rfl

theorem readText?_basic (h : isTripled '"' ('"' :: cs) = false) :
    readText? ('"' :: cs) = readBasicLine (cs.length + 1) cs := by
  have hOther : isTripled '\'' ('"' :: cs) = false := rfl
  simp [readText?, h, hOther, readLineText?]

theorem readText?_literal (h : isTripled '\'' ('\'' :: cs) = false) :
    readText? ('\'' :: cs) = readLiteralLine cs := by
  have hOther : isTripled '"' ('\'' :: cs) = false := rfl
  simp [readText?, h, hOther, readLineText?]

/-- A text between double quotes is not held to be tripled: where it is empty, the closing quote is
not followed by another. -/
theorem isTripled_basic (hNext : NoQuoteNext rest) (cs : List Char) :
    isTripled '"' ('"' :: ((cs.map (escapeChar false)).flatten ++ '"' :: rest)) = false := by
  have hHead := escaped_head false cs
  cases hBody : (cs.map (escapeChar false)).flatten with
  | nil =>
    cases rest with
    | nil => rfl
    | cons c rest => simp [isTripled, List.isPrefixOf, (noQuoteNext_cons.mp hNext).1.symm]
  | cons c body =>
    have hFirst : c ≠ '"' := hHead c (by simp [hBody])
    simp [isTripled, List.isPrefixOf, hFirst.symm]

/-- Any text is read as it was written. -/
theorem readText?_quotedChars (cs : List Char) (hNext : NoQuoteNext rest) :
    readText? (quotedChars cs ++ rest) = some (cs, rest) := by
  rw [quotedChars]
  by_cases hLiteral : prefersLiteral cs = true
  · have hText := tripleable_of_prefersLiteral hLiteral
    have hLong : cs.length < (cs ++ '\'' :: '\'' :: '\'' :: rest).length + 1 := by
      rw [List.length_append]
      omega
    rw [if_pos hLiteral]
    split
    · -- the line break behind the opening is not part of the text
      simp only [List.cons_append, List.nil_append, List.append_assoc, readText?_tripledLiteral]
      exact readLiteralLines_plain hNext hText hLong
    · next hLines =>
      have hPlain : ∀ c ∈ cs, c ≠ '\n' := by rintro c hMem rfl; exact hLines (by simpa using hMem)
      have hKept : ∀ c ∈ cs, isTextChar c = true := fun c hMem =>
        (hText.kept c hMem).resolve_left (hPlain c hMem)
      obtain ⟨c, cs, rfl⟩ : ∃ c tail, cs = c :: tail := by
        cases cs with
        | nil => cases hLiteral
        | cons c cs => exact ⟨c, cs, rfl⟩
      split
      · have hFirst : dropNewline (c :: cs ++ '\'' :: '\'' :: '\'' :: rest) =
            c :: cs ++ '\'' :: '\'' :: '\'' :: rest := by
          rw [dropNewline, List.cons_append,
            readNewline?_of_isTextChar (hKept c List.mem_cons_self), Option.getD_none]
        simp only [List.cons_append, List.nil_append, List.append_assoc,
          readText?_tripledLiteral] at hFirst ⊢
        rw [hFirst]
        exact readLiteralLines_plain hNext hText hLong
      · next hQuotes =>
        have hNoQuote : ∀ x ∈ c :: cs, x ≠ '\'' := by
          rintro x hMem rfl
          exact hQuotes (by simpa using hMem)
        have hSingle : isTripled '\'' ('\'' :: (c :: cs ++ '\'' :: rest)) = false := by
          simp [isTripled, List.isPrefixOf, (hNoQuote c List.mem_cons_self).symm]
        simp only [List.append_assoc, List.singleton_append]
        rw [List.cons_append, readText?_literal hSingle]
        exact readLiteralLine_plain fun x hMem => ⟨hNoQuote x hMem, hKept x hMem⟩
  · rw [if_neg hLiteral]
    have hLong : ∀ lines closing, cs.length <
        ((cs.map (escapeChar lines)).flatten ++ closing).length + 1 := fun lines closing => by
      rw [List.length_append]
      have := length_le_escaped lines cs
      omega
    split
    · next hLines =>
      simp only [hLines, List.cons_append, List.nil_append, List.append_assoc,
        readText?_tripledBasic]
      exact readBasicLines_escaped hNext (hLong true _)
    · next hLines =>
      simp only [Bool.eq_false_iff.mpr hLines, List.append_assoc, List.singleton_append]
      rw [List.cons_append, readText?_basic (isTripled_basic hNext cs)]
      exact readBasicLine_escaped (hLong false _)

end ScriptWarden.Toml
