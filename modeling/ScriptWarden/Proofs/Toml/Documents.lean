import ScriptWarden.Proofs.Toml.Integers
import ScriptWarden.Proofs.Toml.Quotes
import ScriptWarden.Toml.Writer

/-!
# Documents of TOML

A document that was written is read as it was: its fields come line by line, and its tables each
behind a head. The fields here are those that settings need, which are texts, natural numbers of 64
bits and lists of texts, under names that stand without quotes.

## Results

* `readValue_flat` — a value is read up to the end of its last line.
* `goes_line`, `goes_head` — what reading a line or a head does to a draft.
* `parse?_write` — reading gives the fields that were written, if each name is given once.
-/

namespace ScriptWarden.Toml

variable {cs rest : List Char} {n : Nat} {name : String}

-- ---------------------------------------------------------------------------
-- What is passed over
-- ---------------------------------------------------------------------------

/-- A character that is neither blank nor the end of a line, nor begins a comment. -/
def Solid (c : Char) : Prop := isSpace c = false ∧ c ≠ '#' ∧ c ≠ '\n' ∧ c ≠ '\r'

instance (c : Char) : Decidable (Solid c) := inferInstanceAs (Decidable (_ ∧ _))

theorem skipSpaces_solid {c : Char} (h : Solid c) (cs : List Char) :
    skipSpaces (c :: cs) = c :: cs := by
  simp [skipSpaces, h.1]

theorem skipComment_solid {c : Char} (h : Solid c) (cs : List Char) :
    skipComment (c :: cs) = c :: cs := by
  unfold skipComment
  split
  · next hEq => exact absurd (List.cons.inj hEq).1 h.2.1
  · rfl

theorem readNewline?_solid {c : Char} (h : Solid c) (cs : List Char) :
    readNewline? (c :: cs) = none := by
  unfold readNewline?
  split
  · next hEq => exact absurd (List.cons.inj hEq).1 h.2.2.1
  · next hEq => exact absurd (List.cons.inj hEq).1 h.2.2.2
  · rfl

theorem skipFiller_solid {c : Char} (h : Solid c) (n : Nat) (cs : List Char) :
    skipFiller n (c :: cs) = c :: cs := by
  cases n with
  | zero => rfl
  | succ n =>
    simp [skipFiller, skipSpaces_solid h, skipComment_solid h, readNewline?_solid h]

theorem readEndOfLine?_solid {c : Char} (h : Solid c) (cs : List Char) :
    readEndOfLine? (c :: cs) = none := by
  simp [readEndOfLine?, skipSpaces_solid h, skipComment_solid h, readNewline?_solid h]

-- ---------------------------------------------------------------------------
-- Values
-- ---------------------------------------------------------------------------

/-- The values of settings: texts, natural numbers of 64 bits, and lists of texts. -/
inductive Flat : Toml → Prop where
  | string (s : String) : Flat (.string s)
  | nat {n : Nat} : isInteger n = true → Flat (.integer n)
  | strings (ss : List String) : Flat (.strings ss)

/-- A text as it is written. -/
def written (s : String) : List Char := quotedChars s.toList

theorem toList_inlineText (s : String) : (inlineText (.string s)).toList = written s := by
  simp [inlineText, written]

theorem written_head (s : String) : ∃ c cs, written s = c :: cs ∧ (c = '"' ∨ c = '\'') := by
  simp only [written, quotedChars]
  repeat' split
  all_goals simp

theorem solid_of_quote {c : Char} (h : c = '"' ∨ c = '\'') : Solid c := by
  rcases h with rfl | rfl <;> decide

theorem readValue_quote {c : Char} (h : c = '"' ∨ c = '\'') (depth : Nat) (cs : List Char) :
    readValue depth (c :: cs) =
      (readText? (c :: cs)).map fun r => (.string (String.ofList r.1), r.2) := by
  have hQuote : (c == '"' || c == '\'') = true := by simpa using h
  cases depth <;> simp only [readValue, hQuote, if_true]

/-- A text is read as it was written, unless a quote follows it. -/
theorem readValue_written (depth : Nat) (s : String) (hNext : NoQuoteNext rest) :
    readValue depth (written s ++ rest) = some (.string s, rest) := by
  obtain ⟨c, cs, hWritten, hQuote⟩ := written_head s
  have hRead := readText?_quotedChars s.toList hNext
  rw [← written] at hRead
  rw [hWritten, List.cons_append, readValue_quote hQuote, ← List.cons_append, ← hWritten, hRead]
  simp

theorem skipFiller_line {c : Char} (h : Solid c) (hn : 2 ≤ n) (cs : List Char) :
    skipFiller n ('\n' :: ' ' :: ' ' :: ' ' :: ' ' :: c :: cs) = c :: cs := by
  obtain ⟨n, rfl⟩ := Nat.exists_eq_add_of_le' hn
  have hLine : skipFiller (n + 2) ('\n' :: ' ' :: ' ' :: ' ' :: ' ' :: c :: cs) =
      skipFiller (n + 1) (' ' :: ' ' :: ' ' :: ' ' :: c :: cs) := rfl
  have hSpaces : skipSpaces (' ' :: ' ' :: ' ' :: ' ' :: c :: cs) = c :: cs :=
    skipSpaces_solid h cs
  rw [hLine, skipFiller, hSpaces, skipComment_solid h, readNewline?_solid h]

/-- An item of a list on a line of its own. -/
def itemLine (s : String) : List Char :=
  ' ' :: ' ' :: ' ' :: ' ' :: (written s ++ [',', '\n'])

/-- The items of a list that has a line for each, from behind the bracket. -/
theorem readItems_lines (depth : Nat) (ss : List String) (h : ss.length < n) :
    readItems (readValue depth) n ('\n' :: (ss.flatMap itemLine ++ ']' :: rest)) =
      some (ss.map .string, rest) := by
  induction ss generalizing n with
  | nil =>
    obtain ⟨n, rfl⟩ := Nat.exists_eq_succ_of_ne_zero (Nat.ne_of_gt h)
    rfl
  | cons s ss ih =>
    obtain ⟨n, rfl⟩ := Nat.exists_eq_succ_of_ne_zero (Nat.ne_zero_of_lt h)
    have hRest := ih (Nat.lt_of_succ_lt_succ h)
    generalize hMore : ss.flatMap itemLine ++ ']' :: rest = more at hRest
    have hLines : (s :: ss).flatMap itemLine ++ ']' :: rest =
        ' ' :: ' ' :: ' ' :: ' ' :: (written s ++ ',' :: '\n' :: more) := by
      simp [← hMore, itemLine]
    obtain ⟨c, cs, hWritten, hQuote⟩ := written_head s
    have hValue := readValue_written depth s
      (noQuoteNext_cons.mpr ⟨by decide, by decide⟩ : NoQuoteNext (',' :: '\n' :: more))
    rw [hLines, readItems]
    rw [hWritten, List.cons_append] at hValue ⊢
    rw [skipFiller_line (solid_of_quote hQuote) (by simp)]
    split
    · next hEq =>
      rcases hQuote with rfl | rfl <;> cases hEq
    · simp [hValue, skipFiller_solid (show Solid ',' by decide), hRest]

/-- A list of one text stands on one line. -/
theorem readItems_single (depth : Nat) (s : String) :
    readItems (readValue depth) (n + 1) (written s ++ ']' :: rest) =
      some ([.string s], rest) := by
  obtain ⟨c, cs, hWritten, hQuote⟩ := written_head s
  have hValue := readValue_written depth s
    (noQuoteNext_cons.mpr ⟨by decide, by decide⟩ : NoQuoteNext (']' :: rest))
  rw [readItems]
  rw [hWritten, List.cons_append] at hValue ⊢
  rw [skipFiller_solid (solid_of_quote hQuote)]
  split
  · next hEq =>
    rcases hQuote with rfl | rfl <;> cases hEq
  · simp [hValue, skipFiller_solid (show Solid ']' by decide)]

theorem inlineTexts_strings (ss : List String) :
    inlineTexts (ss.map .string) = ss.map fun s => inlineText (.string s) := by
  induction ss with
  | nil => rfl
  | cons s ss ih => rw [List.map_cons, inlineTexts, ih, List.map_cons]

theorem length_le_itemLines (ss : List String) : ss.length ≤ (ss.flatMap itemLine).length := by
  induction ss with
  | nil => exact Nat.le_refl 0
  | cons s ss ih =>
    simp only [List.flatMap_cons, List.length_append, List.length_cons, itemLine]
    omega

/-- A list is written behind its bracket as something that is read as its items. -/
theorem valueText_strings (ss : List String) :
    ∃ items, (valueText (.strings ss)).toList = '[' :: items ∧
      ∀ depth rest, readItems (readValue depth) ((items ++ rest).length + 1) (items ++ rest) =
        some (ss.map .string, rest) := by
  match ss with
  | [] => exact ⟨[']'], rfl, fun _ _ => rfl⟩
  | [s] =>
    refine ⟨written s ++ [']'], ?_, fun depth rest => ?_⟩
    · rw [show valueText (.strings [s]) = "[" ++ inlineText (.string s) ++ "]" from rfl]
      simp [toList_inlineText]
    · rw [List.append_assoc, List.singleton_append]
      exact readItems_single depth s
  | s :: t :: ss =>
    refine ⟨'\n' :: ((s :: t :: ss).flatMap itemLine ++ [']']), ?_, fun depth rest => ?_⟩
    · have hText : valueText (.strings (s :: t :: ss)) =
          "[\n" ++ String.join ((inlineTexts ((s :: t :: ss).map .string)).map
            fun t => "    " ++ t ++ ",\n") ++ "]" := rfl
      have hItem : ∀ s : String, ("    " ++ inlineText (.string s) ++ ",\n").toList = itemLine s :=
        fun s => by simp [itemLine, toList_inlineText]
      rw [hText, inlineTexts_strings, List.map_map]
      simp only [String.toList_append, String.toList_join, List.flatMap_map, Function.comp_def,
        hItem]
      rfl
    · rw [List.cons_append, List.append_assoc, List.singleton_append]
      refine readItems_lines depth _ ?_
      have := length_le_itemLines (s :: t :: ss)
      simp only [List.length_cons, List.length_append] at this ⊢
      omega

theorem readValue_bracket (depth : Nat) (cs : List Char) :
    readValue (depth + 1) ('[' :: cs) =
      (readItems (readValue depth) (cs.length + 1) cs).map fun r => (.array r.1, r.2) := rfl

theorem readValue_digits (depth : Nat) {n : Nat} (h : isInteger n = true) :
    readValue depth (Nat.toDigits 10 n ++ '\n' :: rest) = some (.integer n, '\n' :: rest) := by
  obtain ⟨c, cs, hDigits⟩ := List.exists_cons_of_ne_nil (@Nat.toDigits_ne_nil n 10)
  have hDigit : isDigit c = true := isDigit_of_mem_toDigits (hDigits ▸ List.mem_cons_self)
  have hNot : ∀ d : Char, isDigit d = false → c ≠ d := fun d => ne_of_isDigit hDigit
  have hRead := readWord?_toDigits h rest
  rw [hDigits, List.cons_append] at hRead ⊢
  have hQuote : (c == '"' || c == '\'') = false := by
    simp [hNot '"' (by decide), hNot '\'' (by decide)]
  have hNested : (c == '[' || c == '\x7b') = false := by
    simp [hNot '[' (by decide), hNot '\x7b' (by decide)]
  rw [← hRead]
  cases depth <;> simp only [readValue, hQuote, hNested, Bool.false_eq_true, if_false]

theorem toList_natText (n : Nat) : (valueText (.integer n)).toList = Nat.toDigits 10 n := by
  rw [show valueText (.integer n) = Nat.repr n from rfl, Nat.toList_repr]

/-- A value is read as it was written, up to the end of its last line. -/
theorem readValue_flat {v : Toml} (h : Flat v) (rest : List Char) :
    readValue maxDepth ((valueText v).toList ++ '\n' :: rest) = some (v, '\n' :: rest) := by
  cases h with
  | string s =>
    rw [show valueText (.string s) = inlineText (.string s) from rfl, toList_inlineText]
    exact readValue_written maxDepth s (noQuoteNext_cons.mpr ⟨by decide, by decide⟩)
  | @nat n hHeld =>
    rw [toList_natText]
    exact readValue_digits maxDepth hHeld
  | strings ss =>
    obtain ⟨items, hText, hRead⟩ := valueText_strings ss
    rw [hText, List.cons_append, maxDepth, readValue_bracket, hRead]
    rfl

/-- A value begins with something that is not passed over. -/
theorem valueText_head {v : Toml} (h : Flat v) :
    ∃ c cs, (valueText v).toList = c :: cs ∧ Solid c := by
  cases h with
  | string s =>
    obtain ⟨c, cs, hWritten, hQuote⟩ := written_head s
    exact ⟨c, cs, (toList_inlineText s).trans hWritten, solid_of_quote hQuote⟩
  | @nat n hHeld =>
    obtain ⟨c, cs, hDigits⟩ := List.exists_cons_of_ne_nil (@Nat.toDigits_ne_nil n 10)
    have hDigit : isDigit c = true := isDigit_of_mem_toDigits (hDigits ▸ List.mem_cons_self)
    have hNot : ∀ d : Char, isDigit d = false → c ≠ d := fun d => ne_of_isDigit hDigit
    refine ⟨c, cs, (toList_natText n).trans hDigits, ?_, hNot _ (by decide), hNot _ (by decide),
      hNot _ (by decide)⟩
    simp [isSpace, hNot ' ' (by decide), hNot '\t' (by decide)]
  | strings ss =>
    obtain ⟨items, hText, -⟩ := valueText_strings ss
    exact ⟨'[', items, hText, by decide⟩

-- ---------------------------------------------------------------------------
-- Lines
-- ---------------------------------------------------------------------------

/-- A name that stands without quotes. -/
def IsBare (name : String) : Prop :=
  name.toList ≠ [] ∧ ∀ c ∈ name.toList, isKeyChar c = true

theorem ne_of_isKeyChar {c d : Char} (h : isKeyChar c = true) (hd : isKeyChar d = false) :
    c ≠ d := by
  rintro rfl
  exact absurd h (by simp [hd])

theorem solid_of_isKeyChar {c : Char} (h : isKeyChar c = true) : Solid c := by
  have hNot : ∀ d : Char, isKeyChar d = false → c ≠ d := fun d => ne_of_isKeyChar h
  refine ⟨?_, hNot _ (by decide), hNot _ (by decide), hNot _ (by decide)⟩
  simp [isSpace, hNot ' ' (by decide), hNot '\t' (by decide)]

/-- What follows a name: something that does not go on with it, and no dot. -/
theorem readDottedKey?_bare (h : IsBare name) (rest : List Char)
    (hEnd : ∀ c ∈ rest.head?, isKeyChar c = false) (hDot : (skipSpaces rest).head? ≠ some '.') :
    readDottedKey? (name.toList ++ rest) = some (([], name), skipSpaces rest) := by
  obtain ⟨hSome, hKey⟩ := h
  obtain ⟨c, cs, hName⟩ := List.exists_cons_of_ne_nil hSome
  have hFirst : isKeyChar c = true := hKey c (hName ▸ List.mem_cons_self)
  have hWord : (name.toList ++ rest).takeWhile isKeyChar = name.toList := by
    rw [List.takeWhile_append_of_pos hKey]
    cases rest with
    | nil => simp
    | cons x rest => simp [hEnd x rfl]
  have hSpaces : skipSpaces (name.toList ++ rest) = name.toList ++ rest := by
    rw [hName, List.cons_append, skipSpaces_solid (solid_of_isKeyChar hFirst)]
  have hUnquoted : readLineText? (name.toList ++ rest) = none := by
    rw [hName, List.cons_append, readLineText?]
    simp [ne_of_isKeyChar hFirst (d := '"') (by decide), ne_of_isKeyChar hFirst (d := '\'') (by decide)]
  have hRead : readKey? (name.toList ++ rest) = some (name, rest) := by
    have hNotEmpty : name.toList.isEmpty = false := by simp [hName]
    simp only [readKey?, hUnquoted, hWord, hNotEmpty, Bool.false_eq_true, if_false,
      String.ofList_toList, List.drop_left]
  rw [readDottedKey?, maxDepth, readPath?, hSpaces, hRead]
  simp only [Option.bind_eq_bind, Option.bind_some]
  split
  · next hEq => exact absurd (by rw [hEq]; rfl) hDot
  · rfl

theorem readField?_flat {v : Toml} (hName : IsBare name) (hValue : Flat v) (rest : List Char) :
    readField? (readValue maxDepth)
        (name.toList ++ ' ' :: '=' :: ' ' :: ((valueText v).toList ++ '\n' :: rest)) =
      some (([], name), v, '\n' :: rest) := by
  obtain ⟨c, cs, hText, hSolid⟩ := valueText_head hValue
  have hBlank : skipSpaces (' ' :: ((valueText v).toList ++ '\n' :: rest)) =
      (valueText v).toList ++ '\n' :: rest := by
    rw [hText, List.cons_append]
    exact skipSpaces_solid hSolid _
  have hKey := readDottedKey?_bare hName
    (' ' :: '=' :: ' ' :: ((valueText v).toList ++ '\n' :: rest))
    (by rintro x ⟨⟩; decide) (by simp [skipSpaces, isSpace])
  have hMark : skipSpaces (' ' :: '=' :: ' ' :: ((valueText v).toList ++ '\n' :: rest)) =
      '=' :: ' ' :: ((valueText v).toList ++ '\n' :: rest) := rfl
  simp only [readField?, hKey, hMark, readChar?, Option.bind_eq_bind, Option.bind_some,
    beq_self_eq_true, if_true, hBlank, readValue_flat hValue]

/-- Reading goes on with another draft and what is left, whatever the bound was. -/
def Goes (d : Draft) (cs : List Char) (d' : Draft) (rest : List Char) : Prop :=
  ∀ n, cs.length < n → ∃ m, rest.length < m ∧ readLines n d cs = readLines m d' rest

theorem Goes.refl (d : Draft) (cs : List Char) : Goes d cs d cs := fun n h => ⟨n, h, rfl⟩

theorem Goes.trans {d d' d'' : Draft} {cs cs' cs'' : List Char} (h : Goes d cs d' cs')
    (h' : Goes d' cs' d'' cs'') : Goes d cs d'' cs'' := fun n hn => by
  obtain ⟨m, hm, hRead⟩ := h n hn
  obtain ⟨k, hk, hRead'⟩ := h' m hm
  exact ⟨k, hk, hRead.trans hRead'⟩

variable {d : Draft}

/-- A line adds its field to the open table. -/
theorem goes_line {v : Toml} (hName : IsBare name) (hValue : Flat v)
    (hNew : name ∉ d.fields.map (·.1)) (rest : List Char) :
    Goes d ((fieldLine (name, v)).toList ++ rest)
      { d with fields := d.fields ++ [(name, .value v)] } rest := by
  intro n hn
  have hText : (fieldLine (name, v)).toList ++ rest =
      name.toList ++ ' ' :: '=' :: ' ' :: ((valueText v).toList ++ '\n' :: rest) := by
    simp [fieldLine]
  have hInsert : d.insert [] name v =
      some { d with fields := d.fields ++ [(name, .value v)] } := by
    have hNone : d.fields.any (·.1 == name) = false := by
      rw [List.any_eq_false]
      rintro f hMem hEq
      exact hNew (List.mem_map.mpr ⟨f, hMem, by simpa using hEq⟩)
    simp [Draft.insert, insertValue, hNone]
  have hEnd : readEndOfLine? ('\n' :: rest) = some rest := rfl
  have hField := readField?_flat hName hValue rest
  obtain ⟨hSome, hKey⟩ := hName
  obtain ⟨c, cs, hChars⟩ := List.exists_cons_of_ne_nil hSome
  have hFirst : isKeyChar c = true := hKey c (hChars ▸ List.mem_cons_self)
  rw [hText] at hn ⊢
  rw [hChars, List.cons_append] at hn hField ⊢
  obtain ⟨n, rfl⟩ := Nat.exists_eq_succ_of_ne_zero (Nat.ne_zero_of_lt hn)
  refine ⟨n, ?_, ?_⟩
  · simp only [List.length_cons, List.length_append] at hn
    omega
  · rw [readLines, skipSpaces_solid (solid_of_isKeyChar hFirst)]
    split
    · next hEq => cases hEq
    · next hEq =>
      exact absurd (List.cons.inj hEq).1 (ne_of_isKeyChar hFirst (by decide))
    · rw [readEndOfLine?_solid (solid_of_isKeyChar hFirst)]
      simp only [hField, hInsert, hEnd, Option.bind_eq_bind, Option.bind_some]

theorem lookup_eq_none_of_not_mem {α : Type} {fields : List (String × α)}
    (h : name ∉ fields.map (·.1)) : fields.lookup name = none := by
  refine List.lookup_eq_none_iff.mpr fun f hMem => ?_
  rw [bne_iff_ne]
  rintro rfl
  exact h (List.mem_map_of_mem hMem)

/-- A head opens a table. -/
theorem goes_head {fields : Fields} (hName : IsBare name) (hClose : d.close = some fields)
    (hNew : name ∉ fields.map (·.1)) (rest : List Char) :
    Goes d ('\n' :: '[' :: (name.toList ++ ']' :: '\n' :: rest))
      { complete := fields, place := some ([], name) } rest := by
  intro n hn
  obtain ⟨n, rfl⟩ := Nat.exists_eq_add_of_le' (show 2 ≤ n by simp at hn; omega)
  have hOpen : d.openTable [] name = some { complete := fields, place := some ([], name) } := by
    simp [Draft.openTable, hClose, fieldsAt?, changeAt, lookup_eq_none_of_not_mem hNew]
  have hKey := readDottedKey?_bare hName (']' :: '\n' :: rest) (by rintro x ⟨⟩; decide)
    (by simp [skipSpaces, isSpace])
  have hMark : skipSpaces (']' :: '\n' :: rest) = ']' :: '\n' :: rest := rfl
  have hHead : readHead? d (name.toList ++ ']' :: '\n' :: rest) =
      some ({ complete := fields, place := some ([], name) }, '\n' :: rest) := by
    obtain ⟨hSome, hChars⟩ := hName
    obtain ⟨c, cs, hList⟩ := List.exists_cons_of_ne_nil hSome
    have hFirst : c ≠ '[' := ne_of_isKeyChar (hChars c (hList ▸ List.mem_cons_self)) (by decide)
    unfold readHead?
    split
    · next hEq =>
      rw [hList] at hEq
      exact absurd (List.cons.inj hEq).1 hFirst
    · simp only [hKey, hMark, readChar?, Option.bind_eq_bind, Option.bind_some, beq_self_eq_true,
        if_true, hOpen, Option.map_some]
  have hBlank : readLines (n + 2) d ('\n' :: '[' :: (name.toList ++ ']' :: '\n' :: rest)) =
      readLines (n + 1) d ('[' :: (name.toList ++ ']' :: '\n' :: rest)) := rfl
  have hBracket : ∀ cs, readLines (n + 1) d ('[' :: cs) =
      (readHead? d cs).bind fun r => (readEndOfLine? r.2).bind (readLines n r.1) := fun _ => rfl
  have hEnd : readEndOfLine? ('\n' :: rest) = some rest := rfl
  refine ⟨n, by simp at hn; omega, ?_⟩
  rw [hBlank, hBracket, hHead, Option.bind_some, hEnd, Option.bind_some]

-- ---------------------------------------------------------------------------
-- Documents
-- ---------------------------------------------------------------------------

/-- Fields that are written one by one: their names stand without quotes and differ. -/
structure Lines (fields : List (String × Toml)) : Prop where
  bare : ∀ f ∈ fields, IsBare f.1
  flat : ∀ f ∈ fields, Flat f.2
  nodup : (fields.map (·.1)).Nodup

/-- Values as they stand in a draft. -/
def entries (fields : List (String × Toml)) : Fields := fields.map fun f => (f.1, .value f.2)

theorem map_fst_entries (fields : List (String × Toml)) :
    (entries fields).map (·.1) = fields.map (·.1) := by
  simp [entries]

/-- Lines add their fields to the open table. -/
theorem goes_lines {fields : List (String × Toml)} (hLines : Lines fields)
    (hNew : ∀ f ∈ fields, f.1 ∉ d.fields.map (·.1)) (rest : List Char) :
    Goes d ((String.join (fields.map fieldLine)).toList ++ rest)
      { d with fields := d.fields ++ entries fields } rest := by
  induction fields generalizing d with
  | nil => simpa [entries] using Goes.refl d rest
  | cons f fields ih =>
    have hOrder := List.nodup_cons.mp (List.map_cons ▸ hLines.nodup)
    have hFirst := goes_line (hLines.bare f List.mem_cons_self) (hLines.flat f List.mem_cons_self)
      (hNew f List.mem_cons_self) ((String.join (fields.map fieldLine)).toList ++ rest)
    have hRest := ih (d := { d with fields := d.fields ++ [(f.1, .value f.2)] })
      ⟨fun g hMem => hLines.bare g (List.mem_cons_of_mem f hMem),
        fun g hMem => hLines.flat g (List.mem_cons_of_mem f hMem), hOrder.2⟩
      fun g hMem => by
        have hOther : g.1 ≠ f.1 := fun hEq => hOrder.1 (hEq ▸ List.mem_map_of_mem hMem)
        simpa [hOther] using hNew g (List.mem_cons_of_mem f hMem)
    have hText : (String.join ((f :: fields).map fieldLine)).toList ++ rest =
        (fieldLine f).toList ++ ((String.join (fields.map fieldLine)).toList ++ rest) := by
      simp [String.toList_join]
    have hFields : d.fields ++ entries (f :: fields) =
        d.fields ++ [(f.1, .value f.2)] ++ entries fields := by
      simp [entries]
    rw [hText, hFields]
    exact hFirst.trans hRest

/-- A document of fields and tables that all have names of their own. -/
structure Document (fields : List (String × Toml)) (tables : List (String × List (String × Toml))) :
    Prop where
  lines : Lines fields
  tableLines : ∀ t ∈ tables, Lines t.2
  tableBare : ∀ t ∈ tables, IsBare t.1
  nodup : (fields.map (·.1) ++ tables.map (·.1)).Nodup

/-- Tables as they stand in a draft. -/
def tableEntries (tables : List (String × List (String × Toml))) : Fields :=
  tables.map fun t => (t.1, .table .opened (entries t.2))

/-- Heads with lines below them add their tables to those that are complete. -/
theorem goes_tables {tables : List (String × List (String × Toml))} (known : Fields)
    (hLines : ∀ t ∈ tables, Lines t.2) (hBare : ∀ t ∈ tables, IsBare t.1)
    (hNames : (known.map (·.1) ++ tables.map (·.1)).Nodup) (hClose : d.close = some known) :
    ∃ d', Goes d (String.join (tables.map fun t => "\n" ++ tableText t.1 t.2)).toList d' [] ∧
      d'.close = some (known ++ tableEntries tables) := by
  induction tables generalizing d known with
  | nil => exact ⟨d, Goes.refl d [], by simpa [tableEntries] using hClose⟩
  | cons t tables ih =>
    have hNew : t.1 ∉ known.map (·.1) := fun hMem =>
      (List.nodup_append.mp hNames).2.2 _ hMem _ (by simp) rfl
    have hHead := goes_head (hBare t List.mem_cons_self) hClose hNew
      ((String.join (t.2.map fieldLine)).toList ++
        (String.join (tables.map fun t => "\n" ++ tableText t.1 t.2)).toList)
    have hTable := goes_lines (d := { complete := known, place := some ([], t.1) })
      (hLines t List.mem_cons_self) (fun _ _ => List.not_mem_nil)
      (String.join (tables.map fun t => "\n" ++ tableText t.1 t.2)).toList
    obtain ⟨d', hRest, hDone⟩ := ih
      (d := { complete := known, place := some ([], t.1), fields := [] ++ entries t.2 })
      (known ++ [(t.1, .table .opened (entries t.2))])
      (fun u hMem => hLines u (List.mem_cons_of_mem t hMem))
      (fun u hMem => hBare u (List.mem_cons_of_mem t hMem))
      (by simpa using hNames)
      (by simp [Draft.close, changeAt, lookup_eq_none_of_not_mem hNew])
    refine ⟨d', ?_, by simpa [tableEntries] using hDone⟩
    have hText : (String.join ((t :: tables).map fun t => "\n" ++ tableText t.1 t.2)).toList =
        '\n' :: '[' :: (t.1.toList ++ ']' :: '\n' :: ((String.join (t.2.map fieldLine)).toList ++
          (String.join (tables.map fun t => "\n" ++ tableText t.1 t.2)).toList)) := by
      simp [String.toList_join, tableText]
    rw [hText]
    exact (hHead.trans hTable).trans hRest

theorem fieldValues_entries (fields : List (String × Toml)) :
    fieldValues (entries fields) = fields := by
  induction fields with
  | nil => rfl
  | cons f fields ih =>
    have hCons : entries (f :: fields) = (f.1, .value f.2) :: entries fields := rfl
    rw [hCons, fieldValues, ih, Entry.toToml]

theorem fieldValues_append (fields fields' : Fields) :
    fieldValues (fields ++ fields') = fieldValues fields ++ fieldValues fields' := by
  induction fields with
  | nil => rfl
  | cons f fields ih =>
    rw [List.cons_append, fieldValues, ih, fieldValues, List.cons_append]

theorem fieldValues_tableEntries (tables : List (String × List (String × Toml))) :
    fieldValues (tableEntries tables) = tables.map fun t => (t.1, .table t.2) := by
  induction tables with
  | nil => rfl
  | cons t tables ih =>
    have hCons : tableEntries (t :: tables) =
      (t.1, .table .opened (entries t.2)) :: tableEntries tables := rfl
    rw [hCons, fieldValues, ih, Entry.toToml, fieldValues_entries, List.map_cons]

theorem plainFields_document {fields : List (String × Toml)} (h : ∀ f ∈ fields, Flat f.2)
    (tables : List (String × List (String × Toml))) :
    plainFields (fields ++ tables.map fun t => (t.1, .table t.2)) = fields := by
  have hFields : plainFields fields = fields := by
    rw [plainFields, List.filter_eq_self]
    rintro ⟨name, v⟩ hMem
    cases h _ hMem <;> rfl
  have hTables : plainFields (tables.map fun t => (t.1, .table t.2)) = [] := by
    rw [plainFields, List.filter_map]
    simp [Function.comp_def]
  have hAppend : ∀ a b, plainFields (a ++ b) = plainFields a ++ plainFields b := fun _ _ =>
    List.filter_append ..
  rw [hAppend, hFields, hTables, List.append_nil]

theorem tableFields_document {fields : List (String × Toml)} (h : ∀ f ∈ fields, Flat f.2)
    (tables : List (String × List (String × Toml))) :
    tableFields (fields ++ tables.map fun t => (t.1, .table t.2)) = tables := by
  have hFields : tableFields fields = [] := by
    rw [tableFields, List.filterMap_eq_nil_iff]
    rintro ⟨name, v⟩ hMem
    cases h _ hMem <;> rfl
  have hTables : tableFields (tables.map fun t => (t.1, .table t.2)) = tables := by
    simp [tableFields, List.filterMap_map]
  have hAppend : ∀ a b, tableFields (a ++ b) = tableFields a ++ tableFields b := fun _ _ =>
    List.filterMap_append ..
  rw [hAppend, hFields, hTables, List.nil_append]

/-- A document does not begin with a mark of the order of bytes. -/
theorem document_head {fields : List (String × Toml)} (h : Lines fields)
    (tables : List (String × List (String × Toml))) :
    ∀ c ∈ ((String.join (fields.map fieldLine)).toList ++
      (String.join (tables.map fun t => "\n" ++ tableText t.1 t.2)).toList).head?,
      c ≠ '\uFEFF' := by
  cases fields with
  | nil =>
    cases tables with
    | nil => simp
    | cons t tables =>
      intro c hMem
      obtain rfl : '\n' = c := by simpa [String.toList_join] using hMem
      decide
  | cons f fields =>
    obtain ⟨hSome, hKey⟩ := h.bare f List.mem_cons_self
    obtain ⟨c, cs, hChars⟩ := List.exists_cons_of_ne_nil hSome
    intro x hMem
    obtain rfl : c = x := by simpa [String.toList_join, fieldLine, hChars] using hMem
    exact ne_of_isKeyChar (hKey c (hChars ▸ List.mem_cons_self)) (by decide)

/-- A document is read as it was written. -/
theorem parse?_write {fields : List (String × Toml)} {tables : List (String × List (String × Toml))}
    (h : Document fields tables) :
    parse? (write (fields ++ tables.map fun t => (t.1, .table t.2))) =
      some (fields ++ tables.map fun t => (t.1, .table t.2)) := by
  generalize hRest : (String.join (tables.map fun t => "\n" ++ tableText t.1 t.2)).toList = rest
  have hText : (write (fields ++ tables.map fun t => (t.1, .table t.2))).toList =
      (String.join (fields.map fieldLine)).toList ++ rest := by
    rw [write, plainFields_document h.lines.flat, tableFields_document h.lines.flat,
      String.toList_append, hRest]
  have hGoes := goes_lines (d := {}) h.lines (fun _ _ => List.not_mem_nil) rest
  obtain ⟨d, hTables, hClose⟩ := goes_tables (d := { fields := [] ++ entries fields })
    (entries fields) h.tableLines h.tableBare (by rw [map_fst_entries]; exact h.nodup) rfl
  rw [hRest] at hTables
  obtain ⟨m, hm, hRead⟩ := (hGoes.trans hTables) _ (Nat.lt_succ_self _)
  obtain ⟨m, rfl⟩ := Nat.exists_eq_succ_of_ne_zero (Nat.ne_zero_of_lt hm)
  have hDone : readLines (m + 1) d [] = some d := rfl
  have hHead := document_head h.lines tables
  rw [hRest] at hHead
  rw [parse?, hText]
  split
  · next hMark => exact absurd rfl (hHead _ (by rw [hMark]; rfl))
  · simp only [hRead, hDone, hClose, Option.bind_eq_bind, Option.bind_some, fieldValues_append,
      fieldValues_entries, fieldValues_tableEntries]

end ScriptWarden.Toml
