import ScriptWarden.Json.Shape
import ScriptWarden.Proofs.Json.Numbers

/-!
# Values of JSON

A value that has no more levels than the reader takes, and numbers that are read back, is read as it
was written. A record with a tag is read as its tag and its other fields.

## Results

* `reads_write` — a value is read as it was written, wherever it stands.
* `parse_write` — a value is what its text is.
* `readTagged_write` — a record with a tag is read as its tag and the record without it.
-/

namespace ScriptWarden

namespace Json

/-- Values that are read as they are written, if they lie above so many levels of others. -/
inductive Readable : Nat → Json → Prop
  | null {depth : Nat} : Readable depth .null
  | bool {depth : Nat} (b : Bool) : Readable depth (.bool b)
  | nat {depth n : Nat} : n ≤ maxU64 → Readable depth (.nat n)
  | neg {depth n : Nat} : 0 < n → n ≤ twoTo 63 → Readable depth (.neg n)
  | real {depth : Nat} {x : Binary64} : x.RoundTrips → Readable depth (.real x)
  | str {depth : Nat} (s : String) : Readable depth (.str s)
  | arr {depth : Nat} {items : List Json} :
      (∀ j ∈ items, Readable depth j) → Readable (depth + 1) (.arr items)
  | obj {depth : Nat} {fields : List (String × Json)} :
      (∀ f ∈ fields, Readable depth f.2) → Readable (depth + 1) (.obj fields)

variable {bs rest : List UInt8} {p q : LinePlace} {depth : Nat}

-- ---------------------------------------------------------------------------
-- Scalars
-- ---------------------------------------------------------------------------

theorem readWord_word (cs : List Char) (rest : List UInt8) (p : LinePlace) :
    ∃ q, readWord cs ⟨cs.map ascii ++ rest, p⟩ = .ok ⟨rest, q⟩ := by
  induction cs generalizing p with
  | nil => exact ⟨p, rfl⟩
  | cons c cs ih =>
    obtain ⟨q, hRead⟩ := ih (Cursor.placeAfter p (ascii c))
    exact ⟨q, by simpa [readWord] using hRead⟩

/-- A word is read as what its first letter announces. -/
theorem reads_word {j : Json} {b : UInt8} {word : List Char} (hSolid : 32 < b)
    (hList : b ≠ ascii '[') (hObject : b ≠ ascii '\x7b')
    (hScalar : ∀ c, readScalar b c = (readWord word c.skip).map (j, ·)) (depth : Nat) :
    Reads (readBelow depth) (b :: word.map ascii) j := by
  intro p rest hStops
  obtain ⟨q, hWord⟩ := readWord_word word rest (Cursor.placeAfter p b)
  refine ⟨q, ?_⟩
  rw [List.cons_append, readBelow_scalar hSolid hList hObject, hScalar, skip_cons, hWord]
  rfl

theorem encodeUtf8_null : encodeUtf8 (write .null) = ascii 'n' :: "ull".toList.map ascii := by
  simp [write, encodeUtf8_ascii]

theorem encodeUtf8_true :
    encodeUtf8 (write (.bool true)) = ascii 't' :: "rue".toList.map ascii := by
  simp [write, encodeUtf8_ascii]

theorem encodeUtf8_false :
    encodeUtf8 (write (.bool false)) = ascii 'f' :: "alse".toList.map ascii := by
  simp [write, encodeUtf8_ascii]

theorem reads_null (depth : Nat) : Reads (readBelow depth) (encodeUtf8 (write .null)) .null := by
  rw [encodeUtf8_null]
  exact reads_word (by decide) (by decide) (by decide) (fun _ => rfl) depth

theorem reads_bool (b : Bool) (depth : Nat) :
    Reads (readBelow depth) (encodeUtf8 (write (.bool b))) (.bool b) := by
  cases b with
  | false =>
    rw [encodeUtf8_false]
    exact reads_word (by decide) (by decide) (by decide) (fun _ => rfl) depth
  | true =>
    rw [encodeUtf8_true]
    exact reads_word (by decide) (by decide) (by decide) (fun _ => rfl) depth

theorem readScalar_quote (c : Cursor) :
    readScalar (ascii '"') c = (readString c.skip).map fun (s, c) => (.str s, c) := rfl

theorem reads_str (s : String) (depth : Nat) :
    Reads (readBelow depth) (encodeUtf8 (write (.str s))) (.str s) := by
  intro p rest hStops
  obtain ⟨q, hRead⟩ := readString_quoted s rest (Cursor.placeAfter p (ascii '"'))
  refine ⟨q, ?_⟩
  rw [write, encodeUtf8_quote, List.cons_append, List.append_assoc, List.singleton_append,
    readBelow_scalar (by decide) (by decide) (by decide), readScalar_quote, skip_cons, hRead]
  rfl

-- ---------------------------------------------------------------------------
-- How values begin
-- ---------------------------------------------------------------------------

/-- Bytes that begin with neither a blank nor the end of a list. -/
def Begins (bs : List UInt8) : Prop := ∃ b more, bs = b :: more ∧ 32 < b ∧ b ≠ ascii ']'

theorem begins_cons {b : UInt8} (hSolid : 32 < b) (hEnd : b ≠ ascii ']') (more : List UInt8) :
    Begins (b :: more) := ⟨b, more, rfl, hSolid, hEnd⟩

theorem encodeUtf8_items (items : List Json) : encodeUtf8 (write (.arr items)) =
    ascii '[' :: (encodeUtf8 (writeItems items) ++ [ascii ']']) := by
  have hOpen : encodeUtf8 "[" = [ascii '['] := by simp [encodeUtf8_ascii]
  have hClose : encodeUtf8 "]" = [ascii ']'] := by simp [encodeUtf8_ascii]
  rw [write, encodeUtf8_append, encodeUtf8_append, hOpen, hClose]
  rfl

theorem encodeUtf8_fields (fields : List (String × Json)) : encodeUtf8 (write (.obj fields)) =
    ascii '\x7b' :: (encodeUtf8 (writeFields fields) ++ [ascii '\x7d']) := by
  have hOpen : encodeUtf8 "\x7b" = [ascii '\x7b'] := by simp [encodeUtf8_ascii]
  have hClose : encodeUtf8 "\x7d" = [ascii '\x7d'] := by simp [encodeUtf8_ascii]
  rw [write, encodeUtf8_append, encodeUtf8_append, hOpen, hClose]
  rfl

/-- A decimal that is read back has a first character. -/
theorem begins_real {x : Binary64} (h : x.RoundTrips) : Begins (encodeUtf8 x.text) := by
  have hSolid := solid_of_isDecimal (isDecimal_text x)
  cases hBytes : encodeUtf8 x.text with
  | nil =>
    rw [Binary64.RoundTrips, parse, hBytes] at h
    cases h
  | cons b bs =>
    rw [hBytes] at hSolid
    obtain ⟨hFirst, hNumeric⟩ := hSolid b List.mem_cons_self
    refine begins_cons hFirst ?_ bs
    rcases hNumeric with hDigit | rfl | rfl | rfl | rfl
    · exact ne_ascii_of_digit hDigit (by decide)
    all_goals decide

theorem begins_digits (n : Nat) : Begins (encodeUtf8 (toString n)) := by
  obtain ⟨c, cs, hDigits⟩ := List.exists_cons_of_ne_nil (@Nat.toDigits_ne_nil n 10)
  have hFirst : isDigitByte (ascii c) = true := (isDigitByte_ascii
    (Nat.isDigit_of_mem_toDigits (by decide) (by decide) (hDigits ▸ List.mem_cons_self))).1
  rw [encodeUtf8_toString_nat, hDigits, List.map_cons]
  exact begins_cons (solid_of_digit hFirst) (ne_ascii_of_digit hFirst (by decide)) _

/-- The text of a value begins with the value. -/
theorem begins_write {j : Json} (h : Readable depth j) : Begins (encodeUtf8 (write j)) := by
  cases h with
  | null =>
    rw [encodeUtf8_null]
    exact begins_cons (by decide) (by decide) _
  | bool b =>
    cases b with
    | false =>
      rw [encodeUtf8_false]
      exact begins_cons (by decide) (by decide) _
    | true =>
      rw [encodeUtf8_true]
      exact begins_cons (by decide) (by decide) _
  | nat _ =>
    rw [write]
    exact begins_digits _
  | neg _ _ =>
    have hMark : encodeUtf8 "-" = [ascii '-'] := by simp [encodeUtf8_ascii]
    rw [write, encodeUtf8_append, hMark]
    exact begins_cons (by decide) (by decide) _
  | real hBack =>
    rw [write]
    exact begins_real hBack
  | str s =>
    rw [write, encodeUtf8_quote]
    exact begins_cons (by decide) (by decide) _
  | arr _ =>
    rw [encodeUtf8_items]
    exact begins_cons (by decide) (by decide) _
  | obj _ =>
    rw [encodeUtf8_fields]
    exact begins_cons (by decide) (by decide) _

-- ---------------------------------------------------------------------------
-- Lists
-- ---------------------------------------------------------------------------

/-- There are no fewer bytes left than parts, when each of those has a comma before it. -/
theorem length_lt_parts {α : Type} (parts : List α) (comma : UInt8) (bytes : α → List UInt8)
    (before after : List UInt8) :
    parts.length <
      (before ++ ((parts.flatMap fun a => comma :: bytes a) ++ after)).length + 1 := by
  have hParts : parts.length ≤ (parts.flatMap fun a => comma :: bytes a).length := by
    induction parts with
    | nil => exact Nat.zero_le _
    | cons a parts ih =>
      rw [List.flatMap_cons, List.length_append, List.length_cons, List.length_cons]
      omega
  rw [List.length_append, List.length_append]
  omega

/-- The bytes of items after the first one, each behind its comma. -/
def laterItems (items : List Json) : List UInt8 :=
  items.flatMap fun j => ascii ',' :: encodeUtf8 (write j)

theorem length_lt_laterItems (items : List Json) (before after : List UInt8) :
    items.length < (before ++ (laterItems items ++ after)).length + 1 :=
  length_lt_parts items _ _ before after

theorem encodeUtf8_comma : encodeUtf8 "," = [ascii ','] := by simp [encodeUtf8_ascii]

theorem encodeUtf8_writeItems (j : Json) (items : List Json) :
    encodeUtf8 (writeItems (j :: items)) = encodeUtf8 (write j) ++ laterItems items := by
  induction items generalizing j with
  | nil => simp [writeItems, laterItems]
  | cons k items ih =>
    rw [writeItems, encodeUtf8_append, encodeUtf8_append, encodeUtf8_comma, ih, laterItems,
      laterItems, List.flatMap_cons, List.append_assoc]
    · rfl
    · exact List.cons_ne_nil k items

theorem stops_laterItems (items : List Json) (rest : List UInt8) :
    Stops (laterItems items ++ ascii ']' :: rest) := by
  cases items with
  | nil => exact stops_cons (Or.inr (Or.inl rfl)) rest
  | cons j items => exact stops_cons (Or.inl rfl) _

theorem nextItem_first (h : Begins bs) (p : LinePlace) :
    nextItem true ⟨bs, p⟩ = .ok (true, ⟨bs, p⟩) := by
  obtain ⟨b, more, rfl, hSolid, hEnd⟩ := h
  simp [nextItem, skipBlanks_cons hSolid, hEnd]

theorem nextItem_later (h : Begins bs) (p : LinePlace) :
    ∃ q, nextItem false ⟨ascii ',' :: bs, p⟩ = .ok (true, ⟨bs, q⟩) := by
  obtain ⟨b, more, rfl, hSolid, hEnd⟩ := h
  have hComma : (ascii ',' == ascii ']') = false := by decide
  refine ⟨Cursor.placeAfter p (ascii ','), ?_⟩
  simp [nextItem, skipBlanks_cons (show 32 < ascii ',' by decide), skipBlanks_cons hSolid, hEnd,
    hComma]

theorem nextItem_end (first : Bool) (rest : List UInt8) (p : LinePlace) :
    nextItem first ⟨ascii ']' :: rest, p⟩ = .ok (false, ⟨ascii ']' :: rest, p⟩) := by
  simp [nextItem, skipBlanks_cons (show 32 < ascii ']' by decide)]

theorem Begins.append (h : Begins bs) (more : List UInt8) : Begins (bs ++ more) := by
  obtain ⟨b, rest, rfl, hSolid, hEnd⟩ := h
  exact begins_cons hSolid hEnd _

theorem readItems_more {inner : Reader Json} {first : Bool} {c c' c'' : Cursor} {j : Json}
    (hNext : nextItem first c = .ok (true, c')) (hItem : inner c' = .ok (j, c'')) (n : Nat)
    (read : List Json) :
    readItems inner (n + 1) first read c = readItems inner n false (j :: read) c'' := by
  simp [readItems, hNext, hItem, bind, Except.bind]

theorem readItems_end (inner : Reader Json) (n : Nat) (first : Bool) (read : List Json)
    (rest : List UInt8) (p : LinePlace) :
    readItems inner (n + 1) first read ⟨ascii ']' :: rest, p⟩ =
      .ok (read.reverse, ⟨ascii ']' :: rest, p⟩) := by
  simp [readItems, nextItem_end, bind, Except.bind]

/-- The items after some are read up to the end of the list. -/
theorem readItems_later {inner : Reader Json} {items : List Json}
    (hItems : ∀ j ∈ items, Begins (encodeUtf8 (write j)) ∧ Reads inner (encodeUtf8 (write j)) j)
    {n : Nat} (hn : items.length < n) (read : List Json) (rest : List UInt8) (p : LinePlace) :
    ∃ q, readItems inner n false read ⟨laterItems items ++ ascii ']' :: rest, p⟩ =
      .ok (read.reverse ++ items, ⟨ascii ']' :: rest, q⟩) := by
  induction items generalizing n read p with
  | nil =>
    obtain ⟨n, rfl⟩ := Nat.exists_eq_succ_of_ne_zero (Nat.ne_zero_of_lt hn)
    exact ⟨p, by rw [List.append_nil]; exact readItems_end inner n false read rest p⟩
  | cons j items ih =>
    obtain ⟨n, rfl⟩ := Nat.exists_eq_succ_of_ne_zero (Nat.ne_zero_of_lt hn)
    obtain ⟨⟨hBegins, hReads⟩, hRest⟩ := List.forall_mem_cons.mp hItems
    obtain ⟨q₁, hNext⟩ := nextItem_later (hBegins.append (laterItems items ++ ascii ']' :: rest)) p
    obtain ⟨q₂, hItem⟩ := hReads q₁ _ (stops_laterItems items rest)
    obtain ⟨q₃, hLater⟩ := ih hRest (Nat.lt_of_succ_lt_succ hn) (j :: read) q₂
    refine ⟨q₃, ?_⟩
    have hBytes : laterItems (j :: items) ++ ascii ']' :: rest = ascii ',' ::
        (encodeUtf8 (write j) ++ (laterItems items ++ ascii ']' :: rest)) := by
      simp [laterItems]
    rw [hBytes, readItems_more hNext hItem, hLater, List.reverse_cons, List.append_assoc,
      List.singleton_append]

theorem endList_end (rest : List UInt8) (p : LinePlace) :
    endList ⟨ascii ']' :: rest, p⟩ = .ok ((), ⟨rest, Cursor.placeAfter p (ascii ']')⟩) := by
  simp [endList, skipBlanks_cons (show 32 < ascii ']' by decide)]

theorem readBelow_list {items : List Json} {r : LinePlace} (hItems : readItems (readBelow depth)
      (bs.length + 2) true [] ⟨bs, Cursor.placeAfter p (ascii '[')⟩ =
      .ok (items, ⟨ascii ']' :: rest, r⟩)) :
    readBelow (depth + 1) ⟨ascii '[' :: bs, p⟩ =
      .ok (.arr items, ⟨rest, Cursor.placeAfter r (ascii ']')⟩) := by
  simp only [readBelow, readWith, skipBlanks_cons (show 32 < ascii '[' by decide), peek_mk,
    List.head?_cons, BEq.rfl, if_true, skip_cons, List.length_cons, hItems, endList_end, bind,
    Except.bind]

/-- A list is read, if its items are. -/
theorem reads_arr {items : List Json} (hItems : ∀ j ∈ items,
      Begins (encodeUtf8 (write j)) ∧ Reads (readBelow depth) (encodeUtf8 (write j)) j) :
    Reads (readBelow (depth + 1)) (encodeUtf8 (write (.arr items))) (.arr items) := by
  intro p rest hStops
  rw [encodeUtf8_items, List.cons_append, List.append_assoc, List.singleton_append]
  cases items with
  | nil =>
    have hNone : encodeUtf8 (writeItems []) = [] := by simp [writeItems, encodeUtf8_ascii]
    refine ⟨Cursor.placeAfter (Cursor.placeAfter p (ascii '[')) (ascii ']'), readBelow_list ?_⟩
    rw [hNone, List.nil_append, readItems_end, List.reverse_nil]
  | cons j items =>
    obtain ⟨⟨hBegins, hReads⟩, hRest⟩ := List.forall_mem_cons.mp hItems
    obtain ⟨q₁, hFirst⟩ := hReads (Cursor.placeAfter p (ascii '[')) _ (stops_laterItems items rest)
    obtain ⟨q₂, hLater⟩ := readItems_later hRest
      (length_lt_laterItems items (encodeUtf8 (write j)) (ascii ']' :: rest)) [j] rest q₁
    refine ⟨Cursor.placeAfter q₂ (ascii ']'), readBelow_list ?_⟩
    rw [encodeUtf8_writeItems, List.append_assoc,
      readItems_more (nextItem_first (hBegins.append _) _) hFirst, hLater,
      List.reverse_singleton, List.singleton_append]

-- ---------------------------------------------------------------------------
-- Objects
-- ---------------------------------------------------------------------------

/-- The bytes of a field, from the opening quote of its name on. -/
def fieldBytes (f : String × Json) : List UInt8 :=
  ascii '"' :: (quotedBytes f.1.toList ++ ascii '"' :: ascii ':' :: encodeUtf8 (write f.2))

/-- The bytes of fields after the first one, each behind its comma. -/
def laterFields (fields : List (String × Json)) : List UInt8 :=
  fields.flatMap fun f => ascii ',' :: fieldBytes f

theorem length_lt_laterFields (fields : List (String × Json)) (before after : List UInt8) :
    fields.length < (before ++ (laterFields fields ++ after)).length + 1 :=
  length_lt_parts fields _ _ before after

theorem encodeUtf8_field (k : String) (j : Json) :
    encodeUtf8 (quote k ++ ":" ++ write j) = fieldBytes (k, j) := by
  have hColon : encodeUtf8 ":" = [ascii ':'] := by simp [encodeUtf8_ascii]
  rw [encodeUtf8_append, encodeUtf8_append, encodeUtf8_quote, hColon, fieldBytes]
  simp

theorem encodeUtf8_writeFields (f : String × Json) (fields : List (String × Json)) :
    encodeUtf8 (writeFields (f :: fields)) = fieldBytes f ++ laterFields fields := by
  obtain ⟨k, j⟩ := f
  induction fields generalizing k j with
  | nil => simp [writeFields, laterFields, encodeUtf8_field]
  | cons g fields ih =>
    obtain ⟨k', j'⟩ := g
    rw [writeFields, encodeUtf8_append, encodeUtf8_append, encodeUtf8_comma, encodeUtf8_field, ih,
      laterFields, laterFields, List.flatMap_cons, List.append_assoc]
    · rfl
    · exact List.cons_ne_nil _ fields

theorem stops_laterFields (fields : List (String × Json)) (rest : List UInt8) :
    Stops (laterFields fields ++ ascii '\x7d' :: rest) := by
  cases fields with
  | nil => exact stops_cons (Or.inr (Or.inr rfl)) rest
  | cons f fields => exact stops_cons (Or.inl rfl) _

theorem nextKey_first (bs : List UInt8) (p : LinePlace) :
    nextKey true ⟨ascii '"' :: bs, p⟩ = .ok (true, ⟨bs, Cursor.placeAfter p (ascii '"')⟩) := by
  simp [nextKey, skipBlanks_cons (show 32 < ascii '"' by decide),
    show (ascii '"' == ascii '\x7d') = false by decide]

theorem nextKey_later (bs : List UInt8) (p : LinePlace) :
    ∃ q, nextKey false ⟨ascii ',' :: ascii '"' :: bs, p⟩ = .ok (true, ⟨bs, q⟩) := by
  refine ⟨Cursor.placeAfter (Cursor.placeAfter p (ascii ',')) (ascii '"'), ?_⟩
  simp [nextKey, skipBlanks_cons (show 32 < ascii ',' by decide),
    skipBlanks_cons (show 32 < ascii '"' by decide),
    show (ascii ',' == ascii '\x7d') = false by decide]

theorem nextKey_end (first : Bool) (rest : List UInt8) (p : LinePlace) :
    nextKey first ⟨ascii '\x7d' :: rest, p⟩ = .ok (false, ⟨ascii '\x7d' :: rest, p⟩) := by
  simp [nextKey, skipBlanks_cons (show 32 < ascii '\x7d' by decide)]

theorem readColon_cons (rest : List UInt8) (p : LinePlace) :
    readColon ⟨ascii ':' :: rest, p⟩ = .ok ((), ⟨rest, Cursor.placeAfter p (ascii ':')⟩) := by
  simp [readColon, skipBlanks_cons (show 32 < ascii ':' by decide)]

theorem endObject_end (rest : List UInt8) (p : LinePlace) :
    endObject ⟨ascii '\x7d' :: rest, p⟩ = .ok ((), ⟨rest, Cursor.placeAfter p (ascii '\x7d')⟩) := by
  simp [endObject, skipBlanks_cons (show 32 < ascii '\x7d' by decide)]

theorem readFields_more {inner : Reader Json} {first : Bool} {c c₁ c₂ c₃ c₄ : Cursor} {k : String}
    {j : Json} (hNext : nextKey first c = .ok (true, c₁)) (hKey : readString c₁ = .ok (k, c₂))
    (hColon : readColon c₂ = .ok ((), c₃)) (hValue : inner c₃ = .ok (j, c₄)) (n : Nat)
    (read : List (String × Json)) :
    readFields inner (n + 1) first read c = readFields inner n false ((k, j) :: read) c₄ := by
  simp [readFields, hNext, hKey, hColon, hValue, bind, Except.bind]

theorem readFields_end (inner : Reader Json) (n : Nat) (first : Bool)
    (read : List (String × Json)) (rest : List UInt8) (p : LinePlace) :
    readFields inner (n + 1) first read ⟨ascii '\x7d' :: rest, p⟩ =
      .ok (read.reverse, ⟨ascii '\x7d' :: rest, p⟩) := by
  simp [readFields, nextKey_end, bind, Except.bind]

/-- A field is read, from after the opening quote of its name on. -/
theorem exists_reads_field {inner : Reader Json} {f : String × Json}
    (h : Reads inner (encodeUtf8 (write f.2)) f.2) (hStops : Stops rest) (p : LinePlace) :
    ∃ c₂ c₃ q, readString ⟨quotedBytes f.1.toList ++ ascii '"' :: ascii ':' ::
        (encodeUtf8 (write f.2) ++ rest), p⟩ = .ok (f.1, c₂) ∧
      readColon c₂ = .ok ((), c₃) ∧ inner c₃ = .ok (f.2, ⟨rest, q⟩) := by
  obtain ⟨q₁, hKey⟩ := readString_quoted f.1 (ascii ':' :: (encodeUtf8 (write f.2) ++ rest)) p
  obtain ⟨q₂, hValue⟩ := h (Cursor.placeAfter q₁ (ascii ':')) rest hStops
  exact ⟨_, _, q₂, hKey, readColon_cons _ _, hValue⟩

theorem laterFields_cons (f : String × Json) (fields : List (String × Json)) (rest : List UInt8) :
    laterFields (f :: fields) ++ rest = ascii ',' :: ascii '"' :: (quotedBytes f.1.toList ++
      ascii '"' :: ascii ':' :: (encodeUtf8 (write f.2) ++ (laterFields fields ++ rest))) := by
  simp [laterFields, fieldBytes]

theorem fieldBytes_append (f : String × Json) (rest : List UInt8) :
    fieldBytes f ++ rest = ascii '"' :: (quotedBytes f.1.toList ++
      ascii '"' :: ascii ':' :: (encodeUtf8 (write f.2) ++ rest)) := by
  simp [fieldBytes]

/-- The fields after some are read up to the end of the object. -/
theorem readFields_later {inner : Reader Json} {fields : List (String × Json)}
    (hFields : ∀ f ∈ fields, Reads inner (encodeUtf8 (write f.2)) f.2) {n : Nat}
    (hn : fields.length < n) (read : List (String × Json)) (rest : List UInt8) (p : LinePlace) :
    ∃ q, readFields inner n false read ⟨laterFields fields ++ ascii '\x7d' :: rest, p⟩ =
      .ok (read.reverse ++ fields, ⟨ascii '\x7d' :: rest, q⟩) := by
  induction fields generalizing n read p with
  | nil =>
    obtain ⟨n, rfl⟩ := Nat.exists_eq_succ_of_ne_zero (Nat.ne_zero_of_lt hn)
    exact ⟨p, by rw [List.append_nil]; exact readFields_end inner n false read rest p⟩
  | cons f fields ih =>
    obtain ⟨n, rfl⟩ := Nat.exists_eq_succ_of_ne_zero (Nat.ne_zero_of_lt hn)
    obtain ⟨hReads, hRest⟩ := List.forall_mem_cons.mp hFields
    rw [laterFields_cons]
    obtain ⟨q₁, hNext⟩ := nextKey_later (quotedBytes f.1.toList ++ ascii '"' :: ascii ':' ::
      (encodeUtf8 (write f.2) ++ (laterFields fields ++ ascii '\x7d' :: rest))) p
    obtain ⟨c₂, c₃, q₂, hKey, hColon, hValue⟩ :=
      exists_reads_field hReads (stops_laterFields fields rest) q₁
    obtain ⟨q₃, hLater⟩ := ih hRest (Nat.lt_of_succ_lt_succ hn) (f :: read) q₂
    refine ⟨q₃, ?_⟩
    rw [readFields_more hNext hKey hColon hValue, hLater, List.reverse_cons, List.append_assoc,
      List.singleton_append]

theorem readBelow_object {fields : List (String × Json)} {r : LinePlace}
    (hFields : readFields (readBelow depth) (bs.length + 2) true []
      ⟨bs, Cursor.placeAfter p (ascii '\x7b')⟩ = .ok (fields, ⟨ascii '\x7d' :: rest, r⟩)) :
    readBelow (depth + 1) ⟨ascii '\x7b' :: bs, p⟩ =
      .ok (.obj fields, ⟨rest, Cursor.placeAfter r (ascii '\x7d')⟩) := by
  simp only [readBelow, readWith, skipBlanks_cons (show 32 < ascii '\x7b' by decide), peek_mk,
    List.head?_cons, show (ascii '\x7b' == ascii '[') = false by decide, Bool.false_eq_true,
    if_false, BEq.rfl, if_true, skip_cons, List.length_cons, hFields, endObject_end, bind,
    Except.bind]

/-- An object is read, if what its fields hold is. -/
theorem reads_obj {fields : List (String × Json)}
    (hFields : ∀ f ∈ fields, Reads (readBelow depth) (encodeUtf8 (write f.2)) f.2) :
    Reads (readBelow (depth + 1)) (encodeUtf8 (write (.obj fields))) (.obj fields) := by
  intro p rest hStops
  rw [encodeUtf8_fields, List.cons_append, List.append_assoc, List.singleton_append]
  cases fields with
  | nil =>
    have hNone : encodeUtf8 (writeFields []) = [] := by simp [writeFields, encodeUtf8_ascii]
    refine ⟨Cursor.placeAfter (Cursor.placeAfter p (ascii '\x7b')) (ascii '\x7d'),
      readBelow_object ?_⟩
    rw [hNone, List.nil_append, readFields_end, List.reverse_nil]
  | cons f fields =>
    obtain ⟨hReads, hRest⟩ := List.forall_mem_cons.mp hFields
    obtain ⟨c₂, c₃, q₁, hKey, hColon, hValue⟩ := exists_reads_field hReads
      (stops_laterFields fields rest)
      (Cursor.placeAfter (Cursor.placeAfter p (ascii '\x7b')) (ascii '"'))
    obtain ⟨q₂, hLater⟩ := readFields_later hRest
      (length_lt_laterFields fields (fieldBytes f) (ascii '\x7d' :: rest)) [f] rest q₁
    refine ⟨Cursor.placeAfter q₂ (ascii '\x7d'), readBelow_object ?_⟩
    rw [encodeUtf8_writeFields, List.append_assoc]
    rw [fieldBytes_append] at hLater ⊢
    rw [readFields_more (nextKey_first _ _) hKey hColon hValue, hLater, List.reverse_singleton,
      List.singleton_append]

-- ---------------------------------------------------------------------------
-- All values
-- ---------------------------------------------------------------------------

/-- **A value is read as it was written**, wherever it stands. -/
theorem reads_write {j : Json} (h : Readable depth j) :
    Reads (readBelow depth) (encodeUtf8 (write j)) j := by
  induction h with
  | null => exact reads_null _
  | bool b => exact reads_bool b _
  | nat hHeld => exact reads_nat hHeld _
  | neg hPositive hHeld => exact reads_neg hPositive hHeld _
  | real hBack => exact reads_real hBack _
  | str s => exact reads_str s _
  | arr hItems ih => exact reads_arr fun j hMem => ⟨begins_write (hItems j hMem), ih j hMem⟩
  | obj hFields ih => exact reads_obj ih

/-- What is read up to the end of a text is the text's. -/
theorem readAll_of_reads {α : Type} {reader : Reader α} {bytes : List UInt8} {a : α}
    (h : Reads reader bytes a) : readAll reader bytes = .ok a := by
  obtain ⟨q, hRead⟩ := h {} [] stops_nil
  rw [List.append_nil] at hRead
  rw [readAll, hRead]
  rfl

/-- **A value is what its text is.** -/
theorem parse_write {j : Json} (h : Readable maxDepth j) : parse (write j) = .ok j :=
  readAll_of_reads (reads_write h)

-- ---------------------------------------------------------------------------
-- Records with a tag
-- ---------------------------------------------------------------------------

variable {tagName : String} {known : List String} {inner : Reader Json}

theorem readTaggedFields_more {first : Bool} {c c₁ c₂ c₃ c₄ : Cursor} {k : String} {j : Json}
    (hNext : nextKey first c = .ok (true, c₁)) (hKey : readString c₁ = .ok (k, c₂))
    (hColon : readColon c₂ = .ok ((), c₃)) (hValue : inner c₃ = .ok (j, c₄)) (hOther : k ≠ tagName)
    (n : Nat) (tag : Option String) (read : List (String × Json)) :
    readTaggedFields tagName known inner (n + 1) first tag read c =
      readTaggedFields tagName known inner n false tag ((k, j) :: read) c₄ := by
  simp [readTaggedFields, hNext, hKey, hColon, hValue, hOther, bind, Except.bind]

theorem readTaggedFields_tag {first : Bool} {c c₁ c₂ c₃ c₄ : Cursor} {kind : String}
    (hNext : nextKey first c = .ok (true, c₁)) (hKey : readString c₁ = .ok (tagName, c₂))
    (hColon : readColon c₂ = .ok ((), c₃)) (hTag : readTag known c₃ = .ok (kind, c₄)) (n : Nat)
    (read : List (String × Json)) :
    readTaggedFields tagName known inner (n + 1) first none read c =
      readTaggedFields tagName known inner n false (some kind) read c₄ := by
  simp [readTaggedFields, hNext, hKey, hColon, hTag, bind, Except.bind]

theorem readTaggedFields_end (n : Nat) (first : Bool) (kind : String)
    (read : List (String × Json)) (rest : List UInt8) (p : LinePlace) :
    readTaggedFields tagName known inner (n + 1) first (some kind) read
      ⟨ascii '\x7d' :: rest, p⟩ =
        .ok (.ok (kind, .obj read.reverse), ⟨ascii '\x7d' :: rest, p⟩) := by
  simp [readTaggedFields, nextKey_end, bind, Except.bind]

/-- Fields after the tag are read up to the end of the record, if none has the name of the tag. -/
theorem readTaggedFields_later (known : List String) {fields : List (String × Json)}
    (hFields : ∀ f ∈ fields, f.1 ≠ tagName ∧ Reads inner (encodeUtf8 (write f.2)) f.2) {n : Nat}
    (hn : fields.length < n) (kind : String) (read : List (String × Json)) (rest : List UInt8)
    (p : LinePlace) :
    ∃ q, readTaggedFields tagName known inner n false (some kind) read
        ⟨laterFields fields ++ ascii '\x7d' :: rest, p⟩ =
      .ok (.ok (kind, .obj (read.reverse ++ fields)), ⟨ascii '\x7d' :: rest, q⟩) := by
  induction fields generalizing n read p with
  | nil =>
    obtain ⟨n, rfl⟩ := Nat.exists_eq_succ_of_ne_zero (Nat.ne_zero_of_lt hn)
    exact ⟨p, by rw [List.append_nil]; exact readTaggedFields_end n false kind read rest p⟩
  | cons f fields ih =>
    obtain ⟨n, rfl⟩ := Nat.exists_eq_succ_of_ne_zero (Nat.ne_zero_of_lt hn)
    obtain ⟨⟨hOther, hReads⟩, hRest⟩ := List.forall_mem_cons.mp hFields
    rw [laterFields_cons]
    obtain ⟨q₁, hNext⟩ := nextKey_later (quotedBytes f.1.toList ++ ascii '"' :: ascii ':' ::
      (encodeUtf8 (write f.2) ++ (laterFields fields ++ ascii '\x7d' :: rest))) p
    obtain ⟨c₂, c₃, q₂, hKey, hColon, hValue⟩ :=
      exists_reads_field hReads (stops_laterFields fields rest) q₁
    obtain ⟨q₃, hLater⟩ := ih hRest (Nat.lt_of_succ_lt_succ hn) (f :: read) q₂
    refine ⟨q₃, ?_⟩
    rw [readTaggedFields_more hNext hKey hColon hValue hOther, hLater, List.reverse_cons,
      List.append_assoc, List.singleton_append]

/-- A tag that is known is read. -/
theorem readTag_quoted {kind : String} (hKnown : kind ∈ known) (rest : List UInt8)
    (p : LinePlace) :
    ∃ q, readTag known ⟨encodeUtf8 (write (.str kind)) ++ rest, p⟩ = .ok (kind, ⟨rest, q⟩) := by
  obtain ⟨q, hRead⟩ := readString_quoted kind rest (Cursor.placeAfter p (ascii '"'))
  refine ⟨q, ?_⟩
  rw [write, encodeUtf8_quote, List.cons_append, List.append_assoc, List.singleton_append]
  have hOther : (ascii '"' == ascii '[') = false ∧ (ascii '"' == ascii '\x7b') = false := by decide
  have hContains : known.contains kind = true := List.contains_iff_mem.mpr hKnown
  simp only [readTag, skipBlanks_cons (show 32 < ascii '"' by decide), peek_mk, List.head?_cons,
    hOther, Bool.false_eq_true, if_false, readScalar_quote, skip_cons, hRead, Except.map, bind,
    Except.bind, hContains, if_true]

theorem readTagged_object {t : Tagged} {r : LinePlace} {what : String}
    (hFields : readTaggedFields tagName known (readBelow (maxDepth - 1)) (bs.length + 2) true none
      [] ⟨bs, Cursor.placeAfter p (ascii '\x7b')⟩ = .ok (.ok t, ⟨ascii '\x7d' :: rest, r⟩)) :
    readTagged tagName what known ⟨ascii '\x7b' :: bs, p⟩ =
      .ok (t, ⟨rest, Cursor.placeAfter r (ascii '\x7d')⟩) := by
  simp only [readTagged, skipBlanks_cons (show 32 < ascii '\x7b' by decide), peek_mk,
    List.head?_cons, show (ascii '\x7b' == ascii '[') = false by decide, Bool.false_eq_true,
    if_false, BEq.rfl, if_true, skip_cons, List.length_cons, hFields, closeWith, endObject_end,
    bind, Except.bind]

/-- **A record with a tag** is read as its tag and the record without it. -/
theorem reads_tagged {kind : String} (hKnown : kind ∈ known) {fields : List (String × Json)}
    (hFields : ∀ f ∈ fields, f.1 ≠ tagName ∧ Readable (maxDepth - 1) f.2) (what : String) :
    Reads (readTagged tagName what known)
      (encodeUtf8 (write (.obj ((tagName, .str kind) :: fields)))) (kind, .obj fields) := by
  intro p rest hStops
  have hOthers : ∀ f ∈ fields, f.1 ≠ tagName ∧
      Reads (readBelow (maxDepth - 1)) (encodeUtf8 (write f.2)) f.2 := fun f hMem =>
    ⟨(hFields f hMem).1, reads_write (hFields f hMem).2⟩
  obtain ⟨q₁, hKey⟩ := readString_quoted tagName (ascii ':' :: (encodeUtf8 (write (.str kind)) ++
    (laterFields fields ++ ascii '\x7d' :: rest)))
    (Cursor.placeAfter (Cursor.placeAfter p (ascii '\x7b')) (ascii '"'))
  obtain ⟨q₂, hTag⟩ := readTag_quoted hKnown (laterFields fields ++ ascii '\x7d' :: rest)
    (Cursor.placeAfter q₁ (ascii ':'))
  obtain ⟨q₃, hLater⟩ := readTaggedFields_later known hOthers
    (length_lt_laterFields fields (fieldBytes (tagName, .str kind)) (ascii '\x7d' :: rest))
    kind [] rest q₂
  refine ⟨Cursor.placeAfter q₃ (ascii '\x7d'), ?_⟩
  rw [encodeUtf8_fields, List.cons_append, List.append_assoc, List.singleton_append,
    encodeUtf8_writeFields, List.append_assoc]
  refine readTagged_object ?_
  rw [fieldBytes_append] at hLater ⊢
  rw [readTaggedFields_tag (nextKey_first _ _) hKey (readColon_cons _ _) hTag, hLater,
    List.reverse_nil, List.nil_append]

theorem unplaced_eq_ok_iff {α : Type} {r : Except ShapeFault α} {a : α} :
    unplaced r = .ok a ↔ r = .ok a := by
  cases r <;> simp [unplaced, Except.mapError]

end Json

end ScriptWarden
