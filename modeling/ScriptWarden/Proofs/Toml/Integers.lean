import Mathlib.Data.List.TakeWhile
import ScriptWarden.Proofs.Json.Numbers
import ScriptWarden.Toml.Reader

/-!
# Integers of TOML

An integer is written in decimal digits. The reader takes a word for a moment or a real number
before it takes it for an integer, and a word of digits alone is neither. What it takes for an
integer has 64 bits, wherever it stands in a document.

## Results

* `readWord?_toDigits` — a natural number of 64 bits is read as it was written.
* `isInteger_of_parse?` — the integers among the fields of a document have 64 bits.
-/

namespace ScriptWarden.Toml

variable {cs rest : List Char} {n : Nat}

-- ---------------------------------------------------------------------------
-- Words of digits
-- ---------------------------------------------------------------------------

theorem isDigit_of_mem_toDigits {c : Char} (h : c ∈ Nat.toDigits 10 n) : isDigit c = true := by
  have hDigit := Json.isDigit_iff.mp (Nat.isDigit_of_mem_toDigits (by decide) (by decide) h)
  simp only [isDigit, Bool.and_eq_true, decide_eq_true_eq]
  exact hDigit

theorem ne_of_isDigit {c d : Char} (h : isDigit c = true) (hd : isDigit d = false) : c ≠ d := by
  rintro rfl
  exact absurd h (by simp [hd])

theorem isWordChar_of_isDigit {c : Char} (h : isDigit c = true) : isWordChar c = true := by
  have hCore : c.isDigit = true := h
  simp [isWordChar, Char.isAlphanum, hCore]

theorem readDigits?_rest {count lo hi : Nat} (h : readDigits? count lo hi cs = some (n, rest)) :
    rest = cs.drop count := by
  simp only [readDigits?] at h
  split at h
  · split at h
    · cases h
      rfl
    · cases h
  · cases h

/-- Among digits there is no mark. -/
theorem readChar?_digits {c : Char} (h : ∀ x ∈ cs, isDigit x = true) (hc : isDigit c = false) :
    readChar? c cs = none := by
  cases cs with
  | nil => rfl
  | cons x cs => simp [readChar?, ne_of_isDigit (h x List.mem_cons_self) hc]

theorem readTime?_digits (h : ∀ x ∈ cs, isDigit x = true) : readTime? cs = none := by
  cases hRead : readDigits? 2 0 23 cs with
  | none => simp [readTime?, hRead]
  | some r =>
    have hRest : ∀ x ∈ r.2, isDigit x = true := fun x hMem =>
      h x (List.mem_of_mem_drop (readDigits?_rest hRead ▸ hMem))
    simp [readTime?, hRead, readChar?_digits hRest (c := ':') (by decide)]

theorem readDate?_digits (h : ∀ x ∈ cs, isDigit x = true) : readDate? cs = none := by
  cases hRead : readDigits? 4 0 9999 cs with
  | none => simp [readDate?, hRead]
  | some r =>
    have hRest : ∀ x ∈ r.2, isDigit x = true := fun x hMem =>
      h x (List.mem_of_mem_drop (readDigits?_rest hRead ▸ hMem))
    simp [readDate?, hRead, readChar?_digits hRest (c := '-') (by decide)]

/-- Digits alone are no moment. -/
theorem isMoment_digits (h : ∀ x ∈ cs, isDigit x = true) : isMoment cs = false := by
  simp [isMoment, readTime?_digits h, readDate?_digits h]

theorem splitSign_digits (h : ∀ x ∈ cs, isDigit x = true) : splitSign cs = (false, cs) := by
  unfold splitSign
  split
  · exact absurd (h '-' List.mem_cons_self) (by decide)
  · exact absurd (h '+' List.mem_cons_self) (by decide)
  · rfl

/-- Digits alone are no real number: that has a point, an exponent or a name. -/
theorem isReal_digits (h : ∀ x ∈ cs, isDigit x = true) : isReal cs = false := by
  have hNot : ∀ {d : Char}, isDigit d = false → ∀ x ∈ cs, x ≠ d := fun hd x hMem =>
    ne_of_isDigit (h x hMem) hd
  have hInf : cs ≠ ['i', 'n', 'f'] := by
    rintro rfl
    exact absurd (h 'i' (by simp)) (by decide)
  have hNan : cs ≠ ['n', 'a', 'n'] := by
    rintro rfl
    exact absurd (h 'n' (by simp)) (by decide)
  have hWhole : cs.takeWhile (fun c => !(c == 'e' || c == 'E')) = cs :=
    List.takeWhile_eq_self_iff.mpr fun x hMem => by
      simp [hNot (d := 'e') (by decide) x hMem, hNot (d := 'E') (by decide) x hMem]
  have hExponent : cs.dropWhile (fun c => !(c == 'e' || c == 'E')) = [] :=
    List.dropWhile_eq_nil_iff.mpr fun x hMem => by
      simp [hNot (d := 'e') (by decide) x hMem, hNot (d := 'E') (by decide) x hMem]
  have hFraction : cs.dropWhile (· != '.') = [] :=
    List.dropWhile_eq_nil_iff.mpr fun x hMem => by simp [hNot (d := '.') (by decide) x hMem]
  simp only [isReal, splitSign_digits h, hWhole, hExponent, hFraction]
  simp [hInf, hNan]

-- ---------------------------------------------------------------------------
-- Written integers
-- ---------------------------------------------------------------------------

theorem ungroup_digits {p : Char → Bool} (hSome : cs ≠ [])
    (h : ∀ x ∈ cs, p x = true ∧ x ≠ '_') : ungroup p cs = some cs := by
  induction cs with
  | nil => exact absurd rfl hSome
  | cons c cs ih =>
    obtain ⟨⟨hHere, -⟩, hRest⟩ := List.forall_mem_cons.mp h
    match cs, hRest with
    | [], _ => simp [ungroup, hHere]
    | d :: cs, hRest =>
      have hNoMark : d ≠ '_' := (hRest d List.mem_cons_self).2
      rw [ungroup, if_pos hHere, ih (List.cons_ne_nil _ _) hRest, Option.map_some]
      · simp
      · rintro _ ⟨⟩
        exact hNoMark rfl

theorem digitIn?_digit {c : Char} (h : isDigit c = true) :
    digitIn? 10 c = some (c.toNat - '0'.toNat) := by
  have hCode := Json.isDigit_iff.mp (show c.isDigit = true from h)
  simp [digitIn?, h]
  omega

theorem natIn?_digits (hSome : cs ≠ []) (h : ∀ x ∈ cs, isDigit x = true) :
    natIn? 10 cs = some (Nat.ofDigitChars 10 cs 0) := by
  have hDigits := ungroup_digits (p := fun c => (digitIn? 10 c).isSome) hSome fun x hMem =>
    ⟨by simp [digitIn?_digit (h x hMem)], ne_of_isDigit (h x hMem) (by decide)⟩
  have hFold : ∀ start, cs.foldl (fun n c => n * 10 + (digitIn? 10 c).getD 0) start =
      Nat.ofDigitChars 10 cs start := by
    intro start
    rw [Nat.ofDigitChars]
    refine List.foldl_ext _ _ _ fun n c hMem => ?_
    rw [digitIn?_digit (h c hMem), Option.getD_some, Nat.mul_comm]
  simp only [natIn?, hDigits, Option.bind_eq_bind, Option.bind_some, hFold]

theorem decimal?_toDigits (n : Nat) : decimal? (Nat.toDigits 10 n) = some n := by
  obtain ⟨c, cs, hDigits⟩ := List.exists_cons_of_ne_nil (@Nat.toDigits_ne_nil n 10)
  have hValue := natIn?_digits (@Nat.toDigits_ne_nil n 10) fun x hMem => isDigit_of_mem_toDigits hMem
  rw [Nat.ofDigitChars_ten_toDigits] at hValue
  by_cases hZero : c = '0'
  · subst hZero
    obtain rfl := Json.toDigits_zero_cons hDigits
    rw [hDigits] at hValue ⊢
    exact hValue
  · rw [decimal?]
    · exact hValue
    · rw [hDigits]
      rintro ⟨⟩
      exact hZero rfl
    · rw [hDigits]
      rintro cs ⟨⟩
      exact hZero rfl

/-- A natural number is read as it was written, up to the end of its line. -/
theorem readWord?_toDigits (h : isInteger n = true) (rest : List Char) :
    readWord? (Nat.toDigits 10 n ++ '\n' :: rest) = some (.integer n, '\n' :: rest) := by
  have hAll : ∀ x ∈ Nat.toDigits 10 n, isDigit x = true := fun x hMem =>
    isDigit_of_mem_toDigits hMem
  obtain ⟨c, cs, hDigits⟩ := List.exists_cons_of_ne_nil (@Nat.toDigits_ne_nil n 10)
  have hWord : (Nat.toDigits 10 n ++ '\n' :: rest).takeWhile isWordChar = Nat.toDigits 10 n := by
    rw [List.takeWhile_append_of_pos fun x hMem => isWordChar_of_isDigit (hAll x hMem)]
    simp [show isWordChar '\n' = false by decide]
  have hNot : ∀ word : List Char, word.head?.any isDigit = false → Nat.toDigits 10 n ≠ word := by
    rintro word hHead rfl
    simp [hDigits, hAll c (hDigits ▸ List.mem_cons_self)] at hHead
  have hInteger : integer? (Nat.toDigits 10 n) = some (.integer n) := by
    rw [integer?]
    · rw [splitSign_digits hAll]
      simp only [Bool.false_eq_true, if_false]
      rw [decimal?_toDigits, Option.bind_some]
      exact if_pos h
    -- no word of digits has the mark of a base
    all_goals
      rintro cs hEq
      exact absurd (hAll _ (hEq ▸ List.mem_cons_of_mem _ List.mem_cons_self)) (by decide)
  have hRead : ofWord? (Nat.toDigits 10 n) = some (.integer n) := by
    rw [ofWord?, isMoment_digits hAll, isReal_digits hAll, hInteger]
    simp [hNot ['t', 'r', 'u', 'e'] (by decide), hNot ['f', 'a', 'l', 's', 'e'] (by decide)]
  simp [readWord?, hWord, hRead]

-- ---------------------------------------------------------------------------
-- Integers of a document
-- ---------------------------------------------------------------------------

theorem isInteger_of_inRange? {k m : Int} (h : inRange? k = some (.integer m)) :
    isInteger m = true := by
  rw [inRange?] at h
  split at h
  · next hHeld =>
    cases h
    exact hHeld
  · cases h

/-- What a word writes is an integer of 64 bits, if it is an integer. -/
theorem isInteger_of_ofWord? {m : Int} (h : ofWord? cs = some (.integer m)) :
    isInteger m = true := by
  rw [ofWord?] at h
  repeat' split at h
  all_goals try cases h
  unfold integer? at h
  split at h
  all_goals
    obtain ⟨k, -, hRange⟩ := Option.bind_eq_some_iff.mp h
    exact isInteger_of_inRange? hRange

theorem isInteger_of_readWord? {m : Int} (h : readWord? cs = some (.integer m, rest)) :
    isInteger m = true := by
  simp only [readWord?] at h
  split at h
  · cases h
  · obtain ⟨v, hWord, hPair⟩ := Option.map_eq_some_iff.mp h
    obtain ⟨rfl, -⟩ := Prod.mk.inj hPair
    exact isInteger_of_ofWord? hWord

/-- An integer that is read as a value comes from a word. -/
theorem isInteger_of_readValue {depth : Nat} {m : Int}
    (h : readValue depth cs = some (.integer m, rest)) : isInteger m = true := by
  unfold readValue at h
  split at h
  · cases h
  · split at h
    · obtain ⟨r, -, hPair⟩ := Option.map_eq_some_iff.mp h
      cases hPair
    · split at h
      · split at h
        · cases h
        · split at h
          · obtain ⟨r, -, hPair⟩ := Option.map_eq_some_iff.mp h
            cases hPair
          · split at h
            · cases h
            · obtain ⟨r, -, hPair⟩ := Option.map_eq_some_iff.mp h
              cases hPair
      · exact isInteger_of_readWord? h

/-- The integers that stand directly in a table have 64 bits. -/
def Bounded (fields : Fields) : Prop :=
  ∀ name m, (name, Entry.value (.integer m)) ∈ fields → isInteger m = true

/-- Whether an entry is a table, or tables. -/
def Entry.IsNested (e : Entry) : Prop := ∀ v, e ≠ .value v

variable {fields fields' : Fields} {name : String} {path : List String}

theorem Bounded.nil : Bounded [] := by simp [Bounded]

theorem Bounded.subset (h : Bounded fields) (hSub : fields' ⊆ fields) : Bounded fields' :=
  fun name m hMem => h name m (hSub hMem)

theorem Bounded.append {name : String} {e : Entry} (h : Bounded fields)
    (hEntry : ∀ m, e = .value (.integer m) → isInteger m = true) :
    Bounded (fields ++ [(name, e)]) := by
  intro other m hMem
  rcases List.mem_append.mp hMem with hOld | hNew
  · exact h other m hOld
  · obtain ⟨-, rfl⟩ := Prod.mk.inj (List.mem_singleton.mp hNew)
    exact hEntry m rfl

theorem Bounded.appendNested {e : Entry} (h : Bounded fields) (hEntry : e.IsNested) :
    Bounded (fields ++ [(name, e)]) := h.append fun _ hValue => absurd hValue (hEntry _)

theorem Bounded.replaceEntry {e : Entry} (h : Bounded fields) (hEntry : e.IsNested) :
    Bounded (replaceEntry name e fields) := by
  intro other m hMem
  obtain ⟨f, hOld, hNew⟩ := List.mem_map.mp hMem
  split at hNew
  · exact absurd (Prod.mk.inj hNew).2 (hEntry _)
  · exact h other m (hNew ▸ hOld)

/-- A value is added below tables, or as a field of its own. -/
theorem Bounded.insertValue {v : Toml} (h : Bounded fields)
    (hValue : ∀ m, v = .integer m → isInteger m = true)
    (hInsert : insertValue v name path fields = some fields') : Bounded fields' := by
  cases path with
  | nil =>
    simp only [Toml.insertValue] at hInsert
    split at hInsert
    · cases hInsert
    · cases hInsert
      exact h.append fun m hEq => hValue m (Entry.value.inj hEq)
  | cons p path =>
    simp only [Toml.insertValue] at hInsert
    split at hInsert
    · obtain ⟨sub, -, rfl⟩ := Option.map_eq_some_iff.mp hInsert
      exact h.appendNested nofun
    · split at hInsert
      · cases hInsert
      · obtain ⟨sub, -, rfl⟩ := Option.map_eq_some_iff.mp hInsert
        exact h.replaceEntry nofun
    · split at hInsert
      · cases hInsert
      · obtain ⟨sub, -, rfl⟩ := Option.map_eq_some_iff.mp hInsert
        exact h.replaceEntry nofun
    · cases hInsert

/-- A change below tables touches no value, and one at the top what it touches itself. -/
theorem Bounded.changeAt {change : Fields → Option Fields} (h : Bounded fields)
    (hChange : ∀ {t t'}, Bounded t → change t = some t' → Bounded t')
    (hChanged : changeAt change path fields = some fields') : Bounded fields' := by
  cases path with
  | nil => exact hChange h hChanged
  | cons p path =>
    simp only [Toml.changeAt] at hChanged
    split at hChanged
    · obtain ⟨sub, -, rfl⟩ := Option.map_eq_some_iff.mp hChanged
      exact h.appendNested nofun
    · obtain ⟨sub, -, rfl⟩ := Option.map_eq_some_iff.mp hChanged
      exact h.replaceEntry nofun
    · obtain ⟨sub, -, rfl⟩ := Option.map_eq_some_iff.mp hChanged
      exact h.replaceEntry nofun
    · cases hChanged

namespace Draft

/-- What a draft holds at the top has integers of 64 bits. What the open table holds does not
matter, unless that is the document itself. -/
structure Bounded (d : Draft) : Prop where
  complete : Toml.Bounded d.complete
  fields : d.place = none → Toml.Bounded d.fields

variable {d d' : Draft}

theorem Bounded.close (h : d.Bounded) (hClose : d.close = some fields) : Toml.Bounded fields := by
  rw [Draft.close] at hClose
  split at hClose
  · next hPlace =>
    cases hClose
    exact h.fields hPlace
  · refine h.complete.changeAt (fun {t t'} hTable hChange => ?_) hClose
    split at hChange
    · cases hChange
      refine hTable.appendNested fun v => ?_
      split <;> nofun
    · split at hChange
      · cases hChange
        exact hTable.replaceEntry nofun
      · cases hChange
    · cases hChange

theorem Bounded.openTable (h : d.Bounded) (hOpen : d.openTable path name = some d') :
    d'.Bounded := by
  simp only [Draft.openTable, Option.bind_eq_bind, Option.bind_eq_some_iff] at hOpen
  obtain ⟨closed, hClose, complete, hChange, hDraft⟩ := hOpen
  cases hDraft
  refine ⟨(h.close hClose).changeAt (fun {t t'} hTable hStep => ?_) hChange, nofun⟩
  split at hStep
  · cases hStep
    exact hTable
  · cases hStep
    exact hTable.subset (List.filter_subset_self _)
  · cases hStep

theorem Bounded.openListed (h : d.Bounded) (hOpen : d.openListed path name = some d') :
    d'.Bounded := by
  simp only [Draft.openListed, Option.bind_eq_bind, Option.bind_eq_some_iff] at hOpen
  obtain ⟨closed, hClose, complete, hChange, hDraft⟩ := hOpen
  cases hDraft
  refine ⟨(h.close hClose).changeAt (fun {t t'} hTable hStep => ?_) hChange, nofun⟩
  split at hStep
  · cases hStep
    exact hTable
  · cases hStep
    exact hTable
  · cases hStep

theorem Bounded.insert {v : Toml} (h : d.Bounded)
    (hValue : ∀ m, v = .integer m → isInteger m = true)
    (hInsert : d.insert path name v = some d') : d'.Bounded := by
  obtain ⟨fields, hFields, rfl⟩ := Option.map_eq_some_iff.mp hInsert
  exact ⟨h.complete, fun hPlace => (h.fields hPlace).insertValue hValue hFields⟩

theorem Bounded.readHead? (h : d.Bounded) (hHead : readHead? d cs = some (d', rest)) :
    d'.Bounded := by
  unfold Toml.readHead? at hHead
  split at hHead
  · simp only [Option.bind_eq_bind, Option.bind_eq_some_iff] at hHead
    obtain ⟨_, _, _, _, _, _, hOpen⟩ := hHead
    obtain ⟨opened, hOpen, hPair⟩ := Option.map_eq_some_iff.mp hOpen
    exact (Prod.mk.inj hPair).1 ▸ h.openListed hOpen
  · simp only [Option.bind_eq_bind, Option.bind_eq_some_iff] at hHead
    obtain ⟨_, _, _, _, hOpen⟩ := hHead
    obtain ⟨opened, hOpen, hPair⟩ := Option.map_eq_some_iff.mp hOpen
    exact (Prod.mk.inj hPair).1 ▸ h.openTable hOpen

/-- Whatever lines are read, the integers at the top have 64 bits. -/
theorem Bounded.readLines {n : Nat} (h : d.Bounded) (hRead : readLines n d cs = some d') :
    d'.Bounded := by
  induction n generalizing d cs with
  | zero => cases hRead
  | succ n ih =>
    rw [Toml.readLines] at hRead
    split at hRead
    · cases hRead
      exact h
    · simp only [Option.bind_eq_bind, Option.bind_eq_some_iff] at hRead
      obtain ⟨⟨opened, rest⟩, hHead, rest', -, hRest⟩ := hRead
      exact ih (h.readHead? hHead) hRest
    · split at hRead
      · exact ih h hRead
      · simp only [Option.bind_eq_bind, Option.bind_eq_some_iff] at hRead
        obtain ⟨⟨⟨path, name⟩, value, rest⟩, hField, next, hInsert, rest', -, hRest⟩ := hRead
        refine ih (h.insert ?_ hInsert) hRest
        rintro m rfl
        simp only [readField?, Option.bind_eq_bind, Option.bind_eq_some_iff] at hField
        obtain ⟨_, _, _, _, ⟨v, left⟩, hValue, hEq⟩ := hField
        obtain ⟨-, rfl, rfl⟩ : _ ∧ v = .integer m ∧ left = rest := by simpa using hEq
        exact isInteger_of_readValue hValue

end Draft

theorem mem_fieldValues {v : Toml} (h : (name, v) ∈ fieldValues fields) :
    ∃ e, (name, e) ∈ fields ∧ e.toToml = v := by
  induction fields with
  | nil => simp [fieldValues] at h
  | cons f fields ih =>
    obtain ⟨other, e⟩ := f
    rw [fieldValues] at h
    rcases List.mem_cons.mp h with hHere | hRest
    · obtain ⟨rfl, rfl⟩ := Prod.mk.inj hHere
      exact ⟨e, List.mem_cons_self, rfl⟩
    · obtain ⟨e, hMem, hValue⟩ := ih hRest
      exact ⟨e, List.mem_cons_of_mem _ hMem, hValue⟩

/-- The integers among the fields of a document have 64 bits. -/
theorem isInteger_of_parse? {text : String} {doc : List (String × Toml)} {m : Int}
    (h : parse? text = some doc) (hMem : (name, .integer m) ∈ doc) : isInteger m = true := by
  simp only [parse?, Option.bind_eq_bind, Option.bind_eq_some_iff] at h
  obtain ⟨d, hLines, fields, hClose, hDoc⟩ := h
  cases hDoc
  have hDraft : d.Bounded := Draft.Bounded.readLines ⟨Bounded.nil, fun _ => Bounded.nil⟩ hLines
  obtain ⟨e, hEntry, hValue⟩ := mem_fieldValues hMem
  cases e with
  | value v =>
    obtain rfl : v = .integer m := hValue
    exact hDraft.close hClose name m hEntry
  | table origin sub => cases hValue
  | tables items => cases hValue

end ScriptWarden.Toml
