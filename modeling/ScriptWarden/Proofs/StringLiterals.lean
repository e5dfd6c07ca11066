import ScriptWarden.Proofs.FunctionBlocking
import ScriptWarden.Proofs.RelativeConfinement

/-!
# Literals and the paths that they open

The check of a file operation looks at the text between the quotes of a literal. Python opens the
value of the literal, which is that text only where the literal is read as it is written: its
letters announce a text or bytes, no carriage return is in it, bytes are ASCII, and every backslash
stays one, because the literal is raw or because what follows means nothing.

For such literals the path that is checked is the path that is opened, and what a script that passes
opens by them lies in the allowed directories. The checks do not look through escapes that mean
something, so that they do not see a slash or a dot that is written as one.

## Results

* `length_unescape_le`, `unescape_eq_codes_iff` — what escapes come to is shorter than they are.
* `value?_eq_codes_iff` — which literals Python reads as they are written.
* `literal_names_opened_path` — what is checked is what is opened, and it lies inside.
* `escaped_slash_passes` — for other literals neither holds.
-/

namespace ScriptWarden

-- ---------------------------------------------------------------------------
-- What Python reads
-- ---------------------------------------------------------------------------

/-- A string literal as it stands in a source. -/
structure StringLiteral where
  /-- The letters before the first quote. -/
  letters : String
  quote : String
  /-- What stands between the quotes. -/
  body : String
deriving DecidableEq, Repr

/-- What the letters of a literal announce. -/
structure LiteralForm where
  raw : Bool := false
  bytes : Bool := false
deriving DecidableEq, Repr

/-- The form of the literals with some letters before the quote. Letters that announce parts to be
filled in announce neither text nor bytes, and others are not allowed. -/
def LiteralForm.ofLetters? (letters : String) : Option LiteralForm :=
  match letters.toList.map Char.toLower with
  | [] | ['u'] => some {}
  | ['r'] => some { raw := true }
  | ['b'] => some { bytes := true }
  | ['b', 'r'] | ['r', 'b'] => some { raw := true, bytes := true }
  | _ => none

/-- Characters as Python reads them from a file: every line ends with a line feed alone. -/
def normalizeLines : List Char → List Char
  | [] => []
  | '\r' :: '\n' :: rest => '\n' :: normalizeLines rest
  | '\r' :: rest => '\n' :: normalizeLines rest
  | c :: rest => c :: normalizeLines rest

/-- What a backslash means, together with what follows it. -/
inductive Escape where
  /-- The backslash stays. -/
  | plain
  /-- With the next character, and so many further ones, it stands for one code or for nothing. -/
  | stands (code : Option Nat) (further : Nat)
  /-- It is an error. -/
  | refused
deriving DecidableEq, Repr

/-- The escapes of one character. -/
def shortEscapes : List (Char × Option Nat) :=
  [('\n', none), ('\\', some 92), ('\'', some 39), ('"', some 34), ('a', some 7), ('b', some 8),
   ('f', some 12), ('n', some 10), ('r', some 13), ('t', some 9), ('v', some 11)]

/-- The value of a hexadecimal digit. -/
def digitValue? (c : Char) : Option Nat := "0123456789abcdef".toList.idxOf? c.toLower

/-- The number that digits write. -/
def numeral (base : Nat) (digits : List Char) : Nat :=
  digits.foldl (fun n c => base * n + (digitValue? c).getD 0) 0

/-- The escape of up to three octal digits, the first of which is there. Bytes keep the lower eight
bits of the number. -/
def octalEscape (bytes : Bool) (first : Char) (rest : List Char) : Escape :=
  let others := (rest.take 2).takeWhile fun c => '0' ≤ c && c ≤ '7'
  let code := numeral 8 (first :: others)
  .stands (some (if bytes then code % 256 else code)) others.length

/-- The escape of so many hexadecimal digits. -/
def hexEscape (count : Nat) (rest : List Char) : Escape :=
  let digits := rest.take count
  if digits.length = count ∧ digits.all (digitValue? · |>.isSome) ∧
      numeral 16 digits < 0x110000 then
    .stands (some (numeral 16 digits)) count
  else .refused

/-- The escape of a character by its name, for a table of names. -/
def nameEscape (names : String → Option Nat) : List Char → Escape
  | '{' :: rest =>
    let name := rest.takeWhile (· != '}')
    match names (String.ofList name) with
    | some code =>
      if name.length < rest.length then .stands (some code) (name.length + 2) else .refused
    | none => .refused
  | _ => .refused

/-- What a backslash means before some characters. Bytes know no characters by name or by a long
number. -/
def escape (names : String → Option Nat) (bytes : Bool) : List Char → Escape
  | [] => .plain
  | c :: rest =>
    match shortEscapes.lookup c with
    | some code => .stands code 0
    | none =>
      if '0' ≤ c && c ≤ '7' then octalEscape bytes c rest
      else if c == 'x' then hexEscape 2 rest
      else if bytes then .plain
      else if c == 'u' then hexEscape 4 rest
      else if c == 'U' then hexEscape 8 rest
      else if c == 'N' then nameEscape names rest
      else .plain

/-- The codes that characters come to when escapes are looked through. Some characters at the front
belong to an escape before. -/
def unescape (names : String → Option Nat) (bytes : Bool) : Nat → List Char → Option (List Nat)
  | _, [] => some []
  | skipped + 1, _ :: rest => unescape names bytes skipped rest
  | 0, c :: rest =>
    if c = '\\' then
      match escape names bytes rest with
      | .plain => (unescape names bytes 0 rest).map (c.toNat :: ·)
      | .stands code further => (unescape names bytes (further + 1) rest).map (code.toList ++ ·)
      | .refused => none
    else (unescape names bytes 0 rest).map (c.toNat :: ·)

/-- The codes of characters as they are. -/
def codesOf (cs : List Char) : List Nat := cs.map Char.toNat

/-- The value that Python gives a literal: the codes of its characters, or of its bytes. There is
none when the literal is an error, or announces neither text nor bytes. -/
def StringLiteral.value? (names : String → Option Nat) (l : StringLiteral) : Option (List Nat) := do
  let form ← LiteralForm.ofLetters? l.letters
  let body := normalizeLines l.body.toList
  if form.bytes && body.any (128 ≤ ·.toNat) then none
  else if form.raw then some (codesOf body)
  else unescape names form.bytes 0 body

/-- No backslash among characters means anything. -/
def EscapesNothing (names : String → Option Nat) (bytes : Bool) (cs : List Char) : Prop :=
  ∀ rest, '\\' :: rest <:+ cs → escape names bytes rest = .plain

/-- Python reads a literal, of some form, as it is written. -/
structure StringLiteral.AsWritten (names : String → Option Nat) (l : StringLiteral)
    (form : LiteralForm) : Prop where
  letters : LiteralForm.ofLetters? l.letters = some form
  lines : '\r' ∉ l.body.toList
  ascii : form.bytes = true → ∀ c ∈ l.body.toList, c.toNat < 128
  escapes : form.raw = false → EscapesNothing names form.bytes l.body.toList

-- ---------------------------------------------------------------------------
-- What reading changes
-- ---------------------------------------------------------------------------

variable {names : String → Option Nat} {bytes : Bool}

theorem codesOf_injective : Function.Injective codesOf :=
  List.map_injective_iff.mpr fun _ _ => Char.toNat_inj.mp

theorem normalizeLines_of_not_mem {cs : List Char} (h : '\r' ∉ cs) : normalizeLines cs = cs := by
  fun_induction normalizeLines cs with
  | case1 => rfl
  | case2 rest ih => simp at h
  | case3 rest hNext ih => simp at h
  | case4 c rest hPair hReturn ih => rw [ih fun hMem => h (List.mem_cons_of_mem c hMem)]

theorem not_mem_normalizeLines (cs : List Char) : '\r' ∉ normalizeLines cs := by
  fun_induction normalizeLines cs with
  | case1 => simp
  | case2 rest ih => simpa using ih
  | case3 rest hNext ih => simpa using ih
  | case4 c rest hPair hReturn ih => simpa using ⟨fun h => hReturn h.symm, ih⟩

theorem length_normalizeLines_le (cs : List Char) : (normalizeLines cs).length ≤ cs.length := by
  fun_induction normalizeLines cs with
  | case1 => rfl
  | case2 rest ih => exact Nat.le_succ_of_le (Nat.succ_le_succ ih)
  | case3 rest hNext ih => exact Nat.succ_le_succ ih
  | case4 c rest hPair hReturn ih => exact Nat.succ_le_succ ih

theorem escapesNothing_cons_iff {c : Char} {rest : List Char} :
    EscapesNothing names bytes (c :: rest) ↔
      (c = '\\' → escape names bytes rest = .plain) ∧ EscapesNothing names bytes rest := by
  constructor
  · intro h
    refine ⟨?_, fun back hBack => h back (hBack.trans (List.suffix_cons c rest))⟩
    rintro rfl
    exact h rest List.suffix_rfl
  · rintro ⟨hHere, hRest⟩ back hBack
    rcases List.suffix_cons_iff.mp hBack with hWhole | hLater
    · obtain ⟨rfl, rfl⟩ := List.cons.inj hWhole
      exact hHere rfl
    · exact hRest back hLater

/-- What characters come to is no longer than they are. -/
theorem length_unescape_le {cs : List Char} {skipped : Nat} {codes : List Nat}
    (h : unescape names bytes skipped cs = some codes) : codes.length ≤ cs.length - skipped := by
  induction cs generalizing skipped codes with
  | nil =>
    rw [unescape] at h
    simp [← Option.some.inj h]
  | cons c rest ih =>
    cases skipped with
    | succ skipped =>
      rw [unescape] at h
      simpa using ih h
    | zero =>
      rw [unescape] at h
      split at h
      · split at h
        · obtain ⟨later, hLater, rfl⟩ := Option.map_eq_some_iff.mp h
          simpa using ih hLater
        · next code further _ =>
          obtain ⟨later, hLater, rfl⟩ := Option.map_eq_some_iff.mp h
          have hRest := ih hLater
          have hCode : code.toList.length ≤ 1 := by cases code <;> simp
          simp only [List.length_append, List.length_cons]
          omega
        · cases h
      · obtain ⟨later, hLater, rfl⟩ := Option.map_eq_some_iff.mp h
        simpa using ih hLater

theorem unescape_of_escapesNothing {cs : List Char} (h : EscapesNothing names bytes cs) :
    unescape names bytes 0 cs = some (codesOf cs) := by
  induction cs with
  | nil => rfl
  | cons c rest ih =>
    obtain ⟨hHere, hRest⟩ := escapesNothing_cons_iff.mp h
    rw [unescape, ih hRest]
    split
    · next hBackslash => rw [hHere hBackslash]; rfl
    · rfl

/-- An escape that means something leaves fewer codes than there were characters. -/
theorem escapesNothing_of_length_le {cs : List Char} {codes : List Nat}
    (h : unescape names bytes 0 cs = some codes) (hLong : cs.length ≤ codes.length) :
    EscapesNothing names bytes cs := by
  induction cs generalizing codes with
  | nil =>
    intro rest hRest
    simp at hRest
  | cons c rest ih =>
    rw [unescape] at h
    rw [escapesNothing_cons_iff]
    split at h
    · split at h
      · next hPlain =>
        obtain ⟨later, hLater, rfl⟩ := Option.map_eq_some_iff.mp h
        exact ⟨fun _ => hPlain, ih hLater (by simpa using hLong)⟩
      · next code further hStands =>
        obtain ⟨later, hLater, rfl⟩ := Option.map_eq_some_iff.mp h
        have hShort := length_unescape_le hLater
        have hCode : code.toList.length ≤ 1 := by cases code <;> simp
        -- the backslash has a character after it, which stands for nothing by itself
        cases rest with
        | nil => cases hStands
        | cons d rest =>
          simp only [List.length_append, List.length_cons] at hLong hShort
          omega
      · cases h
    · next hOther =>
      obtain ⟨later, hLater, rfl⟩ := Option.map_eq_some_iff.mp h
      exact ⟨fun hBackslash => absurd hBackslash hOther, ih hLater (by simpa using hLong)⟩

/-- **Which literals are read as they are written.** The value of a literal is the text between its
quotes exactly when its letters announce text or bytes, no carriage return is in it, bytes are
ASCII, and no backslash means anything. -/
theorem value?_eq_codes_iff {l : StringLiteral} :
    l.value? names = some (codesOf l.body.toList) ↔ ∃ form, l.AsWritten names form := by
  constructor
  · intro h
    obtain ⟨form, hLetters, h⟩ := Option.bind_eq_some_iff.mp h
    simp only at h
    split at h
    · cases h
    next hAscii =>
    have hBytes : form.bytes = true → ∀ c ∈ normalizeLines l.body.toList, c.toNat < 128 := by
      intro hForm
      simpa [hForm] using hAscii
    have hSame : normalizeLines l.body.toList = l.body.toList ∧
        (form.raw = false → EscapesNothing names form.bytes (normalizeLines l.body.toList)) := by
      split at h
      · next hRaw => exact ⟨codesOf_injective (Option.some.inj h), by simp [hRaw]⟩
      · have hLong : (normalizeLines l.body.toList).length ≤ (codesOf l.body.toList).length := by
          simpa [codesOf] using length_normalizeLines_le l.body.toList
        have hNothing := escapesNothing_of_length_le h hLong
        rw [unescape_of_escapesNothing hNothing] at h
        exact ⟨codesOf_injective (Option.some.inj h), fun _ => hNothing⟩
    obtain ⟨hLines, hNothing⟩ := hSame
    have hReturn := not_mem_normalizeLines l.body.toList
    rw [hLines] at hBytes hNothing hReturn
    exact ⟨form, hLetters, hReturn, hBytes, hNothing⟩
  · rintro ⟨form, hLetters, hReturn, hAscii, hNothing⟩
    have hBytes : (form.bytes && l.body.toList.any (128 ≤ ·.toNat)) = false := by
      cases hForm : form.bytes with
      | false => rfl
      | true => simpa using hAscii hForm
    rw [StringLiteral.value?, hLetters, Option.bind_eq_bind, Option.bind_some,
      normalizeLines_of_not_mem hReturn]
    simp only [hBytes, Bool.false_eq_true, if_false]
    cases hRaw : form.raw with
    | true => rfl
    | false =>
      rw [if_neg Bool.false_ne_true]
      exact unescape_of_escapesNothing (hNothing hRaw)

-- ---------------------------------------------------------------------------
-- Literals in trees
-- ---------------------------------------------------------------------------

/-- A node is that of a literal with no part to be filled in: its start, what stands between the
quotes, and its end, with nothing between them. -/
structure Tree.Spells (t : Tree) (l : StringLiteral) : Prop where
  kind : t.kind = "string"
  text : t.text = l.letters ++ l.quote ++ l.body ++ l.quote
  parts : ∃ start contents close, t.children = start :: (contents ++ [close]) ∧
    (start.kind = "string_start" ∧ start.text = l.letters ++ l.quote) ∧
    (∀ c ∈ contents, c.kind = "string_content") ∧
    String.join (contents.map Tree.text) = l.body ∧
    close.kind = "string_end" ∧ close.text = l.quote
  quote : l.quote ∈ ["'", "\"", "'''", "\"\"\""]
  letters : ∀ c ∈ l.letters.toList, c ≠ 'f' ∧ c ≠ 'F'

/-- What the checks take for the value of a literal is what stands between its quotes. -/
theorem stringLiteral?_of_spells {t : Tree} {l : StringLiteral} (h : t.Spells l) :
    t.stringLiteral? = some l.body := by
  obtain ⟨start, contents, close, hChildren, ⟨hStart, hOpening⟩, hContents, hBody, hClose, -⟩ :=
    h.parts
  have hLetters : ∀ c ∈ l.letters.toList ++ l.quote.toList, ¬(c = 'f' ∨ c = 'F') := by
    intro c hMem
    rcases List.mem_append.mp hMem with hLetter | hQuote
    · simpa using h.letters c hLetter
    · have hQuotes : ∀ quote ∈ ["'", "\"", "'''", "\"\"\""], ∀ c ∈ quote.toList,
          ¬(c = 'f' ∨ c = 'F') := by simp
      exact hQuotes _ h.quote c hQuote
  have hKept : (start :: (contents ++ [close])).filter (·.kind == "string_content") = contents := by
    have hAll : contents.filter (·.kind == "string_content") = contents :=
      List.filter_eq_self.mpr fun c hMem => by simp [hContents c hMem]
    simp [List.filter_append, hAll, hStart, hClose]
  have hPlain : (start :: (contents ++ [close])).any (fun c => c.kind == "interpolation" ||
      (c.kind == "string_start" && c.text.toList.any fun ch => ch == 'f' || ch == 'F')) =
        false := by
    rw [List.any_eq_false]
    intro c hMem
    rcases List.mem_cons.mp hMem with rfl | hMem
    · rw [hStart, hOpening, String.toList_append]
      simpa [-List.any_append, -List.mem_append] using hLetters
    · rcases List.mem_append.mp hMem with hContent | hLast
      · simp [hContents c hContent]
      · simp [List.mem_singleton.mp hLast, hClose]
  rw [Tree.stringLiteral?]
  simp only [h.kind, hChildren, hPlain, hKept, hBody, beq_self_eq_true, Bool.not_false,
    Bool.and_self, if_true]

-- ---------------------------------------------------------------------------
-- File operations
-- ---------------------------------------------------------------------------

/-- The nodes that a call gives to a file operation as paths: the file to be opened, what a
destructive function is called with, and the path of an object that is told to write. -/
inductive Tree.GivesPath (call : Tree) : Tree → Prop
  | opened {function path : Tree} : call.child? "function" = some function →
      isNameKind function.kind = true → function.text = "open" →
      (call.arguments.positional.head? <|> call.arguments.keyword? "file") = some path →
      GivesPath call path
  | changed {function path : Tree} {chain : String} : call.child? "function" = some function →
      function.kind = "attribute" → function.dotted? = some chain →
      chain ∈ destructiveFunctions → path ∈ call.arguments.positional → GivesPath call path
  | written {function method receiver path : Tree} {className : String} :
      call.child? "function" = some function → function.kind = "attribute" →
      function.child? "attribute" = some method → method.text ∈ pathWriteMethods →
      function.child? "object" = some receiver → receiver.kind = "call" →
      (receiver.child? "function").bind Tree.dotted? = some className →
      isPathClass className = true → receiver.arguments.positional.head? = some path →
      GivesPath call path

variable {r : Rules}

theorem checkPath_of_not_allowed {text : String} (h : r.allowsPath text = false)
    (operation : String) : r.checkPath operation text = [.disallowedPath operation text] := by
  rw [Rules.checkPath, if_neg (by simp [h])]

/-- A literal path that is not allowed is a violation, whatever the file operation. -/
theorem disallowedPath_mem {call path : Tree} (hPath : call.GivesPath path) {text : String}
    (hLiteral : path.stringLiteral? = some text) (hRefused : r.allowsPath text = false) :
    ∃ operation, .disallowedPath operation text ∈ r.checkCall call := by
  cases hPath with
  | @opened function _ hFunction hName hOpen hFirst =>
    refine ⟨"open", ?_⟩
    have hCheck : r.checkOpen call = [.disallowedPath "open" text] := by
      simp only [Rules.checkOpen, hFirst, hLiteral, checkPath_of_not_allowed hRefused]
    rw [Rules.checkCall, hFunction]
    simp [hName, hOpen, hCheck]
  | @changed function _ chain hFunction hKind hChain hDestructive hMem =>
    refine ⟨chain, ?_⟩
    have hCheck : .disallowedPath chain text ∈ r.checkDestructive call chain := by
      refine List.mem_flatMap.mpr ⟨path, hMem, ?_⟩
      simp only [hLiteral, checkPath_of_not_allowed hRefused, List.mem_singleton]
    have hNotName : isNameKind "attribute" = false := by decide +kernel
    rw [Rules.checkCall, hFunction]
    simp [hKind, hNotName, hChain, hDestructive, hCheck]
  | @written function method receiver _ className hFunction hKind hMethod hWrites hObject hCall
      hClass hPathClass hFirst =>
    refine ⟨method.text, ?_⟩
    have hCheck : r.checkPathWrite function = [.disallowedPath method.text text] := by
      rw [Rules.checkPathWrite, hMethod, hObject]
      simp [hWrites, hCall, hClass, hPathClass, hFirst, hLiteral, checkPath_of_not_allowed hRefused]
    have hNotName : isNameKind "attribute" = false := by decide +kernel
    rw [Rules.checkCall, hFunction]
    simp [hKind, hNotName, hCheck]

/-- What a script that is not refused gives to file operations is allowed. -/
theorem allowsPath_of_not_rejects {t : Tree} {p : Place} {path : Tree} {text : String}
    (hAccepted : ¬ r.Rejects t) (hOccurs : t.Occurs p) (hCall : p.node.kind = "call")
    (hPath : p.node.GivesPath path) (hLiteral : path.stringLiteral? = some text) :
    r.allowsPath text = true := by
  by_contra hRefused
  rw [Bool.not_eq_true] at hRefused
  obtain ⟨operation, hViolation⟩ := disallowedPath_mem hPath hLiteral hRefused
  have hNothing : r.checkCall p.node = [] := by
    simpa [Rules.check, hCall] using violations_of_not_rejects hAccepted hOccurs
  rw [hNothing] at hViolation
  cases hViolation

/--
**A literal that is read as it is written is checked as it is opened.** The text that the checks
take for a literal is the value that Python gives it exactly when Python reads it as it is written.
Then, wherever the service works, a path that a script gives to a file operation lies in one of the
allowed directories, if the script is not refused and the path is level with the roots that it is
taken to lie in, as it is for every scripts directory at the root.
-/
theorem literal_names_opened_path {t : Tree} {p : Place} {path : Tree} {l : StringLiteral}
    (hOccurs : t.Occurs p) (hCall : p.node.kind = "call") (hPath : p.node.GivesPath path)
    (hSpells : path.Spells l) (names : String → Option Nat) :
    ∃ text, path.stringLiteral? = some text ∧
      (l.value? names = some (codesOf text.toList) ↔ ∃ form, l.AsWritten names form) ∧
      (¬ r.Rejects t → ∀ form, l.AsWritten names form →
        ∃ opened, l.value? names = some (codesOf opened.toList) ∧
          ((isAbsolutePath r.scriptsDir = true ∨ ∀ root ∈ r.roots,
              Overlays root (joinPath r.scriptsDir opened) →
                LevelWith root (joinPath r.scriptsDir opened)) →
            ∀ place, r.Confines place opened)) := by
  have hLiteral := stringLiteral?_of_spells hSpells
  refine ⟨l.body, hLiteral, value?_eq_codes_iff, fun hAccepted form hAsWritten => ?_⟩
  refine ⟨l.body, value?_eq_codes_iff.mpr ⟨form, hAsWritten⟩, fun hLevel place => ?_⟩
  have hAllowed := allowsPath_of_not_rejects hAccepted hOccurs hCall hPath hLiteral
  obtain ⟨root, hRoot, hOverlays⟩ := allowsPath_iff_overlays.mp hAllowed
  have hSame : LevelWith root (joinPath r.scriptsDir l.body) := by
    rcases hLevel with hAbsolute | hLevel
    · have hBeginsAtRoot := isAbsolutePath_joinPath hAbsolute l.body
      refine ⟨(isAbsolutePath_of_mem_roots hAbsolute hRoot).trans hBeginsAtRoot.symm, ?_⟩
      simp [hBeginsAtRoot]
    · exact hLevel root hRoot hOverlays
  exact confines_iff.mpr ⟨root, hRoot, (hOverlays.encloses hSame).below place⟩

/-- The node of a literal whose text is in one piece. -/
def StringLiteral.node (l : StringLiteral) : Tree :=
  .node { kind := "string", text := l.letters ++ l.quote ++ l.body ++ l.quote }
    [.node { kind := "string_start", text := l.letters ++ l.quote } [],
      .node { kind := "string_content", text := l.body } [],
      .node { kind := "string_end", text := l.quote } []]

theorem StringLiteral.node_spells {l : StringLiteral}
    (hQuote : l.quote ∈ ["'", "\"", "'''", "\"\"\""])
    (hLetters : ∀ c ∈ l.letters.toList, c ≠ 'f' ∧ c ≠ 'F') : l.node.Spells l := by
  have hContent : ∀ c ∈ [Tree.node { kind := "string_content", text := l.body } []],
      c.kind = "string_content" := List.forall_mem_singleton.mpr rfl
  exact ⟨rfl, rfl, ⟨_, [_], _, rfl, ⟨rfl, rfl⟩, hContent, String.empty_append, rfl, rfl⟩, hQuote,
    hLetters⟩

/-- A call of `open` with a literal. -/
def StringLiteral.openCall (l : StringLiteral) : Tree :=
  .node { kind := "call", text := "open(" ++ l.node.text ++ ")" }
    [.word "open" (some "function"),
      .node
        { kind := "argument_list", field := some "arguments", text := "(" ++ l.node.text ++ ")" }
        [.mark "(", l.node, .mark ")"]]

/-- The call as a statement. -/
def StringLiteral.openStatement (l : StringLiteral) : Tree :=
  .node { kind := "expression_statement", text := l.openCall.text } [l.openCall]

/-- A script that opens what a literal names. -/
def StringLiteral.openScript (l : StringLiteral) : Tree := .script l.openStatement

/-- The call, at its place. -/
def StringLiteral.openPlace (l : StringLiteral) : Place :=
  ⟨l.openCall, some (l.openStatement, 0)⟩

theorem StringLiteral.occurs_openPlace (l : StringLiteral) : l.openScript.Occurs l.openPlace :=
  .child (occurs_onlyStatement l.openStatement rfl) rfl rfl

theorem StringLiteral.openCall_givesPath (l : StringLiteral) : l.openCall.GivesPath l.node :=
  .opened rfl rfl rfl rfl

/-- The rules for the default directory. -/
def homeRules : Rules := { policy := Policy.standard, scriptsDir := "/home/pi/pythoncode" }

/-- `open(rb'logs\x2f..\old')` opens the file of that name, backslashes and all. -/
theorem raw_path_opened :
    let l : StringLiteral := ⟨"rb", "'", "logs\\x2f..\\old"⟩
    l.node.stringLiteral? = some "logs\\x2f..\\old" ∧
      l.value? (fun _ => none) = some (codesOf "logs\\x2f..\\old".toList) ∧
      homeRules.Confines [] "logs\\x2f..\\old" := by
  intro l
  have hSpells : l.node.Spells l := StringLiteral.node_spells (by decide) (by simp [l])
  have hAccepted : ¬ homeRules.Rejects l.openScript := fun hRejects =>
    hRejects.problems (by decide +kernel)
  have hAsWritten : l.AsWritten (fun _ => none) { raw := true, bytes := true } :=
    ⟨by decide +kernel, by decide +kernel, by simp [l], by simp⟩
  obtain ⟨text, hText, hValue, hOpened⟩ := literal_names_opened_path (r := homeRules)
    l.occurs_openPlace rfl l.openCall_givesPath hSpells fun _ => none
  obtain ⟨opened, hSame, hInside⟩ := hOpened hAccepted _ hAsWritten
  obtain rfl : l.body = text :=
    Option.some.inj ((stringLiteral?_of_spells hSpells).symm.trans hText)
  have hPath := hValue.mpr ⟨_, hAsWritten⟩
  obtain rfl : opened = l.body :=
    String.toList_inj.mp (codesOf_injective (Option.some.inj (hSame.symm.trans hPath)))
  exact ⟨hText, hPath, hInside (Or.inl (by decide +kernel)) []⟩

/-- **An escaped slash passes.** The checks take `'\x2fetc/passwd'` for a path below the scripts
directory and find nothing, and Python opens `/etc/passwd`. -/
theorem escaped_slash_passes :
    let l : StringLiteral := ⟨"", "'", "\\x2fetc/passwd"⟩
    l.openScript.Occurs l.openPlace ∧ l.openPlace.node.GivesPath l.node ∧ l.node.Spells l ∧
      (homeRules.analyzeTree l.openScript).problems = [] ∧
      l.node.stringLiteral? = some "\\x2fetc/passwd" ∧
      l.value? (fun _ => none) = some (codesOf "/etc/passwd".toList) ∧
      ¬ homeRules.Confines [] "/etc/passwd" := by
  intro l
  exact ⟨l.occurs_openPlace, l.openCall_givesPath,
    StringLiteral.node_spells (by decide) (by simp [l]), by decide +kernel, by decide +kernel,
    by decide +kernel, by decide +kernel⟩

end ScriptWarden
