import ScriptWarden.Json.Writer

/-!
# Quoted TOML texts

A text is written between double quotes with escapes, or between single quotes as it is. Either
kind may be tripled, and then holds line breaks; one that follows the opening is not part of the
text.
-/

namespace ScriptWarden.Toml

/-- Whether a character may stand in a text as it is. -/
def isTextChar (c : Char) : Bool := c == '\t' || (' ' ≤ c && c.toNat != 0x7F)

-- ---------------------------------------------------------------------------
-- Writing
-- ---------------------------------------------------------------------------

/-- Four hexadecimal digits of a number. -/
def fourDigits (n : Nat) : List Char :=
  [12, 8, 4, 0].map fun shift => (Json.hexDigit (n / twoTo shift)).toUpper

/-- A character between double quotes. Line breaks stand as they are in a text of several lines. -/
def escapeChar (lines : Bool) (c : Char) : List Char :=
  if c == '\n' then if lines then ['\n'] else ['\\', 'n']
  else if c == '"' then ['\\', '"']
  else if c == '\\' then ['\\', '\\']
  else if c == '\t' then ['\\', 't']
  else if c == '\r' then ['\\', 'r']
  else if c.toNat == 8 then ['\\', 'b']
  else if c.toNat == 12 then ['\\', 'f']
  else if isTextChar c then [c]
  else '\\' :: 'u' :: fourDigits c.toNat

/-- Whether three single quotes follow one another. -/
def hasTripleQuote : List Char → Bool
  | [] => false
  | c :: rest => (c == '\'' && ['\'', '\''].isPrefixOf rest) || hasTripleQuote rest

/-- Whether a text is better written as it is: it has a character that would be escaped, and
nothing in it stands in the way. -/
def prefersLiteral (cs : List Char) : Bool :=
  cs.any (fun c => c == '"' || c == '\\') && cs.all (fun c => c == '\n' || isTextChar c) &&
    !hasTripleQuote cs && cs.getLast? != some '\''

/-- A text in quotes. -/
def quotedChars (cs : List Char) : List Char :=
  let lines := cs.contains '\n'
  if prefersLiteral cs then
    if lines then ['\'', '\'', '\'', '\n'] ++ cs ++ ['\'', '\'', '\'']
    else if cs.contains '\'' then ['\'', '\'', '\''] ++ cs ++ ['\'', '\'', '\'']
    else ['\''] ++ cs ++ ['\'']
  else
    let body := (cs.map (escapeChar lines)).flatten
    if lines then ['"', '"', '"', '\n'] ++ body ++ ['"', '"', '"']
    else ['"'] ++ body ++ ['"']

-- ---------------------------------------------------------------------------
-- Reading
-- ---------------------------------------------------------------------------

/-- The value of a hexadecimal digit. -/
def hexValue? (c : Char) : Option Nat :=
  if '0' ≤ c && c ≤ '9' then some (c.toNat - '0'.toNat)
  else if 'a' ≤ c && c ≤ 'f' then some (c.toNat - 'a'.toNat + 10)
  else if 'A' ≤ c && c ≤ 'F' then some (c.toNat - 'A'.toNat + 10)
  else none

/-- The character that so many hexadecimal digits name. -/
def readCode? (count : Nat) (cs : List Char) : Option (Char × List Char) := do
  let digits ← (cs.take count).mapM hexValue?
  let n := digits.foldl (fun n d => n * 16 + d) 0
  if digits.length == count && n.isValidChar then some (Char.ofNat n, cs.drop count) else none

/-- The character that an escape stands for, read from behind its backslash. -/
def readEscape? : List Char → Option (Char × List Char)
  | [] => none
  | c :: rest =>
    if c == 'n' then some ('\n', rest)
    else if c == '"' then some ('"', rest)
    else if c == '\\' then some ('\\', rest)
    else if c == 't' then some ('\t', rest)
    else if c == 'r' then some ('\r', rest)
    else if c == 'b' then some ('\x08', rest)
    else if c == 'f' then some ('\x0c', rest)
    else if c == 'u' then readCode? 4 rest
    else if c == 'U' then readCode? 8 rest
    else none

/-- Whether a character separates words on a line. -/
def isSpace (c : Char) : Bool := c == ' ' || c == '\t'

/-- What follows a line break. -/
def readNewline? : List Char → Option (List Char)
  | '\n' :: rest => some rest
  | '\r' :: '\n' :: rest => some rest
  | _ => none

/-- A text between double quotes, read from behind the opening one. -/
def readBasicLine : Nat → List Char → Option (List Char × List Char)
  | 0, _ => none
  | _, [] => none
  | n + 1, c :: rest =>
    if c == '"' then some ([], rest)
    else if c == '\\' then do
      let (x, rest) ← readEscape? rest
      let (xs, rest) ← readBasicLine n rest
      some (x :: xs, rest)
    else if isTextChar c then do
      let (xs, rest) ← readBasicLine n rest
      some (c :: xs, rest)
    else none

/-- What follows blanks and line breaks. -/
def skipBlankLines : Nat → List Char → List Char
  | 0, cs => cs
  | n + 1, cs =>
    match readNewline? (cs.dropWhile isSpace) with
    | some rest => skipBlankLines n rest
    | none => cs.dropWhile isSpace

/-- How many quotes close a tripled text, given how many follow one another: up to two before the
closing ones belong to the text. -/
def closingRun (quotes : Nat) : Nat := min quotes 5

/-- A text of several lines between double quotes, read from behind the opening. -/
def readBasicLines : Nat → List Char → Option (List Char × List Char)
  | 0, _ => none
  | _, [] => none
  | n + 1, c :: rest =>
    if c == '"' then
      let run := ((c :: rest).takeWhile (· == '"')).length
      if 3 ≤ run then
        some (List.replicate (closingRun run - 3) '"', (c :: rest).drop (closingRun run))
      else do
        let (xs, rest) ← readBasicLines n ((c :: rest).drop run)
        some (List.replicate run '"' ++ xs, rest)
    else if c == '\\' then
      match readNewline? (rest.dropWhile isSpace) with
      | some rest => readBasicLines n (skipBlankLines rest.length rest)
      | none => do
        let (x, rest) ← readEscape? rest
        let (xs, rest) ← readBasicLines n rest
        some (x :: xs, rest)
    else
      match readNewline? (c :: rest) with
      | some rest => do
        let (xs, rest) ← readBasicLines n rest
        some ('\n' :: xs, rest)
      | none =>
        if isTextChar c then do
          let (xs, rest) ← readBasicLines n rest
          some (c :: xs, rest)
        else none

/-- A text between single quotes, read from behind the opening one. -/
def readLiteralLine (cs : List Char) : Option (List Char × List Char) :=
  let text := cs.takeWhile fun c => c != '\'' && isTextChar c
  match cs.drop text.length with
  | '\'' :: rest => some (text, rest)
  | _ => none

/-- A text of several lines between single quotes, read from behind the opening. -/
def readLiteralLines : Nat → List Char → Option (List Char × List Char)
  | 0, _ => none
  | _, [] => none
  | n + 1, c :: rest =>
    if c == '\'' then
      let run := ((c :: rest).takeWhile (· == '\'')).length
      if 3 ≤ run then
        some (List.replicate (closingRun run - 3) '\'', (c :: rest).drop (closingRun run))
      else do
        let (xs, rest) ← readLiteralLines n ((c :: rest).drop run)
        some (List.replicate run '\'' ++ xs, rest)
    else
      match readNewline? (c :: rest) with
      | some rest => do
        let (xs, rest) ← readLiteralLines n rest
        some ('\n' :: xs, rest)
      | none =>
        if isTextChar c then do
          let (xs, rest) ← readLiteralLines n rest
          some (c :: xs, rest)
        else none

/-- What follows a line break, or all where there is none. -/
def dropNewline (cs : List Char) : List Char := (readNewline? cs).getD cs

/-- Whether three of a character come next. -/
def isTripled (c : Char) (cs : List Char) : Bool := [c, c, c].isPrefixOf cs

/-- Read a text of one line in quotes. -/
def readLineText? : List Char → Option (List Char × List Char)
  | [] => none
  | c :: rest =>
    if c == '"' then readBasicLine (rest.length + 1) rest
    else if c == '\'' then readLiteralLine rest
    else none

/-- Read a text in quotes. -/
def readText? (cs : List Char) : Option (List Char × List Char) :=
  if isTripled '"' cs then
    let rest := dropNewline (cs.drop 3)
    readBasicLines (rest.length + 1) rest
  else if isTripled '\'' cs then
    let rest := dropNewline (cs.drop 3)
    readLiteralLines (rest.length + 1) rest
  else readLineText? cs

end ScriptWarden.Toml
