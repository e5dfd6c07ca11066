import ScriptWarden.Toml.Draft
import ScriptWarden.Toml.Quoted
import ScriptWarden.Toml.Scalar

/-!
# Reading TOML

A document is a list of lines: keys with values, and the heads of tables. Reading goes from a list
of characters to what it begins with and the characters after that; loops are bounded by the
characters that are left, and values by how deeply they may be nested.
-/

namespace ScriptWarden.Toml

/-- What follows spaces. -/
def skipSpaces (cs : List Char) : List Char := cs.dropWhile isSpace

/-- What follows a comment, if there is one. -/
def skipComment : List Char → List Char
  | '#' :: rest => rest.dropWhile isTextChar
  | cs => cs

/-- What follows the end of a line: spaces, a comment, and a line break or the end of the text. -/
def readEndOfLine? (cs : List Char) : Option (List Char) :=
  match skipComment (skipSpaces cs) with
  | [] => some []
  | rest => readNewline? rest

/-- What follows blank lines and comments. -/
def skipFiller : Nat → List Char → List Char
  | 0, cs => cs
  | n + 1, cs =>
    let rest := skipComment (skipSpaces cs)
    match readNewline? rest with
    | some rest => skipFiller n rest
    | none => rest

-- ---------------------------------------------------------------------------
-- Keys
-- ---------------------------------------------------------------------------

/-- Whether a character may stand in a key without quotes. -/
def isKeyChar (c : Char) : Bool := c.isAlphanum || c == '-' || c == '_'

/-- Read a key without dots. -/
def readKey? (cs : List Char) : Option (String × List Char) :=
  match readLineText? cs with
  | some (text, rest) => some (String.ofList text, rest)
  | none =>
    let word := cs.takeWhile isKeyChar
    if word.isEmpty then none else some (String.ofList word, cs.drop word.length)

/-- How deeply tables and values may be nested. -/
def maxDepth : Nat := 79

/-- Read a dotted key: the path to a name, and the name. -/
def readPath? : Nat → List Char → Option ((List String × String) × List Char)
  | 0, _ => none
  | n + 1, cs => do
    let (key, rest) ← readKey? (skipSpaces cs)
    match skipSpaces rest with
    | '.' :: rest => do
      let ((path, name), rest) ← readPath? n rest
      some ((key :: path, name), rest)
    | rest => some (([], key), rest)

/-- Read a dotted key of at most so many names. -/
def readDottedKey? (cs : List Char) : Option ((List String × String) × List Char) := readPath? maxDepth cs

/-- Read a dotted key, the sign of equality and a value. -/
def readField? (readValue : List Char → Option (Toml × List Char)) (cs : List Char) :
    Option ((List String × String) × Toml × List Char) := do
  let (key, rest) ← readDottedKey? cs
  let rest ← readChar? '=' rest
  let (value, rest) ← readValue (skipSpaces rest)
  some (key, value, rest)

-- ---------------------------------------------------------------------------
-- Values
-- ---------------------------------------------------------------------------

/-- Read the items of an array from behind its bracket. -/
def readItems (readValue : List Char → Option (Toml × List Char)) :
    Nat → List Char → Option (List Toml × List Char)
  | 0, _ => none
  | n + 1, cs =>
    match skipFiller cs.length cs with
    | ']' :: rest => some ([], rest)
    | cs => do
      let (item, rest) ← readValue cs
      match skipFiller rest.length rest with
      | ',' :: rest => do
        let (items, rest) ← readItems readValue n rest
        some (item :: items, rest)
      | ']' :: rest => some ([item], rest)
      | _ => none

/-- Read the fields of a table within a line; those so far are given. -/
def readFields (readValue : List Char → Option (Toml × List Char)) :
    Nat → Fields → List Char → Option (Fields × List Char)
  | 0, _, _ => none
  | n + 1, fields, cs => do
    let ((path, name), value, rest) ← readField? readValue cs
    let fields ← insertValue value name path fields
    match skipSpaces rest with
    | ',' :: rest => readFields readValue n fields rest
    | '\x7d' :: rest => some (fields, rest)
    | _ => none

/-- Read a value in which arrays and tables are nested at most so deeply. -/
def readValue : Nat → List Char → Option (Toml × List Char)
  | _, [] => none
  | depth, c :: rest =>
    if c == '"' || c == '\'' then
      (readText? (c :: rest)).map fun (text, rest) => (.string (String.ofList text), rest)
    else if c == '[' || c == '\x7b' then
      match depth with
      | 0 => none
      | depth + 1 =>
        if c == '[' then
          (readItems (readValue depth) (rest.length + 1) rest).map fun (items, rest) =>
            (.array items, rest)
        else
          match skipSpaces rest with
          | '\x7d' :: rest => some (.table [], rest)
          | rest =>
            (readFields (readValue depth) (rest.length + 1) [] rest).map fun (fields, rest) =>
              (.table (fieldValues fields), rest)
    else readWord? (c :: rest)

-- ---------------------------------------------------------------------------
-- Documents
-- ---------------------------------------------------------------------------

/-- Read the head of a table from behind its bracket. -/
def readHead? (d : Draft) (cs : List Char) : Option (Draft × List Char) :=
  match cs with
  | '[' :: rest => do
    let ((path, name), rest) ← readDottedKey? rest
    let rest ← readChar? ']' rest
    let rest ← readChar? ']' rest
    (d.openListed path name).map (·, rest)
  | _ => do
    let ((path, name), rest) ← readDottedKey? cs
    let rest ← readChar? ']' rest
    (d.openTable path name).map (·, rest)

/-- Read the lines of a document. -/
def readLines : Nat → Draft → List Char → Option Draft
  | 0, _, _ => none
  | n + 1, d, cs =>
    match skipSpaces cs with
    | [] => some d
    | '[' :: rest => do
      let (d, rest) ← readHead? d rest
      readLines n d (← readEndOfLine? rest)
    | cs =>
      match readEndOfLine? cs with
      | some rest => readLines n d rest
      | none => do
        let ((path, name), value, rest) ← readField? (readValue maxDepth) cs
        let d ← d.insert path name value
        readLines n d (← readEndOfLine? rest)

/-- The fields of a document. -/
def parse? (text : String) : Option (List (String × Toml)) := do
  let cs := match text.toList with
    | '\uFEFF' :: rest => rest
    | cs => cs
  let d ← readLines (cs.length + 1) {} cs
  (← d.close) |> fieldValues |> some

end ScriptWarden.Toml
