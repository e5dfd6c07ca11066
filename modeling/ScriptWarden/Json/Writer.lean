import ScriptWarden.Json.Basic
import ScriptWarden.Numeric.Shortest

/-!
# Writing JSON

The compact form: no blanks, the fields of an object in their order, and in strings escapes for
quotes, backslashes and control characters only.
-/

namespace ScriptWarden

namespace Json

/-- A hexadecimal digit in lower case. -/
def hexDigit (n : Nat) : Char := (Nat.toDigits 16 (n % 16)).headD '0'

/-- A character inside a string. -/
def escapeChar (c : Char) : String :=
  if c == '"' then "\\\""
  else if c == '\\' then "\\\\"
  else if c == '\n' then "\\n"
  else if c == '\r' then "\\r"
  else if c == '\t' then "\\t"
  else if c == '\x08' then "\\b"
  else if c == '\x0c' then "\\f"
  else if c.toNat < 0x20 then
    "\\u00" ++ String.ofList [hexDigit (c.toNat / 16), hexDigit c.toNat]
  else c.toString

/-- A string with its quotes. -/
def quote (s : String) : String :=
  s.toList.foldl (fun acc c => acc ++ escapeChar c) "\"" ++ "\""

mutual

/-- A value as text. -/
def write : Json → String
  | .null => "null"
  | .bool b => if b then "true" else "false"
  | .nat n => toString n
  | .neg n => "-" ++ toString n
  | .real x => x.text
  | .str s => quote s
  | .arr items => "[" ++ writeItems items ++ "]"
  | .obj fields => "\x7b" ++ writeFields fields ++ "\x7d"

/-- The items of an array, with commas between them. -/
def writeItems : List Json → String
  | [] => ""
  | [j] => write j
  | j :: rest => write j ++ "," ++ writeItems rest

/-- The fields of an object, with commas between them. -/
def writeFields : List (String × Json) → String
  | [] => ""
  | [(k, j)] => quote k ++ ":" ++ write j
  | (k, j) :: rest => quote k ++ ":" ++ write j ++ "," ++ writeFields rest

end

end Json

end ScriptWarden
