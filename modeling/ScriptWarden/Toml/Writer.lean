import ScriptWarden.Toml.Basic
import ScriptWarden.Toml.Quoted

/-!
# Writing TOML

A document has its plain fields first and then its tables, each under a head after a blank line. An
array of more than one item has a line for each.
-/

namespace ScriptWarden.Toml

mutual

/-- A value within a line. -/
def inlineText : Toml → String
  | .string s => String.ofList (quotedChars s.toList)
  | .integer n => toString n
  | .boolean b => if b then "true" else "false"
  | .real text => text
  | .moment text => text
  | .array items => "[" ++ ", ".intercalate (inlineTexts items) ++ "]"
  | .table fields => "\x7b " ++ ", ".intercalate (inlineFields fields) ++ " \x7d"

/-- Values within a line. -/
def inlineTexts : List Toml → List String
  | [] => []
  | v :: rest => inlineText v :: inlineTexts rest

/-- Fields within a line. -/
def inlineFields : List (String × Toml) → List String
  | [] => []
  | (name, v) :: rest => (name ++ " = " ++ inlineText v) :: inlineFields rest

end

/-- A value in a document. -/
def valueText : Toml → String
  | .array [] => "[]"
  | .array [v] => "[" ++ inlineText v ++ "]"
  | .array items =>
    "[\n" ++ String.join ((inlineTexts items).map fun t => "    " ++ t ++ ",\n") ++ "]"
  | v => inlineText v

/-- A field on a line of its own. -/
def fieldLine (f : String × Toml) : String := f.1 ++ " = " ++ valueText f.2 ++ "\n"

/-- A table under its head. -/
def tableText (name : String) (fields : List (String × Toml)) : String :=
  "[" ++ name ++ "]\n" ++ String.join (fields.map fieldLine)

/-- The plain fields of a document. -/
def plainFields (fields : List (String × Toml)) : List (String × Toml) :=
  fields.filter fun f => match f.2 with | .table _ => false | _ => true

/-- The tables of a document. -/
def tableFields (fields : List (String × Toml)) : List (String × List (String × Toml)) :=
  fields.filterMap fun f => match f.2 with | .table sub => some (f.1, sub) | _ => none

/-- The text of a document. -/
def write (fields : List (String × Toml)) : String :=
  String.join ((plainFields fields).map fieldLine) ++
    String.join ((tableFields fields).map fun t => "\n" ++ tableText t.1 t.2)

end ScriptWarden.Toml
