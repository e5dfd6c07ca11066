import ScriptWarden.Json.Writer
import ScriptWarden.Text.Quoted

/-!
# Why JSON cannot be read

A text is no JSON, or the value in it is not of the shape asked for. Both are told with the place
where reading stopped, if there is one: the line, and the bytes of the line up to there.
-/

namespace ScriptWarden

/-- Why a text is no JSON. -/
inductive JsonFault where
  | eofInValue
  | eofInList
  | eofInObject
  | eofInString
  | expectedColon
  | expectedListCommaOrEnd
  | expectedObjectCommaOrEnd
  | expectedIdent
  | expectedValue
  | invalidEscape
  | invalidNumber
  | numberOutOfRange
  | invalidCodePoint
  | controlCharacter
  | keyNotString
  | loneSurrogate
  | trailingComma
  | trailingCharacters
  | endOfHexEscape
  | tooDeep
deriving DecidableEq, Repr, Inhabited

/-- The wording of a fault. -/
def JsonFault.message : JsonFault → String
  | .eofInValue => "EOF while parsing a value"
  | .eofInList => "EOF while parsing a list"
  | .eofInObject => "EOF while parsing an object"
  | .eofInString => "EOF while parsing a string"
  | .expectedColon => "expected `:`"
  | .expectedListCommaOrEnd => "expected `,` or `]`"
  | .expectedObjectCommaOrEnd => "expected `,` or `\x7d`"
  | .expectedIdent => "expected ident"
  | .expectedValue => "expected value"
  | .invalidEscape => "invalid escape"
  | .invalidNumber => "invalid number"
  | .numberOutOfRange => "number out of range"
  | .invalidCodePoint => "invalid unicode code point"
  | .controlCharacter => "control character (\\u0000-\\u001F) found while parsing a string"
  | .keyNotString => "key must be a string"
  | .loneSurrogate => "lone leading surrogate in hex escape"
  | .trailingComma => "trailing comma"
  | .trailingCharacters => "trailing characters"
  | .endOfHexEscape => "unexpected end of hex escape"
  | .tooDeep => "recursion limit exceeded"

/-- What stands where something else is asked for. -/
inductive Found where
  | null
  | boolean (value : Bool)
  | integer (value : Int)
  | floating (value : Binary64)
  | string (value : String)
  | sequence
  | map
deriving DecidableEq, Repr, Inhabited

/-- Why a value is not of the shape asked for. -/
inductive ShapeFault where
  | wrongType (found : Found) (expected : String)
  | outOfRange (found : Found) (expected : String)
  | wrongLength (length : Nat) (expected : String)
  | unknownVariant (name : String) (known : List String)
  | missingField (name : String)
  | duplicateField (name : String)
  | other (message : String)
deriving DecidableEq, Repr, Inhabited

/-- What a value is, told without its inner values. -/
def Found.ofJson : Json → Found
  | .null => .null
  | .bool b => .boolean b
  | .nat n => .integer n
  | .neg n => .integer (-(n : Int))
  | .real x => .floating x
  | .str s => .string s
  | .arr _ => .sequence
  | .obj _ => .map

/-- The wording of what stands in a place. -/
def Found.message : Found → String
  | .null => "null"
  | .boolean b => "boolean `" ++ (if b then "true" else "false") ++ "`"
  | .integer i => "integer `" ++ toString i ++ "`"
  | .floating x => "floating point `" ++ x.text ++ "`"
  | .string s => "string " ++ Text.quoted s
  | .sequence => "sequence"
  | .map => "map"

/-- Names in a list of alternatives. -/
def oneOfNames (names : List String) : String :=
  let marked := names.map fun n => "`" ++ n ++ "`"
  match marked with
  | [] => "there are no variants"
  | [a] => "expected " ++ a
  | [a, b] => "expected " ++ a ++ " or " ++ b
  | _ => "expected one of " ++ String.intercalate ", " marked

/-- The wording of a fault of shape. -/
def ShapeFault.message : ShapeFault → String
  | .wrongType found expected => "invalid type: " ++ found.message ++ ", expected " ++ expected
  | .outOfRange found expected => "invalid value: " ++ found.message ++ ", expected " ++ expected
  | .wrongLength n expected => "invalid length " ++ toString n ++ ", expected " ++ expected
  | .unknownVariant name known =>
    "unknown variant `" ++ name ++ "`, " ++ oneOfNames known
  | .missingField name => "missing field `" ++ name ++ "`"
  | .duplicateField name => "duplicate field `" ++ name ++ "`"
  | .other message => message

/-- A place in a text: the line, counted from 1, and the bytes of that line before the place. -/
structure LinePlace where
  line : Nat := 1
  column : Nat := 0
deriving DecidableEq, Repr, Inhabited

/-- Why a value cannot be read from a text, and where, if the place is known. -/
inductive ReadFault where
  | text (fault : JsonFault) (place : LinePlace)
  | shape (fault : ShapeFault) (place : Option LinePlace)
deriving DecidableEq, Repr, Inhabited

/-- The wording of a place after a message. -/
def LinePlace.suffix (p : LinePlace) : String :=
  " at line " ++ toString p.line ++ " column " ++ toString p.column

/-- The wording of a fault. -/
def ReadFault.message : ReadFault → String
  | .text fault place => fault.message ++ place.suffix
  | .shape fault (some place) => fault.message ++ place.suffix
  | .shape fault none => fault.message

/-- Give a fault a place unless it has one. -/
def ReadFault.placedAt (place : LinePlace) : ReadFault → ReadFault
  | .shape fault none => .shape fault (some place)
  | f => f

end ScriptWarden
