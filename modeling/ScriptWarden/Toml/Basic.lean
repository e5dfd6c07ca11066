import ScriptWarden.Numeric.Power

/-!
# TOML values

Values of TOML. Real numbers and moments are kept as they are written; the fields of a table keep
their order.
-/

namespace ScriptWarden

/-- A TOML value. -/
inductive Toml where
  | string (text : String)
  | integer (value : Int)
  | boolean (value : Bool)
  /-- A number that is not whole, or no number. -/
  | real (text : String)
  /-- A date, a time of day, or both. -/
  | moment (text : String)
  | array (items : List Toml)
  | table (fields : List (String × Toml))
deriving Inhabited, Repr

namespace Toml

/-- The integers that can be written are those of 64 bits. -/
def isInteger : Int → Bool
  | .ofNat n => decide (n < twoTo 63)
  | .negSucc n => decide (n < twoTo 63)

/-- Texts as an array. -/
def strings (ss : List String) : Toml := .array (ss.map .string)

end Toml

end ScriptWarden
