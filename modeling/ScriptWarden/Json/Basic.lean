import ScriptWarden.Numeric.Binary64

/-!
# JSON values

Values of JSON. A number is a whole number of 64 bits where it can be one and was written as one,
and a binary64 otherwise. The fields of an object keep their order.
-/

namespace ScriptWarden

/-- A JSON value. -/
inductive Json where
  | null
  | bool (value : Bool)
  | nat (value : Nat)
  /-- The negative of a whole number that is not zero. -/
  | neg (value : Nat)
  | real (value : Binary64)
  | str (value : String)
  | arr (items : List Json)
  | obj (fields : List (String × Json))
deriving Inhabited, Repr

namespace Json

/-- The first field with a name. -/
def field? (j : Json) (name : String) : Option Json :=
  match j with
  | .obj fields => fields.lookup name
  | _ => none

/-- An integer as a value. -/
def int : Int → Json
  | .ofNat n => .nat n
  | .negSucc n => .neg (n + 1)

/-- A text, or null where there is none. -/
def strOrNull : Option String → Json
  | some s => .str s
  | none => .null

/-- A list of texts. -/
def strings (ss : List String) : Json := .arr (ss.map .str)

end Json

end ScriptWarden
