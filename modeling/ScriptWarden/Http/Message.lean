import ScriptWarden.Json.Writer
import ScriptWarden.Text.Utf8

/-!
# HTTP messages

Requests as they come in, and the answers to them. A path is cut into segments before the escapes in
it are read, so an escaped slash does not divide it.
-/

namespace ScriptWarden

/-- A request. -/
structure HttpRequest where
  method : String
  target : String
  headers : List (String × String) := []
  body : List UInt8 := []
deriving DecidableEq, Repr, Inhabited

/-- What an answer carries. -/
inductive HttpBody where
  | json (value : Json)
  | text (text : String)

/-- An answer. -/
structure HttpAnswer where
  status : Nat
  body : HttpBody

namespace HttpAnswer

/-- An answer that all is well. -/
def ok (value : Json) : HttpAnswer := { status := 200, body := .json value }

/-- An answer in plain text. -/
def plain (status : Nat) (text : String := "") : HttpAnswer := { status, body := .text text }

/-- An answer that something went wrong. -/
def failure (status : Nat) (message : String) : HttpAnswer :=
  { status, body := .json (.obj [("error", .str message)]) }

/-- An answer without what it carries. -/
def withoutBody (a : HttpAnswer) : HttpAnswer := { a with body := .text "" }

end HttpAnswer

namespace HttpRequest

/-- A letter in lower case; other characters stay. -/
def lower (text : String) : String := String.ofList (text.toList.map Char.toLower)

/-- The first header of a name, whose case does not count. -/
def header? (r : HttpRequest) (name : String) : Option String :=
  (r.headers.find? fun h => lower h.1 == name).map (·.2)

/-- The path of a target, without a scheme and host, a query and a fragment. -/
def path (r : HttpRequest) : String :=
  let cs := r.target.toList.takeWhile fun c => c != '?' && c != '#'
  let scheme := "://".toList
  let name := cs.takeWhile Char.isAlpha
  let rest := cs.drop name.length
  if !name.isEmpty && scheme.isPrefixOf rest then
    let after := (rest.drop scheme.length).dropWhile (· != '/')
    String.ofList (if after.isEmpty then ['/'] else after)
  else String.ofList cs

/-- The segments of the path; none if it does not begin at the root. -/
def segments (r : HttpRequest) : List String :=
  match r.path.splitOn "/" with
  | "" :: segments => segments
  | _ => []

/-- The value of a hexadecimal digit. -/
def hexDigit? (c : Char) : Option Nat :=
  if c.isDigit then some (c.toNat - 48)
  else if 'a' ≤ c && c ≤ 'f' then some (c.toNat - 87)
  else if 'A' ≤ c && c ≤ 'F' then some (c.toNat - 55)
  else none

/-- The bytes of a text with escapes. What is no escape stands for itself. -/
def unescaped : List Char → List UInt8
  | '%' :: a :: b :: rest =>
    match hexDigit? a, hexDigit? b with
    | some high, some low => (high * 16 + low).toUInt8 :: unescaped rest
    | _, _ => encodeUtf8 "%" ++ unescaped (a :: b :: rest)
  | c :: rest => encodeUtf8 c.toString ++ unescaped rest
  | [] => []

end HttpRequest

end ScriptWarden
