import ScriptWarden.Http.Message
import ScriptWarden.Text.Quoted

/-!
# Multipart bodies

The fields of a form that comes as the body of a request. A boundary that the request names stands
before each field and, with two hyphens after it, behind the last one.
-/

namespace ScriptWarden

/-- Why a body cannot be taken apart. -/
inductive MultipartFault where
  /-- The body ends too early, or something else stands behind a boundary. -/
  | incompleteStream
  | incompleteField (name : Option String)
  | badHeaderName
deriving DecidableEq, Repr, Inhabited

/-- The wording of a fault. -/
def MultipartFault.message : MultipartFault → String
  | .incompleteStream => "incomplete multipart stream"
  | .incompleteField name =>
    "field " ++ Text.quoted (name.getD "<unknown>") ++ " received with incomplete data"
  | .badHeaderName => "failed to read headers: invalid header name"

/-- A field. -/
structure FormField where
  name : Option String
  fileName : Option String
  bytes : List UInt8
deriving DecidableEq, Repr, Inhabited

namespace Multipart

-- ---------------------------------------------------------------------------
-- The boundary
-- ---------------------------------------------------------------------------

/-- Whether a character may stand outside of quotes in a header. -/
def isTokenChar (c : Char) : Bool := c.isAlphanum || "!#$%&'*+-.^_|~".toList.contains c || c.toNat == 96

/-- The parameters of a header. The fuel bounds its length. -/
def parameters? : Nat → List Char → Option (List (String × String))
  | 0, _ => none
  | n + 1, cs =>
    match cs.dropWhile (· == ' ') with
    | [] => some []
    | cs =>
      let name := cs.takeWhile isTokenChar
      match name, cs.drop name.length with
      | _ :: _, '=' :: '"' :: rest =>
        let value := rest.takeWhile (· != '"')
        match rest.drop value.length with
        | _ :: after => next n (HttpRequest.lower (String.ofList name)) value after
        | [] => none
      | _ :: _, '=' :: rest =>
        let value := rest.takeWhile isTokenChar
        if value.isEmpty then none
        else next n (HttpRequest.lower (String.ofList name)) value (rest.drop value.length)
      | _, _ => none
where
  /-- The parameters from one on. -/
  next (n : Nat) (name : String) (value after : List Char) : Option (List (String × String)) :=
    match after.dropWhile (· == ' ') with
    | [] => some [(name, String.ofList value)]
    | ';' :: more => (parameters? n more).map ((name, String.ofList value) :: ·)
    | _ => none

/-- The boundary that the type of a body names. -/
def boundary? (contentType : String) : Option String :=
  let cs := contentType.toList
  let type := cs.takeWhile fun c => c != ';' && c != ' '
  if HttpRequest.lower (String.ofList type) != "multipart/form-data" then none
  else
    match (cs.drop type.length).dropWhile (· == ' ') with
    | ';' :: rest => (parameters? (rest.length + 1) rest).bind (·.lookup "boundary")
    | _ => none

-- ---------------------------------------------------------------------------
-- Searching
-- ---------------------------------------------------------------------------

/-- What stands before the first place of a pattern, and what follows it. The bytes passed are given
last one first. -/
def splitAtFirst (pattern : List UInt8) (passed : List UInt8) :
    List UInt8 → Option (List UInt8 × List UInt8)
  | [] => if pattern.isEmpty then some (passed.reverse, []) else none
  | b :: rest =>
    if pattern.isPrefixOf (b :: rest) then some (passed.reverse, (b :: rest).drop pattern.length)
    else splitAtFirst pattern (b :: passed) rest

/-- The bytes of a line's end. -/
def lineEnd : List UInt8 := [13, 10]

/-- The bytes of two hyphens. -/
def hyphens : List UInt8 := [45, 45]

/-- Whether a byte is blank. -/
def isBlankByte (b : UInt8) : Bool := b == 32 || b == 9 || b == 10 || b == 12 || b == 13

-- ---------------------------------------------------------------------------
-- Headers
-- ---------------------------------------------------------------------------

/-- The text in quotes up to a quote that is not escaped. -/
def quotedBytes : List UInt8 → Option (List UInt8)
  | [] => none
  | 92 :: b :: rest => (quotedBytes rest).map fun out => if b == 34 then 34 :: out else 92 :: b :: out
  | b :: rest => if b == 34 then some [] else (quotedBytes rest).map (b :: ·)

/-- The value of an item in a header. The fuel bounds its length. -/
def item? (name : List UInt8) : Nat → List UInt8 → List UInt8 → Option (List UInt8)
  | 0, _, _ => none
  | n + 1, before, header =>
    match splitAtFirst (name ++ [61]) [] header with
    | none => none
    | some (passed, rest) =>
      let last := (before ++ passed).getLast?
      if last.all fun b => isBlankByte b || b == 59 then
        match rest with
        | 34 :: inside => quotedBytes inside
        | _ => some ((rest.takeWhile (· != 59)).reverse.dropWhile isBlankByte).reverse
      else item? name n [61] rest

/-- A header's line as its name in lower case and its value. -/
def headerOf? (line : List UInt8) : Option (String × List UInt8) :=
  let name := line.takeWhile (· != 58)
  let isToken := name.all fun b => isTokenChar (Char.ofNat b.toNat)
  match line.drop name.length with
  | _ :: value =>
    if isToken && !name.isEmpty then
      let value := ((value.dropWhile isBlankByte).reverse.dropWhile isBlankByte).reverse
      some (HttpRequest.lower (decodeLossy name), value)
    else none
  | [] => none

/-- The lines of a block. The fuel bounds how many there are. -/
def linesOf : Nat → List UInt8 → List (List UInt8)
  | 0, _ => []
  | n + 1, block =>
    match splitAtFirst lineEnd [] block with
    | some (line, rest) => line :: linesOf n rest
    | none => if block.isEmpty then [] else [block]

-- ---------------------------------------------------------------------------
-- Fields
-- ---------------------------------------------------------------------------

/-- Read the field that follows a boundary, and what follows the boundary behind it; none at the
end of the form. -/
def field? (boundary : List UInt8) (bytes : List UInt8) :
    Except MultipartFault (Option (FormField × List UInt8)) := do
  if bytes.length < 2 then throw .incompleteStream
  if hyphens.isPrefixOf bytes then return none
  let bytes := bytes.dropWhile fun b => b == 32 || b == 9
  if !lineEnd.isPrefixOf bytes then throw .incompleteStream
  match splitAtFirst (lineEnd ++ lineEnd) [] (bytes.drop 2) with
  | none => throw .incompleteStream
  | some (block, rest) =>
    let some headers := (linesOf (block.length + 1) block).mapM headerOf? | throw .badHeaderName
    let disposition := (headers.lookup "content-disposition").getD []
    let item := fun (name : String) =>
      (item? (encodeUtf8 name) (disposition.length + 1) [] disposition).bind decodeUtf8?
    let name := item "name"
    match splitAtFirst (lineEnd ++ hyphens ++ boundary) [] rest with
    | none => throw (.incompleteField name)
    | some (bytes, rest) => return some ({ name, fileName := item "filename", bytes }, rest)

/-- The first field of a name, from the one on that follows a boundary. The fuel bounds how many
there are. -/
def findFrom (boundary : List UInt8) (name : String) :
    Nat → List UInt8 → Except MultipartFault (Option FormField)
  | 0, _ => .error .incompleteStream
  | n + 1, bytes => do
    match ← field? boundary bytes with
    | none => return none
    | some (field, rest) =>
      if field.name == some name then return some field else findFrom boundary name n rest

/-- The first field of a name. -/
def find? (boundary name : String) (body : List UInt8) : Except MultipartFault (Option FormField) :=
  let boundary := encodeUtf8 boundary
  match splitAtFirst (hyphens ++ boundary) [] body with
  | none => .error .incompleteStream
  | some (_, rest) => findFrom boundary name (body.length + 1) rest

end Multipart

end ScriptWarden
