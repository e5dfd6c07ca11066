import ScriptWarden.Json.Reader

/-!
# Shapes of JSON values

What a value has to be to stand for something: a text, a number in a range, a list, a record. A
record is written as an object, whose unknown fields are passed over, or as the list of its fields
in order. Faults are found in the order of the text.
-/

namespace ScriptWarden

/-- What takes a value apart. -/
abbrev Shape (α : Type) := Json → Except ShapeFault α

namespace Shape

/-- A value of a wrong type. -/
def mismatch (expected : String) (j : Json) : Except ShapeFault α :=
  .error (.wrongType (.ofJson j) expected)

/-- A text. -/
def string : Shape String
  | .str s => .ok s
  | j => mismatch "a string" j

/-- A truth value. -/
def bool : Shape Bool
  | .bool b => .ok b
  | j => mismatch "a boolean" j

/-- A whole number up to a limit; the type of such numbers has a name. -/
def natUpTo (limit : Nat) (name : String) : Shape Nat
  | .nat n => if n ≤ limit then .ok n else .error (.outOfRange (.integer n) name)
  | .neg n => .error (.outOfRange (.integer (-(n : Int))) name)
  | j => mismatch name j

/-- A whole number of 32 bits. -/
def u32 : Shape Nat := natUpTo (twoTo 32 - 1) "u32"

/-- A whole number of 64 bits. -/
def u64 : Shape Nat := natUpTo (twoTo 64 - 1) "u64"

/-- An integer of 32 bits. -/
def i32 : Shape Int32
  | .nat n => if n < twoTo 31 then .ok (Int32.ofInt n) else .error (.outOfRange (.integer n) "i32")
  | .neg n =>
    let i := -(n : Int)
    if n ≤ twoTo 31 then .ok (Int32.ofInt i) else .error (.outOfRange (.integer i) "i32")
  | j => mismatch "i32" j

/-- A real number, which may be written as a whole one. -/
def real : Shape Binary64
  | .nat n => .ok (Binary64.ofNat n)
  | .neg n => .ok { Binary64.ofNat n with negative := true }
  | .real x => .ok x
  | j => mismatch "f64" j

/-- A value that may be null. -/
def nullable (shape : Shape α) : Shape (Option α)
  | .null => .ok none
  | j => (shape j).map some

/-- The values of a list. -/
def list (shape : Shape α) : Shape (List α)
  | .arr items => items.mapM shape
  | j => mismatch "a sequence" j

end Shape

/-- A field of a record: its name, what its value has to be, and whether it has to be there. -/
structure FieldShape where
  name : String
  check : Shape Unit
  required : Bool := true

/-- A field that has to be there. -/
def FieldShape.of (name : String) (shape : Shape α) : FieldShape :=
  { name, check := fun j => (shape j).map fun _ => () }

/-- A field that may be left out. -/
def FieldShape.optional (name : String) (shape : Shape α) : FieldShape :=
  { FieldShape.of name shape with required := false }

/-- The fields of a record that are there, by name. -/
structure Record where
  fields : List (String × Json)

namespace Record

/-- Check fields in the order of the text; those passed so far are given. -/
def checkFields (shapes : List FieldShape) (passed : List (String × Json)) :
    List (String × Json) → Except ShapeFault (List (String × Json))
  | [] => .ok passed.reverse
  | (k, j) :: rest =>
    match shapes.find? (·.name == k) with
    | none => checkFields shapes passed rest
    | some shape =>
      if passed.any (·.1 == k) then .error (.duplicateField k)
      else do
        let _ ← shape.check j
        checkFields shapes ((k, j) :: passed) rest

/-- So many elements, as a text. -/
def elements (n : Nat) : String := if n == 1 then "1 element" else toString n ++ " elements"

/-- Check items in the order of the fields; so many have been passed. -/
def checkItems (what : String) (total passed : Nat) :
    List FieldShape → List Json → Except ShapeFault (List (String × Json))
  | [], [] => .ok []
  | [], rest => .error (.wrongLength (passed + rest.length) (elements passed ++ " in sequence"))
  | shape :: shapes, [] =>
    if shape.required then .error (.wrongLength passed (what ++ " with " ++ elements total))
    else checkItems what total passed shapes []
  | shape :: shapes, j :: rest => do
    let _ ← shape.check j
    let more ← checkItems what total (passed + 1) shapes rest
    .ok ((shape.name, j) :: more)

/-- The record of a value. -/
def ofJson (what : String) (shapes : List FieldShape) : Json → Except ShapeFault Record
  | .obj fields => do
    let found ← checkFields shapes [] fields
    match shapes.find? fun s => s.required && !found.any (·.1 == s.name) with
    | some s => .error (.missingField s.name)
    | none => .ok ⟨found⟩
  | .arr items => (checkItems what shapes.length 0 shapes items).map (⟨·⟩)
  | j => Shape.mismatch what j

/-- The value of a field that has to be there. -/
def get (r : Record) (name : String) (shape : Shape α) : Except ShapeFault α :=
  match r.fields.lookup name with
  | some j => shape j
  | none => .error (.missingField name)

/-- The value of a field, or another one where the field is left out. -/
def getD (r : Record) (name : String) (shape : Shape α) (default : α) : Except ShapeFault α :=
  match r.fields.lookup name with
  | some j => shape j
  | none => .ok default

end Record

-- ---------------------------------------------------------------------------
-- Tagged records
-- ---------------------------------------------------------------------------

namespace Json

/-- Give a fault without a place the place where reading stopped. -/
def placed (c : Cursor) (r : Except ShapeFault α) : Except ReadFault α :=
  r.mapError fun f => .shape f (some c.place)

/-- Read the tag of a record, which is one of some names. -/
def readTag (known : List String) : Reader String := fun c => do
  let c := c.skipBlanks
  match c.peek with
  | none => c.failNext .eofInValue
  | some b =>
    if b == ascii '[' then placed c (.error (.wrongType .sequence "variant identifier"))
    else if b == ascii '\x7b' then placed c (.error (.wrongType .map "variant identifier"))
    else
      let (j, c) ← readScalar b c
      match j with
      | .str s =>
        if known.contains s then .ok (s, c) else placed c (.error (.unknownVariant s known))
      | j => placed c (.error (.wrongType (.ofJson j) "variant identifier"))

/-- The tag of a record and the rest of it. -/
abbrev Tagged := String × Json

/-- Read the fields of a tagged record; those read so far are given last one first. A fault that
has no place is reported without one. -/
def readTaggedFields (tagName : String) (known : List String) (inner : Reader Json) :
    Nat → Bool → Option String → List (String × Json) → Cursor →
      Except ReadFault (Except ShapeFault Tagged × Cursor)
  | 0, _, _, _, c => .ok (.error (.missingField tagName), c)
  | n + 1, first, tag, acc, c => do
    let (more, c) ← nextKey first c
    if more then
      let (k, c) ← readString c
      if k == tagName then
        if tag.isSome then .ok (.error (.duplicateField tagName), c)
        else
          let (_, c) ← readColon c
          let (t, c) ← readTag known c
          readTaggedFields tagName known inner n false (some t) acc c
      else
        let (_, c) ← readColon c
        let (j, c) ← inner c
        readTaggedFields tagName known inner n false tag ((k, j) :: acc) c
    else
      match tag with
      | some t => .ok (.ok (t, .obj acc.reverse), c)
      | none => .ok (.error (.missingField tagName), c)

/-- The result of reading something with an end, when the reading of the end is known as well. A
fault of shape comes before a fault at the end, and is placed after the end if that is there. -/
def closeWith (r : Except ShapeFault α) (c : Cursor) (close : Reader Unit) :
    Except ReadFault (α × Cursor) :=
  match r, close c with
  | .ok a, .ok (_, c') => .ok (a, c')
  | .ok _, .error e => .error e
  | .error f, .ok (_, c') => placed c' (.error f)
  | .error f, .error _ => placed c.skipBlanks (.error f)

/-- Read a tagged record: an object with the tag among its fields, or a list that begins with the
tag. -/
def readTagged (tagName what : String) (known : List String) : Reader Tagged := fun c => do
  let c := c.skipBlanks
  let inner := readBelow (maxDepth - 1)
  match c.peek with
  | none => c.failNext .eofInValue
  | some b =>
    if b == ascii '[' then
      let (more, c) ← nextItem true c.skip
      if more then
        let (t, c) ← readTag known c
        let (items, c) ← readItems inner (c.rest.length + 1) false [] c
        closeWith (.ok (t, .arr items)) c endList
      else closeWith (.error (.missingField tagName)) c endList
    else if b == ascii '\x7b' then
      let (r, c) ← readTaggedFields tagName known inner (c.rest.length + 1) true none [] c.skip
      closeWith r c endObject
    else
      let (j, c) ← readScalar b c
      placed c (Shape.mismatch what j)

/-- Take the record behind a tag apart; its faults have no place. -/
def unplaced (r : Except ShapeFault α) : Except ReadFault α := r.mapError fun f => .shape f none

end Json

end ScriptWarden
