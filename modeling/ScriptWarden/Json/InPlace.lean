import ScriptWarden.Json.Shape

/-!
# Records read in place

A record whose fields are scalars, checked while its text is read: a field of a wrong type is
reported at the place where it stands, before anything that follows it is looked at.
-/

namespace ScriptWarden

namespace Json

/-- Read a scalar of a shape. A list or an object in its place is not looked into. -/
def readShaped (check : Shape Unit) : Reader Json := fun c => do
  let c := c.skipBlanks
  match c.peek with
  | none => c.failNext .eofInValue
  | some b =>
    if b == ascii '[' then
      let _ ← placed c (check (.arr []))
      placed c (.ok (.arr []))
    else if b == ascii '\x7b' then
      let _ ← placed c (check (.obj []))
      placed c (.ok (.obj []))
    else
      let (j, c) ← readScalar b c
      let _ ← placed c (check j)
      .ok (j, c)
where
  /-- Give a fault without a place the place where reading stopped, and stay there. -/
  placed {α : Type} (c : Cursor) (r : Except ShapeFault α) : Except ReadFault (α × Cursor) :=
    (Json.placed c r).map (·, c)

/-- The names and values of fields, or a fault that has no place yet. -/
abbrev FieldsInPlace := Except ShapeFault (List (String × Json))

/-- Read the fields of an object, checking each; those read so far are given last one first. The
fuel bounds how many there are. -/
def readFieldsInPlace (shapes : List FieldShape) (inner : Reader Json) :
    Nat → Bool → List (String × Json) → Reader FieldsInPlace
  | 0, _, passed, c => .ok (.ok passed.reverse, c)
  | n + 1, first, passed, c => do
    let (more, c) ← nextKey first c
    if !more then return (.ok passed.reverse, c)
    let (k, c) ← readString c
    match shapes.find? (·.name == k) with
    | none =>
      let (_, c) ← readColon c
      let (_, c) ← inner c
      readFieldsInPlace shapes inner n false passed c
    | some shape =>
      if passed.any (·.1 == k) then return (.error (.duplicateField k), c)
      let (_, c) ← readColon c
      let (j, c) ← readShaped shape.check c
      readFieldsInPlace shapes inner n false ((k, j) :: passed) c

/-- Read the fields of a record written as a list. -/
def readItemsInPlace (what : String) (total : Nat) :
    List FieldShape → Nat → List (String × Json) → Reader FieldsInPlace
  | [], _, passed, c => .ok (.ok passed.reverse, c)
  | shape :: shapes, count, passed, c => do
    let (more, c) ← nextItem (count == 0) c
    if more then
      let (j, c) ← readShaped shape.check c
      readItemsInPlace what total shapes (count + 1) ((shape.name, j) :: passed) c
    else if shape.required then
      return (.error (.wrongLength count (what ++ " with " ++ Record.elements total)), c)
    else readItemsInPlace what total shapes count passed c

/-- Read a record. -/
def readRecord (what : String) (shapes : List FieldShape) : Reader Record := fun c => do
  let c := c.skipBlanks
  match c.peek with
  | none => c.failNext .eofInValue
  | some b =>
    if b == ascii '[' then
      let (r, c) ← readItemsInPlace what shapes.length shapes 0 [] c.skip
      (closeWith r c endList).map fun (fields, c) => (⟨fields⟩, c)
    else if b == ascii '\x7b' then
      let inner := readBelow (maxDepth - 1)
      let (r, c) ← readFieldsInPlace shapes inner (c.rest.length + 1) true [] c.skip
      let r := r.bind fun found =>
        match shapes.find? fun s => s.required && !found.any (·.1 == s.name) with
        | some s => .error (.missingField s.name)
        | none => .ok found
      (closeWith r c endObject).map fun (fields, c) => (⟨fields⟩, c)
    else
      let (j, c) ← readScalar b c
      placed c (Shape.mismatch what j)

end Json

end ScriptWarden
