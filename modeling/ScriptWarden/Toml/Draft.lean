import ScriptWarden.Toml.Basic

/-!
# Tables in the making

A document names its tables by paths, piece by piece. A table that was opened by a head is complete
once the next head comes; one that only paths have named may still be opened; one that dotted keys
have made can be extended by dotted keys alone.
-/

namespace ScriptWarden.Toml

/-- How a table came to be. -/
inductive Origin where
  /-- By a head of its own. -/
  | opened
  /-- By the head of a table below it. -/
  | implied
  /-- By a dotted key. -/
  | dotted
deriving DecidableEq, Repr, Inhabited

/-- A field of a table in the making. -/
inductive Entry where
  | value (value : Toml)
  | table (origin : Origin) (fields : List (String × Entry))
  /-- Tables of one name, the last one first. -/
  | tables (items : List (List (String × Entry)))
deriving Inhabited

/-- The fields of a table in the making. -/
abbrev Fields := List (String × Entry)

/-- Put an entry in the place of the one of its name. -/
def replaceEntry (name : String) (entry : Entry) (fields : Fields) : Fields :=
  fields.map fun f => if f.1 == name then (name, entry) else f

/-- Add a value under a dotted key: a path and a name. -/
def insertValue (value : Toml) (name : String) : List String → Fields → Option Fields
  | [], fields =>
    if fields.any (·.1 == name) then none else some (fields ++ [(name, .value value)])
  | p :: path, fields =>
    match fields.lookup p with
    | none =>
      (insertValue value name path []).map fun sub => fields ++ [(p, .table .dotted sub)]
    | some (.table origin sub) =>
      if origin == .opened || (path.isEmpty && origin != .dotted) then none
      else
        (insertValue value name path sub).map fun sub => replaceEntry p (.table origin sub) fields
    | some (.tables (last :: earlier)) =>
      if path.isEmpty then none
      else
        (insertValue value name path last).map fun last =>
          replaceEntry p (.tables (last :: earlier)) fields
    | some _ => none

/-- Change the table at a path, which comes to be where it is not there. -/
def changeAt (change : Fields → Option Fields) : List String → Fields → Option Fields
  | [], fields => change fields
  | p :: path, fields =>
    match fields.lookup p with
    | none => (changeAt change path []).map fun sub => fields ++ [(p, .table .implied sub)]
    | some (.table origin sub) =>
      (changeAt change path sub).map fun sub => replaceEntry p (.table origin sub) fields
    | some (.tables (last :: earlier)) =>
      (changeAt change path last).map fun last =>
        replaceEntry p (.tables (last :: earlier)) fields
    | some _ => none

/-- The table at a path, if it is there. -/
def fieldsAt? : List String → Fields → Option Fields
  | [], fields => some fields
  | p :: path, fields =>
    match fields.lookup p with
    | some (.table _ sub) => fieldsAt? path sub
    | some (.tables (last :: _)) => fieldsAt? path last
    | _ => none

/-- A document in the making: the tables that are complete, and the one that is open. -/
structure Draft where
  complete : Fields := []
  /-- The path of the open table but for its name, and its name; none for the document itself. -/
  place : Option (List String × String) := none
  /-- Whether the open table is one of several of its name. -/
  listed : Bool := false
  fields : Fields := []
deriving Inhabited

namespace Draft

/-- Put the open table among those that are complete. -/
def close (d : Draft) : Option Fields :=
  match d.place with
  | none => some d.fields
  | some (path, name) =>
    changeAt (fun parent =>
      match parent.lookup name with
      | none =>
        some (parent ++ [(name, if d.listed then .tables [d.fields] else .table .opened d.fields)])
      | some (.tables items) =>
        if d.listed then some (replaceEntry name (.tables (d.fields :: items)) parent) else none
      | some _ => none) path d.complete

/-- Open a table. One that only paths have named keeps its fields. -/
def openTable (d : Draft) (path : List String) (name : String) : Option Draft := do
  let complete ← d.close
  let known := ((fieldsAt? path complete).bind (·.lookup name)).bind fun
    | .table .implied sub => some sub
    | _ => none
  let complete ← changeAt (fun parent =>
    match parent.lookup name with
    | none => some parent
    | some (.table .implied _) => some (parent.filter (·.1 != name))
    | some _ => none) path complete
  some { complete, place := some (path, name), fields := known.getD [] }

/-- Open one more table of a name. -/
def openListed (d : Draft) (path : List String) (name : String) : Option Draft := do
  let complete ← d.close
  let complete ← changeAt (fun parent =>
    match parent.lookup name with
    | none => some parent
    | some (.tables _) => some parent
    | some _ => none) path complete
  some { complete, place := some (path, name), listed := true }

/-- Add a value to the open table. -/
def insert (d : Draft) (path : List String) (name : String) (value : Toml) : Option Draft :=
  (insertValue value name path d.fields).map fun fields => { d with fields }

end Draft

mutual

/-- A field as a value. -/
def Entry.toToml : Entry → Toml
  | .value v => v
  | .table _ fields => .table (fieldValues fields)
  | .tables items => .array (tableValues items).reverse

/-- Fields as values. -/
def fieldValues : List (String × Entry) → List (String × Toml)
  | [] => []
  | (name, entry) :: rest => (name, entry.toToml) :: fieldValues rest

/-- Tables as values. -/
def tableValues : List (List (String × Entry)) → List Toml
  | [] => []
  | fields :: rest => .table (fieldValues fields) :: tableValues rest

end

end ScriptWarden.Toml
