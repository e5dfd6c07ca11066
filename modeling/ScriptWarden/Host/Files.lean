import ScriptWarden.Clock.Timestamp
import ScriptWarden.Host.IoFault
import ScriptWarden.Text.Cut
import ScriptWarden.Text.Utf8

/-!
# Files

The files of a host: names in directories, each of which stands for a file, a directory or a link.
A file has an identity besides its name, so one that is open stays the same file when it is renamed
or its name is given to another. Paths begin at the root; links in them are followed.
-/

namespace ScriptWarden

/-- Where something lies: the names from the root on. -/
abbrev FilePlace := List String

/-- The identity of a file. -/
abbrev FileId := Nat

/-- What a name stands for. -/
inductive Entry where
  | file (id : FileId)
  | directory
  /-- Another path, seen from the directory that the name is in. -/
  | link (target : String)
deriving DecidableEq, Repr, Inhabited

/-- What a file holds, and when that was written. -/
structure FileBody where
  bytes : List UInt8
  modified : Timestamp
deriving DecidableEq, Repr, Inhabited

/-- What is known of something without opening it. -/
structure FileInfo where
  isFile : Bool
  isDirectory : Bool
  size : Nat
  modified : Timestamp
deriving DecidableEq, Repr, Inhabited

/-- The files of a host. -/
structure Files where
  /-- What each name stands for; the root is a directory. -/
  entries : List (FilePlace × Entry) := []
  bodies : List (FileId × FileBody) := []
  nextId : FileId := 0
deriving DecidableEq, Repr, Inhabited

namespace Files

/-- What a place holds. -/
def entryAt? (fs : Files) (p : FilePlace) : Option Entry :=
  if p.isEmpty then some .directory else fs.entries.lookup p

/-- Let a place hold something. -/
def setEntry (fs : Files) (p : FilePlace) (e : Entry) : Files :=
  { fs with entries := (p, e) :: fs.entries.filter (·.1 != p) }

/-- Let a place hold nothing. -/
def clearEntry (fs : Files) (p : FilePlace) : Files :=
  { fs with entries := fs.entries.filter (·.1 != p) }

/-- What a file holds. -/
def body (fs : Files) (id : FileId) : FileBody := (fs.bodies.lookup id).getD default

/-- Let a file hold something. -/
def setBody (fs : Files) (id : FileId) (body : FileBody) : Files :=
  { fs with bodies := (id, body) :: fs.bodies.filter (·.1 != id) }

-- ---------------------------------------------------------------------------
-- Paths
-- ---------------------------------------------------------------------------

/-- The steps of a path. A slash at the end asks for a directory, as a dot does. -/
def steps (path : String) : List String :=
  let names := (cutAt '/' path).filter (· != "")
  if path.endsWith "/" then names ++ ["."] else names

/-- How many steps are taken before links are held to lead in circles. -/
def stepLimit : Nat := 4096

/-- How many bytes a name may have. -/
def nameLimit : Nat := 255

/-- Where steps lead from a place. The last step need not lead to anything; if it leads to a link,
that is followed only if asked for. -/
def walk (fs : Files) (follow : Bool) : Nat → FilePlace → List String → Except IoFault FilePlace
  | 0, _, _ => .error .tooManyLinks
  | _, p, [] => .ok p
  | n + 1, p, s :: rest =>
    if fs.entryAt? p != some .directory then .error .notADirectory
    else if s == "." then walk fs follow n p rest
    else if s == ".." then walk fs follow n p.dropLast rest
    else if nameLimit < s.utf8ByteSize then .error .nameTooLong
    else
      let next := p ++ [s]
      match fs.entryAt? next with
      | some (.link target) =>
        if rest.isEmpty && !follow then .ok next
        else walk fs follow n (if target.startsWith "/" then [] else p) (steps target ++ rest)
      | some .directory => walk fs follow n next rest
      | some (.file _) => if rest.isEmpty then .ok next else .error .notADirectory
      | none => if rest.isEmpty then .ok next else .error .notFound

/-- The place of a path. -/
def place (fs : Files) (path : String) (follow : Bool := true) : Except IoFault FilePlace :=
  if path.isEmpty then .error .notFound
  else if path.toList.contains '\x00' then .error .nulInPath
  else fs.walk follow stepLimit [] (steps path)

/-- The place of a path that leads to something. -/
def existing (fs : Files) (path : String) : Except IoFault (FilePlace × Entry) := do
  let p ← fs.place path
  match fs.entryAt? p with
  | some e => .ok (p, e)
  | none => .error .notFound

/-- A place as a path. -/
def placeText (p : FilePlace) : String := "/" ++ "/".intercalate p

/-- The path of something without links. -/
def realPath (fs : Files) (path : String) : Except IoFault String :=
  (fs.existing path).map fun (p, _) => placeText p

-- ---------------------------------------------------------------------------
-- Looking
-- ---------------------------------------------------------------------------

/-- What is known of what a path leads to. -/
def info (fs : Files) (path : String) : Except IoFault FileInfo := do
  let (_, e) ← fs.existing path
  match e with
  | .file id =>
    let b := fs.body id
    .ok { isFile := true, isDirectory := false, size := b.bytes.length, modified := b.modified }
  | _ => .ok { isFile := false, isDirectory := true, size := 4096, modified := default }

/-- Whether a path leads to something. -/
def pathExists (fs : Files) (path : String) : Bool := (fs.existing path).isOk

/-- Whether a path leads to a file. -/
def isFile (fs : Files) (path : String) : Bool :=
  match fs.info path with | .ok i => i.isFile | .error _ => false

/-- Whether a path leads to a directory. -/
def isDirectory (fs : Files) (path : String) : Bool :=
  match fs.info path with | .ok i => i.isDirectory | .error _ => false

/-- What the file at a path holds. -/
def read (fs : Files) (path : String) : Except IoFault (List UInt8) := do
  let (_, e) ← fs.existing path
  match e with
  | .file id => .ok (fs.body id).bytes
  | _ => .error .isADirectory

/-- What the file at a path holds, as text. -/
def readText (fs : Files) (path : String) : Except IoFault String := do
  match decodeUtf8? (← fs.read path) with
  | some text => .ok text
  | none => .error .notText

/-- The names in a place, with what they stand for. -/
def children (fs : Files) (p : FilePlace) : List (String × Entry) :=
  fs.entries.filterMap fun (q, e) =>
    match q.getLast? with
    | some name => if q.dropLast == p then some (name, e) else none
    | none => none

/-- The names in the directory at a path, with what they stand for. -/
def list (fs : Files) (path : String) : Except IoFault (List (String × Entry)) := do
  let (p, e) ← fs.existing path
  if e == .directory then .ok (fs.children p) else .error .notADirectory

-- ---------------------------------------------------------------------------
-- Changing
-- ---------------------------------------------------------------------------

/-- Open a file for writing, empty: the one at a path, or a new one. -/
def openEmpty (fs : Files) (now : Timestamp) (path : String) : Except IoFault (FileId × Files) := do
  let p ← fs.place path
  match fs.entryAt? p with
  | some (.file id) => .ok (id, fs.setBody id { bytes := [], modified := now })
  | some _ => .error .isADirectory
  | none =>
    let id := fs.nextId
    .ok (id, ({ fs with nextId := id + 1 }.setEntry p (.file id)).setBody id
      { bytes := [], modified := now })

/-- Write to the end of a file. -/
def append (fs : Files) (now : Timestamp) (id : FileId) (bytes : List UInt8) : Files :=
  fs.setBody id { bytes := (fs.body id).bytes ++ bytes, modified := now }

/-- Let the file at a path hold bytes. -/
def write (fs : Files) (now : Timestamp) (path : String) (bytes : List UInt8) :
    Except IoFault Files := do
  let (id, fs) ← fs.openEmpty now path
  .ok (fs.append now id bytes)

/-- Make a directory. -/
def makeDirectory (fs : Files) (path : String) : Except IoFault Files := do
  let p ← fs.place path false
  match fs.entryAt? p with
  | some _ => .error .alreadyExists
  | none => .ok (fs.setEntry p .directory)

/-- A path without its last name; none for the root and for a path without names. -/
def parentPath? (path : String) : Option String :=
  let cs := path.toList.reverse.dropWhile (· == '/')
  if cs.isEmpty then none
  else
    let rest := cs.dropWhile (· != '/')
    let parent := (rest.dropWhile (· == '/')).reverse
    some (if parent.isEmpty && !rest.isEmpty then "/" else String.ofList parent)

/-- Make a directory and those above it, as far as they are not there. The fuel bounds how many
there are. -/
def makeDirectoriesFrom : Nat → Files → String → Except IoFault Files
  | 0, fs, _ => .ok fs
  | n + 1, fs, path =>
    if path.isEmpty then .ok fs
    else
      let orThere := fun (fs : Files) (r : Except IoFault Files) =>
        match r with
        | .ok fs => .ok fs
        | .error f => if fs.isDirectory path then .ok fs else .error f
      match fs.makeDirectory path with
      | .error .notFound => do
        match parentPath? path with
        | some parent =>
          let fs ← makeDirectoriesFrom n fs parent
          orThere fs (fs.makeDirectory path)
        | none => .error (.other "failed to create whole tree")
      | r => orThere fs r

/-- Make a directory and those above it, as far as they are not there. -/
def makeDirectories (fs : Files) (path : String) : Except IoFault Files :=
  makeDirectoriesFrom (path.length + 1) fs path

/-- Remove a file or a link. -/
def remove (fs : Files) (path : String) : Except IoFault Files := do
  let p ← fs.place path false
  match fs.entryAt? p with
  | some .directory => .error .isADirectory
  | some _ => .ok (fs.clearEntry p)
  | none => .error .notFound

/-- Remove what a path names, with everything below it. -/
def removeTree (fs : Files) (path : String) : Except IoFault Files := do
  let p ← fs.place path false
  match fs.entryAt? p with
  | some _ => .ok { fs with entries := fs.entries.filter fun e => !p.isPrefixOf e.1 }
  | none => .error .notFound

/-- Give what one path names the name of another; a file there is replaced. -/
def rename (fs : Files) (source target : String) : Except IoFault Files := do
  let p ← fs.place source false
  let q ← fs.place target false
  match fs.entryAt? p, fs.entryAt? q with
  | none, _ => .error .notFound
  | some .directory, some .directory =>
    if p == q then .ok fs else if (fs.children q).isEmpty then .ok (moveTree p q)
    else .error .directoryNotEmpty
  | some .directory, some _ => .error .notADirectory
  | some .directory, none => .ok (moveTree p q)
  | some _, some .directory => .error .isADirectory
  | some e, _ => .ok (if p == q then fs else (fs.clearEntry p).setEntry q e)
where
  /-- Move a directory with everything below it. -/
  moveTree (p q : FilePlace) : Files :=
    { fs with entries := (fs.clearEntry q).entries.map fun e =>
        if p.isPrefixOf e.1 then (q ++ e.1.drop p.length, e.2) else e }

/-- Make a link. -/
def makeLink (fs : Files) (target path : String) : Except IoFault Files := do
  let p ← fs.place path false
  match fs.entryAt? p with
  | some _ => .error .alreadyExists
  | none => .ok (fs.setEntry p (.link target))

/-- Set when the file at a path was written. -/
def setModified (fs : Files) (path : String) (t : Timestamp) : Except IoFault Files := do
  let (_, e) ← fs.existing path
  match e with
  | .file id => .ok (fs.setBody id { fs.body id with modified := t })
  | _ => .ok fs

end Files

end ScriptWarden
