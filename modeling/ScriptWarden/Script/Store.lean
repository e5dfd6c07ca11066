import ScriptWarden.Script.Registry

/-!
# Stores

What a service does to the files of its host: taking uploads, removing scripts, and naming the
script to be run at boot. What was changed before something failed stays changed. New content is
written to another name first and then given its own, so no reader sees a part of it.
-/

namespace ScriptWarden

/-- The files of a host, what a service knows of its scripts, and the time. -/
structure Store where
  files : Files
  registry : Registry
  now : Timestamp
deriving DecidableEq, Repr, Inhabited

/-- Work on a store. What it changed before it failed stays changed. -/
abbrev StoreWork (α : Type) := ExceptT Fault (StateM Store) α

namespace Store

/-- The site of a store. -/
def site (s : Store) : Site := s.registry.site

/-- Change the files, unless the host answers that it cannot. An obstacle is a fault that lies
outside what is known of the host. -/
def change (f : Store → Except IoFault Files) (obstacle : Option IoFault := none) :
    StoreWork Unit := fun s =>
  match obstacle with
  | some fault => (.error (.io fault), s)
  | none =>
    match f s with
    | .ok files => (.ok (), { s with files })
    | .error fault => (.error (.io fault), s)

/-- Look at the store. -/
def view (f : Store → Except Fault α) : StoreWork α := fun s => (f s, s)

/-- Ask the registry, which may remember what it found. -/
def ask (f : Registry → Files → Except Fault α × Registry) : StoreWork α := fun s =>
  let (answer, registry) := f s.registry s.files
  (answer, { s with registry })

/-- Forget the analysis of a script. -/
def forget (n : ScriptName) : StoreWork Unit :=
  modify fun s => { s with registry := s.registry.forget n }

-- ---------------------------------------------------------------------------
-- Writing beside and renaming
-- ---------------------------------------------------------------------------

/-- The steps of taking an upload that the host may fail at: reading which scripts there are, and
writing a file beside its place and moving it there. -/
inductive PlacingStep where
  | readNames
  | makeDirectory
  | openDraft
  | writeByte (index : Nat)
  | rename
deriving DecidableEq, Repr, Inhabited

/-- Write bytes to an open file. Those before an obstacle stay written. -/
def writeBytes (id : FileId) (bytes : List UInt8) (obstacle : PlacingStep → Option IoFault) :
    StoreWork Unit := fun s =>
  let stops := (List.range bytes.length).findSome? fun i =>
    (obstacle (.writeByte i)).map fun fault => (i, fault)
  match stops with
  | none => (.ok (), { s with files := s.files.append s.now id bytes })
  | some (i, fault) => (.error (.io fault), { s with files := s.files.append s.now id (bytes.take i) })

/-- Let a file hold bytes: write them to a draft and give that the name of the file. -/
def placeFile (draft target : String) (bytes : List UInt8)
    (obstacle : PlacingStep → Option IoFault := fun _ => none) : StoreWork Unit := do
  if let some fault := obstacle .openDraft then throw (.io fault)
  let s ← get
  match s.files.openEmpty s.now (s.site.seen draft) with
  | .error fault => throw (.io fault)
  | .ok (id, files) =>
    set { s with files }
    writeBytes id bytes obstacle
    change (fun s => s.files.rename (s.site.seen draft) (s.site.seen target)) (obstacle .rename)

-- ---------------------------------------------------------------------------
-- Scripts
-- ---------------------------------------------------------------------------

/-- What became of an upload. -/
structure Upload where
  name : ScriptName
  verdict : Verdict
  /-- Where the script is, if it was taken. -/
  savedTo : Option String
deriving DecidableEq, Repr, Inhabited

/-- The modules that the scripts in the directory are imported by, if the host tells. -/
def knownModules (obstacle : Option IoFault) (s : Store) : Except Fault (List String) :=
  match obstacle with
  | some fault => .error (.io fault)
  | none => s.registry.modules s.files

/-- Take an upload: a script that is valid replaces the one of its name, and no other is ever
written. -/
def saveUpload (fileName : String) (bytes : List UInt8)
    (obstacle : PlacingStep → Option IoFault := fun _ => none) : StoreWork Upload := do
  let name ← view fun _ => parseName fileName
  let some text := decodeUtf8? bytes | throw (.notUtf8 name.text)
  let known ← view (knownModules (obstacle .readNames))
  let registry := (← get).registry
  let verdict := registry.rules.validate text name.text known
  if !verdict.isValid then return { name, verdict, savedTo := none }
  let site := registry.site
  change (fun s => s.files.makeDirectories (site.seen site.scriptsDir)) (obstacle .makeDirectory)
  placeFile (site.uploadPath name) (site.scriptPath name) bytes obstacle
  forget name
  return { name, verdict, savedTo := some (site.scriptPath name) }

/-- Remove the file of a script. -/
def removeScript (n : ScriptName) : StoreWork Unit := fun s =>
  match s.files.remove (s.site.seen (s.site.scriptPath n)) with
  | .ok files => (.ok (), { s with files })
  | .error fault => (.error (Fault.ofHost n.text fault), s)

/-- Remove the log of a script, as far as that can be done. -/
def removeLog (n : ScriptName) : StoreWork Unit :=
  modify fun s =>
    match s.files.remove (s.site.seen (s.site.logPath n)) with
    | .ok files => { s with files }
    | .error _ => s

/-- Remove a script and its log. -/
def deleteScript (n : ScriptName) : StoreWork Unit := do
  removeScript n
  forget n
  removeLog n

-- ---------------------------------------------------------------------------
-- The script to be run at boot
-- ---------------------------------------------------------------------------

/-- The name that the file of the designation holds, if it holds one. Blanks around it do not
count. -/
def designated (s : Store) : Except Fault (Option String) :=
  match s.files.readText (s.site.seen s.site.autobootFile) with
  | .ok text =>
    let name := trimBlanks text
    .ok (if name.isEmpty then none else some name)
  | .error .notFound => .ok none
  | .error fault => .error (.io fault)

/-- What the file of a designation holds. -/
def designationBytes (n : ScriptName) : List UInt8 := encodeUtf8 (n.text ++ "\n")

/-- Write the designation of a script. -/
def writeDesignation (n : ScriptName) : StoreWork Unit := do
  let site := (← get).site
  if let some directory := site.designationDir? then
    change fun s => s.files.makeDirectories (site.seen directory)
  placeFile site.designationDraft site.autobootFile (designationBytes n)

/-- Designate a script that is there, valid or not. -/
def designate (n : ScriptName) : StoreWork Unit := do
  if !(← view fun s => .ok (s.registry.hasFile s.files n)) then throw (.notFound n.text)
  writeDesignation n

/-- Remove the designation, if there is one. -/
def clearDesignation : StoreWork Unit := fun s =>
  match s.files.remove (s.site.seen s.site.autobootFile) with
  | .ok files => (.ok (), { s with files })
  | .error .notFound => (.ok (), s)
  | .error fault => (.error (.io fault), s)

/-- Remove the designation if it is that of a name; whether it was. -/
def clearDesignationOf (name : String) : StoreWork Bool := do
  if (← view designated) != some name then return false
  clearDesignation
  return true

/-- Designate a script, or let it be designated no longer; the designation afterwards. -/
def setAutoboot (n : ScriptName) (enabled : Bool) : StoreWork (Option String) := do
  if enabled then designate n else discard (clearDesignationOf n.text)
  view designated

/-- Remove a script, its log and its designation. -/
def retireScript (n : ScriptName) : StoreWork Unit := do
  deleteScript n
  discard (clearDesignationOf n.text)

end Store

end ScriptWarden
