import ScriptWarden.Rehearsal.Launches

/-!
# The program

The command line program. The files that a command looks at are read before it begins, and those that
it changed are written after it has ended. In between everything happens on a host of the library,
which also has the programs that scripts run in; so nothing is started outside of it.
-/

namespace ScriptWarden

namespace CommandLine

-- ---------------------------------------------------------------------------
-- Reading
-- ---------------------------------------------------------------------------

/-- A moment that the system tells. -/
def momentOf (t : IO.FS.SystemTime) : Timestamp := { seconds := t.sec, nanos := t.nsec.toNat }

/-- The current moment: that in which a file is made. -/
def currentMoment : IO Timestamp := do
  let (_, path) ← IO.FS.createTempFile
  let info ← path.metadata
  IO.FS.removeFile path
  return momentOf info.modified

/-- Let files hold one more, with the directories that lead to it. -/
def withFile (fs : Files) (path : String) (modified : Timestamp) (bytes : ByteArray) : Files :=
  let fs := ((Files.parentPath? path).bind fun parent => (fs.makeDirectories parent).toOption).getD fs
  (fs.write modified path bytes.toList).toOption.getD fs

/-- Read the file at a path, or the files in the directory there. -/
def readPlace (fs : Files) (path : String) : IO Files := do
  let place := (← IO.currentDir) / path
  let readFile := fun (fs : Files) (name : String) => do
    let file := place / name
    if (← file.pathExists) && !(← file.isDir) then
      let info ← file.metadata
      return withFile fs file.toString (momentOf info.modified) (← IO.FS.readBinFile file)
    else return fs
  if ← place.isDir then
    let fs := (fs.makeDirectories place.toString).toOption.getD fs
    (← place.readDir).foldlM (fun fs entry => readFile fs entry.fileName) fs
  else if ← place.pathExists then
    let info ← place.metadata
    return withFile fs place.toString (momentOf info.modified) (← IO.FS.readBinFile place)
  else return fs

/-- The places that an order with some settings looks at. -/
def placesOf (c : Config) : Order → List String
  | .validate file => [file, c.scriptsDir]
  | _ => [c.scriptsDir, c.logDir, c.autobootFile]

/-- Read what a command looks at. -/
def readFiles (t : Terminal) (words : List String) (fs : Files) : IO Files := do
  match Arguments.read words with
  | .order order named =>
    let path := Order.settingsFile t named
    let fs ← readPlace fs path
    match Config.loadOrStandard fs t.home t.workingDir path with
    | .ok c => (placesOf c order).foldlM readPlace fs
    | .error _ => return fs
  | _ => return fs

-- ---------------------------------------------------------------------------
-- Writing
-- ---------------------------------------------------------------------------

/-- Whether two hosts' files differ at a place. -/
def differs (old new : Files) (p : FilePlace) : Bool :=
  match old.entryAt? p, new.entryAt? p with
  | some (.file a), some (.file b) => old.body a != new.body b
  | a, b => a != b

/-- Put down what a command changed. -/
def writeFiles (old new : Files) : IO Unit := do
  let here ← IO.currentDir
  for (p, entry) in old.entries do
    if let .file _ := entry then
      if (new.entryAt? p).isNone then IO.FS.removeFile (here / Files.placeText p)
  for (p, entry) in new.entries.reverse do
    if differs old new p then
      match entry with
      | .directory => IO.FS.createDirAll (here / Files.placeText p)
      | .file id =>
        IO.FS.createDirAll (here / Files.placeText p.dropLast)
        IO.FS.writeBinFile (here / Files.placeText p) (ByteArray.mk (new.body id).bytes.toArray)
      | .link _ => pure ()

-- ---------------------------------------------------------------------------
-- Running
-- ---------------------------------------------------------------------------

/-- How commands are written. -/
def usage : String :=
  "Usage: pyrunner [--config FILE] [--verbose] [--quiet] COMMAND\n\n" ++
  "Commands:\n" ++
  "  validate FILE                check a script against the security policy\n" ++
  "  list [--long]                list the scripts and the processes that run them\n" ++
  "  boot                         run the script for the boot\n" ++
  "  autoboot show|set NAME|clear show or change the script for the boot\n" ++
  "  config show|path|init        show or create the configuration\n"

/-- Carry out a command line; the code that the program ends with. -/
def run (words : List String) : IO UInt32 := do
  let home := (← IO.getEnv "HOME").getD "/"
  let workingDir := (← IO.currentDir).toString
  let rehearsal := Rehearsal.begin workingDir home (Config.standard home) []
  let terminal : Terminal := { home, workingDir, hostname := Rehearsal.hostname }
  let files ← readFiles terminal words rehearsal.host.files
  let now := (← currentMoment).toNanos.toNat
  let (result, after) :=
    (Rehearsal.runCommand home words).run { rehearsal with host := { rehearsal.host with files, now } }
  writeFiles files after.host.files
  let report := match result with
    | .ok report => report
    | .error fault => Report.failed fault.message
  let report := match Arguments.read words with
    | .order .. => report
    | .help => report.print usage
    | .usageError => report.printBeside usage
  (← IO.getStdout).write (ByteArray.mk report.out.toArray)
  (← IO.getStderr).putStr report.err
  return report.code.toUInt32

end CommandLine

end ScriptWarden

/-- The program carries out the command line that it is started with. -/
def main (words : List String) : IO UInt32 := ScriptWarden.CommandLine.run words
