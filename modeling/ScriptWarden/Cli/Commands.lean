import ScriptWarden.Boot.Launcher
import ScriptWarden.Cli.Arguments
import ScriptWarden.Config.Stored
import ScriptWarden.Listing.Records
import ScriptWarden.Text.Quoted

/-!
# Commands

What the commands of the command line do and write. Each begins from the files of the host alone;
only the run of the script for the boot takes time, so it is begun and ended here and goes on
elsewhere.
-/

namespace ScriptWarden

/-- What a command wrote and the code that it ended with. -/
structure Report where
  code : Nat := 0
  out : List UInt8 := []
  err : String := ""
deriving DecidableEq, Repr, Inhabited

/-- Where a command is carried out. -/
structure Terminal where
  home : String
  workingDir : String
  hostname : String
deriving DecidableEq, Repr, Inhabited

namespace Report

/-- A line with a coloured mark before it. -/
def marked (colour : Nat) (mark message : String) : String :=
  "\x1b[38;5;" ++ toString colour ++ "m" ++ mark ++ " \x1b[0m" ++ message ++ "\n"

/-- Write to the output. -/
def print (r : Report) (text : String) : Report := { r with out := r.out ++ encodeUtf8 text }

/-- Write beside the output. -/
def printBeside (r : Report) (text : String) : Report := { r with err := r.err ++ text }

/-- Tell that something was done. -/
def success (r : Report) (message : String) : Report := r.print (marked 10 "✓" message)

/-- Tell something. -/
def info (r : Report) (message : String) : Report := r.print (marked 14 "ℹ" message)

/-- Tell that something is not as it should be. -/
def warning (r : Report) (message : String) : Report := r.printBeside (marked 11 "⚠" message)

/-- Tell that something went wrong. -/
def error (r : Report) (message : String) : Report := r.printBeside (marked 9 "✗" message)

/-- End with an error. -/
def failed (message : String) : Report := ({ code := 1 } : Report).error message

end Report

/-- The wording of a fault, followed by that of its cause. -/
def Fault.chain (f : Fault) : String :=
  f.message ++ (f.cause?.map fun cause => ": " ++ cause).getD ""

namespace Order

/-- The file of the settings: the one named, or that of the user. -/
def settingsFile (t : Terminal) (named : Option String) : String :=
  named.getD (Config.homeFile t.home)

/-- The settings for a command. -/
def settings (t : Terminal) (fs : Files) (path : String) : Except Report Config :=
  (Config.loadOrStandard fs t.home t.workingDir path).mapError fun fault =>
    .failed ("Failed to load config from " ++ Text.quoted path ++ ": " ++ fault.message)

/-- What may fail with a fault, told together with what was tried. -/
def trying (what : String) (r : Except Fault α) : Except Report α :=
  r.mapError fun fault => .failed (what ++ ": " ++ fault.chain)

/-- What a report comes to, whether all went well or not. -/
def orReport : Except Report Report → Report
  | .ok r | .error r => r

-- ---------------------------------------------------------------------------
-- Scripts
-- ---------------------------------------------------------------------------

/-- The last name of a path, if it is a text. -/
def fileName (path : String) : String :=
  ((BytePath.ofBytes (encodeUtf8 path)).fileName?.bind decodeUtf8?).getD ""

/-- What is told of a verdict. -/
def verdictReport (name : String) (v : Verdict) : Report :=
  if v.isValid then
    let r := ({} : Report).success (name ++ " is valid")
    if v.missing.isEmpty then r
    else r.warning ("Missing dependencies: " ++ ", ".intercalate v.missing)
  else
    let count := toString v.errors.length
    let r := ({ code := 1 } : Report).error (name ++ " has " ++ count ++ " security violation(s)")
    v.errors.foldl (fun r e => r.print ("  " ++ e ++ "\n")) r

/-- Check a file as if it were one of the scripts. -/
def validateFile (t : Terminal) (c : Config) (fs : Files) (file : String) : Report :=
  orReport do
    let text ← (fs.readText (Config.seenFrom t.workingDir file)).mapError fun fault =>
      .failed ("Failed to read " ++ file ++ ": " ++ fault.message)
    let registry := Registry.ofConfig c t.workingDir
    let known ← trying ("Failed to read " ++ c.scriptsDir) (registry.modules fs)
    let name := fileName file
    return verdictReport name (registry.rules.validate text name known)

/-- List the scripts and the processes that run them. -/
def listScripts (t : Terminal) (c : Config) (h : Host) (long : Bool) : Report :=
  orReport do
    let service := Service.new c t.workingDir t.hostname h.files
    let store : Store := { files := h.files, registry := service.registry, now := h.now.timestamp }
    let designated ← trying "Failed to read autoboot designation" store.designated
    let processes := service.scanner.scan h.files h.self [] h.processTable
    let running := fun (n : ScriptName) => processes.any (·.name == n.text)
    let records ← trying ("Failed to list " ++ c.scriptsDir)
      (service.registry.records h.files running designated).1
    let r := (({} : Report).print ("Scripts in " ++ c.scriptsDir ++ ":\n")).print
      (scriptListing long records ++ "\n")
    return if processes.isEmpty then r
      else r.print ("\nRunning Processes:\n" ++ processListing processes ++ "\n")

-- ---------------------------------------------------------------------------
-- The designation
-- ---------------------------------------------------------------------------

/-- The store of a command. -/
def storeOf (t : Terminal) (c : Config) (h : Host) : Store :=
  { files := h.files, registry := Registry.ofConfig c t.workingDir, now := h.now.timestamp }

/-- Show the designation. -/
def reportAutoboot (t : Terminal) (c : Config) (h : Host) : Report :=
  orReport do
    let store := storeOf t c h
    match ← trying "Failed to read autoboot designation" store.designated with
    | none => return ({} : Report).info "No autoboot script configured"
    | some name =>
      let r := ({} : Report).print (name ++ "\n")
      let place := store.site.seen (joinPath c.scriptsDir name)
      return if h.files.isFile place then r
        else r.warning (name ++ " no longer exists in " ++ c.scriptsDir)

/-- Designate a script. -/
def changeAutoboot (t : Terminal) (c : Config) (name : String) (h : Host) : Report × Host :=
  match parseName name with
  | .error fault => (.failed fault.message, h)
  | .ok n =>
    let (result, store) := (Store.designate n).run (storeOf t c h)
    let h := { h with files := store.files }
    match result with
    | .ok _ => (({} : Report).success (n.text ++ " will run at boot"), h)
    | .error (.notFound _) => (.failed ("Script not found: " ++ c.scriptPath n.text), h)
    | .error fault => (.failed ("Failed to write autoboot designation: " ++ fault.chain), h)

/-- Remove the designation. -/
def removeAutoboot (t : Terminal) (c : Config) (h : Host) : Report × Host :=
  let (result, store) := Store.clearDesignation.run (storeOf t c h)
  let h := { h with files := store.files }
  match result with
  | .ok _ => (({} : Report).success "Autoboot cleared", h)
  | .error fault => (.failed ("Failed to clear autoboot designation: " ++ fault.chain), h)

-- ---------------------------------------------------------------------------
-- Settings
-- ---------------------------------------------------------------------------

/-- Show the settings that count. -/
def reportConfig (t : Terminal) (fs : Files) (path : String) : Report :=
  orReport do
    let c ← settings t fs path
    let isThere := fs.pathExists (Config.seenFrom t.workingDir path)
    let shown := if isThere then "Configuration file: " ++ Text.quoted path
      else "No configuration file at " ++ Text.quoted path ++ ", showing defaults"
    let r := (({} : Report).info shown).print "\n"
    match c.text? with
    | some text => return r.print (text ++ "\n")
    | none =>
      return { r with code := 1 }.error
        "Failed to render configuration: out-of-range value for u64 type"

/-- Write a file with the settings that count without one. -/
def createConfig (t : Terminal) (path : String) (force : Bool) (h : Host) : Report × Host :=
  if h.files.pathExists (Config.seenFrom t.workingDir path) && !force then
    ((({} : Report).error ("Config file already exists: " ++ Text.quoted path)).info
      "Use --force to overwrite", h)
  else
    match (Config.standard t.home).save h.files h.now.timestamp t.workingDir path with
    | .ok files =>
      (({} : Report).success ("Created configuration file: " ++ Text.quoted path), { h with files })
    | .error fault =>
      (.failed ("Failed to write config file: " ++ Text.quoted path ++ ": " ++ fault.message), h)

-- ---------------------------------------------------------------------------
-- The boot
-- ---------------------------------------------------------------------------

/-- What is told of a boot that could not begin. -/
def bootFailure : Fault → Report
  | .notExecutable name reason =>
    let r := Report.failed ("Autoboot script " ++ name ++ " is not executable")
    match reason with
    | .invalid errors => errors.foldl (fun r e => r.printBeside ("  " ++ e ++ "\n")) r
    | reason => r.printBeside ("  " ++ reason.message ++ "\n")
  | fault => .failed ("Autoboot failed: " ++ fault.message)

/-- What is told of a boot that has ended, after what the script wrote. -/
def bootReport (copied : List UInt8) : BootOutcome → Report
  | .nothing => ({} : Report).info "No autoboot script configured"
  | .exited script exit =>
    let code := (BootOutcome.exited script exit).code.toInt
    { code := (min 255 (max 0 code)).toNat, out := copied }

/-- What beginning a command comes to. -/
inductive Begun where
  | ended (report : Report)
  /-- The script for the boot runs in a service of its own. -/
  | booting (service : Service) (run : BootRun)

/-- Begin to run the script for the boot. -/
def beginBoot (t : Terminal) (c : Config) (h : Host) : Begun × Host :=
  let service := Service.new c t.workingDir t.hostname h.files
  let (result, d) := BootRun.begin.run { host := h, service }
  match result with
  | .error fault => (.ended (bootFailure fault), d.host)
  | .ok none => (.ended (bootReport [] .nothing), d.host)
  | .ok (some run) => (.booting d.service run, d.host)

-- ---------------------------------------------------------------------------
-- All of them
-- ---------------------------------------------------------------------------

/-- Begin what a command line asks for. Nothing is told of serving: that ends with the service. -/
def begin (t : Terminal) (o : Order) (named : Option String) (h : Host) : Begun × Host :=
  let path := settingsFile t named
  let withSettings := fun (f : Config → Begun × Host) =>
    match settings t h.files path with
    | .ok c => f c
    | .error r => (.ended r, h)
  let ended := fun (r : Report × Host) => (Begun.ended r.1, r.2)
  match o with
  | .configPath => (.ended (({} : Report).print (path ++ "\n")), h)
  | .showConfig => (.ended (reportConfig t h.files path), h)
  | .initConfig force => ended (createConfig t path force h)
  | .serve _ => withSettings fun _ => (.ended {}, h)
  | .validate file => withSettings fun c => (.ended (validateFile t c h.files file), h)
  | .list long => withSettings fun c => (.ended (listScripts t c h long), h)
  | .boot => withSettings fun c => beginBoot t c h
  | .showAutoboot => withSettings fun c => (.ended (reportAutoboot t c h), h)
  | .setAutoboot name => withSettings fun c => ended (changeAutoboot t c name h)
  | .clearAutoboot => withSettings fun c => ended (removeAutoboot t c h)

end Order

end ScriptWarden
