import ScriptWarden.Fault
import ScriptWarden.Script.Site
import ScriptWarden.Wire.Record

/-!
# Registries

What a service knows of the scripts in its directory. The directory is what counts: names are read
from it every time, and so are the modules that other scripts may import. Only the analysis of a
file is remembered, as long as the file has the size and the time that it had.
-/

namespace ScriptWarden

/-- The analysis of a file, and the state of the file that it was made from. -/
structure Remembered where
  size : Nat
  modified : Timestamp
  analysis : Analysis
deriving DecidableEq, Repr, Inhabited

/-- What a service knows of its scripts. -/
structure Registry where
  site : Site
  policy : Policy
  remembered : List (ScriptName × Remembered) := []
deriving DecidableEq, Repr, Inhabited

namespace Registry

/-- The registry of a configuration. -/
def ofConfig (c : Config) (workingDir : String) : Registry :=
  { site := Site.ofConfig c workingDir, policy := c.policy }

/-- The rules that scripts are checked by. -/
def rules (r : Registry) : Rules := { policy := r.policy, scriptsDir := r.site.scriptsDir }

-- ---------------------------------------------------------------------------
-- Names
-- ---------------------------------------------------------------------------

/-- The script that an entry of a directory is. Directories and links are none. -/
def scriptIn? : String × Entry → Option ScriptName
  | (name, .file _) => (ScriptName.parse name).toOption
  | _ => none

/-- The scripts in the directory, in increasing order. A directory that is not there has none. -/
def names (r : Registry) (fs : Files) : Except Fault (List ScriptName) :=
  match fs.list (r.site.seen r.site.scriptsDir) with
  | .ok entries =>
    .ok ((entries.filterMap scriptIn?).mergeSort fun a b => decide (a.text ≤ b.text))
  | .error .notFound => .ok []
  | .error f => .error (.io f)

/-- The modules that the scripts in the directory are imported by. -/
def modules (r : Registry) (fs : Files) : Except Fault (List String) :=
  (r.names fs).map fun ns => ns.map ScriptName.module

/-- Whether there is a file for a script. -/
def hasFile (r : Registry) (fs : Files) (n : ScriptName) : Bool :=
  fs.isFile (r.site.seen (r.site.scriptPath n))

-- ---------------------------------------------------------------------------
-- Files of scripts
-- ---------------------------------------------------------------------------

/-- What the file of a script holds. -/
def bytes (r : Registry) (fs : Files) (n : ScriptName) : Except Fault (List UInt8) :=
  (fs.read (r.site.seen (r.site.scriptPath n))).mapError (Fault.ofHost n.text)

/-- What the file of a script holds, as text. -/
def source (r : Registry) (fs : Files) (n : ScriptName) : Except Fault String := do
  match decodeUtf8? (← r.bytes fs n) with
  | some text => .ok text
  | none => .error (.notUtf8 n.text)

/-- Look at the file of a script without opening it. What is no file is not found. -/
def look (r : Registry) (fs : Files) (n : ScriptName) : Except Fault FileInfo :=
  match fs.info (r.site.seen (r.site.scriptPath n)) with
  | .ok info => if info.isFile then .ok info else .error (.notFound n.text)
  | .error f => .error (Fault.ofHost n.text f)

/-- The last log of a script, if there is one. -/
def log (r : Registry) (fs : Files) (n : ScriptName) : Except Fault (Option String) :=
  match fs.read (r.site.seen (r.site.logPath n)) with
  | .ok bytes => .ok (some (decodeLossy bytes))
  | .error .notFound => .ok none
  | .error f => .error (.io f)

/-- Whether there is a log of a script. -/
def hasLog (r : Registry) (fs : Files) (n : ScriptName) : Bool :=
  fs.isFile (r.site.seen (r.site.logPath n))

-- ---------------------------------------------------------------------------
-- Analyses
-- ---------------------------------------------------------------------------

/-- The analysis of what a file holds. -/
def analyzeBytes (r : Registry) (n : ScriptName) (bytes : List UInt8) : Analysis :=
  match decodeUtf8? bytes with
  | some text => r.rules.analyzeScript text n.text
  | none => { problems := [.notText] }

/-- Read the file of a script and analyse it. -/
def judge (r : Registry) (fs : Files) (n : ScriptName) : Except Fault Analysis :=
  (r.bytes fs n).map (r.analyzeBytes n)

/-- The analysis that is remembered for a file in a state. -/
def remembered? (r : Registry) (n : ScriptName) (info : FileInfo) : Option Analysis :=
  match r.remembered.lookup n with
  | some m =>
    if m.size == info.size && m.modified == info.modified then some m.analysis else none
  | none => none

/-- Forget the analysis of a script. -/
def forget (r : Registry) (n : ScriptName) : Registry :=
  { r with remembered := r.remembered.filter (·.1 != n) }

/-- Remember an analysis for a file in a state. -/
def remember (r : Registry) (n : ScriptName) (info : FileInfo) (a : Analysis) : Registry :=
  { r with
    remembered := (n, { size := info.size, modified := info.modified, analysis := a }) ::
      (r.forget n).remembered }

/-- Remember only scripts that are there. -/
def retain (r : Registry) (there : List ScriptName) : Registry :=
  { r with remembered := r.remembered.filter fun m => there.contains m.1 }

/-- The state and the analysis of a script's file: the one that is remembered, or a new one, which
is remembered from then on. -/
def analysis (r : Registry) (fs : Files) (n : ScriptName) :
    Except Fault (FileInfo × Analysis) × Registry :=
  match r.look fs n with
  | .error f => (.error f, r)
  | .ok info =>
    match r.remembered? n info with
    | some a => (.ok (info, a), r)
    | none =>
      match r.judge fs n with
      | .error f => (.error f, r)
      | .ok a => (.ok (info, a), r.remember n info a)

/-- The verdict on a script among those that are there now. -/
def verdict (r : Registry) (fs : Files) (n : ScriptName) : Except Fault Verdict × Registry :=
  let (found, r) := r.analysis fs n
  (do return (← found).2.resolve (← r.modules fs), r)

-- ---------------------------------------------------------------------------
-- Records
-- ---------------------------------------------------------------------------

/-- What is told of a script: the state of its file, its verdict, and what others know of it. -/
def recordOf (n : ScriptName) (info : FileInfo) (v : Verdict) (running hasLog isAutoboot : Bool) :
    ScriptRecord where
  name := n.text
  size := UInt64.ofNat info.size
  modified := info.modified
  isValid := v.isValid
  isExecutable := v.isExecutable
  isRunning := running
  hasLog := hasLog
  isAutoboot := isAutoboot
  errors := v.errors
  missing := v.missing
  validity := v.validity
  dependencies := v.dependencies
  state := .ofRunning running

/-- The record of a script among known modules. -/
def recordAmong (r : Registry) (fs : Files) (known : List String) (running : Bool)
    (designated : Option String) (n : ScriptName) : Except Fault ScriptRecord × Registry :=
  let (found, r) := r.analysis fs n
  (found.map fun (info, a) =>
    recordOf n info (a.resolve known) running (r.hasLog fs n) (designated == some n.text), r)

/-- The record of a script. -/
def record (r : Registry) (fs : Files) (running : Bool) (designated : Option String)
    (n : ScriptName) : Except Fault ScriptRecord × Registry :=
  match r.modules fs with
  | .error f => (.error f, r)
  | .ok known => r.recordAmong fs known running designated n

/-- The records of scripts among known modules. A script that is gone by now is passed over. -/
def recordsAmong (r : Registry) (fs : Files) (known : List String) (running : ScriptName → Bool)
    (designated : Option String) : List ScriptName → Except Fault (List ScriptRecord) × Registry
  | [] => (.ok [], r)
  | n :: rest =>
    match r.recordAmong fs known (running n) designated n with
    | (.ok first, r) =>
      let (others, r) := recordsAmong r fs known running designated rest
      (others.map (first :: ·), r)
    | (.error (.notFound _), r) => recordsAmong r fs known running designated rest
    | (.error f, r) => (.error f, r)

/-- The records of all scripts in the directory, in increasing order of their names. Analyses of
scripts that are gone are forgotten. -/
def records (r : Registry) (fs : Files) (running : ScriptName → Bool)
    (designated : Option String) : Except Fault (List ScriptRecord) × Registry :=
  match r.names fs with
  | .error f => (.error f, r)
  | .ok ns =>
    match r.recordsAmong fs (ns.map ScriptName.module) running designated ns with
    | (.ok rs, r) => (.ok rs, r.retain ns)
    | (.error f, r) => (.error f, r)

end Registry

end ScriptWarden
