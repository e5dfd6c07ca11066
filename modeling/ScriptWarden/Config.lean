import ScriptWarden.Clock.Duration
import ScriptWarden.Json.Basic
import ScriptWarden.Policy.Basic
import ScriptWarden.Confinement
import ScriptWarden.Toml.Reader
import ScriptWarden.Toml.Writer

/-!
# Configurations

The settings of the service. Each has a default of its own, so a file may leave any of them out;
settings that the service does not know are passed over. Spans of time are written as whole numbers
of milliseconds or seconds.
-/

namespace ScriptWarden

/-- The settings of the service. -/
structure Config where
  /-- Where requests are answered. -/
  bindAddress : String
  /-- The directory of the scripts, in which they also run. -/
  scriptsDir : String
  /-- The directory of the logs. -/
  logDir : String
  /-- The file that names the script to be run at boot. -/
  autobootFile : String
  /-- The program that runs scripts. -/
  interpreter : String
  /-- What the interpreter is told before the path of the script. -/
  interpreterArgs : List String
  /-- The bytes that an upload may have. -/
  maxUpload : Nat
  /-- The bytes of output that are kept of a session. -/
  replayLimit : Nat
  /-- How long a script has to end by itself after it was asked to. -/
  gracePeriod : Duration
  /-- How long the service waits for scripts before it ends itself. -/
  shutdownTimeout : Duration
  policy : Policy
deriving DecidableEq, Repr, Inhabited

namespace Config

/-- The directory of the settings of a user. -/
def homeDir (home : String) : String := joinPath home ".config/pyrunner"

/-- The file of the settings of a user. -/
def homeFile (home : String) : String := joinPath (homeDir home) "config.toml"

/-- The settings that an empty file stands for, for a user with a home directory. -/
def standard (home : String) : Config where
  bindAddress := "0.0.0.0:5000"
  scriptsDir := joinPath home "pythoncode"
  logDir := joinPath home ".local/share/pyrunner/logs"
  autobootFile := joinPath (homeDir home) "autoboot.txt"
  interpreter := "python3"
  interpreterArgs := ["-u"]
  maxUpload := 16 * 1024 * 1024
  replayLimit := 1024 * 1024
  gracePeriod := Duration.ofMillis 500
  shutdownTimeout := Duration.ofSeconds 5
  policy := Policy.standard

/-- The path of a script by its name. -/
def scriptPath (c : Config) (name : String) : String := joinPath c.scriptsDir name

-- ---------------------------------------------------------------------------
-- Reading
-- ---------------------------------------------------------------------------

/-- What a setting is when a value is given for it. -/
abbrev Setting (α : Type) := Toml → Option α

namespace Setting

/-- A text. -/
def text : Setting String
  | .string s => some s
  | _ => none

/-- A whole number. -/
def nat : Setting Nat
  | .integer n => if 0 ≤ n then some n.toNat else none
  | _ => none

/-- A list of texts. -/
def texts : Setting (List String)
  | .array items => items.mapM text
  | _ => none

/-- A whole number of milliseconds. -/
def millis : Setting Duration := fun v => (nat v).map Duration.ofMillis

/-- A whole number of seconds. -/
def seconds : Setting Duration := fun v => (nat v).map fun n => Duration.ofSeconds n

end Setting

/-- The setting of a name, or its default where it is left out. -/
def settingOr (fields : List (String × Toml)) (name : String) (setting : Setting α) (default : α) :
    Option α :=
  match fields.lookup name with
  | some v => setting v
  | none => some default

/-- The names of the lists of a policy, in their order. -/
def policyNames : List String :=
  ["blocked_modules", "blocked_builtins", "blocked_functions", "allowed_modules",
    "third_party_modules", "suspicious_attributes", "allowed_paths"]

/-- A policy from the fields of a table. -/
def policyOfFields (fields : List (String × Toml)) : Option Policy := do
  let standard := Policy.standard
  let list := fun name default => settingOr fields name Setting.texts default
  some { blockedModules := ← list "blocked_modules" standard.blockedModules
         blockedBuiltins := ← list "blocked_builtins" standard.blockedBuiltins
         blockedFunctions := ← list "blocked_functions" standard.blockedFunctions
         allowedModules := ← list "allowed_modules" standard.allowedModules
         thirdPartyModules := ← list "third_party_modules" standard.thirdPartyModules
         suspiciousAttributes := ← list "suspicious_attributes" standard.suspiciousAttributes
         allowedPaths := ← list "allowed_paths" standard.allowedPaths }

/-- A policy: a table, or its lists in their order. A moment has no fields of a policy. -/
def Setting.policy : Setting Policy
  | .table fields => policyOfFields fields
  | .array items => policyOfFields (policyNames.zip items)
  | .moment _ => some Policy.standard
  | _ => none

/-- The settings that the fields of a document give, with defaults for those left out. -/
def ofFields (default : Config) (fields : List (String × Toml)) : Option Config := do
  some { bindAddress := ← settingOr fields "bind_address" Setting.text default.bindAddress
         scriptsDir := ← settingOr fields "scripts_dir" Setting.text default.scriptsDir
         logDir := ← settingOr fields "log_dir" Setting.text default.logDir
         autobootFile := ← settingOr fields "autoboot_file" Setting.text default.autobootFile
         interpreter := ← settingOr fields "interpreter" Setting.text default.interpreter
         interpreterArgs :=
           ← settingOr fields "interpreter_args" Setting.texts default.interpreterArgs
         maxUpload := ← settingOr fields "max_upload_bytes" Setting.nat default.maxUpload
         replayLimit := ← settingOr fields "replay_buffer_bytes" Setting.nat default.replayLimit
         gracePeriod :=
           ← settingOr fields "stop_grace_period" Setting.millis default.gracePeriod
         shutdownTimeout :=
           ← settingOr fields "shutdown_timeout" Setting.seconds default.shutdownTimeout
         policy := ← settingOr fields "validation" Setting.policy default.policy }

/-- The settings that a text gives. -/
def parse? (default : Config) (text : String) : Option Config :=
  (Toml.parse? text).bind (ofFields default)

-- ---------------------------------------------------------------------------
-- Writing
-- ---------------------------------------------------------------------------

/-- A policy as the fields of a table. -/
def policyFields (p : Policy) : List (String × Toml) :=
  [("blocked_modules", .strings p.blockedModules), ("blocked_builtins", .strings p.blockedBuiltins),
   ("blocked_functions", .strings p.blockedFunctions), ("allowed_modules", .strings p.allowedModules),
   ("third_party_modules", .strings p.thirdPartyModules),
   ("suspicious_attributes", .strings p.suspiciousAttributes),
   ("allowed_paths", .strings p.allowedPaths)]

/-- The settings as the fields of a document. -/
def toFields (c : Config) : List (String × Toml) :=
  [("bind_address", .string c.bindAddress), ("scripts_dir", .string c.scriptsDir),
   ("log_dir", .string c.logDir), ("autoboot_file", .string c.autobootFile),
   ("interpreter", .string c.interpreter), ("interpreter_args", .strings c.interpreterArgs),
   ("max_upload_bytes", .integer c.maxUpload), ("replay_buffer_bytes", .integer c.replayLimit),
   ("stop_grace_period", .integer c.gracePeriod.milliWord),
   ("shutdown_timeout", .integer (c.shutdownTimeout.wholeSeconds)),
   ("validation", .table (policyFields c.policy))]

/-- Whether the numbers of the settings can be written. -/
def isWritable (c : Config) : Bool :=
  [c.maxUpload, c.replayLimit, c.gracePeriod.milliWord, c.shutdownTimeout.wholeSeconds].all
    fun n => Toml.isInteger n

/-- The text of the settings, if their numbers can be written. -/
def text? (c : Config) : Option String :=
  if c.isWritable then some (Toml.write c.toFields) else none

/-- A policy as a value. -/
def policyJson (p : Policy) : Json :=
  .obj [("blocked_modules", .strings p.blockedModules),
    ("blocked_builtins", .strings p.blockedBuiltins),
    ("blocked_functions", .strings p.blockedFunctions),
    ("allowed_modules", .strings p.allowedModules),
    ("third_party_modules", .strings p.thirdPartyModules),
    ("suspicious_attributes", .strings p.suspiciousAttributes),
    ("allowed_paths", .strings p.allowedPaths)]

/-- The settings as a value, but for the policy. -/
def jsonFields (c : Config) : List (String × Json) :=
  [("bind_address", .str c.bindAddress), ("scripts_dir", .str c.scriptsDir),
   ("log_dir", .str c.logDir), ("autoboot_file", .str c.autobootFile),
   ("interpreter", .str c.interpreter), ("interpreter_args", .strings c.interpreterArgs),
   ("max_upload_bytes", .nat c.maxUpload), ("replay_buffer_bytes", .nat c.replayLimit),
   ("stop_grace_period", .nat c.gracePeriod.milliWord),
   ("shutdown_timeout", .nat (c.shutdownTimeout.wholeSeconds))]

/-- The settings as a value. -/
def toJson (c : Config) : Json := .obj (c.jsonFields ++ [("validation", policyJson c.policy)])

end Config

end ScriptWarden
