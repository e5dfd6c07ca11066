import ScriptWarden.Config
import ScriptWarden.Host.Files

/-!
# Stored configurations

Configurations in files: reading one, or its defaults where there is none, and writing one together
with the directories that lead to it.
-/

namespace ScriptWarden

/-- Why a configuration cannot be read or written. -/
inductive ConfigFault where
  | notFound (path : String)
  | invalid (message : String)
  /-- The text is no TOML document, or no configuration. -/
  | notParsed
  /-- A number is too large to be written. -/
  | notWritable
deriving DecidableEq, Repr, Inhabited

/-- The wording of a fault. -/
def ConfigFault.message : ConfigFault → String
  | .notFound path => "Config file not found: " ++ path
  | .invalid message => "Invalid config: " ++ message
  | .notParsed => "TOML parse error: invalid document"
  | .notWritable => "TOML serialize error: out-of-range value for u64 type"

namespace Config

/-- A path as it is seen from a directory. The empty path leads nowhere. -/
def seenFrom (workingDir path : String) : String :=
  if path.isEmpty then "" else joinPath workingDir path

/-- The configuration in a file, with the defaults of a user for what it leaves out. -/
def load (fs : Files) (home workingDir path : String) : Except ConfigFault Config := do
  let place := seenFrom workingDir path
  if !fs.pathExists place then throw (.notFound path)
  match fs.readText place with
  | .error fault => throw (.invalid ("Failed to read config: " ++ fault.message))
  | .ok text =>
    match parse? (standard home) text with
    | some c => return c
    | none => throw .notParsed

/-- The configuration in a file, or the defaults if there is no file. -/
def loadOrStandard (fs : Files) (home workingDir path : String) : Except ConfigFault Config :=
  match load fs home workingDir path with
  | .error (.notFound _) => .ok (standard home)
  | r => r

/-- Write a configuration to a file. -/
def save (c : Config) (fs : Files) (now : Timestamp) (workingDir path : String) :
    Except ConfigFault Files := do
  let some text := c.text? | throw .notWritable
  let fs ← match (Files.parentPath? path).filter (!·.isEmpty) with
    | none => pure fs
    | some parent =>
      (fs.makeDirectories (seenFrom workingDir parent)).mapError fun fault =>
        .invalid ("Failed to create config dir: " ++ fault.message)
  (fs.write now (seenFrom workingDir path) (encodeUtf8 text)).mapError fun fault =>
    .invalid ("Failed to write config: " ++ fault.message)

end Config

end ScriptWarden
