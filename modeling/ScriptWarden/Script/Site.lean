import ScriptWarden.Config
import ScriptWarden.Host.Files
import ScriptWarden.Script.Name

/-!
# Sites

Where a service keeps its files. The paths are those of the configuration, which may be relative;
the service sees them from the directory that it works in.
-/

namespace ScriptWarden

/-- Where a service keeps its files. -/
structure Site where
  /-- The directory that the service works in. -/
  workingDir : String
  scriptsDir : String
  logDir : String
  autobootFile : String
deriving DecidableEq, Repr, Inhabited

namespace Site

/-- The site of a configuration. -/
def ofConfig (c : Config) (workingDir : String) : Site :=
  { workingDir, scriptsDir := c.scriptsDir, logDir := c.logDir, autobootFile := c.autobootFile }

/-- A path as the service sees it. The empty path stays empty: it leads nowhere. -/
def seen (s : Site) (path : String) : String :=
  if path.isEmpty then "" else joinPath s.workingDir path

/-- The path of a script. -/
def scriptPath (s : Site) (n : ScriptName) : String := joinPath s.scriptsDir n.text

/-- The path of a script's log. -/
def logPath (s : Site) (n : ScriptName) : String := joinPath s.logDir n.logName

/-- The path that an upload of a script is written to at first. -/
def uploadPath (s : Site) (n : ScriptName) : String := joinPath s.scriptsDir n.uploadName

-- ---------------------------------------------------------------------------
-- The file that names the boot script
-- ---------------------------------------------------------------------------

/-- A path last character first, without slashes and single dots at its end. -/
def bareEnd : List Char → List Char
  | '/' :: rest => bareEnd rest
  | ['.'] => ['.']
  | '.' :: '/' :: rest => bareEnd rest
  | path => path

/-- A path whose last name has another extension. A path without a name at its end stays as it
is. -/
def withExtension (path extension : String) : String :=
  let backwards := bareEnd path.toList.reverse
  let name := backwards.takeWhile (· != '/')
  if name.isEmpty || name == ['.', '.'] || name == ['.'] then path
  else
    let stem := (name.dropWhile (· != '.')).drop 1
    let kept := if stem.isEmpty then backwards else backwards.drop (name.length - stem.length)
    String.ofList kept.reverse ++ "." ++ extension

/-- The path that a designation is written to at first. -/
def designationDraft (s : Site) : String := withExtension s.autobootFile "tmp"

/-- The directory of the designation, if the configuration names one. -/
def designationDir? (s : Site) : Option String :=
  (Files.parentPath? s.autobootFile).filter (!·.isEmpty)

end Site

end ScriptWarden
