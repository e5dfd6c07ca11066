import ScriptWarden.Text.Cut

/-!
# Confinement to directories

Paths by their components, without a file system: `.` and empty components say nothing, `..` takes
one component back and stops at the root. A path is allowed when what it comes to lies at or below
one of the allowed directories.
-/

namespace ScriptWarden

/-- A path that has been resolved: whether it begins at the root, and its components. -/
structure ResolvedPath where
  absolute : Bool
  parts : List String
deriving DecidableEq, Repr, Inhabited

/-- The components of a path that say something. -/
def pathParts (path : String) : List String :=
  ((cutAt '/' path).filter fun c => c != "" && c != ".")

/-- Whether a path begins at the root. -/
def isAbsolutePath (path : String) : Bool := path.startsWith "/"

/-- Where a list of components leads from a place. The components reached so far are listed
innermost first. -/
def walkParts (reached : List String) : List String → List String
  | [] => reached
  | ".." :: rest => walkParts (reached.drop 1) rest
  | c :: rest => walkParts (c :: reached) rest

/-- Resolve a path as it is written. -/
def resolvePath (path : String) : ResolvedPath :=
  { absolute := isAbsolutePath path
    parts := (walkParts [] (pathParts path)).reverse }

/-- A path as seen from a directory: an absolute one is its own, a relative one lies below the
directory. -/
def joinPath (directory path : String) : String :=
  if isAbsolutePath path then path
  else if directory.isEmpty then path
  else if directory.endsWith "/" then directory ++ path
  else directory ++ "/" ++ path

/-- Whether a resolved path lies at or below another. -/
def ResolvedPath.isWithin (path root : ResolvedPath) : Bool :=
  (root.absolute == path.absolute || (!root.absolute && root.parts.isEmpty)) &&
    root.parts.isPrefixOf path.parts

/-- Whether a path, seen from a directory, lies at or below one of the allowed directories. -/
def isPathAllowed (path directory : String) (allowed : List String) : Bool :=
  let resolved := resolvePath (joinPath directory path)
  allowed.any fun root => resolved.isWithin (resolvePath root)

/-- The directories that file operations may touch: those listed, seen from the scripts directory,
or that directory itself. -/
def effectiveRoots (scriptsDir : String) (listed : List String) : List String :=
  if listed.isEmpty then [scriptsDir] else listed.map (joinPath scriptsDir)

end ScriptWarden
