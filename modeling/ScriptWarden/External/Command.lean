import ScriptWarden.Text.Utf8

/-!
# Scripts on command lines

Which script of a directory a command line runs: the first argument after the program that names a
file with the ending of scripts, directly in the directory. Arguments are seen from the directory
that the process works in, and links are followed where the file exists.

Paths are as processes pass them: any bytes, told apart by slashes. Empty components say nothing, nor
do single dots, except at the beginning of a relative path.
-/

namespace ScriptWarden

-- ---------------------------------------------------------------------------
-- Paths as bytes
-- ---------------------------------------------------------------------------

/-- A component of a path. -/
abbrev Segment := List UInt8

/-- A path by its components. -/
structure BytePath where
  absolute : Bool
  parts : List Segment
deriving DecidableEq, Repr, Inhabited

namespace BytePath

/-- The byte between components. -/
def slash : UInt8 := 47

/-- The byte before an extension. -/
def dot : UInt8 := 46

/-- Bytes cut at slashes; the part before the first slash is given last byte first. -/
def cut (current : Segment) : List UInt8 → List Segment
  | [] => [current.reverse]
  | b :: rest => if b == slash then current.reverse :: cut [] rest else cut (b :: current) rest

/-- Whether bytes begin at the root. -/
def isAbsolute (bytes : List UInt8) : Bool := bytes.head? == some slash

/-- The path that bytes write. -/
def ofBytes (bytes : List UInt8) : BytePath :=
  let counts := fun (s : Segment) => !s.isEmpty && s != [dot]
  let pieces := cut [] bytes
  let absolute := isAbsolute bytes
  match pieces with
  | first :: rest =>
    if !absolute && first == [dot] then { absolute, parts := first :: rest.filter counts }
    else { absolute, parts := pieces.filter counts }
  | [] => { absolute, parts := [] }

/-- Bytes seen from a directory: those of an absolute path are its own. -/
def join (directory path : List UInt8) : List UInt8 :=
  if isAbsolute path || directory.isEmpty then path
  else if directory.getLast? == some slash then directory ++ path
  else directory ++ [slash] ++ path

/-- The last component, unless it leads back. -/
def fileName? (p : BytePath) : Option Segment :=
  match p.parts.getLast? with
  | some s => if s == [dot, dot] || s == [dot] then none else some s
  | none => none

/-- The path without its last component, if it has one. -/
def parent? (p : BytePath) : Option BytePath :=
  if p.parts.isEmpty then none else some { p with parts := p.parts.dropLast }

/-- What follows the last dot of the last component, if something stands before that dot. -/
def extension? (p : BytePath) : Option Segment :=
  p.fileName?.bind fun name =>
    let tail := (name.reverse.takeWhile (· != dot)).reverse
    if tail.length + 1 < name.length then some tail else none

end BytePath

-- ---------------------------------------------------------------------------
-- Command lines
-- ---------------------------------------------------------------------------

/-- The extension of scripts. -/
def scriptExtension : Segment := [112, 121]

/-- The name of the script in a directory that an argument names. `real?` finds the path of an
existing file without links. -/
def argumentScript? (real? : List UInt8 → Option (List UInt8)) (workingDir : Option (List UInt8))
    (directory : BytePath) (argument : List UInt8) : Option String :=
  if (BytePath.ofBytes argument).extension? != some scriptExtension then none
  else
    let seen := if BytePath.isAbsolute argument then some argument
      else workingDir.map (BytePath.join · argument)
    seen.bind fun path =>
      let full := BytePath.ofBytes ((real? path).getD path)
      if full.fileName?.isSome && full.parent? == some directory then
        full.fileName?.bind decodeUtf8?
      else none

/-- The name of the script in a directory that a command line runs. -/
def commandScript? (real? : List UInt8 → Option (List UInt8)) (command : List (List UInt8))
    (workingDir : Option (List UInt8)) (directory : List UInt8) : Option String :=
  (command.drop 1).findSome?
    (argumentScript? real? workingDir (BytePath.ofBytes directory))

end ScriptWarden
