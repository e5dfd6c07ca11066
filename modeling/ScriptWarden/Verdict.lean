import ScriptWarden.Checks
import ScriptWarden.Parsing.Whole

/-!
# Verdicts

The analysis of a script does not depend on which other scripts there are; the verdict does. A
text with an error in it is judged by that error alone.
-/

namespace ScriptWarden

-- ---------------------------------------------------------------------------
-- Problems
-- ---------------------------------------------------------------------------

/-- Why a script is not valid. -/
inductive Problem where
  /-- A token is missing at a line. -/
  | missing (line : Nat) (kind : String)
  /-- There is something at a line that the grammar has no place for. -/
  | invalidSyntax (line : Nat)
  /-- No tree was found for the text. -/
  | noTree
  /-- The file is no text. -/
  | notText
  | violation (finding : Finding)
deriving DecidableEq, Repr, Inhabited

/-- The wording of a problem. -/
def Problem.message : Problem → String
  | .missing line kind =>
    "Syntax error at line " ++ toString line ++ ": missing '" ++ kind ++ "'"
  | .invalidSyntax line => "Syntax error at line " ++ toString line ++ ": invalid syntax"
  | .noTree => "Parse error: parser produced no syntax tree"
  | .notText => "File is not valid UTF-8 text"
  | .violation f => "Line " ++ toString f.line ++ ": " ++ f.violation.message

mutual

/-- The first missing token or error of a tree in document order; subtrees in which nothing was
repaired are passed over. -/
def Tree.firstProblem? : Tree → Option Problem
  | .node l cs =>
    if l.isMissing then some (.missing (l.row + 1) l.kind)
    else if l.isError then some (.invalidSyntax (l.row + 1))
    else if l.hasError then Tree.firstProblemOf? cs
    else none

/-- The first problem of a list of siblings. -/
def Tree.firstProblemOf? : List Tree → Option Problem
  | [] => none
  | c :: rest =>
    match Tree.firstProblem? c with
    | some p => some p
    | none => Tree.firstProblemOf? rest

end

-- ---------------------------------------------------------------------------
-- Analysis
-- ---------------------------------------------------------------------------

/-- Put a name into an increasing list of names, once. -/
def insertName (name : String) : List String → List String
  | [] => [name]
  | x :: rest =>
    if name < x then name :: x :: rest
    else if name = x then x :: rest
    else x :: insertName name rest

/-- The names of a list in increasing order, each once. -/
def sortedNames (names : List String) : List String := names.foldl (fun s n => insertName n s) []

/-- What is found in one text, whatever other scripts there are. -/
structure Analysis where
  /-- Problems, in document order. -/
  problems : List Problem := []
  /-- Modules that may be sibling scripts, in increasing order. -/
  siblings : List String := []
deriving DecidableEq, Repr, Inhabited

/-- The analysis of a tree. -/
def Rules.analyzeTree (r : Rules) (t : Tree) : Analysis :=
  if t.label.hasError then
    { problems := [t.firstProblem?.getD (.invalidSyntax 1)] }
  else
    { problems := (r.findings t).map .violation
      siblings := sortedNames (r.siblings t) }

/-- The analysis of a text. -/
def Rules.analyze (r : Rules) (source : String) : Analysis :=
  match Tree.ofSource source with
  | some t => r.analyzeTree t
  | none => { problems := [.noTree] }

/-- A script's name without the ending `.py`. -/
def moduleOf (scriptName : String) : String :=
  match scriptName.dropSuffix? ".py" with
  | some stem => stem.toString
  | none => scriptName

/-- The analysis of a script with a name; a script is no sibling of its own. -/
def Rules.analyzeScript (r : Rules) (source scriptName : String) : Analysis :=
  let a := r.analyze source
  { a with siblings := a.siblings.filter (· != moduleOf scriptName) }

-- ---------------------------------------------------------------------------
-- Verdict
-- ---------------------------------------------------------------------------

/-- Whether a script passed the checks. -/
inductive Validity where
  | valid
  | invalid
deriving DecidableEq, Repr, Inhabited

/-- Whether every sibling script that a script imports is there. -/
inductive Dependencies where
  | complete
  | missing
deriving DecidableEq, Repr, Inhabited

/-- The judgement of a script among the scripts that are there. -/
structure Verdict where
  isValid : Bool
  /-- The wording of every problem, in document order. -/
  errors : List String
  /-- Sibling scripts that are imported and not there, in increasing order. -/
  missing : List String
deriving DecidableEq, Repr, Inhabited

/-- The verdict among known modules. A script with problems gets no report on siblings. -/
def Analysis.resolve (a : Analysis) (known : List String) : Verdict :=
  { isValid := a.problems.isEmpty
    errors := a.problems.map Problem.message
    missing := if a.problems.isEmpty then a.siblings.filter fun m => !known.contains m else [] }

namespace Verdict

/-- Whether the script may run: it is valid and nothing is missing. -/
def isExecutable (v : Verdict) : Bool := v.isValid && v.missing.isEmpty

/-- Whether the script passed the checks. -/
def validity (v : Verdict) : Validity := if v.isValid then .valid else .invalid

/-- Whether every sibling script is there. -/
def dependencies (v : Verdict) : Dependencies :=
  if v.missing.isEmpty then .complete else .missing

end Verdict

/-- The verdict on a text with a name, among known modules. -/
def Rules.validate (r : Rules) (source scriptName : String) (known : List String) : Verdict :=
  (r.analyzeScript source scriptName).resolve known

end ScriptWarden
