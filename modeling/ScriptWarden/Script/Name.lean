import ScriptWarden.Text.Cut

/-!
# Script names

The name of a script is the name of a file: not hidden, in no other directory, without control
characters, and ending in `.py` after something.
-/

namespace ScriptWarden

/-- Why a text names no script. -/
inductive NameFault where
  /-- It could not be the name of a visible file in the scripts directory. -/
  | invalid (text : String)
  /-- It does not end in `.py`. -/
  | unsupported (text : String)
deriving DecidableEq, Repr, Inhabited

/-- The wording of a fault. -/
def NameFault.message : NameFault → String
  | .invalid text => "Invalid script name: " ++ text
  | .unsupported text => "Only .py files are accepted: " ++ text

/-- Whether a character may not be in a file name of a script. -/
def isNameBreaker (c : Char) : Bool := c == '/' || c == '\\' || isControl c

/-- Whether a text could be the name of a visible file in a directory. -/
def isPlainFileName (text : List Char) : Bool :=
  !text.isEmpty && text.head? != some '.' && !text.any isNameBreaker

/-- The ending of a script's name. -/
def scriptSuffix : List Char := ['.', 'p', 'y']

/-- Whether a text ends in `.py` after something. -/
def hasScriptSuffix (text : List Char) : Bool :=
  3 < text.length && text.drop (text.length - 3) == scriptSuffix

/-- Whether a text names a script. -/
def isScriptName (text : List Char) : Bool := isPlainFileName text && hasScriptSuffix text

/-- The name of a script. -/
structure ScriptName where
  text : String
  accepted : isScriptName text.toList = true
deriving DecidableEq, Repr

namespace ScriptName

instance : Inhabited ScriptName := ⟨⟨"a.py", by decide⟩⟩

instance : ToString ScriptName := ⟨ScriptName.text⟩

/-- The script that a text names. -/
def parse (text : String) : Except NameFault ScriptName :=
  if h : isScriptName text.toList = true then .ok ⟨text, h⟩
  else if isPlainFileName text.toList then .error (.unsupported text)
  else .error (.invalid text)

/-- The module that other scripts import a script by: its name without the ending. -/
def module (n : ScriptName) : String :=
  String.ofList (n.text.toList.take (n.text.toList.length - 3))

/-- The name of a script's log. -/
def logName (n : ScriptName) : String := n.text ++ ".log"

/-- The name of the file that an upload of a script is written to at first. -/
def uploadName (n : ScriptName) : String := "." ++ n.text ++ ".upload"

end ScriptName

end ScriptWarden
