/-!
# Shell commands

What a shell script is made of. The texts of a script are bytes; each byte stands as the character
with its number.
-/

namespace ScriptWarden.Shell

/-- Bytes as a text in which each byte is one character. -/
def textOfBytes (bytes : List UInt8) : String :=
  String.ofList (bytes.map fun b => Char.ofNat b.toNat)

/-- The bytes of a text in which each byte is one character. -/
def bytesOfText (text : String) : List UInt8 := text.toList.map (·.toNat.toUInt8)

/-- Where a redirection leads. -/
inductive Direction where
  | input
  | output
  | append
  | both
  /-- To what another number stands for, or to nothing. -/
  | same
deriving DecidableEq, Repr, Inhabited

mutual

/-- A part of a word. -/
inductive Part where
  /-- Text as it stands. -/
  | plain (text : String)
  | quoted (text : String)
  | parameter (name : String) (use : Use) (quoted : Bool)
  | arithmetic (expression : List Part)
  | substitution (script : List Command) (quoted : Bool)

/-- What is made of a parameter. -/
inductive Use where
  | value
  | length
  /-- A word in place of a parameter that is not set, or else empty. -/
  | default (orEmpty : Bool) (word : List Part)
  | assign (orEmpty : Bool) (word : List Part)
  | complain (orEmpty : Bool) (word : List Part)
  /-- A word in place of a parameter that is set. -/
  | alternative (orEmpty : Bool) (word : List Part)
  | cutFront (longest : Bool) (pattern : List Part)
  | cutBack (longest : Bool) (pattern : List Part)

/-- A redirection of a number. -/
inductive Redirection where
  | to (fd : Nat) (direction : Direction) (target : List Part)

/-- A command. -/
inductive Command where
  | simple (line : Nat) (assignments : List (String × List Part)) (words : List (List Part))
      (redirections : List Redirection)
  | pipeline (negated : Bool) (commands : List Command)
  | both (first second : Command)
  | either (first second : Command)
  | sequence (commands : List Command)
  | background (command : Command)
  | group (body : Command) (redirections : List Redirection)
  | subshell (body : Command) (redirections : List Redirection)
  | branch (condition yes : Command) (no : Option Command) (redirections : List Redirection)
  | loop (untilTrue : Bool) (condition body : Command) (redirections : List Redirection)
  | each (name : String) (words : Option (List (List Part))) (body : Command)
      (redirections : List Redirection)
  | choose (subject : List Part) (clauses : List (List (List Part) × Command))
      (redirections : List Redirection)
  | define (name : String) (body : Command)

end

instance : Inhabited Part := ⟨.plain ""⟩

instance : Inhabited Command := ⟨.sequence []⟩

end ScriptWarden.Shell
