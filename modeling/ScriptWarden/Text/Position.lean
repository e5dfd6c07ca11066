/-!
# Places in a text

A text as an array of characters, and a place in it by character, byte and row. The end of the
text is seen as an absent character, which differs from a NUL character that the text holds.
-/

namespace ScriptWarden.Text

/-- A place in a text: how many characters, bytes and line feeds come before it. -/
structure Position where
  char : Nat := 0
  byte : Nat := 0
  row : Nat := 0
deriving DecidableEq, Inhabited, Repr

/-- The place after a character. -/
def Position.after (p : Position) (c : Char) : Position :=
  { char := p.char + 1
    byte := p.byte + c.utf8Size
    row := if c == '\n' then p.row + 1 else p.row }

/-- The character at a place; none at the end of the text. -/
def peek (text : Array Char) (p : Position) : Option Char := text[p.char]?

/-- The place after the character at a place; the end stays where it is. -/
def advance (text : Array Char) (p : Position) : Position :=
  match text[p.char]? with
  | some c => p.after c
  | none => p

/-- The place a number of characters further on. -/
def advanceBy (text : Array Char) : Nat → Position → Position
  | 0, p => p
  | n + 1, p => advanceBy text n (advance text p)

/-- The characters between two places. -/
def slice (text : Array Char) (start stop : Position) : String :=
  String.ofList (text.toSubarray start.char stop.char).toList

/-- The number of characters from an index on that satisfy a test. -/
def runLength (text : Array Char) (test : Char → Bool) (i : Nat) : Nat :=
  if h : i < text.size then
    if test text[i] then runLength text test (i + 1) + 1 else 0
  else 0
termination_by text.size - i

end ScriptWarden.Text
