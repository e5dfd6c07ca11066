import ScriptWarden.Grammar.Automaton
import ScriptWarden.Text.Identifier
import ScriptWarden.Text.Position

/-!
# Lexemes

The tokens that are recognised by their characters alone: literals, words, numbers, comments and
the parts of strings. `scanLexeme` skips white space and takes the longest token among those that
may come next; of two equally long ones the more specific wins.
-/

namespace ScriptWarden.Python

open ScriptWarden.Grammar ScriptWarden.Text

-- ---------------------------------------------------------------------------
-- Character classes
-- ---------------------------------------------------------------------------

/-- White space between tokens, line ends included. -/
def isBlank (c : Char) : Bool :=
  let n := c.toNat
  (0x09 ≤ n && n ≤ 0x0d) || n == 0x20 || n == 0x85 || n == 0xa0 || n == 0x1680 ||
  (0x2000 ≤ n && n ≤ 0x200b) || n == 0x2028 || n == 0x2029 || n == 0x202f || n == 0x205f ||
  n == 0x2060 || n == 0x3000 || n == 0xfeff

private def isHexDigit (c : Char) : Bool :=
  c.isDigit || ('a' ≤ c && c ≤ 'f') || ('A' ≤ c && c ≤ 'F')

private def isOctalDigit (c : Char) : Bool := '0' ≤ c && c ≤ '7'

private def isBinaryDigit (c : Char) : Bool := c == '0' || c == '1'

-- ---------------------------------------------------------------------------
-- Numbers
-- ---------------------------------------------------------------------------

private def charAt (text : Array Char) (i : Nat) : Char := text.getD i '\x00'

private def isOneOf (text : Array Char) (i : Nat) (letters : List Char) : Bool :=
  letters.contains (charAt text i) && i < text.size

/-- The end of groups of digits after a base mark, each with an underscore before it or not. -/
private def groupsAfter (text : Array Char) (digit : Char → Bool) : Nat → Nat → Nat
  | 0, i => i
  | fuel + 1, i =>
    let start := if charAt text i == '_' then i + 1 else i
    let n := runLength text digit start
    if n = 0 then i else groupsAfter text digit fuel (start + n)

/-- The end of groups of decimal digits, each with an underscore after it or not. -/
private def decimalGroups (text : Array Char) : Nat → Nat → Nat
  | 0, i => i
  | fuel + 1, i =>
    let n := runLength text Char.isDigit i
    if n = 0 then i
    else
      let stop := i + n
      decimalGroups text fuel (if charAt text stop == '_' then stop + 1 else stop)

private def decimalsEnd (text : Array Char) (i : Nat) : Nat := decimalGroups text text.size i

/-- The end of a whole number with a base mark. -/
private def basedEnd? (text : Array Char) (i : Nat) : Option Nat :=
  if charAt text i != '0' then none
  else
    let digit : Option (Char → Bool) :=
      if isOneOf text (i + 1) ['x', 'X'] then some isHexDigit
      else if isOneOf text (i + 1) ['o', 'O'] then some isOctalDigit
      else if isOneOf text (i + 1) ['b', 'B'] then some isBinaryDigit
      else none
    digit.bind fun d =>
      let stop := groupsAfter text d text.size (i + 2)
      if stop = i + 2 then none
      else some (if isOneOf text stop ['L', 'l'] then stop + 1 else stop)

/-- The end of a whole number. -/
def integerEnd? (text : Array Char) (i : Nat) : Option Nat :=
  match basedEnd? text i with
  | some stop => some stop
  | none =>
    let stop := decimalsEnd text i
    if stop = i then none
    else some (if isOneOf text stop ['L', 'l', 'J', 'j'] then stop + 1 else stop)

/-- The end of an exponent, or the place it would begin if there is none. -/
private def exponentEnd (text : Array Char) (i : Nat) : Nat :=
  if isOneOf text i ['e', 'E'] then
    let digits := if isOneOf text (i + 1) ['+', '-'] then i + 2 else i + 1
    let stop := decimalsEnd text digits
    if stop = digits then i else stop
  else i

/-- The end of a number with a point or an exponent. -/
def floatEnd? (text : Array Char) (i : Nat) : Option Nat :=
  let whole := decimalsEnd text i
  let stop : Option Nat :=
    if charAt text whole == '.' then
      let fraction := decimalsEnd text (whole + 1)
      if whole = i && fraction = whole + 1 then none
      else some (exponentEnd text fraction)
    else
      let stop := exponentEnd text whole
      if whole = i || stop = whole then none else some stop
  stop.map fun stop => if isOneOf text stop ['L', 'l', 'J', 'j'] then stop + 1 else stop

-- ---------------------------------------------------------------------------
-- Other lexemes
-- ---------------------------------------------------------------------------

/-- The end of a word. -/
def identifierEnd? (text : Array Char) (i : Nat) : Option Nat :=
  match text[i]? with
  | some c =>
    if isIdentifierStart c then some (i + 1 + runLength text isIdentifierContinue (i + 1))
    else none
  | none => none

/-- The number of characters of a line end. -/
private def lineEndLength (text : Array Char) (i : Nat) : Nat :=
  if charAt text i == '\n' then 1
  else if charAt text i == '\r' && charAt text (i + 1) == '\n' then 2
  else 0

/-- The end of an escape sequence. -/
def escapeEnd? (text : Array Char) (i : Nat) : Option Nat :=
  if charAt text i != '\\' then none
  else
    let digits := fun (n : Nat) (d : Char → Bool) =>
      if n ≤ runLength text d (i + 2) then some (i + 2 + n) else none
    match text[i + 1]? with
    | some 'u' => digits 4 isHexDigit
    | some 'U' => digits 8 isHexDigit
    | some 'x' => digits 2 isHexDigit
    | some 'N' =>
      if charAt text (i + 2) == '\x7b' then
        let n := runLength text (fun c => c != '\x7d' && c != '\x00') (i + 3)
        if n = 0 || charAt text (i + 3 + n) != '\x7d' then none else some (i + 4 + n)
      else none
    | some c =>
      if c.isDigit then
        some (i + 1 + Nat.min 3 (runLength text Char.isDigit (i + 1)))
      else if ['\'', '"', 'a', 'b', 'f', 'r', 'n', 't', 'v', '\\'].contains c &&
          lineEndLength text (i + 1) = 0 then
        some (i + 2)
      else
        let n := lineEndLength text (i + 1)
        if n = 0 then none else some (i + 1 + n)
    | none => none

/-- The end of a backslash that joins two lines, or stands before the end of the text. -/
def continuationEnd? (text : Array Char) (i : Nat) : Option Nat :=
  if charAt text i != '\\' then none
  else
    match text[i + 1]? with
    | none => some (i + 1)
    | some c =>
      if c == '\x00' then some (i + 2)
      else
        let n := lineEndLength text (i + 1)
        if n = 0 then none else some (i + 1 + n)

/-- The end of a literal. -/
def literalEnd? (text : Array Char) (i : Nat) : List Char → Option Nat
  | [] => some i
  | c :: rest => if text[i]? == some c then literalEnd? text (i + 1) rest else none

/-- A class of lexemes: its end at a place, how it fares against lexemes of other classes, and
whether it stands only directly after the token before it. -/
structure LexemeClass where
  stop : Array Char → Nat → Option Nat
  /-- How it fares against an equally long one. -/
  rank : Nat := 0
  /-- Whether it is taken before all others, longer ones too. -/
  first : Bool := false
  immediate : Bool := false

/-- The class of a lexeme or literal; the words of the language are no class of their own. -/
def lexemeClass : Mention → LexemeClass
  | .lexeme "identifier" => { stop := identifierEnd? }
  | .lexeme "integer" => { stop := integerEnd? }
  | .lexeme "float" => { stop := floatEnd? }
  | .lexeme "comment" =>
    { stop := fun text i =>
        if charAt text i == '#' then
          some (i + 1 + runLength text (fun c => c != '\n' && c != '\x00') (i + 1))
        else none }
  | .lexeme "line_continuation" => { stop := continuationEnd?, first := true }
  | .lexeme "escape_sequence" =>
    { stop := escapeEnd?, rank := 1, first := true, immediate := true }
  | .lexeme "backslash" =>
    { stop := fun text i => if charAt text i == '\\' then some (i + 1) else none
      rank := 3, immediate := true }
  | .lexeme "format_text" =>
    { stop := fun text i =>
        let n := runLength text
          (fun c => c != '\x7b' && c != '\x7d' && c != '\n' && c != '\x00') i
        if n = 0 then none else some (i + n)
      first := true }
  | .lexeme "type_conversion" =>
    { stop := fun text i =>
        if charAt text i == '!' && 'a' ≤ charAt text (i + 1) && charAt text (i + 1) ≤ 'z' then
          some (i + 2)
        else none }
  | .token t => let cs := t.toList; { stop := fun text i => literalEnd? text i cs, rank := 2 }
  | _ => { stop := fun _ _ => none }

/-- Whether a lexeme of a class that ends at a place is taken before one of another class. -/
def LexemeClass.beats (c : LexemeClass) (stop : Nat) (c' : LexemeClass) (stop' : Nat) : Bool :=
  if c.first != c'.first then c.first
  else stop' < stop || (stop' == stop && c'.rank < c.rank)

-- ---------------------------------------------------------------------------
-- Scanning
-- ---------------------------------------------------------------------------

/-- What the lexer knows of a grammar: the class of every terminal and the number of every word
that is a terminal of its own. -/
structure Lexer where
  grammar : Grammar
  classes : Array LexemeClass
  words : Std.HashMap String Nat
deriving Inhabited

/-- The lexer of a grammar. -/
def Lexer.ofGrammar (g : Grammar) : Lexer :=
  { grammar := g
    classes := g.spelling.map lexemeClass
    words := g.spelling.toList.zipIdx.foldl (fun m (mention, i) =>
      match mention with
      | .token t => if TermSet.contains g.keywords i then m.insert t i else m
      | _ => m) {} }

/-- What a scan finds: a terminal, or no terminal that begins where white space ends. -/
inductive Scan where
  | found (terminal : Nat) (start stop : Position)
  | nothing (start reached : Position)
deriving Inhabited

/-- The words of the language are scanned as words and told apart afterwards. -/
def Lexer.scannable (lx : Lexer) (valid : TermSet) : TermSet :=
  let words := TermSet.inter valid lx.grammar.keywords
  let rest := valid ^^^ words
  if words = 0 then rest else TermSet.union rest (TermSet.singleton lx.grammar.word)

/-- The best terminal at an index: one that is taken before others, then the longest, then the most
specific, then the first. -/
def Lexer.best (lx : Lexer) (text : Array Char) (valid : TermSet) (afterBlank : Bool)
    (i : Nat) : Option (Nat × Nat) :=
  let step := fun (acc : Option (Nat × Nat × LexemeClass) × Nat) (c : LexemeClass) =>
    let n := acc.2
    if TermSet.contains valid n && !(c.immediate && afterBlank) then
      match c.stop text i with
      | none => (acc.1, n + 1)
      | some stop =>
        match acc.1 with
        | none => (some (n, stop, c), n + 1)
        | some (_, stop', c') =>
          if c.beats stop c' stop' then (some (n, stop, c), n + 1) else (acc.1, n + 1)
    else (acc.1, n + 1)
  (lx.classes.foldl step (none, 0)).1.map fun (n, stop, _) => (n, stop)

/-- Skip white space and take the best terminal. -/
def Lexer.scan (lx : Lexer) (text : Array Char) (valid : TermSet) (afterBlank : Bool)
    (p : Position) : Scan :=
  if h : p.char < text.size then
    match lx.best text valid afterBlank p.char with
    | some (n, stop) => .found n p (advanceBy text (stop - p.char) p)
    | none =>
      let c := text[p.char]
      if isBlank c then lx.scan text valid true (p.after c)
      else .nothing p (if c == '!' then p.after c else p)
  else if TermSet.contains valid 0 then .found 0 p p
  else .nothing p p
termination_by text.size - p.char
decreasing_by simp [Position.after]; omega

end ScriptWarden.Python
