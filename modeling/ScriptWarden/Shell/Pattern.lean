/-!
# Shell patterns

Which texts a pattern stands for: a star for any text, a question mark for any character, and a
bracket for one of some characters. What is quoted in a pattern stands for itself.
-/

namespace ScriptWarden.Shell

/-- A text in which each character may be quoted. -/
abbrev Marked := List (Char × Bool)

/-- A text with the quoting forgotten. -/
def Marked.text (m : Marked) : String := String.ofList (m.map (·.1))

/-- A text in which all or none is quoted. -/
def Marked.of (quoted : Bool) (text : String) : Marked := text.toList.map fun c => (c, quoted)

namespace Pattern

/-- The inside of a bracket and what follows it. A bracket right after the beginning does not end
it. -/
def bracket? (m : Marked) : Option (Marked × Marked) :=
  let (lead, rest) := match m with
    | ('!', false) :: (']', false) :: rest => ([('!', false), (']', true)], rest)
    | (']', false) :: rest => ([(']', true)], rest)
    | rest => ([], rest)
  let inside := rest.takeWhile fun c => c != (']', false)
  if inside.length == rest.length then none
  else some (lead ++ inside, rest.drop (inside.length + 1))

/-- Whether a character is one of those in a bracket. -/
def isListed (c : Char) : Marked → Bool
  | (low, _) :: ('-', false) :: (high, _) :: rest => (low ≤ c && c ≤ high) || isListed c rest
  | (d, _) :: rest => c == d || isListed c rest
  | [] => false

/-- Whether a character is one that a bracket stands for. -/
def inBracket (c : Char) : Marked → Bool
  | ('!', false) :: rest => !isListed c rest
  | inside => isListed c inside

/-- Whether a pattern stands for a text. The fuel bounds the steps. -/
def matchesIn : Nat → Marked → List Char → Bool
  | 0, _, _ => false
  | _ + 1, [], text => text.isEmpty
  | n + 1, ('*', false) :: rest, text =>
    matchesIn n rest text ||
      match text with
      | _ :: text => matchesIn n (('*', false) :: rest) text
      | [] => false
  | n + 1, ('?', false) :: rest, text =>
    match text with
    | _ :: text => matchesIn n rest text
    | [] => false
  | n + 1, ('[', false) :: rest, text =>
    match bracket? rest, text with
    | some (inside, after), c :: text => inBracket c inside && matchesIn n after text
    | some _, [] => false
    | none, c :: text => c == '[' && matchesIn n rest text
    | none, [] => false
  | n + 1, (c, _) :: rest, text =>
    match text with
    | d :: text => c == d && matchesIn n rest text
    | [] => false

/-- Whether a pattern stands for a text. -/
def isMatch (m : Marked) (text : List Char) : Bool :=
  matchesIn ((m.length + 1) * (text.length + 1) + 1) m text

/-- Whether a text has a meaning as a pattern. -/
def isPattern (m : Marked) : Bool := m.any fun c => !c.2 && "*?[".toList.contains c.1

/-- A text without the shortest or longest beginning that a pattern stands for. -/
def cutFront (longest : Bool) (m : Marked) (text : List Char) : List Char :=
  let counts := List.range (text.length + 1)
  let found := (if longest then counts.reverse else counts).find? fun n => isMatch m (text.take n)
  text.drop (found.getD 0)

/-- A text without the shortest or longest end that a pattern stands for. -/
def cutBack (longest : Bool) (m : Marked) (text : List Char) : List Char :=
  let counts := List.range (text.length + 1)
  let found := (if longest then counts else counts.reverse).find? fun n => isMatch m (text.drop n)
  text.take (found.getD text.length)

end Pattern

end ScriptWarden.Shell
