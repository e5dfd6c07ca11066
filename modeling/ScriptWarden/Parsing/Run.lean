import ScriptWarden.Parsing.Repair

/-!
# Running the machine

All readings move on in turn, a token at a time; after each turn the worse ones are dropped. A
text is parsed when no reading is under way or none can still be better than the best whole text.
-/

namespace ScriptWarden.Parsing

open ScriptWarden.Grammar ScriptWarden.Text ScriptWarden.Python

-- ---------------------------------------------------------------------------
-- One reading
-- ---------------------------------------------------------------------------

/-- What carrying out the actions on a token came to. -/
inductive Outcome where
  /-- The token is used up. -/
  | done (m : Machine)
  /-- Completions were carried out, and `last` is the last reading to come of one. -/
  | reduced (m : Machine) (last : Option Nat)
  /-- There was nothing to do. -/
  | stuck

/-- Carry out actions in order; a reduction makes a new reading, a shift ends the turn. -/
def carryOut (l : Language) (v : Nat) (token : Subtree) :
    List Action → Machine → Option (Option Nat) → Outcome
  | [], _, none => .stuck
  | [], m, some last => .reduced m last
  | action :: rest, m, acc =>
    match action with
    | .shift target repeated =>
      if repeated then carryOut l v token rest m acc
      else .done (m.onStack fun s => shift l.grammar s v (.at_ target) token false)
    | .skip => .done (m.onStack fun s => shift l.grammar s v (s.point v) token true)
    | .accept => .done (accept l m v token)
    | .reduce r =>
      let (s, first) := reduce l.grammar m.stack v r
      carryOut l v token rest { m with stack := s } (some (first <|> acc.getD none))

/-- Move a reading past a token. The fuel bounds the number of completions in a row. -/
def advanceWith (l : Language) (v : Nat) : Nat → Subtree → Machine → Machine
  | 0, _, m => m.onStack (·.halt v)
  | fuel + 1, token, m =>
    let g := l.grammar
    let point := m.stack.point v
    match carryOut l v token (point.actions g token.symbol) m none with
    | .done m => m
    | .reduced m (some n) => advanceWith l v fuel token (m.onStack (·.renumber n v))
    | .reduced m none => m.onStack (·.halt v)
    | .stuck =>
      let asWord : Option Subtree := match token, point with
        | .leaf t, .at_ s =>
          if t.keyword && t.symbol != g.word && TermSet.contains s.valid g.word &&
              !TermSet.contains g.reserved t.symbol then
            some (.leaf { t with symbol := g.word })
          else none
        | _, _ => none
      match asWord with
      | some word => advanceWith l v fuel word m
      | none =>
        match point with
        | .lost => recover l m v token
        | .at_ _ => m.onStack fun s => s.modifyVersion v fun h =>
            { h with
              activity := .paused token
              nodeCountAtError := (s.node h.node).nodeCount }

/-- Move a reading past its next token. -/
def advanceVersion (l : Language) (text : Array Char) (m : Machine) (v : Nat) : Machine :=
  advanceWith l v (10 * text.size + 1000) (lex l text m.stack v) m

/-- Move a reading on until it is ahead of the others. The fuel bounds the number of tokens. -/
def advanceAhead (l : Language) (text : Array Char) (v : Nat) :
    Nat → Machine → Nat → Machine × Nat
  | 0, m, last => (m, last)
  | fuel + 1, m, last =>
    if m.stack.isActive v then
      let m := advanceVersion l text m v
      let here := (m.stack.position v).byte
      if last < here || (0 < v && here = last) then (m, here)
      else advanceAhead l text v fuel m last
    else (m, last)

/-- Move all readings on, new ones included. The fuel bounds their number. -/
def advanceReadings (l : Language) (text : Array Char) :
    Nat → Nat → Machine → Nat → Machine × Nat
  | 0, _, m, last => (m, last)
  | fuel + 1, v, m, last =>
    if v < m.stack.count then
      let (m, last) := advanceAhead l text v (text.size + 10) m last
      advanceReadings l text fuel (v + 1) m last
    else (m, last)

-- ---------------------------------------------------------------------------
-- Dropping readings
-- ---------------------------------------------------------------------------

/-- Compare the standing of a reading with the earlier readings, dropping or merging on the way.
Answers where the next reading is. The fuel bounds the number of comparisons. -/
def compareEarlier (g : Grammar) (mine : Standing) : Nat → Nat → Nat → Stack → Stack × Nat
  | 0, _, i, s => (s, i + 1)
  | fuel + 1, j, i, s =>
    if i ≤ j then (s, i + 1)
    else
      match (standing s j).compare mine with
      | .takeLeft => (s.remove i, i)
      | .preferLeft | .even =>
        let (t, merged) := s.merge g j i
        if merged then (t, i) else compareEarlier g mine fuel (j + 1) i s
      | .preferRight =>
        let (t, merged) := s.merge g j i
        if merged then (t, i) else compareEarlier g mine fuel (j + 1) i (s.swap i j)
      | .takeRight => compareEarlier g mine fuel j (i - 1) (s.remove j)

/-- Compare all readings. Answers the least cost of one that is not being repaired. The fuel bounds
the number of readings. -/
def compareAll (g : Grammar) : Nat → Nat → Option Nat → Stack → Stack × Option Nat
  | 0, _, least, s => (s, least)
  | fuel + 1, i, least, s =>
    if s.count ≤ i then (s, least)
    else if s.isHalted i then compareAll g fuel i least (s.remove i)
    else
      let s := s.settle i
      let mine := standing s i
      let least := if mine.inError then least
        else match least with
          | some n => some (min n mine.cost)
          | none => some mine.cost
      let (s, next) := compareEarlier g mine (s.count * s.count + 1) 0 i s
      compareAll g fuel next least s

/-- Repair the best waiting reading if no other goes on, and drop the other waiting ones. The
fuel bounds the number of readings. -/
def resumeWaiting (l : Language) : Nat → Nat → Nat → Bool → Option Nat → Machine →
    Machine × Option Nat
  | 0, _, _, _, least, m => (m, least)
  | fuel + 1, i, n, going, least, m =>
    if n ≤ i then (m, least)
    else
      match (m.stack.version i).activity with
      | .paused lookahead =>
        if !going && m.accepted < limits.versions then
          let least := some (m.stack.errorCost i)
          let m := m.onStack fun s => s.modifyVersion i fun h => { h with activity := .active }
          resumeWaiting l fuel (i + 1) n true least (handleError l m i lookahead)
        else resumeWaiting l fuel i (n - 1) going least (m.onStack (·.remove i))
      | _ => resumeWaiting l fuel (i + 1) n true least m

/-- Drop the worse readings, and begin a repair if all wait. -/
def condense (l : Language) (m : Machine) : Machine × Option Nat :=
  let (s, least) := compareAll l.grammar (2 * m.stack.count + 2) 0 none m.stack
  let s := { s with versions := s.versions.extract 0 limits.versions }
  resumeWaiting l (2 * s.count + 2) 0 s.count false least { m with stack := s }

-- ---------------------------------------------------------------------------
-- The whole text
-- ---------------------------------------------------------------------------

/-- Turns until the text is parsed. The fuel bounds the number of turns. -/
def turns (l : Language) (text : Array Char) : Nat → Machine → Nat → Machine
  | 0, m, _ => m
  | fuel + 1, m, last =>
    if m.stack.count = 0 then m
    else
      let (m, last) := advanceReadings l text 1000 0 m last
      let (m, least) := condense l m
      let settled : Bool := match m.finished, least with
        | some t, some n => decide (t.errorCost < n)
        | some _, none => true
        | none, _ => false
      if settled then m else turns l text fuel m last

/-- The best reading of a text as a whole. -/
def parse (l : Language) (text : Array Char) : Option Subtree :=
  (turns l text (20 * text.size + 1000) (Machine.start l) 0).finished

end ScriptWarden.Parsing
