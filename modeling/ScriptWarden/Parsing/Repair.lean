import ScriptWarden.Parsing.Machine

/-!
# Repair

What happens when no reading can go on. A token that would let a reading go on may be taken as
missing; a reading may go back to a state in which the next token fits, and what lies between
becomes an error; or the token is skipped. Readings are compared by what their repairs cost.
-/

namespace ScriptWarden.Parsing

open ScriptWarden.Grammar ScriptWarden.Text ScriptWarden.Python
open Stack (Slice)

-- ---------------------------------------------------------------------------
-- Comparing readings
-- ---------------------------------------------------------------------------

/-- The figures by which readings are compared. -/
structure Standing where
  cost : Nat
  nodeCount : Nat
  dynamic : Int
  inError : Bool

/-- Which of two readings is better, and whether the other can be dropped at once. -/
inductive Verdict where
  | takeLeft | preferLeft | even | preferRight | takeRight
deriving DecidableEq

/-- Compare two standings. -/
def Standing.compare (a b : Standing) : Verdict :=
  if !a.inError && b.inError then
    if a.cost < b.cost then .takeLeft else .preferLeft
  else if a.inError && !b.inError then
    if b.cost < a.cost then .takeRight else .preferRight
  else if a.cost < b.cost then
    if limits.costDifference < (b.cost - a.cost) * (1 + a.nodeCount) then .takeLeft
    else .preferLeft
  else if b.cost < a.cost then
    if limits.costDifference < (a.cost - b.cost) * (1 + b.nodeCount) then .takeRight
    else .preferRight
  else if b.dynamic < a.dynamic then .preferLeft
  else if a.dynamic < b.dynamic then .preferRight
  else .even

/-- The standing of a reading. -/
def standing (s : Stack) (v : Nat) : Standing :=
  let paused := s.isPaused v
  { cost := s.errorCost v + (if paused then costs.skippedTree else 0)
    nodeCount := s.nodesSinceError v
    dynamic := (s.top v).dynamic
    inError := paused || s.point v == .lost }

/-- Whether some reading would be clearly better than a reading at a given cost. -/
def betterExists (m : Machine) (v : Nat) (inError : Bool) (cost : Nat) : Bool :=
  let s := m.stack
  let done := match m.finished with
    | some t => t.errorCost ≤ cost
    | none => false
  let mine : Standing :=
    { cost := cost, nodeCount := s.nodesSinceError v, dynamic := (s.top v).dynamic,
      inError := inError }
  done || (List.range s.count).any fun i =>
    i != v && s.isActive i && (s.position v).byte ≤ (s.position i).byte &&
      (match mine.compare (standing s i) with
       | .takeRight => true
       | .preferRight => s.canMerge i v
       | _ => false)

-- ---------------------------------------------------------------------------
-- Completing whatever can be completed
-- ---------------------------------------------------------------------------

/-- The completions at a point, on one terminal or on any, and whether a terminal can be read. -/
def completions (g : Grammar) (p : Point) (only : Option Nat) : List Reduction × Bool :=
  match p with
  | .lost => ([], true)
  | .at_ s =>
    let terminals := match only with
      | some t => [t]
      | none => (List.range (g.terminalCount - 1)).map (· + 1)
    (terminals.filter fun t => TermSet.contains s.valid t).foldl
      (fun (acc : List Reduction × Bool) t =>
        (s.actions g t).foldl (fun acc action =>
          match action with
          | .shift _ repeated => (acc.1, acc.2 || !repeated)
          | .reduce r =>
            if 0 < r.count && !(acc.1.any fun e => e.lhs == r.lhs && e.count == r.count) then
              (acc.1 ++ [r], acc.2)
            else acc
          | _ => acc) acc) ([], false)

/-- Carry out completions on a reading and on the readings that come of it. The fuel bounds the
number of readings visited, and `round` counts them. -/
def completeFrom (g : Grammar) (first : Nat) (only : Option Nat) :
    Nat → Nat → Nat → Nat → Bool → Stack → Stack × Bool
  | 0, _, _, _, shifts, s => (s, shifts)
  | fuel + 1, round, initial, v, shifts, s =>
    let count := s.count
    if count ≤ v then (s, shifts)
    else
      let (s, merged) := match ((List.range v).drop initial).find? fun j => s.canMerge j v with
        | some j => s.merge g j v
        | none => (s, false)
      if merged then completeFrom g first only fuel (round + 1) initial v shifts s
      else
        let (reductions, canShift) := completions g (s.point v) only
        let (s, last) := reductions.foldl (fun (acc : Stack × Option Nat) r =>
          reduce g acc.1 v r) (s, none)
        let next := if v = first then count else v + 1
        if canShift then completeFrom g first only fuel (round + 1) initial next true s
        else
          match last with
          | some n =>
            if round < limits.versions then
              completeFrom g first only fuel (round + 1) initial v shifts (s.renumber n v)
            else
              let s := if only.isSome then s.remove v else s
              completeFrom g first only fuel (round + 1) initial next shifts s
          | none =>
            let s := if only.isSome then s.remove v else s
            completeFrom g first only fuel (round + 1) initial next shifts s

/-- Carry out every completion that is possible on a terminal, or on any terminal. Answers
whether a terminal can be read afterwards. -/
def completeAll (g : Grammar) (s : Stack) (v : Nat) (only : Option Nat) : Stack × Bool :=
  completeFrom g v only 1000 0 s.count v false s

-- ---------------------------------------------------------------------------
-- Going back and skipping
-- ---------------------------------------------------------------------------

/-- Take a number of subtrees off a reading, put what they are into an error, and go on from the
state reached. Answers whether some way back reached it. -/
def goBack (g : Grammar) (s : Stack) (v depth : Nat) (goal : Point) : Stack × Bool :=
  let (s, slices) := s.pop v depth
  let step := fun (acc : Stack × Option Nat) (slice : Slice) =>
    let (s, last) := acc
    if last == some slice.version then acc
    else if !(s.point slice.version == goal) then (s.halt slice.version, last)
    else
      let (s, before) := s.popError slice.version
      let inner := match before with
        | first :: _ => first.children
        | [] => []
      let (passage, extras) := splitExtras (inner ++ slice.subtrees)
      let s := if passage.isEmpty then s
        else
          let error := Subtree.ofChildren g errorSymbol none (s.position slice.version) passage
          s.push g slice.version (some (error.withExtra true)) goal
      let s := extras.foldl (fun s e => s.push g slice.version (some e) goal) s
      (s, some slice.version)
  let (s, last) := slices.foldl step (s, none)
  (s, last.isSome)

/-- Drop the readings from a number on that do not go on. -/
def dropInactive (s : Stack) (start : Nat) : Stack :=
  let versions := s.versions.toList
  let later := (versions.drop start).filter fun h =>
    match h.activity with
    | .active => true
    | _ => false
  { s with versions := (versions.take start ++ later).toArray }

/-- The state to go back to for a token: the nearest one in which it fits, unless another reading
is there already or would be clearly better. -/
def wayBack (l : Language) (m : Machine) (v : Nat) (lookahead : Subtree) (cost : Nat)
    (skipping : Bool) (readings : Nat) : List Waypoint → Machine × Bool
  | [] => (m, false)
  | entry :: rest =>
    let s := m.stack
    let here := s.position v
    let again := fun (m : Machine) => wayBack l m v lookahead cost skipping readings rest
    if entry.point == .lost || entry.position.byte == here.byte then again m
    else
      let taken := (List.range readings).any fun j =>
        s.point j == entry.point && (s.position j).byte == here.byte
      if taken then again m
      else
        let newCost := cost + entry.depth * costs.skippedTree +
          (here.byte - entry.position.byte) * costs.skippedByte +
          (here.row - entry.position.row) * costs.skippedRow
        if betterExists m v false newCost then (m, false)
        else if TermSet.contains (entry.point.valid l) lookahead.symbol then
          let depth := if skipping then entry.depth + 1 else entry.depth
          let (s, ok) := goBack l.grammar s v depth entry.point
          let m := { m with stack := s }
          if ok then (m, true) else again m
        else again m

/-- Put a token into the skipped passage at the top of a lost reading. -/
def skipToken (l : Language) (m : Machine) (v : Nat) (skipping : Bool) (token : Subtree) :
    Machine :=
  let g := l.grammar
  let extra := token.symbol != errorSymbol &&
    TermSet.contains g.extras token.symbol
  let token := if extra then token.withExtra true else token
  let place := m.stack.position v
  let passage := Subtree.ofChildren g skippedSymbol none place [token]
  let (s, passage) :=
    if skipping then
      let (s, slices) := m.stack.pop v 1
      match slices with
      | [] => (s, passage)
      | first :: _ =>
        let s := { s with versions := s.versions.extract 0 (first.version + 1) }
        (s.renumber first.version v,
          Subtree.ofChildren g skippedSymbol none place (first.subtrees ++ [passage]))
    else (m.stack, passage)
  let s := s.push g v (some passage) .lost
  let s := match token.layout with
    | some layout => s.modifyVersion v fun h => { h with layout := some layout }
    | none => s
  { m with stack := s }

/-- Whether a token is a layout token that changes what the scanner carries. -/
def changesLayout : Subtree → Bool
  | .leaf t => t.layoutChanged
  | .node _ _ => false

/-- Carry a lost reading past a token: go back to where it fits, and besides skip it. -/
def recover (l : Language) (m : Machine) (v : Nat) (lookahead : Subtree) : Machine :=
  let m := m.onStack (·.settle v)
  let readings := m.stack.count
  let skipping := 0 < m.stack.nodesSinceError v
  let cost := m.stack.errorCost v
  let waypoints := ((m.stack.version v).waypoints).getD []
  let (m, recovered) :=
    if lookahead.isError then (m, false)
    else wayBack l m v lookahead cost skipping readings waypoints
  let m := m.onStack (dropInactive · readings)
  if recovered && limits.versions < m.stack.count then m.onStack (·.halt v)
  else if recovered && changesLayout lookahead then m.onStack (·.halt v)
  else if lookahead.symbol = 0 then
    let g := l.grammar
    let error := Subtree.ofChildren g errorSymbol none (m.stack.position v) []
    let m := m.onStack fun s => s.push g v (some error) (.at_ l.start)
    accept l m v lookahead
  else
    let newCost := cost + costs.skippedTree + lookahead.totalBytes * costs.skippedByte +
      (lookahead.stop.row - lookahead.pad.row) * costs.skippedRow
    if betterExists m v false newCost then m.onStack (·.halt v)
    else skipToken l m v skipping lookahead

-- ---------------------------------------------------------------------------
-- Missing tokens
-- ---------------------------------------------------------------------------

/-- Whether a terminal first completes something at a point. -/
def completesOn (g : Grammar) (p : Point) (terminal : Nat) : Bool :=
  match p.actions g terminal with
  | .reduce _ :: _ => true
  | _ => false

/-- Take the first terminal as missing that lets a reading go on with the next token. -/
def insertMissing (l : Language) (s : Stack) (v : Nat) (next : Nat) :
    List Nat → Option Stack
  | [] => none
  | t :: rest =>
    let g := l.grammar
    let point := s.point v
    let valid := match point with
      | .at_ state => TermSet.contains state.valid t
      | .lost => false
    let after := if valid then point.after g t else none
    match after with
    | some target =>
      if !(target == point) && next != errorSymbol && completesOn g target next then
        let place := s.position v
        let (copied, w) := s.duplicate v
        let token : Subtree :=
          .leaf { symbol := t, pad := place, start := place, stop := place, missing := true }
        let pushed := copied.push g w (some token) target
        let (done, shifts) := completeAll g pushed w (some next)
        if shifts then some done else insertMissing l done v next rest
      else insertMissing l s v next rest
    | none => insertMissing l s v next rest

/-- Make readings lost one after another, taking a token as missing in the first that allows it. -/
def getLost (l : Language) (next : Nat) : List Nat → Bool → Stack → Stack
  | [], _, s => s
  | v :: rest, inserted, s =>
    let g := l.grammar
    let attempt :=
      if inserted then none
      else insertMissing l s v next ((List.range (g.terminalCount - 1)).map (· + 1))
    let s := attempt.getD s
    getLost l next rest (inserted || attempt.isSome) (s.push g v none .lost)

/-- Merge the reading at a number into an earlier one, a number of times. -/
def mergeTimes (g : Grammar) (a b : Nat) : Nat → Stack → Stack
  | 0, s => s
  | n + 1, s => mergeTimes g a b n (s.merge g a b).1

/-- Begin the repair of a reading at a token that does not fit. -/
def handleError (l : Language) (m : Machine) (v : Nat) (lookahead : Subtree) : Machine :=
  let g := l.grammar
  let previous := m.stack.count
  let (s, _) := completeAll g m.stack v none
  let count := s.count
  let readings := v :: (List.range count).drop previous
  let s := getLost l lookahead.symbol readings false s
  let s := mergeTimes g v previous (count - previous) s
  let s := s.recordWaypoints v
  recover l { m with stack := s } v lookahead

end ScriptWarden.Parsing
