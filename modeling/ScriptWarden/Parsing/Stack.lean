import ScriptWarden.Parsing.Subtree

/-!
# The stack of all readings

Several readings of a text share one stack: a node for each place and state that some reading has
reached, with a link to every node it was reached from, and a version for each reading under way.
Versions that reach the same state at the same place merge.
-/

namespace ScriptWarden.Parsing

open ScriptWarden.Grammar ScriptWarden.Text ScriptWarden.Python

-- ---------------------------------------------------------------------------
-- The stack
-- ---------------------------------------------------------------------------

/-- Where a reading stands in the grammar. -/
inductive Point where
  /-- Nowhere: tokens are skipped until one fits. -/
  | lost
  | at_ (state : State)
deriving Inhabited

instance : BEq Point where
  beq
    | .lost, .lost => true
    | .at_ a, .at_ b => a == b
    | _, _ => false

/-- A way to a node: the node before and the subtree between; no subtree where a reading got
lost. -/
structure Link where
  node : Nat
  subtree : Option Subtree
deriving Inhabited

/-- A node of the stack. -/
structure StackNode where
  point : Point
  position : Position := {}
  links : List Link := []
  errorCost : Nat := 0
  nodeCount : Nat := 0
  dynamic : Int := 0
deriving Inhabited

/-- A state that a lost reading passed on its way, and how many subtrees ago. -/
structure Waypoint where
  position : Position
  depth : Nat
  point : Point
deriving Inhabited

/-- Whether a reading goes on. -/
inductive Activity where
  | active
  /-- Waiting, at a token that does not fit, for the other readings. -/
  | paused (lookahead : Subtree)
  | halted
deriving Inhabited

/-- A reading under way. -/
structure Version where
  node : Nat
  waypoints : Option (List Waypoint) := none
  nodeCountAtError : Nat := 0
  layout : Option LayoutState := none
  activity : Activity := .active
deriving Inhabited

/-- The stack of all readings. -/
structure Stack where
  nodes : Array StackNode
  versions : Array Version
deriving Inhabited

/-- Limits on the number of readings that are followed. -/
structure StackLimits where
  versions : Nat := 6
  overflow : Nat := 4
  links : Nat := 8
  walkers : Nat := 64
  waypointDepth : Nat := 16
  costDifference : Nat := 1800
deriving Inhabited

/-- The limits in force. -/
def limits : StackLimits := {}

namespace Stack

/-- The stack with one reading at a state. -/
def start (s : State) : Stack :=
  { nodes := #[{ point := .at_ s }], versions := #[{ node := 0 }] }

/-- The number of readings. -/
def count (s : Stack) : Nat := s.versions.size

/-- A reading by number. -/
def version (s : Stack) (v : Nat) : Version := s.versions.getD v default

/-- A node by number. -/
def node (s : Stack) (n : Nat) : StackNode := s.nodes.getD n default

/-- The node at the top of a reading. -/
def top (s : Stack) (v : Nat) : StackNode := s.node (s.version v).node

/-- Where a reading stands in the grammar. -/
def point (s : Stack) (v : Nat) : Point := (s.top v).point

/-- Where a reading stands in the text. -/
def position (s : Stack) (v : Nat) : Position := (s.top v).position

/-- Whether a reading goes on. -/
def isActive (s : Stack) (v : Nat) : Bool :=
  match (s.version v).activity with
  | .active => decide (v < s.versions.size)
  | _ => false

/-- Whether a reading waits at a token that does not fit. -/
def isPaused (s : Stack) (v : Nat) : Bool :=
  match (s.version v).activity with
  | .paused _ => true
  | _ => false

/-- Whether a reading has ended. -/
def isHalted (s : Stack) (v : Nat) : Bool :=
  match (s.version v).activity with
  | .halted => true
  | _ => false

/-- Change a reading. -/
def modifyVersion (s : Stack) (v : Nat) (f : Version → Version) : Stack :=
  { s with versions := s.versions.modify v f }

/-- End a reading. -/
def halt (s : Stack) (v : Nat) : Stack := s.modifyVersion v fun h => { h with activity := .halted }

/-- Drop a reading; those after it move up. -/
def remove (s : Stack) (v : Nat) : Stack := { s with versions := s.versions.eraseIdxIfInBounds v }

/-- Exchange two readings. -/
def swap (s : Stack) (a b : Nat) : Stack :=
  { s with versions := s.versions.swapIfInBounds a b }

/-- A second copy of a reading, as the last one. -/
def duplicate (s : Stack) (v : Nat) : Stack × Nat :=
  ({ s with versions := s.versions.push { s.version v with waypoints := none } },
    s.versions.size)

/-- Put a reading in the place of an earlier one. -/
def renumber (s : Stack) (source target : Nat) : Stack :=
  if source = target then s
  else
    let h := s.version source
    let waypoints := h.waypoints <|> (s.version target).waypoints
    { s with versions :=
        (s.versions.set! target { h with waypoints := waypoints }).eraseIdxIfInBounds source }

/-- A new reading at a node, with the history of another. -/
def addVersion (s : Stack) (ancestor node : Nat) : Stack × Nat :=
  let h := s.version ancestor
  let added : Version :=
    { node := node, nodeCountAtError := h.nodeCountAtError, layout := h.layout }
  ({ s with versions := s.versions.push added }, s.versions.size)

/-- Put a subtree on a reading. Without a subtree the reading gets lost. -/
def push (g : Grammar) (s : Stack) (v : Nat) (subtree : Option Subtree) (point : Point) :
    Stack :=
  let h := s.version v
  let below := s.node h.node
  let node : StackNode := match subtree with
    | some t =>
      { point := point
        position := t.stop
        links := [⟨h.node, some t⟩]
        errorCost := below.errorCost + t.errorCost
        nodeCount := below.nodeCount + t.nodeCount g
        dynamic := below.dynamic + t.dynamic }
    | none => { below with point := point, links := [⟨h.node, none⟩] }
  let h := { h with
    node := s.nodes.size
    nodeCountAtError := if subtree.isNone then node.nodeCount else h.nodeCountAtError }
  { nodes := s.nodes.push node, versions := s.versions.set! v h }

-- ---------------------------------------------------------------------------
-- Merging
-- ---------------------------------------------------------------------------

/-- The figures of a node reached by a link. -/
def linkFigures (g : Grammar) (s : Stack) (link : Link) : Nat × Int :=
  let below := s.node link.node
  match link.subtree with
  | some t => (below.nodeCount + t.nodeCount g, below.dynamic + t.dynamic)
  | none => (below.nodeCount, below.dynamic)

/-- Change a node. -/
def modifyNode (s : Stack) (n : Nat) (f : StackNode → StackNode) : Stack :=
  { s with nodes := s.nodes.modify n f }

/-- Add a link to a node. A link that says the same as one that is there replaces it if it is
preferred, or merges the nodes before. The fuel bounds the depth of such merges. -/
def addLink (g : Grammar) : Nat → Stack → Nat → Link → Stack
  | 0, s, _, _ => s
  | fuel + 1, s, n, link =>
    if link.node = n then s
    else
      let self := s.node n
      let same := self.links.zipIdx.filter fun (old, _) =>
        interchangeable old.subtree link.subtree
      let joined : Option (Sum (Link × Nat) Nat) := same.findSome? fun (old, i) =>
        let a := s.node old.node
        let b := s.node link.node
        if old.node = link.node then some (.inl (old, i))
        else if a.point == b.point && a.position.byte == b.position.byte &&
            a.errorCost == b.errorCost then some (.inr old.node)
        else none
      match joined with
      | some (.inl (old, i)) =>
        let oldDynamic := (old.subtree.map (·.dynamic)).getD 0
        let newDynamic := (link.subtree.map (·.dynamic)).getD 0
        if oldDynamic < newDynamic then
          s.modifyNode n fun self =>
            { self with
              links := self.links.set i link
              dynamic := (s.node link.node).dynamic + newDynamic }
        else s
      | some (.inr below) =>
        let merged := (s.node link.node).links.foldl (fun s l => addLink g fuel s below l) s
        let dynamic := (linkFigures g merged link).2
        merged.modifyNode n fun self =>
          { self with dynamic := max self.dynamic dynamic }
      | none =>
        if self.links.length = limits.links then s
        else
          let (nodeCount, dynamic) := linkFigures g s link
          s.modifyNode n fun self =>
            { self with
              links := self.links ++ [link]
              nodeCount := max self.nodeCount nodeCount
              dynamic := max self.dynamic dynamic }

/-- Whether two readings have reached the same point. -/
def canMerge (s : Stack) (a b : Nat) : Bool :=
  s.isActive a && s.isActive b &&
    s.point a == s.point b &&
    (s.position a).byte == (s.position b).byte &&
    (s.top a).errorCost == (s.top b).errorCost &&
    (s.version a).layout == (s.version b).layout

/-- Merge the second reading into the first if they have reached the same point. -/
def merge (g : Grammar) (s : Stack) (a b : Nat) : Stack × Bool :=
  if s.canMerge a b then
    let target := (s.version a).node
    let merged := (s.top b).links.foldl (fun s l => addLink g (s.nodes.size + 1) s target l) s
    let merged :=
      if merged.point a == .lost then
        merged.modifyVersion a fun h => { h with nodeCountAtError := (merged.node target).nodeCount }
      else merged
    (merged.remove b, true)
  else (s, false)

-- ---------------------------------------------------------------------------
-- Walking back
-- ---------------------------------------------------------------------------

/-- A walk from the top of a reading towards its beginning. -/
structure Walker where
  node : Nat
  /-- The subtrees passed, the last one passed first. -/
  passed : List Subtree := []
  /-- How many of them count. -/
  count : Nat := 0
deriving Inhabited

/-- What to do with a walk at a node. -/
structure Halt where
  take : Bool
  stop : Bool

/-- A walk that has been taken: the subtrees passed in the order of the text, and the reading
that begins at the node reached. -/
structure Slice where
  subtrees : List Subtree
  version : Nat
deriving Inhabited

/-- The walk along a link. -/
def Walker.along (w : Walker) (link : Link) : Walker :=
  match link.subtree with
  | some t =>
    { node := link.node
      passed := t :: w.passed
      count := if t.isExtra then w.count else w.count + 1 }
  | none => { w with node := link.node, count := w.count + 1 }

/-- Take a walk: readings that begin at the same node are one reading with several slices. -/
def addSlice (s : Stack) (ancestor : Nat) (slices : List Slice) (w : Walker) :
    Stack × List Slice :=
  match (slices.zipIdx.reverse).find? fun (x, _) => (s.version x.version).node == w.node with
  | some (x, i) =>
    (s, slices.take (i + 1) ++ [⟨w.passed, x.version⟩] ++ slices.drop (i + 1))
  | none =>
    let (s, v) := s.addVersion ancestor w.node
    (s, slices ++ [⟨w.passed, v⟩])

/-- The state of a round of walks: the stack, a visitor's own state, the slices, the walks that
go on in place, and those that branched off. -/
structure Round (σ : Type) where
  stack : Stack
  visitor : σ
  slices : List Slice
  going : List Walker
  branched : List Walker

/-- Move one walk back by one link. -/
def stepWalker {σ : Type} (ancestor : Nat) (visit : σ → Stack → Walker → σ × Halt)
    (round : Round σ) (w : Walker) (waiting : Nat) : Round σ :=
  let node := round.stack.node w.node
  let (visitor, halt) := visit round.visitor round.stack w
  let stop := halt.stop || node.links.isEmpty
  let (stack, slices) :=
    if halt.take then addSlice round.stack ancestor round.slices w
    else (round.stack, round.slices)
  let round := { round with stack := stack, slices := slices, visitor := visitor }
  if stop then round
  else
    match node.links with
    | [] => round
    | first :: others =>
      let base := round.going.length + 1 + waiting
      let branched := others.foldl (fun branched link =>
        if limits.walkers ≤ base + branched.length then branched
        else branched ++ [w.along link]) round.branched
      { round with going := round.going ++ [w.along first], branched := branched }

/-- One round: every walk moves back by one link. -/
def stepWalkers {σ : Type} (ancestor : Nat) (visit : σ → Stack → Walker → σ × Halt) :
    Round σ → List Walker → Round σ
  | round, [] => round
  | round, w :: rest => stepWalkers ancestor visit (stepWalker ancestor visit round w rest.length) rest

/-- Rounds until no walk goes on. The fuel bounds the length of a walk. -/
def walkRounds {σ : Type} (ancestor : Nat) (visit : σ → Stack → Walker → σ × Halt) :
    Nat → Stack → σ → List Slice → List Walker → Stack × σ × List Slice
  | 0, s, x, slices, _ => (s, x, slices)
  | _, s, x, slices, [] => (s, x, slices)
  | fuel + 1, s, x, slices, walkers =>
    let round := stepWalkers ancestor visit ⟨s, x, slices, [], []⟩ walkers
    walkRounds ancestor visit fuel round.stack round.visitor round.slices
      (round.going ++ round.branched)

/-- Walk back from the top of a reading. -/
def walk {σ : Type} (s : Stack) (v : Nat) (visit : σ → Stack → Walker → σ × Halt) (x : σ) :
    Stack × σ × List Slice :=
  walkRounds v visit (s.nodes.size + 2) s x [] [{ node := (s.version v).node }]

/-- Take a number of subtrees off a reading, on every way back. -/
def pop (s : Stack) (v count : Nat) : Stack × List Slice :=
  let (s, _, slices) := s.walk v (fun (_ : Unit) _ w =>
    ((), if w.count = count then ⟨true, true⟩ else ⟨false, false⟩)) ()
  (s, slices)

/-- Take everything off a reading, on every way back. -/
def popAll (s : Stack) (v : Nat) : Stack × List Slice :=
  let (s, _, slices) := s.walk v (fun (_ : Unit) s w =>
    ((), ⟨(s.node w.node).links.isEmpty, false⟩)) ()
  (s, slices)

/-- Take a skipped passage off the top of a reading, if there is one. -/
def popError (s : Stack) (v : Nat) : Stack × List Subtree :=
  let hasError := (s.top v).links.any fun l => (l.subtree.map (·.isError)).getD false
  if hasError then
    let (t, _, slices) := s.walk v (fun (found : Bool) _ w =>
      match w.passed with
      | [] => (found, ⟨false, false⟩)
      | first :: _ =>
        if !found && first.isError then (true, ⟨true, true⟩) else (found, ⟨false, true⟩)) false
    match slices with
    | first :: _ => (t.renumber first.version v, first.subtrees)
    | [] => (t, [])
  else (s, [])

/-- Note the states that a reading passed on its way, nearest first, each once for a depth. -/
def recordWaypoints (s : Stack) (v : Nat) : Stack :=
  let (s, found, _) := s.walk v (fun (found : List Waypoint) s w =>
    let node := s.node w.node
    if limits.waypointDepth < w.count then (found, ⟨false, true⟩)
    else if found.any fun e => e.depth == w.count && e.point == node.point then
      (found, ⟨false, false⟩)
    else (found ++ [⟨node.position, w.count, node.point⟩], ⟨false, false⟩)) []
  s.modifyVersion v fun h => { h with waypoints := some found }

-- ---------------------------------------------------------------------------
-- Figures of a reading
-- ---------------------------------------------------------------------------

/-- What the repairs of a reading cost so far, the one it is in the middle of included. -/
def errorCost (s : Stack) (v : Nat) : Nat :=
  let node := s.top v
  let unsettled := s.isPaused v ||
    (node.point == .lost && ((node.links.head?.map (·.subtree.isNone)).getD true))
  node.errorCost + (if unsettled then costs.recovery else 0)

/-- A reading that has lost nodes counts from what it has left. -/
def settle (s : Stack) (v : Nat) : Stack :=
  let n := (s.top v).nodeCount
  if n < (s.version v).nodeCountAtError then
    s.modifyVersion v fun h => { h with nodeCountAtError := n }
  else s

/-- How many nodes a reading has added since it was last repaired. -/
def nodesSinceError (s : Stack) (v : Nat) : Nat :=
  (s.top v).nodeCount - (s.version v).nodeCountAtError

/-- Whether the way back from a node has a token of some length before its last repair. The fuel
bounds the way. -/
def advancedFrom (s : Stack) (atError : Nat) : Nat → Nat → Bool
  | 0, _ => false
  | fuel + 1, n =>
    let node := s.node n
    match node.links with
    | ⟨below, some t⟩ :: _ =>
      if 0 < t.totalBytes then true
      else if atError < node.nodeCount && t.errorCost = 0 then
        advancedFrom s atError fuel below
      else false
    | _ => false

/-- Whether a reading has moved on since it was last repaired. -/
def hasAdvanced (s : Stack) (v : Nat) : Bool :=
  (s.top v).errorCost = 0 ||
    advancedFrom s (s.version v).nodeCountAtError (s.nodes.size + 1) (s.version v).node

end Stack

end ScriptWarden.Parsing
