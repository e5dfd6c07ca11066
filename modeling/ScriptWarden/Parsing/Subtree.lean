import ScriptWarden.Grammar.Automaton
import ScriptWarden.Python.Layout

/-!
# Subtrees

What the parser puts on its stack: tokens and the nodes built from them, each with the figures by
which competing readings of a text are compared.
-/

namespace ScriptWarden.Parsing

open ScriptWarden.Grammar ScriptWarden.Text ScriptWarden.Python

-- ---------------------------------------------------------------------------
-- Costs
-- ---------------------------------------------------------------------------

/-- What each kind of repair costs. -/
structure RepairCosts where
  recovery : Nat := 500
  missingToken : Nat := 110
  skippedTree : Nat := 100
  skippedRow : Nat := 30
  skippedByte : Nat := 1
deriving Inhabited

/-- The costs by which readings are compared. -/
def costs : RepairCosts := {}

-- ---------------------------------------------------------------------------
-- Subtrees
-- ---------------------------------------------------------------------------

/-- The symbol of a node that holds a passage the grammar has no place for. -/
def errorSymbol : Nat := 65535

/-- The symbol of a passage that is still growing while the parser skips tokens. -/
def skippedSymbol : Nat := 65534

/-- A token. -/
structure Leaf where
  symbol : Nat
  /-- Where the white space before it begins. -/
  pad : Position
  start : Position
  stop : Position
  extra : Bool := false
  missing : Bool := false
  /-- Whether the token is a word that is a terminal of its own. -/
  keyword : Bool := false
  /-- What the layout scanner carries after a token of its own. -/
  layout : Option LayoutState := none
  /-- Whether that differs from what it carried before. -/
  layoutChanged : Bool := false
deriving Inhabited

/-- The figures of an inner node. -/
structure NodeInfo where
  symbol : Nat
  /-- The production whose kinds and fields the children have; none for passages skipped. -/
  production : Option Nat
  extra : Bool := false
  pad : Position
  start : Position
  stop : Position
  errorCost : Nat := 0
  dynamic : Int := 0
  visibleChildren : Nat := 0
  visibleDescendants : Nat := 0
deriving Inhabited

/-- A token or an inner node. -/
inductive Subtree where
  | leaf (l : Leaf)
  | node (info : NodeInfo) (children : List Subtree)
deriving Inhabited

namespace Subtree

/-- The symbol at the root. -/
def symbol : Subtree → Nat
  | .leaf l => l.symbol
  | .node i _ => i.symbol

/-- Where the white space before the subtree begins. -/
def pad : Subtree → Position
  | .leaf l => l.pad
  | .node i _ => i.pad

/-- Where the subtree begins. -/
def start : Subtree → Position
  | .leaf l => l.start
  | .node i _ => i.start

/-- Where the subtree ends. -/
def stop : Subtree → Position
  | .leaf l => l.stop
  | .node i _ => i.stop

/-- Whether the subtree may stand anywhere. -/
def isExtra : Subtree → Bool
  | .leaf l => l.extra
  | .node i _ => i.extra

/-- The children of an inner node. -/
def children : Subtree → List Subtree
  | .leaf _ => []
  | .node _ cs => cs

/-- What the repairs inside the subtree cost. -/
def errorCost : Subtree → Nat
  | .leaf l => if l.missing then costs.missingToken + costs.recovery else 0
  | .node i _ => i.errorCost

/-- The sum of the dynamic precedences inside the subtree. -/
def dynamic : Subtree → Int
  | .leaf _ => 0
  | .node i _ => i.dynamic

/-- Whether the subtree is a passage that the grammar has no place for. -/
def isError (t : Subtree) : Bool := t.symbol == errorSymbol

/-- How many visible nodes lie strictly below the root. -/
def visibleDescendants : Subtree → Nat
  | .leaf _ => 0
  | .node i _ => i.visibleDescendants

/-- How many visible nodes lie below the root with no visible node between. -/
def visibleChildren : Subtree → Nat
  | .leaf _ => 0
  | .node i _ => i.visibleChildren

/-- The bytes of the subtree and the white space before it. -/
def totalBytes (t : Subtree) : Nat := t.stop.byte - t.pad.byte

/-- What the layout scanner carries after the subtree, if it is a token of the scanner. -/
def layout : Subtree → Option LayoutState
  | .leaf l => l.layout
  | .node _ _ => none

/-- Mark a subtree as one that may stand anywhere. -/
def withExtra (extra : Bool) : Subtree → Subtree
  | .leaf l => .leaf { l with extra := extra }
  | .node i cs => .node { i with extra := extra } cs

/-- Add to the dynamic precedence of an inner node. -/
def addDynamic (n : Int) : Subtree → Subtree
  | .leaf l => .leaf l
  | .node i cs => .node { i with dynamic := i.dynamic + n } cs

end Subtree

/-- How a symbol shows in a tree; skipped passages show their contents only. -/
def labelOf (g : Grammar) (symbol : Nat) : Label :=
  if symbol = errorSymbol then ⟨⟨"ERROR", true⟩, true⟩
  else if symbol = skippedSymbol then ⟨⟨"_ERROR", false⟩, false⟩
  else if symbol < g.terminalCount then g.terminals.getD symbol default
  else g.nonterminals.getD (symbol - g.terminalCount) default

/-- The steps of a production, for the kinds and fields of children. -/
def stepsOf (g : Grammar) (production : Option Nat) : List (Step Nat) :=
  match production with
  | some p => ((g.productions[p]?).map (·.steps.toList)).getD []
  | none => []

/-- Whether a subtree is visible as it stands. -/
def Subtree.visible (g : Grammar) (t : Subtree) : Bool := (labelOf g t.symbol).visible

/-- The visible nodes of a subtree, itself and growing passages included. -/
def Subtree.nodeCount (g : Grammar) (t : Subtree) : Nat :=
  t.visibleDescendants + (if t.visible g then 1 else 0) +
    (if t.symbol = skippedSymbol then 1 else 0)

/-- What one child adds to the figures of its parent. -/
def addChild (g : Grammar) (symbol : Nat) (acc : NodeInfo × List (Step Nat)) (child : Subtree) :
    NodeInfo × List (Step Nat) :=
  let (info, steps) := acc
  let inError := symbol = errorSymbol || symbol = skippedSymbol
  let grown := if child.symbol = skippedSymbol then 0 else child.errorCost
  let skipped :=
    if inError && !child.isExtra && !(child.isError && child.children.isEmpty) then
      if child.visible g then costs.skippedTree
      else if child.children.isEmpty then 0
      else costs.skippedTree * child.visibleChildren
    else 0
  let relabelled := !child.isExtra && child.symbol ≠ 0 &&
    ((steps.head?.bind (·.kind)).isSome)
  let (shown, below) :=
    if relabelled || child.visible g then (1, 1)
    else (child.visibleChildren, 0)
  ({ info with
      errorCost := info.errorCost + grown + skipped
      dynamic := info.dynamic + child.dynamic
      visibleChildren := info.visibleChildren + shown
      visibleDescendants := info.visibleDescendants + child.visibleDescendants + below },
    if child.isExtra then steps else steps.drop 1)

/-- The node of a symbol with given children; one without children stands at a given place. -/
def Subtree.ofChildren (g : Grammar) (symbol : Nat) (production : Option Nat)
    (place : Position) (children : List Subtree) : Subtree :=
  let pad := (children.head?.map (·.pad)).getD place
  let start := (children.head?.map (·.start)).getD place
  let stop := (children.getLast?.map (·.stop)).getD place
  let blank : NodeInfo :=
    { symbol := symbol, production := production, pad := pad, start := start, stop := stop }
  let (info, _) := children.foldl (addChild g symbol) (blank, stepsOf g production)
  let own :=
    if symbol = errorSymbol || symbol = skippedSymbol then
      costs.recovery + costs.skippedByte * (stop.byte - start.byte) +
        costs.skippedRow * (stop.row - start.row)
    else 0
  .node { info with errorCost := info.errorCost + own } children

-- ---------------------------------------------------------------------------
-- Comparison
-- ---------------------------------------------------------------------------

mutual

/-- Order subtrees by symbol, then by number of children, then by children from left to right. -/
def Subtree.order : Subtree → Subtree → Ordering
  | .leaf a, .leaf b => compare a.symbol b.symbol
  | .leaf a, .node i cs => (compare a.symbol i.symbol).then (if cs.isEmpty then .eq else .lt)
  | .node i cs, .leaf b => (compare i.symbol b.symbol).then (if cs.isEmpty then .eq else .gt)
  | .node i cs, .node j ds =>
    (compare i.symbol j.symbol).then
      ((compare cs.length ds.length).then (Subtree.orderAll cs ds))

/-- `Subtree.order` over lists of equal length. -/
def Subtree.orderAll : List Subtree → List Subtree → Ordering
  | a :: as, b :: bs => (Subtree.order a b).then (Subtree.orderAll as bs)
  | _, _ => .eq

end

/-- Whether the second of two readings of the same passage is the better one. -/
def prefersSecond (left right : Subtree) : Bool :=
  if right.errorCost < left.errorCost then true
  else if left.errorCost < right.errorCost then false
  else if left.dynamic < right.dynamic then true
  else if right.dynamic < left.dynamic then false
  else if 0 < left.errorCost then true
  else Subtree.order left right == .gt

/-- Whether two subtrees on links between the same places need not both be kept. -/
def interchangeable : Option Subtree → Option Subtree → Bool
  | none, none => true
  | some a, some b =>
    a.symbol == b.symbol &&
      ((0 < a.errorCost && 0 < b.errorCost) ||
        (a.start.byte - a.pad.byte == b.start.byte - b.pad.byte &&
          a.stop.byte - a.start.byte == b.stop.byte - b.start.byte &&
          a.children.length == b.children.length && a.isExtra == b.isExtra &&
          a.layout == b.layout))
  | _, _ => false

end ScriptWarden.Parsing
