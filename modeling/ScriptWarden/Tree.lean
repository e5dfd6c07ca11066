/-!
# Syntax trees

The tree of a script as its checks see it: every node has a kind, the field it fills in its
parent, the row it begins in, its text, and whether it stands for an error. Main notions: a node's
child by field, and the named nodes of a tree in document order, each with its parent.
-/

namespace ScriptWarden

/-- What a node is apart from its children. -/
structure NodeLabel where
  kind : String
  /-- Whether the node is more than punctuation or a keyword. -/
  named : Bool := true
  /-- The field of the parent that the node fills. -/
  field : Option String := none
  /-- The row the node begins in, counted from 0. -/
  row : Nat := 0
  text : String := ""
  /-- Whether the node is a passage that the grammar has no place for. -/
  isError : Bool := false
  /-- Whether the node is a token taken as missing. -/
  isMissing : Bool := false
  /-- Whether a repair was made inside the node. -/
  hasError : Bool := false
deriving DecidableEq, Inhabited, Repr

/-- A syntax tree. -/
inductive Tree where
  | node (label : NodeLabel) (children : List Tree)
deriving Inhabited, Repr

namespace Tree

/-- What the root is apart from its children. -/
def label : Tree → NodeLabel
  | .node l _ => l

/-- The children of the root. -/
def children : Tree → List Tree
  | .node _ cs => cs

/-- The kind of the root. -/
def kind (t : Tree) : String := t.label.kind

/-- The text of the root. -/
def text (t : Tree) : String := t.label.text

/-- The line the root begins in, counted from 1. -/
def line (t : Tree) : Nat := t.label.row + 1

/-- The position of the first child that fills a field. -/
def childIndex? (t : Tree) (field : String) : Option Nat :=
  t.children.findIdx? (·.label.field == some field)

/-- The first child that fills a field. -/
def child? (t : Tree) (field : String) : Option Tree :=
  t.children.find? (·.label.field == some field)

/-- All children that fill a field. -/
def childrenOf (t : Tree) (field : String) : List Tree :=
  t.children.filter (·.label.field == some field)

/-- The children that are more than punctuation or keywords. -/
def namedChildren (t : Tree) : List Tree := t.children.filter (·.label.named)

/-- Fill a field unless one is filled already. -/
def fillField (field : Option String) : Tree → Tree
  | .node l cs => .node { l with field := l.field <|> field } cs

end Tree

/-- A node at its place in a tree: the node, and its parent with the node's position there. -/
structure Place where
  node : Tree
  parent : Option (Tree × Nat) := none
deriving Inhabited

/-- Whether a place fills a field of its parent, as the first child to do so. -/
def Place.isField (p : Place) (field : String) : Bool :=
  match p.parent with
  | some (parent, i) => parent.childIndex? field == some i
  | none => false

/-- The kind of the parent. -/
def Place.parentKind (p : Place) : Option String := p.parent.map (·.1.kind)

mutual

/-- The named nodes of a tree in document order, a node before its children. -/
def Tree.placesBelow (parent : Option (Tree × Nat)) : Tree → List Place
  | t@(.node _ cs) => ⟨t, parent⟩ :: Tree.placesOfAll t 0 cs

/-- The named nodes of a list of siblings, whose first one has a given position. -/
def Tree.placesOfAll (parent : Tree) (i : Nat) : List Tree → List Place
  | [] => []
  | c :: rest =>
    (if c.label.named then Tree.placesBelow (some (parent, i)) c else []) ++
      Tree.placesOfAll parent (i + 1) rest

end

/-- The root and the named nodes below it in document order, a node before its children. -/
def Tree.places (t : Tree) : List Place := Tree.placesBelow none t

end ScriptWarden
