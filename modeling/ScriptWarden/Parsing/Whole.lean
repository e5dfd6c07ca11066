import ScriptWarden.Parsing.Run
import ScriptWarden.Python.Grammar
import ScriptWarden.Tree

/-!
# From text to tree

The tree of a script: the best reading of its text with everything left out that the grammar uses
only for itself.
-/

namespace ScriptWarden.Parsing

open ScriptWarden.Grammar ScriptWarden.Text

mutual

/-- The visible nodes of a subtree, shown under a kind and in a field if its parent says so. -/
def expose (g : Grammar) (text : Array Char) (kind : Option Kind) (field : Option String) :
    Subtree → List Tree
  | .leaf l =>
    let own := labelOf g l.symbol
    if own.visible || kind.isSome then
      let shown := kind.getD own.kind
      [.node
        { kind := shown.name
          named := shown.named
          field := field
          row := l.start.row
          text := slice text l.start l.stop
          isError := l.symbol == errorSymbol
          isMissing := l.missing
          hasError := l.missing } []]
    else []
  | .node info children =>
    let own := labelOf g info.symbol
    let below := exposeAll g text (stepsOf g info.production) children
    if own.visible || kind.isSome then
      let shown := kind.getD own.kind
      [.node
        { kind := shown.name
          named := shown.named
          field := field
          row := info.start.row
          text := slice text info.start info.stop
          isError := info.symbol == errorSymbol
          hasError := 0 < info.errorCost } below]
    else below.map (Tree.fillField field)

/-- The visible nodes of the children of a production. -/
def exposeAll (g : Grammar) (text : Array Char) :
    List (Step Nat) → List Subtree → List Tree
  | _, [] => []
  | steps, c :: rest =>
    if c.isExtra then expose g text none none c ++ exposeAll g text steps rest
    else
      expose g text (steps.head?.bind (·.kind)) (steps.head?.bind (·.field)) c ++
        exposeAll g text (steps.drop 1) rest

end

/-- The language of guest scripts. -/
def python : Language := Language.ofGrammar Python.grammar

end ScriptWarden.Parsing

namespace ScriptWarden

open ScriptWarden.Parsing

/-- The tree of a script. -/
def Tree.ofSource (source : String) : Option Tree :=
  let text := source.toList.toArray
  (parse python text).bind fun t => (expose python.grammar text none none t).head?

end ScriptWarden
