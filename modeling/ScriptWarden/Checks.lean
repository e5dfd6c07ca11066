import ScriptWarden.Confinement
import ScriptWarden.Policy.Basic
import ScriptWarden.Tree

/-!
# Checks

What the checks find at each node of a script: imports of blocked modules, uses of blocked names,
and file operations that leave the allowed directories. Each node is judged on its own, with its
parent; the findings of a tree are those of its nodes in document order.
-/

namespace ScriptWarden

-- ---------------------------------------------------------------------------
-- Findings
-- ---------------------------------------------------------------------------

/-- A use of something that the policy does not allow. -/
inductive Violation where
  | blockedImport (name : String)
  | blockedFromImport (module : String)
  | blockedBuiltin (name : String)
  | blockedFunction (chain : String)
  | blockedAttribute (chain : String)
  | blockedDunder (attr : String)
  | blockedReference (name : String)
  | disallowedPath (operation path : String)
  | dynamicWrite (directory : String)
deriving DecidableEq, Repr, Inhabited

/-- The wording of a violation. -/
def Violation.message : Violation → String
  | .blockedImport name => "Blocked import '" ++ name ++ "'"
  | .blockedFromImport module => "Blocked import 'from " ++ module ++ "'"
  | .blockedBuiltin name => "Blocked builtin '" ++ name ++ "()'"
  | .blockedFunction chain => "Blocked function '" ++ chain ++ "()'"
  | .blockedAttribute chain => "Blocked attribute '" ++ chain ++ "'"
  | .blockedDunder attr => "Blocked dunder access '" ++ attr ++ "'"
  | .blockedReference name => "Blocked reference to '" ++ name ++ "'"
  | .disallowedPath operation path =>
    "File operation '" ++ operation ++ "' on disallowed path '" ++ path ++ "'"
  | .dynamicWrite directory =>
    "Write operation with dynamic path - ensure path is within " ++ directory

/-- A violation and the line of the node it was found at. -/
structure Finding where
  line : Nat
  violation : Violation
deriving DecidableEq, Repr, Inhabited

/-- What the checks need to know besides the tree. -/
structure Rules where
  policy : Policy
  /-- The directory that relative paths are seen from. -/
  scriptsDir : String
deriving DecidableEq, Repr, Inhabited

/-- The directories that file operations may touch. -/
def Rules.roots (r : Rules) : List String := effectiveRoots r.scriptsDir r.policy.allowedPaths

/-- Whether a file operation may touch a path. -/
def Rules.allowsPath (r : Rules) (path : String) : Bool :=
  isPathAllowed path r.scriptsDir r.roots

-- ---------------------------------------------------------------------------
-- Names
-- ---------------------------------------------------------------------------

/-- Whether a kind is that of a plain name. -/
def isNameKind (kind : String) : Bool := kind == "identifier" || kind == "keyword_identifier"

mutual

/-- The names of an attribute chain that begins with a plain name. -/
def Tree.chain? : Tree → Option (List String)
  | .node l cs =>
    if isNameKind l.kind then some [l.text]
    else if l.kind == "attribute" then
      match cs.find? (·.label.field == some "attribute"), Tree.objectChain? cs with
      | some attr, some names => some (names ++ [attr.text])
      | _, _ => none
    else none

/-- The chain of the first child that is the object of an attribute. -/
def Tree.objectChain? : List Tree → Option (List String)
  | [] => none
  | c :: rest =>
    if c.label.field == some "object" then Tree.chain? c else Tree.objectChain? rest

end

/-- An attribute chain as it is written without spaces. -/
def Tree.dotted? (t : Tree) : Option String := t.chain?.map (String.intercalate ".")

/-- The module that an import target names, aliases looked through. -/
def Tree.importedName? (t : Tree) : Option String :=
  let name := if t.kind == "aliased_import" then t.child? "name" else some t
  name.bind fun n => if n.kind == "dotted_name" then some n.text else none

/-- The modules that an import names. -/
def Tree.importTargets (t : Tree) : List String :=
  (t.childrenOf "name").filterMap Tree.importedName?

-- ---------------------------------------------------------------------------
-- Arguments
-- ---------------------------------------------------------------------------

/-- The arguments of a call by position, and those by keyword. -/
structure Arguments where
  positional : List Tree := []
  keywords : List (String × Tree) := []
deriving Inhabited

/-- The arguments of a call; splats and comments are neither by position nor by keyword. -/
def Tree.arguments (call : Tree) : Arguments :=
  match call.child? "arguments" with
  | some list =>
    if list.kind == "argument_list" then
      { positional := list.namedChildren.filter fun a =>
          !(["keyword_argument", "list_splat", "dictionary_splat", "comment"].contains a.kind)
        keywords := (list.namedChildren.filter (·.kind == "keyword_argument")).filterMap fun a =>
          match a.child? "name", a.child? "value" with
          | some name, some value => some (name.text, value)
          | _, _ => none }
    else {}
  | none => {}

/-- The first argument with a keyword. -/
def Arguments.keyword? (a : Arguments) (name : String) : Option Tree :=
  (a.keywords.find? (·.1 == name)).map (·.2)

/-- The text between the quotes of a plain string. Strings with parts to be filled in, and strings
written in several pieces, are not plain. -/
def Tree.stringLiteral? (t : Tree) : Option String :=
  let formatted := fun (c : Tree) =>
    c.kind == "interpolation" ||
      (c.kind == "string_start" && c.text.toList.any fun ch => ch == 'f' || ch == 'F')
  if t.kind == "string" && !t.children.any formatted then
    some (String.join ((t.children.filter (·.kind == "string_content")).map (·.text)))
  else none

-- ---------------------------------------------------------------------------
-- Imports
-- ---------------------------------------------------------------------------

/-- Whether a module that is imported may be a sibling script. -/
def Policy.isLocalCandidate (p : Policy) (module : String) : Bool :=
  !module.isEmpty && !module.toList.contains '.' && !isStandardModule module &&
    !p.isKnownPackage module && !p.isBlockedModule module

/-- What a check finds at a node: violations, and modules that may be sibling scripts. -/
structure Findings where
  violations : List Violation := []
  siblings : List String := []
deriving Inhabited

/-- The sibling scripts among modules. -/
def Policy.siblings (p : Policy) (modules : List String) : List String :=
  modules.filter p.isLocalCandidate

/-- The check of `import a, b.c as d`. -/
def Policy.checkImport (p : Policy) (node : Tree) : Findings :=
  let targets := node.importTargets
  { violations := (targets.filter p.isBlockedModule).map .blockedImport
    siblings := p.siblings (targets.filter fun m => !p.isBlockedModule m) }

/-- The dots of a relative import and the module after them. -/
def Tree.relativeParts (module : Tree) : String × Option String :=
  let pick := fun (kind : String) => (module.children.filter (·.kind == kind)).getLast?
  (((pick "import_prefix").map (·.text)).getD "", (pick "dotted_name").map (·.text))

/-- The check of `from m import a, b`. Siblings are named by one dot before the module, or before
the names where there is no module; more dots leave the directory. -/
def Policy.checkFromImport (p : Policy) (node : Tree) : Findings :=
  match node.child? "module_name" with
  | none => {}
  | some module =>
    let names := node.importTargets
    if module.kind == "relative_import" then
      match module.relativeParts with
      | (".", some m) => { siblings := p.siblings [m] }
      | (".", none) => { siblings := p.siblings names }
      | _ => {}
    else if p.isBlockedModule module.text then
      { violations := [.blockedFromImport module.text] }
    else
      let qualified := names.map fun n => module.text ++ "." ++ n
      { violations := (qualified.filter fun q =>
          p.isBlockedModule q || p.isBlockedFunction q).map .blockedImport
        siblings := p.siblings [module.text] }

-- ---------------------------------------------------------------------------
-- File operations
-- ---------------------------------------------------------------------------

/-- Functions that create, remove or change entries of the file system. -/
def destructiveFunctions : List String :=
  ["os.remove", "os.unlink", "os.rmdir", "os.removedirs", "os.rename", "os.renames",
   "os.replace", "os.mkdir", "os.makedirs", "os.chmod", "os.chown", "os.truncate", "os.symlink",
   "os.link", "os.mknod", "os.mkfifo", "shutil.rmtree", "shutil.move", "shutil.copy",
   "shutil.copy2", "shutil.copyfile", "shutil.copytree", "shutil.chown"]

/-- Methods of path objects that write. -/
def pathWriteMethods : List String := ["write_text", "write_bytes"]

/-- The violation of a file operation on a path written out, if the path is not allowed. -/
def Rules.checkPath (r : Rules) (operation path : String) : List Violation :=
  if r.allowsPath path then [] else [.disallowedPath operation path]

/-- Whether a mode may write; one that is computed could be anything. -/
def mayWrite : Option Tree → Bool
  | none => false
  | some mode =>
    match mode.stringLiteral? with
    | some m => m.toList.any fun c => ['w', 'a', 'x', '+'].contains c
    | none => true

/-- The check of a call of `open`. -/
def Rules.checkOpen (r : Rules) (call : Tree) : List Violation :=
  let args := call.arguments
  match args.positional.head? <|> args.keyword? "file" with
  | none => []
  | some path =>
    match path.stringLiteral? with
    | some literal => r.checkPath "open" literal
    | none =>
      if mayWrite (args.positional[1]? <|> args.keyword? "mode") then
        [.dynamicWrite r.scriptsDir]
      else []

/-- The check of the paths written out among the arguments of a destructive function. -/
def Rules.checkDestructive (r : Rules) (call : Tree) (function : String) : List Violation :=
  call.arguments.positional.flatMap fun a =>
    match a.stringLiteral? with
    | some literal => r.checkPath function literal
    | none => []

/-- Whether a chain names a class of path objects. -/
def isPathClass (chain : String) : Bool :=
  chain == "Path" || chain.endsWith ".Path" || chain == "PosixPath" ||
    chain.endsWith ".PosixPath"

/-- The check of `Path("…").write_text(…)` and the like. -/
def Rules.checkPathWrite (r : Rules) (function : Tree) : List Violation :=
  match function.child? "attribute", function.child? "object" with
  | some method, some receiver =>
    if pathWriteMethods.contains method.text && receiver.kind == "call" &&
        ((receiver.child? "function").bind Tree.dotted?).any isPathClass then
      match receiver.arguments.positional.head?.bind Tree.stringLiteral? with
      | some literal => r.checkPath method.text literal
      | none => []
    else []
  | _, _ => []

-- ---------------------------------------------------------------------------
-- Names
-- ---------------------------------------------------------------------------

/-- The check of a call. -/
def Rules.checkCall (r : Rules) (call : Tree) : List Violation :=
  match call.child? "function" with
  | none => []
  | some function =>
    if isNameKind function.kind then
      (if r.policy.isBlockedBuiltin function.text then [.blockedBuiltin function.text] else []) ++
        (if function.text == "open" then r.checkOpen call else [])
    else if function.kind == "attribute" then
      (match function.dotted? with
       | some chain =>
         (if r.policy.isBlockedFunction chain then [.blockedFunction chain] else []) ++
           (if destructiveFunctions.contains chain then r.checkDestructive call chain else [])
       | none => []) ++ r.checkPathWrite function
    else []

/-- Whether a place is what a call calls. -/
def Place.isCallee (p : Place) : Bool :=
  p.parentKind == some "call" && p.isField "function"

/-- The check of an attribute. A called chain is left to its call, and only the outermost
attribute of a chain names the whole. -/
def Rules.checkAttribute (r : Rules) (p : Place) : List Violation :=
  (match p.node.child? "attribute" with
   | some attr =>
     if r.policy.isSuspiciousAttribute attr.text then [.blockedDunder attr.text]
     else []
   | none => []) ++
  (if p.isCallee || p.parentKind == some "attribute" then []
   else
     match p.node.dotted? with
     | some chain =>
       if r.policy.isBlockedFunction chain then [.blockedAttribute chain] else []
     | none => [])

/-- Whether a name at a place refers to nothing, or is left to its parent: the callee of a call,
the attribute of an object, the keyword of an argument, a parameter. -/
def Place.isDeclared (p : Place) : Bool :=
  match p.parent with
  | none => true
  | some (parent, i) =>
    if parent.kind == "call" then p.isField "function"
    else if parent.kind == "attribute" then p.isField "attribute"
    else if parent.kind == "keyword_argument" then p.isField "name"
    else if parent.kind == "parameters" || parent.kind == "lambda_parameters" then true
    else if ["default_parameter", "typed_parameter", "typed_default_parameter"].contains
        parent.kind then
      p.isField "name" || parent.children.findIdx? (·.label.named) == some i
    else false

/-- The check of a plain name. -/
def Rules.checkName (r : Rules) (p : Place) : List Violation :=
  let name := p.node.text
  if (r.policy.isBlockedBuiltin name || r.policy.isSuspiciousAttribute name) && !p.isDeclared
  then [.blockedReference name]
  else []

-- ---------------------------------------------------------------------------
-- A tree
-- ---------------------------------------------------------------------------

/-- What the checks find at a place. -/
def Rules.check (r : Rules) (p : Place) : Findings :=
  let kind := p.node.kind
  if kind == "import_statement" then r.policy.checkImport p.node
  else if kind == "import_from_statement" then r.policy.checkFromImport p.node
  else if kind == "call" then { violations := r.checkCall p.node }
  else if kind == "attribute" then { violations := r.checkAttribute p }
  else if isNameKind kind then { violations := r.checkName p }
  else if kind == "exec_statement" then { violations := [.blockedBuiltin "exec"] }
  else {}

/-- The violations at a place, each with the line of the node. -/
def Rules.findingsAt (r : Rules) (p : Place) : List Finding :=
  (r.check p).violations.map fun v => ⟨p.node.line, v⟩

/-- The violations of a tree in document order. -/
def Rules.findings (r : Rules) (t : Tree) : List Finding := t.places.flatMap r.findingsAt

/-- The modules of a tree that may be sibling scripts, in document order. -/
def Rules.siblings (r : Rules) (t : Tree) : List String :=
  t.places.flatMap fun p => (r.check p).siblings

end ScriptWarden
