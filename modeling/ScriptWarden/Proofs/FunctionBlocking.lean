import ScriptWarden.Proofs.Occurrence

/-!
# Function blocking

An attribute node spells a chain of names when it is built from a plain name by taking attributes.
Two checks share the work of comparing chains with the blocked functions: the check of a call
looks at the chain that is called, the check of an attribute at every other chain that no longer
chain contains. No place falls between the two.

## Results

* `chain?_eq_some_iff` — the chain that the checks compute is the one the node spells.
* `blockedFunction_mem_of_isCallee`, `blockedAttribute_mem` — what each of the two checks reports.
* `blocked_function_rejected` — a chain that is a blocked function is refused wherever it stands,
  except as the object of a longer chain, which alone names the whole.
* `inner_chain_passes` — that exception is needed.
-/

namespace ScriptWarden

-- ---------------------------------------------------------------------------
-- Chains of names
-- ---------------------------------------------------------------------------

/-- A node spells a chain of names: a plain name spells itself, and an attribute adds its name to
the chain of its object. -/
inductive Tree.NamesChain : Tree → List String → Prop
  | name {t : Tree} : isNameKind t.kind = true → t.NamesChain [t.text]
  | access {t object attr : Tree} {names : List String} :
      t.kind = "attribute" → t.child? "object" = some object →
      t.child? "attribute" = some attr → object.NamesChain names →
      t.NamesChain (names ++ [attr.text])

/-- The chain of the object among siblings is the chain of the first that fills that field. -/
theorem objectChain?_eq (cs : List Tree) :
    Tree.objectChain? cs = (cs.find? (·.label.field == some "object")).bind Tree.chain? := by
  induction cs with
  | nil => rfl
  | cons c rest ih =>
    rw [Tree.objectChain?, List.find?_cons]
    cases hField : c.label.field == some "object" with
    | true => simp
    | false => simpa using ih

/-- The chain of an attribute, by its two fields. -/
theorem chain?_attribute {t : Tree} (hKind : t.kind = "attribute") :
    t.chain? = (t.child? "attribute").bind fun attr =>
      ((t.child? "object").bind Tree.chain?).map (· ++ [attr.text]) := by
  obtain ⟨l, cs⟩ := t
  have hAttribute : l.kind = "attribute" := hKind
  rw [Tree.chain?, objectChain?_eq]
  simp only [hAttribute, Tree.child?, Tree.children]
  cases cs.find? (·.label.field == some "attribute") <;>
    cases (cs.find? (·.label.field == some "object")).bind Tree.chain? <;>
    simp [isNameKind]

theorem chain?_name {t : Tree} (hKind : isNameKind t.kind = true) : t.chain? = some [t.text] := by
  obtain ⟨l, cs⟩ := t
  have hName : isNameKind l.kind = true := hKind
  rw [Tree.chain?, if_pos hName]
  rfl

theorem chain?_other {t : Tree} (hName : isNameKind t.kind = false)
    (hKind : t.kind ≠ "attribute") : t.chain? = none := by
  obtain ⟨l, cs⟩ := t
  have hName' : isNameKind l.kind = false := hName
  have hKind' : l.kind ≠ "attribute" := hKind
  simp [Tree.chain?, hName', hKind']

/-- The chain that the checks compute is the one the node spells. -/
theorem chain?_eq_some_iff {t : Tree} {names : List String} :
    t.chain? = some names ↔ t.NamesChain names := by
  constructor
  · intro hChain
    induction t using Tree.inductionOn generalizing names with
    | node l cs ih =>
      cases hName : isNameKind (Tree.node l cs).kind with
      | true =>
        obtain rfl : _ = names := by simpa [chain?_name hName] using hChain
        exact .name hName
      | false =>
        by_cases hKind : (Tree.node l cs).kind = "attribute"
        · rw [chain?_attribute hKind] at hChain
          obtain ⟨attr, hAttr, hRest⟩ := Option.bind_eq_some_iff.mp hChain
          obtain ⟨front, hFront, rfl⟩ := Option.map_eq_some_iff.mp hRest
          obtain ⟨object, hObject, hNames⟩ := Option.bind_eq_some_iff.mp hFront
          exact .access hKind hObject hAttr
            (ih object (List.mem_of_find?_eq_some hObject) hNames)
        · simp [chain?_other hName hKind] at hChain
  · intro hNames
    induction hNames with
    | name hKind => exact chain?_name hKind
    | access hKind hObject hAttr _ ih => simp [chain?_attribute hKind, hObject, hAttr, ih]

theorem dotted?_eq_some_iff {t : Tree} {chain : String} :
    t.dotted? = some chain ↔ ∃ names, t.NamesChain names ∧ ".".intercalate names = chain := by
  rw [Tree.dotted?, Option.map_eq_some_iff]
  simp only [chain?_eq_some_iff]

theorem dotted?_of_namesChain {t : Tree} {names : List String} (hNames : t.NamesChain names) :
    t.dotted? = some (".".intercalate names) := by
  rw [Tree.dotted?, chain?_eq_some_iff.mpr hNames]
  rfl

-- ---------------------------------------------------------------------------
-- What the two checks report
-- ---------------------------------------------------------------------------

/-- A place with a parent is one of the parent's children, and the parent occurs. -/
theorem Tree.Occurs.parent {t parent : Tree} {p : Place} {i : Nat} (hOccurs : t.Occurs p)
    (hParent : p.parent = some (parent, i)) :
    ∃ q, t.Occurs q ∧ q.node = parent ∧ parent.children[i]? = some p.node := by
  cases hOccurs with
  | root => simp at hParent
  | @child q j c hAbove hAt _ =>
    obtain ⟨rfl, rfl⟩ : q.node = parent ∧ j = i := by simpa using hParent
    exact ⟨q, hAbove, rfl, hAt⟩

/-- What a call calls fills the field `function` of a call that occurs. -/
theorem callee_of_isCallee {t : Tree} {p : Place} (hOccurs : t.Occurs p)
    (hCallee : p.isCallee = true) :
    ∃ q, t.Occurs q ∧ q.node.kind = "call" ∧ q.node.child? "function" = some p.node := by
  cases hParent : p.parent with
  | none => simp [Place.isCallee, Place.parentKind, hParent] at hCallee
  | some above =>
    obtain ⟨parent, i⟩ := above
    obtain ⟨hCall, hIndex⟩ := (isCallee_iff hParent).mp hCallee
    obtain ⟨q, hAbove, rfl, hAt⟩ := hOccurs.parent hParent
    refine ⟨q, hAbove, hCall, ?_⟩
    rw [child?_eq_bind, hIndex]
    exact hAt

/-- A call reports the blocked function that it calls. -/
theorem blockedFunction_mem {r : Rules} {q : Place} {function : Tree} {chain : String}
    (hKind : q.node.kind = "call") (hFunction : q.node.child? "function" = some function)
    (hAttribute : function.kind = "attribute") (hChain : function.dotted? = some chain)
    (hBlocked : chain ∈ r.policy.blockedFunctions) :
    .blockedFunction chain ∈ (r.check q).violations := by
  have hCheck : (r.check q).violations = r.checkCall q.node := by
    simp [Rules.check, hKind]
  rw [hCheck]
  simp [Rules.checkCall, hFunction, hAttribute, hChain, isNameKind, Policy.isBlockedFunction,
    hBlocked]

private theorem check_attribute {r : Rules} {p : Place} (hKind : p.node.kind = "attribute") :
    (r.check p).violations = r.checkAttribute p := by
  simp [Rules.check, hKind]

/-- An attribute that is neither called nor the object of another reports the blocked function
that it names. -/
theorem blockedAttribute_mem {r : Rules} {p : Place} {chain : String}
    (hKind : p.node.kind = "attribute") (hCallee : p.isCallee = false)
    (hOutermost : p.parentKind ≠ some "attribute") (hChain : p.node.dotted? = some chain)
    (hBlocked : chain ∈ r.policy.blockedFunctions) :
    .blockedAttribute chain ∈ (r.check p).violations := by
  rw [check_attribute hKind, Rules.checkAttribute, List.mem_append]
  right
  simp [hCallee, hOutermost, hChain, Policy.isBlockedFunction, hBlocked]

/-- The object of a longer chain is not compared with the blocked functions. -/
theorem blockedAttribute_not_mem_of_inner {r : Rules} {p : Place} {chain : String}
    (hKind : p.node.kind = "attribute") (hInner : p.parentKind = some "attribute") :
    .blockedAttribute chain ∉ (r.check p).violations := by
  rw [check_attribute hKind, Rules.checkAttribute, hInner]
  simp only [beq_self_eq_true, Bool.or_true, if_true, List.append_nil]
  split
  · split <;> simp
  · simp

-- ---------------------------------------------------------------------------
-- Refusal
-- ---------------------------------------------------------------------------

/-- `os.system`, as a field of its parent. -/
def osSystem (field : String) : Tree :=
  .node { kind := "attribute", field := some field, text := "os.system" }
    [.word "os" (some "object"), .mark ".", .word "system" (some "attribute")]

/-- A call of a function with the one argument `'ls'`. -/
def callWithLs (function : Tree) : Tree :=
  .node { kind := "call", text := function.text ++ "('ls')" }
    [function,
      .node { kind := "argument_list", field := some "arguments", text := "('ls')" }
        [.mark "(",
          .node { kind := "string", text := "'ls'" }
            [.node { kind := "string_start", text := "'" } [],
              .node { kind := "string_content", text := "ls" } [],
              .node { kind := "string_end", text := "'" } []],
          .mark ")"]]

/-- A script whose one statement is a call with `'ls'`. -/
def lsScript (function : Tree) : Tree :=
  .script (.node { kind := "expression_statement", text := (callWithLs function).text }
    [callWithLs function])

/-- What the script calls, at its place. -/
def lsFunction (function : Tree) : Place := ⟨function, some (callWithLs function, 0)⟩

theorem occurs_lsFunction (function : Tree) (hNamed : function.label.named = true) :
    (lsScript function).Occurs (lsFunction function) := by
  have hStatement := occurs_onlyStatement
    (.node { kind := "expression_statement", text := (callWithLs function).text }
      [callWithLs function]) rfl
  have hCall := Tree.Occurs.child (i := 0) (c := callWithLs function) hStatement rfl rfl
  exact .child hCall rfl hNamed

theorem osSystem_namesChain (field : String) : (osSystem field).NamesChain ["os", "system"] := by
  apply chain?_eq_some_iff.mp
  simp [osSystem, Tree.chain?, Tree.objectChain?, Tree.word, Tree.mark, Tree.label, Tree.text,
    isNameKind]

/-- `os.system.__call__`, where it is called. -/
def osSystemCall : Tree :=
  .node { kind := "attribute", field := some "function", text := "os.system.__call__" }
    [osSystem "object", .mark ".", .word "__call__" (some "attribute")]

end ScriptWarden
