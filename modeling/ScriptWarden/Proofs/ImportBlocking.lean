import ScriptWarden.Policy.Basic
import ScriptWarden.Proofs.Occurrence
import ScriptWarden.Text.Cut

/-!
# Import blocking

Which import targets a tree names, and which of them the checks refuse. A target is read off the
`dotted_name` nodes that name it: its name is the sequence of their identifiers, whatever stands
between the tokens. The checks compare the *text* of those nodes instead, and look at two of the
three import statements only. A dotted name is the list of its components, and the test that it is an
entry of the policy or lies below it, which is made on characters, is a prefix test on components.

## Results

* `isAtOrBelow_iff` — a name is at or below an entry exactly when the entry's components begin
  the name's.
* `isBlockedModule_iff` — what the policy blocks, in components alone.
* `checkImport_violations_iff`, `checkFromImport_violations_iff` — what is reported at an import,
  exactly: a target whose text, cut at dots, is blocked, or a member that is a blocked function.
* `import_rejected` — a target that is blocked is refused when it is compact, that is, when a check
  compares it and nothing stands between its identifiers but dots; and reports at import
  statements arise in no other way than from the text.
* `gap_import_passes`, `future_import_passes` — both conditions are needed: a blank before the dot,
  or an import from `__future__`, leaves a blocked target unreported.
-/

namespace ScriptWarden

-- ---------------------------------------------------------------------------
-- Components
-- ---------------------------------------------------------------------------

/-- The components of a dotted name: what stands between its dots. -/
def components (name : String) : List String := cutAt '.' name

/-- Cutting at dots turns prefixes that end where a dot or the end stands into prefixes of the
list of pieces. -/
theorem splitOn_isPrefix_iff (e n : List Char) :
    e.splitOn '.' <+: n.splitOn '.' ↔ (e ++ ['.']) <+: (n ++ ['.']) := by
  induction e generalizing n with
  | nil =>
    cases n with
    | nil => simp
    | cons d n =>
      obtain ⟨head, rest, hSplit⟩ := List.exists_cons_of_ne_nil (List.splitOn_ne_nil '.' n)
      by_cases hDot : d = '.'
      · simp [List.splitOn_cons_eq_if_modifyHead, hDot]
      · simp [List.splitOn_cons_eq_if_modifyHead, hDot, hSplit, Ne.symm hDot]
  | cons c e ih =>
    cases n with
    | nil =>
      obtain ⟨head, rest, hSplit⟩ := List.exists_cons_of_ne_nil (List.splitOn_ne_nil '.' e)
      by_cases hDot : c = '.'
      · simp [List.splitOn_cons_eq_if_modifyHead, hDot]
      · simp [List.splitOn_cons_eq_if_modifyHead, hDot, hSplit]
    | cons d n =>
      have hRest := ih n
      obtain ⟨head, rest, hSplit⟩ := List.exists_cons_of_ne_nil (List.splitOn_ne_nil '.' e)
      obtain ⟨head', rest', hSplit'⟩ := List.exists_cons_of_ne_nil (List.splitOn_ne_nil '.' n)
      rw [List.cons_append, List.cons_append, List.cons_prefix_cons, ← hRest,
        List.splitOn_cons_eq_if_modifyHead, List.splitOn_cons_eq_if_modifyHead]
      by_cases hDot : c = '.'
      · by_cases hDot' : d = '.'
        · simp [hDot, hDot']
        · simp [hDot, hDot', hSplit', Ne.symm hDot']
      · by_cases hDot' : d = '.'
        · simp [hDot, hDot', hSplit]
        · simp [hDot, hDot', hSplit, hSplit', and_assoc]

/-- A name is at or below an entry exactly when the entry's components begin the name's. -/
theorem isAtOrBelow_iff (name entry : String) :
    isAtOrBelow name entry = true ↔ components entry <+: components name := by
  rw [components, components, cutAt, cutAt, List.prefix_map_iff_of_injective fun _ _ => String.ofList_injective,
    splitOn_isPrefix_iff, List.prefix_concat_iff, List.append_cancel_right_eq, isAtOrBelow,
    Bool.or_eq_true, beq_iff_eq, List.isPrefixOf_iff_prefix, String.toList_inj, eq_comm]

-- ---------------------------------------------------------------------------
-- What a policy blocks
-- ---------------------------------------------------------------------------

/-- A policy blocks a list of components: an entry of the blocked modules begins it, and no entry
of the allowed ones does. -/
def Policy.Blocks (p : Policy) (parts : List String) : Prop :=
  (∃ b ∈ p.blockedModules, components b <+: parts) ∧
    ∀ a ∈ p.allowedModules, ¬ components a <+: parts

instance (p : Policy) (parts : List String) : Decidable (p.Blocks parts) :=
  inferInstanceAs (Decidable (_ ∧ _))

/-- A module may not be imported exactly when it has a name whose components are blocked. -/
theorem isBlockedModule_iff (p : Policy) (module : String) :
    p.isBlockedModule module = true ↔ module ≠ "" ∧ p.Blocks (components module) := by
  have hAllowed : (!p.allowedModules.any (isAtOrBelow module)) = true ↔
      ∀ a ∈ p.allowedModules, ¬ components a <+: components module := by
    simp [← isAtOrBelow_iff]
  have hBlocked : p.blockedModules.any (isAtOrBelow module) = true ↔
      ∃ b ∈ p.blockedModules, components b <+: components module := by
    simp [← isAtOrBelow_iff]
  have hNamed : (!module.isEmpty) = true ↔ module ≠ "" := by simp
  rw [Policy.isBlockedModule, Bool.and_eq_true, Bool.and_eq_true, hNamed, hAllowed, hBlocked,
    Policy.Blocks, and_assoc, and_comm (b := ∃ b ∈ p.blockedModules, _)]

-- ---------------------------------------------------------------------------
-- Import targets
-- ---------------------------------------------------------------------------

/-- The identifiers of a dotted name, in order. -/
def Tree.identifiers (t : Tree) : List String :=
  (t.namedChildren.filter (·.kind == "identifier")).map Tree.text

/-- What an import statement imports, as the dotted names that say it: a module, a name out of a
module, or the module of `from __future__ import …`, which is a keyword and no dotted name. -/
inductive ImportTarget where
  | module (name : Tree)
  | member (source name : Tree)
  | future

namespace ImportTarget

/-- The name of a target: the identifiers of its dotted names. -/
def parts : ImportTarget → List String
  | .module d => d.identifiers
  | .member m d => m.identifiers ++ d.identifiers
  | .future => ["__future__"]

/-- The text that the checks compare in place of the name, where they compare one. -/
def written? : ImportTarget → Option String
  | .module d => some d.text
  | .member m d => some (m.text ++ "." ++ d.text)
  | .future => none

/-- Whether the target is a name out of a module. -/
def IsMember : ImportTarget → Prop
  | .member _ _ => True
  | _ => False

/-- A target is compact when the checks compare it and its text, cut at dots, is its name: no
blank, comment or line continuation stands between its identifiers. -/
def Compact (target : ImportTarget) : Prop :=
  ∃ text, target.written? = some text ∧ text ≠ "" ∧ components text = target.parts

/-- The target is blocked as it is written: its text, cut at dots, is blocked, or it is a member
whose text is a blocked function. -/
def Condemned (p : Policy) (target : ImportTarget) : Prop :=
  ∃ text, target.written? = some text ∧
    (text ≠ "" ∧ p.Blocks (components text) ∨
      target.IsMember ∧ text ∈ p.blockedFunctions)

end ImportTarget

/-- A dotted name is what an import names at a child: the child itself, or the name that the
child gives an alias to. -/
inductive Tree.NamesModule : Tree → Tree → Prop
  | bare {d : Tree} : d.kind = "dotted_name" → d.NamesModule d
  | aliased {c d : Tree} :
      c.kind = "aliased_import" → c.child? "name" = some d → d.kind = "dotted_name" →
      c.NamesModule d

/-- The dotted names among the `name` children of a statement. -/
def Tree.ImportsName (node d : Tree) : Prop := ∃ c ∈ node.childrenOf "name", c.NamesModule d

/-- The targets of an import statement. Of a relative import none is a module by name. -/
inductive Tree.Imports (node : Tree) : ImportTarget → Prop
  | module {d : Tree} :
      node.kind = "import_statement" → node.ImportsName d → node.Imports (.module d)
  | source {m : Tree} :
      node.kind = "import_from_statement" → node.child? "module_name" = some m →
      m.kind ≠ "relative_import" → node.Imports (.module m)
  | member {m d : Tree} :
      node.kind = "import_from_statement" → node.child? "module_name" = some m →
      m.kind ≠ "relative_import" → node.ImportsName d → node.Imports (.member m d)
  | future : node.kind = "future_import_statement" → node.Imports .future

/-- The kinds of nodes that import. -/
def importKinds : List String :=
  ["import_statement", "import_from_statement", "future_import_statement"]

-- ---------------------------------------------------------------------------
-- What the checks read
-- ---------------------------------------------------------------------------

theorem importedName?_eq_some_iff {c : Tree} {name : String} :
    c.importedName? = some name ↔ ∃ d, c.NamesModule d ∧ d.text = name := by
  rw [Tree.importedName?]
  constructor
  · intro hName
    by_cases hAlias : c.kind = "aliased_import"
    · cases hChild : c.child? "name" with
      | none => simp [hAlias, hChild] at hName
      | some d =>
        have hDotted : d.kind = "dotted_name" ∧ d.text = name := by
          simpa [hAlias, hChild] using hName
        exact ⟨d, .aliased hAlias hChild hDotted.1, hDotted.2⟩
    · have hDotted : c.kind = "dotted_name" ∧ c.text = name := by
        simpa [hAlias] using hName
      exact ⟨c, .bare hDotted.1, hDotted.2⟩
  · rintro ⟨d, hNames, rfl⟩
    cases hNames with
    | bare hKind => simp [hKind]
    | aliased hAlias hChild hKind => simp [hAlias, hChild, hKind]

/-- The texts that the checks collect are those of the dotted names that are imported. -/
theorem mem_importTargets_iff {node : Tree} {name : String} :
    name ∈ node.importTargets ↔ ∃ d, node.ImportsName d ∧ d.text = name := by
  simp only [Tree.importTargets, List.mem_filterMap, importedName?_eq_some_iff, Tree.ImportsName]
  constructor
  · rintro ⟨c, hChild, d, hNames, hText⟩
    exact ⟨d, ⟨c, hChild, hNames⟩, hText⟩
  · rintro ⟨d, ⟨c, hChild, hNames⟩, hText⟩
    exact ⟨c, hChild, d, hNames, hText⟩

-- ---------------------------------------------------------------------------
-- What is reported at an import
-- ---------------------------------------------------------------------------

/-- Whether a text is blocked as a module, in components. -/
private theorem module_condemned_iff {p : Policy} {d : Tree} :
    (ImportTarget.module d).Condemned p ↔ p.isBlockedModule d.text = true := by
  simp [ImportTarget.Condemned, ImportTarget.written?, ImportTarget.IsMember,
    isBlockedModule_iff]

private theorem member_condemned_iff {p : Policy} {m d : Tree} :
    (ImportTarget.member m d).Condemned p ↔
      p.isBlockedModule (m.text ++ "." ++ d.text) = true ∨
        p.isBlockedFunction (m.text ++ "." ++ d.text) = true := by
  simp [ImportTarget.Condemned, ImportTarget.written?, ImportTarget.IsMember,
    isBlockedModule_iff, Policy.isBlockedFunction]

private theorem not_future_condemned {p : Policy} : ¬ ImportTarget.future.Condemned p := by
  simp [ImportTarget.Condemned, ImportTarget.written?]

/-- `import …` is reported exactly when a target is blocked as it is written. -/
theorem checkImport_violations_iff {p : Policy} {node : Tree}
    (hKind : node.kind = "import_statement") :
    (p.checkImport node).violations ≠ [] ↔
      ∃ target, node.Imports target ∧ target.Condemned p := by
  have hReported : (p.checkImport node).violations ≠ [] ↔
      ∃ name ∈ node.importTargets, p.isBlockedModule name = true := by
    simp [Policy.checkImport]
  rw [hReported]
  constructor
  · rintro ⟨name, hMem, hBlocked⟩
    obtain ⟨d, hName, rfl⟩ := mem_importTargets_iff.mp hMem
    exact ⟨.module d, .module hKind hName, module_condemned_iff.mpr hBlocked⟩
  · rintro ⟨target, hImports, hCondemned⟩
    cases hImports with
    | module _ hName =>
      exact ⟨_, mem_importTargets_iff.mpr ⟨_, hName, rfl⟩, module_condemned_iff.mp hCondemned⟩
    | source hFrom => simp [hKind] at hFrom
    | member hFrom => simp [hKind] at hFrom
    | future hFuture => simp [hKind] at hFuture

/-- `from … import …` is reported exactly when its module or one of its members is blocked as it
is written. -/
theorem checkFromImport_violations_iff {p : Policy} {node : Tree}
    (hKind : node.kind = "import_from_statement") :
    (p.checkFromImport node).violations ≠ [] ↔
      ∃ target, node.Imports target ∧ target.Condemned p := by
  cases hModule : node.child? "module_name" with
  | none =>
    -- a statement that names no module has no target
    have hNone : ∀ target, ¬ node.Imports target := by
      intro target hImports
      cases hImports <;> simp_all
    simp [Policy.checkFromImport, hModule, hNone]
  | some m =>
    by_cases hRelative : m.kind = "relative_import"
    · have hNone : ∀ target, ¬ node.Imports target := by
        intro target hImports
        cases hImports <;> simp_all
      have hSilent : (p.checkFromImport node).violations = [] := by
        simp only [Policy.checkFromImport, hModule, hRelative, beq_self_eq_true, if_true]
        split <;> rfl
      simp [hSilent, hNone]
    · by_cases hBlocked : p.isBlockedModule m.text = true
      · have hReported : (p.checkFromImport node).violations ≠ [] := by
          simp [Policy.checkFromImport, hModule, hRelative, hBlocked]
        refine iff_of_true hReported ⟨.module m, .source hKind hModule hRelative, ?_⟩
        exact module_condemned_iff.mpr hBlocked
      · have hReported : (p.checkFromImport node).violations ≠ [] ↔
            ∃ name ∈ node.importTargets,
              p.isBlockedModule (m.text ++ "." ++ name) = true ∨
                p.isBlockedFunction (m.text ++ "." ++ name) = true := by
          simp [Policy.checkFromImport, hModule, hRelative, hBlocked,
            Decidable.or_iff_not_imp_left]
        rw [hReported]
        constructor
        · rintro ⟨name, hMem, hCondemned⟩
          obtain ⟨d, hName, rfl⟩ := mem_importTargets_iff.mp hMem
          exact ⟨.member m d, .member hKind hModule hRelative hName,
            member_condemned_iff.mpr hCondemned⟩
        · rintro ⟨target, hImports, hCondemned⟩
          cases hImports with
          | module hImport => simp [hKind] at hImport
          | source _ hModule' =>
            obtain rfl : m = _ := by simpa [hModule] using hModule'
            exact absurd (module_condemned_iff.mp hCondemned) hBlocked
          | member _ hModule' _ hName =>
            obtain rfl : m = _ := by simpa [hModule] using hModule'
            exact ⟨_, mem_importTargets_iff.mpr ⟨_, hName, rfl⟩,
              member_condemned_iff.mp hCondemned⟩
          | future hFuture => simp [hKind] at hFuture

/-- What is reported at an import statement of any kind, exactly. -/
theorem importViolations_iff {r : Rules} {p : Place} (hKind : p.node.kind ∈ importKinds) :
    (r.check p).violations ≠ [] ↔
      ∃ target, p.node.Imports target ∧ target.Condemned r.policy := by
  have hCases : p.node.kind = "import_statement" ∨ p.node.kind = "import_from_statement" ∨
      p.node.kind = "future_import_statement" := by
    simpa [importKinds] using hKind
  rcases hCases with hImport | hFrom | hFuture
  · rw [← checkImport_violations_iff hImport]
    simp [Rules.check, hImport]
  · rw [← checkFromImport_violations_iff hFrom]
    simp [Rules.check, hFrom]
  · -- no check looks at these statements
    have hSilent : (r.check p).violations = [] := by
      simp [Rules.check, hFuture, isNameKind]
    refine iff_of_false (by simp [hSilent]) ?_
    rintro ⟨target, hImports, hCondemned⟩
    cases hImports with
    | module hImport => simp [hFuture] at hImport
    | source hFrom => simp [hFuture] at hFrom
    | member hFrom => simp [hFuture] at hFrom
    | future => exact not_future_condemned hCondemned

theorem kind_mem_importKinds {node : Tree} {target : ImportTarget}
    (hImports : node.Imports target) : node.kind ∈ importKinds := by
  cases hImports <;> simp_all [importKinds]

/-- A compact target that is blocked is blocked as it is written. -/
theorem condemned_of_blocks {p : Policy} {target : ImportTarget} (hCompact : target.Compact)
    (hBlocks : p.Blocks target.parts) : target.Condemned p := by
  obtain ⟨text, hWritten, hSome, hParts⟩ := hCompact
  exact ⟨text, hWritten, Or.inl ⟨hSome, hParts ▸ hBlocks⟩⟩

-- ---------------------------------------------------------------------------
-- Refusal
-- ---------------------------------------------------------------------------

/--
**A blocked import is refused where it is written compactly.** At every node of a tree without
errors: a target that the policy blocks *as it is written* makes the tree, and every text it is the
tree of, invalid; so does a compact target that the policy blocks by its name; and an import
statement is reported in no other case.
-/
theorem import_rejected (r : Rules) {t : Tree} (hClean : t.label.hasError = false) {p : Place}
    (hOccurs : t.Occurs p) :
    (∀ target, p.node.Imports target → target.Condemned r.policy → r.Rejects t) ∧
    (∀ target, p.node.Imports target → target.Compact → r.policy.Blocks target.parts →
      r.Rejects t) ∧
    (p.node.kind ∈ importKinds → ((r.check p).violations ≠ [] ↔
      ∃ target, p.node.Imports target ∧ target.Condemned r.policy)) := by
  have hWritten : ∀ target, p.node.Imports target → target.Condemned r.policy →
      r.Rejects t := by
    intro target hImports hCondemned
    have hReported : (r.check p).violations ≠ [] :=
      (importViolations_iff (kind_mem_importKinds hImports)).mpr ⟨target, hImports, hCondemned⟩
    obtain ⟨v, hViolation⟩ := List.exists_mem_of_ne_nil _ hReported
    exact rejects_of_violation hClean hOccurs hViolation
  refine ⟨hWritten, fun target hImports hCompact hBlocks => ?_, importViolations_iff⟩
  exact hWritten target hImports (condemned_of_blocks hCompact hBlocks)

/-- The dotted name of `urllib.request`, with a gap before the dot. -/
def urllibRequest (gap : String) : Tree :=
  .node { kind := "dotted_name", field := some "name", text := "urllib" ++ gap ++ ".request" }
    [.word "urllib", .mark ".", .word "request"]

/-- `import urllib.request`, with a gap before the dot. -/
def urllibImport (gap : String) : Tree :=
  .node { kind := "import_statement", text := "import urllib" ++ gap ++ ".request" }
    [.mark "import", urllibRequest gap]

/-- `from __future__ import annotations`. -/
def futureImport : Tree :=
  .node { kind := "future_import_statement", text := "from __future__ import annotations" }
    [.mark "from", .mark "__future__", .mark "import",
      .node { kind := "dotted_name", field := some "name", text := "annotations" }
        [.word "annotations"]]

theorem urllibImport_imports (gap : String) :
    (urllibImport gap).Imports (.module (urllibRequest gap)) := by
  refine .module rfl ⟨urllibRequest gap, ?_, .bare rfl⟩
  simp [Tree.childrenOf, urllibImport, Tree.children, urllibRequest, Tree.label, Tree.mark]

/-- `import urllib.request` under the standard policy: a compact target that is blocked. -/
theorem compact_import_rejected :
    (Tree.script (urllibImport "")).label.hasError = false ∧
      (Tree.script (urllibImport "")).Occurs (urllibImport "").onlyStatement ∧
      (ImportTarget.module (urllibRequest "")).Compact ∧
      Policy.standard.Blocks (ImportTarget.module (urllibRequest "")).parts ∧
      (⟨.standard, "/scripts"⟩ : Rules).Rejects (.script (urllibImport "")) := by
  have hCompact : (ImportTarget.module (urllibRequest "")).Compact :=
    ⟨"urllib.request", by decide +kernel⟩
  have hBlocks : Policy.standard.Blocks (ImportTarget.module (urllibRequest "")).parts := by
    decide +kernel
  have hOccurs := occurs_onlyStatement (urllibImport "") rfl
  exact ⟨rfl, hOccurs, hCompact, hBlocks,
    (import_rejected ⟨.standard, "/scripts"⟩ rfl hOccurs).2.1 _ (urllibImport_imports "")
      hCompact hBlocks⟩

/-- **A gap hides a blocked module.** `import urllib .request` names a blocked target, and nothing
is found in it. -/
theorem gap_import_passes :
    (Tree.script (urllibImport " ")).label.hasError = false ∧
      (Tree.script (urllibImport " ")).Occurs (urllibImport " ").onlyStatement ∧
      (urllibImport " ").Imports (.module (urllibRequest " ")) ∧
      Policy.standard.Blocks (ImportTarget.module (urllibRequest " ")).parts ∧
      ((⟨.standard, "/scripts"⟩ : Rules).analyzeTree (.script (urllibImport " "))).problems = [] :=
  ⟨rfl, occurs_onlyStatement _ rfl, urllibImport_imports " ", by decide +kernel,
    by decide +kernel⟩

/-- **Imports from `__future__` are not looked at,** also where a policy blocks that module. -/
theorem future_import_passes :
    (Tree.script futureImport).label.hasError = false ∧
      (Tree.script futureImport).Occurs futureImport.onlyStatement ∧
      futureImport.Imports .future ∧
      { Policy.standard with blockedModules := ["__future__"] }.Blocks
        ImportTarget.future.parts ∧
      ((⟨{ Policy.standard with blockedModules := ["__future__"] }, "/scripts"⟩ :
        Rules).analyzeTree (.script futureImport)).problems = [] :=
  ⟨rfl, occurs_onlyStatement _ rfl, .future rfl, by decide +kernel, by decide +kernel⟩

end ScriptWarden
