import ScriptWarden.Proofs.ImportBlocking
import ScriptWarden.Proofs.StackWalk

/-!
# Missing modules

The report of a verdict on the sibling scripts that are imported and not there. A script names a
sibling as it names any other module, by the target of an import, or by one dot before the module
or, where there is no module, before the names. Of these names the report leaves out what cannot
be a sibling script: names with dots in them, what the interpreter or the policy brings along, and
what may not be imported at all. It leaves out the script itself and what is there.

What the checks collect is compared with a relation that is said without them. A blocked module
needs no case of its own: a check that stops at one would have noted nothing else there.

## Results

* `isLocalCandidate_iff` — which names may be sibling scripts, in terms of the policy's lists.
* `mem_check_siblings_iff` — what is noted at a node, exactly.
* `mem_tree_siblings_iff` — what is noted in a tree, each name once and in increasing order.
* `missing_modules_exact` — the report on missing modules, exactly.
-/

namespace ScriptWarden

variable {r : Rules} {p : Policy} {node t : Tree} {m : String}

-- ---------------------------------------------------------------------------
-- Modules that a node names
-- ---------------------------------------------------------------------------

/-- The last child of a kind. -/
def Tree.lastOf? (t : Tree) (kind : String) : Option Tree :=
  (t.children.filter (·.kind == kind)).getLast?

/-- A node imports from the directory that the script is in: a `from` statement whose module
begins with one dot. -/
structure Tree.ImportsBeside (node origin : Tree) : Prop where
  statement : node.kind = "import_from_statement"
  source : node.child? "module_name" = some origin
  relative : origin.kind = "relative_import"
  oneDot : (origin.lastOf? "import_prefix").map Tree.text = some "."

/-- The modules that a node names, as they are written: the target of `import m`, the module of
`from m import …`, the module of `from .m import …`, and each name of `from . import m`. -/
inductive Tree.NamesSibling (node : Tree) : String → Prop
  | absolute {d : Tree} : node.Imports (.module d) → node.NamesSibling d.text
  | future : node.Imports .future → node.NamesSibling "__future__"
  | source {origin d : Tree} :
      node.ImportsBeside origin → origin.lastOf? "dotted_name" = some d →
      node.NamesSibling d.text
  | member {origin d : Tree} :
      node.ImportsBeside origin → origin.lastOf? "dotted_name" = none → node.ImportsName d →
      node.NamesSibling d.text

/-- A name may be that of a sibling script: it has no dots, no interpreter or policy brings it
along, and it is not blocked. -/
structure Policy.LeavesOpen (p : Policy) (m : String) : Prop where
  named : m ≠ ""
  undotted : '.' ∉ m.toList
  notStandard : m ∉ standardModules
  notInstalled : m ∉ p.thirdPartyModules
  notAllowed : m ∉ p.allowedModules
  notBlocked : m ∉ p.blockedModules

/-- A name without dots lies below no entry. -/
theorem isAtOrBelow_undotted (hUndotted : '.' ∉ m.toList) (entry : String) :
    isAtOrBelow m entry = true ↔ m = entry := by
  have hNotBelow : ¬ (entry.toList ++ ['.']) <+: m.toList := fun hBelow =>
    hUndotted (hBelow.subset (by simp))
  simp [isAtOrBelow, List.isPrefixOf_iff_prefix, hNotBelow]

/-- Which names may be sibling scripts, in terms of the policy's lists. -/
theorem isLocalCandidate_iff : p.isLocalCandidate m = true ↔ p.LeavesOpen m := by
  have hAny : '.' ∉ m.toList → ∀ entries : List String,
      entries.any (isAtOrBelow m) = true ↔ m ∈ entries := by
    intro hUndotted entries
    simp only [List.any_eq_true, isAtOrBelow_undotted hUndotted, exists_eq_right']
  constructor
  · intro hCandidate
    have hParts : (((m ≠ "" ∧ '.' ∉ m.toList) ∧ isStandardModule m = false) ∧
        p.isKnownPackage m = false) ∧ p.isBlockedModule m = false := by
      simpa [Policy.isLocalCandidate] using hCandidate
    obtain ⟨⟨⟨⟨hNamed, hUndotted⟩, hStandard⟩, hKnown⟩, hBlocked⟩ := hParts
    have hPackages : m ∉ p.thirdPartyModules ∧ m ∉ p.allowedModules := by
      rw [Policy.isKnownPackage, Bool.or_eq_false_iff] at hKnown
      exact ⟨by simpa using hKnown.1, fun hAllowed => by
        rw [(hAny hUndotted _).mpr hAllowed] at hKnown
        exact Bool.noConfusion hKnown.2⟩
    refine ⟨hNamed, hUndotted, by simpa [isStandardModule] using hStandard, hPackages.1,
      hPackages.2, fun hMem => ?_⟩
    have hNotAllowed : p.allowedModules.any (isAtOrBelow m) = false :=
      Bool.eq_false_iff.mpr fun h => hPackages.2 ((hAny hUndotted _).mp h)
    simp [Policy.isBlockedModule, hNamed, hNotAllowed, (hAny hUndotted _).mpr hMem] at hBlocked
  · rintro ⟨hNamed, hUndotted, hStandard, hInstalled, hAllowed, hBlocked⟩
    have hNotAllowed : p.allowedModules.any (isAtOrBelow m) = false :=
      Bool.eq_false_iff.mpr fun h => hAllowed ((hAny hUndotted _).mp h)
    have hNotBlocked : p.blockedModules.any (isAtOrBelow m) = false :=
      Bool.eq_false_iff.mpr fun h => hBlocked ((hAny hUndotted _).mp h)
    simp [Policy.isLocalCandidate, Policy.isKnownPackage, Policy.isBlockedModule,
      isStandardModule, hNamed, hUndotted, hStandard, hInstalled, hNotAllowed, hNotBlocked]

-- ---------------------------------------------------------------------------
-- What is noted at a node
-- ---------------------------------------------------------------------------

theorem mem_siblings_iff {modules : List String} :
    m ∈ p.siblings modules ↔ m ∈ modules ∧ p.LeavesOpen m := by
  rw [Policy.siblings, List.mem_filter, isLocalCandidate_iff]

/-- A module that is blocked is no sibling script. -/
theorem Policy.LeavesOpen.not_blocked (hOpen : p.LeavesOpen m) : p.isBlockedModule m = false := by
  have hCandidate := isLocalCandidate_iff.mpr hOpen
  rw [Policy.isLocalCandidate, Bool.and_eq_true] at hCandidate
  simpa using hCandidate.2

theorem mem_checkImport_siblings_iff (hKind : node.kind = "import_statement") :
    m ∈ (p.checkImport node).siblings ↔ node.NamesSibling m ∧ p.LeavesOpen m := by
  have hMem : m ∈ (p.checkImport node).siblings ↔ m ∈ node.importTargets ∧ p.LeavesOpen m := by
    simp only [Policy.checkImport, mem_siblings_iff, List.mem_filter, and_assoc]
    exact and_congr_right fun _ => and_iff_right_of_imp fun hOpen => by simp [hOpen.not_blocked]
  rw [hMem, mem_importTargets_iff]
  refine and_congr_left fun _ => ⟨?_, fun hNames => ?_⟩
  · rintro ⟨d, hName, rfl⟩
    exact .absolute (.module hKind hName)
  · cases hNames with
    | absolute hImports =>
      cases hImports with
      | module _ hName => exact ⟨_, hName, rfl⟩
      | source hFrom => simp [hKind] at hFrom
    | future hImports =>
      cases hImports with
      | future hFuture => simp [hKind] at hFuture
    | source hBeside => exact absurd (hKind ▸ hBeside.statement) (by decide)
    | member hBeside => exact absurd (hKind ▸ hBeside.statement) (by decide)

theorem relativeParts_eq (origin : Tree) :
    origin.relativeParts = (((origin.lastOf? "import_prefix").map Tree.text).getD "",
      (origin.lastOf? "dotted_name").map Tree.text) := rfl

/-- What is noted at a relative import: nothing unless it begins with one dot. -/
theorem mem_relative_siblings_iff {origin : Tree} (hKind : node.kind = "import_from_statement")
    (hSource : node.child? "module_name" = some origin)
    (hRelative : origin.kind = "relative_import") :
    m ∈ (p.checkFromImport node).siblings ↔ node.NamesSibling m ∧ p.LeavesOpen m := by
  have hOrigin : ∀ {other : Tree}, node.child? "module_name" = some other → other = origin :=
    fun hOther => Option.some_inj.mp (hOther.symm.trans hSource)
  -- no module is named by a relative import but as one beside the script
  have hNames : node.NamesSibling m ↔
      (origin.lastOf? "import_prefix").map Tree.text = some "." ∧
        ((origin.lastOf? "dotted_name").map Tree.text = some m ∨
          origin.lastOf? "dotted_name" = none ∧ m ∈ node.importTargets) := by
    constructor
    · intro h
      cases h with
      | absolute hImports =>
        cases hImports with
        | module hImport => simp [hKind] at hImport
        | source _ hModule hAbsolute => exact absurd (hOrigin hModule ▸ hRelative) hAbsolute
      | future hImports =>
        cases hImports with
        | future hFuture => simp [hKind] at hFuture
      | source hBeside hNamed =>
        obtain rfl := hOrigin hBeside.source
        exact ⟨hBeside.oneDot, Or.inl (by rw [hNamed, Option.map_some])⟩
      | member hBeside hNone hName =>
        obtain rfl := hOrigin hBeside.source
        exact ⟨hBeside.oneDot, Or.inr ⟨hNone, mem_importTargets_iff.mpr ⟨_, hName, rfl⟩⟩⟩
    · rintro ⟨hOneDot, hText | ⟨hNone, hMem⟩⟩
      · obtain ⟨d, hNamed, rfl⟩ := Option.map_eq_some_iff.mp hText
        exact .source ⟨hKind, hSource, hRelative, hOneDot⟩ hNamed
      · obtain ⟨d, hName, rfl⟩ := mem_importTargets_iff.mp hMem
        exact .member ⟨hKind, hSource, hRelative, hOneDot⟩ hNone hName
  rw [hNames, Policy.checkFromImport, hSource]
  simp only [hRelative, beq_self_eq_true, if_true, relativeParts_eq]
  cases hDots : origin.lastOf? "import_prefix" with
  | none => simp
  | some dots =>
    by_cases hOneDot : dots.text = "."
    · cases hNamed : origin.lastOf? "dotted_name" with
      | none => simp [hOneDot, mem_siblings_iff]
      | some d => simp [hOneDot, mem_siblings_iff, eq_comm]
    · simp [hOneDot]

/-- What is noted at a `from` statement. -/
theorem mem_checkFromImport_siblings_iff (hKind : node.kind = "import_from_statement") :
    m ∈ (p.checkFromImport node).siblings ↔ node.NamesSibling m ∧ p.LeavesOpen m := by
  cases hSource : node.child? "module_name" with
  | none =>
    have hNone : ¬ node.NamesSibling m := by
      intro hNames
      cases hNames with
      | absolute hImports => cases hImports <;> simp_all
      | future hImports => cases hImports; simp_all
      | source hBeside => exact nomatch hSource.symm.trans hBeside.source
      | member hBeside => exact nomatch hSource.symm.trans hBeside.source
    simp [Policy.checkFromImport, hSource, hNone]
  | some origin =>
    by_cases hRelative : origin.kind = "relative_import"
    · exact mem_relative_siblings_iff hKind hSource hRelative
    · have hNames : node.NamesSibling m ↔ m = origin.text := by
        constructor
        · intro h
          cases h with
          | absolute hImports =>
            cases hImports with
            | module hImport => simp [hKind] at hImport
            | source _ hModule =>
              exact congrArg Tree.text (Option.some_inj.mp (hModule.symm.trans hSource))
          | future hImports =>
            cases hImports with
            | future hFuture => simp [hKind] at hFuture
          | source hBeside =>
            obtain rfl := Option.some_inj.mp (hBeside.source.symm.trans hSource)
            exact absurd hBeside.relative hRelative
          | member hBeside =>
            obtain rfl := Option.some_inj.mp (hBeside.source.symm.trans hSource)
            exact absurd hBeside.relative hRelative
        · rintro rfl
          exact .absolute (.source hKind hSource hRelative)
      rw [hNames]
      by_cases hBlocked : p.isBlockedModule origin.text = true
      · -- the check stops at a blocked module, which is no sibling anyway
        simp only [Policy.checkFromImport, hSource, beq_iff_eq, hRelative, if_false, hBlocked,
          if_true, List.not_mem_nil, false_iff]
        rintro ⟨rfl, hOpen⟩
        rw [hOpen.not_blocked] at hBlocked
        exact Bool.noConfusion hBlocked
      · simp [Policy.checkFromImport, hSource, hRelative, hBlocked, mem_siblings_iff]

/-- **What is noted at a node, exactly:** the modules that it names and that may be sibling
scripts. -/
theorem mem_check_siblings_iff {q : Place} :
    m ∈ (r.check q).siblings ↔ q.node.NamesSibling m ∧ r.policy.LeavesOpen m := by
  by_cases hImport : q.node.kind = "import_statement"
  · rw [← mem_checkImport_siblings_iff hImport, Rules.check]
    simp [hImport]
  by_cases hFrom : q.node.kind = "import_from_statement"
  · rw [← mem_checkFromImport_siblings_iff hFrom, Rules.check]
    simp [hFrom]
  have hSilent : (r.check q).siblings = [] := by
    simp only [Rules.check, beq_iff_eq, hImport, hFrom, if_false]
    split_ifs <;> rfl
  rw [hSilent]
  refine iff_of_false List.not_mem_nil ?_
  rintro ⟨hNames, hOpen⟩
  cases hNames with
  | absolute hImports => cases hImports <;> contradiction
  | future => exact hOpen.notStandard (by decide)
  | source hBeside => exact hFrom hBeside.statement
  | member hBeside => exact hFrom hBeside.statement

-- ---------------------------------------------------------------------------
-- What is noted in a tree
-- ---------------------------------------------------------------------------

/-- What is noted in a tree, each name once and in increasing order. -/
theorem mem_tree_siblings_iff (hClean : t.label.hasError = false) :
    (r.analyzeTree t).siblings.Pairwise (· < ·) ∧
      ∀ m, m ∈ (r.analyzeTree t).siblings ↔
        (∃ q, t.Occurs q ∧ q.node.NamesSibling m) ∧ r.policy.LeavesOpen m := by
  have hSiblings : (r.analyzeTree t).siblings = sortedNames (r.siblings t) := by
    simp only [Rules.analyzeTree, hClean, Bool.false_eq_true, if_false]
  obtain ⟨hOrder, hMem⟩ := foldl_insertName (r.siblings t) List.Pairwise.nil
  rw [hSiblings, sortedNames]
  refine ⟨hOrder, fun m => ?_⟩
  rw [hMem]
  simp only [List.not_mem_nil, false_or, Rules.siblings, List.mem_flatMap, mem_places_iff,
    mem_check_siblings_iff]
  constructor
  · rintro ⟨q, hOccurs, hNames, hOpen⟩
    exact ⟨⟨q, hOccurs, hNames⟩, hOpen⟩
  · rintro ⟨⟨q, hOccurs, hNames⟩, hOpen⟩
    exact ⟨q, hOccurs, hNames, hOpen⟩

-- ---------------------------------------------------------------------------
-- The report
-- ---------------------------------------------------------------------------

/-- The verdict on a tree as that of a script with a name, among known modules. -/
def Rules.verdictOn (r : Rules) (t : Tree) (scriptName : String) (known : List String) : Verdict :=
  let a := r.analyzeTree t
  Analysis.resolve { a with siblings := a.siblings.filter (· != moduleOf scriptName) } known

/-- A text has the verdict of its tree. -/
theorem validate_ofSource {source : String} (hTree : Tree.ofSource source = some t)
    (scriptName : String) (known : List String) :
    r.validate source scriptName known = r.verdictOn t scriptName known := by
  rw [Rules.validate, Rules.analyzeScript, analyze_ofSource hTree, Rules.verdictOn]

/-- Whether a text is valid, and what is wrong with it, is the same under every name and beside
every other script. -/
theorem validate_same_problems (r : Rules) (source : String) (name other : String)
    (known more : List String) :
    (r.validate source name known).isValid = (r.validate source other more).isValid ∧
      (r.validate source name known).errors = (r.validate source other more).errors := by
  simp only [Rules.validate, Rules.analyzeScript, Analysis.resolve, and_self]

/-- With more modules known, the missing ones are what was missing less what is known now. -/
theorem validate_missing_of_more (r : Rules) (source scriptName : String)
    {known more : List String} (hMore : known ⊆ more) :
    (r.validate source scriptName more).missing =
      (r.validate source scriptName known).missing.filter fun m => !more.contains m := by
  simp only [Rules.validate, Analysis.resolve]
  split
  · rw [List.filter_filter]
    refine List.filter_congr fun m _ => ?_
    by_cases hMem : m ∈ more
    · simp [hMem]
    · have hUnknown : m ∉ known := fun hKnown => hMem (hMore hKnown)
      simp [hMem, hUnknown]
  · rfl

/--
**The report on missing modules is exact.** In a tree without errors the names are listed in
increasing order, each once. When the script is valid, they are the modules that some node names
and that may be sibling scripts, less the script itself and what is known; otherwise there are
none. Every text with that tree gets this verdict. For a text of any kind, neither its validity nor
its errors depend on its name or on what is known, and knowing more only takes names off the list.
-/
theorem missing_modules_exact (r : Rules) {t : Tree} (hClean : t.label.hasError = false)
    (scriptName : String) (known : List String) :
    (r.verdictOn t scriptName known).missing.Pairwise (· < ·) ∧
    ((r.verdictOn t scriptName known).isValid = true →
      ∀ m, m ∈ (r.verdictOn t scriptName known).missing ↔
        (∃ q, t.Occurs q ∧ q.node.NamesSibling m) ∧ r.policy.LeavesOpen m ∧
          m ≠ moduleOf scriptName ∧ m ∉ known) ∧
    ((r.verdictOn t scriptName known).isValid = false →
      (r.verdictOn t scriptName known).missing = []) ∧
    (∀ source, Tree.ofSource source = some t →
      r.validate source scriptName known = r.verdictOn t scriptName known) ∧
    (∀ source other more,
      (r.validate source scriptName known).isValid = (r.validate source other more).isValid ∧
      (r.validate source scriptName known).errors = (r.validate source other more).errors) ∧
    (∀ source more, known ⊆ more →
      (r.validate source scriptName more).missing.Sublist
        (r.validate source scriptName known).missing) := by
  obtain ⟨hOrder, hMem⟩ := mem_tree_siblings_iff (r := r) hClean
  refine ⟨?_, fun hValid m => ?_, fun hInvalid => ?_,
    fun source hTree => validate_ofSource hTree scriptName known,
    fun source other more => validate_same_problems r source scriptName other known more,
    fun source more hMore => ?_⟩
  · rw [Rules.verdictOn, Analysis.resolve]
    dsimp only
    split
    · exact (hOrder.filter _).filter _
    · exact List.Pairwise.nil
  · have hNothing : (r.analyzeTree t).problems.isEmpty = true := hValid
    simp only [Rules.verdictOn, Analysis.resolve, hNothing, if_true, List.mem_filter, hMem,
      bne_iff_ne, ne_eq, List.contains_eq_mem, Bool.not_eq_true', decide_eq_false_iff_not,
      and_assoc]
  · have hSomething : (r.analyzeTree t).problems.isEmpty = false := hInvalid
    simp [Rules.verdictOn, Analysis.resolve, hSomething]
  · rw [validate_missing_of_more r source scriptName hMore]
    exact List.filter_sublist

-- ---------------------------------------------------------------------------
-- A script that imports in every way
-- ---------------------------------------------------------------------------

/-- A dotted name, possibly as a field of its parent. -/
def Tree.dottedName (text : String) (field : Option String := none) : Tree :=
  .node { kind := "dotted_name", text, field } [.word text]

/-- `import` with names or aliases after it. -/
def importOf (text : String) (names : List Tree) : Tree :=
  .node { kind := "import_statement", text } (.mark "import" :: names)

/-- `from` an origin `import` names. -/
def fromImportOf (text : String) (origin : Tree) (names : List Tree) : Tree :=
  .node { kind := "import_from_statement", text }
    (.mark "from" :: origin :: .mark "import" :: names)

/-- The origin of a relative import: dots, and a module where there is one. -/
def relativeOrigin (dots : String) (module : List Tree) : Tree :=
  .node { kind := "relative_import", field := some "module_name", text := dots }
    (.node { kind := "import_prefix", text := dots } [] :: module)

/-- A script that imports in every way, from modules of every kind. -/
def importingScript : Tree :=
  .node { kind := "module", text := "" }
    [importOf "import json, zeta, os.path" [.dottedName "json" (some "name"),
        .dottedName "zeta" (some "name"), .dottedName "os.path" (some "name")],
      importOf "import helpers as h"
        [.node { kind := "aliased_import", field := some "name", text := "helpers as h" }
          [.dottedName "helpers" (some "name"), .mark "as", .word "h" (some "alias")]],
      fromImportOf "from gamma import x" (.dottedName "gamma" (some "module_name"))
        [.dottedName "x" (some "name")],
      fromImportOf "from .delta import y" (relativeOrigin "." [.dottedName "delta"])
        [.dottedName "y" (some "name")],
      fromImportOf "from . import eta, helpers" (relativeOrigin "." [])
        [.dottedName "eta" (some "name"), .dottedName "helpers" (some "name")],
      fromImportOf "from .. import above" (relativeOrigin ".." [])
        [.dottedName "above" (some "name")],
      importOf "import numpy, menu, beta" [.dottedName "numpy" (some "name"),
        .dottedName "menu" (some "name"), .dottedName "beta" (some "name")]]

/-- What is missing to a script that imports in every way, itself being `menu` and `beta` being
there. -/
theorem importing_script_report :
    importingScript.label.hasError = false ∧
      ((⟨.standard, "/scripts"⟩ : Rules).verdictOn importingScript "menu.py" ["beta"]).isValid =
        true ∧
      ((⟨.standard, "/scripts"⟩ : Rules).verdictOn importingScript "menu.py" ["beta"]).missing =
        ["delta", "eta", "gamma", "helpers", "zeta"] ∧
      ∀ m, m ∈ ["delta", "eta", "gamma", "helpers", "zeta"] ↔
        (∃ q, importingScript.Occurs q ∧ q.node.NamesSibling m) ∧
          Policy.standard.LeavesOpen m ∧ m ≠ moduleOf "menu.py" ∧ m ∉ ["beta"] := by
  have hValid : ((⟨.standard, "/scripts"⟩ : Rules).verdictOn importingScript "menu.py"
      ["beta"]).isValid = true := by decide +kernel
  have hMissing : ((⟨.standard, "/scripts"⟩ : Rules).verdictOn importingScript "menu.py"
      ["beta"]).missing = ["delta", "eta", "gamma", "helpers", "zeta"] := by decide +kernel
  have hReport := (missing_modules_exact ⟨.standard, "/scripts"⟩ (t := importingScript) rfl
    "menu.py" ["beta"]).2.1 hValid
  rw [hMissing] at hReport
  exact ⟨rfl, hValid, hMissing, hReport⟩

end ScriptWarden
