import ScriptWarden.Proofs.Arguments

/-!
# Destructive calls

Two kinds of calls change files on their own account: those of the destructive functions of `os` and
`shutil`, and those of the writing methods of a path object that is made on the spot. For both the
checks look at the paths that are written out as literals, and for both they look in the same list
of arguments, the one by position: at all of it for a destructive function, at its head for what a
path object is made from.

In these places nothing is missed and nothing is reported by mistake, however deep the call stands
and whatever else it lists. Literals elsewhere, behind a keyword or as a further part of a path, are
not looked at.

## Results

* `disallowedPath_mem_checkDestructive_iff`, `disallowedPath_mem_checkPathWrite_iff` — what either
  check reports.
* `outside_literal_refused` — a literal in a place that is looked at is reported exactly if it lies
  outside, and then the script is refused.
* `path_by_keyword_passes`, `further_part_passes` — the places that are not looked at.
-/

namespace ScriptWarden

-- ---------------------------------------------------------------------------
-- Calls that change files
-- ---------------------------------------------------------------------------

/-- The operations that change files without opening them first. -/
def changingOperations : List String := destructiveFunctions ++ pathWriteMethods

/-- A call makes a path object: it calls a chain of names that ends in one of the classes. -/
def Tree.MakesPath (call : Tree) : Prop :=
  call.kind = "call" ∧ ∃ maker names, call.child? "function" = some maker ∧
    maker.NamesChain names ∧ isPathClass (".".intercalate names) = true

/-- The nodes at which the checks look for the paths of an operation that a call performs: the
values that a destructive function is given without a keyword, and the first of those that a path
object is made from when it is told to write. -/
inductive Tree.Changes (call : Tree) : String → Tree → Prop
  | destroys {function path : Tree} {names : List String} :
      call.child? "function" = some function → function.kind = "attribute" →
      function.NamesChain names → ".".intercalate names ∈ destructiveFunctions →
      call.ListsValue path → Changes call (".".intercalate names) path
  | writes {function method receiver path : Tree} :
      call.child? "function" = some function → function.kind = "attribute" →
      function.child? "attribute" = some method → method.text ∈ pathWriteMethods →
      function.child? "object" = some receiver → receiver.MakesPath →
      receiver.ListsFirst path → Changes call method.text path

variable {r : Rules} {operation text : String}

/-- A path that is written out is reported exactly if it is not allowed. -/
theorem mem_checkPath_iff {path : String} {v : Violation} :
    v ∈ r.checkPath operation path ↔
      r.allowsPath path = false ∧ v = .disallowedPath operation path := by
  cases hAllows : r.allowsPath path <;> simp [Rules.checkPath, hAllows]

theorem disallowedPath_mem_checkPath_iff {performed literal : String} :
    .disallowedPath operation text ∈ r.checkPath performed literal ↔
      operation = performed ∧ literal = text ∧ r.allowsPath text = false := by
  rw [mem_checkPath_iff, Violation.disallowedPath.injEq]
  constructor
  · rintro ⟨hRefused, rfl, rfl⟩
    exact ⟨rfl, rfl, hRefused⟩
  · rintro ⟨rfl, rfl, hRefused⟩
    exact ⟨hRefused, rfl, rfl⟩

theorem disallowedPath_mem_checkDestructive_iff {call : Tree} {function : String} :
    .disallowedPath operation text ∈ r.checkDestructive call function ↔
      operation = function ∧
        ∃ path, call.ListsValue path ∧ path.PlainLiteral text ∧ r.allowsPath text = false := by
  simp only [Rules.checkDestructive, List.mem_flatMap, mem_positional_iff,
    ← stringLiteral?_eq_some_iff]
  constructor
  · rintro ⟨path, hListed, hReported⟩
    cases hLiteral : path.stringLiteral? with
    | none => simp [hLiteral] at hReported
    | some literal =>
      simp only [hLiteral] at hReported
      obtain ⟨hSame, rfl, hRefused⟩ := disallowedPath_mem_checkPath_iff.mp hReported
      exact ⟨hSame, path, hListed, hLiteral, hRefused⟩
  · rintro ⟨hSame, path, hListed, hLiteral, hRefused⟩
    refine ⟨path, hListed, ?_⟩
    simp only [hLiteral]
    exact disallowedPath_mem_checkPath_iff.mpr ⟨hSame, rfl, hRefused⟩

theorem makesPath_iff {call : Tree} :
    call.MakesPath ↔ call.kind = "call" ∧
      ((call.child? "function").bind Tree.dotted?).any isPathClass = true := by
  rw [Tree.MakesPath]
  refine and_congr_right fun _ => ?_
  simp only [Option.any_eq_true, Option.bind_eq_some_iff, dotted?_eq_some_iff]
  constructor
  · rintro ⟨maker, names, hMaker, hNames, hClass⟩
    exact ⟨_, ⟨maker, hMaker, names, hNames, rfl⟩, hClass⟩
  · rintro ⟨_, ⟨maker, hMaker, names, hNames, rfl⟩, hClass⟩
    exact ⟨maker, names, hMaker, hNames, hClass⟩

/-- The path of an object that is told to write is the first one that it is made from. -/
theorem disallowedPath_mem_checkPathWrite_iff {function : Tree} :
    .disallowedPath operation text ∈ r.checkPathWrite function ↔
      ∃ method receiver path, function.child? "attribute" = some method ∧
        method.text ∈ pathWriteMethods ∧ function.child? "object" = some receiver ∧
        receiver.MakesPath ∧ receiver.ListsFirst path ∧ operation = method.text ∧
        path.PlainLiteral text ∧ r.allowsPath text = false := by
  simp only [makesPath_iff, ← head?_positional_iff, ← stringLiteral?_eq_some_iff]
  rw [Rules.checkPathWrite]
  constructor
  · intro hReported
    split at hReported
    · next method receiver hMethod hReceiver =>
      split at hReported
      · next hWrites =>
        simp only [Bool.and_eq_true, List.contains_iff_mem, beq_iff_eq] at hWrites
        obtain ⟨⟨hWrites, hKind⟩, hClass⟩ := hWrites
        split at hReported
        · next literal hLiteral =>
          obtain ⟨path, hFirst, hLiteral⟩ := Option.bind_eq_some_iff.mp hLiteral
          obtain ⟨hSame, rfl, hRefused⟩ := disallowedPath_mem_checkPath_iff.mp hReported
          exact ⟨method, receiver, path, hMethod, hWrites, hReceiver, ⟨hKind, hClass⟩, hFirst,
            hSame, hLiteral, hRefused⟩
        · cases hReported
      · cases hReported
    · cases hReported
  · rintro ⟨method, receiver, path, hMethod, hWrites, hReceiver, ⟨hKind, hClass⟩, hFirst, hSame,
      hLiteral, hRefused⟩
    simp only [hMethod, hReceiver, hKind, hClass, hFirst, Option.bind_some, hLiteral,
      List.contains_iff_mem.mpr hWrites, beq_self_eq_true, Bool.and_self, if_true]
    exact disallowedPath_mem_checkPath_iff.mpr ⟨hSame, rfl, hRefused⟩

/-- The check of `open` speaks of no other operation. -/
theorem disallowedPath_not_mem_checkOpen {call : Tree}
    (hChanging : operation ∈ changingOperations) :
    .disallowedPath operation text ∉ r.checkOpen call := by
  have hOther : operation ≠ "open" := by
    rintro rfl
    exact absurd hChanging (by decide)
  intro hReported
  rw [Rules.checkOpen] at hReported
  split at hReported
  · cases hReported
  split at hReported
  · exact hOther (disallowedPath_mem_checkPath_iff.mp hReported).1
  · split at hReported <;> simp at hReported

/-- Such a report comes from one of two checks, and both are made of calls of attributes. -/
theorem disallowedPath_mem_checkCall_cases {call : Tree}
    (hChanging : operation ∈ changingOperations) :
    .disallowedPath operation text ∈ r.checkCall call ↔
      ∃ function, call.child? "function" = some function ∧ function.kind = "attribute" ∧
        ((∃ names, function.NamesChain names ∧ ".".intercalate names ∈ destructiveFunctions ∧
            .disallowedPath operation text ∈ r.checkDestructive call (".".intercalate names)) ∨
          .disallowedPath operation text ∈ r.checkPathWrite function) := by
  constructor
  · intro hReported
    rw [Rules.checkCall] at hReported
    split at hReported
    · cases hReported
    next function hFunction =>
    split at hReported
    · -- a plain name performs none of these operations
      rcases List.mem_append.mp hReported with hBuiltin | hOpen
      · split at hBuiltin <;> simp at hBuiltin
      · split at hOpen
        · exact absurd hOpen (disallowedPath_not_mem_checkOpen hChanging)
        · cases hOpen
    split at hReported
    · next hKind =>
      refine ⟨function, hFunction, beq_iff_eq.mp hKind, ?_⟩
      rcases List.mem_append.mp hReported with hChain | hWrite
      · left
        split at hChain
        · next chain hDotted =>
          obtain ⟨names, hNames, rfl⟩ := dotted?_eq_some_iff.mp hDotted
          rcases List.mem_append.mp hChain with hBlocked | hDestroys
          · split at hBlocked <;> simp at hBlocked
          · split at hDestroys
            · next hDestructive =>
              exact ⟨names, hNames, List.contains_iff_mem.mp hDestructive, hDestroys⟩
            · cases hDestroys
        · cases hChain
      · exact Or.inr hWrite
    · cases hReported
  · rintro ⟨function, hFunction, hKind, ⟨names, hNames, hDestructive, hReported⟩ | hReported⟩
    · rw [Rules.checkCall, hFunction]
      simp [hKind, isNameKind, dotted?_of_namesChain hNames, hDestructive, hReported]
    · rw [Rules.checkCall, hFunction]
      simp [hKind, isNameKind, hReported]

/-- What the check of a call reports about operations that change files. -/
theorem disallowedPath_mem_checkCall_iff {call : Tree}
    (hChanging : operation ∈ changingOperations) :
    .disallowedPath operation text ∈ r.checkCall call ↔
      ∃ path, call.Changes operation path ∧ path.PlainLiteral text ∧
        r.allowsPath text = false := by
  rw [disallowedPath_mem_checkCall_cases hChanging]
  simp only [disallowedPath_mem_checkDestructive_iff, disallowedPath_mem_checkPathWrite_iff]
  constructor
  · rintro ⟨function, hFunction, hKind,
      ⟨names, hNames, hDestructive, rfl, path, hListed, hLiteral⟩ |
      ⟨method, receiver, path, hMethod, hWrites, hReceiver, hMakes, hFirst, rfl, hLiteral⟩⟩
    · exact ⟨path, .destroys hFunction hKind hNames hDestructive hListed, hLiteral⟩
    · exact ⟨path, .writes hFunction hKind hMethod hWrites hReceiver hMakes hFirst, hLiteral⟩
  · rintro ⟨path, hChanges, hLiteral⟩
    cases hChanges with
    | @destroys function _ names hFunction hKind hNames hDestructive hListed =>
      exact ⟨function, hFunction, hKind,
        .inl ⟨names, hNames, hDestructive, rfl, path, hListed, hLiteral⟩⟩
    | @writes function method receiver _ hFunction hKind hMethod hWrites hReceiver hMakes hFirst =>
      exact ⟨function, hFunction, hKind, .inr
        ⟨method, receiver, path, hMethod, hWrites, hReceiver, hMakes, hFirst, rfl, hLiteral⟩⟩

-- ---------------------------------------------------------------------------
-- Refusal
-- ---------------------------------------------------------------------------

/-- The operations that calls perform on paths are those that change files. -/
theorem Tree.Changes.operation_mem {call path : Tree} (h : call.Changes operation path) :
    operation ∈ changingOperations := by
  cases h with
  | destroys _ _ _ hDestructive _ => exact List.mem_append_left _ hDestructive
  | writes _ _ _ hWrites _ _ _ => exact List.mem_append_right _ hWrites

/--
**Literals outside are refused where the checks look.** For every policy and scripts directory at
the root, a call that occurs in a tree without errors is reported for exactly those literals outside
of every allowed directory that it lists, at any position, for a destructive function, or first for
a path object that is told to write; and one such literal makes the tree, and every text that it is
the tree of, invalid.
-/
theorem outside_literal_refused (hAbsolute : isAbsolutePath r.scriptsDir = true) {t : Tree}
    (hClean : t.label.hasError = false) {p : Place} (hOccurs : t.Occurs p)
    (hCall : p.node.kind = "call") (place : List String) :
    (∀ operation ∈ changingOperations, ∀ text,
      .disallowedPath operation text ∈ (r.check p).violations ↔
        ∃ path, p.node.Changes operation path ∧ path.PlainLiteral text ∧
          ¬ r.Confines place text) ∧
    ∀ operation path text, p.node.Changes operation path → path.PlainLiteral text →
      ¬ r.Confines place text → r.Rejects t := by
  have hReported : ∀ operation ∈ changingOperations, ∀ text,
      .disallowedPath operation text ∈ (r.check p).violations ↔
        ∃ path, p.node.Changes operation path ∧ path.PlainLiteral text ∧
          ¬ r.Confines place text := by
    intro operation hChanging text
    have hCheck : (r.check p).violations = r.checkCall p.node := by simp [Rules.check, hCall]
    rw [hCheck, disallowedPath_mem_checkCall_iff hChanging, ← allowsPath_iff_confines hAbsolute,
      Bool.not_eq_true]
  refine ⟨hReported, fun operation path text hChanges hLiteral hOutside => ?_⟩
  exact rejects_of_violation hClean hOccurs
    ((hReported operation hChanges.operation_mem text).mpr ⟨path, hChanges, hLiteral, hOutside⟩)

/-- `shutil.copy('a.txt', '/etc/cron.d/job')` -/
def copyCall : Tree :=
  .callOf ((Tree.word "shutil").member "copy") [quoted "a.txt", quoted "/etc/cron.d/job"]

/-- The copy is made inside of `print(…)`, and the path that it goes to comes second. -/
theorem nested_copy_refused :
    let printed := Tree.callOf (.word "print") [copyCall]
    let p : Place := ⟨copyCall, (printed.child? "arguments").map (·, 1)⟩
    isAbsolutePath homeRules.scriptsDir = true ∧
      (Tree.script printed.statement).label.hasError = false ∧
      (Tree.script printed.statement).Occurs p ∧ p.node.kind = "call" ∧
      p.node.Changes "shutil.copy" (quoted "/etc/cron.d/job") ∧
      (quoted "/etc/cron.d/job").PlainLiteral "/etc/cron.d/job" ∧
      ¬ homeRules.Confines [] "/etc/cron.d/job" ∧
      homeRules.Rejects (Tree.script printed.statement) := by
  intro printed p
  have hAbsolute : isAbsolutePath homeRules.scriptsDir = true := by decide +kernel
  have hOccurs : (Tree.script printed.statement).Occurs p :=
    .child (.child (occurs_onlyExpression rfl) (i := 1) rfl rfl) (i := 1) rfl rfl
  have hNames : (((Tree.word "shutil").member "copy").fillField (some "function")).NamesChain
      ["shutil", "copy"] := chain?_eq_some_iff.mp (by decide +kernel)
  have hChanges : p.node.Changes "shutil.copy" (quoted "/etc/cron.d/job") :=
    .destroys rfl rfl hNames (by decide +kernel) ⟨List.mem_of_getElem? (i := 1) rfl, rfl⟩
  have hOutside : ¬ homeRules.Confines [] "/etc/cron.d/job" := by decide +kernel
  exact ⟨hAbsolute, rfl, hOccurs, rfl, hChanges, quoted_plain _, hOutside,
    (outside_literal_refused hAbsolute rfl hOccurs rfl []).2 _ _ _ hChanges (quoted_plain _)
      hOutside⟩

/-- **A path behind a keyword passes.** Nothing is found in `os.remove(path='/etc/passwd')`. -/
theorem path_by_keyword_passes :
    let call := Tree.callOf ((Tree.word "os").member "remove")
      [.keywordItem "path" (quoted "/etc/passwd")]
    (∃ function, call.child? "function" = some function ∧ function.NamesChain ["os", "remove"]) ∧
      ".".intercalate ["os", "remove"] ∈ destructiveFunctions ∧
      (∃ value, call.items.filterMap Tree.keyword? = [("path", value)] ∧
        value.PlainLiteral "/etc/passwd") ∧
      ¬ homeRules.Confines [] "/etc/passwd" ∧
      (homeRules.analyzeTree (.script call.statement)).problems = [] := by
  intro call
  refine ⟨⟨_, rfl, chain?_eq_some_iff.mp (by decide +kernel)⟩, by decide +kernel,
    ⟨_, rfl, ?_⟩, by decide +kernel, by decide +kernel⟩
  exact stringLiteral?_eq_some_iff.mp (by decide +kernel)

/-- **A further part of a path passes.** `Path('data', '/etc/passwd')` is `/etc/passwd`, and nothing
is found where it is told to write. -/
theorem further_part_passes :
    let maker := Tree.callOf (.word "Path") [quoted "data", quoted "/etc/passwd"]
    let call := Tree.callOf (maker.member "write_text") [quoted "x"]
    (∃ function receiver, call.child? "function" = some function ∧
        function.child? "object" = some receiver ∧ receiver.MakesPath ∧
        receiver.ListsValue (quoted "/etc/passwd")) ∧
      "write_text" ∈ pathWriteMethods ∧ (quoted "/etc/passwd").PlainLiteral "/etc/passwd" ∧
      ¬ homeRules.Confines [] "/etc/passwd" ∧
      (homeRules.analyzeTree (.script call.statement)).problems = [] := by
  intro maker call
  refine ⟨⟨_, _, rfl, rfl, ⟨rfl, _, ["Path"], rfl, .name rfl, by decide +kernel⟩,
    List.mem_of_getElem? (i := 1) rfl, rfl⟩, by decide +kernel, quoted_plain _,
    by decide +kernel, by decide +kernel⟩

end ScriptWarden
