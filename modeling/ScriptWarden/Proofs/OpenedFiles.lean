import ScriptWarden.Proofs.Arguments

/-!
# Opened files

A call of `open` is passed a file and perhaps a mode, each by position or by keyword. The check
takes the file and the mode from the arguments without their splats: a literal file must lie inside,
and any other must not be opened for writing.

In a script that passes, a file that is opened is a literal that lies inside, or it is not written
to, whatever else the call lists, in any order and with comments between. The one exception is a
splat that brings the file or the mode: it is dropped from the arguments, and with it what it stands
for, so that the check sees no file at all, no mode, or one argument in the place of another.

## Results

* `parameter?_of_opens` — what the check takes for file and mode.
* `accepted_open_confined` — which calls of `open` pass.
* `checkOpen_of_same_rest` — splats make no difference to the check.
* `spread_file_passes`, `moved_mode_passes`, `spread_mode_passes` — so the exception is one.
-/

namespace ScriptWarden

-- ---------------------------------------------------------------------------
-- What is opened
-- ---------------------------------------------------------------------------

/-- A call, if it is one of `open`, may open a file in a mode. The call is refused, and nothing is
opened, when it comes to a keyword twice, to a parameter twice, or to no file. -/
def Tree.Opens (call : Tree) (file : Passed) (mode : Option Passed) : Prop :=
  ∃ ps ks, Passes call.items ps ks ∧ (ks.map Prod.fst).Nodup ∧
    Takes ps ks 0 "file" (some file) ∧ Takes ps ks 1 "mode" mode

/-- The letters of a mode in which a file is written to. -/
def writingLetters : List Char := ['w', 'a', 'x', '+']

/-- A mode does not write: there is none, or it is a literal without the letters. -/
def ReadsOnly : Option Passed → Prop
  | none => True
  | some (.written mode) => ∃ text, mode.PlainLiteral text ∧ ∀ c ∈ text.toList, c ∉ writingLetters
  | some .unseen => False

/-- A node is a literal for a path that comes, from the scripts directory, to one of the allowed
directories; with a scripts directory at the root, it comes there wherever the service works. -/
def Rules.ConfinesLiteral (r : Rules) (path : Tree) : Prop :=
  ∃ text, path.PlainLiteral text ∧ (∃ root ∈ r.roots, Overlays root (joinPath r.scriptsDir text)) ∧
    (isAbsolutePath r.scriptsDir = true → ∀ place, r.Confines place text)

variable {r : Rules} {call : Tree}

theorem mayWrite_eq_false_iff {mode : Tree} :
    mayWrite (some mode) = false ↔ ReadsOnly (some (.written mode)) := by
  simp only [mayWrite, ReadsOnly, ← stringLiteral?_eq_some_iff]
  cases mode.stringLiteral? with
  | none => simp
  | some text => simp [writingLetters]

theorem confinesLiteral_of_allowsPath {path : Tree} {text : String}
    (hLiteral : path.PlainLiteral text) (hAllows : r.allowsPath text = true) :
    r.ConfinesLiteral path :=
  ⟨text, hLiteral, allowsPath_iff_overlays.mp hAllows,
    fun hAbsolute place => (allowsPath_iff_confines hAbsolute place).mp hAllows⟩

/-- The check of a call of `open`, by what it takes for file and mode. -/
theorem checkOpen_eq (r : Rules) (call : Tree) :
    r.checkOpen call = match call.arguments.parameter? 0 "file" with
      | none => []
      | some path =>
        match path.stringLiteral? with
        | some literal => r.checkPath "open" literal
        | none =>
          if mayWrite (call.arguments.parameter? 1 "mode") then [.dynamicWrite r.scriptsDir]
          else [] := by
  rw [Rules.checkOpen, List.head?_eq_getElem?]
  rfl

/-- Where the check of a call of `open` is silent, the file that it takes is confined, or the mode
that it takes does not write. -/
theorem confined_of_checkOpen_silent (hSilent : r.checkOpen call = []) {path : Tree}
    (hFile : call.arguments.parameter? 0 "file" = some path) :
    r.ConfinesLiteral path ∨ mayWrite (call.arguments.parameter? 1 "mode") = false := by
  rw [checkOpen_eq, hFile] at hSilent
  cases hLiteral : path.stringLiteral? with
  | some literal =>
    left
    simp only [hLiteral] at hSilent
    refine confinesLiteral_of_allowsPath (stringLiteral?_eq_some_iff.mp hLiteral) ?_
    by_contra hRefused
    rw [Bool.not_eq_true] at hRefused
    rw [checkPath_of_not_allowed hRefused] at hSilent
    cases hSilent
  | none =>
    right
    simpa [hLiteral] using hSilent

/-- What the check takes for the file is the file that is opened, if the call says it itself. -/
theorem file_of_opens {path : Tree} {mode : Option Passed}
    (hOpens : call.Opens (.written path) mode) :
    call.arguments.parameter? 0 "file" = some path := by
  obtain ⟨ps, ks, hPasses, hOnce, hFile, -⟩ := hOpens
  exact parameter?_of_takes hPasses hOnce hFile (by simp)

/-- If it says the mode as well, the same holds of the mode. -/
theorem mode_of_opens {path mode : Tree}
    (hOpens : call.Opens (.written path) (some (.written mode))) :
    call.arguments.parameter? 1 "mode" = some mode := by
  obtain ⟨ps, ks, hPasses, hOnce, hFile, hMode⟩ := hOpens
  refine parameter?_of_takes hPasses hOnce hMode ?_
  -- what stands before the mode by position is the file, or nothing
  rw [List.take_one, List.head?_eq_getElem?]
  cases hFile with
  | position hAt _ => simp [hAt]
  | keyword hNone _ => simp [hNone]

/-- A file or a mode that the call does not say itself is brought by a splat. -/
theorem exists_splat_of_opens_unseen {file : Passed} {mode : Option Passed}
    (hOpens : call.Opens file mode) (hUnseen : file = .unseen ∨ mode = some .unseen) :
    ∃ item ∈ call.items, item.isSplat = true := by
  obtain ⟨ps, ks, hPasses, -, hFile, hMode⟩ := hOpens
  rcases hUnseen with rfl | rfl
  · exact exists_splat_of_takes_unseen hPasses hFile
  · exact exists_splat_of_takes_unseen hPasses hMode

-- ---------------------------------------------------------------------------
-- Calls that pass
-- ---------------------------------------------------------------------------

/--
**A call of `open` that passes is confined or reads only.** Under every policy, in a tree that is
not refused, whatever file and mode a call of `open` comes to: the file is a literal for a path
inside one of the allowed directories, or the mode does not write, unless the call lists a splat and
that brings the file or the mode.
-/
theorem accepted_open_confined {t : Tree} (hAccepted : ¬ r.Rejects t) {p : Place}
    (hOccurs : t.Occurs p) (hCall : p.node.kind = "call") {function : Tree}
    (hFunction : p.node.child? "function" = some function)
    (hName : isNameKind function.kind = true) (hOpen : function.text = "open") {file : Passed}
    {mode : Option Passed} (hOpens : p.node.Opens file mode) :
    ((∃ path, file = .written path ∧ r.ConfinesLiteral path) ∨ ReadsOnly mode) ∨
      (∃ item ∈ p.node.items, item.isSplat = true) ∧ (file = .unseen ∨ mode = some .unseen) := by
  have hSilent : r.checkOpen p.node = [] := by
    have hNothing := violations_of_not_rejects hAccepted hOccurs
    simp only [Rules.check, hCall, Rules.checkCall, hFunction, hName, hOpen] at hNothing
    exact (List.append_eq_nil_iff.mp hNothing).2
  have hSplat := exists_splat_of_opens_unseen hOpens
  cases file with
  | unseen => exact Or.inr ⟨hSplat (Or.inl rfl), Or.inl rfl⟩
  | written path =>
    rcases confined_of_checkOpen_silent hSilent (file_of_opens hOpens) with hConfined | hReads
    · exact Or.inl (Or.inl ⟨path, rfl, hConfined⟩)
    · cases mode with
      | none => exact Or.inl (Or.inr trivial)
      | some mode =>
        cases mode with
        | unseen => exact Or.inr ⟨hSplat (Or.inr rfl), Or.inr rfl⟩
        | written mode =>
          rw [mode_of_opens hOpens] at hReads
          exact Or.inl (Or.inr (mayWrite_eq_false_iff.mp hReads))

/-- The call of `open` with a name that is computed and some further items. -/
def openNamed (further : List Tree) : Tree := .callOf (.word "open") (.word "name" :: further)

/-- `open(name, 'rb', *sizes, **options)` passes, and where the splats bring a size and an encoding
it reads from the file. -/
theorem named_file_is_read :
    let call := openNamed
      [quoted "rb", .listSplat (.word "sizes"), .dictionarySplat (.word "options")]
    ¬ homeRules.Rejects (.script call.statement) ∧
      (Tree.script call.statement).Occurs call.onlyExpression ∧
      call.onlyExpression.node.kind = "call" ∧
      call.onlyExpression.node.child? "function" = some (.word "open" (some "function")) ∧
      isNameKind (Tree.word "open" (some "function")).kind = true ∧
      (Tree.word "open" (some "function")).text = "open" ∧
      call.Opens (.written (.word "name")) (some (.written (quoted "rb"))) ∧
      ReadsOnly (some (.written (quoted "rb"))) := by
  intro call
  have hAccepted : ¬ homeRules.Rejects (.script call.statement) := fun hRejects =>
    hRejects.problems (by decide +kernel)
  have hOpens : call.Opens (.written (.word "name")) (some (.written (quoted "rb"))) := by
    refine ⟨[.written (.word "name"), .written (quoted "rb"), .unseen], [("encoding", .unseen)],
      ?_, by decide +kernel, .position rfl (by decide +kernel), .position rfl (by decide +kernel)⟩
    exact .value rfl (.value rfl (.list 1 rfl (.dictionary ["encoding"] rfl .nothing)))
  have hOccurs : (Tree.script call.statement).Occurs call.onlyExpression :=
    occurs_onlyExpression rfl
  refine ⟨hAccepted, hOccurs, rfl, rfl, rfl, rfl, hOpens, ?_⟩
  rcases accepted_open_confined hAccepted hOccurs rfl rfl rfl rfl hOpens with
    (⟨path, hFile, text, hLiteral, -⟩ | hReads) | ⟨-, hFile | hMode⟩
  · -- a name is no literal
    obtain rfl : Tree.word "name" = path := by simpa using hFile
    exact absurd hLiteral.kind (by decide +kernel)
  · exact hReads
  · cases hFile
  · cases hMode

-- ---------------------------------------------------------------------------
-- Splats
-- ---------------------------------------------------------------------------

/-- **Splats make no difference.** Two calls that list the same apart from splats are reported
alike. -/
theorem checkOpen_of_same_rest {call' : Tree}
    (hSame : call.items.filter (!·.isSplat) = call'.items.filter (!·.isSplat)) :
    r.checkOpen call = r.checkOpen call' := by
  have hPositional : ∀ c : Tree, c.arguments.positional =
      (c.items.filter (!·.isSplat)).filter Tree.isValue := by
    intro c
    rw [positional_eq, List.filter_filter]
    refine List.filter_congr fun item _ => ?_
    cases hSplat : item.isSplat <;> simp [Tree.isValue, hSplat]
  have hKeywords : ∀ c : Tree, c.arguments.keywords =
      (c.items.filter (!·.isSplat)).filterMap Tree.keyword? := by
    intro c
    rw [keywords_eq, List.filterMap_filter]
    refine List.filterMap_congr fun item _ => ?_
    cases hSplat : item.isSplat with
    | false => simp
    | true => simp [keyword?_of_isSplat hSplat]
  have hArguments : call.arguments = call'.arguments := by
    rw [Arguments.mk.injEq, hPositional, hPositional, hKeywords, hKeywords, hSame]
    exact ⟨rfl, rfl⟩
  simp only [Rules.checkOpen, hArguments]

/-- **A file that a splat brings passes.** In `open(*names, mode='w')` the check finds no file and
gives up. -/
theorem spread_file_passes :
    let mode := (quoted "w").fillField (some "value")
    let call := Tree.callOf (.word "open")
      [.listSplat (.word "names"), .keywordItem "mode" (quoted "w")]
    call.Opens .unseen (some (.written mode)) ∧ ¬ ReadsOnly (some (.written mode)) ∧
      (homeRules.analyzeTree (.script call.statement)).problems = [] := by
  intro mode call
  refine ⟨⟨[.unseen], [("mode", .written mode)], ?_, by decide +kernel,
    .position rfl (by decide +kernel), .keyword rfl List.mem_cons_self⟩, ?_, by decide +kernel⟩
  · exact .list 1 rfl (.keyword rfl .nothing)
  · rw [← mayWrite_eq_false_iff]
    decide +kernel

/-- **A mode in the place of the file passes.** In `open(*names, 'w')` the check takes the mode for
the file. -/
theorem moved_mode_passes :
    let call := Tree.callOf (.word "open") [.listSplat (.word "names"), quoted "w"]
    call.Opens .unseen (some (.written (quoted "w"))) ∧
      ¬ ReadsOnly (some (.written (quoted "w"))) ∧
      (homeRules.analyzeTree (.script call.statement)).problems = [] := by
  intro call
  refine ⟨⟨[.unseen, .written (quoted "w")], [], ?_, by decide +kernel,
    .position rfl (by decide +kernel), .position rfl (by decide +kernel)⟩, ?_, by decide +kernel⟩
  · exact .list 1 rfl (.value rfl .nothing)
  · rw [← mayWrite_eq_false_iff]
    decide +kernel

/-- **A mode that a splat brings passes.** In `open(name, *modes)` the check finds no mode. -/
theorem spread_mode_passes :
    let call := openNamed [.listSplat (.word "modes")]
    call.Opens (.written (.word "name")) (some .unseen) ∧ (Tree.word "name").stringLiteral? = none ∧
      (homeRules.analyzeTree (.script call.statement)).problems = [] := by
  intro call
  refine ⟨⟨[.written (.word "name"), .unseen], [], ?_, by decide +kernel,
    .position rfl (by decide +kernel), .position rfl (by decide +kernel)⟩, by decide +kernel,
    by decide +kernel⟩
  exact .value rfl (.list 1 rfl .nothing)

end ScriptWarden
