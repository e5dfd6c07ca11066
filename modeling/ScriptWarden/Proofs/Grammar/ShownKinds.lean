import Mathlib.Data.List.Basic
import ScriptWarden.Grammar.Basic

/-!
# Shown kinds

A rule may show a child under a kind that is not its own. The passes that turn rules into flat
productions move such kinds about, from a rule to its readings, to the steps of its productions, to
the auxiliary rules of its repetitions and to the rules that it is put in the place of; they make
up none. So every kind that a child is shown under stands in the grammar as it was written.

## Results

* `hoist_shows`, `readings_shows`, `flatten_shows`, `inlineBodies_shows` — each pass.
* `build_productions_show` — the productions of a grammar.
* `build_terminals_named`, `build_nonterminals_named` — which symbols show as unnamed nodes.
-/

namespace ScriptWarden.Grammar

-- ---------------------------------------------------------------------------
-- The kinds of a rule
-- ---------------------------------------------------------------------------

mutual

/-- The kinds that a rule shows children under, in order. -/
def Rule.kinds : Rule → List Kind
  | .token _ => []
  | .lexeme _ => []
  | .ref _ => []
  | .empty => []
  | .seq parts => Rule.kindsAll parts
  | .oneOf parts => Rule.kindsAll parts
  | .many1 body => Rule.kinds body
  | .prec _ _ body => Rule.kinds body
  | .dynamic _ body => Rule.kinds body
  | .field _ body => Rule.kinds body
  | .relabel k body => k :: Rule.kinds body

/-- The kinds that the rules of a list show children under, in order. -/
def Rule.kindsAll : List Rule → List Kind
  | [] => []
  | r :: rest => Rule.kinds r ++ Rule.kindsAll rest

end

variable {P : Kind → Prop}

/-- All kinds that a rule shows children under are of some sort. -/
def Rule.Shows (P : Kind → Prop) (r : Rule) : Prop := ∀ k ∈ r.kinds, P k

/-- `Rule.Shows` for every rule of a list. -/
def Rule.ShowsAll (P : Kind → Prop) (rs : List Rule) : Prop := ∀ k ∈ Rule.kindsAll rs, P k

theorem showsAll_cons_iff {r : Rule} {rest : List Rule} :
    Rule.ShowsAll P (r :: rest) ↔ r.Shows P ∧ Rule.ShowsAll P rest := by
  simp only [Rule.ShowsAll, Rule.Shows, Rule.kindsAll, List.forall_mem_append]

theorem shows_relabel_iff {k : Kind} {body : Rule} :
    (Rule.relabel k body).Shows P ↔ P k ∧ body.Shows P := by
  simp only [Rule.Shows, Rule.kinds, List.forall_mem_cons]

-- ---------------------------------------------------------------------------
-- Repetition
-- ---------------------------------------------------------------------------

/-- All bodies that auxiliary rules repeat show children under kinds of some sort. -/
def Hoisted.Shows (P : Kind → Prop) (h : Hoisted) : Prop := ∀ e ∈ h.rules, e.2.Shows P

/-- Work that keeps the kinds of auxiliary rules, and answers with something of some sort. -/
def Yields {α : Type} (P : Kind → Prop) (work : StateM Hoisted α) (Good : α → Prop) : Prop :=
  ∀ h, h.Shows P → Good (work.run h).1 ∧ (work.run h).2.Shows P

theorem Yields.pure {α : Type} {Good : α → Prop} {a : α} (h : Good a) :
    Yields P (pure a) Good := fun _ hState => ⟨h, hState⟩

theorem Yields.bind {α β : Type} {work : StateM Hoisted α} {next : α → StateM Hoisted β}
    {Good : α → Prop} {Good' : β → Prop} (hWork : Yields P work Good)
    (hNext : ∀ a, Good a → Yields P (next a) Good') : Yields P (work >>= next) Good' := by
  intro h hState
  obtain ⟨hAnswer, hAfter⟩ := hWork h hState
  exact hNext _ hAnswer _ hAfter

theorem intern_yields {body : Rule} (hBody : body.Shows P) :
    Yields P (Hoisted.intern body) fun _ => True := by
  intro h hState
  refine ⟨trivial, ?_⟩
  have hRun : ((Hoisted.intern body).run h).2 =
      match h.rules.find? (fun e => e.2 == body) with
      | some _ => h
      | none =>
        { h with
          count := h.count + 1
          rules := h.rules.push (h.owner ++ "_repeat" ++ toString (h.count + 1), body) } := by
    rw [Hoisted.intern]
    simp only [StateT.run_bind, StateT.run_get, pure_bind]
    cases h.rules.find? (fun e => e.2 == body) <;> rfl
  rw [hRun]
  split
  · exact hState
  · intro e hMem
    rcases Array.mem_push.mp hMem with hOld | rfl
    · exact hState e hOld
    · exact hBody

mutual

theorem hoist_shows : ∀ r : Rule, r.Shows P → Yields P r.hoist (·.Shows P)
  | .token _, h => .pure h
  | .lexeme _, h => .pure h
  | .ref _, h => .pure h
  | .empty, h => .pure h
  | .seq parts, h => (hoistAll_shows parts h).bind fun _ hParts => .pure hParts
  | .oneOf parts, h => (hoistAll_shows parts h).bind fun _ hParts => .pure hParts
  | .many1 body, h => (hoist_shows body h).bind fun _ hBody =>
      -- the repeated body is kept by the auxiliary rule, the reference shows nothing
      (intern_yields hBody).bind fun _ _ => .pure (by simp [Rule.Shows, Rule.kinds])
  | .prec _ _ body, h => (hoist_shows body h).bind fun _ hBody => .pure hBody
  | .dynamic _ body, h => (hoist_shows body h).bind fun _ hBody => .pure hBody
  | .field _ body, h => (hoist_shows body h).bind fun _ hBody => .pure hBody
  | .relabel _ body, h => (hoist_shows body (shows_relabel_iff.mp h).2).bind fun _ hBody =>
      .pure (shows_relabel_iff.mpr ⟨(shows_relabel_iff.mp h).1, hBody⟩)

theorem hoistAll_shows : ∀ rs : List Rule, Rule.ShowsAll P rs →
    Yields P (Rule.hoistAll rs) (Rule.ShowsAll P)
  | [], h => .pure h
  | r :: rest, h => (hoist_shows r (showsAll_cons_iff.mp h).1).bind fun _ hFirst =>
      (hoistAll_shows rest (showsAll_cons_iff.mp h).2).bind fun _ hRest =>
        .pure (showsAll_cons_iff.mpr ⟨hFirst, hRest⟩)

end

-- ---------------------------------------------------------------------------
-- Alternatives
-- ---------------------------------------------------------------------------

mutual

theorem readings_shows : ∀ r : Rule, r.Shows P → ∀ q ∈ r.readings, q.Shows P
  | .token _, h => by simpa [Rule.readings] using h
  | .lexeme _, h => by simpa [Rule.readings] using h
  | .ref _, h => by simpa [Rule.readings] using h
  | .empty, h => by simpa [Rule.readings] using h
  | .seq parts, h => by
    rw [Rule.readings, List.forall_mem_map]
    exact readingsSeq_shows parts h
  | .oneOf parts, h => readingsAll_shows parts h
  | .many1 body, h => by
    rw [Rule.readings, List.forall_mem_map]
    exact readings_shows body h
  | .prec _ _ body, h => by
    rw [Rule.readings, List.forall_mem_map]
    exact readings_shows body h
  | .dynamic _ body, h => by
    rw [Rule.readings, List.forall_mem_map]
    exact readings_shows body h
  | .field _ body, h => by
    rw [Rule.readings, List.forall_mem_map]
    exact readings_shows body h
  | .relabel k body, h => by
    obtain ⟨hKind, hBody⟩ := shows_relabel_iff.mp h
    rw [Rule.readings, List.forall_mem_map]
    exact fun q hMem => shows_relabel_iff.mpr ⟨hKind, readings_shows body hBody q hMem⟩

theorem readingsSeq_shows : ∀ rs : List Rule, Rule.ShowsAll P rs →
    ∀ qs ∈ Rule.readingsSeq rs, Rule.ShowsAll P qs
  | [], h => by simpa [Rule.readingsSeq] using h
  | r :: rest, h => by
    obtain ⟨hFirst, hRest⟩ := showsAll_cons_iff.mp h
    intro qs hMem
    rw [Rule.readingsSeq, List.mem_flatMap] at hMem
    obtain ⟨q, hReading, hMem⟩ := hMem
    obtain ⟨qs', hOthers, rfl⟩ := List.mem_map.mp hMem
    exact showsAll_cons_iff.mpr
      ⟨readings_shows r hFirst q hReading, readingsSeq_shows rest hRest qs' hOthers⟩

theorem readingsAll_shows : ∀ rs : List Rule, Rule.ShowsAll P rs →
    ∀ q ∈ Rule.readingsAll rs, q.Shows P
  | [], _ => by simp [Rule.readingsAll]
  | r :: rest, h => by
    obtain ⟨hFirst, hRest⟩ := showsAll_cons_iff.mp h
    rw [Rule.readingsAll, List.forall_mem_append]
    exact ⟨readings_shows r hFirst, readingsAll_shows rest hRest⟩

end

-- ---------------------------------------------------------------------------
-- Flat productions
-- ---------------------------------------------------------------------------

/-- All kinds that the steps of a production have are of some sort. -/
def StepsShow {σ : Type} (P : Kind → Prop) (steps : List (Step σ)) : Prop :=
  ∀ s ∈ steps, ∀ k, s.kind = some k → P k

theorem stepsShow_append_iff {σ : Type} {steps steps' : List (Step σ)} :
    StepsShow P (steps ++ steps') ↔ StepsShow P steps ∧ StepsShow P steps' :=
  List.forall_mem_append

/-- Steps show what they did when their kinds are left alone. -/
theorem stepsShow_map {σ τ : Type} {steps : List (Step σ)} (f : Step σ → Step τ)
    (hKind : ∀ s k, s ∈ steps → (f s).kind = some k → P k) : StepsShow P (steps.map f) := by
  rw [StepsShow, List.forall_mem_map]
  exact fun s hMem k hShown => hKind s k hMem hShown

theorem stepsShow_modifyLast {σ : Type} {f : Step σ → Step σ} (hKind : ∀ s, (f s).kind = s.kind)
    {steps : List (Step σ)} (h : StepsShow P steps) : StepsShow P (modifyLast f steps) := by
  induction steps with
  | nil => exact h
  | cons s rest ih =>
    obtain ⟨hFirst, hRest⟩ := List.forall_mem_cons.mp h
    cases rest with
    | nil =>
      intro s' hMem k hShown
      obtain rfl : s' = f s := List.mem_singleton.mp hMem
      exact hFirst k (hKind s ▸ hShown)
    | cons s' rest => exact List.forall_mem_cons.mpr ⟨hFirst, ih hRest⟩

mutual

theorem flatten_shows : ∀ (r : Rule) (scope : Scope) (atEnd : Bool), r.Shows P →
    (∀ k, scope.kind = some k → P k) → StepsShow P (r.flatten scope atEnd).steps
  | .token _, _, _, _, hScope => by simpa [Rule.flatten, StepsShow] using hScope
  | .lexeme _, _, _, _, hScope => by simpa [Rule.flatten, StepsShow] using hScope
  | .ref _, _, _, _, hScope => by simpa [Rule.flatten, StepsShow] using hScope
  | .empty, _, _, _, _ => by simp [Rule.flatten, StepsShow]
  | .oneOf _, _, _, _, _ => by simp [Rule.flatten, StepsShow]
  | .many1 _, _, _, _, _ => by simp [Rule.flatten, StepsShow]
  | .seq parts, scope, atEnd, h, hScope => flattenSeq_shows parts scope atEnd h hScope
  | .prec n a body, scope, atEnd, h, hScope => by
    have hInner := flatten_shows body
      { scope with prec := n <|> scope.prec, assoc := a <|> scope.assoc } atEnd h hScope
    rw [Rule.flatten]
    split
    · exact hInner
    · refine stepsShow_modifyLast ?_ hInner
      exact fun _ => rfl
  | .dynamic _ body, scope, atEnd, h, hScope => flatten_shows body scope atEnd h hScope
  | .field n body, scope, atEnd, h, hScope =>
    flatten_shows body { scope with field := some n } atEnd h hScope
  | .relabel k body, scope, atEnd, h, _ => by
    obtain ⟨hKind, hBody⟩ := shows_relabel_iff.mp h
    exact flatten_shows body { scope with kind := some k } atEnd hBody
      fun k' hSame => Option.some.inj hSame ▸ hKind

theorem flattenSeq_shows : ∀ (rs : List Rule) (scope : Scope) (atEnd : Bool),
    Rule.ShowsAll P rs → (∀ k, scope.kind = some k → P k) →
    StepsShow P (Rule.flattenSeq scope atEnd rs).steps
  | [], _, _, _, _ => by simp [Rule.flattenSeq, StepsShow]
  | [r], scope, atEnd, h, hScope =>
    flatten_shows r scope atEnd (showsAll_cons_iff.mp h).1 hScope
  | r :: r' :: rest, scope, atEnd, h, hScope => by
    obtain ⟨hFirst, hRest⟩ := showsAll_cons_iff.mp h
    rw [Rule.flattenSeq]
    · exact stepsShow_append_iff.mpr ⟨flatten_shows r scope false hFirst hScope,
        flattenSeq_shows (r' :: rest) scope atEnd hRest hScope⟩
    · exact List.cons_ne_nil r' rest

end

/-- All productions in a list show children under kinds of some sort. -/
def BodiesShow (P : Kind → Prop) (bodies : List (Body Mention)) : Prop :=
  ∀ b ∈ bodies, StepsShow P b.steps

theorem bodies_show {r : Rule} (h : r.Shows P) : BodiesShow P r.bodies := by
  rw [Rule.bodies]
  refine List.foldlRecOn (motive := BodiesShow P) _ _ (List.forall_mem_nil _)
    fun kept hKept b hMem => ?_
  obtain ⟨q, hReading, rfl⟩ := List.mem_map.mp hMem
  have hFlat := flatten_shows q {} true (readings_shows r h q hReading) (by simp)
  split
  · exact hKept
  · exact List.forall_mem_append.mpr ⟨hKept, List.forall_mem_singleton.mpr hFlat⟩

/-- A step that stands for an inlined rule passes its own kind on, or leaves those of the rule. -/
theorem stepsShow_inlined {s : Step Mention} {steps : List (Step Mention)}
    (hOwn : ∀ k, s.kind = some k → P k) (hSteps : StepsShow P steps) :
    StepsShow P (steps.map fun t =>
      { t with kind := s.kind <|> t.kind, field := s.field <|> t.field }) := by
  refine stepsShow_map _ fun t k hMem hShown => ?_
  cases hKind : s.kind with
  | some k' =>
    obtain rfl : k' = k := by simpa [hKind] using hShown
    exact hOwn k' hKind
  | none => exact hSteps t hMem k (by simpa [hKind] using hShown)

theorem inlineBodies_shows {bodies : Std.HashMap String (List (Body Mention))}
    (hBodies : ∀ (name : String) inner, bodies[name]? = some inner → BodiesShow P inner) :
    ∀ (fuel : Nat) (before : List (Step Mention)) (b : Body Mention),
      StepsShow P before → StepsShow P b.steps →
      BodiesShow P (inlineBodies bodies fuel before b) := by
  have hReverse : ∀ {steps : List (Step Mention)}, StepsShow P steps →
      StepsShow P steps.reverse := fun h s hMem => h s (List.mem_reverse.mp hMem)
  intro fuel
  induction fuel with
  | zero =>
    intro before b hBefore hSteps
    exact List.forall_mem_singleton.mpr (stepsShow_append_iff.mpr ⟨hReverse hBefore, hSteps⟩)
  | succ fuel ih =>
    intro before b hBefore hSteps
    rw [inlineBodies]
    split
    · exact List.forall_mem_singleton.mpr (hReverse hBefore)
    next s rest hSplit =>
    rw [hSplit] at hSteps
    obtain ⟨hFirst, hRest⟩ := List.forall_mem_cons.mp hSteps
    simp only
    split
    · exact ih (s :: before) ⟨rest, b.dynamic⟩ (List.forall_mem_cons.mpr ⟨hFirst, hBefore⟩) hRest
    next inner hNamed =>
    have hInner : BodiesShow P inner := by
      split at hNamed
      · exact hBodies _ inner hNamed
      · cases hNamed
    intro b' hMem
    obtain ⟨i, hBody, hMem⟩ := List.mem_flatMap.mp hMem
    refine ih before _ hBefore (stepsShow_append_iff.mpr ⟨?_, hRest⟩) b' hMem
    refine stepsShow_modifyLast ?_ (stepsShow_inlined hFirst (hInner i hBody))
    exact fun _ => rfl

-- ---------------------------------------------------------------------------
-- Grammars
-- ---------------------------------------------------------------------------

/-- All kinds that the rules of a source show children under are of some sort. -/
def Source.Shows (P : Kind → Prop) (s : Source) : Prop := ∀ e ∈ s.rules, e.2.Shows P

/-- One more rule with its repetitions moved into auxiliary rules. -/
def hoistNext (acc : List (String × Rule) × Hoisted) (e : String × Rule) :
    List (String × Rule) × Hoisted :=
  let work := (Rule.hoist e.2).run { acc.2 with owner := e.1, count := 0 }
  (acc.1 ++ [(e.1, work.1)], work.2)

theorem hoisted_eq (s : Source) :
    s.hoisted = ((s.rules.foldl hoistNext ([], {})).1,
      (s.rules.foldl hoistNext ([], {})).2.rules.toList.map fun e =>
        (e.1, .oneOf [.seq [.ref e.1, .ref e.1], e.2])) := rfl

theorem hoisted_show {s : Source} (h : s.Shows P) :
    (∀ e ∈ s.hoisted.1, e.2.Shows P) ∧ ∀ e ∈ s.hoisted.2, e.2.Shows P := by
  obtain ⟨hRules, hState⟩ :
      (∀ e ∈ (s.rules.foldl hoistNext ([], {})).1, e.2.Shows P) ∧
        (s.rules.foldl hoistNext ([], {})).2.Shows P := by
    refine List.foldlRecOn (motive := fun acc : List (String × Rule) × Hoisted =>
      (∀ e ∈ acc.1, e.2.Shows P) ∧ acc.2.Shows P) _ _ ?_ ?_
    · exact ⟨List.forall_mem_nil _, by simp [Hoisted.Shows]⟩
    · rintro acc ⟨hRules, hState⟩ e hMem
      obtain ⟨hRule, hAfter⟩ := hoist_shows e.2 (h e hMem)
        { acc.2 with owner := e.1, count := 0 } hState
      exact ⟨List.forall_mem_append.mpr ⟨hRules, List.forall_mem_singleton.mpr hRule⟩, hAfter⟩
  rw [hoisted_eq]
  refine ⟨hRules, List.forall_mem_map.mpr fun e hMem k hKind => ?_⟩
  -- a repetition is the body or two of itself
  have hBody : k ∈ e.2.kinds := by simpa [Rule.kinds, Rule.kindsAll] using hKind
  exact hState e (Array.mem_toList_iff.mp hMem) k hBody

/-- A rule that is a lexeme stays what it is. -/
theorem lexeme_mem_hoisted {s : Source} {name lexeme : String}
    (h : (name, .lexeme lexeme) ∈ s.rules) : (name, .lexeme lexeme) ∈ s.hoisted.1 := by
  have hKept : ∀ (rules : List (String × Rule)) (acc : List (String × Rule) × Hoisted),
      (name, .lexeme lexeme) ∈ acc.1 ∨ (name, .lexeme lexeme) ∈ rules →
      (name, .lexeme lexeme) ∈ (rules.foldl hoistNext acc).1 := by
    intro rules
    induction rules with
    | nil => simp
    | cons e rest ih =>
      intro acc hMem
      refine ih _ ?_
      rw [List.mem_cons] at hMem
      rcases hMem with hOld | rfl | hLater
      · exact Or.inl (List.mem_append_left _ hOld)
      · exact Or.inl (List.mem_append_right _ (List.mem_singleton.mpr rfl))
      · exact Or.inr hLater
  rw [hoisted_eq]
  exact hKept s.rules _ (Or.inr h)

/-- The table of inlined rules. -/
theorem inlineTable_shows {rules : List (String × Rule)} (h : ∀ e ∈ rules, e.2.Shows P)
    (name : String) (inner : List (Body Mention))
    (hAt : (rules.foldl (fun m e => m.insert e.1 e.2.bodies)
      ({} : Std.HashMap String (List (Body Mention))))[name]? = some inner) :
    BodiesShow P inner := by
  revert name inner
  refine List.foldlRecOn (motive := fun m : Std.HashMap String (List (Body Mention)) =>
    ∀ name inner, m[name]? = some inner → BodiesShow P inner) _ _ (by simp) ?_
  intro m hTable e hMem name inner hAt
  rw [Std.HashMap.getElem?_insert] at hAt
  split at hAt
  · obtain rfl := Option.some.inj hAt
    exact bodies_show (h e hMem)
  · exact hTable name inner hAt

/-- **No kind is made up.** What the productions of a grammar show children under stands in its
rules as they were written. -/
theorem build_productions_show {s : Source} (h : s.Shows P) :
    ∀ p ∈ s.build.productions, StepsShow P p.steps.toList := by
  obtain ⟨hRules, hAuxiliary⟩ := hoisted_show h
  unfold Source.build
  simp only [List.foldl_push_eq_append]
  refine List.foldlRecOn (motive := fun acc : Array Production =>
    ∀ p ∈ acc, StepsShow P p.steps.toList) _ _ (by simp) ?_
  rintro acc hAcc ⟨e, i⟩ hMem p hAt
  have hRule : e.2.Shows P := by
    have hEntry := List.fst_mem_of_mem_zipIdx hMem
    rw [List.mem_append, List.mem_append, List.mem_filter, List.mem_singleton] at hEntry
    rcases hEntry with (⟨hKept, -⟩ | hRepeat) | rfl
    · exact hRules e hKept
    · exact hAuxiliary e hRepeat
    · simp [Rule.Shows, Rule.kinds]
  rw [Array.mem_append] at hAt
  rcases hAt with hOld | hNew
  · exact hAcc p hOld
  obtain ⟨b, hBody, rfl⟩ := List.mem_map.mp (List.mem_toArray.mp hNew)
  obtain ⟨b', hOwn, hInlined⟩ := List.mem_flatMap.mp hBody
  have hTable := inlineTable_shows (P := P)
    (fun e' (hMem' : e' ∈ s.hoisted.1.filter fun x => s.inlined.contains x.1) =>
      hRules e' (List.mem_filter.mp hMem').1)
  have hSteps := inlineBodies_shows hTable 64 [] b' (List.forall_mem_nil _)
    (bodies_show hRule b' hOwn) b hInlined
  rw [Array.toList_map, List.toList_toArray]
  exact stepsShow_map _ fun t k hStep hShown => hSteps t hStep k hShown

-- ---------------------------------------------------------------------------
-- Kinds of symbols
-- ---------------------------------------------------------------------------

theorem build_nonterminals_named (s : Source) : ∀ l ∈ s.build.nonterminals, l.kind.named = true := by
  unfold Source.build
  intro l hMem
  obtain ⟨n, -, rfl⟩ := Array.mem_map.mp hMem
  rfl

theorem tokenOrder_mentioned (s : Source) :
    ∀ m ∈ s.tokenOrder, m ∈ .lexeme s.word :: s.mentioned := by
  rw [Source.tokenOrder]
  refine List.foldlRecOn (motive := fun acc => ∀ m ∈ acc, m ∈ .lexeme s.word :: s.mentioned) _ _
    (List.forall_mem_nil _) fun acc hAcc m hMem => ?_
  split
  · exact hAcc
  · exact List.forall_mem_append.mpr ⟨hAcc, List.forall_mem_singleton.mpr hMem⟩

/-- A terminal shows as an unnamed node when it is the end of the text, a literal, or a lexeme that
no rule gives its name to. -/
theorem build_terminals_named (s : Source) : ∀ l ∈ s.build.terminals, l.kind.named = true ∨
    l.kind.name = "end" ∨ .token l.kind.name ∈ s.mentioned ∨
      (.lexeme l.kind.name ∈ .lexeme s.word :: s.mentioned ∧
        ∀ name, (name, .lexeme l.kind.name) ∉ s.rules) := by
  unfold Source.build
  intro l hMem
  simp only at hMem
  rw [Array.mem_append] at hMem
  rcases hMem with hEnd | hToken
  · obtain rfl : l = ⟨⟨"end", false⟩, false⟩ := by simpa using hEnd
    exact Or.inr (Or.inl rfl)
  obtain ⟨m, hMention, rfl⟩ := Array.mem_map.mp hToken
  split
  · exact Or.inl rfl
  next hNone =>
  rw [List.mem_toArray, List.mem_append] at hMention
  cases m with
  | ref n => exact Or.inl rfl
  | token t =>
    rcases hMention with hOrder | hScanned
    · have hMentioned := tokenOrder_mentioned s _ hOrder
      exact Or.inr (Or.inr (Or.inl (by simpa using hMentioned)))
    · simp at hScanned
  | lexeme n =>
    rcases hMention with hOrder | hScanned
    · refine Or.inr (Or.inr (Or.inr ⟨tokenOrder_mentioned s _ hOrder, fun name hRule => ?_⟩))
      -- a rule that is the lexeme would give the terminal its name
      have hName : (Mention.lexeme n, name) ∈ s.hoisted.1.filterMap fun e =>
          (e.2.namedToken? s.mentioned).map fun m => (m, e.1) :=
        List.mem_filterMap.mpr ⟨_, lexeme_mem_hoisted hRule, rfl⟩
      exact List.find?_eq_none.mp hNone _ hName (beq_self_eq_true n)
    · simp at hScanned

end ScriptWarden.Grammar
