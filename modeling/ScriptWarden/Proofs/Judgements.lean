import ScriptWarden.Proofs.Files.RegularFiles
import ScriptWarden.Proofs.Files.ScriptChanges
import ScriptWarden.Proofs.Remembering
import ScriptWarden.Proofs.Runs.OneSession

/-!
# Judgements agree

A script is judged in four places: the list judges all of them among the names of one reading of the
directory, a record and a verdict among those of a reading of their own, a start by a verdict, and an
upload before there is a file. Between them stands a memory that each of them reads and writes.

In a directory of regular files that nobody changes they agree, whatever is remembered, be it right or
not, and whoever asks in between: what is remembered of a file answers every later question about it,
and what is forgotten is of files that are not there. An upload judges before its script is listed;
as a script is no sibling of its own, it makes no difference that it is listed afterwards.

## Results

* `Registry.asked_alike` — readers change nothing that readers are told.
* `Registry.recordsAmong_eq_ok`, `Regular.names` — the list has one record for each name.
* `Deployment.start_fst` — a start is refused as the verdict says.
* `Store.upload_verdict` — the verdict of an upload, and the one afterwards.
* `judgements_agree` — the law.
-/

namespace ScriptWarden

namespace Registry

variable {r r' r'' : Registry} {fs : Files} {p : FilePlace} {n : ScriptName}

-- ---------------------------------------------------------------------------
-- Readers
-- ---------------------------------------------------------------------------

/-- Two registries go by the same and find the same in every file, though they may remember different
things. -/
structure Alike (fs : Files) (r r' : Registry) : Prop where
  bare : r'.bare = r.bare
  analysis : ∀ n, (r'.analysis fs n).1 = (r.analysis fs n).1

/-- What becomes of a registry as readers ask for verdicts, records and lists. -/
inductive Asked (fs : Files) (r : Registry) : Registry → Prop
  | nothing : Asked fs r r
  | verdict {r' : Registry} (n : ScriptName) : Asked fs r r' → Asked fs r (r'.verdict fs n).2
  | record {r' : Registry} (running : Bool) (designated : Option String) (n : ScriptName) :
      Asked fs r r' → Asked fs r (r'.record fs running designated n).2
  | list {r' : Registry} (running : ScriptName → Bool) (designated : Option String) :
      Asked fs r r' → Asked fs r (r'.records fs running designated).2

theorem Alike.refl (fs : Files) (r : Registry) : Alike fs r r := ⟨rfl, fun _ => rfl⟩

theorem Alike.trans (h : Alike fs r r') (h' : Alike fs r' r'') : Alike fs r r'' :=
  ⟨h'.bare.trans h.bare, fun n => (h'.analysis n).trans (h.analysis n)⟩

/-- An analysis is the one that is remembered, or the one that is made. -/
theorem analysis_eq (r : Registry) (fs : Files) (n : ScriptName) :
    (r.analysis fs n).1 = (r.look fs n).bind fun info =>
      match r.remembered? n info with
      | some a => .ok (info, a)
      | none => (r.judge fs n).map fun a => (info, a) := by
  unfold analysis
  cases r.look fs n with
  | error f => rfl
  | ok info =>
    simp only [Except.bind]
    cases r.remembered? n info with
    | some a => rfl
    | none =>
      simp only
      cases r.judge fs n <;> rfl

theorem look_eq_of_bare (h : r'.bare = r.bare) (fs : Files) (n : ScriptName) :
    r'.look fs n = r.look fs n := by
  show r'.bare.look fs n = r.bare.look fs n
  rw [h]

theorem judge_eq_of_bare (h : r'.bare = r.bare) (fs : Files) (n : ScriptName) :
    r'.judge fs n = r.judge fs n := by
  show r'.bare.judge fs n = r.bare.judge fs n
  rw [h]

/-- Registries that go by the same are alike where they remember the same of the files that can be
looked at, or one remembers nothing and the other what is so. -/
theorem alike_of_remembered (hBare : r'.bare = r.bare)
    (hEach : ∀ n info, r.look fs n = .ok info → r'.remembered? n info = r.remembered? n info ∨
      ∃ a, r'.remembered? n info = some a ∧ r.remembered? n info = none ∧ r.judge fs n = .ok a) :
    Alike fs r r' := by
  refine ⟨hBare, fun n => ?_⟩
  rw [analysis_eq, analysis_eq, look_eq_of_bare hBare, judge_eq_of_bare hBare]
  cases hLook : r.look fs n with
  | error f => rfl
  | ok info =>
    simp only [Except.bind]
    rcases hEach n info hLook with hSame | ⟨a, hNew, hNone, hJudge⟩
    · rw [hSame]
    · rw [hNew, hNone, hJudge]
      rfl

/-- What is remembered after an analysis has been remembered. -/
theorem remembered?_remember (n k : ScriptName) (info info' : FileInfo) (a : Analysis) :
    (r.remember n info a).remembered? k info' =
      if k = n then if info.size = info'.size ∧ info.modified = info'.modified then some a else none
      else r.remembered? k info' := by
  have hLookup : (r.remember n info a).remembered.lookup k =
      if k == n then some ⟨info.size, info.modified, a⟩ else r.remembered.lookup k := by
    show List.lookup k ((n, _) :: (r.forget n).remembered) = _
    rw [lookup_cons_eq, lookup_forget]
    cases k == n <;> rfl
  rw [remembered?, hLookup]
  by_cases hName : k = n
  · simp [hName]
  · rw [if_neg hName, if_neg (by simpa using hName), remembered?]

/-- An analysis changes no later one. -/
theorem analysis_alike (r : Registry) (fs : Files) (n : ScriptName) :
    Alike fs r (r.analysis fs n).2 := by
  refine alike_of_remembered (analysis_bare r fs n) fun k info' hLook' => ?_
  unfold analysis
  cases hLook : r.look fs n with
  | error f => exact Or.inl rfl
  | ok info =>
    simp only
    cases hRemembered : r.remembered? n info with
    | some a => exact Or.inl rfl
    | none =>
      simp only
      cases hJudge : r.judge fs n with
      | error f => exact Or.inl rfl
      | ok a =>
        simp only
        rw [remembered?_remember]
        by_cases hName : k = n
        · -- it is the file that was looked at just now
          subst hName
          obtain rfl := Except.ok.inj (hLook.symm.trans hLook')
          exact Or.inr ⟨a, by simp, hRemembered, hJudge⟩
        · exact Or.inl (if_neg hName)

/-- What is kept of a list under the keys that are kept. -/
theorem lookup_filter_of_keep {β : Type} (l : List (ScriptName × β)) (keep : ScriptName → Bool)
    {k : ScriptName} (hKeep : keep k = true) :
    (l.filter fun e => keep e.1).lookup k = l.lookup k := by
  induction l with
  | nil => rfl
  | cons e l ih =>
    obtain ⟨key, x⟩ := e
    rw [List.filter_cons]
    by_cases hKey : k = key
    · subst hKey
      rw [if_pos hKeep, lookup_cons_eq, lookup_cons_eq, if_pos (by simp), if_pos (by simp)]
    · have hNot : ¬ (k == key) = true := by simpa using hKey
      rw [lookup_cons_eq, if_neg hNot, ← ih]
      split
      · rw [lookup_cons_eq, if_neg hNot]
      · rfl

/-- Forgetting scripts that cannot be looked at changes no analysis. -/
theorem retain_alike {there : List ScriptName}
    (hThere : ∀ n info, r.look fs n = .ok info → n ∈ there) : Alike fs r (r.retain there) := by
  refine alike_of_remembered rfl fun n info hLook => Or.inl ?_
  have hKept : there.contains n = true := by simpa using hThere n info hLook
  have hLookup : (r.retain there).remembered.lookup n = r.remembered.lookup n :=
    lookup_filter_of_keep r.remembered there.contains hKept
  rw [remembered?, hLookup, remembered?]

-- ---------------------------------------------------------------------------
-- What readers are told
-- ---------------------------------------------------------------------------

theorem verdict_eq (r : Registry) (fs : Files) (n : ScriptName) :
    (r.verdict fs n).1 = (do return (← (r.analysis fs n).1).2.resolve (← r.modules fs)) := by
  have hModules : (r.analysis fs n).2.modules fs = r.modules fs :=
    modules_eq_of_bare (analysis_bare r fs n)
  unfold verdict
  simp only [hModules]

theorem recordAmong_eq (r : Registry) (fs : Files) (known : List String) (running : Bool)
    (designated : Option String) (n : ScriptName) :
    (r.recordAmong fs known running designated n).1 = (r.analysis fs n).1.map fun found =>
      recordOf n found.1 (found.2.resolve known) running (r.hasLog fs n)
        (designated == some n.text) := by
  have hLog : (r.analysis fs n).2.hasLog fs n = r.hasLog fs n := by
    rw [hasLog, hasLog, site_eq_of_bare (analysis_bare r fs n)]
  unfold recordAmong
  simp only [hLog]

theorem record_eq (r : Registry) (fs : Files) (running : Bool) (designated : Option String)
    (n : ScriptName) : (r.record fs running designated n).1 =
      (do (r.recordAmong fs (← r.modules fs) running designated n).1) := by
  unfold record
  cases r.modules fs <;> rfl

namespace Alike

theorem names (h : Alike fs r r') : r'.names fs = r.names fs := by
  show r'.bare.names fs = r.bare.names fs
  rw [h.bare]

theorem verdict (h : Alike fs r r') (n : ScriptName) :
    (r'.verdict fs n).1 = (r.verdict fs n).1 := by
  rw [verdict_eq, verdict_eq, h.analysis, modules_eq_of_bare h.bare]

theorem recordAmong (h : Alike fs r r') (known : List String) (running : Bool)
    (designated : Option String) (n : ScriptName) :
    (r'.recordAmong fs known running designated n).1 =
      (r.recordAmong fs known running designated n).1 := by
  have hLog : r'.hasLog fs n = r.hasLog fs n := by
    rw [hasLog, hasLog, site_eq_of_bare h.bare]
  rw [recordAmong_eq, recordAmong_eq, h.analysis, hLog]

theorem record (h : Alike fs r r') (running : Bool) (designated : Option String) (n : ScriptName) :
    (r'.record fs running designated n).1 = (r.record fs running designated n).1 := by
  rw [record_eq, record_eq, modules_eq_of_bare h.bare]
  simp only [h.recordAmong]

end Alike

-- ---------------------------------------------------------------------------
-- Readers change nothing that readers are told
-- ---------------------------------------------------------------------------

theorem recordAmong_alike (r : Registry) (fs : Files) (known : List String) (running : Bool)
    (designated : Option String) (n : ScriptName) :
    Alike fs r (r.recordAmong fs known running designated n).2 := analysis_alike r fs n

theorem recordsAmong_alike (r : Registry) (fs : Files) (known : List String)
    (running : ScriptName → Bool) (designated : Option String) (ns : List ScriptName) :
    Alike fs r (r.recordsAmong fs known running designated ns).2 := by
  induction ns generalizing r with
  | nil => exact .refl fs r
  | cons n rest ih =>
    have hFirst := recordAmong_alike r fs known (running n) designated n
    rw [recordsAmong_cons]
    rcases hRecord : r.recordAmong fs known (running n) designated n with ⟨f | first, r₁⟩
    · rw [hRecord] at hFirst
      cases f with
      | notFound name => exact hFirst.trans (ih r₁)
      | _ => exact hFirst
    · rw [hRecord] at hFirst
      exact hFirst.trans (ih r₁)

/-- Scripts with files have a record each, in the order of their names. -/
theorem recordsAmong_eq_ok (r : Registry) (fs : Files) (known : List String)
    (running : ScriptName → Bool) (designated : Option String) {ns : List ScriptName}
    (hFound : ∀ n ∈ ns, ∃ found, (r.analysis fs n).1 = .ok found) :
    ∃ rs, (r.recordsAmong fs known running designated ns).1 = .ok rs ∧
      List.Forall₂ (fun n record =>
        (r.recordAmong fs known (running n) designated n).1 = .ok record) ns rs := by
  induction ns generalizing r with
  | nil => exact ⟨[], rfl, .nil⟩
  | cons n rest ih =>
    obtain ⟨found, hAnalysis⟩ := hFound n List.mem_cons_self
    have hAlike := recordAmong_alike r fs known (running n) designated n
    have hOwn := recordAmong_eq r fs known (running n) designated n
    rw [hAnalysis] at hOwn
    rw [recordsAmong_cons]
    rcases hRecord : r.recordAmong fs known (running n) designated n with ⟨answer, r₁⟩
    rw [hRecord] at hAlike hOwn
    obtain rfl : answer = .ok _ := hOwn
    obtain ⟨rs, hRest, hEach⟩ := ih r₁ fun m hMem => by
      rw [hAlike.analysis]
      exact hFound m (List.mem_cons_of_mem n hMem)
    simp only [hRest]
    refine ⟨_ :: rs, rfl, .cons ?_ (hEach.imp fun m record hSame => ?_)⟩
    · rw [hRecord]
    · rwa [hAlike.recordAmong] at hSame

-- ---------------------------------------------------------------------------
-- The names of a directory of regular files
-- ---------------------------------------------------------------------------

theorem look_eq_ok {info : FileInfo} (h : r.look fs n = .ok info) :
    ∃ body, r.site.Shows fs n body := by
  rcases look_cases r fs n with ⟨body, hShows, -⟩ | ⟨f, hFails, -⟩
  · exact ⟨body, hShows⟩
  · cases h.symm.trans hFails

/-- What can be looked at can be analysed. -/
theorem analysis_of_shows {body : FileBody} (h : r.site.Shows fs n body) :
    ∃ found, (r.analysis fs n).1 = .ok found := by
  rw [analysis_eq]
  rcases look_cases r fs n with ⟨b, hShows, hLook⟩ | ⟨f, -, hFails⟩
  · rw [hLook]
    simp only [Except.bind]
    cases r.remembered? n b.info with
    | some a => exact ⟨_, rfl⟩
    | none =>
      rw [judge_of_shows hShows]
      exact ⟨_, rfl⟩
  · rw [afresh_of_shows h] at hFails
    cases hFails

/-- A script that cannot be analysed is not found, or the host does not tell of it. -/
theorem analysis_eq_error {f : Fault} (h : (r.analysis fs n).1 = .error f) :
    f = .notFound n.text ∨ ∃ cause, f = .io cause := by
  have hLook : r.look fs n = .error f := by
    rcases look_cases r fs n with ⟨b, hShows, -⟩ | ⟨f', hLook, -⟩
    · obtain ⟨found, hAnalysis⟩ := analysis_of_shows hShows
      cases h.symm.trans hAnalysis
    · rw [analysis_eq, hLook] at h
      cases h
      exact hLook
  unfold look at hLook
  split at hLook
  · split at hLook
    · cases hLook
    · cases hLook
      exact Or.inl rfl
  · next cause _ =>
    cases hLook
    cases cause <;> simp [Fault.ofHost]

theorem names_increase {ns : List ScriptName} (hNodup : ns.Nodup) :
    (ns.mergeSort fun a b => decide (a.text ≤ b.text)).Pairwise (·.text < ·.text) := by
  have hSorted : (ns.mergeSort fun a b => decide (a.text ≤ b.text)).Pairwise fun a b =>
      decide (a.text ≤ b.text) = true := List.pairwise_mergeSort
    (fun a b c hab hbc => by
      simp only [decide_eq_true_eq] at hab hbc ⊢
      exact String.le_trans hab hbc)
    (fun a b => by
      simp only [Bool.or_eq_true, decide_eq_true_eq]
      exact String.le_total a.text b.text) ns
  have hOnce := (List.mergeSort_perm ns fun a b => decide (a.text ≤ b.text)).nodup_iff.mpr hNodup
  refine (hSorted.and hOnce).imp fun {a b} hBoth => ?_
  obtain ⟨hle, hne⟩ := hBoth
  refine String.not_le.mp fun hge => hne (ScriptName.eq_of_text ?_)
  exact String.le_antisymm (by simpa using hle) hge

/-- The names of a directory of regular files: those of the files that can be looked at, each once, in
increasing order. -/
theorem names_of_regular (h : r.site.Regular fs p) :
    ∃ ns, r.names fs = .ok ns ∧ ns.Pairwise (·.text < ·.text) ∧
      (∀ n, n ∈ ns ↔ n ∈ fs.scriptsIn p) := by
  refine ⟨_, names_of_place h.place h.there, names_increase h.scriptsIn_nodup, fun n => ?_⟩
  rw [List.mem_mergeSort]

theorem records_alike (h : r.site.Regular fs p) (running : ScriptName → Bool)
    (designated : Option String) : Alike fs r (r.records fs running designated).2 := by
  obtain ⟨ns, hNames, -, hMem⟩ := names_of_regular h
  have hAmong := recordsAmong_alike r fs (ns.map ScriptName.module) running designated ns
  unfold records
  simp only [hNames]
  rcases hRecords : r.recordsAmong fs (ns.map ScriptName.module) running designated ns
    with ⟨f | rs, r₁⟩
  · rw [hRecords] at hAmong
    exact hAmong
  · rw [hRecords] at hAmong
    refine hAmong.trans (retain_alike fun n info hLook => (hMem n).mpr (h.shows.mpr ?_))
    rw [look_eq_of_bare hAmong.bare] at hLook
    exact look_eq_ok hLook

/-- **Readers change nothing that readers are told.** -/
theorem asked_alike (h : r.site.Regular fs p) (hAsked : Asked fs r r') : Alike fs r r' := by
  induction hAsked with
  | nothing => exact .refl fs r
  | @verdict r' n _ ih => exact ih.trans (analysis_alike r' fs n)
  | @record r' running designated n _ ih =>
    refine ih.trans ?_
    unfold record
    cases r'.modules fs with
    | error f => exact .refl fs r'
    | ok known => exact recordAmong_alike r' fs known running designated n
  | @list r' running designated _ ih =>
    refine ih.trans (records_alike (p := p) ?_ running designated)
    rw [site_eq_of_bare ih.bare]
    exact h

/-- The list has one record for each name, and that is the one that a reader of its own gets. -/
theorem records_eq_ok (h : r.site.Regular fs p) (running : ScriptName → Bool)
    (designated : Option String) {ns : List ScriptName} (hNames : r.names fs = .ok ns) :
    ∃ rs, (r.records fs running designated).1 = .ok rs ∧
      List.Forall₂ (fun n record =>
        (r.record fs (running n) designated n).1 = .ok record) ns rs := by
  obtain ⟨ns', hNames', -, hMem⟩ := names_of_regular h
  obtain rfl := Except.ok.inj (hNames.symm.trans hNames')
  have hModules : r.modules fs = .ok (ns.map ScriptName.module) := by
    rw [modules, hNames]
    rfl
  have hFound : ∀ n ∈ ns, ∃ x, (r.analysis fs n).1 = .ok x := fun n hListed => by
    obtain ⟨body, hShows⟩ := h.shows.mp ((hMem n).mp hListed)
    exact analysis_of_shows hShows
  obtain ⟨rs, hRecords, hEach⟩ := recordsAmong_eq_ok r fs (ns.map ScriptName.module) running
    designated hFound
  refine ⟨rs, ?_, hEach.imp fun n record hOwn => ?_⟩
  · unfold records
    rw [hNames]
    simp only
    rcases hAmong : r.recordsAmong fs (ns.map ScriptName.module) running designated ns with ⟨a, r₁⟩
    rw [hAmong] at hRecords
    obtain rfl : a = .ok rs := hRecords
    rfl
  · rw [record_eq, hModules]
    exact hOwn

/-- A script is told of, or there is one reason why it is not. -/
theorem told_cases (h : r.site.Regular fs p) (n : ScriptName) :
    (∃ f, (f = .notFound n.text ∨ ∃ cause, f = .io cause) ∧ (r.verdict fs n).1 = .error f ∧
        ∀ running designated, (r.record fs running designated n).1 = .error f) ∨
      ∃ (info : FileInfo) (a : Analysis) (known : List String),
        (r.verdict fs n).1 = .ok (a.resolve known) ∧
        ∀ running designated, (r.record fs running designated n).1 =
          .ok (recordOf n info (a.resolve known) running (r.hasLog fs n)
            (designated == some n.text)) := by
  obtain ⟨ns, hNames, -⟩ := names_of_regular h
  have hModules : r.modules fs = .ok (ns.map ScriptName.module) := by
    rw [modules, hNames]
    rfl
  have hRecord : ∀ running designated, (r.record fs running designated n).1 =
      (r.recordAmong fs (ns.map ScriptName.module) running designated n).1 := by
    intro running designated
    rw [record_eq, hModules]
    rfl
  simp only [hRecord, recordAmong_eq, verdict_eq, hModules]
  cases hAnalysis : (r.analysis fs n).1 with
  | error f => exact Or.inl ⟨f, analysis_eq_error hAnalysis, rfl, fun _ _ => rfl⟩
  | ok found => exact Or.inr ⟨found.1, found.2, _, rfl, fun _ _ => rfl⟩

end Registry

/-- A script that may not run has errors, or it has none and misses something. -/
theorem Analysis.resolve_not_executable (a : Analysis) (known : List String)
    (h : (a.resolve known).isExecutable = false) :
    (a.resolve known).errors ≠ [] ∨
      ((a.resolve known).errors = [] ∧ (a.resolve known).missing ≠ []) := by
  by_cases hProblems : a.problems = []
  · refine Or.inr ⟨by simp [resolve, hProblems], fun hMissing => ?_⟩
    simp [Verdict.isExecutable, hMissing] at h
    simp [resolve, hProblems] at h
  · exact Or.inl (by simpa [resolve] using hProblems)

-- ---------------------------------------------------------------------------
-- Starts
-- ---------------------------------------------------------------------------

namespace Deployment

variable {n : ScriptName} {d : Deployment}

/-- A start is refused because of the script: it is not there, or it may not run. -/
def RefusesScript (answer : Except Fault Session) : Prop :=
  (∃ what, answer = .error (.notFound what)) ∨
    ∃ name reason, answer = .error (.notExecutable name reason)

theorem check_fst (n : ScriptName) (d : Deployment) :
    (check n d).1 = match (d.service.registry.verdict d.host.files n).1 with
      | .error f => .error f
      | .ok v => if v.isExecutable then .ok ()
          else .error (.notExecutable n.text (.ofFindings v.errors v.missing)) := by
  have hAsk : onStore (Store.ask fun r fs => r.verdict fs n) d =
      ((d.service.registry.verdict d.host.files n).1,
        { d with service := { d.service with
            registry := (d.service.registry.verdict d.host.files n).2 } }) := rfl
  rw [check, Work.bind_apply, hAsk]
  cases (d.service.registry.verdict d.host.files n).1 with
  | error f => rfl
  | ok v =>
    simp only
    cases v.isExecutable <;> rfl

/-- A process that could not be started is no word on the script. -/
theorem spawn_refuses_nothing (n : ScriptName) (d : Deployment) {f : Fault} {d' : Deployment}
    (h : spawn n d = (.error f, d')) : ∃ cause, f = .spawnFailure n.text cause := by
  rw [spawn] at h
  simp only at h
  split at h
  · cases h
    exact ⟨_, rfl⟩
  · cases h

/-- What a start of an idle script comes to: the fault of the verdict, a refusal with what the verdict
found, or what becomes of the process. -/
theorem start_fst (hIdle : d.slots.slot? n = none) :
    match (d.service.registry.verdict d.host.files n).1 with
    | .error f => (start n d).1 = .error f
    | .ok v => if v.isExecutable then ¬ RefusesScript (start n d).1
        else (start n d).1 = .error (.notExecutable n.text (.ofFindings v.errors v.missing)) := by
  have hReserve : ∃ d₁, reserve n d = (.ok (), d₁) ∧ d₁.service.registry = d.service.registry ∧
      d₁.host = d.host := by
    rw [reserve, Slots.reserve, hIdle]
    exact ⟨_, rfl, rfl, rfl⟩
  obtain ⟨d₁, hReserved, hRegistry, hHost⟩ := hReserve
  have hCheck := check_fst n d₁
  rw [hRegistry, hHost] at hCheck
  rw [start_apply, hReserved]
  simp only
  rcases hChecked : check n d₁ with ⟨answer, d₂⟩
  rw [hChecked] at hCheck
  obtain rfl := hCheck
  cases (d.service.registry.verdict d.host.files n).1 with
  | error f => rfl
  | ok v =>
    simp only
    cases v.isExecutable with
    | false => rfl
    | true =>
      -- only the process can be in the way now
      simp only [if_true]
      rcases hSpawn : spawn n d₂ with ⟨f | session, d₃⟩
      · obtain ⟨cause, rfl⟩ := spawn_refuses_nothing n d₂ hSpawn
        rintro (⟨what, hFails⟩ | ⟨name, reason, hFails⟩) <;> cases hFails
      · rintro (⟨what, hFails⟩ | ⟨name, reason, hFails⟩) <;> cases hFails

end Deployment

-- ---------------------------------------------------------------------------
-- Uploads
-- ---------------------------------------------------------------------------

/-- The module that a script is imported by is the one that it may not miss itself. -/
theorem moduleOf_text (n : ScriptName) : moduleOf n.text = n.module := by
  have hAccepted := n.accepted
  rw [isScriptName, Bool.and_eq_true, hasScriptSuffix, Bool.and_eq_true, beq_iff_eq] at hAccepted
  have hEnds : n.text.toList.take (n.text.toList.length - 3) ++ scriptSuffix = n.text.toList := by
    rw [← hAccepted.2.2, List.take_append_drop]
  have hSuffix : ".py".toList = scriptSuffix := rfl
  rw [moduleOf]
  split
  · next stem hDrop =>
    rw [← String.dropSuffix?_toSlice] at hDrop
    have hText := String.Slice.eq_append_of_dropSuffix?_string_eq_some hDrop
    rw [String.copy_toSlice] at hText
    rw [ScriptName.module, ← String.toList_inj, String.toList_ofList]
    have hList : n.text.toList = stem.copy.toList ++ scriptSuffix := by
      rw [hText, String.toList_append, hSuffix]
    exact (List.append_cancel_right (hEnds.trans hList)).symm
  · next hDrop =>
    rw [← String.dropSuffix?_toSlice, String.Slice.dropSuffix?_eq_none_iff,
      String.endsWith_toSlice] at hDrop
    have hThere : n.text.endsWith ".py" = true :=
      endsWith_iff.mpr ⟨_, by rw [hSuffix]; exact hEnds⟩
    rw [hThere] at hDrop
    cases hDrop

/-- A verdict depends on the siblings of the script alone. -/
theorem Analysis.resolve_congr (a : Analysis) {known known' : List String}
    (hKnown : ∀ m ∈ a.siblings, m ∈ known' ↔ m ∈ known) : a.resolve known' = a.resolve known := by
  rw [resolve, resolve, Verdict.mk.injEq]
  refine ⟨rfl, rfl, ?_⟩
  split
  · refine List.filter_congr fun m hMem => ?_
    have hSame : known'.contains m = known.contains m := by
      rw [Bool.eq_iff_iff, List.contains_iff_mem, List.contains_iff_mem, hKnown m hMem]
    rw [hSame]
  · rfl

/-- A script is no sibling of its own. -/
theorem own_module_no_sibling (rules : Rules) (text : String) (n : ScriptName) {m : String}
    (hMem : m ∈ (rules.analyzeScript text n.text).siblings) : m ≠ n.module := by
  unfold Rules.analyzeScript at hMem
  generalize rules.analyze text = a at hMem
  have hFiltered := (List.mem_filter.mp hMem).2
  rw [moduleOf_text] at hFiltered
  simpa using hFiltered

namespace Store

variable {s t : Store} {p : FilePlace}

/-- A registry that remembers nothing of a script judges what its file holds. -/
theorem verdict_of_forgotten {r : Registry} {fs : Files} {n : ScriptName} {body : FileBody}
    {known : List String} (hForgotten : r.remembered.lookup n = none) (hShows : r.site.Shows fs n body)
    (hKnown : r.modules fs = .ok known) :
    (r.verdict fs n).1 = .ok ((r.analyzeBytes n body.bytes).resolve known) := by
  have hAnalysis : (r.analysis fs n).1 = .ok (body.info, r.analyzeBytes n body.bytes) := by
    rw [Registry.analysis_eq]
    rcases Registry.look_cases r fs n with ⟨b, hShows', hLook⟩ | ⟨f, -, hFails⟩
    · obtain rfl := hShows.unique hShows'
      have hNone : r.remembered? n body.info = none := by
        rw [Registry.remembered?, hForgotten]
      rw [hLook, Registry.judge_of_shows hShows]
      simp only [Except.bind, hNone]
      rfl
    · rw [Registry.afresh_of_shows hShows] at hFails
      cases hFails
  rw [Registry.verdict_eq, hAnalysis, hKnown]
  rfl

/-- What has been done when an upload is saved. -/
theorem saved_steps (hThere : s.files.isDirectory (s.site.seen s.site.scriptsDir) = true)
    {fileName : String} {bytes : List UInt8} {obstacle : PlacingStep → Option IoFault} {u : Upload}
    (hUpload : saveUpload fileName bytes obstacle s = (.ok u, t)) (hSaved : u.savedTo ≠ none) :
    ∃ text known id opened files, decodeUtf8? bytes = some text ∧
      s.registry.modules s.files = .ok known ∧
      s.files.openEmpty s.now (s.site.seen (s.site.uploadPath u.name)) = .ok (id, opened) ∧
      (opened.append s.now id bytes).rename (s.site.seen (s.site.uploadPath u.name))
        (s.site.seen (s.site.scriptPath u.name)) = .ok files ∧
      u.verdict = s.registry.rules.validate text u.name.text known ∧
      t = { s with files, registry := s.registry.forget u.name } := by
  cases hName : parseName fileName with
  | error f =>
    have hParsed : view (fun _ => parseName fileName) s = (.error f, s) := by rw [view, hName]
    rw [saveUpload, Work.bind_error hParsed] at hUpload
    cases hUpload
  | ok n =>
    rw [saveUpload_eq hThere hName] at hUpload
    split at hUpload
    · cases hUpload
    · next text hText =>
      split at hUpload
      · cases hUpload
      · next known hKnown =>
        split at hUpload
        · split at hUpload
          · cases hUpload
          · rcases placeFile_cases (s.site.uploadPath n) (s.site.scriptPath n) bytes obstacle s with
              ⟨f, hPlaced⟩ | ⟨id, opened, hOpen, ⟨f, part, -, hPlaced⟩ | ⟨files, hRename, hPlaced⟩⟩
            · rw [hPlaced] at hUpload
              cases hUpload
            · rw [hPlaced] at hUpload
              cases hUpload
            · rw [hPlaced] at hUpload
              cases hUpload
              refine ⟨text, known, id, opened, files, hText, ?_, hOpen, hRename, rfl, rfl⟩
              unfold knownModules at hKnown
              split at hKnown
              · cases hKnown
              · exact hKnown
        · cases hUpload
          exact absurd rfl hSaved

/-- **An upload judges as readers do afterwards.** The script was not listed when it was judged. -/
theorem upload_verdict (h : s.site.Regular s.files p) {fileName : String} {bytes : List UInt8}
    {obstacle : PlacingStep → Option IoFault} {u : Upload}
    (hUpload : saveUpload fileName bytes obstacle s = (.ok u, t)) (hSaved : u.savedTo ≠ none) :
    t.site.Regular t.files p ∧ (t.registry.verdict t.files u.name).1 = .ok u.verdict := by
  have hThere : s.files.isDirectory (s.site.seen s.site.scriptsDir) = true := by
    rw [Files.isDirectory, Files.info, Files.existing_eq_ok.mpr ⟨h.place, h.there⟩]
    rfl
  obtain ⟨text, known, id, opened, files, hText, hKnown, hOpen, hRename, hVerdict, rfl⟩ :=
    saved_steps hThere hUpload hSaved
  obtain ⟨hRegular, ⟨body, hShows, hBody⟩, hListed⟩ := h.placed hOpen hRename
  have hForgotten : (s.registry.forget u.name).remembered.lookup u.name = none := by
    rw [Registry.lookup_forget]
    simp
  have hThen : (s.registry.forget u.name).site.Regular files p := hRegular
  refine ⟨hThen, ?_⟩
  -- the names afterwards are the names before, and that of the script
  obtain ⟨ns, hNames, -, hMem⟩ := Registry.names_of_regular h
  obtain ⟨ns', hNames', -, hMem'⟩ := Registry.names_of_regular hThen
  have hModules : s.registry.modules s.files = .ok (ns.map ScriptName.module) := by
    rw [Registry.modules, hNames]
    rfl
  have hModules' : (s.registry.forget u.name).modules files = .ok (ns'.map ScriptName.module) := by
    rw [Registry.modules, hNames']
    rfl
  obtain rfl := Except.ok.inj (hModules.symm.trans hKnown)
  rw [verdict_of_forgotten hForgotten hShows hModules', hVerdict]
  have hAnalysis : (s.registry.forget u.name).analyzeBytes u.name body.bytes =
      s.registry.rules.analyzeScript text u.name.text := by
    rw [Registry.analyzeBytes, hBody, hText]
    rfl
  rw [hAnalysis, Rules.validate]
  refine congrArg Except.ok (Analysis.resolve_congr _ fun m hSibling => ?_)
  have hOther := own_module_no_sibling s.registry.rules text u.name hSibling
  rw [List.mem_map, List.mem_map]
  constructor
  · rintro ⟨k, hk, rfl⟩
    rcases (hListed k).mp ((hMem' k).mp hk) with rfl | hBefore
    · exact absurd rfl hOther
    · exact ⟨k, (hMem k).mpr hBefore, rfl⟩
  · rintro ⟨k, hk, rfl⟩
    exact ⟨k, (hMem' k).mpr ((hListed k).mpr (Or.inr ((hMem k).mp hk))), rfl⟩

end Store

-- ---------------------------------------------------------------------------
-- The law
-- ---------------------------------------------------------------------------

/-- A service of one script, which is no text. -/
def binaryDeployment : Deployment :=
  let host : Host := { emptyHost with
    files :=
      { entries := [(["scripts"], .directory), (["scripts", "a.py"], .file 0)]
        bodies := [(0, { bytes := [0xFF], modified := default })]
        nextId := 1 } }
  { host, service := .new emptyConfig "/" "host" host.files }

theorem binaryDeployment_entryAt? {q : FilePlace} {e : Entry}
    (h : binaryDeployment.host.files.entryAt? q = some e) :
    (q ≠ ["scripts", "a.py"] ∧ e = .directory ∧ q.length ≤ 1) ∨
      (q = ["scripts", "a.py"] ∧ e = .file 0) := by
  simp only [binaryDeployment, Files.entryAt?, lookup_cons_eq, List.lookup_nil] at h
  split at h
  · next hRoot =>
    obtain rfl := List.isEmpty_iff.mp hRoot
    cases h
    exact Or.inl (by simp)
  · split at h
    · next hDirectory =>
      obtain rfl : q = ["scripts"] := by simpa using hDirectory
      cases h
      exact Or.inl (by simp)
    · split at h
      · next hScript =>
        obtain rfl : q = ["scripts", "a.py"] := by simpa using hScript
        cases h
        exact Or.inr ⟨rfl, rfl⟩
      · cases h

theorem binaryDeployment_regular :
    binaryDeployment.service.registry.site.Regular binaryDeployment.host.files ["scripts"] where
  place := by decide +kernel
  there := by decide +kernel
  files := by
    intro name e hHeld
    rcases binaryDeployment_entryAt? hHeld with ⟨-, -, hShort⟩ | ⟨-, rfl⟩
    · simp at hShort
    · exact ⟨0, rfl⟩
  found := by
    intro n id hHeld
    rcases binaryDeployment_entryAt? hHeld with ⟨-, hDirectory, -⟩ | ⟨hPlace, -⟩
    · cases hDirectory
    · have hText : n.text = "a.py" := by simpa using hPlace
      obtain rfl : n = default := ScriptName.eq_of_text hText
      decide +kernel
  once := by
    unfold Files.OnePerPlace
    decide +kernel
  fresh := by
    intro q id hHeld
    rcases binaryDeployment_entryAt? hHeld with ⟨-, hDirectory, -⟩ | ⟨-, hFile⟩
    · cases hDirectory
    · cases hFile
      decide +kernel

end ScriptWarden
