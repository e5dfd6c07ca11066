import ScriptWarden.Proofs.Files.ScriptFiles
import ScriptWarden.Proofs.Lookup
import ScriptWarden.Proofs.Rules

/-!
# What a registry remembers

A registry keeps the analysis of a file under the name of the script, together with the size and the
time that the file had, and takes it for that of the file as long as size and time are the same. It
is right to do so as long as what it remembers is *faithful*: whatever it remembers of a script with
the size and the time of the script's file is the analysis of what that file holds.

A faithful registry answers as one that remembers nothing, and stays faithful by answering. What it
remembers is always of a file that the script once had; so a file with a size and a time that no
earlier one had is read afresh.

## Results

* `Faithful.analysis_fst`, `Faithful.analysis_snd` — an analysis, and what is remembered after it.
* `Faithful.verdict`, `Faithful.record`, `Faithful.records` — what readers are told.
* `Faithful.change` — which changes of files a faithful registry takes.
-/

namespace ScriptWarden

-- ---------------------------------------------------------------------------
-- Stamps
-- ---------------------------------------------------------------------------

/-- The size and the time of a file. -/
def FileBody.stamp (b : FileBody) : Nat × Timestamp := (b.bytes.length, b.modified)

/-- What is known of a file without opening it. -/
def FileBody.info (b : FileBody) : FileInfo :=
  { isFile := true, isDirectory := false, size := b.bytes.length, modified := b.modified }

/-- The size and the time of the file that an analysis was made from. -/
def Remembered.stamp (m : Remembered) : Nat × Timestamp := (m.size, m.modified)

namespace Registry

variable {r r' : Registry} {fs fs' : Files} {past : List Files} {n : ScriptName}

-- ---------------------------------------------------------------------------
-- Without a memory
-- ---------------------------------------------------------------------------

/-- The state and the analysis of a script's file, as they are now. What is no file is not found. -/
def afresh (r : Registry) (fs : Files) (n : ScriptName) : Except Fault (FileInfo × Analysis) :=
  match fs.existing (r.site.seen (r.site.scriptPath n)) with
  | .ok (_, .file id) => .ok ((fs.body id).info, r.analyzeBytes n (fs.body id).bytes)
  | .ok _ => .error (.notFound n.text)
  | .error f => .error (Fault.ofHost n.text f)

/-- The record of a script among known modules, as it is now. -/
def recordAfresh (r : Registry) (fs : Files) (known : List String) (running : Bool)
    (designated : Option String) (n : ScriptName) : Except Fault ScriptRecord :=
  (r.afresh fs n).map fun found =>
    recordOf n found.1 (found.2.resolve known) running (r.hasLog fs n) (designated == some n.text)

/-- What is found, without what is not found; any other fault is the answer. -/
def gather {α : Type} : List (Except Fault α) → Except Fault (List α)
  | [] => .ok []
  | .ok a :: rest => (gather rest).map (a :: ·)
  | .error (.notFound _) :: rest => gather rest
  | .error f :: _ => .error f

theorem afresh_of_shows {b : FileBody} (h : r.site.Shows fs n b) :
    r.afresh fs n = .ok (b.info, r.analyzeBytes n b.bytes) := by
  obtain ⟨q, id, hExisting, rfl⟩ := h
  rw [afresh, hExisting]

theorem modules_eq_of_bare (h : r'.bare = r.bare) : r'.modules fs = r.modules fs := by
  show r'.bare.modules fs = r.bare.modules fs
  rw [h]

theorem recordAfresh_eq_of_bare (h : r'.bare = r.bare) :
    r'.recordAfresh fs = r.recordAfresh fs := by
  show r'.bare.recordAfresh fs = r.bare.recordAfresh fs
  rw [h]

-- ---------------------------------------------------------------------------
-- Looking
-- ---------------------------------------------------------------------------

/-- A look finds the file of a script, or fails as every reading of it would. -/
theorem look_cases (r : Registry) (fs : Files) (n : ScriptName) :
    (∃ b, r.site.Shows fs n b ∧ r.look fs n = .ok b.info) ∨
      ∃ f, r.look fs n = .error f ∧ r.afresh fs n = .error f := by
  unfold look Files.info afresh
  cases hExisting : fs.existing (r.site.seen (r.site.scriptPath n)) with
  | error f => exact Or.inr ⟨Fault.ofHost n.text f, rfl, rfl⟩
  | ok found =>
    obtain ⟨q, e⟩ := found
    cases e with
    | file id => exact Or.inl ⟨fs.body id, ⟨q, id, hExisting, rfl⟩, rfl⟩
    | directory => exact Or.inr ⟨.notFound n.text, rfl, rfl⟩
    | link t => exact Or.inr ⟨.notFound n.text, rfl, rfl⟩

/-- Reading the file of a script and judging it. -/
theorem judge_of_shows {b : FileBody} (h : r.site.Shows fs n b) :
    r.judge fs n = .ok (r.analyzeBytes n b.bytes) := by
  obtain ⟨q, id, hExisting, rfl⟩ := h
  have hRead : fs.read (r.site.seen (r.site.scriptPath n)) = .ok (fs.body id).bytes := by
    rw [Files.read, hExisting]
    rfl
  rw [judge, bytes, hRead]
  rfl

-- ---------------------------------------------------------------------------
-- Faithful registries
-- ---------------------------------------------------------------------------

/-- What a registry remembers is right for the files that there are, and tells of files that there
have been. -/
structure Faithful (past : List Files) (fs : Files) (r : Registry) : Prop where
  exact : ∀ {n : ScriptName} {m : Remembered} {b : FileBody}, r.remembered.lookup n = some m →
    r.site.Shows fs n b → m.stamp = b.stamp → m.analysis = r.analyzeBytes n b.bytes
  told : ∀ {n : ScriptName} {m : Remembered}, r.remembered.lookup n = some m →
    ∃ fs ∈ past, ∃ b, r.site.Shows fs n b ∧ m.stamp = b.stamp

/-- A registry that remembers nothing is faithful. -/
theorem faithful_of_nothing (h : r.remembered = []) : Faithful past fs r where
  exact hFound := by simp [h] at hFound
  told hFound := by simp [h] at hFound

/-- What is remembered of a file in the state that it has. -/
theorem remembered?_eq_some {info : FileInfo} {a : Analysis} :
    r.remembered? n info = some a ↔ ∃ m, r.remembered.lookup n = some m ∧
      m.stamp = (info.size, info.modified) ∧ m.analysis = a := by
  rw [remembered?]
  cases r.remembered.lookup n with
  | none => simp
  | some m => simp [Remembered.stamp, and_assoc]

/-- Forgetting keeps a registry faithful. -/
theorem Faithful.sublist (h : Faithful past fs r) (hBare : r'.bare = r.bare)
    (hLess : ∀ n m, r'.remembered.lookup n = some m → r.remembered.lookup n = some m) :
    Faithful past fs r' where
  exact hFound hShows hStamp := by
    rw [site_eq_of_bare hBare] at hShows
    rw [analyzeBytes_eq_of_bare hBare]
    exact h.exact (hLess _ _ hFound) hShows hStamp
  told hFound := by
    rw [site_eq_of_bare hBare]
    exact h.told (hLess _ _ hFound)

theorem lookup_forget (r : Registry) (n k : ScriptName) :
    (r.forget n).remembered.lookup k = if k == n then none else r.remembered.lookup k :=
  lookup_filter_ne r.remembered n k

theorem Faithful.forget (h : Faithful past fs r) (n : ScriptName) :
    Faithful past fs (r.forget n) := by
  refine h.sublist rfl fun k m hFound => ?_
  rw [lookup_forget] at hFound
  split at hFound
  · cases hFound
  · exact hFound

/-- What a list keeps of some keys it has under them. -/
theorem lookup_of_lookup_filter {β : Type} (l : List (ScriptName × β)) (keep : ScriptName → Bool)
    {k : ScriptName} {x : β} (h : (l.filter fun e => keep e.1).lookup k = some x) :
    l.lookup k = some x := by
  induction l with
  | nil => exact h
  | cons e l ih =>
    obtain ⟨key, y⟩ := e
    by_cases hKey : k = key
    · subst hKey
      cases hKept : keep k with
      | true => simpa [List.filter_cons, hKept, lookup_cons_eq] using h
      | false =>
        -- the key is kept nowhere
        obtain ⟨e', hMem, hAt⟩ : ∃ e ∈ l.filter (fun e => keep e.1), e.1 = k := by
          rw [List.filter_cons, if_neg (by simp [hKept])] at h
          obtain ⟨a, b, hSplit, -⟩ := List.lookup_eq_some_iff.mp h
          exact ⟨(k, x), by simp [hSplit], rfl⟩
        have hKeep := (List.mem_filter.mp hMem).2
        rw [hAt, hKept] at hKeep
        cases hKeep
    · rw [List.filter_cons] at h
      rw [lookup_cons_eq, if_neg (by simpa using hKey)]
      split at h
      · rw [lookup_cons_eq, if_neg (by simpa using hKey)] at h
        exact ih h
      · exact ih h

theorem Faithful.retain (h : Faithful past fs r) (there : List ScriptName) :
    Faithful past fs (r.retain there) :=
  h.sublist rfl fun _ _ hFound => lookup_of_lookup_filter r.remembered there.contains hFound

/-- Remembering the analysis of the file that there is keeps a registry faithful. -/
theorem Faithful.remember (h : Faithful past fs r) (hNow : fs ∈ past) {b : FileBody}
    (hShows : r.site.Shows fs n b) :
    Faithful past fs (r.remember n b.info (r.analyzeBytes n b.bytes)) := by
  have hLookup : ∀ k, (r.remember n b.info (r.analyzeBytes n b.bytes)).remembered.lookup k =
      if k == n then some ⟨b.bytes.length, b.modified, r.analyzeBytes n b.bytes⟩
      else r.remembered.lookup k := by
    intro k
    show List.lookup k ((n, _) :: (r.forget n).remembered) = _
    rw [lookup_cons_eq, lookup_forget]
    cases k == n <;> rfl
  constructor
  · intro k m b' hFound hShows' hStamp
    rw [hLookup] at hFound
    split at hFound
    · next hName =>
      obtain rfl : k = n := by simpa using hName
      cases hFound
      rw [hShows.unique hShows']
      rfl
    · exact h.exact hFound hShows' hStamp
  · intro k m hFound
    rw [hLookup] at hFound
    split at hFound
    · next hName =>
      obtain rfl : k = n := by simpa using hName
      cases hFound
      exact ⟨fs, hNow, b, hShows, rfl⟩
    · exact h.told hFound

-- ---------------------------------------------------------------------------
-- What readers are told
-- ---------------------------------------------------------------------------

/-- What an analysis comes to, and what it leaves behind. -/
theorem Faithful.analysis (h : Faithful past fs r) (hNow : fs ∈ past) (n : ScriptName) :
    (r.analysis fs n).1 = r.afresh fs n ∧ Faithful past fs (r.analysis fs n).2 := by
  unfold Registry.analysis
  rcases look_cases r fs n with ⟨b, hShows, hLook⟩ | ⟨f, hLook, hFails⟩
  · rw [hLook, afresh_of_shows hShows]
    simp only
    split
    · next a hFound =>
      obtain ⟨m, hLookup, hStamp, rfl⟩ := remembered?_eq_some.mp hFound
      rw [h.exact hLookup hShows hStamp]
      exact ⟨rfl, h⟩
    · rw [judge_of_shows hShows]
      exact ⟨rfl, h.remember hNow hShows⟩
  · rw [hLook, hFails]
    exact ⟨rfl, h⟩

theorem Faithful.verdict (h : Faithful past fs r) (hNow : fs ∈ past) (n : ScriptName) :
    (r.verdict fs n).1 = (do return (← r.afresh fs n).2.resolve (← r.modules fs)) ∧
      Faithful past fs (r.verdict fs n).2 := by
  obtain ⟨hAnswer, hKept⟩ := h.analysis hNow n
  have hModules : (r.analysis fs n).2.modules fs = r.modules fs :=
    modules_eq_of_bare (analysis_bare r fs n)
  refine ⟨?_, hKept⟩
  unfold Registry.verdict
  simp only [hAnswer, hModules]

theorem Faithful.recordAmong (h : Faithful past fs r) (hNow : fs ∈ past) (known : List String)
    (running : Bool) (designated : Option String) (n : ScriptName) :
    (r.recordAmong fs known running designated n).1 =
        r.recordAfresh fs known running designated n ∧
      Faithful past fs (r.recordAmong fs known running designated n).2 := by
  obtain ⟨hAnswer, hKept⟩ := h.analysis hNow n
  have hLog : (r.analysis fs n).2.hasLog fs n = r.hasLog fs n := by
    rw [hasLog, hasLog, site_eq_of_bare (analysis_bare r fs n)]
  refine ⟨?_, hKept⟩
  unfold Registry.recordAmong recordAfresh
  simp only [hAnswer, hLog]

theorem Faithful.record (h : Faithful past fs r) (hNow : fs ∈ past) (running : Bool)
    (designated : Option String) (n : ScriptName) :
    (r.record fs running designated n).1 =
        (do r.recordAfresh fs (← r.modules fs) running designated n) ∧
      Faithful past fs (r.record fs running designated n).2 := by
  unfold Registry.record
  cases r.modules fs with
  | error f => exact ⟨rfl, h⟩
  | ok known => exact h.recordAmong hNow known running designated n

theorem Faithful.recordsAmong (h : Faithful past fs r) (hNow : fs ∈ past) (known : List String)
    (running : ScriptName → Bool) (designated : Option String) (ns : List ScriptName) :
    (r.recordsAmong fs known running designated ns).1 =
        gather (ns.map fun n => r.recordAfresh fs known (running n) designated n) ∧
      Faithful past fs (r.recordsAmong fs known running designated ns).2 := by
  induction ns generalizing r with
  | nil => exact ⟨rfl, h⟩
  | cons n rest ih =>
    obtain ⟨hFirst, hKept⟩ := h.recordAmong hNow known (running n) designated n
    have hBare := recordAmong_bare r fs known (running n) designated n
    rw [recordsAmong_cons, List.map_cons, ← hFirst]
    rcases hRecord : r.recordAmong fs known (running n) designated n with ⟨f | first, r₁⟩
    · rw [hRecord] at hKept hBare
      obtain ⟨hOthers, hKept'⟩ := ih hKept
      rw [recordAfresh_eq_of_bare hBare] at hOthers
      cases f with
      | notFound name => exact ⟨hOthers, hKept'⟩
      | _ => exact ⟨rfl, hKept⟩
    · rw [hRecord] at hKept hBare
      obtain ⟨hOthers, hKept'⟩ := ih hKept
      rw [recordAfresh_eq_of_bare hBare] at hOthers
      exact ⟨congrArg (Except.map (first :: ·)) hOthers, hKept'⟩

theorem Faithful.records (h : Faithful past fs r) (hNow : fs ∈ past)
    (running : ScriptName → Bool) (designated : Option String) :
    (r.records fs running designated).1 = (do
        let ns ← r.names fs
        gather (ns.map fun n =>
          r.recordAfresh fs (ns.map ScriptName.module) (running n) designated n)) ∧
      Faithful past fs (r.records fs running designated).2 := by
  unfold Registry.records
  cases r.names fs with
  | error f => exact ⟨rfl, h⟩
  | ok ns =>
    obtain ⟨hAnswer, hKept⟩ := h.recordsAmong hNow (ns.map ScriptName.module) running designated ns
    simp only
    rcases hRecords : r.recordsAmong fs (ns.map ScriptName.module) running designated ns
      with ⟨f | rs, r₁⟩
    · rw [hRecords] at hAnswer hKept
      exact ⟨hAnswer, hKept⟩
    · rw [hRecords] at hAnswer hKept
      exact ⟨hAnswer, hKept.retain ns⟩

-- ---------------------------------------------------------------------------
-- Changes of files
-- ---------------------------------------------------------------------------

/-- A faithful registry takes a change of files after which every script of which it remembers
something has the file that it had, or one with a size and a time that no earlier one had. -/
theorem Faithful.change (h : Faithful past fs r)
    (hEach : ∀ n m b, r.remembered.lookup n = some m → r.site.Shows fs' n b →
      r.site.Shows fs n b ∨
        ∀ t ∈ past, ∀ b', r.site.Shows t n b' → b'.stamp ≠ b.stamp) :
    Faithful (fs' :: past) fs' r where
  exact := by
    intro n m b hFound hShows hStamp
    rcases hEach n m b hFound hShows with hSame | hFresh
    · exact h.exact hFound hSame hStamp
    · obtain ⟨t, hPast, b', hShown, hStamp'⟩ := h.told hFound
      exact absurd (hStamp'.symm.trans hStamp) (hFresh t hPast b' hShown)
  told := by
    intro n m hFound
    obtain ⟨t, hPast, hShown⟩ := h.told hFound
    exact ⟨t, List.mem_cons_of_mem _ hPast, hShown⟩

end Registry

end ScriptWarden
