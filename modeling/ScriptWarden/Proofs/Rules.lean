import ScriptWarden.Proofs.Works
import ScriptWarden.Script.Store

/-!
# Rules that stay

Where a service keeps its files and what it checks them by never change. Answering questions and
changing files alter what a registry remembers, and nothing else of it.

## Results

* `Registry.analysis_bare`, `Registry.records_bare` — what readers find they may only remember.
* `Store.saveUpload_rules`, `Store.retireScript_rules`, `Store.setAutoboot_rules` — changes of files
  go by the same rules before and afterwards.
-/

namespace ScriptWarden

namespace Registry

-- ---------------------------------------------------------------------------
-- What a registry goes by
-- ---------------------------------------------------------------------------

/-- A registry that remembers nothing: where it keeps its files and what it checks them by. -/
def bare (r : Registry) : Registry := { r with remembered := [] }

variable {r r' : Registry}

theorem site_eq_of_bare (h : r'.bare = r.bare) : r'.site = r.site := by
  show r'.bare.site = r.bare.site
  rw [h]

/-- What a file is judged to be does not depend on what is remembered. -/
theorem analyzeBytes_eq_of_bare (h : r'.bare = r.bare) (n : ScriptName) (bytes : List UInt8) :
    r'.analyzeBytes n bytes = r.analyzeBytes n bytes := by
  show r'.bare.analyzeBytes n bytes = r.bare.analyzeBytes n bytes
  rw [h]

-- ---------------------------------------------------------------------------
-- Readers
-- ---------------------------------------------------------------------------

theorem analysis_bare (r : Registry) (fs : Files) (n : ScriptName) :
    (r.analysis fs n).2.bare = r.bare := by
  unfold analysis
  split
  · rfl
  · split
    · rfl
    · split <;> rfl

theorem verdict_bare (r : Registry) (fs : Files) (n : ScriptName) :
    (r.verdict fs n).2.bare = r.bare := by
  unfold verdict
  exact analysis_bare r fs n

theorem recordAmong_bare (r : Registry) (fs : Files) (known : List String) (running : Bool)
    (designated : Option String) (n : ScriptName) :
    (r.recordAmong fs known running designated n).2.bare = r.bare := by
  unfold recordAmong
  exact analysis_bare r fs n

theorem record_bare (r : Registry) (fs : Files) (running : Bool) (designated : Option String)
    (n : ScriptName) : (r.record fs running designated n).2.bare = r.bare := by
  unfold record
  split
  · rfl
  · exact recordAmong_bare r fs _ running designated n

/-- The first record and the others, in a form that does not split faults into their kinds. -/
theorem recordsAmong_cons (r : Registry) (fs : Files) (known : List String)
    (running : ScriptName → Bool) (designated : Option String) (n : ScriptName)
    (rest : List ScriptName) :
    r.recordsAmong fs known running designated (n :: rest) =
      match r.recordAmong fs known (running n) designated n with
      | (.ok first, r) =>
        let (others, r) := recordsAmong r fs known running designated rest
        (others.map (first :: ·), r)
      | (.error (.notFound _), r) => recordsAmong r fs known running designated rest
      | (.error f, r) => (.error f, r) := by
  rfl

theorem recordsAmong_bare (r : Registry) (fs : Files) (known : List String)
    (running : ScriptName → Bool) (designated : Option String) (ns : List ScriptName) :
    (r.recordsAmong fs known running designated ns).2.bare = r.bare := by
  induction ns generalizing r with
  | nil => rfl
  | cons n rest ih =>
    have hFirst := recordAmong_bare r fs known (running n) designated n
    rw [recordsAmong_cons]
    rcases hRecord : r.recordAmong fs known (running n) designated n with ⟨f | first, r₁⟩
    · rw [hRecord] at hFirst
      -- a script that is gone is passed over, any other fault ends the list
      cases f with
      | notFound name => exact (ih r₁).trans hFirst
      | _ => exact hFirst
    · rw [hRecord] at hFirst
      exact (ih r₁).trans hFirst

theorem records_bare (r : Registry) (fs : Files) (running : ScriptName → Bool)
    (designated : Option String) : (r.records fs running designated).2.bare = r.bare := by
  unfold records
  split
  · rfl
  · next ns _ =>
    have hAmong := recordsAmong_bare r fs (ns.map ScriptName.module) running designated ns
    split
    · next rs r₁ hRecords =>
      rw [hRecords] at hAmong
      exact hAmong
    · next f r₁ hRecords =>
      rw [hRecords] at hAmong
      exact hAmong

end Registry

namespace Store

-- ---------------------------------------------------------------------------
-- Work on stores
-- ---------------------------------------------------------------------------

/-- The registries of two stores go by the same. -/
def SameRules (s s' : Store) : Prop := s'.registry.bare = s.registry.bare

theorem SameRules.refl (s : Store) : SameRules s s := rfl

theorem SameRules.trans (s t u : Store) (h : SameRules s t) (h' : SameRules t u) :
    SameRules s u := Eq.trans h' h

/-- Work after which the registry goes by what it went by. -/
abbrev KeepsRules {α : Type} (work : StoreWork α) : Prop := Work.Keeps SameRules work

theorem KeepsRules.bind {α β : Type} {work : StoreWork α} {rest : α → StoreWork β}
    (hFirst : KeepsRules work) (hRest : ∀ a, KeepsRules (rest a)) : KeepsRules (work >>= rest) :=
  Work.Keeps.bind SameRules.trans hFirst hRest

theorem pure_rules {α : Type} (a : α) : KeepsRules (pure a : StoreWork α) :=
  Work.Keeps.pure SameRules.refl a

theorem throw_rules {α : Type} (f : Fault) : KeepsRules (throw f : StoreWork α) :=
  Work.Keeps.throw SameRules.refl f

theorem view_rules {α : Type} (f : Store → Except Fault α) : KeepsRules (view f) := SameRules.refl

theorem get_rules : KeepsRules (get : StoreWork Store) := SameRules.refl

/-- A change of files is done or leaves everything alone. -/
theorem change_cases (f : Store → Except IoFault Files) (obstacle : Option IoFault) (s : Store) :
    (∃ e, change f obstacle s = (.error e, s)) ∨
      ∃ files, f s = .ok files ∧ change f obstacle s = (.ok (), { s with files }) := by
  cases obstacle with
  | some fault => exact Or.inl ⟨.io fault, rfl⟩
  | none =>
    cases hFiles : f s with
    | error fault => exact Or.inl ⟨.io fault, by simp only [change, hFiles]⟩
    | ok files => exact Or.inr ⟨files, rfl, by simp only [change, hFiles]⟩

theorem change_registry (f : Store → Except IoFault Files) (obstacle : Option IoFault) :
    Work.Keeps (fun s t => t.registry = s.registry) (change f obstacle) := by
  intro s
  rcases change_cases f obstacle s with ⟨e, hChange⟩ | ⟨files, -, hChange⟩ <;> rw [hChange]

theorem change_rules (f : Store → Except IoFault Files) (obstacle : Option IoFault) :
    KeepsRules (change f obstacle) := fun s =>
  congrArg Registry.bare (change_registry f obstacle s)

theorem ask_rules {α : Type} {f : Registry → Files → Except Fault α × Registry}
    (hBare : ∀ r fs, (f r fs).2.bare = r.bare) : KeepsRules (ask f) :=
  fun s => hBare s.registry s.files

theorem forget_rules (n : ScriptName) : KeepsRules (forget n) := fun _ => rfl

/-- Writing bytes writes all of them, or a part and fails. -/
theorem writeBytes_cases (id : FileId) (bytes : List UInt8)
    (obstacle : PlacingStep → Option IoFault) (s : Store) :
    writeBytes id bytes obstacle s = (.ok (), { s with files := s.files.append s.now id bytes }) ∨
      ∃ f part, part <+: bytes ∧ writeBytes id bytes obstacle s =
        (.error f, { s with files := s.files.append s.now id part }) := by
  unfold writeBytes
  simp only
  split
  · exact Or.inl rfl
  · next i fault _ => exact Or.inr ⟨.io fault, _, bytes.take_prefix i, rfl⟩

theorem writeBytes_unhindered (id : FileId) (bytes : List UInt8) (s : Store) :
    writeBytes id bytes (fun _ => none) s =
      (.ok (), { s with files := s.files.append s.now id bytes }) := by
  have hNowhere : ((List.range bytes.length).findSome? fun _ => (none : Option (Nat × IoFault))) =
      none := by simp
  simp only [writeBytes, Option.map_none, hNowhere]

/-- What placing a file comes to when its draft is opened. -/
theorem placeFile_apply (draft target : String) (bytes : List UInt8)
    (obstacle : PlacingStep → Option IoFault) (s : Store) :
    placeFile draft target bytes obstacle s = match obstacle .openDraft with
      | some fault => (.error (.io fault), s)
      | none => match s.files.openEmpty s.now (s.site.seen draft) with
        | .error fault => (.error (.io fault), s)
        | .ok (id, files) =>
          (writeBytes id bytes obstacle >>= fun _ =>
            change (fun s => s.files.rename (s.site.seen draft) (s.site.seen target))
              (obstacle .rename)) { s with files } := by
  rw [placeFile]
  cases obstacle .openDraft with
  | some fault => rfl
  | none =>
    simp only [Work.bind_apply, Work.get_apply]
    cases s.files.openEmpty s.now (s.site.seen draft) with
    | error fault => rfl
    | ok opened => simp only [Work.bind_apply, Work.set_apply]

/-- Placing a file ends before its draft is opened, with a part of the bytes or all of them in the
draft, or when that has the name of the file. -/
theorem placeFile_cases (draft target : String) (bytes : List UInt8)
    (obstacle : PlacingStep → Option IoFault) (s : Store) :
    (∃ f, placeFile draft target bytes obstacle s = (.error f, s)) ∨
      ∃ id opened, s.files.openEmpty s.now (s.site.seen draft) = .ok (id, opened) ∧
        ((∃ f part, part <+: bytes ∧ placeFile draft target bytes obstacle s =
            (.error f, { s with files := opened.append s.now id part })) ∨
          ∃ files, (opened.append s.now id bytes).rename (s.site.seen draft) (s.site.seen target) =
              .ok files ∧
            placeFile draft target bytes obstacle s = (.ok (), { s with files })) := by
  rw [placeFile_apply]
  cases obstacle .openDraft with
  | some fault => exact Or.inl ⟨_, rfl⟩
  | none =>
    simp only
    cases hOpen : s.files.openEmpty s.now (s.site.seen draft) with
    | error fault => exact Or.inl ⟨_, rfl⟩
    | ok opened =>
      obtain ⟨id, opened⟩ := opened
      refine Or.inr ⟨id, opened, rfl, ?_⟩
      simp only
      rcases writeBytes_cases id bytes obstacle { s with files := opened } with
        hWrite | ⟨f, part, hPart, hWrite⟩
      · rw [Work.bind_ok hWrite]
        rcases change_cases (fun s => s.files.rename (s.site.seen draft) (s.site.seen target))
            (obstacle .rename) { s with files := opened.append s.now id bytes }
          with ⟨f, hRename⟩ | ⟨files, hMoved, hRename⟩
        · exact Or.inl ⟨f, bytes, List.prefix_refl bytes, hRename⟩
        · exact Or.inr ⟨files, hMoved, hRename⟩
      · rw [Work.bind_error hWrite]
        exact Or.inl ⟨f, part, hPart, rfl⟩

/-- What placing a file comes to where only the files stand in its way. -/
theorem placeFile_unhindered (draft target : String) (bytes : List UInt8) (s : Store) :
    placeFile draft target bytes (fun _ => none) s =
      match s.files.openEmpty s.now (s.site.seen draft) with
      | .error f => (.error (.io f), s)
      | .ok (id, opened) =>
        match (opened.append s.now id bytes).rename (s.site.seen draft) (s.site.seen target) with
        | .error f => (.error (.io f), { s with files := opened.append s.now id bytes })
        | .ok files => (.ok (), { s with files }) := by
  rw [placeFile_apply]
  simp only
  cases s.files.openEmpty s.now (s.site.seen draft) with
  | error f => rfl
  | ok opened =>
    obtain ⟨id, opened⟩ := opened
    simp only
    rw [Work.bind_ok (writeBytes_unhindered id bytes _)]
    cases hMoved : (opened.append s.now id bytes).rename (s.site.seen draft) (s.site.seen target) with
    | error f =>
      have hFails : ({ s with files := opened.append s.now id bytes } : Store).files.rename
          (s.site.seen draft) (s.site.seen target) = .error f := hMoved
      simp only [change, site] at hFails ⊢
      rw [hFails]
    | ok files =>
      have hDone : ({ s with files := opened.append s.now id bytes } : Store).files.rename
          (s.site.seen draft) (s.site.seen target) = .ok files := hMoved
      simp only [change, site] at hDone ⊢
      rw [hDone]

/-- Placing a file is of no concern to the registry. -/
theorem placeFile_registry (draft target : String) (bytes : List UInt8)
    (obstacle : PlacingStep → Option IoFault) :
    Work.Keeps (fun s t => t.registry = s.registry) (placeFile draft target bytes obstacle) := by
  intro s
  rcases placeFile_cases draft target bytes obstacle s with
    ⟨f, hDone⟩ | ⟨id, opened, -, ⟨f, part, -, hDone⟩ | ⟨files, -, hDone⟩⟩ <;> rw [hDone]

theorem placeFile_rules (draft target : String) (bytes : List UInt8)
    (obstacle : PlacingStep → Option IoFault) :
    KeepsRules (placeFile draft target bytes obstacle) := fun s =>
  congrArg Registry.bare (placeFile_registry draft target bytes obstacle s)

-- ---------------------------------------------------------------------------
-- Uploads, deletions and the designation
-- ---------------------------------------------------------------------------

theorem saveUpload_rules (fileName : String) (bytes : List UInt8)
    (obstacle : PlacingStep → Option IoFault) : KeepsRules (saveUpload fileName bytes obstacle) := by
  unfold saveUpload
  refine (view_rules _).bind fun name => ?_
  split
  · refine (view_rules _).bind fun known => get_rules.bind fun s => ?_
    simp only
    split
    · exact pure_rules _
    · refine (change_rules _ _).bind fun _ => (placeFile_rules _ _ _ _).bind fun _ => ?_
      exact (forget_rules name).bind fun _ => pure_rules _
  · exact throw_rules _

theorem removeScript_rules (n : ScriptName) : KeepsRules (removeScript n) := by
  intro s
  unfold removeScript
  split <;> rfl

theorem removeLog_rules (n : ScriptName) : KeepsRules (removeLog n) := by
  intro s
  unfold removeLog
  rw [Work.modify_apply]
  simp only
  split <;> rfl

theorem deleteScript_rules (n : ScriptName) : KeepsRules (deleteScript n) :=
  (removeScript_rules n).bind fun _ => (forget_rules n).bind fun _ => removeLog_rules n

theorem clearDesignation_rules : KeepsRules clearDesignation := by
  intro s
  unfold clearDesignation
  split <;> rfl

theorem clearDesignationOf_rules (name : String) : KeepsRules (clearDesignationOf name) := by
  unfold clearDesignationOf
  refine (view_rules _).bind fun found => ?_
  split
  · exact pure_rules _
  · exact clearDesignation_rules.bind fun _ => pure_rules _

theorem retireScript_rules (n : ScriptName) : KeepsRules (retireScript n) :=
  (deleteScript_rules n).bind fun _ =>
    (clearDesignationOf_rules n.text).bind fun _ => pure_rules _

theorem writeDesignation_rules (n : ScriptName) : KeepsRules (writeDesignation n) := by
  unfold writeDesignation
  refine get_rules.bind fun s => ?_
  simp only
  split
  · exact (change_rules _ _).bind fun _ => placeFile_rules _ _ _ _
  · exact placeFile_rules _ _ _ _

theorem designate_rules (n : ScriptName) : KeepsRules (designate n) := by
  unfold designate
  refine (view_rules _).bind fun there => ?_
  split
  · exact (throw_rules _).bind fun _ => writeDesignation_rules n
  · exact writeDesignation_rules n

theorem setAutoboot_rules (n : ScriptName) (enabled : Bool) :
    KeepsRules (setAutoboot n enabled) := by
  unfold setAutoboot
  simp only
  split
  · exact (designate_rules n).bind fun _ => view_rules _
  · refine KeepsRules.bind ?_ fun _ => view_rules _
    exact (clearDesignationOf_rules n.text).bind fun _ => pure_rules _

end Store

end ScriptWarden
