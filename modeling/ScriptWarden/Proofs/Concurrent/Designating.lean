import Mathlib.Logic.Function.Basic
import ScriptWarden.Proofs.BootRegister
import ScriptWarden.Proofs.Files.DesignationApart
import ScriptWarden.Proofs.Runs.CleanStores

/-!
# Settings and deletions, step by step

A setting of the boot script looks whether the script is there, and then writes the designation. A
deletion removes the script, lets what is remembered of it be forgotten, removes its log, and then
clears the designation if that is the script's. Each of these is one step, and the steps of any number
of settings, and of deletions of several scripts, may come between each other; deletions and uploads
of one script wait for each other. An upload is one step: its draft cannot be seen, and the script
gets all of it at once.

A setting that has found its script does not wait for a deletion of it. When the deletion ends before
the setting writes, the script that was deleted is the one that is designated (`overtaken_setting`).
Where no deletion ends between the two, as when both happen under the lock that clearing takes, no
script is left designated that has been deleted. The name is to begin with no blank, or it is another
script that it designates.

## Results

* `setAutoboot_alone`, `retireScript_alone` — the steps in a row are what the service does when
  nothing comes between.
* `Sound.step` — a script that is designated or about to be has not been deleted altogether.
* `deleted_scripts_not_designated` — the law.
-/

namespace ScriptWarden

-- ---------------------------------------------------------------------------
-- What is under way
-- ---------------------------------------------------------------------------

/-- How far a deletion of a script has come. -/
inductive DeletionStage where
  | begun
  /-- The file of the script has been removed. -/
  | removed
  /-- What was remembered of the script is forgotten. -/
  | forgotten
  /-- The log has been removed, as far as that can be done; the designation is to be cleared. -/
  | logless

/-- A store, the settings that found their script and are to write it, each under a number of its
own, and the deletions under way. Whether a script has been deleted and not been uploaded since is
kept for statements only. -/
structure Designating where
  store : Store
  choices : Nat → Option ScriptName
  deletions : ScriptName → Option DeletionStage
  gone : ScriptName → Bool

namespace Designating

open Store

variable {w w' : Designating} {i : Nat} {n m : ScriptName} {r : Option String}

/-- A store on which nothing is under way. -/
def quiet (s : Store) : Designating where
  store := s
  choices := fun _ => none
  deletions := fun _ => none
  gone := fun _ => false

/-- Work is done on the store. -/
def after {α : Type} (w : Designating) (work : StoreWork α) : Designating :=
  { w with store := (work w.store).2 }

/-- A setting comes to be about to write, or is no longer under way. -/
def withChoice (w : Designating) (i : Nat) (choice : Option ScriptName) : Designating :=
  { w with choices := Function.update w.choices i choice }

/-- A deletion comes to be at something else, or is no longer under way. -/
def withDeletion (w : Designating) (n : ScriptName) (stage : Option DeletionStage) : Designating :=
  { w with deletions := Function.update w.deletions n stage }

/-- A script has been deleted, or uploaded. -/
def withGone (w : Designating) (n : ScriptName) (gone : Bool) : Designating :=
  { w with gone := Function.update w.gone n gone }

/-- Whether there is a file for a script. -/
def Has (w : Designating) (n : ScriptName) : Prop :=
  ∃ bytes, w.store.site.Reads w.store.files n bytes

-- ---------------------------------------------------------------------------
-- Steps
-- ---------------------------------------------------------------------------

/-- What takes a step. -/
inductive Act where
  | look (i : Nat) (n : ScriptName)
  | write (i : Nat)
  /-- A deletion comes nearer to its end. -/
  | delete (n : ScriptName)
  /-- A deletion clears the designation if it is the script's, and ends. -/
  | clear (n : ScriptName)
  | upload
  | unset
  | elsewhere

/-- One step of a setting or a deletion, or of what goes on around them. -/
inductive Step (w : Designating) : Act → Designating → Prop
  | look {i : Nat} {n : ScriptName} : w.choices i = none →
      w.store.registry.hasFile w.store.files n = true →
      Step w (.look i n) (w.withChoice i (some n))
  | lookFails {i : Nat} {n : ScriptName} : w.choices i = none →
      w.store.registry.hasFile w.store.files n = false → Step w (.look i n) w
  | write {i : Nat} {n : ScriptName} : w.choices i = some n →
      Step w (.write i) ((w.after (writeDesignation n)).withChoice i none)
  | begin {n : ScriptName} : w.deletions n = none →
      Step w (.delete n) (w.withDeletion n (some .begun))
  | remove {n : ScriptName} {t : Store} : w.deletions n = some .begun →
      removeScript n w.store = (.ok (), t) →
      Step w (.delete n) (({ w with store := t }.withDeletion n (some .removed)).withGone n true)
  | removeFails {n : ScriptName} {f : Fault} {t : Store} : w.deletions n = some .begun →
      removeScript n w.store = (.error f, t) →
      Step w (.delete n) ({ w with store := t }.withDeletion n none)
  | forget {n : ScriptName} : w.deletions n = some .removed →
      Step w (.delete n) ((w.after (Store.forget n)).withDeletion n (some .forgotten))
  | removeLog {n : ScriptName} : w.deletions n = some .forgotten →
      Step w (.delete n) ((w.after (Store.removeLog n)).withDeletion n (some .logless))
  | clear {n : ScriptName} : w.deletions n = some .logless →
      Step w (.clear n) ((w.after (clearDesignationOf n.text)).withDeletion n none)
  | save {n : ScriptName} {fileName : String} (bytes : List UInt8)
      (obstacle : PlacingStep → Option IoFault) :
      parseName fileName = .ok n → w.deletions n = none →
      Saved (saveUpload fileName bytes obstacle w.store).1 →
      Step w .upload ((w.after (saveUpload fileName bytes obstacle)).withGone n false)
  /-- An upload is refused, or the host fails at one of its steps. -/
  | refuse (fileName : String) (bytes : List UInt8) (obstacle : PlacingStep → Option IoFault) :
      ¬ Saved (saveUpload fileName bytes obstacle w.store).1 →
      Step w .upload (w.after (saveUpload fileName bytes obstacle))
  | unset (name : String) : Step w .unset (w.after (clearDesignationOf name))
  | unsetAny : Step w .unset (w.after clearDesignation)
  /-- The time goes on, analyses are remembered, and the host's files change, but the designation is
  left alone and no script comes back that was deleted. -/
  | elsewhere {s : Store} : s.site = w.store.site → (∀ r, w.store.Registers r → s.Registers r) →
      (∀ n bytes, w.gone n = true → ¬ s.site.Reads s.files n bytes) →
      Step w .elsewhere { w with store := s }

/-- What runs lead to, when every step is one that the condition allows. -/
inductive Reaches (Allowed : Designating → Act → Prop) (w₀ : Designating) : Designating → Prop
  | refl : Reaches Allowed w₀ w₀
  | step {w w' : Designating} {a : Act} :
      Reaches Allowed w₀ w → Step w a w' → Allowed w a → Reaches Allowed w₀ w'

/-- No condition on the steps of a run. -/
def AnyStep (_ : Designating) (_ : Act) : Prop := True

/-- No deletion ends while a setting that found its script is still to write, and no name is set that
begins with a blank. -/
def Unhurried (w : Designating) : Act → Prop
  | .look _ n => n.beginsBlank = false
  | .clear n => ∀ i, w.choices i ≠ some n
  | _ => True

theorem Reaches.next {w₀ : Designating} {a : Act} (hReach : Reaches AnyStep w₀ w)
    (hStep : Step w a w') : Reaches AnyStep w₀ w' := .step hReach hStep trivial

theorem Reaches.trans {Allowed : Designating → Act → Prop} {w₀ : Designating}
    (hFirst : Reaches Allowed w₀ w) (hRest : Reaches Allowed w w') : Reaches Allowed w₀ w' := by
  induction hRest with
  | refl => exact hFirst
  | step _ hStep hAllowed ih => exact .step ih hStep hAllowed

-- ---------------------------------------------------------------------------
-- Settings and deletions by themselves
-- ---------------------------------------------------------------------------

theorem withDeletion_self {stage? : Option DeletionStage} :
    (w.withDeletion n stage?).deletions n = stage? := Function.update_self ..

theorem withChoice_eq_self (h : w.choices i = none) : w.withChoice i none = w := by
  rw [withChoice, ← h, Function.update_eq_self]

theorem withDeletion_eq_self (h : w.deletions n = none) : w.withDeletion n none = w := by
  rw [withDeletion, ← h, Function.update_eq_self]

theorem designate_alone (hFree : w.choices i = none) (n : ScriptName) :
    Reaches AnyStep w (w.after (designate n)) := by
  have hLook : view (fun t => .ok (t.registry.hasFile t.files n)) w.store =
      (.ok (w.store.registry.hasFile w.store.files n), w.store) := rfl
  rw [after, designate, Work.bind_ok hLook]
  cases hThere : w.store.registry.hasFile w.store.files n with
  | false => exact .refl
  | true =>
    have hChosen : Reaches AnyStep w _ := Reaches.refl.next (.look hFree hThere)
    have hHere : (w.withChoice i (some n)).choices i = some n := Function.update_self ..
    have hWritten := hChosen.next (.write hHere)
    have hDone : ((w.withChoice i (some n)).after (writeDesignation n)).withChoice i none =
        w.after (writeDesignation n) := by
      rw [withChoice, withChoice, after, Function.update_idem, ← hFree, Function.update_eq_self]
      rfl
    rw [hDone] at hWritten
    exact hWritten

/-- A setting that nothing comes between is what the service does. -/
theorem setAutoboot_alone (hFree : w.choices i = none) (n : ScriptName) (enabled : Bool) :
    Reaches AnyStep w (w.after (setAutoboot n enabled)) := by
  -- what is read at the end changes nothing
  have hRead : ∀ {α : Type} (work : StoreWork α),
      w.after (work >>= fun _ => view designated) = w.after work := by
    intro α work
    rw [after, after]
    rcases hRun : work w.store with ⟨f | a, t⟩
    · rw [Work.bind_error hRun]
    · rw [Work.bind_ok hRun]
      rfl
  cases enabled with
  | true =>
    have hSame : w.after (setAutoboot n true) = w.after (designate n) := hRead (designate n)
    rw [hSame]
    exact designate_alone hFree n
  | false =>
    have hSame : w.after (setAutoboot n false) = w.after (clearDesignationOf n.text) := by
      refine (hRead (discard (clearDesignationOf n.text))).trans ?_
      rw [after, after, Work.discard_snd]
    rw [hSame]
    exact Reaches.refl.next (.unset n.text)

/-- A deletion that nothing comes between is what the service does. -/
theorem retireScript_alone (hFree : w.deletions n = none) :
    ∃ gone, Reaches AnyStep w { w.after (retireScript n) with gone } ∧
      ((retireScript n w.store).1 = .ok () → gone n = true) := by
  have hBegun : Reaches AnyStep w _ := Reaches.refl.next (.begin hFree)
  rcases hRemove : removeScript n w.store with ⟨f | ⟨⟩, t⟩
  · have hFailed := hBegun.next (.removeFails withDeletion_self hRemove)
    have hDelete : deleteScript n w.store = (.error f, t) := by
      rw [deleteScript, Work.bind_error hRemove]
    have hRetire : retireScript n w.store = (.error f, t) := by
      rw [retireScript, Work.bind_error hDelete]
    refine ⟨w.gone, ?_, fun hOk => ?_⟩
    · rw [after, hRetire]
      simpa only [withDeletion, Function.update_idem, ← hFree, Function.update_eq_self] using hFailed
    · rw [hRetire] at hOk
      cases hOk
  · have hRemoved := hBegun.next (.remove withDeletion_self hRemove)
    have hForgot := hRemoved.next (.forget (n := n) withDeletion_self)
    have hLogless := hForgot.next (.removeLog withDeletion_self)
    have hCleared := hLogless.next (.clear withDeletion_self)
    have hRetire : (retireScript n w.store).2 =
        (clearDesignationOf n.text (Store.removeLog n (Store.forget n t).2).2).2 := by
      have hDelete : deleteScript n w.store =
          (.ok (), (Store.removeLog n (Store.forget n t).2).2) := by
        rw [deleteScript, Work.bind_ok hRemove]
        rfl
      rw [retireScript, Work.bind_ok hDelete, Work.discard_snd]
    refine ⟨Function.update w.gone n true, ?_, fun _ => Function.update_self ..⟩
    rw [after, hRetire]
    simpa only [after, withDeletion, withGone, Function.update_idem, ← hFree,
      Function.update_eq_self] using hCleared

-- ---------------------------------------------------------------------------
-- What every step keeps
-- ---------------------------------------------------------------------------

/-- A script has not been deleted, or its deletion has not come to its end. -/
def Stands (w : Designating) (n : ScriptName) : Prop :=
  w.gone n = false ∨ ∃ stage, w.deletions n = some stage ∧ stage ≠ .begun

/-- Scripts that have been deleted are not there, and of those that are designated or about to be
none has been deleted altogether. -/
structure Sound (w : Designating) : Prop where
  named : w.store.site.DesignationNamed
  registers : ∃ r, w.store.Registers r ∧ ∀ n : ScriptName, r = some n.text → w.Stands n
  away : ∀ n, w.gone n = true → ¬ w.Has n
  chosen : ∀ i n, w.choices i = some n → n.beginsBlank = false ∧ w.Stands n

theorem Sound.settled (h : Sound w) : w.store.site.Settled w.store.files := by
  obtain ⟨r, hRegisters, -⟩ := h.registers
  exact hRegisters.kept.settled

/-- Nothing that stood comes to its end, nothing is designated that was not and does not stand, no
deleted script comes back, and nothing new is chosen. -/
theorem Sound.mono (h : Sound w) (hSite : w'.store.site = w.store.site)
    (hStands : ∀ n, w.Stands n → w'.Stands n)
    (hRegister : ∀ r, w.store.Registers r → ∃ r', w'.store.Registers r' ∧
      ∀ n : ScriptName, r' = some n.text → r = some n.text ∨ w'.Stands n)
    (hAway : ∀ n, w'.gone n = true → w'.Has n → w.gone n = true ∧ w.Has n)
    (hChosen : ∀ i n, w'.choices i = some n → w.choices i = some n) : Sound w' where
  named := hSite ▸ h.named
  registers := by
    obtain ⟨r, hRegisters, hNames⟩ := h.registers
    obtain ⟨r', hRegisters', hNames'⟩ := hRegister r hRegisters
    refine ⟨r', hRegisters', fun n hName => ?_⟩
    rcases hNames' n hName with hBefore | hNew
    · exact hStands n (hNames n hBefore)
    · exact hNew
  away := by
    intro n hGone hHas
    obtain ⟨hBefore, hThere⟩ := hAway n hGone hHas
    exact h.away n hBefore hThere
  chosen := by
    intro i n hChoice
    obtain ⟨hPlain, hBefore⟩ := h.chosen i n (hChosen i n hChoice)
    exact ⟨hPlain, hStands n hBefore⟩

/-- A script stands on when its deletion comes further, or did not get to the script at all. -/
theorem Stands.withDeletion {stage? : Option DeletionStage} (h : w.Stands m)
    (hFurther : m ≠ n ∨ w.deletions n = none ∨ w.deletions n = some .begun ∨
      ∃ stage, stage? = some stage ∧ stage ≠ .begun) : (w.withDeletion n stage?).Stands m := by
  rcases h with hThere | ⟨stage, hUnderway, hPast⟩
  · exact .inl hThere
  · by_cases hName : m = n
    · subst hName
      rw [hUnderway] at hFurther
      obtain ⟨stage', rfl, hPast'⟩ : ∃ stage', stage? = some stage' ∧ stage' ≠ .begun := by
        simpa [hPast] using hFurther
      exact .inr ⟨stage', Function.update_self .., hPast'⟩
    · exact .inr ⟨stage, (Function.update_of_ne hName ..).trans hUnderway, hPast⟩

theorem has_iff {t : Store} (hSite : t.site = w.store.site) :
    { w with store := t }.Has n ↔ ∃ bytes, w.store.site.Reads t.files n bytes := by
  rw [← hSite]
  rfl

theorem has_of_withdraws (h : Sound w) {t : Store} (hWithdraws : WithdrawsOnly n w.store t)
    (hHas : { w with store := t }.Has m) : w.Has m := by
  obtain ⟨hSite, hChange⟩ := hWithdraws h.settled
  obtain ⟨bytes, hReads⟩ := (has_iff hSite).mp hHas
  by_cases hName : m = n
  · subst hName
    exact ⟨bytes, hChange.own hReads⟩
  · exact ⟨bytes, (hChange.others hName).mp hReads⟩

/-- Work that leaves the designation alone and brings no script back. -/
theorem Sound.leaves (h : Sound w) {t : Store} (hLeaves : LeavesRegister w.store t)
    (hHas : ∀ n, w.gone n = true → { w with store := t }.Has n → w.Has n) :
    Sound { w with store := t } := by
  obtain ⟨r, hRegisters, -⟩ := h.registers
  refine h.mono (hLeaves r hRegisters).1 (fun _ hStands => hStands) (fun r' hBefore => ?_)
    (fun n hGone hThere => ⟨hGone, hHas n hGone hThere⟩) (fun _ _ hChoice => hChoice)
  exact ⟨r', (hLeaves r' hBefore).2, fun n hName => .inl hName⟩

/-- Work after which something may be designated that was not, but stands. -/
theorem Sound.leads (h : Sound w) {α : Type} {work : StoreWork α}
    {result : Option String → Option String}
    (hLeads : ∀ r, w.store.Registers r → w.store.Leads r (result r) (work w.store))
    (hNames : ∀ r (n : ScriptName), result r = some n.text → r = some n.text ∨ w.Stands n)
    (hHas : ∀ n, (w.after work).Has n → w.Has n) : Sound (w.after work) := by
  obtain ⟨r, hRegisters, -⟩ := h.registers
  refine h.mono (hLeads r hRegisters).site (fun _ hStands => hStands) (fun r' hBefore => ?_)
    (fun n hGone hThere => ⟨hGone, hHas n hThere⟩) (fun _ _ hChoice => hChoice)
  refine ⟨_, (hLeads r' hBefore).registers, fun n hName => ?_⟩
  split at hName
  · exact hNames r' n hName
  · exact .inl hName

/-- A name whose designation has been removed is not designated. -/
theorem clearDesignationOf_clears {s : Store} (h : s.Registers r) (name : String) :
    ¬ (clearDesignationOf name s).2.Registers (some name) := by
  obtain ⟨hDone, -, hAfter⟩ := clearDesignationOf_registers h name
  rw [hDone] at hAfter
  have hCleared : (clearDesignationOf name s).2.Registers (if r = some name then none else r) :=
    hAfter
  intro hStill
  have hSame := Except.ok.inj (hStill.designated.symm.trans hCleared.designated)
  split at hSame
  · cases hSame
  · next hOther => exact hOther hSame.symm

theorem Sound.unset (h : Sound w) (name : String) : Sound (w.after (clearDesignationOf name)) := by
  refine h.leads (fun r hRegisters => (clearDesignationOf_registers hRegisters name).2) ?_ ?_
  · intro r n hName
    split at hName
    · cases hName
    · exact .inl hName
  · intro n hHas
    exact has_of_withdraws h (clearDesignationOf_withdraws n name w.store) hHas

/-- A setting that writes a script which stands. -/
theorem Sound.write (h : Sound w) (hChosen : w.choices i = some n) :
    Sound (w.after (writeDesignation n)) := by
  obtain ⟨hPlain, hStands⟩ := h.chosen i n hChosen
  obtain ⟨r, hRegisters, -⟩ := h.registers
  refine h.leads (fun r hRegisters => writeDesignation_registers hRegisters n) ?_ ?_
  · intro r m hName
    rw [n.designation_eq_text hPlain] at hName
    obtain rfl : n = m := ScriptName.eq_of_text (Option.some.inj hName)
    exact .inr hStands
  · intro m hHas
    obtain ⟨bytes, hReads⟩ := (has_iff (writeDesignation_registers hRegisters n).site).mp hHas
    exact ⟨bytes, (writeDesignation_reads hRegisters.kept n m).mp hReads⟩

/-- A look that finds a script. -/
theorem has_of_hasFile (hFound : w.store.registry.hasFile w.store.files n = true) : w.Has n := by
  unfold Registry.hasFile Files.isFile Files.info at hFound
  cases hExisting : w.store.files.existing
      (w.store.registry.site.seen (w.store.registry.site.scriptPath n)) with
  | error f =>
    rw [hExisting] at hFound
    cases hFound
  | ok found =>
    obtain ⟨q, e⟩ := found
    rw [hExisting] at hFound
    cases e with
    | file id => exact ⟨_, Site.reads_iff_shows.mpr ⟨_, ⟨q, id, hExisting, rfl⟩, rfl⟩⟩
    | directory => cases hFound
    | link t => cases hFound

/-- A setting that finds its script, which then stands, or that is over. -/
theorem Sound.withChoice (h : Sound w) {choice : Option ScriptName}
    (hNew : ∀ n, choice = some n → n.beginsBlank = false ∧ w.Stands n) :
    Sound (w.withChoice i choice) := by
  refine ⟨h.named, h.registers, h.away, fun j m hChoice => ?_⟩
  by_cases hOwn : j = i
  · have hHere : Function.update w.choices i choice j = some m := hChoice
    rw [hOwn, Function.update_self] at hHere
    exact hNew m hHere
  · exact h.chosen j m ((Function.update_of_ne hOwn ..).symm.trans hChoice)

theorem Sound.stands (h : Sound w) (hHas : w.Has n) : w.Stands n :=
  .inl (Bool.eq_false_iff.mpr fun hGone => h.away n hGone hHas)

/-- A deletion that comes further, or did not get to the script at all. -/
theorem Sound.furthered (h : Sound w) {stage? : Option DeletionStage}
    (hFurther : w.deletions n = none ∨ w.deletions n = some .begun ∨
      ∃ stage, stage? = some stage ∧ stage ≠ .begun) : Sound (w.withDeletion n stage?) :=
  h.mono rfl (fun _ hStands => hStands.withDeletion (.inr hFurther))
    (fun r hRegisters => ⟨r, hRegisters, fun _ hName => .inl hName⟩)
    (fun _ hGone hHas => ⟨hGone, hHas⟩) (fun _ _ hChoice => hChoice)

/-- A deletion that ends when its script is neither designated nor about to be. -/
theorem Sound.ended (h : Sound w) (hUnchosen : ∀ i, w.choices i ≠ some n)
    (hUnset : ¬ w.store.Registers (some n.text)) : Sound (w.withDeletion n none) := by
  obtain ⟨r, hRegisters, hNames⟩ := h.registers
  refine ⟨h.named, ⟨r, hRegisters, fun m hName => ?_⟩, h.away, fun i m hChoice => ?_⟩
  · refine (hNames m hName).withDeletion (.inl ?_)
    rintro rfl
    exact hUnset (hName ▸ hRegisters)
  · obtain ⟨hPlain, hStands⟩ := h.chosen i m hChoice
    refine ⟨hPlain, hStands.withDeletion (.inl ?_)⟩
    rintro rfl
    exact hUnchosen i hChoice

/-- A script that is not there any more, while its deletion is under way, counts as deleted; and it
may count as not deleted at any time. -/
theorem Sound.withGone (h : Sound w) {gone : Bool}
    (hGone : gone = true → ¬ w.Has n ∧ ∃ stage, w.deletions n = some stage ∧ stage ≠ .begun) :
    Sound (w.withGone n gone) := by
  refine h.mono rfl (fun m hStands => ?_) (fun r hRegisters => ⟨r, hRegisters, fun _ => .inl⟩)
    (fun m hMarked hHas => ?_) (fun _ _ hChoice => hChoice)
  · by_cases hName : m = n
    · subst hName
      cases gone with
      | false => exact .inl (Function.update_self ..)
      | true => exact .inr (hGone rfl).2
    · rcases hStands with hThere | hPast
      · exact .inl ((Function.update_of_ne hName ..).trans hThere)
      · exact .inr hPast
  · have hMark : Function.update w.gone n gone m = true := hMarked
    have hName : m ≠ n := by
      rintro rfl
      rw [Function.update_self] at hMark
      exact (hGone hMark).1 hHas
    rw [Function.update_of_ne hName] at hMark
    exact ⟨hMark, hHas⟩

/-- The file of a script is removed. -/
theorem Sound.removed (h : Sound w) {t : Store} (hRemove : removeScript n w.store = (.ok (), t)) :
    Sound (({ w with store := t }.withDeletion n (some .removed)).withGone n true) := by
  have hState : (removeScript n w.store).2 = t := by rw [hRemove]
  have hLeaves : LeavesRegister w.store t := hState ▸ removeScript_leaves n w.store
  have hWithdraws : WithdrawsOnly n w.store t := hState ▸ removeScript_withdraws n w.store
  have hNone : ¬ { w with store := t }.Has n := by
    intro hHas
    obtain ⟨bytes, hReads⟩ := (has_iff (hWithdraws h.settled).1).mp hHas
    exact removeScript_removes h.settled hRemove hReads
  have hTaken := h.leaves hLeaves fun m _ => has_of_withdraws h hWithdraws
  have hUnderway := hTaken.furthered (n := n) (.inr (.inr ⟨.removed, rfl, nofun⟩))
  exact hUnderway.withGone fun _ => ⟨hNone, .removed, withDeletion_self, nofun⟩

/-- A script is uploaded. -/
theorem Sound.saved (h : Sound w) {fileName : String} {bytes : List UInt8}
    {obstacle : PlacingStep → Option IoFault} (hName : parseName fileName = .ok n)
    (hSaved : Saved (saveUpload fileName bytes obstacle w.store).1) :
    Sound ((w.after (saveUpload fileName bytes obstacle)).withGone n false) := by
  obtain ⟨r, hRegisters, -⟩ := h.registers
  have hLeaves := saveUpload_leaves h.named fileName bytes obstacle
  have hMarked : Sound (w.withGone n false) := h.withGone nofun
  refine hMarked.leaves hLeaves fun m hGone hHas => ?_
  have hOther : m ≠ n := by
    rintro rfl
    have hMark : Function.update w.gone m false m = true := hGone
    rw [Function.update_self] at hMark
    cases hMark
  rcases saveUpload_outcome h.settled fileName bytes obstacle with
    ⟨hNot, -⟩ | ⟨-, n', hName', -, hSaves⟩
  · exact absurd hSaved hNot
  · obtain rfl : n = n' := Except.ok.inj (hName.symm.trans hName')
    obtain ⟨b, hReads⟩ := (has_iff (hLeaves r hRegisters).1).mp hHas
    exact ⟨b, bytes_eq_ok.mp ((hSaves.others m b hOther).mp (bytes_eq_ok.mpr hReads))⟩

theorem Sound.refused (h : Sound w) {fileName : String} {bytes : List UInt8}
    {obstacle : PlacingStep → Option IoFault}
    (hNot : ¬ Saved (saveUpload fileName bytes obstacle w.store).1) :
    Sound (w.after (saveUpload fileName bytes obstacle)) := by
  obtain ⟨r, hRegisters, -⟩ := h.registers
  have hLeaves := saveUpload_leaves h.named fileName bytes obstacle
  refine h.leaves hLeaves fun m _ hHas => ?_
  rcases saveUpload_outcome h.settled fileName bytes obstacle with ⟨-, hSame⟩ | ⟨hSaved, -⟩
  · obtain ⟨b, hReads⟩ := (has_iff (hLeaves r hRegisters).1).mp hHas
    exact ⟨b, bytes_eq_ok.mp ((hSame.bytes m b).mp (bytes_eq_ok.mpr hReads))⟩
  · exact absurd hSaved hNot

/-- After every step, too, no script that is designated or about to be has been deleted altogether. -/
theorem Sound.step (h : Sound w) {a : Act} (hStep : Step w a w') (hUnhurried : Unhurried w a) :
    Sound w' := by
  cases hStep with
  | look _ hFound =>
    refine h.withChoice fun m hChoice => ?_
    cases hChoice
    exact ⟨hUnhurried, h.stands (has_of_hasFile hFound)⟩
  | lookFails => exact h
  | write hChosen => exact (h.write hChosen).withChoice nofun
  | begin hFree => exact h.furthered (.inl hFree)
  | remove _ hRemove => exact h.removed hRemove
  | @removeFails n f t hStage hRemove =>
    have hState : t = w.store := by
      unfold removeScript at hRemove
      split at hRemove <;> cases hRemove
      rfl
    rw [hState]
    exact h.furthered (.inr (.inl hStage))
  | @forget n hStage =>
    have hForgot : Sound (w.after (Store.forget n)) :=
      h.leaves (fun r hRegisters => ⟨rfl, hRegisters.of_files rfl rfl⟩) fun _ _ hHas => hHas
    exact hForgot.furthered (.inr (.inr ⟨_, rfl, nofun⟩))
  | @removeLog n hStage =>
    have hLogless : Sound (w.after (Store.removeLog n)) :=
      h.leaves (removeLog_leaves n w.store) fun m _ =>
        has_of_withdraws h (removeLog_withdraws n w.store)
    exact hLogless.furthered (.inr (.inr ⟨_, rfl, nofun⟩))
  | @clear n hStage =>
    obtain ⟨r, hRegisters, -⟩ := h.registers
    exact (h.unset n.text).ended hUnhurried (clearDesignationOf_clears hRegisters n.text)
  | save bytes obstacle hName _ hSaved => exact h.saved hName hSaved
  | refuse fileName bytes obstacle hNot => exact h.refused hNot
  | unset name => exact h.unset name
  | unsetAny =>
    refine h.leads (fun r hRegisters => (clearDesignation_registers hRegisters).2) ?_ ?_
    · intro r n hName
      cases hName
    · intro n hHas
      exact has_of_withdraws h (clearDesignation_withdraws n w.store) hHas
  | elsewhere hSite hRegisters hAway =>
    refine h.leaves (fun r hBefore => ⟨hSite, hRegisters r hBefore⟩) fun n hGone ⟨b, hReads⟩ => ?_
    exact absurd hReads (hAway n b hGone)

theorem Sound.reaches (h : Sound w) (hReach : Reaches Unhurried w w') : Sound w' := by
  induction hReach with
  | refl => exact h
  | step _ hStep hUnhurried ih => exact ih.step hStep hUnhurried

-- ---------------------------------------------------------------------------
-- The law
-- ---------------------------------------------------------------------------

/--
**A script that has been deleted is not left designated.** Let a designation be kept in a file of its
own, in a directory that is there, and name something or nothing; and let settings, clears, uploads,
refused uploads and deletions follow, in any number and with their steps in any order, but so that no
deletion ends while a setting that found its script is still to write, and that no name is set that
begins with a blank. Then at any time a script that is designated, and that no deletion is under way
of, has not been deleted since it was last uploaded.
-/
theorem deleted_scripts_not_designated {s : Store} (hKept : s.site.DesignationKept s.files)
    (hNamed : s.site.DesignationNamed) (hFirst : s.designated = .ok r)
    (hReach : Reaches Unhurried (quiet s) w) :
    (∃ r', w.store.designated = .ok r') ∧ ∀ n : ScriptName,
      w.store.designated = .ok (some n.text) → w.deletions n = none → w.gone n = false := by
  have hBegin : Sound (quiet s) :=
    ⟨hNamed, ⟨r, ⟨hKept, (designated_iff hKept).mp hFirst⟩, fun _ _ => .inl rfl⟩, nofun, nofun⟩
  obtain ⟨r', hRegisters, hNames⟩ := (hBegin.reaches hReach).registers
  refine ⟨⟨r', hRegisters.designated⟩, fun n hDesignated hFree => ?_⟩
  have hName := Except.ok.inj (hRegisters.designated.symm.trans hDesignated)
  rcases hNames n hName with hThere | ⟨stage, hUnderway, -⟩
  · exact hThere
  · cases hFree.symm.trans hUnderway

theorem bootDeployment_named : bootDeployment.store.site.DesignationNamed := by
  have hName : IsFileName "boot.txt" := ⟨by decide, by decide, by decide, by decide⟩
  refine ⟨"boot.txt", ⟨['/'], by decide +kernel, .inr rfl⟩, hName, fun n hSame => ?_⟩
  have hHead := congrArg (fun text : String => text.toList.head?) hSame
  simp [n.uploadName_toList] at hHead

/-- A script is deleted, and in the middle of that a setting writes it that had found it. When the
deletion is over, the script is not designated. -/
theorem setting_amid_deletion :
    ∃ w, Reaches Unhurried (quiet bootDeployment.store) w ∧ w.gone default = true ∧
      w.deletions default = none ∧ w.store.designated ≠ .ok (some "a.py") := by
  have hFound : bootDeployment.store.registry.hasFile bootDeployment.store.files default = true := by
    decide +kernel
  have hPlain : (default : ScriptName).beginsBlank = false := by decide
  have hTaken : (removeScript default bootDeployment.store).1 = .ok () := by decide +kernel
  have hRemove : removeScript default bootDeployment.store =
      (.ok (), (removeScript default bootDeployment.store).2) := Prod.ext hTaken rfl
  have hLooked : Reaches Unhurried (quiet bootDeployment.store) _ :=
    .step (a := .look 0 default) .refl (.look rfl hFound) hPlain
  have hBegun := hLooked.step (.begin (n := default) rfl) trivial
  have hRemoved := hBegun.step (.remove withDeletion_self hRemove) trivial
  have hWritten := hRemoved.step (.write (i := 0) (n := default) rfl) trivial
  have hForgot := hWritten.step (.forget (n := default)
    (by simp [withChoice, after, withGone, withDeletion])) trivial
  have hLogless := hForgot.step (.removeLog (n := default) withDeletion_self) trivial
  have hUnchosen : ∀ i, Function.update (Function.update (fun _ => none) 0 (some default)) 0 none i ≠
      some (default : ScriptName) := by
    intro i
    rw [Function.update_idem, Function.update_eq_self_iff.mpr rfl]
    nofun
  have hCleared := hLogless.step (.clear (n := default) withDeletion_self) hUnchosen
  have hGone : Function.update (fun _ => false) (default : ScriptName) true default = true :=
    Function.update_self ..
  refine ⟨_, hCleared, hGone, withDeletion_self, fun hDesignated => ?_⟩
  have hThere := (deleted_scripts_not_designated (r := none) bootDeployment_kept bootDeployment_named
    (by decide +kernel) hCleared).2 default hDesignated withDeletion_self
  cases hGone.symm.trans hThere

/-- **A setting that is overtaken by a deletion.** It finds the script, the deletion runs from its
beginning to its end, and then the setting writes. Nothing is under way any more, and the script that
was deleted is designated. -/
theorem overtaken_setting :
    ∃ w, Reaches AnyStep (quiet bootDeployment.store) w ∧ (∀ i, w.choices i = none) ∧
      (∀ n, w.deletions n = none) ∧ w.gone default = true ∧
      w.store.designated = .ok (some "a.py") := by
  have hFound : bootDeployment.store.registry.hasFile bootDeployment.store.files default = true := by
    decide +kernel
  have hDone : (retireScript default bootDeployment.store).1 = .ok () := by decide +kernel
  have hLooked : Reaches AnyStep (quiet bootDeployment.store) _ :=
    Reaches.refl.next (.look (i := 0) (n := default) rfl hFound)
  obtain ⟨gone, hDeleted, hGone⟩ := retireScript_alone
    (w := (quiet bootDeployment.store).withChoice 0 (some default)) (n := default) rfl
  have hWritten := (hLooked.trans hDeleted).next (.write (i := 0) (n := default) rfl)
  refine ⟨_, hWritten, fun i => ?_, fun _ => rfl, hGone hDone, ?_⟩
  · show Function.update (Function.update (fun _ => none) 0 (some default)) 0 none i = none
    rw [Function.update_idem]
    exact congrFun (Function.update_eq_self ..) i
  · show (writeDesignation default (retireScript default bootDeployment.store).2).2.designated = _
    decide +kernel

end Designating

end ScriptWarden
