import Mathlib.Logic.Function.Basic
import ScriptWarden.Proofs.BootRegister

/-!
# Registrars of one designation

A service and a command line may set the boot script of one host at the same time. Each has a
registrar of its own, whose lock its settings, clears and readings wait for; nothing makes the
registrars wait for each other. A setting looks whether there is a file for the script, takes the lock,
makes the directory of the designation, opens the draft, writes the name to what it opened, and gives
the draft the name of the designation. Each of these is one step, and may fail; a reading opens the
file and reads what it opened.

All settings write the same draft. As long as nobody opens it while another has it open, the
designation is a register: a reader finds the last name that was set, as that is read, and what fails
changes nothing. Within one registrar the lock sees to that; between two of them nothing does, and then
one may write to the file that the other has just made the designation (`torn_by_two_registrars`). The
draft is to be another file than the designation: where the path ends in the extension of drafts it is
the same, and what is written is seen in the making (`torn_in_place`).

## Results

* `designate_alone`, `clearDesignationOf_alone` — the steps in a row are what the service does when
  nothing comes between.
* `undisturbed_of_one` — with one registrar nobody opens a draft that another has open.
* `Sound.step` — what every step keeps.
* `designation_is_shared_register` — the law.
-/

namespace ScriptWarden

-- ---------------------------------------------------------------------------
-- Writing over what a file holds
-- ---------------------------------------------------------------------------

/-- Write to the beginning of an open file; what it holds beyond that stays. -/
def Files.overwrite (fs : Files) (now : Timestamp) (id : FileId) (bytes : List UInt8) : Files :=
  fs.setBody id { bytes := bytes ++ (fs.body id).bytes.drop bytes.length, modified := now }

/-- A file that holds nothing is written to at its end. -/
theorem Files.overwrite_empty {fs : Files} {now : Timestamp} {id : FileId} (bytes : List UInt8)
    (hEmpty : (fs.body id).bytes = []) : fs.overwrite now id bytes = fs.append now id bytes := by
  rw [overwrite, append, hEmpty]
  simp

/-- A file that has been opened for writing holds nothing. -/
theorem Files.openEmpty_bytes {fs fs' : Files} {now : Timestamp} {path : String} {id : FileId}
    (hOpen : fs.openEmpty now path = .ok (id, fs')) : (fs'.body id).bytes = [] := by
  rw [openEmpty] at hOpen
  cases hPlace : fs.place path with
  | error f => simp [hPlace, bind, Except.bind] at hOpen
  | ok q =>
    simp only [hPlace, bind, Except.bind] at hOpen
    split at hOpen <;> cases hOpen <;> rw [body_setBody, if_pos rfl]

/-- What a reader makes of the bytes of a designation. -/
def nameIn (bytes : List UInt8) : Except Fault (Option String) :=
  match decodeUtf8? bytes with
  | none => .error (.io .notText)
  | some text => .ok (if (trimBlanks text).isEmpty then none else some (trimBlanks text))

-- ---------------------------------------------------------------------------
-- What is under way
-- ---------------------------------------------------------------------------

/-- What came of a setting or a clear. -/
inductive Outcome where
  | set (n : ScriptName)
  /-- A setting of a script failed. -/
  | failed (n : ScriptName)
  | cleared
deriving DecidableEq, Repr

/-- What comes of a setting that is answered so. -/
def Outcome.ofAnswer (n : ScriptName) : Except Fault Unit → Outcome
  | .ok _ => .set n
  | .error _ => .failed n

/-- What a register holds after outcomes, newest first. -/
def Outcome.value (first : Option String) : List Outcome → Option String
  | [] => first
  | .set n :: _ => some n.designation
  | .failed _ :: earlier => value first earlier
  | .cleared :: _ => none

/-- How far a call has come. -/
inductive CallStage where
  /-- A setting has found its script, and waits for the lock. -/
  | found (n : ScriptName)
  | locked (n : ScriptName)
  /-- The directory of the designation is there. -/
  | ready (n : ScriptName)
  /-- The draft is open, and empty. -/
  | opened (n : ScriptName) (id : FileId)
  | written (n : ScriptName) (id : FileId)
  /-- A clear of one name has found that name. -/
  | matched
  /-- A reading has opened the designation; what had come of the others till then. -/
  | reading (id : FileId) (since : List Outcome)

namespace CallStage

/-- Whether a call holds the lock of its registrar. -/
def HoldsLock : CallStage → Prop
  | found _ => False
  | _ => True

/-- The draft that a call has open, and what it has written to it. -/
def draft? : CallStage → Option (FileId × List UInt8)
  | opened _ id => some (id, [])
  | written n id => some (id, Store.designationBytes n)
  | _ => none

theorem holdsLock_of_draft? {stage : CallStage} {draft : FileId × List UInt8}
    (h : stage.draft? = some draft) : stage.HoldsLock := by
  cases stage <;> trivial

end CallStage

/-- A call to a registrar. -/
structure RegistrarCall where
  registrar : Nat
  stage : CallStage

/-- A store whose designation several registrars keep, the calls under way, each under a number of its
own, and what has come of those that are over, newest first, which is kept for statements only. -/
structure Registrars where
  store : Store
  calls : Nat → Option RegistrarCall
  past : List Outcome

namespace Registrars

open Store

variable {w w' : Registrars} {i k : Nat} {n m : ScriptName} {r : Option String}

/-- A store that nobody has called about. -/
def quiet (s : Store) : Registrars := { store := s, calls := fun _ => none, past := [] }

/-- The files come to be others. -/
def withFiles (w : Registrars) (files : Files) : Registrars :=
  { w with store := { w.store with files } }

/-- A call comes to be at something else, or is over. -/
def withCall (w : Registrars) (i : Nat) (call : Option RegistrarCall) : Registrars :=
  { w with calls := Function.update w.calls i call }

/-- Something has come of a call. -/
def note (w : Registrars) (outcome : Outcome) : Registrars := { w with past := outcome :: w.past }

/-- Nobody holds the lock of a registrar. -/
def Free (w : Registrars) (k : Nat) : Prop :=
  ∀ i call, w.calls i = some call → call.registrar = k → ¬ call.stage.HoldsLock

/-- Making the directory of the designation, if its path names one. -/
def makeDirectory (s : Store) : Except IoFault Files :=
  match s.site.designationDir? with
  | none => .ok s.files
  | some directory => s.files.makeDirectories (s.site.seen directory)

/-- The designation or its draft. -/
def IsConcerned (site : Site) (path : String) : Prop :=
  path = site.autobootFile ∨ path = site.designationDraft

/-- Files that differ as far as the designation and its draft are not concerned. -/
structure Beside (site : Site) (fs fs' : Files) : Prop where
  kept : site.DesignationKept fs → site.DesignationKept fs'
  places : ∀ {path : String} {q : FilePlace}, IsConcerned site path →
    (fs'.place (site.seen path) false = .ok q ↔ fs.place (site.seen path) false = .ok q)
  entries : ∀ {path : String} {q : FilePlace}, IsConcerned site path →
    fs.place (site.seen path) false = .ok q → fs'.entryAt? q = fs.entryAt? q
  bodies : ∀ {path : String} {q : FilePlace} {id : FileId}, IsConcerned site path →
    fs.place (site.seen path) false = .ok q → fs.entryAt? q = some (.file id) →
    fs'.body id = fs.body id
  next : fs.nextId ≤ fs'.nextId

-- ---------------------------------------------------------------------------
-- Steps
-- ---------------------------------------------------------------------------

/-- What takes a step. -/
inductive Act where
  /-- A setting opens the draft. -/
  | openDraft
  | other

/-- One step of a setting, a clear or a reading, or of what goes on around them. -/
inductive Step (w : Registrars) : Act → Registrars → Prop
  | look (i k : Nat) (n : ScriptName) : w.calls i = none →
      w.store.registry.hasFile w.store.files n = true →
      Step w .other (w.withCall i (some ⟨k, .found n⟩))
  | lookFails (n : ScriptName) : w.store.registry.hasFile w.store.files n = false →
      Step w .other (w.note (.failed n))
  | lock {i k : Nat} {n : ScriptName} : w.calls i = some ⟨k, .found n⟩ → w.Free k →
      Step w .other (w.withCall i (some ⟨k, .locked n⟩))
  | makeDirectory {i k : Nat} {n : ScriptName} {files : Files} :
      w.calls i = some ⟨k, .locked n⟩ → makeDirectory w.store = .ok files →
      Step w .other ((w.withFiles files).withCall i (some ⟨k, .ready n⟩))
  | openDraft {i k : Nat} {n : ScriptName} {id : FileId} {files : Files} :
      w.calls i = some ⟨k, .ready n⟩ →
      w.store.files.openEmpty w.store.now (w.store.site.seen w.store.site.designationDraft) =
        .ok (id, files) →
      Step w .openDraft ((w.withFiles files).withCall i (some ⟨k, .opened n id⟩))
  | write {i k : Nat} {n : ScriptName} {id : FileId} : w.calls i = some ⟨k, .opened n id⟩ →
      Step w .other ((w.withFiles (w.store.files.overwrite w.store.now id (designationBytes n))).withCall
        i (some ⟨k, .written n id⟩))
  /-- The host takes a part of the name only. -/
  | writeFails {i k : Nat} {n : ScriptName} {id : FileId} {part : List UInt8} :
      w.calls i = some ⟨k, .opened n id⟩ → part <+: designationBytes n →
      Step w .other (((w.withFiles (w.store.files.overwrite w.store.now id part)).withCall i none).note
        (.failed n))
  | rename {i k : Nat} {n : ScriptName} {id : FileId} {files : Files} :
      w.calls i = some ⟨k, .written n id⟩ →
      w.store.files.rename (w.store.site.seen w.store.site.designationDraft)
        (w.store.site.seen w.store.site.autobootFile) = .ok files →
      Step w .other (((w.withFiles files).withCall i none).note (.set n))
  /-- The directory cannot be made, the draft not be opened, or not be given its name. -/
  | fails {i k : Nat} {n : ScriptName} {stage : CallStage} : w.calls i = some ⟨k, stage⟩ →
      stage = .locked n ∨ stage = .ready n ∨ (∃ id, stage = .written n id) →
      Step w .other ((w.withCall i none).note (.failed n))
  | clear {k : Nat} {t : Store} : w.Free k → clearDesignation w.store = (.ok (), t) →
      Step w .other ({ w with store := t }.note .cleared)
  | finds (i : Nat) {k : Nat} {name : String} : w.calls i = none → w.Free k →
      w.store.designated = .ok (some name) → Step w .other (w.withCall i (some ⟨k, .matched⟩))
  | clearMatched {i k : Nat} {t : Store} : w.calls i = some ⟨k, .matched⟩ →
      clearDesignation w.store = (.ok (), t) →
      Step w .other (({ w with store := t }.withCall i none).note .cleared)
  | openToRead (i : Nat) {k : Nat} {q : FilePlace} {id : FileId} : w.calls i = none → w.Free k →
      w.store.files.existing (w.store.site.seen w.store.site.autobootFile) = .ok (q, .file id) →
      Step w .other (w.withCall i (some ⟨k, .reading id w.past⟩))
  /-- A clear of one name fails, or a reading is done. -/
  | leave {i k : Nat} {stage : CallStage} : w.calls i = some ⟨k, stage⟩ →
      stage = .matched ∨ (∃ id since, stage = .reading id since) →
      Step w .other (w.withCall i none)
  /-- The time goes on, analyses are remembered, and files change, but not those that are concerned. -/
  | elsewhere {s : Store} : s.site = w.store.site →
      Beside w.store.site w.store.files s.files →
      (∀ i k id since, w.calls i = some ⟨k, .reading id since⟩ →
        s.files.body id = w.store.files.body id) →
      Step w .other { w with store := s }

/-- What runs lead to, when every step is one that the condition allows. -/
inductive Reaches (Allowed : Registrars → Act → Prop) (w₀ : Registrars) : Registrars → Prop
  | refl : Reaches Allowed w₀ w₀
  | step {w w' : Registrars} {a : Act} :
      Reaches Allowed w₀ w → Step w a w' → Allowed w a → Reaches Allowed w₀ w'

/-- No condition on the steps of a run. -/
def AnyStep (_ : Registrars) (_ : Act) : Prop := True

/-- Nobody opens the draft while another has it open. -/
def Undisturbed (w : Registrars) : Act → Prop
  | .openDraft => ∀ i call, w.calls i = some call → call.stage.draft? = none
  | .other => True

/-- All calls are to one registrar. -/
def OnlyOne (k : Nat) (w : Registrars) (_ : Act) : Prop :=
  ∀ i call, w.calls i = some call → call.registrar = k

theorem Reaches.next {w₀ : Registrars} {a : Act} (hReach : Reaches AnyStep w₀ w)
    (hStep : Step w a w') : Reaches AnyStep w₀ w' := .step hReach hStep trivial

-- ---------------------------------------------------------------------------
-- Calls by themselves
-- ---------------------------------------------------------------------------

theorem withCall_self {call : Option RegistrarCall} : (w.withCall i call).calls i = call :=
  Function.update_self ..

/-- The call that is under way is the only one besides those that were. -/
theorem free_withCall (hFree : w.Free k) {stage : CallStage} (hWaits : ¬ stage.HoldsLock) :
    (w.withCall i (some ⟨k, stage⟩)).Free k := by
  intro j call hCall hRegistrar
  by_cases hj : j = i
  · subst hj
    rw [withCall_self] at hCall
    cases hCall
    exact hWaits
  · exact hFree j call ((Function.update_of_ne hj ..).symm.trans hCall) hRegistrar

/-- What a setting comes to, step by step. -/
theorem designate_apply (n : ScriptName) (s : Store) :
    designate n s = if s.registry.hasFile s.files n = true then
        match makeDirectory s with
        | .error f => (.error (.io f), s)
        | .ok files => placeFile s.site.designationDraft s.site.autobootFile (designationBytes n)
            (fun _ => none) { s with files }
      else (.error (.notFound n.text), s) := by
  have hLook : view (fun t => .ok (t.registry.hasFile t.files n)) s =
      (.ok (s.registry.hasFile s.files n), s) := rfl
  rw [designate, Work.bind_ok hLook]
  cases s.registry.hasFile s.files n with
  | false => rfl
  | true =>
    show writeDesignation n s = _
    rw [writeDesignation, Work.bind_ok (Work.get_apply s), if_pos rfl, makeDirectory]
    cases s.site.designationDir? with
    | none => rfl
    | some directory =>
      simp only
      rw [Work.bind_apply]
      simp only [change]
      cases s.files.makeDirectories (s.site.seen directory) <;> rfl

/-- What a setting comes to when nothing comes between its steps. -/
theorem designate_alone (hIdle : w.calls i = none) (hFree : w.Free k) (n : ScriptName) :
    Reaches AnyStep w { w with
      store := (designate n w.store).2
      past := .ofAnswer n (designate n w.store).1 :: w.past } := by
  -- with the call over, only the store and the past differ
  have hOver : ∀ store past, (⟨store, Function.update w.calls i none, past⟩ : Registrars) =
      ⟨store, w.calls, past⟩ := by
    intro store past
    rw [← hIdle, Function.update_eq_self]
  rw [designate_apply]
  by_cases hThere : w.store.registry.hasFile w.store.files n = true
  swap
  · rw [if_neg hThere]
    exact Reaches.refl.next (.lookFails n (by simpa using hThere))
  rw [if_pos hThere]
  have hFound : Reaches AnyStep w _ := Reaches.refl.next (.look i k n hIdle hThere)
  have hLocked := hFound.next (.lock (k := k) (n := n) withCall_self (free_withCall hFree id))
  cases hMade : makeDirectory w.store with
  | error f =>
    have hFailed := hLocked.next (.fails (n := n) withCall_self (Or.inl rfl))
    simpa only [withCall, note, Outcome.ofAnswer, Function.update_idem, hOver] using hFailed
  | ok files =>
    have hReady := hLocked.next (.makeDirectory withCall_self hMade)
    simp only
    rw [placeFile_unhindered]
    have hSite : ({ w.store with files } : Store).site = w.store.site := rfl
    rw [hSite]
    cases hOpen : files.openEmpty w.store.now (w.store.site.seen w.store.site.designationDraft) with
    | error f =>
      have hFailed := hReady.next (.fails (n := n) withCall_self (Or.inr (Or.inl rfl)))
      simpa only [withCall, withFiles, note, Outcome.ofAnswer, Function.update_idem, hOver]
        using hFailed
    | ok opened =>
      obtain ⟨id, opened⟩ := opened
      have hOpened := hReady.next (.openDraft withCall_self hOpen)
      have hWritten := hOpened.next (.write withCall_self)
      have hEmpty := Files.openEmpty_bytes hOpen
      simp only [withCall, withFiles, Function.update_idem,
        Files.overwrite_empty (designationBytes n) hEmpty] at hWritten
      simp only
      cases hRename : (opened.append w.store.now id (designationBytes n)).rename
          (w.store.site.seen w.store.site.designationDraft)
          (w.store.site.seen w.store.site.autobootFile) with
      | error f =>
        have hFailed := hWritten.next (.fails (n := n) (Function.update_self ..)
          (Or.inr (Or.inr ⟨id, rfl⟩)))
        simpa only [withCall, note, Outcome.ofAnswer, Function.update_idem, hOver] using hFailed
      | ok files =>
        have hDone := hWritten.next (.rename (Function.update_self ..) hRename)
        simpa only [withCall, withFiles, note, Outcome.ofAnswer, Function.update_idem, hOver]
          using hDone

/-- What a clear of one name comes to when nothing comes between its steps. -/
theorem clearDesignationOf_alone (hIdle : w.calls i = none) (hFree : w.Free k) (name : String) :
    ∃ past, Reaches AnyStep w { w with store := (clearDesignationOf name w.store).2, past } ∧
      ((clearDesignationOf name w.store).1 = .ok true → past = .cleared :: w.past) := by
  have hOver : ∀ store past, (⟨store, Function.update w.calls i none, past⟩ : Registrars) =
      ⟨store, w.calls, past⟩ := by
    intro store past
    rw [← hIdle, Function.update_eq_self]
  unfold clearDesignationOf
  cases hFound : w.store.designated with
  | error f =>
    have hLook : view Store.designated w.store = (.error f, w.store) := by rw [view, hFound]
    rw [Work.bind_error hLook]
    exact ⟨w.past, .refl, fun hDone => by cases hDone⟩
  | ok found =>
    have hLook : view Store.designated w.store = (.ok found, w.store) := by rw [view, hFound]
    rw [Work.bind_ok hLook]
    by_cases hName : found = some name
    swap
    · rw [if_pos (by simpa using hName)]
      exact ⟨w.past, .refl, fun hDone => by cases hDone⟩
    subst hName
    rw [if_neg (by simp), Work.bind_apply]
    have hMatched : Reaches AnyStep w _ := Reaches.refl.next (.finds i hIdle hFree hFound)
    rcases hClear : clearDesignation w.store with ⟨f | ⟨⟩, t⟩
    · have hLeft := hMatched.next (.leave withCall_self (Or.inl rfl))
      have hSame : t = w.store := by
        unfold clearDesignation at hClear
        split at hClear <;> cases hClear
        rfl
      refine ⟨w.past, ?_, fun hDone => by cases hDone⟩
      rw [hSame]
      simpa only [withCall, Function.update_idem, hOver] using hLeft
    · have hCleared := hMatched.next (.clearMatched withCall_self hClear)
      refine ⟨.cleared :: w.past, ?_, fun _ => rfl⟩
      show Reaches AnyStep w { w with store := t, past := .cleared :: w.past }
      simpa only [withCall, note, Function.update_idem, hOver] using hCleared

-- ---------------------------------------------------------------------------
-- One registrar
-- ---------------------------------------------------------------------------

/-- No two calls hold the lock of one registrar. -/
def Exclusive (w : Registrars) : Prop :=
  ∀ i j call call', w.calls i = some call → w.calls j = some call' →
    call.registrar = call'.registrar → call.stage.HoldsLock → call'.stage.HoldsLock → i = j

/-- A call that gets the lock gets one that is free; any other had it before. -/
theorem Exclusive.withCall (h : Exclusive w) {call? : Option RegistrarCall}
    (hLock : ∀ call, call? = some call → call.stage.HoldsLock →
      w.Free call.registrar ∨ ∃ before, w.calls i = some before ∧
        before.registrar = call.registrar ∧ before.stage.HoldsLock) :
    Exclusive (w.withCall i call?) := by
  -- whoever holds the lock beside the call held it before
  have hOther : ∀ j call call', j ≠ i → (w.withCall i call?).calls j = some call' →
      call? = some call → call.registrar = call'.registrar → call.stage.HoldsLock →
      call'.stage.HoldsLock → False := by
    intro j call call' hj hCall' hCall hSame hHolds hHolds'
    have hBefore : w.calls j = some call' := (Function.update_of_ne hj ..).symm.trans hCall'
    rcases hLock call hCall hHolds with hFree | ⟨before, hThere, hRegistrar, hHeld⟩
    · exact hFree j call' hBefore hSame.symm hHolds'
    · exact hj (h i j before call' hThere hBefore (hRegistrar.trans hSame) hHeld hHolds').symm
  intro j j' call call' hCall hCall' hSame hHolds hHolds'
  by_cases hj : j = i
  · by_cases hj' : j' = i
    · exact hj.trans hj'.symm
    · subst hj
      rw [withCall_self] at hCall
      exact (hOther j' call call' hj' hCall' hCall hSame hHolds hHolds').elim
  · by_cases hj' : j' = i
    · subst hj'
      rw [withCall_self] at hCall'
      exact (hOther j call' call hj hCall hCall' hSame.symm hHolds' hHolds).elim
    · exact h j j' call call' ((Function.update_of_ne hj ..).symm.trans hCall)
        ((Function.update_of_ne hj' ..).symm.trans hCall') hSame hHolds hHolds'

theorem Exclusive.step (h : Exclusive w) {a : Act} (hStep : Step w a w') : Exclusive w' := by
  have hOver : ∀ i, Exclusive (w.withCall i none) := fun i => h.withCall nofun
  -- a call that held the lock holds it on
  have hOn : ∀ {i k stage} stage', w.calls i = some ⟨k, stage⟩ → stage.HoldsLock →
      Exclusive (w.withCall i (some ⟨k, stage'⟩)) := by
    intro i k stage stage' hCall hHeld
    refine h.withCall fun call hNew _ => Or.inr ⟨_, hCall, ?_, hHeld⟩
    cases hNew
    rfl
  have hFresh : ∀ {i k stage}, w.Free k → Exclusive (w.withCall i (some ⟨k, stage⟩)) := by
    intro i k stage hFree
    refine h.withCall fun call hNew _ => Or.inl ?_
    cases hNew
    exact hFree
  cases hStep with
  | look i k n =>
    refine h.withCall fun call hNew hHolds => ?_
    cases hNew
    exact hHolds.elim
  | lookFails n => exact h
  | lock hCall hFree => exact hFresh hFree
  | makeDirectory hCall _ => exact hOn (.ready _) hCall trivial
  | openDraft hCall _ => exact hOn (.opened _ _) hCall trivial
  | write hCall => exact hOn (.written _ _) hCall trivial
  | writeFails _ _ => exact hOver _
  | rename _ _ => exact hOver _
  | fails _ _ => exact hOver _
  | clear _ _ => exact h
  | finds i _ hFree _ => exact hFresh hFree
  | clearMatched _ _ => exact hOver _
  | openToRead i _ hFree _ => exact hFresh hFree
  | leave _ _ => exact hOver _
  | elsewhere _ _ _ => exact h

/-- **With one registrar nobody opens a draft that another has open.** -/
theorem undisturbed_of_one {s : Store} (hReach : Reaches (OnlyOne k) (quiet s) w) :
    Reaches Undisturbed (quiet s) w ∧ Exclusive w := by
  induction hReach with
  | refl => exact ⟨.refl, nofun⟩
  | step _ hStep hOne ih =>
    obtain ⟨hReach, hExclusive⟩ := ih
    refine ⟨hReach.step hStep ?_, hExclusive.step hStep⟩
    cases hStep with
    | openDraft hReady hOpen =>
      intro j call hCall
      cases hDraft : call.stage.draft? with
      | none => rfl
      | some draft =>
        -- it would hold the lock that the call holds that opens the draft
        have hSame := hExclusive _ _ _ _ hReady hCall ((hOne _ _ hReady).trans (hOne _ _ hCall).symm)
          trivial (CallStage.holdsLock_of_draft? hDraft)
        subst hSame
        cases hReady.symm.trans hCall
        cases hDraft
    | _ => trivial

-- ---------------------------------------------------------------------------
-- The designation and its draft
-- ---------------------------------------------------------------------------

section

variable {site : Site} {fs fs' : Files} {id j : FileId} {v u : Option String} {b : List UInt8}
  {now : Timestamp}

/-- The designation is kept in another file than its draft, and names something or nothing. -/
structure Shared (site : Site) (fs : Files) (v : Option String) : Prop where
  kept : site.DesignationKept fs
  apart : ∀ {q : FilePlace}, fs.place (site.seen site.autobootFile) false = .ok q →
    fs.place (site.seen site.designationDraft) false ≠ .ok q
  names : site.Names fs v

/-- The draft is this file, and holds this. -/
def HoldsDraft (site : Site) (fs : Files) (id : FileId) (b : List UInt8) : Prop :=
  ∃ q, fs.place (site.seen site.designationDraft) false = .ok q ∧
    fs.entryAt? q = some (.file id) ∧ (fs.body id).bytes = b

/-- A file that was opened as the designation: it names this, and is not the draft. -/
structure Opened (site : Site) (fs : Files) (id : FileId) (v : Option String) : Prop where
  reads : nameIn (fs.body id).bytes = .ok v
  notDraft : ∀ {q : FilePlace}, fs.place (site.seen site.designationDraft) false = .ok q →
    fs.entryAt? q ≠ some (.file id)
  below : id < fs.nextId

/-- What was opened as the designation is not the draft. -/
theorem Opened.ne_draft (h : Opened site fs j v) (hDraft : HoldsDraft site fs id b) : j ≠ id := by
  rintro rfl
  obtain ⟨q, hPlace, hEntry, -⟩ := hDraft
  exact h.notDraft hPlace hEntry

theorem apart_of_ways (hWays : Files.SameWays fs fs') (h : Shared site fs v) {q : FilePlace}
    (hPlace : fs'.place (site.seen site.autobootFile) false = .ok q) :
    fs'.place (site.seen site.designationDraft) false ≠ .ok q := fun hDraft =>
  h.apart ((Files.place_ok_iff hWays).mp hPlace) ((Files.place_ok_iff hWays).mp hDraft)

/-- Writing to the draft changes neither what is designated nor what was opened as that. -/
theorem Shared.write (h : Shared site fs v) (hDraft : HoldsDraft site fs id [])
    (now : Timestamp) (bytes : List UInt8) :
    Shared site (fs.overwrite now id bytes) v ∧ HoldsDraft site (fs.overwrite now id bytes) id bytes ∧
      ∀ {j u}, Opened site fs j u → Opened site (fs.overwrite now id bytes) j u := by
  obtain ⟨p, hPlace, hEntry, hEmpty⟩ := hDraft
  have hBody : ∀ j, j ≠ id → (fs.overwrite now id bytes).body j = fs.body j := by
    intro j hj
    rw [Files.overwrite, Files.body_setBody, if_neg hj]
  -- every name stays, and no file has the identity of the next new one
  have hEdit : Site.Edit fs (fs.overwrite now id bytes) p fs.nextId := ⟨fun _ => rfl,
    fun q j hFile => Or.inr ⟨Nat.ne_of_lt (h.kept.settled.fresh hFile), hFile⟩, Nat.le_refl _⟩
  refine ⟨⟨h.kept.edit hEdit, apart_of_ways hEdit.ways h, ?_⟩,
    ⟨p, (Files.place_ok_iff hEdit.ways).mpr hPlace, hEntry, ?_⟩, ?_⟩
  · refine h.names.congr hEdit.ways (fun _ _ => rfl) fun q j hDesignation hFile => hBody j ?_
    rintro rfl
    obtain rfl : q = p := h.kept.draftOneName hPlace hEntry hFile
    exact h.apart hDesignation hPlace
  · rw [Files.overwrite, Files.body_setBody, if_pos rfl, hEmpty]
    simp
  · intro j u hOpened
    have hOther := hOpened.ne_draft ⟨p, hPlace, hEntry, rfl⟩
    refine ⟨by rw [hBody j hOther]; exact hOpened.reads, fun {q} hDraft => ?_, hOpened.below⟩
    exact hOpened.notDraft ((Files.place_ok_iff hEdit.ways).mp hDraft)

/-- The draft that is opened is the one that was left, or a new one. -/
theorem opened_id {path : String} (hOpen : fs.openEmpty now path = .ok (id, fs')) :
    (∃ q, fs.entryAt? q = some (.file id)) ∨ id = fs.nextId := by
  rw [Files.openEmpty] at hOpen
  cases hPlace : fs.place path with
  | error f => simp [hPlace, bind, Except.bind] at hOpen
  | ok q =>
    simp only [hPlace, bind, Except.bind] at hOpen
    split at hOpen
    · next hEntry =>
      cases hOpen
      exact Or.inl ⟨q, hEntry⟩
    · cases hOpen
    · cases hOpen
      exact Or.inr rfl

/-- Opening the draft changes neither what is designated nor what was opened as that. -/
theorem Shared.openDraft (h : Shared site fs v)
    (hOpen : fs.openEmpty now (site.seen site.designationDraft) = .ok (id, fs')) :
    Shared site fs' v ∧ HoldsDraft site fs' id [] ∧
      ∀ {j u}, Opened site fs j u → Opened site fs' j u := by
  obtain ⟨p, hPlace, hDrafted⟩ := Site.drafted_of_plain h.kept.settled
    (fun _ _ => h.kept.draftNoLink) (fun _ _ _ => h.kept.draftOneName) hOpen
  have hPlace' := (Files.place_ok_iff hDrafted.ways).mpr hPlace
  have hEntry : fs'.entryAt? p = some (.file id) := (hDrafted.entry p).trans (if_pos rfl)
  refine ⟨⟨h.kept.edit hDrafted.edit, apart_of_ways hDrafted.ways h,
    h.names.drafted hDrafted fun hSame => h.apart hSame hPlace⟩,
    ⟨p, hPlace', hEntry, hDrafted.bytes⟩, ?_⟩
  intro j u hOpened
  have hOther : j ≠ id := by
    rintro rfl
    rcases opened_id hOpen with ⟨q, hLeft⟩ | hNew
    · obtain rfl := hDrafted.own q hLeft
      exact hOpened.notDraft hPlace hLeft
    · exact Nat.lt_irrefl _ (hNew ▸ hOpened.below)
  refine ⟨by rw [hDrafted.bodies j hOther]; exact hOpened.reads, fun {q} hDraft hFile => ?_,
    Nat.lt_of_lt_of_le hOpened.below hDrafted.next⟩
  cases hPlace'.symm.trans hDraft
  cases hEntry.symm.trans hFile
  exact hOther rfl

/-- A draft with the name of a script that becomes the designation designates the script. -/
theorem Shared.rename (h : Shared site fs v) (hDraft : HoldsDraft site fs id (designationBytes n))
    (hRename : fs.rename (site.seen site.designationDraft) (site.seen site.autobootFile) = .ok fs') :
    Shared site fs' (some n.designation) ∧ ∀ {j u}, Opened site fs j u → Opened site fs' j u := by
  obtain ⟨p, hSource, hFile, hBytes⟩ := hDraft
  have hOther : ∀ q, fs.place (site.seen site.autobootFile) false = .ok q → q ≠ p := by
    rintro q hPlace rfl
    exact h.apart hPlace hSource
  obtain ⟨q, hTarget, hMoved⟩ := Site.moved_of_rename hSource hFile
    (fun _ _ => h.kept.settled.noLinks .designation) hOther hRename
  have hOwn : ∀ x, fs.entryAt? x = some (.file id) → x = p :=
    fun x hEntry => h.kept.draftOneName hSource hFile hEntry
  refine ⟨⟨h.kept.edit (hMoved.edit h.kept.settled hFile hOwn), apart_of_ways hMoved.ways h,
    names_of_written ((Files.place_ok_iff hMoved.ways).mpr hTarget)
      ((hMoved.entry q).trans (if_pos rfl)) (by rw [hMoved.body]; exact hBytes)⟩, ?_⟩
  intro j u hOpened
  refine ⟨by rw [hMoved.body]; exact hOpened.reads, fun {x} hPlace hEntry => ?_,
    hMoved.next ▸ hOpened.below⟩
  -- nothing is left at the place of the draft
  cases hSource.symm.trans ((Files.place_ok_iff hMoved.ways).mp hPlace)
  rw [hMoved.entry, if_neg (hOther q hTarget).symm, if_pos rfl] at hEntry
  cases hEntry

/-- Removing what is designated leaves the draft, and what was opened. -/
theorem Shared.removed (h : Shared site fs v) {q : FilePlace}
    (hPlace : fs.place (site.seen site.autobootFile) false = .ok q) (hRemoved : Site.Removed fs q fs') :
    Shared site fs' none ∧ (∀ {id b}, HoldsDraft site fs id b → HoldsDraft site fs' id b) ∧
      ∀ {j u}, Opened site fs j u → Opened site fs' j u := by
  refine ⟨⟨h.kept.edit (hRemoved.edit h.kept.settled), apart_of_ways hRemoved.ways h, ?_⟩, ?_, ?_⟩
  · exact ⟨q, (Files.place_ok_iff hRemoved.ways).mpr hPlace,
      Or.inl ⟨(hRemoved.entry q).trans (if_pos rfl), rfl⟩⟩
  · rintro id b ⟨p, hDraft, hEntry, hBytes⟩
    have hApart : p ≠ q := by
      rintro rfl
      exact h.apart hPlace hDraft
    refine ⟨p, (Files.place_ok_iff hRemoved.ways).mpr hDraft, ?_, ?_⟩
    · rw [hRemoved.entry, if_neg hApart, hEntry]
    · rw [hRemoved.body, hBytes]
  · intro j u hOpened
    refine ⟨by rw [hRemoved.body]; exact hOpened.reads, fun {x} hDraft hEntry => ?_,
      hRemoved.next ▸ hOpened.below⟩
    rw [hRemoved.entry] at hEntry
    split at hEntry
    · cases hEntry
    · exact hOpened.notDraft ((Files.place_ok_iff hRemoved.ways).mp hDraft) hEntry

/-- The file that is opened as the designation names what is designated. -/
theorem Shared.openToRead (h : Shared site fs v) {q : FilePlace}
    (hOpen : fs.existing (site.seen site.autobootFile) = .ok (q, .file id)) :
    Opened site fs id v := by
  obtain ⟨hFollow, hFile⟩ := Files.existing_eq_ok.mp hOpen
  obtain ⟨q', hPlace, rfl | ⟨t, hLink⟩⟩ := Files.place_noFollow hFollow
  swap
  · exact absurd hLink (h.kept.settled.noLinks .designation hPlace)
  refine ⟨?_, fun {x} hDraft hEntry => ?_, h.kept.settled.fresh hFile⟩
  · obtain ⟨q, hPlace', hNames⟩ := h.names
    cases hPlace.symm.trans hPlace'
    rcases hNames with ⟨hNone, -⟩ | ⟨id', text, hFile', hText, rfl⟩
    · cases hFile.symm.trans hNone
    · cases hFile.symm.trans hFile'
      rw [nameIn, hText]
  · obtain rfl := h.kept.draftOneName hDraft hEntry hFile
    exact h.apart hPlace hDraft

theorem Beside.shared (hBeside : Beside site fs fs') (h : Shared site fs v) : Shared site fs' v where
  kept := hBeside.kept h.kept
  apart hPlace hDraft :=
    h.apart ((hBeside.places (Or.inl rfl)).mp hPlace) ((hBeside.places (Or.inr rfl)).mp hDraft)
  names := by
    obtain ⟨q, hPlace, hNames⟩ := h.names
    have hEntry := hBeside.entries (Or.inl rfl) hPlace
    refine ⟨q, (hBeside.places (Or.inl rfl)).mpr hPlace, ?_⟩
    rcases hNames with ⟨hNone, hv⟩ | ⟨id, text, hFile, hText, hv⟩
    · exact Or.inl ⟨hEntry.trans hNone, hv⟩
    · refine Or.inr ⟨id, text, hEntry.trans hFile, ?_, hv⟩
      rw [hBeside.bodies (Or.inl rfl) hPlace hFile, hText]

theorem Beside.holdsDraft (hBeside : Beside site fs fs') (h : HoldsDraft site fs id b) :
    HoldsDraft site fs' id b := by
  obtain ⟨q, hPlace, hEntry, hBytes⟩ := h
  refine ⟨q, (hBeside.places (Or.inr rfl)).mpr hPlace,
    (hBeside.entries (Or.inr rfl) hPlace).trans hEntry, ?_⟩
  rw [hBeside.bodies (Or.inr rfl) hPlace hEntry, hBytes]

theorem Beside.opened (hBeside : Beside site fs fs') (h : Opened site fs j u)
    (hBody : fs'.body j = fs.body j) : Opened site fs' j u where
  reads := by
    rw [hBody]
    exact h.reads
  notDraft hPlace hEntry := by
    have hPlace' := (hBeside.places (Or.inr rfl)).mp hPlace
    exact h.notDraft hPlace' ((hBeside.entries (Or.inr rfl) hPlace').symm.trans hEntry)
  below := Nat.lt_of_lt_of_le h.below hBeside.next

end

-- ---------------------------------------------------------------------------
-- What every step keeps
-- ---------------------------------------------------------------------------

/-- What is designated is what has come of the settings and clears that are over; one setting at most
has the draft open, which holds what that has written; and a reading has open what was designated when
it began. -/
structure Sound (r : Option String) (w : Registrars) : Prop where
  shared : Shared w.store.site w.store.files (Outcome.value r w.past)
  drafts : ∀ {i call id b}, w.calls i = some call → call.stage.draft? = some (id, b) →
    HoldsDraft w.store.site w.store.files id b
  one : ∀ {i j call call'}, w.calls i = some call → w.calls j = some call' →
    call.stage.draft? ≠ none → call'.stage.draft? ≠ none → i = j
  reads : ∀ {i k id since}, w.calls i = some ⟨k, .reading id since⟩ →
    since <:+ w.past ∧ Opened w.store.site w.store.files id (Outcome.value r since)

/-- A call comes further, to where it has the draft open or the designation, or is over. -/
theorem Sound.withCall (h : Sound r w) {call? : Option RegistrarCall}
    (hDraft : ∀ call id b, call? = some call → call.stage.draft? = some (id, b) →
      HoldsDraft w.store.site w.store.files id b ∧
        ∀ j call', j ≠ i → w.calls j = some call' → call'.stage.draft? = none)
    (hRead : ∀ k id since, call? = some ⟨k, .reading id since⟩ →
      since <:+ w.past ∧ Opened w.store.site w.store.files id (Outcome.value r since)) :
    Sound r (w.withCall i call?) := by
  have hCases : ∀ {j call}, (w.withCall i call?).calls j = some call →
      (j = i ∧ call? = some call) ∨ (j ≠ i ∧ w.calls j = some call) := by
    intro j call hCall
    by_cases hj : j = i
    · subst hj
      rw [withCall_self] at hCall
      exact Or.inl ⟨rfl, hCall⟩
    · exact Or.inr ⟨hj, (Function.update_of_ne hj ..).symm.trans hCall⟩
  -- the draft that the call has open is the only one
  have hAlone : ∀ {j call call'}, j ≠ i → w.calls j = some call → call? = some call' →
      call'.stage.draft? ≠ none → call.stage.draft? = none := by
    intro j call call' hj hCall hNew hSome
    obtain ⟨⟨id, b⟩, hOpen⟩ := Option.ne_none_iff_exists'.mp hSome
    exact (hDraft call' id b hNew hOpen).2 j call hj hCall
  refine ⟨h.shared, fun {j call id b} hCall hOpen => ?_, fun {j j' call call'} hCall hCall' hSome
    hSome' => ?_, fun {j k id since} hCall => ?_⟩
  · rcases hCases hCall with ⟨-, hNew⟩ | ⟨-, hOld⟩
    · exact (hDraft call id b hNew hOpen).1
    · exact h.drafts hOld hOpen
  · rcases hCases hCall with ⟨rfl, hNew⟩ | ⟨hj, hOld⟩ <;>
      rcases hCases hCall' with ⟨rfl, hNew'⟩ | ⟨hj', hOld'⟩
    · rfl
    · exact absurd (hAlone hj' hOld' hNew hSome) hSome'
    · exact absurd (hAlone hj hOld hNew' hSome') hSome
    · exact h.one hOld hOld' hSome hSome'
  · rcases hCases hCall with ⟨-, hNew⟩ | ⟨-, hOld⟩
    · exact hRead k id since hNew
    · exact h.reads hOld

/-- A call comes to where it has nothing open, or is over. -/
theorem Sound.withoutFile (h : Sound r w) {call? : Option RegistrarCall}
    (hNone : ∀ call, call? = some call →
      call.stage.draft? = none ∧ ∀ id since, call.stage ≠ .reading id since) :
    Sound r (w.withCall i call?) := by
  refine h.withCall (fun call id b hCall hOpen => ?_) fun k id since hCall => ?_
  · cases (hNone call hCall).1.symm.trans hOpen
  · exact absurd rfl ((hNone _ hCall).2 id since)

theorem Sound.dropped (h : Sound r w) (i : Nat) : Sound r (w.withCall i none) := h.withoutFile nofun

/-- Files change, and something may come of a call. -/
theorem Sound.over (h : Sound r w) {store : Store} {past : List Outcome}
    (hShared : Shared store.site store.files (Outcome.value r past)) (hPast : w.past <:+ past)
    (hDrafts : ∀ {j call id b}, w.calls j = some call → call.stage.draft? = some (id, b) →
      HoldsDraft store.site store.files id b)
    (hReads : ∀ {j k id since}, w.calls j = some ⟨k, .reading id since⟩ →
      Opened w.store.site w.store.files id (Outcome.value r since) →
      Opened store.site store.files id (Outcome.value r since)) :
    Sound r { w with store, past } where
  shared := hShared
  drafts := hDrafts
  one := h.one
  reads hCall := ⟨(h.reads hCall).1.trans hPast, hReads hCall (h.reads hCall).2⟩

/-- With the draft of a call no other is open. -/
theorem Sound.no_other (h : Sound r w) {call : RegistrarCall} (hCall : w.calls i = some call)
    (hOpen : call.stage.draft? ≠ none) {j : Nat} {call' : RegistrarCall}
    (hOther : (w.withCall i none).calls j = some call') : call'.stage.draft? = none := by
  by_contra hSome
  have hj : j ≠ i := by
    rintro rfl
    rw [withCall_self] at hOther
    cases hOther
  exact hj (h.one hCall ((Function.update_of_ne hj ..).symm.trans hOther) hOpen hSome).symm

/-- With the draft of a call no other is open, so the draft may change when that call is over. -/
theorem Sound.wrote (h : Sound r w) {call : RegistrarCall} (hCall : w.calls i = some call)
    (hOpen : call.stage.draft? ≠ none) {files : Files} {past : List Outcome}
    (hShared : Shared w.store.site files (Outcome.value r past)) (hPast : w.past <:+ past)
    (hOpened : ∀ {j u}, Opened w.store.site w.store.files j u → Opened w.store.site files j u) :
    Sound r { (w.withFiles files).withCall i none with past } := by
  refine (h.dropped i).over hShared hPast (fun hOther hSome => ?_) fun _ => hOpened
  cases (h.no_other hCall hOpen hOther).symm.trans hSome

/-- What a clear makes of the files. -/
theorem Sound.clear (h : Sound r w) {t : Store} (hClear : clearDesignation w.store = (.ok (), t)) :
    Sound r ({ w with store := t }.note .cleared) := by
  have hPast : w.past <:+ .cleared :: w.past := List.suffix_cons ..
  unfold clearDesignation at hClear
  split at hClear
  · next files hRemove =>
    cases hClear
    obtain ⟨q, hPlace, hRemoved⟩ := Site.removed_of_remove
      (fun _ _ => h.shared.kept.settled.noLinks .designation) hRemove
    obtain ⟨hShared, hDrafts, hOpened⟩ := h.shared.removed hPlace hRemoved
    exact h.over hShared hPast (fun hCall hOpen => hDrafts (h.drafts hCall hOpen)) fun _ => hOpened
  · next hNothing =>
    cases hClear
    refine h.over ⟨h.shared.kept, h.shared.apart, ?_⟩ hPast h.drafts fun _ => id
    -- nothing is there that could name anything
    obtain ⟨q, hPlace, hNames⟩ := h.shared.names
    rcases hNames with ⟨hNone, -⟩ | ⟨id, text, hFile, -, -⟩
    · exact ⟨q, hPlace, Or.inl ⟨hNone, rfl⟩⟩
    · simp [Files.remove, hPlace, hFile, bind, Except.bind] at hNothing
  · cases hClear

/-- **What every step keeps.** -/
theorem Sound.step (h : Sound r w) {a : Act} (hStep : Step w a w') (hUndisturbed : Undisturbed w a) :
    Sound r w' := by
  have hSuffix : ∀ outcome, w.past <:+ outcome :: w.past := fun _ => List.suffix_cons ..
  have hNothing : ∀ {k : Nat} {stage : CallStage}, stage.draft? = none →
      (∀ id since, stage ≠ .reading id since) →
      ∀ call : RegistrarCall, some ⟨k, stage⟩ = some call →
      call.stage.draft? = none ∧ ∀ id since, call.stage ≠ .reading id since := by
    intro k stage hDraft hRead call hCall
    cases hCall
    exact ⟨hDraft, hRead⟩
  cases hStep with
  | look i k n => exact h.withoutFile (hNothing rfl nofun)
  | lookFails n => exact h.over h.shared (hSuffix _) h.drafts fun _ => id
  | lock _ _ => exact h.withoutFile (hNothing rfl nofun)
  | @makeDirectory i k n files hCall hMade =>
    -- the directory is there
    obtain rfl : w.store.files = files := by
      unfold makeDirectory at hMade
      split at hMade
      · exact Except.ok.inj hMade
      · next directory hDirectory =>
        rw [Files.makeDirectories_eq_self (h.shared.kept.there hDirectory)] at hMade
        exact Except.ok.inj hMade
    exact h.withoutFile (hNothing rfl nofun)
  | @openDraft i k n id files hCall hOpen =>
    obtain ⟨hShared, hDraft, hOpened⟩ := h.shared.openDraft hOpen
    have hThen : Sound r (w.withFiles files) :=
      h.over hShared (List.suffix_refl _)
        (fun hOther hSome => nomatch (hUndisturbed _ _ hOther).symm.trans hSome) fun _ => hOpened
    refine hThen.withCall (fun call id b hCall hOwn => ?_) nofun
    cases hCall
    cases hOwn
    exact ⟨hDraft, fun j call' _ hOther => hUndisturbed j call' hOther⟩
  | @write i k n id hCall =>
    obtain ⟨hShared, hDraft, hOpened⟩ := h.shared.write (h.drafts hCall rfl) w.store.now
      (designationBytes n)
    have hThen := h.wrote hCall nofun hShared (List.suffix_refl _) hOpened
    have hWritten : Sound r (((w.withFiles (w.store.files.overwrite w.store.now id
        (designationBytes n))).withCall i none).withCall i (some ⟨k, .written n id⟩)) := by
      refine hThen.withCall (fun call id b hNew hOwn => ?_) nofun
      cases hNew
      cases hOwn
      exact ⟨hDraft, fun j call' _ hOther => h.no_other hCall nofun hOther⟩
    simp only [Registrars.withCall, withFiles, Function.update_idem] at hWritten
    exact hWritten
  | @writeFails i k n id part hCall _ =>
    obtain ⟨hShared, -, hOpened⟩ := h.shared.write (h.drafts hCall rfl) w.store.now part
    exact h.wrote hCall nofun hShared (hSuffix _) hOpened
  | @rename i k n id files hCall hRename =>
    obtain ⟨hShared, hOpened⟩ := h.shared.rename (h.drafts hCall rfl) hRename
    exact h.wrote hCall nofun hShared (hSuffix _) hOpened
  | @fails i k n stage hCall _ =>
    exact (h.dropped i).over h.shared (hSuffix _) (h.dropped i).drafts fun _ => id
  | clear _ hClear => exact h.clear hClear
  | finds i _ _ _ => exact h.withoutFile (hNothing rfl nofun)
  | @clearMatched i k t _ hClear => exact (h.dropped i).clear hClear
  | openToRead i _ _ hOpen =>
    refine h.withCall (fun call id b hCall hOwn => ?_) ?_
    · cases hCall
      cases hOwn
    · intro k id since hCall
      cases hCall
      exact ⟨List.suffix_refl _, h.shared.openToRead hOpen⟩
  | leave _ _ => exact h.dropped _
  | @elsewhere s hSite hBeside hBodies =>
    have hHere : Shared s.site s.files (Outcome.value r w.past) := by
      rw [hSite]
      exact hBeside.shared h.shared
    refine h.over hHere (List.suffix_refl _) ?_ ?_
    · intro j call id b hCall hOpen
      rw [hSite]
      exact hBeside.holdsDraft (h.drafts hCall hOpen)
    · intro j k id since hCall hOpened
      rw [hSite]
      exact hBeside.opened hOpened (hBodies j k id since hCall)

theorem Sound.reaches (h : Sound r w) (hReach : Reaches Undisturbed w w') : Sound r w' := by
  induction hReach with
  | refl => exact h
  | step _ hStep hUndisturbed ih => exact ih.step hStep hUndisturbed

-- ---------------------------------------------------------------------------
-- The law
-- ---------------------------------------------------------------------------

/-- After a setting, and without a clear since, what is designated is what that setting or a later one
has set. -/
theorem value_of_set (r : Option String) (n : ScriptName) (earlier : List Outcome)
    {later : List Outcome} (hNoClear : .cleared ∉ later) : ∃ m, .set m ∈ later ++ [.set n] ∧
      Outcome.value r (later ++ .set n :: earlier) = some m.designation := by
  induction later with
  | nil => exact ⟨n, List.mem_singleton_self _, rfl⟩
  | cons newest later ih =>
    obtain ⟨m, hMem, hValue⟩ := ih fun hMem => hNoClear (List.mem_cons_of_mem _ hMem)
    cases newest with
    | set m' => exact ⟨m', List.mem_cons_self, rfl⟩
    | failed m' => exact ⟨m, List.mem_cons_of_mem _ hMem, hValue⟩
    | cleared => exact absurd List.mem_cons_self hNoClear

/--
**Registrars that do not disturb each other share a register.** Let a designation be kept in a file of
its own, which is not its own draft, in a directory that is there, and name something or nothing; and
let settings, clears and readings of any number of registrars follow, with their steps in any order and
failing at any of them, but so that nobody opens the draft while another has it open. Then at any time:

* what is read is what the last setting that was done has set, as its name is read, unless a clear has
  come after it; settings that failed have changed nothing;
* a reading that has opened the file reads in it what was designated when it opened it;
* after a setting, and without a clear since, that is the name of a script that has been set since, all
  of it, where the name begins with no blank.
-/
theorem designation_is_shared_register {s : Store} (hKept : s.site.DesignationKept s.files)
    (hApart : ∀ {q}, s.files.place (s.site.seen s.site.autobootFile) false = .ok q →
      s.files.place (s.site.seen s.site.designationDraft) false ≠ .ok q)
    (hFirst : s.designated = .ok r) (hReach : Reaches Undisturbed (quiet s) w) :
    w.store.designated = .ok (Outcome.value r w.past) ∧
      (∀ i k id since, w.calls i = some ⟨k, .reading id since⟩ → since <:+ w.past ∧
        nameIn (w.store.files.body id).bytes = .ok (Outcome.value r since)) ∧
      ∀ later n earlier, w.past = later ++ .set n :: earlier → .cleared ∉ later →
        ∃ m, .set m ∈ later ++ [.set n] ∧ w.store.designated = .ok (some m.designation) ∧
          (m.beginsBlank = false → m.designation = m.text) := by
  have hBegin : Sound r (quiet s) :=
    ⟨⟨hKept, hApart, (designated_iff hKept).mp hFirst⟩, nofun, nofun, nofun⟩
  have hSound := hBegin.reaches hReach
  have hDesignated : w.store.designated = .ok (Outcome.value r w.past) :=
    (designated_iff hSound.shared.kept).mpr hSound.shared.names
  refine ⟨hDesignated, fun i k id since hCall => ?_, fun later n earlier hPast hNoClear => ?_⟩
  · obtain ⟨hSince, hOpened⟩ := hSound.reads hCall
    exact ⟨hSince, hOpened.reads⟩
  · obtain ⟨m, hMem, hValue⟩ := value_of_set r n earlier hNoClear
    refine ⟨m, hMem, ?_, m.designation_eq_text⟩
    rw [hDesignated, hPast, hValue]

/-- A result that there is. -/
theorem eq_ok_get {ε α : Type} {e : Except ε α} (h : e.toOption.isSome = true) :
    e = .ok (e.toOption.get h) := by
  cases e <;> trivial

/-- Two registrars set the boot script. The second has found its script, and gets to the draft when
the first is done: what the first has set is read. -/
theorem registrars_in_turn :
    ∃ w, Reaches Undisturbed (quiet bootDeployment.store) w ∧ w.past = [.set default] ∧
      w.calls 1 = some ⟨1, .opened blankScript 3⟩ ∧ w.store.designated = .ok (some "a.py") := by
  have hFound : bootDeployment.store.registry.hasFile bootDeployment.store.files default = true := by
    decide +kernel
  have hFound' : bootDeployment.store.registry.hasFile bootDeployment.store.files blankScript =
      true := by
    decide +kernel
  have hLooked : Reaches Undisturbed (quiet bootDeployment.store) _ :=
    .step .refl (.look 0 0 default rfl hFound) trivial
  have hLooked' := hLooked.step (.look 1 1 blankScript rfl hFound') trivial
  have hLocked := hLooked'.step (.lock (i := 0) rfl (by
    rintro (_ | _ | i) call hCall hRegistrar <;> cases hCall <;> exact id)) trivial
  have hReady := hLocked.step (.makeDirectory (i := 0) rfl (eq_ok_get (by decide +kernel))) trivial
  have hOpened := hReady.step (.openDraft (i := 0) rfl (eq_ok_get (by decide +kernel))) (by
    rintro (_ | _ | i) call hCall <;> cases hCall <;> rfl)
  have hWritten := hOpened.step (.write (i := 0) rfl) trivial
  have hSet := hWritten.step (.rename (i := 0) rfl (eq_ok_get (by decide +kernel))) trivial
  have hLocked' := hSet.step (.lock (i := 1) rfl (by
    rintro (_ | _ | i) call hCall hRegistrar <;> cases hCall
    exact id)) trivial
  have hReady' := hLocked'.step (.makeDirectory (i := 1) rfl (eq_ok_get (by decide +kernel))) trivial
  have hOpened' := hReady'.step (.openDraft (i := 1) rfl (eq_ok_get (by decide +kernel))) (by
    rintro (_ | _ | i) call hCall <;> cases hCall
    rfl)
  have hBoot : bootDeployment.store.files.place
      (bootDeployment.store.site.seen bootDeployment.store.site.autobootFile) false =
      .ok ["boot.txt"] := by decide +kernel
  have hDraft : bootDeployment.store.files.place
      (bootDeployment.store.site.seen bootDeployment.store.site.designationDraft) false =
      .ok ["boot.tmp"] := by decide +kernel
  have hShown := designation_is_shared_register (r := none) bootDeployment_kept
    (fun hPlace hSame => by
      obtain rfl := Except.ok.inj (hBoot.symm.trans hPlace)
      exact absurd (hDraft.symm.trans hSame) (by decide))
    (by decide +kernel) hOpened'
  refine ⟨_, hOpened', rfl, ?_, hShown.1⟩
  show some _ = some _
  congr
  decide +kernel

/-- A script with a longer name. -/
def longScript : ScriptName := ⟨"blink.py", by decide +kernel⟩

/-- A store of two scripts, whose designation is kept there. -/
def twoNames (designation : String) : Store :=
  let files : Files :=
    { entries := [(["scripts"], .directory), (["scripts", "a.py"], .file 0),
        (["scripts", "blink.py"], .file 1)]
      nextId := 2 }
  let config := { emptyConfig with autobootFile := designation }
  Deployment.store { host := { emptyHost with files }, service := .new config "/" "host" files }

/-- **Two registrars that open one draft.** One has opened it, another opens it too, the first writes
its name and makes the draft the designation, and the second writes its shorter name over that: what
is read is neither. The second then fails. -/
theorem torn_by_two_registrars :
    ∃ w, Reaches AnyStep (quiet (twoNames "/boot.txt")) w ∧
      w.past = [.failed default, .set longScript, .set default] ∧ (∀ i, w.calls i = none) ∧
      w.store.designated = .ok (some "a.py\n.py") := by
  have hSet := designate_alone (w := quiet (twoNames "/boot.txt")) (i := 0) (k := 0) rfl nofun default
  have hPast : Outcome.ofAnswer default (designate default (twoNames "/boot.txt")).1 =
      .set default := by
    decide +kernel
  have hLooked := hSet.next (.look 0 0 longScript rfl (by decide +kernel))
  have hLocked := hLooked.next (.lock (i := 0) rfl (by
    rintro (_ | i) call hCall hRegistrar <;> cases hCall
    exact id))
  have hReady := hLocked.next (.makeDirectory (i := 0) rfl (eq_ok_get (by decide +kernel)))
  have hOpened := hReady.next (.openDraft (i := 0) rfl (eq_ok_get (by decide +kernel)))
  have hLooked' := hOpened.next (.look 1 1 default rfl (by decide +kernel))
  have hLocked' := hLooked'.next (.lock (i := 1) rfl (by
    rintro (_ | _ | i) call hCall hRegistrar <;> cases hCall
    · cases hRegistrar
    · exact id))
  have hReady' := hLocked'.next (.makeDirectory (i := 1) rfl (eq_ok_get (by decide +kernel)))
  have hOpened' := hReady'.next (.openDraft (i := 1) rfl (eq_ok_get (by decide +kernel)))
  have hWritten := hOpened'.next (.write (i := 0) rfl)
  have hRenamed := hWritten.next (.rename (i := 0) rfl (eq_ok_get (by decide +kernel)))
  have hWritten' := hRenamed.next (.write (i := 1) rfl)
  have hFailed := hWritten'.next (.fails (i := 1) rfl (Or.inr (Or.inr ⟨_, rfl⟩)))
  refine ⟨_, hFailed, congrArg (fun first => [_, _, first]) hPast, ?_, by decide +kernel⟩
  rintro (_ | _ | i) <;> rfl

/-- **A draft that is the designation.** The path of the designation ends in the extension of drafts.
After a setting another writes a part of its name, and fails; that part is what is read, though nobody
opened what another had open. -/
theorem torn_in_place :
    ∃ w, Reaches Undisturbed (quiet (twoNames "/boot.tmp")) w ∧
      w.past = [.failed longScript, .set default] ∧ (∀ i, w.calls i = none) ∧
      w.store.designated = .ok (some "bl") := by
  have hLooked : Reaches Undisturbed (quiet (twoNames "/boot.tmp")) _ :=
    .step .refl (.look 0 0 default rfl (by decide +kernel)) trivial
  have hLocked := hLooked.step (.lock (i := 0) rfl (by
    rintro (_ | i) call hCall hRegistrar <;> cases hCall
    exact id)) trivial
  have hReady := hLocked.step (.makeDirectory (i := 0) rfl (eq_ok_get (by decide +kernel))) trivial
  have hOpened := hReady.step (.openDraft (i := 0) rfl (eq_ok_get (by decide +kernel))) (by
    rintro (_ | i) call hCall <;> cases hCall
    rfl)
  have hWritten := hOpened.step (.write (i := 0) rfl) trivial
  have hSet := hWritten.step (.rename (i := 0) rfl (eq_ok_get (by decide +kernel))) trivial
  have hLooked' := hSet.step (.look 0 0 longScript rfl (by decide +kernel)) trivial
  have hLocked' := hLooked'.step (.lock (i := 0) rfl (by
    rintro (_ | i) call hCall hRegistrar <;> cases hCall
    exact id)) trivial
  have hReady' := hLocked'.step (.makeDirectory (i := 0) rfl (eq_ok_get (by decide +kernel))) trivial
  have hOpened' := hReady'.step (.openDraft (i := 0) rfl (eq_ok_get (by decide +kernel))) (by
    rintro (_ | i) call hCall <;> cases hCall
    rfl)
  have hPart : "bl".toUTF8.toList <+: designationBytes longScript := by decide +kernel
  have hFailed := hOpened'.step (.writeFails (i := 0) rfl hPart) trivial
  refine ⟨_, hFailed, rfl, ?_, by decide +kernel⟩
  rintro (_ | i) <;> rfl

end Registrars

end ScriptWarden
