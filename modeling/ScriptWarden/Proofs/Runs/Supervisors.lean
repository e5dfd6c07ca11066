import ScriptWarden.Proofs.Runs.Board

/-!
# What supervisors do

The course of one supervisor, by what it saw and did. Whatever it sees, it asks its process to end at
most once, kills it at most once and only after that, and does neither once it has taken the status.
Every step leaves fewer to come, so it takes nine at most.

What comes first is left open where the process has ended and is to end: a supervisor that sees the
second first asks a process to end that it has still to reap.

## Results

* `steps_of_step?` — all that one step can be, said once.
* `step?_eq_none_iff` — what a supervisor waits for.
* `Course.signal_split` — what has come before a signal.
* `Course.sent` — the signals that there have been.
* `Course.length_le` — how many steps there are.
* `Course.reports` — the end that is announced is that of the process.
-/

namespace ScriptWarden

namespace Supervision

variable {s s' : Supervision} {o : Outlook} {act : SupervisorAct}

-- ---------------------------------------------------------------------------
-- One step
-- ---------------------------------------------------------------------------

/-- What a step can be. -/
inductive Steps (o : Outlook) : Supervision → SupervisorAct → Supervision → Prop
  | ask : o.stopping = true →
      Steps o .watching (.signal sigterm) (.asked (o.now.after o.gracePeriod))
  | kill {deadline : Moment} : o.status = none → deadline ≤ o.now →
      Steps o (.asked deadline) (.signal sigkill) .killed
  | reap {s : Supervision} {status : UInt32} : s.HoldsChild → o.status = some status →
      Steps o s .reap (.draining (some status) [.out, .err] (o.now.after drainTime))
  | drain {status : Option UInt32} {stream : Stream} {rest : List Stream} {deadline : Moment}
      {act : SupervisorAct} : act = .nothing ∨ act = .abandon stream →
      Steps o (.draining status (stream :: rest) deadline) act
        (.draining status rest (o.now.after drainTime))
  | drained {status : Option UInt32} {deadline : Moment} :
      Steps o (.draining status [] deadline) .closeInput
        (.recording (Exit.ofStatus status (o.now.since o.startedAt)))
  | record {exit : Exit} : Steps o (.recording exit) (.writeLog exit) (.leaving exit)
  | leave {exit : Exit} : Steps o (.leaving exit) .leave (.announcing exit)
  | announce {exit : Exit} : Steps o (.announcing exit) (.announce exit) .finished

theorem steps_of_step? (h : s.step? o = some (s', act)) : Steps o s act s' := by
  cases s with
  | watching =>
    simp only [step?] at h
    split at h
    · next status hStatus =>
      split at h
      · next hAsk =>
        cases h
        exact .ask (Bool.and_eq_true_iff.mp hAsk).1
      · cases h
        exact .reap trivial hStatus
    · split at h
      · next hStopping =>
        cases h
        exact .ask hStopping
      · cases h
  | asked deadline =>
    simp only [step?] at h
    split at h
    · next status hStatus =>
      cases h
      exact .reap trivial hStatus
    · next hStatus =>
      split at h
      · next hDue =>
        cases h
        exact .kill hStatus hDue
      · cases h
  | killed =>
    obtain ⟨status, hStatus, hEnded⟩ := Option.map_eq_some_iff.mp h
    cases hEnded
    exact .reap trivial hStatus
  | draining status left deadline =>
    cases left with
    | nil =>
      cases h
      exact .drained
    | cons stream rest =>
      simp only [step?] at h
      split at h
      · cases h
        exact .drain (.inl rfl)
      · split at h
        · cases h
          exact .drain (.inr rfl)
        · cases h
  | recording exit =>
    cases h
    exact .record
  | leaving exit =>
    cases h
    exact .leave
  | announcing exit =>
    cases h
    exact .announce
  | finished => cases h

/-- What a supervisor waits for: while its process runs, that it ends, or is to end, or is out of
time; and while an output is read, that it ends or is out of time. -/
theorem step?_eq_none_iff : s.step? o = none ↔
    s = .finished ∨
    (s.HoldsChild ∧ o.status = none ∧ (s = .watching → o.stopping = false) ∧
      ∀ deadline, s = .asked deadline → o.now < deadline) ∨
    ∃ status stream rest deadline, s = .draining status (stream :: rest) deadline ∧
      stream ∈ o.reading ∧ o.now < deadline := by
  cases s with
  | watching =>
    cases hStatus : o.status <;> cases hStopping : o.stopping <;>
      simp [step?, HoldsChild, hStatus, hStopping]
  | asked deadline => cases hStatus : o.status <;> simp [step?, HoldsChild, hStatus]
  | killed => cases hStatus : o.status <;> simp [step?, HoldsChild, hStatus]
  | draining status left deadline =>
    cases left with
    | nil => simp [step?, HoldsChild]
    | cons stream rest =>
      constructor
      · intro hNone
        simp only [step?] at hNone
        split at hNone
        · cases hNone
        · next hOpen =>
          split at hNone
          · cases hNone
          · next hEarly =>
            exact .inr (.inr ⟨status, stream, rest, deadline, rfl, by simpa using hOpen,
              Nat.not_le.mp hEarly⟩)
      · rintro (hFinished | ⟨hChild, -⟩ | ⟨_, _, _, _, hSame, hOpen, hEarly⟩)
        · cases hFinished
        · exact hChild.elim
        · cases hSame
          simp [step?, hOpen, hEarly]
  | recording exit => simp [step?, HoldsChild]
  | leaving exit => simp [step?, HoldsChild]
  | announcing exit => simp [step?, HoldsChild]
  | finished => simp [step?]

/-- How many steps a supervisor has before it at most. -/
def stepsLeft : Supervision → Nat
  | .watching => 9
  | .asked _ => 8
  | .killed => 7
  | .draining _ left _ => 4 + left.length
  | .recording _ => 3
  | .leaving _ => 2
  | .announcing _ => 1
  | .finished => 0

theorem Steps.stepsLeft_lt (h : Steps o s act s') : s'.stepsLeft < s.stepsLeft := by
  cases h with
  | reap hChild =>
    cases s with
    | watching => exact (by decide : 6 < 9)
    | asked deadline => exact (by decide : 6 < 8)
    | killed => exact (by decide : 6 < 7)
    | _ => exact hChild.elim
  | drain =>
    simp only [stepsLeft, List.length_cons]
    omega
  | drained =>
    simp only [stepsLeft, List.length_nil]
    omega
  | _ => simp only [stepsLeft]; omega

-- ---------------------------------------------------------------------------
-- Courses
-- ---------------------------------------------------------------------------

/-- What a supervisor saw, and what it did then. -/
structure Deed where
  saw : Outlook
  act : SupervisorAct

/-- The signal that is sent. -/
def Deed.signal? (d : Deed) : Option Nat :=
  match d.act with
  | .signal number => some number
  | _ => none

/-- The end that is announced. -/
def Deed.announced? (d : Deed) : Option Exit :=
  match d.act with
  | .announce exit => some exit
  | _ => none

/-- What a supervisor has done so far, newest first, and what it is at. It is left open at each step
what it sees first when the process has ended and is to end. -/
inductive Course : List Deed → Supervision → Prop
  | begin : Course [] .watching
  | next {past : List Deed} {s s' : Supervision} {o : Outlook} {act : SupervisorAct}
      (stopFirst : Bool) : Course past s → s.step? { o with stopFirst } = some (s', act) →
      Course (⟨o, act⟩ :: past) s'

variable {past later earlier : List Deed} {d : Deed}

/-- The beginning of a course is one. -/
theorem Course.of_append (h : Course (later ++ past) s) : ∃ s₀, Course past s₀ := by
  induction later generalizing s with
  | nil => exact ⟨s, h⟩
  | cons d later ih =>
    cases h with
    | next _ hPast _ => exact ih hPast

theorem Course.of_watching (h : Course past .watching) : past = [] := by
  cases h with
  | begin => rfl
  | next _ _ hStep => cases steps_of_step? hStep

/-- A supervisor that has asked its process to end has done nothing else. -/
theorem Course.of_asked {deadline : Moment} (h : Course past (.asked deadline)) :
    ∃ o, past = [⟨o, .signal sigterm⟩] ∧ o.stopping = true ∧
      deadline = o.now.after o.gracePeriod := by
  cases h with
  | @next _ _ _ o _ _ hPast hStep =>
    cases steps_of_step? hStep with
    | ask hStopping =>
      obtain rfl := hPast.of_watching
      exact ⟨o, rfl, hStopping, rfl⟩

/-- **What has come before a signal.** Before the process is asked to end nothing was done, and it is
to end; before it is killed it was asked to end, a whole grace period ago, and it has not ended. -/
theorem Course.signal_split {number : Nat} (h : Course (later ++ d :: earlier) s)
    (hSignal : d.act = .signal number) :
    number = sigterm ∧ earlier = [] ∧ d.saw.stopping = true ∨
      number = sigkill ∧ ∃ o, earlier = [⟨o, .signal sigterm⟩] ∧ o.stopping = true ∧
        o.now.after o.gracePeriod ≤ d.saw.now ∧ d.saw.status = none := by
  obtain ⟨s₁, hHere⟩ := h.of_append
  cases hHere with
  | next _ hEarlier hStep =>
    cases hSignal
    cases steps_of_step? hStep with
    | ask hStopping => exact .inl ⟨rfl, hEarlier.of_watching, hStopping⟩
    | kill hRuns hDue =>
      obtain ⟨o, rfl, hStopping, rfl⟩ := hEarlier.of_asked
      exact .inr ⟨rfl, o, rfl, hStopping, hDue, hRuns⟩
    | drain hAct => rcases hAct with hNothing | hAbandon <;> contradiction

/-- Before a signal the status was not taken. -/
theorem Course.not_reaped {number : Nat} (h : Course (later ++ d :: earlier) s)
    (hSignal : d.act = .signal number) : ∀ e ∈ earlier, e.act ≠ .reap := by
  rcases h.signal_split hSignal with ⟨-, rfl, -⟩ | ⟨-, o, rfl, -⟩
  · simp
  · simp

/-- The signals that may have been sent, newest first. -/
def MayHaveSent : Supervision → List Nat → Prop
  | .watching, sent => sent = []
  | .asked _, sent => sent = [sigterm]
  | .killed, sent => sent = [sigkill, sigterm]
  | _, sent => sent <:+ [sigkill, sigterm]

theorem MayHaveSent.isSuffix {sent : List Nat} (h : s.MayHaveSent sent) :
    sent <:+ [sigkill, sigterm] := by
  cases s with
  | watching =>
    obtain rfl := h
    exact List.nil_suffix
  | asked deadline =>
    obtain rfl := h
    exact List.suffix_cons sigkill [sigterm]
  | killed =>
    obtain rfl := h
    exact List.suffix_rfl
  | _ => exact h

theorem Course.sent (h : Course past s) : s.MayHaveSent (past.filterMap Deed.signal?) := by
  induction h with
  | begin => rfl
  | @next past s s' o act _ _ hStep ih =>
    rw [List.filterMap_cons]
    cases steps_of_step? hStep with
    | ask =>
      rw [show past.filterMap Deed.signal? = [] from ih]
      rfl
    | kill =>
      rw [show past.filterMap Deed.signal? = [sigterm] from ih]
      rfl
    | drain hAct => rcases hAct with rfl | rfl <;> exact ih
    | reap => exact ih.isSuffix
    | _ => exact ih

/-- A supervisor takes nine steps at most. -/
theorem Course.length_le (h : Course past s) : past.length + s.stepsLeft ≤ 9 := by
  induction h with
  | begin => simp [stepsLeft]
  | next _ _ hStep ih =>
    have hLess := (steps_of_step? hStep).stepsLeft_lt
    rw [List.length_cons]
    omega

-- ---------------------------------------------------------------------------
-- Ends
-- ---------------------------------------------------------------------------

/-- An end is that of a process whose status was taken. -/
def Reported (past : List Deed) (exit : Exit) : Prop :=
  ∃ d ∈ past, d.act = .reap ∧
    ∃ status runtime, d.saw.status = some status ∧ exit = Exit.ofStatus (some status) runtime

/-- What a supervisor that has taken a status keeps of it. -/
def Reports (past : List Deed) : Supervision → Prop
  | .draining status _ _ => ∃ d ∈ past, d.act = .reap ∧ d.saw.status = status ∧ status.isSome = true
  | .recording exit | .leaving exit | .announcing exit => Reported past exit
  | .watching | .asked _ | .killed | .finished => True

theorem Reported.cons {exit : Exit} (h : Reported past exit) (d : Deed) : Reported (d :: past) exit := by
  obtain ⟨e, hMem, hReported⟩ := h
  exact ⟨e, List.mem_cons_of_mem d hMem, hReported⟩

/-- Whatever end a supervisor is about to announce, or has announced, is that of its process. -/
theorem Course.reports (h : Course past s) : s.Reports past ∧
    ∀ d ∈ past, ∀ exit, d.announced? = some exit → Reported past exit := by
  induction h with
  | begin => exact ⟨trivial, by simp⟩
  | @next past s s' o act stopFirst _ hStep ih =>
    obtain ⟨hNow, hEarlier⟩ := ih
    have hSteps := steps_of_step? hStep
    -- the new step announces nothing but what the supervisor was about to announce
    have hNewest : ∀ exit, Deed.announced? ⟨o, act⟩ = some exit → Reported past exit := by
      intro exit hAnnounced
      cases hSteps with
      | announce =>
        obtain rfl := Option.some.inj hAnnounced
        exact hNow
      | drain hAct => rcases hAct with rfl | rfl <;> cases hAnnounced
      | _ => cases hAnnounced
    refine ⟨?_, fun d hMem exit hAnnounced => ?_⟩
    · cases hSteps with
      | @reap _ status _ hStatus => exact ⟨⟨o, .reap⟩, List.mem_cons_self, rfl, hStatus, rfl⟩
      | drain hAct =>
        obtain ⟨d, hMem, hReap⟩ := hNow
        exact ⟨d, List.mem_cons_of_mem _ hMem, hReap⟩
      | drained =>
        obtain ⟨d, hMem, hReap, hStatus, hSome⟩ := hNow
        obtain ⟨status, rfl⟩ := Option.isSome_iff_exists.mp hSome
        exact ⟨d, List.mem_cons_of_mem _ hMem, hReap, status, _, hStatus, rfl⟩
      | record => exact hNow.cons _
      | leave => exact hNow.cons _
      | _ => trivial
    · rcases List.mem_cons.mp hMem with rfl | hBefore
      · exact (hNewest exit hAnnounced).cons _
      · exact (hEarlier d hBefore exit hAnnounced).cons _

end Supervision

end ScriptWarden
