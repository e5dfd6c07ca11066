import ScriptWarden.Proofs.Runs.Inspections

/-!
# Processes that change hands

A service ends a process that it did not start: it looks what the process is, asks it to end, waits
until it is gone or the grace period is over, looks again, and kills it if it is the same process
still. Between any two of these the host may become any other. The process may end, and its number
may be given to a process that runs no script, or to one that runs another script, or the same one.

So an ending is run here on a list of hosts, of which nothing is assumed, not even that a clock goes
on: each host is what the ending finds when it gets to act next. It compares the clock, asks whether
the number is taken and looks what the process is in three steps of their own.

What tells processes apart are the time of their start in whole seconds and the script.

## Results

* `managedScript?_eq_some_iff` — which script a process runs.
* `beginTermination_steps`, `goOnTermination_steps` — the steps on one host are what the service does.
* `history_run` — what an ending has seen and sent, whatever the hosts.
* `signals_follow_identity` — the law, and `recycled_number_spared` — two processes of one number.
-/

namespace ScriptWarden

-- ---------------------------------------------------------------------------
-- Scripts that processes run
-- ---------------------------------------------------------------------------

namespace Scanner

/-- A path as a process sees it. -/
def Sees (p : ProcessInfo) (argument path : List UInt8) : Prop :=
  if BytePath.isAbsolute argument then path = argument
  else ∃ directory, p.workingDir = some directory ∧ path = BytePath.join directory argument

/-- An argument names a script that lies directly in the directory. Links are followed where the path
leads to something. -/
def Names (s : Scanner) (files : Files) (p : ProcessInfo) (argument : List UInt8) (name : String) :
    Prop :=
  (BytePath.ofBytes argument).extension? = some scriptExtension ∧
    ∃ path file, Sees p argument path ∧
      (BytePath.ofBytes ((realBytes? files path).getD path)).parent? =
        some (BytePath.ofBytes (encodeUtf8 s.directory)) ∧
      (BytePath.ofBytes ((realBytes? files path).getD path)).fileName? = some file ∧
      decodeUtf8? file = some name

/-- A process runs a script of the directory: the first argument after its program that names one
names this, and its file is there. -/
def Runs (s : Scanner) (files : Files) (p : ProcessInfo) (name : String) : Prop :=
  (∃ program before argument after, p.command = program :: (before ++ argument :: after) ∧
    s.Names files p argument name ∧ ∀ earlier ∈ before, ∀ other, ¬ s.Names files p earlier other) ∧
  files.isFile (joinPath s.directory name) = true

variable {s : Scanner} {files : Files} {p : ProcessInfo} {name : String}

theorem argumentScript?_eq_some_iff {argument : List UInt8} :
    argumentScript? (realBytes? files) p.workingDir (BytePath.ofBytes (encodeUtf8 s.directory))
      argument = some name ↔ s.Names files p argument name := by
  have hSeen : ∀ path, (if BytePath.isAbsolute argument then some argument
      else p.workingDir.map (BytePath.join · argument)) = some path ↔ Sees p argument path := by
    intro path
    rw [Sees]
    split
    · rw [Option.some.injEq]
      exact eq_comm
    · rw [Option.map_eq_some_iff]
      exact exists_congr fun _ => and_congr_right fun _ => eq_comm
  rw [argumentScript?, Names]
  by_cases hExtension : (BytePath.ofBytes argument).extension? = some scriptExtension
  · rw [if_neg (by simpa using hExtension)]
    simp only [Option.bind_eq_some_iff, hSeen, hExtension, true_and]
    refine exists_congr fun path => ?_
    simp only [Option.ite_none_right_eq_some, Bool.and_eq_true, beq_iff_eq, Option.bind_eq_some_iff]
    constructor
    · rintro ⟨hSees, ⟨-, hParent⟩, file, hFile, hName⟩
      exact ⟨file, hSees, hParent, hFile, hName⟩
    · rintro ⟨file, hSees, hParent, hFile, hName⟩
      exact ⟨hSees, ⟨by rw [hFile]; rfl, hParent⟩, file, hFile, hName⟩
  · rw [if_pos (by simpa using hExtension)]
    simp [hExtension]

theorem managedScript?_eq_some_iff : s.managedScript? files p = some name ↔ s.Runs files p name := by
  rw [managedScript?, Option.filter_eq_some_iff, commandScript?, List.findSome?_eq_some_iff, Runs]
  refine and_congr_left fun _ => ?_
  simp only [argumentScript?_eq_some_iff, Option.eq_none_iff_forall_ne_some, ne_eq]
  constructor
  · rintro ⟨before, argument, after, hCommand, hNames, hEarlier⟩
    cases hAll : p.command with
    | nil => simp [hAll] at hCommand
    | cons program arguments =>
      rw [hAll] at hCommand
      exact ⟨program, before, argument, after, congrArg (program :: ·) hCommand, hNames, hEarlier⟩
  · rintro ⟨program, before, argument, after, hCommand, hNames, hEarlier⟩
    exact ⟨before, argument, after, by rw [hCommand]; rfl, hNames, hEarlier⟩

end Scanner

/-- The process with a number, as a host shows it. -/
def Host.shown? (h : Host) (pid : UInt32) : Option ProcessInfo := h.processTable.find? (·.pid == pid)

/-- The process with a number was started at a time and runs a script of the directory. -/
def Scanner.Finds (s : Scanner) (h : Host) (pid : UInt32) (identity : ProcessIdentity) : Prop :=
  ∃ p, h.shown? pid = some p ∧ p.startTime = identity.startTime ∧ s.Runs h.files p identity.script

-- ---------------------------------------------------------------------------
-- Endings step by step
-- ---------------------------------------------------------------------------

/-- What comes of a signal to a process. That the process is gone is no failure. -/
def Host.signalled (h : Host) (pid : UInt32) (number : Nat) : Except Fault Unit :=
  match h.signal pid number with
  | .ok _ | .error .noSuchProcess => .ok ()
  | .error fault => .error (.io fault)

theorem sendSignal_fst (pid : UInt32) (number : Nat) (d : Deployment) :
    (Deployment.sendSignal pid number d).1 = d.host.signalled pid number := by
  rw [Deployment.sendSignal, Host.signalled]
  cases d.host.signal pid number with
  | ok host => rfl
  | error fault => cases fault <;> rfl

/-- A signal fails for a reason of the host. -/
theorem Host.signalled_error {h : Host} {pid : UInt32} {number : Nat} {fault : Fault}
    (hFails : h.signalled pid number = .error fault) : ∃ cause, fault = .io cause := by
  rw [Host.signalled] at hFails
  split at hFails
  · cases hFails
  · cases hFails
  · cases hFails
    exact ⟨_, rfl⟩

/-- What the ending of a process is to do next. -/
inductive EndingStage where
  /-- Look what the process is. -/
  | judge
  | ask (t : Termination)
  /-- Read the clock, from which the grace period counts. -/
  | grant (t : Termination)
  /-- Compare the clock with the end of the grace period. -/
  | wait (t : Termination)
  /-- Look whether the process is there, before the end of the grace period or after it. -/
  | poll (t : Termination)
  | pollLate (t : Termination)
  /-- Look what the process is now. -/
  | judgeAgain (t : Termination)
  | kill (t : Termination)
  | over (answer : Except Fault Unit)

/-- The ending of a process: what it is to do next, and the signals it has sent. -/
structure Ending where
  stage : EndingStage
  signals : List (UInt32 × Nat)

namespace Ending

variable (s : Scanner) (pid : UInt32) (owned : List UInt32)

/-- What the process with a number is on a host. -/
def seen (h : Host) : Identified := s.identify h.files h.processTable pid

/-- One step of an ending, on the host that it finds. -/
def step (e : Ending) (h : Host) : Ending :=
  match e.stage with
  | .judge =>
    match Termination.begin pid h.self owned s.gracePeriod h.now (seen s pid h) with
    | .ok t => ⟨.ask t, e.signals⟩
    | .error fault => ⟨.over (.error fault), e.signals⟩
  | .ask t =>
    match h.signalled t.pid Signal.terminate with
    | .ok () => ⟨.grant t, e.signals ++ [(t.pid, Signal.terminate)]⟩
    | .error fault => ⟨.over (.error fault), e.signals ++ [(t.pid, Signal.terminate)]⟩
  | .grant t => ⟨.wait { t with deadline := h.now.after s.gracePeriod }, e.signals⟩
  | .wait t => ⟨if h.now < t.deadline then .poll t else .pollLate t, e.signals⟩
  | .poll t => ⟨if h.isAlive t.pid then .wait t else .over (.ok ()), e.signals⟩
  | .pollLate t => ⟨if h.isAlive t.pid then .judgeAgain t else .over (.ok ()), e.signals⟩
  | .judgeAgain t =>
    ⟨if seen s t.pid h = .script t.identity then .kill t else .over (.ok ()), e.signals⟩
  | .kill t => ⟨.over (h.signalled t.pid Signal.kill), e.signals ++ [(t.pid, Signal.kill)]⟩
  | .over answer => ⟨.over answer, e.signals⟩

/-- An ending on the hosts that it finds, one for each step. -/
def run (hosts : List Host) : Ending := hosts.foldl (step s pid owned) ⟨.judge, []⟩

/-- What an ending has answered. -/
def answer? (e : Ending) : Option (Except Fault Unit) :=
  match e.stage with
  | .over answer => some answer
  | _ => none

theorem run_concat (hosts : List Host) (h : Host) :
    run s pid owned (hosts ++ [h]) = step s pid owned (run s pid owned hosts) h := List.foldl_concat ..

variable {s pid owned} {first : Host} {e : Ending} {hosts : List Host} {t : Termination}

theorem seen_eq_script_iff {h : Host} {identity : ProcessIdentity} :
    seen s pid h = .script identity ↔ s.Finds h pid identity := by
  rw [seen, Scanner.identify, show h.processTable.find? (·.pid == pid) = h.shown? pid from rfl,
    Scanner.Finds]
  cases h.shown? pid with
  | none => simp
  | some p =>
    simp only [Option.some.injEq, exists_eq_left', ← Scanner.managedScript?_eq_some_iff]
    cases s.managedScript? h.files p with
    | none => simp
    | some script =>
      obtain ⟨startTime, script'⟩ := identity
      simp

theorem seen_eq_gone_iff {h : Host} : seen s pid h = .gone ↔ h.shown? pid = none := by
  rw [seen, Scanner.identify, show h.processTable.find? (·.pid == pid) = h.shown? pid from rfl]
  cases h.shown? pid with
  | none => simp
  | some p => cases hScript : s.managedScript? h.files p <;> simp [hScript]

theorem seen_eq_unmanaged_iff {h : Host} :
    seen s pid h = .unmanaged ↔ ∃ p, h.shown? pid = some p ∧ ∀ name, ¬ s.Runs h.files p name := by
  rw [seen, Scanner.identify, show h.processTable.find? (·.pid == pid) = h.shown? pid from rfl]
  cases h.shown? pid with
  | none => simp
  | some p =>
    simp only [Option.some.injEq, exists_eq_left', ← Scanner.managedScript?_eq_some_iff]
    cases s.managedScript? h.files p <;> simp

-- ---------------------------------------------------------------------------
-- What the service does
-- ---------------------------------------------------------------------------

/-- The beginning of an ending on one host is what the service does. -/
theorem beginTermination_steps (pid : UInt32) (d : Deployment) :
    match (Deployment.beginTermination pid d).1 with
    | .ok t => run d.service.scanner pid d.service.ownedPids [d.host, d.host, d.host] =
        ⟨.wait t, [(pid, Signal.terminate)]⟩
    | .error fault => ∃ signals, run d.service.scanner pid d.service.ownedPids [d.host, d.host] =
        ⟨.over (.error fault), signals⟩ := by
  have hLook : Deployment.view (fun _ => Termination.begin pid d.host.self d.service.ownedPids
      d.service.scanner.gracePeriod d.host.now (d.identify pid)) d =
        (Termination.begin pid d.host.self d.service.ownedPids d.service.scanner.gracePeriod d.host.now
          (d.identify pid), d) := rfl
  unfold Deployment.beginTermination
  rw [Work.bind_ok (Work.get_apply _)]
  have hSeen : d.identify pid = seen d.service.scanner pid d.host := rfl
  cases hJudge : Termination.begin pid d.host.self d.service.ownedPids
    d.service.scanner.gracePeriod d.host.now (d.identify pid) with
  | error fault =>
    rw [hJudge] at hLook
    rw [Work.bind_error hLook]
    rw [hSeen] at hJudge
    refine ⟨[], ?_⟩
    simp only [run, List.foldl_cons, List.foldl_nil, step, hJudge]
  | ok t =>
    rw [hJudge] at hLook
    rw [Work.bind_ok hLook]
    obtain ⟨-, rfl, hDeadline⟩ := Oversight.begin_eq_ok hJudge
    rw [hSeen] at hJudge
    have hSignal := sendSignal_fst t.pid Signal.terminate d
    rcases hSend : Deployment.sendSignal t.pid Signal.terminate d with ⟨fault | ⟨⟩, d'⟩
    · rw [Work.bind_error hSend]
      rw [hSend] at hSignal
      refine ⟨[(t.pid, Signal.terminate)], ?_⟩
      simp only [run, List.foldl_cons, List.foldl_nil, step, hJudge, ← hSignal, List.nil_append]
    · rw [Work.bind_ok hSend]
      rw [hSend] at hSignal
      simp only [run, List.foldl_cons, List.foldl_nil, step, hJudge, ← hSignal, List.nil_append,
        ← hDeadline]
      rfl

/-- A look after a process that was asked to end is what the service does. -/
theorem goOnTermination_steps (t : Termination) (d : Deployment) (signals : List (UInt32 × Nat)) :
    let onHost := fun (times : Nat) =>
      (List.replicate times d.host).foldl (step d.service.scanner pid owned) ⟨.wait t, signals⟩
    match Deployment.goOnTermination t d with
    | (some _, d') => d' = d ∧ onHost 2 = ⟨.wait t, signals⟩
    | (none, d') => (d' = d ∧ onHost 4 = ⟨.over (.ok ()), signals⟩) ∨
        d' = (Deployment.sendSignal t.pid Signal.kill d).2 ∧
          onHost 4 = ⟨.over (d.host.signalled t.pid Signal.kill),
            signals ++ [(t.pid, Signal.kill)]⟩ := by
  intro onHost
  have hSeen : d.identify t.pid = seen d.service.scanner t.pid d.host := rfl
  simp only [onHost, List.replicate, List.foldl_cons, List.foldl_nil, step, Deployment.goOnTermination,
    Termination.next, hSeen]
  by_cases hAlive : d.host.isAlive t.pid = true
  · by_cases hTime : d.host.now < t.deadline
    · simp [hAlive, hTime]
    · by_cases hSame : seen d.service.scanner t.pid d.host = .script t.identity
      · simp only [hAlive, hTime, hSame, beq_self_eq_true, if_true, if_false, Bool.not_true,
          Bool.false_eq_true]
        exact .inr ⟨rfl, trivial⟩
      · simp [hAlive, hTime, hSame]
  · by_cases hTime : d.host.now < t.deadline
    · simp [hAlive, hTime]
    · simp [hAlive, hTime]

-- ---------------------------------------------------------------------------
-- What an ending has seen and sent
-- ---------------------------------------------------------------------------

/-- The process may be ended: it is none of the service's own, and it ran a script when it was looked
at. -/
structure Judged (s : Scanner) (pid : UInt32) (owned : List UInt32) (first : Host) (t : Termination) :
    Prop where
  notOwned : pid ∉ owned
  notSelf : pid ≠ first.self
  target : t.pid = pid
  seen : Ending.seen s pid first = .script t.identity

/-- The process was asked to end and has until a moment. -/
structure Asked (s : Scanner) (pid : UInt32) (owned : List UInt32) (first granted : Host)
    (t : Termination) : Prop extends Judged s pid owned first t where
  deadline : t.deadline = granted.now.after s.gracePeriod

/-- The end of the grace period has come, by a clock that was looked at after the process was asked. -/
structure Expired (s : Scanner) (pid : UInt32) (owned : List UInt32) (first granted late : Host)
    (t : Termination) : Prop extends Asked s pid owned first granted t where
  late : granted.now.after s.gracePeriod ≤ late.now

/-- What an ending has seen on the hosts that it found, and what it has sent. -/
inductive History (s : Scanner) (pid : UInt32) (owned : List UInt32) : List Host → Ending → Prop
  | begun : History s pid owned [] ⟨.judge, []⟩
  | rejected {first : Host} {fault : Fault} (rest : List Host) :
      Termination.begin pid first.self owned s.gracePeriod first.now (seen s pid first) = .error fault →
      History s pid owned (first :: rest) ⟨.over (.error fault), []⟩
  | judged {first : Host} {t : Termination} : Judged s pid owned first t →
      History s pid owned [first] ⟨.ask t, []⟩
  | notAsked {first : Host} {t : Termination} {cause : IoFault} (asked : Host) (rest : List Host) :
      Judged s pid owned first t →
      History s pid owned (first :: asked :: rest)
        ⟨.over (.error (.io cause)), [(pid, Signal.terminate)]⟩
  | asked {first : Host} {t : Termination} (asked : Host) : Judged s pid owned first t →
      History s pid owned [first, asked] ⟨.grant t, [(pid, Signal.terminate)]⟩
  | waits {first granted : Host} {t : Termination} (asked : Host) (between : List Host) :
      Asked s pid owned first granted t →
      History s pid owned (first :: asked :: granted :: between) ⟨.wait t, [(pid, Signal.terminate)]⟩
  | polls {first granted : Host} {t : Termination} (asked : Host) (between : List Host) :
      Asked s pid owned first granted t →
      History s pid owned (first :: asked :: granted :: between) ⟨.poll t, [(pid, Signal.terminate)]⟩
  | spared {first granted : Host} {t : Termination} (asked : Host) (rest : List Host) :
      Asked s pid owned first granted t →
      History s pid owned (first :: asked :: granted :: rest)
        ⟨.over (.ok ()), [(pid, Signal.terminate)]⟩
  | expired {first granted late : Host} {t : Termination} (asked : Host) (between : List Host) :
      Expired s pid owned first granted late t →
      History s pid owned (first :: asked :: granted :: (between ++ [late]))
        ⟨.pollLate t, [(pid, Signal.terminate)]⟩
  | stillThere {first granted late there : Host} {t : Termination} (asked : Host)
      (between : List Host) : Expired s pid owned first granted late t → there.isAlive pid = true →
      History s pid owned (first :: asked :: granted :: (between ++ [late, there]))
        ⟨.judgeAgain t, [(pid, Signal.terminate)]⟩
  | stillSame {first granted late there again : Host} {t : Termination} (asked : Host)
      (between : List Host) : Expired s pid owned first granted late t → there.isAlive pid = true →
      seen s pid again = .script t.identity →
      History s pid owned (first :: asked :: granted :: (between ++ [late, there, again]))
        ⟨.kill t, [(pid, Signal.terminate)]⟩
  | killed {first granted late there again last : Host} {t : Termination} (asked : Host)
      (between rest : List Host) : Expired s pid owned first granted late t →
      there.isAlive pid = true → seen s pid again = .script t.identity →
      History s pid owned
        (first :: asked :: granted :: (between ++ late :: there :: again :: last :: rest))
        ⟨.over (last.signalled pid Signal.kill), [(pid, Signal.terminate), (pid, Signal.kill)]⟩

/-- What passes the first look is none of the service's own and runs a script. -/
theorem judged_of_begin {now : Moment} {gracePeriod : Duration}
    (h : Termination.begin pid first.self owned gracePeriod now (seen s pid first) = .ok t) :
    Judged s pid owned first t := by
  unfold Termination.begin at h
  split at h
  · cases h
  · next hOther =>
    obtain ⟨hOwned, hSelf⟩ : pid ∉ owned ∧ pid ≠ first.self := by simpa using hOther
    split at h
    · cases h
    · cases h
    · next hSeen =>
      cases h
      exact ⟨hOwned, hSelf, rfl, hSeen⟩

/-- One step goes on with the history. -/
theorem History.step (h : History s pid owned hosts e) (next : Host) :
    History s pid owned (hosts ++ [next]) (Ending.step s pid owned e next) := by
  cases h with
  | begun =>
    simp only [Ending.step, List.nil_append]
    split
    · next hJudge => exact .judged (judged_of_begin hJudge)
    · next hJudge => exact .rejected [] hJudge
  | rejected rest hJudge => exact .rejected _ hJudge
  | judged hJudged =>
    simp only [Ending.step, List.nil_append, hJudged.target, List.cons_append]
    split
    · exact .asked next hJudged
    · next hSignal =>
      obtain ⟨cause, rfl⟩ := Host.signalled_error hSignal
      exact .notAsked next [] hJudged
  | notAsked asked rest hJudged => exact .notAsked asked _ hJudged
  | asked asked hJudged =>
    exact .waits asked [] ⟨⟨hJudged.notOwned, hJudged.notSelf, hJudged.target, hJudged.seen⟩, rfl⟩
  | waits asked between hAsked =>
    simp only [Ending.step]
    split
    · exact .polls asked _ hAsked
    · next hTime => exact .expired asked between ⟨hAsked, hAsked.deadline ▸ Nat.le_of_not_lt hTime⟩
  | polls asked between hAsked =>
    simp only [Ending.step]
    split
    · exact .waits asked _ hAsked
    · exact .spared asked _ hAsked
  | spared asked rest hAsked => exact .spared asked _ hAsked
  | expired asked between hExpired =>
    simp only [Ending.step, hExpired.target, List.cons_append, List.append_assoc, List.nil_append]
    split
    · next hThere => exact .stillThere asked between hExpired hThere
    · exact .spared asked _ hExpired.toAsked
  | stillThere asked between hExpired hThere =>
    simp only [Ending.step, hExpired.target, List.cons_append, List.append_assoc, List.nil_append]
    split
    · next hSame => exact .stillSame asked between hExpired hThere hSame
    · exact .spared asked _ hExpired.toAsked
  | stillSame asked between hExpired hThere hSame =>
    simp only [Ending.step, hExpired.target, List.cons_append, List.append_assoc, List.nil_append]
    exact .killed asked between [] hExpired hThere hSame
  | killed asked between rest hExpired hThere hSame =>
    simp only [Ending.step, List.cons_append, List.append_assoc]
    exact .killed asked between _ hExpired hThere hSame

/-- Whatever the hosts, an ending has a history. -/
theorem history_run (s : Scanner) (pid : UInt32) (owned : List UInt32) (hosts : List Host) :
    History s pid owned hosts (run s pid owned hosts) := by
  induction hosts using List.reverseRecOn with
  | nil => exact .begun
  | append_singleton hosts next ih =>
    rw [run_concat]
    exact ih.step next

-- ---------------------------------------------------------------------------
-- The law
-- ---------------------------------------------------------------------------

/-- The first look rejects a process as none of those that may be ended: it is the service's own, or
it runs no script. -/
def NotExternal (s : Scanner) (pid : UInt32) (owned : List UInt32) (first : Host) : Prop :=
  pid ∈ owned ∨ pid = first.self ∨ ∃ p, first.shown? pid = some p ∧ ∀ name, ¬ s.Runs first.files p name

/-- The first look finds no process with the number. -/
def NotFound (pid : UInt32) (owned : List UInt32) (first : Host) : Prop :=
  pid ∉ owned ∧ pid ≠ first.self ∧ first.shown? pid = none

/-- What the first look makes of a process, by what that is. -/
theorem begin_cases (s : Scanner) (pid : UInt32) (owned : List UInt32) (first : Host) (now : Moment) :
    (NotExternal s pid owned first ∧ ¬ NotFound pid owned first ∧
      Termination.begin pid first.self owned s.gracePeriod now (seen s pid first) =
        .error (.notExternal pid)) ∨
    (NotFound pid owned first ∧ ¬ NotExternal s pid owned first ∧
      Termination.begin pid first.self owned s.gracePeriod now (seen s pid first) =
        .error (.notFound ("process " ++ toString pid))) ∨
    (¬ NotExternal s pid owned first ∧ ¬ NotFound pid owned first ∧ ∃ t,
      Termination.begin pid first.self owned s.gracePeriod now (seen s pid first) = .ok t) := by
  by_cases hOwn : pid ∈ owned ∨ pid = first.self
  · refine .inl ⟨hOwn.imp_right .inl, fun hNone => ?_, ?_⟩
    · exact hOwn.elim hNone.1 hNone.2.1
    · unfold Termination.begin
      rw [if_pos (by simpa using hOwn)]
  · obtain ⟨hOwned, hSelf⟩ := not_or.mp hOwn
    unfold Termination.begin
    rw [if_neg (by simpa using hOwn)]
    cases hSeen : seen s pid first with
    | gone =>
      have hNone := seen_eq_gone_iff.mp hSeen
      refine .inr (.inl ⟨⟨hOwned, hSelf, hNone⟩, ?_, rfl⟩)
      rintro (hOwn' | hSelf' | ⟨p, hSome, -⟩)
      · exact hOwned hOwn'
      · exact hSelf hSelf'
      · cases hNone.symm.trans hSome
    | unmanaged =>
      obtain ⟨p, hSome, hNames⟩ := seen_eq_unmanaged_iff.mp hSeen
      refine .inl ⟨.inr (.inr ⟨p, hSome, hNames⟩), fun hNone => ?_, rfl⟩
      cases hNone.2.2.symm.trans hSome
    | script identity =>
      obtain ⟨p, hSome, -, hRuns⟩ := seen_eq_script_iff.mp hSeen
      refine .inr (.inr ⟨?_, fun hNone => ?_, _, rfl⟩)
      · rintro (hOwn' | hSelf' | ⟨p', hSome', hNames⟩)
        · exact hOwned hOwn'
        · exact hSelf hSelf'
        · obtain rfl := Option.some.inj (hSome.symm.trans hSome')
          exact hNames _ hRuns
      · cases hNone.2.2.symm.trans hSome

/-- An ending answers with the fault of the first look and has sent nothing, or the process passed the
first look and the ending answers with no fault but one of the host. -/
theorem History.answer?_cases (h : History s pid owned (first :: hosts) e) :
    (∃ fault, Termination.begin pid first.self owned s.gracePeriod first.now (seen s pid first) =
        .error fault ∧ e.answer? = some (.error fault) ∧ e.signals = []) ∨
      (∃ t, Judged s pid owned first t) ∧
        ∀ fault, e.answer? = some (.error fault) → ∃ cause, fault = .io cause := by
  generalize hAll : first :: hosts = all at h
  cases h with
  | begun => cases hAll
  | rejected rest hJudge =>
    cases hAll
    exact .inl ⟨_, hJudge, rfl, rfl⟩
  | judged hJudged =>
    cases hAll
    exact .inr ⟨⟨_, hJudged⟩, nofun⟩
  | notAsked asked rest hJudged =>
    cases hAll
    refine .inr ⟨⟨_, hJudged⟩, fun fault hAnswer => ?_⟩
    cases hAnswer
    exact ⟨_, rfl⟩
  | asked asked hJudged =>
    cases hAll
    exact .inr ⟨⟨_, hJudged⟩, nofun⟩
  | waits asked between hAsked | polls asked between hAsked | spared asked between hAsked =>
    cases hAll
    exact .inr ⟨⟨_, hAsked.toJudged⟩, nofun⟩
  | expired asked between hExpired | stillThere asked between hExpired
  | stillSame asked between hExpired =>
    cases hAll
    exact .inr ⟨⟨_, hExpired.toJudged⟩, nofun⟩
  | killed asked between rest hExpired =>
    cases hAll
    refine .inr ⟨⟨_, hExpired.toJudged⟩, fun fault hAnswer => ?_⟩
    exact Host.signalled_error (Option.some.inj hAnswer)

/-- What the first look rejects is answered as such, and nothing else is. -/
theorem History.rejection (h : History s pid owned (first :: hosts) e) :
    (∀ other, e.answer? = some (.error (.notExternal other)) ↔
      other = pid ∧ NotExternal s pid owned first) ∧
    (∀ what, e.answer? = some (.error (.notFound what)) ↔
      what = "process " ++ toString pid ∧ NotFound pid owned first) ∧
    (NotExternal s pid owned first ∨ NotFound pid owned first → e.signals = []) := by
  rcases h.answer?_cases with ⟨fault, hFault, hAnswer, hSignals⟩ | ⟨⟨t, hJudged⟩, hIo⟩
  · rw [hAnswer]
    rcases begin_cases s pid owned first first.now with
      ⟨hNot, hOther, hLook⟩ | ⟨hNot, hOther, hLook⟩ | ⟨-, -, t, hLook⟩
    · obtain rfl := Except.error.inj (hFault.symm.trans hLook)
      exact ⟨by simp [hNot, eq_comm], by simp [hOther], fun _ => hSignals⟩
    · obtain rfl := Except.error.inj (hFault.symm.trans hLook)
      exact ⟨by simp [hOther], by simp [hNot, eq_comm], fun _ => hSignals⟩
    · cases hFault.symm.trans hLook
  · -- what passed the first look was not rejected by it
    have hPassed : ¬ NotExternal s pid owned first ∧ ¬ NotFound pid owned first := by
      obtain ⟨p, hSome, -, hRuns⟩ := seen_eq_script_iff.mp hJudged.seen
      constructor
      · rintro (hOwned | hSelf | ⟨p', hSome', hNames⟩)
        · exact hJudged.notOwned hOwned
        · exact hJudged.notSelf hSelf
        · obtain rfl := Option.some.inj (hSome.symm.trans hSome')
          exact hNames _ hRuns
      · intro hNone
        cases hNone.2.2.symm.trans hSome
    refine ⟨fun other => ⟨fun hAnswer => ?_, fun hNot => absurd hNot.2 hPassed.1⟩,
      fun what => ⟨fun hAnswer => ?_, fun hNot => absurd hNot.2 hPassed.2⟩,
      fun hNot => (hNot.elim hPassed.1 hPassed.2).elim⟩
    · obtain ⟨cause, hCause⟩ := hIo _ hAnswer
      cases hCause
    · obtain ⟨cause, hCause⟩ := hIo _ hAnswer
      cases hCause

/-- No signal but the two, and each for its reason. -/
theorem History.signals (h : History s pid owned hosts e) :
    e.signals = [] ∨
    (∃ first rest identity, hosts = first :: rest ∧ pid ∉ owned ∧ pid ≠ first.self ∧
      s.Finds first pid identity ∧
      (e.signals = [(pid, Signal.terminate)] ∨
        e.signals = [(pid, Signal.terminate), (pid, Signal.kill)] ∧
          ∃ asked granted between late there again later,
            rest = asked :: granted :: (between ++ late :: there :: again :: later) ∧
            granted.now.after s.gracePeriod ≤ late.now ∧ there.isAlive pid = true ∧
            s.Finds again pid identity)) := by
  have hFirst : ∀ {first t}, Judged s pid owned first t → pid ∉ owned ∧ pid ≠ first.self ∧
      s.Finds first pid t.identity := fun hJudged =>
    ⟨hJudged.notOwned, hJudged.notSelf, seen_eq_script_iff.mp hJudged.seen⟩
  cases h with
  | begun => exact .inl rfl
  | rejected => exact .inl rfl
  | judged => exact .inl rfl
  | notAsked asked rest hJudged =>
    obtain ⟨hOwned, hSelf, hRuns⟩ := hFirst hJudged
    exact .inr ⟨_, _, _, rfl, hOwned, hSelf, hRuns, .inl rfl⟩
  | asked asked hJudged =>
    obtain ⟨hOwned, hSelf, hRuns⟩ := hFirst hJudged
    exact .inr ⟨_, _, _, rfl, hOwned, hSelf, hRuns, .inl rfl⟩
  | waits asked between hAsked | polls asked between hAsked | spared asked between hAsked =>
    obtain ⟨hOwned, hSelf, hRuns⟩ := hFirst hAsked.toJudged
    exact .inr ⟨_, _, _, rfl, hOwned, hSelf, hRuns, .inl rfl⟩
  | expired asked between hExpired | stillThere asked between hExpired
  | stillSame asked between hExpired =>
    obtain ⟨hOwned, hSelf, hRuns⟩ := hFirst hExpired.toJudged
    exact .inr ⟨_, _, _, rfl, hOwned, hSelf, hRuns, .inl rfl⟩
  | killed asked between rest hExpired hThere hSame =>
    obtain ⟨hOwned, hSelf, hRuns⟩ := hFirst hExpired.toJudged
    exact .inr ⟨_, _, _, rfl, hOwned, hSelf, hRuns, .inr ⟨rfl, asked, _, between, _, _, _, _, rfl,
      hExpired.late, hThere, seen_eq_script_iff.mp hSame⟩⟩

/-- A process that the first look does not reject is asked to end, on the next host. -/
theorem History.asks {asked : Host} (h : History s pid owned (first :: asked :: hosts) e)
    (hExternal : ¬ NotExternal s pid owned first) (hThere : ¬ NotFound pid owned first) :
    (pid, Signal.terminate) ∈ e.signals := by
  generalize hAll : first :: asked :: hosts = all at h
  cases h with
  | begun => cases hAll
  | judged => cases hAll
  | rejected rest hJudge =>
    cases hAll
    rcases begin_cases s pid owned first first.now with
      ⟨hNot, -⟩ | ⟨hNot, -⟩ | ⟨-, -, t, hLook⟩
    · exact absurd hNot hExternal
    · exact absurd hNot hThere
    · cases hJudge.symm.trans hLook
  | _ => exact List.mem_cons_self

/--
**An ending signals the process that it has looked at, or none.** Let the ending of a process find any
hosts, one for each of its steps, with any processes on them. Then it sends no signal, or asks the
process to end, or asks it and then kills it.

* It asks only a process that on the first host is none of the service's own and runs a script of the
  directory.
* It kills only after it has found the end of the grace period on one host, a process of the number on
  the next, and on the one after that a process that was started at the same time and runs the same
  script as on the first host.
* It answers that the process is none to be ended, or that there is none, just if the first host shows
  that, and then it sends nothing; any other process it asks on the second host.
-/
theorem signals_follow_identity (s : Scanner) (pid : UInt32) (owned : List UInt32)
    (hosts : List Host) :
    let e := run s pid owned hosts
    (e.signals = [] ∨
      ∃ first rest identity, hosts = first :: rest ∧ pid ∉ owned ∧ pid ≠ first.self ∧
        s.Finds first pid identity ∧
        (e.signals = [(pid, Signal.terminate)] ∨
          e.signals = [(pid, Signal.terminate), (pid, Signal.kill)] ∧
            ∃ asked granted between late there again later,
              rest = asked :: granted :: (between ++ late :: there :: again :: later) ∧
              granted.now.after s.gracePeriod ≤ late.now ∧ there.isAlive pid = true ∧
              s.Finds again pid identity)) ∧
    ∀ first rest, hosts = first :: rest →
      (∀ other, e.answer? = some (.error (.notExternal other)) ↔
        other = pid ∧ NotExternal s pid owned first) ∧
      (∀ what, e.answer? = some (.error (.notFound what)) ↔
        what = "process " ++ toString pid ∧ NotFound pid owned first) ∧
      (NotExternal s pid owned first ∨ NotFound pid owned first → e.signals = []) ∧
      (¬ NotExternal s pid owned first → ¬ NotFound pid owned first → rest ≠ [] →
        (pid, Signal.terminate) ∈ e.signals) := by
  intro e
  have hHistory := history_run s pid owned hosts
  refine ⟨hHistory.signals, ?_⟩
  rintro first rest rfl
  obtain ⟨hExternal, hThere, hNothing⟩ := hHistory.rejection
  refine ⟨hExternal, hThere, hNothing, fun hPassed hFound hMore => ?_⟩
  obtain ⟨asked, later, rfl⟩ := List.exists_cons_of_ne_nil hMore
  exact hHistory.asks hPassed hFound

/-- A host on which the process 5 was started at a time and runs a script of a directory. -/
def hostRunning (startedAt : Moment) (script : String) : Host :=
  { loggingHost with
    files := { loggingHost.files with
      entries := (["scripts", "b.py"], .file 1) :: loggingHost.files.entries }
    processes := [{ pid := 5, parent := 1, command := [encodeUtf8 "python3", encodeUtf8 script]
                    workingDir := "/scripts", descriptors := [], program := .exit 0, startedAt,
                    ignored := [Signal.terminate] }] }

/-- A process that does not end is killed; one that has its number and runs another script, or was
started later, is not. -/
theorem recycled_number_spared :
    let s : Scanner := { directory := "/scripts", gracePeriod := {} }
    let stubborn := hostRunning 0 "a.py"
    let endingWith := fun (last : Host) => run s 5 [] (List.replicate 5 stubborn ++ [last, last])
    (endingWith stubborn).signals = [(5, Signal.terminate), (5, Signal.kill)] ∧
      (endingWith (hostRunning 0 "b.py")).signals = [(5, Signal.terminate)] ∧
      (endingWith (hostRunning 3000000000 "a.py")).signals = [(5, Signal.terminate)] ∧
      ∃ identity, s.Finds stubborn 5 identity := by
  intro s stubborn endingWith
  have hKilled : (endingWith stubborn).signals = [(5, Signal.terminate), (5, Signal.kill)] := by
    decide +kernel
  refine ⟨hKilled, by decide +kernel, by decide +kernel, ?_⟩
  rcases (signals_follow_identity s 5 [] (List.replicate 5 stubborn ++ [stubborn, stubborn])).1 with
    hNone | ⟨first, rest, identity, hHosts, -, -, hFinds, -⟩
  · cases hKilled.symm.trans hNone
  · obtain ⟨rfl, -⟩ := List.cons.inj hHosts
    exact ⟨identity, hFinds⟩

end Ending

end ScriptWarden
