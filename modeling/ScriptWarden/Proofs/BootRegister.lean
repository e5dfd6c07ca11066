import ScriptWarden.Proofs.Files.DesignationFile
import ScriptWarden.Proofs.Runs.ValidatedFiles

/-!
# The boot script as a register

The designation of the boot script is meant as a register for one name: what is read is the last
name that was set, unless it has been cleared since, by a clear, by a clear of that name or by a
deletion of that script. Whether a service is taken down in between and another begins on the same
files makes no difference.

The name goes through a text whose blank ends do not count. A script's name can begin with a blank,
and such a name is read without it: then it is another name that is registered, and neither a clear
of the script's name nor a deletion of the script clears it. For all other names the register is
what it is meant to be.

The designation is kept in a file of its own, in a directory that is there.

## Results

* `perform_registers` — what every deed does to the register; `course_registers` — a whole course.
* `designation_is_register` — what is read after any course.
* `blank_name_lost` — a name that begins with a blank is read as another, and outlives its script.
-/

namespace ScriptWarden

-- ---------------------------------------------------------------------------
-- Deeds
-- ---------------------------------------------------------------------------

/-- What is done to a service's choice of a boot script, and what goes on around it. -/
inductive BootDeed where
  | designate (n : ScriptName)
  | clear
  | clearOf (name : String)
  | setAutoboot (n : ScriptName) (enabled : Bool)
  | delete (n : ScriptName)
  /-- Another service begins where one was. -/
  | reopen (service : Service)
  /-- The host goes on, with its clock, its processes and its files. -/
  | elsewhere (host : Host)

namespace BootDeed

/-- Whether work is done, and what it leaves behind. -/
def run {α : Type} (work : DeploymentWork α) (d : Deployment) : Bool × Deployment :=
  ((work d).1.isOk, (work d).2)

/-- Whether a deed succeeds, and the deployment after it. -/
def perform : BootDeed → Deployment → Bool × Deployment
  | .designate n => run (Deployment.onStore (Store.designate n))
  | .clear => run (Deployment.onStore Store.clearDesignation)
  | .clearOf name => run (Deployment.onStore (Store.clearDesignationOf name))
  | .setAutoboot n enabled => run (Deployment.setAutoboot n enabled)
  | .delete n => run (Deployment.deleteScript n)
  | .reopen service => fun d => (true, { d with service })
  | .elsewhere host => fun d => (true, { d with host })

/-- A service keeps its files where the one before did, and the host leaves the designation alone. -/
def Considerate (d : Deployment) : BootDeed → Prop
  | .reopen service => service.registry.site = d.service.registry.site
  | .elsewhere host => ∀ r, d.store.Registers r → (Deployment.store { d with host }).Registers r
  | _ => True

/-- What a register for one name holds after a deed that is done, if a script's name is registered
as this. -/
def after (name : ScriptName → String) (before : Option String) : BootDeed → Option String
  | .designate n => some (name n)
  | .clear => none
  | .clearOf text => if before = some text then none else before
  | .setAutoboot n enabled =>
    if enabled then some (name n) else if before = some n.text then none else before
  | .delete n => if before = some n.text then none else before
  | .reopen _ => before
  | .elsewhere _ => before

/-- The script whose name a deed sets. -/
def sets? : BootDeed → Option ScriptName
  | .designate n => some n
  | .setAutoboot n true => some n
  | _ => none

end BootDeed

/-- What a register for one name holds after deeds, newest first, of which it is known whether they
succeeded. One that failed changes nothing. -/
def registered (name : ScriptName → String) (first : Option String) :
    List (BootDeed × Bool) → Option String
  | [] => first
  | (deed, done) :: earlier =>
    let before := registered name first earlier
    if done then deed.after name before else before

/-- The deployments that deeds lead to, with the deeds, newest first, and whether they succeeded. -/
inductive BootCourse (d₀ : Deployment) : List (BootDeed × Bool) → Deployment → Prop
  | begin : BootCourse d₀ [] d₀
  | next {past : List (BootDeed × Bool)} {d : Deployment} (deed : BootDeed) :
      BootCourse d₀ past d → deed.Considerate d →
      BootCourse d₀ ((deed, (deed.perform d).1) :: past) (deed.perform d).2

-- ---------------------------------------------------------------------------
-- What deeds do to the register
-- ---------------------------------------------------------------------------

variable {d d₀ : Deployment} {r : Option String} {past : List (BootDeed × Bool)}

/-- Work on the store, as it is seen in the deployment. -/
theorem onStore_registers {α : Type} {work : StoreWork α} {before after : Option String}
    (h : d.store.Leads before after (work d.store)) :
    (BootDeed.run (Deployment.onStore work) d).2.store.Registers
      (if (BootDeed.run (Deployment.onStore work) d).1 then after else before) :=
  Store.Registers.of_files h.registers rfl rfl

/-- What a deed does to the register. -/
theorem perform_registers (h : d.store.Registers r) {deed : BootDeed}
    (hConsiderate : deed.Considerate d) :
    (deed.perform d).2.store.Registers
      (if (deed.perform d).1 then deed.after ScriptName.designation r else r) := by
  cases deed with
  | designate n => exact onStore_registers (Store.designate_registers h n)
  | clear => exact onStore_registers (Store.clearDesignation_registers h).2
  | clearOf name => exact onStore_registers (Store.clearDesignationOf_registers h name).2
  | setAutoboot n enabled => exact onStore_registers (Store.setAutoboot_registers h n enabled)
  | delete n =>
    by_cases hFree : d.slots.slot? n = none
    · rw [BootDeed.perform, BootDeed.run, deleteScript_free hFree]
      exact onStore_registers (Store.retireScript_registers h n)
    · rw [BootDeed.perform, BootDeed.run, deleteScript_busy hFree]
      exact h
  | reopen service => exact h.of_files hConsiderate rfl
  | elsewhere host => exact hConsiderate r h

theorem course_registers (hFirst : d₀.store.Registers r) (hCourse : BootCourse d₀ past d) :
    d.store.Registers (registered ScriptName.designation r past) := by
  induction hCourse with
  | begin => exact hFirst
  | next deed _ hConsiderate ih => exact perform_registers ih hConsiderate

-- ---------------------------------------------------------------------------
-- The law
-- ---------------------------------------------------------------------------

/-- Where no name is set that begins with a blank, names are registered as they are. -/
theorem registered_text (first : Option String)
    (hNames : ∀ deed n, (deed, true) ∈ past → deed.sets? = some n → n.beginsBlank = false) :
    registered ScriptName.designation first past = registered ScriptName.text first past := by
  induction past with
  | nil => rfl
  | cons newest earlier ih =>
    obtain ⟨deed, done⟩ := newest
    have hEarlier := ih fun deed n hMem => hNames deed n (List.mem_cons_of_mem _ hMem)
    have hSets : ∀ n, done = true → deed.sets? = some n → n.designation = n.text := by
      rintro n rfl hSet
      exact n.designation_eq_text (hNames deed n List.mem_cons_self hSet)
    simp only [registered, hEarlier]
    cases done with
    | false => rfl
    | true =>
      cases deed with
      | designate n => simp [BootDeed.after, hSets n rfl rfl]
      | setAutoboot n enabled =>
        cases enabled with
        | true => simp [BootDeed.after, hSets n rfl rfl]
        | false => rfl
      | _ => rfl

/--
**The designation is a register for one name.** Let a designation be kept in a file of its own, in a
directory that is there, and name something or nothing; and let any course of settings, clears,
deletions of scripts and new services on the same files follow, whichever of them succeed. Then what
is read is the name of the last script that was set, without the blanks that it begins with, unless
a later clear, a later clear of what is read or a later deletion of the script of that name has
removed it; and where no name that was set begins with a blank, it is that very name.
-/
theorem designation_is_register (hKept : d₀.store.site.DesignationKept d₀.store.files)
    (hFirst : d₀.store.designated = .ok r) (hCourse : BootCourse d₀ past d) :
    d.store.designated = .ok (registered ScriptName.designation r past) ∧
      ((∀ deed n, (deed, true) ∈ past → deed.sets? = some n → n.beginsBlank = false) →
        d.store.designated = .ok (registered ScriptName.text r past)) := by
  have hRegisters := course_registers ⟨hKept, (Store.designated_iff hKept).mp hFirst⟩ hCourse
  refine ⟨hRegisters.designated, fun hNames => ?_⟩
  rw [← registered_text r hNames]
  exact hRegisters.designated

/-- A script whose name begins with a blank. -/
def blankScript : ScriptName := ⟨" a.py", by decide +kernel⟩

/-- A host with two scripts, one of them with a name that begins with a blank. -/
def twoScripts : Host :=
  { emptyHost with
    files :=
      { entries := [(["scripts"], .directory), (["scripts", " a.py"], .file 0),
          (["scripts", "a.py"], .file 1)]
        nextId := 2 } }

/-- A service of those scripts, whose designation is to lie in the root. -/
def bootDeployment : Deployment :=
  let config := { emptyConfig with autobootFile := "/boot.txt" }
  { host := twoScripts, service := .new config "/" "host" twoScripts.files }

theorem twoScripts_plain : twoScripts.files.Plain := by
  apply Files.plain_of_entries <;> simp [twoScripts]

theorem bootDeployment_kept :
    bootDeployment.store.site.DesignationKept bootDeployment.store.files := by
  have hBoot : bootDeployment.store.files.place
      (bootDeployment.store.site.seen bootDeployment.store.site.autobootFile) false =
      .ok ["boot.txt"] := by decide +kernel
  have hApart : ∀ {name : String} {q q' : FilePlace}, q' = ["boot.txt"] →
      q.getLast? = some name → name.toList.getLast? ≠ some 't' → q ≠ q' := by
    rintro name q _ rfl hLast hEnd rfl
    cases hLast
    exact hEnd (by decide)
  refine ⟨⟨by decide +kernel, fun _ _ => twoScripts_plain.noLinks,
    fun _ => twoScripts_plain.oneName, twoScripts_plain.fresh, ?_⟩, ⟨_, hBoot⟩, ?_,
    fun _ => twoScripts_plain.noLinks, fun _ => twoScripts_plain.oneName, ?_⟩
  · intro n q hPlace hPlace'
    obtain rfl := Except.ok.inj (hBoot.symm.trans hPlace)
    obtain ⟨stem, hText⟩ := n.text_endsInPy
    exact hApart rfl (Site.scriptPlace_getLast? hPlace') (by simp [hText, scriptSuffix]) rfl
  · intro directory hDirectory
    have hRoot : bootDeployment.store.site.designationDir? = some "/" := by decide +kernel
    obtain rfl := Option.some.inj (hRoot.symm.trans hDirectory)
    decide +kernel
  · intro n q hPlace hPlace'
    obtain rfl := Except.ok.inj (hBoot.symm.trans hPlace)
    exact hApart rfl (Site.logPlace_getLast? hPlace') (by simp [n.logName_toList]) rfl

/-- A script is chosen, a clear of another name and another service leave the choice. -/
theorem choice_is_kept :
    ∃ d, BootCourse bootDeployment
        [(.clearOf " a.py", true), (.reopen bootDeployment.service, true),
          (.setAutoboot default true, true)] d ∧
      d.store.designated = .ok (some "a.py") := by
  have hBegun : BootCourse bootDeployment [] bootDeployment := .begin
  have hChosen := hBegun.next (.setAutoboot default true) trivial
  have hSame : bootDeployment.service.registry.site =
      (BootDeed.perform (.setAutoboot default true) bootDeployment).2.service.registry.site := by
    decide +kernel
  have hReopened := hChosen.next (.reopen bootDeployment.service) hSame
  have hOther := hReopened.next (.clearOf " a.py") trivial
  have hDone : (BootDeed.perform (.setAutoboot default true) bootDeployment).1 = true := by
    decide +kernel
  have hDone' : (BootDeed.perform (.clearOf " a.py") (BootDeed.perform
      (.reopen bootDeployment.service) (BootDeed.perform (.setAutoboot default true)
        bootDeployment).2).2).1 = true := by
    decide +kernel
  rw [hDone, hDone'] at hOther
  refine ⟨_, hOther, ?_⟩
  rw [(designation_is_register (r := none) bootDeployment_kept (by decide +kernel) hOther).2 ?_]
  · rfl
  · intro deed n hMem hSet
    simp only [List.mem_cons, List.not_mem_nil, or_false, Prod.mk.injEq] at hMem
    rcases hMem with ⟨rfl, -⟩ | ⟨rfl, -⟩ | ⟨rfl, -⟩
    · cases hSet
    · cases hSet
    · cases hSet
      decide

/-- A script with a blank before its name is chosen and deleted: what is read all that time is the
name of another script, though nothing should be registered any more. -/
theorem blank_name_lost :
    ∃ d d', BootCourse bootDeployment [(.designate blankScript, true)] d ∧
      d.store.designated = .ok (some "a.py") ∧
      BootCourse bootDeployment [(.delete blankScript, true), (.designate blankScript, true)] d' ∧
      registered ScriptName.text none [(.delete blankScript, true),
        (.designate blankScript, true)] = none ∧
      d'.store.designated = .ok (some "a.py") := by
  have hBegun : BootCourse bootDeployment [] bootDeployment := .begin
  have hChosen := hBegun.next (.designate blankScript) trivial
  have hDeleted := hChosen.next (.delete blankScript) trivial
  have hDone : (BootDeed.perform (.designate blankScript) bootDeployment).1 = true := by
    decide +kernel
  have hDone' : (BootDeed.perform (.delete blankScript)
      (BootDeed.perform (.designate blankScript) bootDeployment).2).1 = true := by
    decide +kernel
  rw [hDone] at hChosen hDeleted
  rw [hDone'] at hDeleted
  exact ⟨_, _, hChosen, by decide +kernel, hDeleted, by decide +kernel, by decide +kernel⟩

end ScriptWarden
