import ScriptWarden.Http.Routes
import ScriptWarden.Boot.Launcher
import ScriptWarden.Client.Connection
import ScriptWarden.Proofs.Files.DesignationApart
import ScriptWarden.Proofs.Files.Drafts
import ScriptWarden.Proofs.Files.Listings
import ScriptWarden.Proofs.Files.ManagedFiles

/-!
# Names as they come in

Names of scripts come in from outside: in the path of an HTTP request, as the name of the file in a
form, in a request of a viewer, and in the file of the designation. Any text can stand there. A text
names a script only if it is the name of a visible file, without a separator or a control character,
that ends in `.py` after something. For any other text no file of a script is asked for.

Whatever comes in, the service lists, looks at, reads, writes, renames and removes only files that it
manages, and of scripts only those that the text names. By the text of its path such a file lies
directly in the directory of the scripts or in that of the logs, unless it is the file of the
designation or its draft. Where these paths lead is another matter: links are followed.

No two files of scripts have one name. So scripts of different names share no file, and a draft or a
log is never taken for a script, even where all lie in one directory.

## Results

* `isScriptName_iff` — the texts that name scripts.
* `ScriptFile.path_inj` — distinct files of scripts have distinct paths.
* `HttpRequest.answer_within`, `Connection.handleText_within`, `BootRun.begin_within` — what is asked
  for, by where the name came in.
* `rawNames_leadToManagedFiles` — the law.
-/

namespace ScriptWarden

-- ---------------------------------------------------------------------------
-- Names
-- ---------------------------------------------------------------------------

/-- What a text has to be to name a script. -/
structure NamesScript (text : String) : Prop where
  nonempty : text ≠ ""
  notHidden : text.toList.head? ≠ some '.'
  noSlash : '/' ∉ text.toList
  noBackslash : '\\' ∉ text.toList
  noControl : ∀ c ∈ text.toList, ¬ (c.toNat < 0x20 ∨ 0x7F ≤ c.toNat ∧ c.toNat ≤ 0x9F)
  ending : ∃ stem, stem ≠ "" ∧ text = stem ++ ".py"

theorem isPlainFileName_iff {text : List Char} : isPlainFileName text = true ↔
    text ≠ [] ∧ text.head? ≠ some '.' ∧ '/' ∉ text ∧ '\\' ∉ text ∧
      ∀ c ∈ text, ¬ (c.toNat < 0x20 ∨ 0x7F ≤ c.toNat ∧ c.toNat ≤ 0x9F) := by
  have hBreakers : text.any isNameBreaker = false ↔ '/' ∉ text ∧ '\\' ∉ text ∧
      ∀ c ∈ text, ¬ (c.toNat < 0x20 ∨ 0x7F ≤ c.toNat ∧ c.toNat ≤ 0x9F) := by
    simp only [List.any_eq_false, isNameBreaker, isControl, Bool.or_eq_true, Bool.and_eq_true,
      beq_iff_eq, decide_eq_true_eq, not_or, or_assoc]
    constructor
    · intro h
      exact ⟨fun hMem => (h _ hMem).1 rfl, fun hMem => (h _ hMem).2.1 rfl,
        fun c hMem => (h c hMem).2.2⟩
    · rintro ⟨hSlash, hBackslash, hControl⟩ c hMem
      exact ⟨fun hc => hSlash (hc ▸ hMem), fun hc => hBackslash (hc ▸ hMem), hControl c hMem⟩
  simp only [isPlainFileName, Bool.and_eq_true, Bool.not_eq_true', List.isEmpty_eq_false_iff,
    bne_iff_ne, hBreakers, and_assoc]

theorem hasScriptSuffix_iff {text : String} :
    hasScriptSuffix text.toList = true ↔ ∃ stem, stem ≠ "" ∧ text = stem ++ ".py" := by
  rw [hasScriptSuffix, Bool.and_eq_true, decide_eq_true_eq, beq_iff_eq]
  constructor
  · rintro ⟨hLong, hEnd⟩
    refine ⟨String.ofList (text.toList.take (text.toList.length - 3)), fun hEmpty => ?_, ?_⟩
    · have hLength := congrArg (List.length ∘ String.toList) hEmpty
      simp at hLength
      omega
    · apply String.toList_inj.mp
      have hSplit := List.take_append_drop (text.toList.length - 3) text.toList
      rw [hEnd] at hSplit
      simpa [scriptSuffix] using hSplit.symm
  · rintro ⟨stem, hStem, rfl⟩
    have hList : (stem ++ ".py").toList = stem.toList ++ scriptSuffix := by simp [scriptSuffix]
    have hSome : 0 < stem.toList.length :=
      List.length_pos_of_ne_nil fun hNil => hStem (String.toList_eq_nil_iff.mp hNil)
    have hLength : (stem.toList ++ scriptSuffix).length = stem.toList.length + 3 := by
      simp [scriptSuffix]
    rw [hList, hLength]
    exact ⟨by omega, List.drop_left⟩

/-- **The texts that name scripts.** -/
theorem isScriptName_iff {text : String} : isScriptName text.toList = true ↔ NamesScript text := by
  rw [isScriptName, Bool.and_eq_true, isPlainFileName_iff, hasScriptSuffix_iff]
  constructor
  · rintro ⟨⟨hSome, hHead, hSlash, hBackslash, hControl⟩, hEnding⟩
    exact ⟨fun hEmpty => hSome (hEmpty ▸ rfl), hHead, hSlash, hBackslash, hControl, hEnding⟩
  · intro h
    exact ⟨⟨fun hNil => h.nonempty (String.toList_eq_nil_iff.mp hNil), h.notHidden, h.noSlash,
      h.noBackslash, h.noControl⟩, h.ending⟩

theorem parseName_eq_ok {text : String} {n : ScriptName} :
    parseName text = .ok n ↔ ScriptName.parse text = .ok n := by
  rw [parseName]
  cases ScriptName.parse text <;> simp [Except.mapError]

/-- A name that leads out of a directory names no script. -/
example : ¬ NamesScript "../a.py" := fun h => h.noSlash (by decide)

namespace ScriptName

theorem parse_eq_ok {text : String} {n : ScriptName} : parse text = .ok n ↔ text = n.text := by
  rw [← parse_eq_some]
  cases parse text <;> simp [Except.toOption]

theorem parse_accepts {text : String} : (∃ n, parse text = .ok n) ↔ NamesScript text := by
  simp only [parse_eq_ok, ← isScriptName_iff]
  exact ⟨fun ⟨n, hText⟩ => hText ▸ n.accepted, fun h => ⟨⟨text, h⟩, rfl⟩⟩

/-- A script is called like its module, with the ending. -/
theorem text_eq_module (n : ScriptName) : n.text = n.module ++ ".py" := by
  obtain ⟨stem, hText⟩ := n.text_endsInPy
  apply String.toList_inj.mp
  simp [module, hText, scriptSuffix]

theorem eq_of_module {n m : ScriptName} (h : n.module = m.module) : n = m :=
  eq_of_text (by rw [n.text_eq_module, m.text_eq_module, h])

theorem eq_of_logName {n m : ScriptName} (h : n.logName = m.logName) : n = m := by
  have hList := congrArg String.toList h
  rw [n.logName_toList, m.logName_toList] at hList
  exact eq_of_text (String.toList_inj.mp (List.append_cancel_right hList))

end ScriptName

-- ---------------------------------------------------------------------------
-- The files of a script
-- ---------------------------------------------------------------------------

/-- The files that there are of a script. -/
inductive ScriptFile where
  | script
  | upload
  | log
deriving DecidableEq

namespace ScriptFile

/-- The name of a file of a script. -/
def name (n : ScriptName) : ScriptFile → String
  | script => n.text
  | upload => n.uploadName
  | log => n.logName

/-- The directory for such files. -/
def directory (site : Site) : ScriptFile → String
  | script | upload => site.scriptsDir
  | log => site.logDir

/-- The path of a file of a script. -/
def path (site : Site) (n : ScriptName) : ScriptFile → String
  | script => site.scriptPath n
  | upload => site.uploadPath n
  | log => site.logPath n

variable {n m : ScriptName} {f g : ScriptFile}

theorem name_isFileName (n : ScriptName) (f : ScriptFile) : IsFileName (f.name n) := by
  cases f with
  | script => exact n.text_isFileName
  | upload => exact n.uploadName_isFileName
  | log => exact n.logName_isFileName

theorem path_eq (site : Site) (n : ScriptName) (f : ScriptFile) :
    f.path site n = joinPath (f.directory site) (f.name n) := by cases f <;> rfl

/-- No two files of scripts have one name. -/
theorem name_inj (h : f.name n = g.name m) : n = m ∧ f = g := by
  cases f <;> cases g
  case script.script => exact ⟨ScriptName.eq_of_text h, rfl⟩
  case upload.upload => exact ⟨ScriptName.eq_of_uploadName h, rfl⟩
  case log.log => exact ⟨ScriptName.eq_of_logName h, rfl⟩
  case script.upload => exact absurd h (n.text_ne_uploadName m)
  case script.log => exact absurd h (n.text_ne_logName m)
  case upload.script => exact absurd h.symm (m.text_ne_uploadName n)
  case upload.log => exact absurd h.symm (m.logName_ne_uploadName n)
  case log.script => exact absurd h.symm (m.text_ne_logName n)
  case log.upload => exact absurd h (n.logName_ne_uploadName m)

/-- A draft or a log is called like no script. -/
theorem parse_name_ne_ok (h : f ≠ script) (n m : ScriptName) : ScriptName.parse (f.name n) ≠ .ok m := by
  rw [ne_eq, ScriptName.parse_eq_ok]
  exact fun hName => h (name_inj (g := script) hName).2

end ScriptFile

theorem pathNames_of_isFileName {name : String} (h : IsFileName name) : pathNames name = [name] := by
  have hKept : name ≠ "" := fun hEmpty => h.nonempty (hEmpty ▸ rfl)
  rw [pathNames, cutAt, List.splitOn_eq_singleton h.noSlash]
  simp [hKept]

/-- A path to something directly in a directory, as its text has it: the path of the directory with
one name after it. -/
def IsChild (directory path : String) : Prop :=
  ∃ name, IsFileName name ∧ path = joinPath directory name ∧
    pathNames path = pathNames directory ++ [name]

namespace ScriptFile

theorem pathNames_path (site : Site) (n : ScriptName) (f : ScriptFile) :
    pathNames (f.path site n) = pathNames (f.directory site) ++ [f.name n] := by
  rw [path_eq]
  by_cases hDirectory : f.directory site = ""
  · rw [joinPath_of_relative (f.name_isFileName n).relative, hDirectory]
    exact pathNames_of_isFileName (f.name_isFileName n)
  · exact pathNames_joinPath hDirectory (f.name_isFileName n)

theorem path_isChild (site : Site) (n : ScriptName) (f : ScriptFile) :
    IsChild (f.directory site) (f.path site n) :=
  ⟨f.name n, f.name_isFileName n, path_eq site n f, pathNames_path site n f⟩

/-- **Distinct files of scripts have distinct paths**, whatever directories they lie in. -/
theorem path_inj {site : Site} {n m : ScriptName} {f g : ScriptFile}
    (h : pathNames (f.path site n) = pathNames (g.path site m)) : n = m ∧ f = g := by
  rw [pathNames_path, pathNames_path] at h
  exact name_inj (List.append_inj' h rfl |>.2 |> List.singleton_inj.mp)

end ScriptFile

/-- What a site manages is a file of a script, directly in the directory for such files, or the file
of the designation, or its draft. -/
theorem Site.Manages.isChild {site : Site} {about : ScriptName → Prop} {path : String}
    (h : site.Manages about path) :
    (∃ n f, about n ∧ path = ScriptFile.path site n f ∧ IsChild (f.directory site) path) ∨
      path = site.autobootFile ∨ path = site.designationDraft := by
  cases h with
  | @script n hn => exact .inl ⟨n, .script, hn, rfl, ScriptFile.path_isChild site n .script⟩
  | @upload n hn => exact .inl ⟨n, .upload, hn, rfl, ScriptFile.path_isChild site n .upload⟩
  | @log n hn => exact .inl ⟨n, .log, hn, rfl, ScriptFile.path_isChild site n .log⟩
  | designation => exact .inr (.inl rfl)
  | designationDraft => exact .inr (.inr rfl)

-- ---------------------------------------------------------------------------
-- HTTP requests
-- ---------------------------------------------------------------------------

/-- The scripts that a name in a path names, as it is written there. -/
def NamedInPath (raw : String) (n : ScriptName) : Prop :=
  ∃ text, decodeUtf8? (HttpRequest.unescaped raw.toList) = some text ∧ ScriptName.parse text = .ok n

/-- The scripts that the file of a form names. -/
def NamedInForm (r : HttpRequest) (n : ScriptName) : Prop :=
  ∃ boundary field, (r.header? "content-type").bind Multipart.boundary? = some boundary ∧
    Multipart.find? boundary "file" r.body = .ok (some field) ∧
      ScriptName.parse (field.fileName.getD "") = .ok n

namespace Route

/-- The scripts that a request with a route is about. -/
def Concerns (r : HttpRequest) : Route → ScriptName → Prop
  | .scripts => fun _ => True
  | .script raw | .log raw | .autoboot raw => NamedInPath raw
  | .upload => NamedInForm r
  | .hostname | .blocked | .socket => fun _ => False

variable {about : ScriptName → Prop} {d : Deployment} {n : ScriptName}

/-- The answer to what work told. -/
def answerTo : Except Fault Json → HttpAnswer
  | .ok value => .ok value
  | .error fault => .failure fault.httpStatus fault.message

theorem answerWork_apply (work : DeploymentWork Json) (d : Deployment) :
    answerWork work d = (answerTo (work d).1, (work d).2) := by
  show ((match (work d).1 with
    | .ok value => pure (.ok value)
    | .error fault => pure (.failure fault.httpStatus fault.message) : StateM Deployment HttpAnswer))
      (work d).2 = _
  cases (work d).1 <;> rfl

theorem answerWork_within {work : DeploymentWork Json} (h : Within (Deployment.permits about) work d) :
    Within (Deployment.permits about) (answerWork work) d := by
  have hAnswer : Within (Deployment.permits about)
      (fun d : Deployment => (answerTo (work d).1, (work d).2)) d :=
    h.seq (k := fun told d => (answerTo told, d)) ⟨rfl, .blind fun _ => rfl⟩
  exact hAnswer.congr fun fs => answerWork_apply work _

theorem pure_within (answer : HttpAnswer) :
    Within (Deployment.permits about) (pure answer : StateM Deployment HttpAnswer) d :=
  ⟨rfl, .blind fun _ => rfl⟩

theorem withName_within {raw : String} {work : ScriptName → DeploymentWork Json}
    (h : ∀ n, NamedInPath raw n → ∀ d, Within (Deployment.permits about) (work n) d) :
    Within (Deployment.permits about) (withName raw work) d := by
  unfold withName withText
  cases hText : decodeUtf8? (HttpRequest.unescaped raw.toList) with
  | none => exact pure_within _
  | some text =>
    refine answerWork_within ?_
    cases hName : ScriptName.parse text with
    | error fault => exact .throw _
    | ok n => exact h n ⟨text, hText, hName⟩ d

/-- A list of all scripts, with the processes that run scripts from outside. -/
theorem scriptsAnswer_within (hAll : ∀ n, about n) :
    Within (Deployment.permits about) scriptsAnswer d := by
  refine (Deployment.listScripts_within hAll).bind fun records d _ => ?_
  exact .of_asks (Deployment.externalProcesses_asks.map fun processes =>
    (.ok (Json.obj [("scripts", .arr (records.map (·.toJson))),
      ("external_processes", .arr (processes.map (·.toJson)))]) : Except Fault Json))

theorem scriptAnswer_within (hn : about n) : Within (Deployment.permits about) (scriptAnswer n) d := by
  refine (Deployment.scriptRecord_within hn).bind fun record d _ => ?_
  refine (Deployment.view_within ?_).bind fun _ _ _ => .pure _
  exact .of_files (Registry.source_asks d.service.registry d.host.files hn)

theorem logAnswer_within (hn : about n) : Within (Deployment.permits about) (logAnswer n) d := by
  have hLog : Within (Deployment.permits about)
      (Deployment.view fun d => d.service.registry.log d.host.files n) d :=
    Deployment.view_within (.of_files (Registry.log_asks d.service.registry d.host.files hn))
  refine hLog.bind fun found d _ => ?_
  cases found with
  | none => exact .throw _
  | some text => exact .pure _

theorem designation_within (hn : about n) (enabled : Bool) :
    Within (Deployment.permits about) (designation enabled n) d := by
  have hThere : Within (Deployment.permits about)
      (Deployment.view fun d => .ok (d.service.registry.hasFile d.host.files n)) d := by
    refine Deployment.view_within (.of_files ?_)
    exact (Registry.hasFile_asks d.service.registry d.host.files hn).map Except.ok
  unfold designation
  refine hThere.bind fun there d _ => ?_
  split
  · exact (Within.throw _).bind fun _ d _ =>
      (Deployment.setAutoboot_within hn enabled).bind fun _ _ _ => .pure _
  · exact (Deployment.setAutoboot_within hn enabled).bind fun _ _ _ => .pure _

theorem get_within {k : Deployment → StateM Deployment HttpAnswer}
    (hKnown : ∀ fs, k (withFiles d fs) = k d) (h : Within (Deployment.permits about) (k d) d) :
    Within (Deployment.permits about) (get >>= k) d :=
  ⟨h.kept, Confined.known (k := k) hKnown h.confined⟩

theorem autobootAnswer_within {raw : String} (body : List UInt8)
    (hAbout : ∀ n, NamedInPath raw n → about n) :
    Within (Deployment.permits about) (autobootAnswer raw body) d := by
  unfold autobootAnswer withText
  cases hText : decodeUtf8? (HttpRequest.unescaped raw.toList) with
  | none => exact pure_within _
  | some text =>
    refine get_within (fun _ => rfl) ?_
    split
    · exact pure_within _
    · cases hName : ScriptName.parse text with
      | error fault => exact answerWork_within (.throw _)
      | ok n =>
        cases enabledOf body with
        | error fault => exact pure_within _
        | ok enabled =>
          have hn : about n := hAbout n ⟨text, hText, hName⟩
          exact answerWork_within (designation_within hn enabled)

theorem uploadAnswer_within {r : HttpRequest} (hAbout : ∀ n, NamedInForm r n → about n) :
    Within (Deployment.permits about) (uploadAnswer r) d := by
  refine get_within (fun _ => rfl) ?_
  cases hBoundary : (r.header? "content-type").bind Multipart.boundary? with
  | none => exact pure_within _
  | some boundary =>
    simp only
    split
    · exact pure_within _
    · cases hFound : Multipart.find? boundary "file" r.body with
      | error fault => exact pure_within _
      | ok found =>
        cases found with
        | none => exact pure_within _
        | some field =>
          simp only
          split
          · exact pure_within _
          · have hUpload : Within (Deployment.permits about)
                (Deployment.saveUpload (field.fileName.getD "") field.bytes) d :=
              Deployment.saveUpload_within (fun n hName => hAbout n ⟨boundary, field, hBoundary, hFound,
                parseName_eq_ok.mp hName⟩) _
            refine answerWork_within ?_
            rw [map_eq_pure_bind]
            exact hUpload.bind fun _ _ _ => .pure _

/-- **A route asks for the files of the scripts that its request is about.** -/
theorem answer_within (route : Route) (r : HttpRequest) :
    Within (Deployment.permits (route.Concerns r)) (route.answer r) d := by
  cases route with
  | hostname => exact get_within (fun _ => rfl) (pure_within _)
  | scripts => exact answerWork_within (scriptsAnswer_within fun _ => trivial)
  | script raw =>
    unfold answer
    simp only
    split
    · exact withName_within fun n hn d => (Deployment.deleteScript_within hn).bind fun _ _ _ => .pure _
    · exact withName_within fun n hn d => scriptAnswer_within hn
  | log raw => exact withName_within fun n hn d => logAnswer_within hn
  | autoboot raw => exact autobootAnswer_within r.body fun _ hn => hn
  | upload => exact uploadAnswer_within fun _ hn => hn
  | blocked => exact get_within (fun _ => rfl) (pure_within _)
  | socket => exact pure_within _

end Route

namespace HttpRequest

/-- The scripts that a request is about. -/
def Concerns (r : HttpRequest) (n : ScriptName) : Prop :=
  ∃ route, Route.ofSegments? r.segments = some route ∧ route.Concerns r n

/-- **A request asks for the files of the scripts that it is about.** -/
theorem answer_within (r : HttpRequest) (d : Deployment) :
    Within (Deployment.permits r.Concerns) r.answer d := by
  unfold answer
  cases hRoute : Route.ofSegments? r.segments with
  | none => exact Route.pure_within _
  | some route =>
    simp only
    split
    · exact Route.pure_within _
    · have hSame : r.Concerns = route.Concerns r := by
        funext n
        simp [Concerns, hRoute]
      rw [hSame]
      exact (Route.answer_within route r).seq (k := fun answer d =>
        (if r.method == "HEAD" then answer.withoutBody else answer, d)) ⟨rfl, .blind fun _ => rfl⟩

end HttpRequest

-- ---------------------------------------------------------------------------
-- Requests of viewers
-- ---------------------------------------------------------------------------

/-- The scripts that a request of a viewer is about. -/
def Request.Concerns : Request → ScriptName → Prop
  | .start script | .stop script | .input script _ | .watch script | .unwatch script
  | .status (some script) => fun n => ScriptName.parse script = .ok n
  | .status none | .stopExternal _ => fun _ => False

namespace Connection

/-- What a request comes to: the connection, the process that is being ended if any, and the
deployment. -/
def Handled.split : Handled → (Connection × Option Termination) × Deployment
  | .settled c d => ((c, none), d)
  | .ending c t d => ((c, some t), d)

variable {about : ScriptName → Prop} {c : Connection} {d : Deployment} {n : ScriptName} {α : Type}

theorem settled_within : Within (Deployment.permits about) (fun d => (Handled.settled c d).split) d :=
  ⟨rfl, .blind fun _ => rfl⟩

/-- What a request comes to by what its work told. -/
def handledBy (c : Connection) (go : α → Deployment → Handled) : Except Fault α → Deployment → Handled
  | .ok a, d => go a d
  | .error f, d => .settled (c.send (.ofFault f)) d

theorem answering_eq (c : Connection) (d : Deployment) (work : DeploymentWork α)
    (go : α → Deployment → Handled) :
    c.answering d work go = c.handledBy go (work d).1 (work d).2 := by
  unfold answering
  rw [show work.run d = work d from rfl]
  rcases work d with ⟨_ | _, t⟩ <;> rfl

theorem answering_within {work : DeploymentWork α} {go : α → Deployment → Handled}
    (h : Within (Deployment.permits about) work d)
    (hGo : ∀ a t, work d = (.ok a, t) → Within (Deployment.permits about) (fun d => (go a d).split) t) :
    Within (Deployment.permits about) (fun d => (c.answering d work go).split) d := by
  have hThen : Within (Deployment.permits about)
      (fun t => (c.handledBy go (work d).1 t).split) (work d).2 := by
    rcases hRun : work d with ⟨f | a, t⟩
    · exact settled_within
    · exact hGo a t hRun
  exact (h.seq (k := fun told t => (c.handledBy go told t).split) hThen).congr fun fs =>
    congrArg Handled.split (answering_eq c (withFiles d fs) work go)

theorem unsubscribe_withFiles (d : Deployment) (fs : Files) (session receiver : Nat) :
    (withFiles d fs).unsubscribe session receiver = withFiles (d.unsubscribe session receiver) fs := by
  unfold Deployment.unsubscribe
  rw [Deployment.service_withFiles]
  cases d.service.session? session <;> rfl

theorem unsubscribe_permits (d : Deployment) (session receiver : Nat) :
    (d.unsubscribe session receiver).permits about = d.permits about := by
  unfold Deployment.unsubscribe
  cases d.service.session? session <;> rfl

theorem detach_within : Within (Deployment.permits about) (c.detach n) d := by
  unfold detach
  simp only
  generalize c.watches.filter (·.name == n) = gone
  generalize ({ c with watches := c.watches.filter (·.name != n) } : Connection) = c'
  induction gone generalizing d with
  | nil => exact ⟨rfl, .blind fun _ => rfl⟩
  | cons w rest ih =>
    have hFirst : Within (Deployment.permits about)
        (fun d => ((), Deployment.unsubscribe d w.session w.receiver)) d :=
      ⟨unsubscribe_permits .., .blind fun fs => Prod.ext rfl (unsubscribe_withFiles ..)⟩
    exact hFirst.seq (k := fun _ d =>
      (c', rest.foldl (fun d w => d.unsubscribe w.session w.receiver) d)) ih

theorem attach_within (session : Session) (s : Subscription) (acknowledgement : Option Event) :
    Within (Deployment.permits about) (c.attach session s acknowledgement) d :=
  detach_within.seq (k := fun (c : Connection) d => ({ c with watches :=
    { name := session.name, session := session.id, receiver := s.receiver
      forwarder := Forwarder.begin session.name.text s acknowledgement } :: c.watches }, d))
    ⟨rfl, .blind fun _ => rfl⟩

theorem named_within {script : String} :
    Within (Deployment.permits about) (named script) d := Deployment.view_within (.const _)

theorem parse_of_named {script : String} {t : Deployment} (h : named script d = (.ok n, t)) :
    ScriptName.parse script = .ok n := parseName_eq_ok.mp (congrArg Prod.fst h)

/-- **A viewer's request asks for the files of the script that it names.** -/
theorem handle_within (c : Connection) (r : Request) (d : Deployment) :
    Within (Deployment.permits r.Concerns) (fun d => (c.handle d r).split) d := by
  cases r with
  | start script =>
    refine answering_within (named_within.bind fun n d hNamed => ?_) fun started d _ => ?_
    · refine (Deployment.start_within (parse_of_named hNamed)).bind fun session d _ => ?_
      exact (Deployment.subscribe_within session).bind fun _ _ _ => .pure _
    · exact (attach_within started.1 started.2 none).seq (k := fun c d => ((c, none), d))
        ⟨rfl, .blind fun _ => rfl⟩
  | stop script =>
    refine answering_within ?_ fun _ _ _ => settled_within
    exact named_within.bind fun n d _ => Deployment.stop_within n
  | input script data =>
    refine answering_within ?_ fun _ _ _ => settled_within
    exact named_within.bind fun n d _ => Deployment.sendInput_within n _
  | watch script =>
    refine answering_within ?_ fun watched d _ => ?_
    · exact named_within.bind fun n d _ => Deployment.watch_within n
    · exact (attach_within watched.1 watched.2 _).seq (k := fun c d => ((c, none), d))
        ⟨rfl, .blind fun _ => rfl⟩
  | unwatch script =>
    cases hName : ScriptName.parse script with
    | error f =>
      have hIgnored : ∀ d, c.handle d (.unwatch script) = .settled c d := fun d => by
        simp only [handle, hName]
      exact settled_within.congr fun fs => congrArg Handled.split (hIgnored _)
    | ok n =>
      have hDetached : ∀ d, c.handle d (.unwatch script) =
          .settled (c.detach n d).1 (c.detach n d).2 := fun d => by
        simp only [handle, hName]
      exact (detach_within.seq (k := fun c d => ((c, none), d))
        ⟨rfl, .blind fun _ => rfl⟩).congr fun fs => congrArg Handled.split (hDetached _)
  | status asked =>
    cases asked with
    | none => exact ⟨rfl, .blind fun _ => rfl⟩
    | some script => exact answering_within named_within fun n d _ => ⟨rfl, .blind fun _ => rfl⟩
  | stopExternal pid =>
    refine answering_within (Deployment.beginTermination_within pid) fun t d _ => ?_
    exact ⟨rfl, .blind fun _ => rfl⟩

/-- The scripts that a text of a viewer is about. -/
def TextConcerns (text : String) (n : ScriptName) : Prop :=
  ∃ r, Request.parse text = .ok r ∧ r.Concerns n

theorem handleText_within (c : Connection) (text : String) (d : Deployment) :
    Within (Deployment.permits (TextConcerns text)) (fun d => (c.handleText d text).split) d := by
  unfold handleText
  cases hParsed : Request.parse text with
  | error f => exact settled_within
  | ok r =>
    have hSame : TextConcerns text = r.Concerns := by
      funext n
      simp [TextConcerns, hParsed]
    rw [hSame]
    exact handle_within c r d

end Connection

-- ---------------------------------------------------------------------------
-- The script to be run at boot
-- ---------------------------------------------------------------------------

/-- The script that the file of the designation names. -/
def Deployment.Designates (d : Deployment) (n : ScriptName) : Prop :=
  ∃ text, d.store.designated = .ok (some text) ∧ ScriptName.parse text = .ok n

/-- **A run at boot asks for the files of the script that the designation names.** -/
theorem BootRun.begin_within (d : Deployment) :
    Within (Deployment.permits d.Designates) BootRun.begin d := by
  refine Deployment.designated_within.bind fun designated t hRead => ?_
  have hTold : d.store.designated = .ok designated := congrArg Prod.fst hRead
  cases designated with
  | none => exact .pure _
  | some text =>
    have hParse : Within (Deployment.permits d.Designates)
        (Deployment.view fun _ => parseName text) t := Deployment.view_within (.const _)
    refine hParse.bind fun n t hName => ?_
    have hn : d.Designates n := ⟨text, hTold, parseName_eq_ok.mp (congrArg Prod.fst hName)⟩
    refine (Deployment.start_within hn).bind fun session t _ => ?_
    exact (Deployment.subscribe_within session).bind fun _ _ _ => .pure _

-- ---------------------------------------------------------------------------
-- The law
-- ---------------------------------------------------------------------------

/-- **Names as they come in lead to managed files only.** A text names a script just if it is of the
form of `NamesScript`, and then the script of this name.

Whatever comes in by HTTP, from a viewer or from the file of the designation, only the managed files of
the scripts that it names are asked for. The same goes for what follows: the steps of the supervisor of
a session that was started, the end of a process that was to be ended, and what is left of an upload
where the host fails.

By its text, the path of each managed file is that of the designation or its draft, or leads to a file
directly in the directory for such files. Different scripts have different files and different modules,
and no draft and no log has the name of a script. -/
theorem rawNames_leadToManagedFiles :
    -- what names a script
    (∀ text, (∃ n, ScriptName.parse text = .ok n) ↔ NamesScript text) ∧
    (∀ text n, ScriptName.parse text = .ok n ↔ text = n.text) ∧
    -- what is asked for
    (∀ (r : HttpRequest) (d : Deployment), Within (Deployment.permits r.Concerns) r.answer d) ∧
    (∀ (c : Connection) (text : String) (d : Deployment),
      Within (Deployment.permits (Connection.TextConcerns text))
        (fun d => (c.handleText d text).split) d) ∧
    (∀ d : Deployment, Within (Deployment.permits d.Designates) BootRun.begin d) ∧
    (∀ (id : Nat) (stopFirst : Bool) (d : Deployment),
      Within (Deployment.permits fun n => ∃ x, d.service.session? id = some x ∧ x.name = n)
        (fun d => ((), (d.superviseSeeing? id stopFirst).getD d)) d) ∧
    (∀ (t : Termination) (d : Deployment),
      Within (Deployment.permits fun _ => False) (Deployment.goOnTermination t) d) ∧
    (∀ (fileName : String) (bytes : List UInt8) (obstacle : Store.PlacingStep → Option IoFault)
        (s : Store),
      Within (Store.permits fun n => ScriptName.parse fileName = .ok n)
        (Store.saveUpload fileName bytes obstacle) s) ∧
    -- where that is
    (∀ (site : Site) (about : ScriptName → Prop) (path : String), site.Manages about path →
      (∃ n f, about n ∧ path = ScriptFile.path site n f ∧ IsChild (f.directory site) path) ∨
        path = site.autobootFile ∨ path = site.designationDraft) ∧
    -- what is distinct
    (∀ (site : Site) (n m : ScriptName) (f g : ScriptFile),
      pathNames (f.path site n) = pathNames (g.path site m) → n = m ∧ f = g) ∧
    (∀ n m : ScriptName, n.module = m.module → n = m) ∧
    (∀ (f : ScriptFile) (n m : ScriptName), f ≠ .script → ScriptName.parse (f.name n) ≠ .ok m) := by
  refine ⟨fun _ => ScriptName.parse_accepts, fun _ _ => ScriptName.parse_eq_ok,
    HttpRequest.answer_within, Connection.handleText_within, BootRun.begin_within,
    fun id stopFirst d => ?_, fun t _ => Deployment.goOnTermination_within t,
    fun fileName bytes obstacle s => ?_,
    fun _ _ _ hManaged => hManaged.isChild, fun _ _ _ _ _ => ScriptFile.path_inj,
    fun _ _ => ScriptName.eq_of_module, fun _ n m hf => ScriptFile.parse_name_ne_ok hf n m⟩
  · exact Deployment.supervise_within stopFirst fun x hSession => ⟨x, hSession, rfl⟩
  · exact Store.saveUpload_within (fun n hName => parseName_eq_ok.mp hName) bytes obstacle

end ScriptWarden
