import EditorFormat.Proofs.Options.Wire
import EditorFormat.Proofs.Session.Alerts
import EditorFormat.Proofs.Session.Modes
import EditorFormat.Proofs.Worker.Stream

/-!
# Where the options of a request come from

The options of a request are those of the project's config, or else those of the user, and never a
mixture of both. What a session asks of its formatter is seen by watching the formatter: the
requests that it was called with, and then those that wait for it (`asked`). A format command adds
at most one request to these, and nothing that happens later takes it back or changes it
(`asksOn_goOn`). This request depends on the settings only when no config covers the file
(`request_has_one_source`).
-/

namespace EditorFormat

/-! ## The options of a job -/

/-- A request for a file has the options of one source. The lines of a selection are formatted from
their first to their last, whatever range the source has; a parser or path of the source is taken
out of its unknown options. -/
structure Carries (scope : Scope) (file : OpenFile) (source : FormatOptions)
    (request : FormatRequest) : Prop where
  isSelection : request.isSelection = true ↔
    scope = .selection ∧ (file.selection.expand file.text).isSome = true
  known : ∀ key, (request.isSelection = true → key ≠ .rangeStart ∧ key ≠ .rangeEnd) →
    request.options.options.get key = source.get key
  rangeStart : request.isSelection = true →
    request.options.options.get .rangeStart = some (0 : UInt64)
  rangeEnd : request.isSelection = true → request.options.options.get .rangeEnd = none
  unknown : ∀ key, key ≠ "parser" → key ≠ "filepath" →
    request.options.options.extra.find? key = source.extra.find? key
  parser : request.options.parser =
    CursorOptions.configured source "parser" (FileName.inferParser file.name)
  filepath : request.options.filepath = CursorOptions.configured source "filepath" file.name

namespace FormatOptions

variable (options : FormatOptions)

/-- A selection is formatted from its beginning. -/
@[simp] theorem get_forSelection_rangeStart :
    options.forSelection.get .rangeStart = some (0 : UInt64) :=
  (get_set_of_ne _ _ (by decide)).trans (get_set_self ..)

/-- A selection is formatted to its end. -/
@[simp] theorem get_forSelection_rangeEnd : options.forSelection.get .rangeEnd = none :=
  get_set_self (options.set .rangeStart (some (0 : UInt64))) .rangeEnd none

/-- All options but the range are the same for a selection. -/
theorem get_forSelection_of_ne {key : OptionKey} (hstart : key ≠ .rangeStart)
    (hend : key ≠ .rangeEnd) : options.forSelection.get key = options.get key :=
  (get_set_of_ne _ _ hend.symm).trans (get_set_of_ne _ _ hstart.symm)

end FormatOptions

section Jobs

variable (id : FileId) (file : OpenFile) (source : FormatOptions)

/-- The unknown options of a request for a file are those of its source. -/
theorem find?_extra_ofOptions (parser filepath : String) {key : String} (hparser : key ≠ "parser")
    (hfilepath : key ≠ "filepath") :
    (CursorOptions.ofOptions parser filepath source).options.extra.find? key =
      source.extra.find? key := by
  rw [CursorOptions.find?_ofOptions, if_neg (not_or_intro hparser hfilepath)]

/-- The job for a document has the options of its source as they are. -/
theorem carries_documentJob {scope : Scope}
    (h : ¬(scope = .selection ∧ (file.selection.expand file.text).isSome = true)) :
    Carries scope file source (Session.documentJob id file source).request where
  isSelection := iff_of_false Bool.false_ne_true h
  known _ _ := rfl
  rangeStart hselection := absurd hselection Bool.false_ne_true
  rangeEnd hselection := absurd hselection Bool.false_ne_true
  unknown _ := find?_extra_ofOptions source (FileName.inferParser file.name) file.name
  parser := rfl
  filepath := rfl

/-- The job for a selection has the options of its source besides the range. -/
theorem carries_selectionJob {span : Span} {code : String}
    (h : file.selection.expand file.text = some (span, code)) :
    Carries .selection file source (Session.selectionJob id file span code source).request where
  isSelection := iff_of_true rfl ⟨rfl, by rw [h]; rfl⟩
  known key hkey := by
    obtain ⟨hstart, hend⟩ := hkey rfl
    exact source.get_forSelection_of_ne hstart hend
  rangeStart _ := source.get_forSelection_rangeStart
  rangeEnd _ := source.get_forSelection_rangeEnd
  unknown _ := find?_extra_ofOptions source.forSelection (FileName.inferParser file.name) file.name
  parser := rfl
  filepath := rfl

/-- The job of a file has the options of its source. -/
theorem carries_job (scope : Scope) :
    Carries scope file source (scope.job id file source).request := by
  cases scope with
  | document => exact carries_documentJob id file source (fun h => Scope.noConfusion h.1)
  | selection =>
    unfold Scope.job
    cases hexpand : file.selection.expand file.text with
    | none =>
      refine carries_documentJob id file source fun h => ?_
      rw [hexpand] at h
      exact Bool.false_ne_true h.2
    | some selected => exact carries_selectionJob id file source hexpand

end Jobs

variable {σ : Type}

/-! ## What the formatter is asked -/

namespace Worker

/-- The requests that a watched formatter was called with, and then those that wait for it. -/
def asked (worker : Worker (σ × List FormatCall)) : List FormatRequest :=
  worker.formatter.2.map FormatCall.request ++ worker.requests.map WorkerRequest.request

/-- A request that is answered was waiting before. -/
theorem asked_step (format : Formatter σ) (worker : Worker (σ × List FormatCall)) :
    (worker.step format.watched).asked = worker.asked := by
  cases hrequests : worker.requests with
  | nil => simp only [step, hrequests]
  | cons request later =>
    simp only [step, asked, Formatter.watched, hrequests, List.map_append, List.map_cons,
      List.map_nil, List.append_assoc, List.singleton_append]

/-- The requests of a worker are the same however far it is. -/
theorem asked_steps (format : Formatter σ) (count : Nat)
    (worker : Worker (σ × List FormatCall)) :
    (worker.steps format.watched count).asked = worker.asked := by
  induction count generalizing worker with
  | zero => rfl
  | succ count ih => exact (ih (worker.step format.watched)).trans (asked_step format worker)

end Worker

namespace Session

/-- The session with a formatter that keeps a list of its calls. -/
def watched (session : Session σ) : Session (σ × List FormatCall) :=
  { session with
    format := session.format.watched
    mode := match session.mode with
      | .inline formatter => .inline (formatter, [])
      | .background worker => .background { worker with formatter := (worker.formatter, []) } }

/-- What a watched session has asked its formatter so far. -/
def asked (session : Session (σ × List FormatCall)) : List FormatRequest :=
  match session.mode with
  | .inline formatter => formatter.2.map FormatCall.request
  | .background worker => worker.asked

/-- Whether a request reaches the formatter: in place it always does, and in the background while
the worker runs. -/
def canAsk (session : Session σ) : Bool :=
  match session.mode with
  | .inline _ => true
  | .background worker => worker.isRunning

/-- What may happen in a session, besides that files are edited and that the worker stops. -/
inductive Event where
  /-- A setting is changed, or not when this fails. -/
  | set (files : Files.FileSystem) (name : String) (value : Json.Value)
  /-- The worker answers some of the requests that wait for it. -/
  | work (count : Nat)
  /-- The user formats a file. -/
  | format (around : Surroundings) (scope : Scope) (id : FileId)
  /-- Responses are handled, and stale requests are given up. -/
  | poll (around : Surroundings)

/-- The session after an event. -/
def afterEvent (session : Session σ) : Event → Session σ
  | .set files name value => session.changeSetting files name value
  | .work count => session.work count
  | .format around scope id => (session.formatIn around scope id).2
  | .poll around => (session.poll around).2

/-- The session after events. -/
def goOn (session : Session σ) (events : List Event) : Session σ :=
  events.foldl afterEvent session

/-! ### Requests stay as they are -/

/-- What comes after asks for more, at most, and of the same formatter. -/
structure AsksOn (before after : Session (σ × List FormatCall)) : Prop where
  format : after.format = before.format
  asked : before.asked <+: after.asked

section Asked

variable {session between after : Session (σ × List FormatCall)} {format : Formatter σ}

/-- Nothing is asked. -/
theorem AsksOn.of_eq (hformat : after.format = session.format)
    (hasked : after.asked = session.asked) : AsksOn session after :=
  ⟨hformat, hasked ▸ List.prefix_refl _⟩

/-- What asks on asks on later. -/
theorem AsksOn.trans (h : AsksOn session between) (hafter : AsksOn between after) :
    AsksOn session after :=
  ⟨hafter.format.trans h.format, h.asked.trans hafter.asked⟩

/-- A job that is dispatched is asked, when requests reach the formatter. -/
theorem asked_dispatch (h : session.format = format.watched) (around : Surroundings) (job : Job) :
    (session.dispatch around job).2.asked =
      session.asked ++ (if session.canAsk then [job.request] else []) := by
  cases hmode : session.mode with
  | inline formatter =>
    rw [dispatch_inline hmode]
    simp only [asked, mode_apply, h, canAsk, hmode, Formatter.watched, List.map_append,
      List.map_cons, List.map_nil, if_true]
  | background worker =>
    cases hrunning : worker.isRunning with
    | true =>
      rw [dispatch_running hmode hrunning]
      simp only [asked, canAsk, hmode, hrunning, Worker.asked, List.map_append, List.map_cons,
        List.map_nil, if_true, List.append_assoc]
      rfl
    | false =>
      rw [dispatch_stopped hmode hrunning]
      simp [fail, asked, canAsk, hmode, hrunning]

/-- A dispatched job leaves the formatter in place. -/
theorem format_dispatch (session : Session σ) (around : Surroundings) (job : Job) :
    (session.dispatch around job).2.format = session.format := by
  cases hmode : session.mode with
  | inline formatter =>
    rw [dispatch_inline hmode]
    exact (sameSetup_apply ..).format
  | background worker =>
    cases hrunning : worker.isRunning with
    | true => rw [dispatch_running hmode hrunning]
    | false =>
      rw [dispatch_stopped hmode hrunning]
      rfl

/-- A format command asks for the job of its file, at most. -/
theorem asksOn_formatIn (h : session.format = format.watched) (around : Surroundings)
    (scope : Scope) (id : FileId) :
    AsksOn session (session.formatIn around scope id).2 := by
  cases hfile : session.editor.file? id with
  | none =>
    rw [formatIn_closed hfile]
    exact .of_eq rfl rfl
  | some file =>
    rw [formatIn_open hfile]
    cases hoptions : session.optionsFor around file with
    | error error =>
      rw [dispatchWith_error hoptions]
      exact .of_eq rfl rfl
    | ok options =>
      rw [dispatchWith_ok hoptions]
      exact ⟨format_dispatch .., asked_dispatch h around _ ▸ List.prefix_append ..⟩

/-- A worker that goes on asks for nothing new. -/
theorem asksOn_work (h : session.format = format.watched) (count : Nat) :
    AsksOn session (session.work count) := by
  rw [work]
  split
  · exact .of_eq rfl rfl
  · rename_i worker hmode
    refine .of_eq rfl ?_
    simp only [asked, hmode, h, Worker.asked_steps]

/-- Taking responses asks for nothing. -/
theorem asksOn_withResponses (session : Session (σ × List FormatCall))
    (responses : List WorkerResponse) : AsksOn session (session.withResponses responses) := by
  rw [withResponses]
  split
  · exact .of_eq rfl rfl
  · rename_i worker hmode
    exact .of_eq rfl (by simp only [asked, hmode]; rfl)

/-- Handling responses asks for nothing. -/
theorem asksOn_handleAll (session : Session (σ × List FormatCall)) (around : Surroundings)
    (responses : List WorkerResponse) : AsksOn session (session.handleAll around responses) := by
  have hsetup := sameSetup_handleAll session around responses
  exact .of_eq hsetup.format (by simp only [asked, hsetup.mode])

/-- Polling asks for nothing. -/
theorem asksOn_poll (session : Session (σ × List FormatCall)) (around : Surroundings) :
    AsksOn session (session.poll around).2 := by
  have hhandled := (asksOn_withResponses session []).trans
    (asksOn_handleAll _ around session.responses)
  exact hhandled.trans (.of_eq rfl rfl)

/-- An event takes back no request and changes none. -/
theorem asksOn_afterEvent (h : session.format = format.watched) (event : Event) :
    AsksOn session (session.afterEvent event) := by
  cases event with
  | set files name value =>
    obtain ⟨store, hstore⟩ := session.exists_changeSetting_eq files name value
    rw [afterEvent, hstore]
    exact .of_eq rfl rfl
  | work count => exact asksOn_work h count
  | format around scope id => exact asksOn_formatIn h around scope id
  | poll around => exact asksOn_poll session around

/-- Events take back no request and change none. -/
theorem asksOn_goOn (h : session.format = format.watched) (events : List Event) :
    AsksOn session (session.goOn events) := by
  induction events generalizing session with
  | nil => exact .of_eq rfl rfl
  | cons event later ih =>
    have hevent := asksOn_afterEvent h event
    exact hevent.trans (ih (hevent.format.trans h))

end Asked

/-! ## One source -/

/-- Watching a session changes nothing that is seen of it. -/
theorem watched_looksLike (session : Session σ) : session.watched.LooksLike session :=
  ⟨rfl, rfl, rfl, rfl⟩

/-- Requests reach a watched formatter when they reach the formatter. -/
theorem canAsk_watched (session : Session σ) : session.watched.canAsk = session.canAsk := by
  simp only [canAsk, watched]
  cases session.mode <;> rfl

/-- A format command asks for one request, if requests reach the formatter, and ends as it does
when nobody watches. The request stays as it is, whatever is set later. -/
structure AsksFor (session : Session σ) (around : Surroundings) (scope : Scope) (id : FileId)
    (request : FormatRequest) : Prop where
  ends : EndsLike (session.watched.formatIn around scope id) (session.formatIn around scope id)
  asked : (session.watched.formatIn around scope id).2.asked =
    session.watched.asked ++ (if session.canAsk then [request] else [])
  kept : ∀ later : List Event,
    session.watched.asked ++ (if session.canAsk then [request] else []) <+:
      ((session.watched.formatIn around scope id).2.goOn later).asked

/-- A dispatched job ends as it does when nobody watches. -/
theorem endsLike_dispatch_watched (session : Session σ) (around : Surroundings) (job : Job) :
    EndsLike (session.watched.dispatch around job) (session.dispatch around job) := by
  cases hmode : session.mode with
  | inline formatter =>
    have hwatched : session.watched.mode = .inline (formatter, []) := by
      simp only [watched, hmode]
    rw [dispatch_inline hmode, dispatch_inline hwatched]
    have hlooks : LooksLike
        { session.watched with
          lastId := session.lastId + 1
          mode := .inline (session.watched.format (formatter, []) job.request).2 }
        { session with
          lastId := session.lastId + 1
          mode := .inline (session.format formatter job.request).2 } := ⟨rfl, rfl, rfl, rfl⟩
    exact hlooks.apply around around job.fileId job.fileName job.selectionRange _
  | background worker =>
    have hwatched : session.watched.mode =
        .background { worker with formatter := (worker.formatter, []) } := by
      simp only [watched, hmode]
    cases hrunning : worker.isRunning with
    | true =>
      rw [dispatch_running hmode hrunning, dispatch_running hwatched hrunning]
      exact ⟨rfl, rfl, rfl, rfl⟩
    | false =>
      rw [dispatch_stopped hmode hrunning, dispatch_stopped hwatched hrunning]
      have hlooks : LooksLike { session.watched with lastId := session.lastId + 1 }
          { session with lastId := session.lastId + 1 } := ⟨rfl, rfl, rfl, rfl⟩
      exact hlooks.fail rfl

/-- With its options a file asks for its job. -/
theorem asks_of_optionsFor {session : Session σ} {around : Surroundings} {id : FileId}
    {file : OpenFile} {options : FormatOptions} (hfile : session.editor.file? id = some file)
    (hoptions : session.optionsFor around file = .ok options) (scope : Scope) :
    session.AsksFor around scope id (scope.job id file options).request := by
  have hformat : session.formatIn around scope id =
      session.dispatch around (scope.job id file options) := by
    rw [formatIn_open hfile, dispatchWith_ok hoptions]
  have hwatched : session.watched.formatIn around scope id =
      session.watched.dispatch around (scope.job id file options) := by
    have hopen : session.watched.editor.file? id = some file := hfile
    have hsame := (session.watched_looksLike.optionsFor_eq around file).trans hoptions
    rw [formatIn_open hopen, dispatchWith_ok hsame]
  have hformatter : session.watched.format = session.format.watched := rfl
  have hasked := asked_dispatch hformatter around (scope.job id file options)
  rw [canAsk_watched, ← hwatched] at hasked
  refine ⟨?_, hasked, fun later => ?_⟩
  · rw [hformat, hwatched]
    exact session.endsLike_dispatch_watched around _
  · have hkept : (session.watched.formatIn around scope id).2.format = session.format.watched := by
      rw [hwatched, format_dispatch, hformatter]
    rw [← hasked]
    exact (asksOn_goOn hkept later).asked

/-- The config that covers an open file in a project. -/
def Covered (around : Surroundings) (folders : List Files.Path) (file : OpenFile)
    (config : Config.Resolved) : Prop :=
  ∃ path, file.path = some path ∧
    Config.resolve around.words around.files path folders = .ok (some config)

/-- No config covers an open file: it was never saved, or none is found for it. -/
def Uncovered (around : Surroundings) (folders : List Files.Path) (file : OpenFile) : Prop :=
  ∀ path, file.path = some path →
    Config.resolve around.words around.files path folders = .ok none

/-- The config of an open file is found and cannot be read. -/
def Unreadable (around : Surroundings) (folders : List Files.Path) (file : OpenFile) : Prop :=
  ∃ path error, file.path = some path ∧
    Config.resolve around.words around.files path folders = .error error

section Sources

variable {session : Session σ} {around : Surroundings} {file : OpenFile}

/-- A file that is covered has the options of its config. -/
theorem optionsFor_covered {config : Config.Resolved}
    (h : Covered around session.editor.folders file config) :
    session.optionsFor around file = .ok config.options := by
  obtain ⟨path, hpath, hresolve⟩ := h
  simp only [optionsFor, hpath, hresolve]
  rfl

/-- A file that is not covered has the options of the user. -/
theorem optionsFor_uncovered (h : Uncovered around session.editor.folders file) :
    session.optionsFor around file = .ok session.settings.options := by
  cases hpath : file.path with
  | none => simp only [optionsFor, hpath]
  | some path =>
    simp only [optionsFor, hpath, h path hpath]
    rfl

/-- A file whose config cannot be read has no options. -/
theorem optionsFor_unreadable (h : Unreadable around session.editor.folders file) :
    ∃ error, session.optionsFor around file = .error error := by
  obtain ⟨path, error, hpath, hresolve⟩ := h
  refine ⟨error, ?_⟩
  simp only [optionsFor, hpath, hresolve]
  rfl

end Sources

/-- For a file with a config all sessions with the same editor ask for the same request, which has
the options of the config, whatever their settings are. For a file without a config the request has
the options of the settings at the call, and depends on nothing else that happened before. For a
file whose config cannot be read nothing is asked. What is asked stays as it is, whatever is set
later. -/
theorem request_has_one_source (around : Surroundings) (editor : Editor) {id : FileId}
    {file : OpenFile} (hfile : editor.file? id = some file) (scope : Scope) :
    (∀ config, Covered around editor.folders file config →
      ∃ request, Carries scope file config.options request ∧
        ∀ (σ : Type) (session : Session σ), session.editor = editor →
          session.AsksFor around scope id request) ∧
    (Uncovered around editor.folders file →
      ∀ options, ∃ request, Carries scope file options request ∧
        ∀ (σ : Type) (first : Session σ) (earlier : List Event),
          (first.goOn earlier).editor = editor →
          (first.goOn earlier).settings.options = options →
          (first.goOn earlier).AsksFor around scope id request) ∧
    (Unreadable around editor.folders file →
      ∀ (σ : Type) (session : Session σ), session.editor = editor →
        (session.watched.formatIn around scope id).2.asked = session.watched.asked) := by
  refine ⟨fun config hcovered => ?_, fun huncovered options => ?_, fun hunreadable => ?_⟩
  · refine ⟨_, carries_job id file config.options scope, ?_⟩
    rintro σ session rfl
    exact asks_of_optionsFor hfile (optionsFor_covered hcovered) scope
  · refine ⟨_, carries_job id file options scope, ?_⟩
    rintro σ first earlier rfl rfl
    exact asks_of_optionsFor hfile (optionsFor_uncovered huncovered) scope
  · rintro σ session rfl
    have hopen : session.watched.editor.file? id = some file := hfile
    have hnone : Unreadable around session.watched.editor.folders file := hunreadable
    obtain ⟨error, herror⟩ := optionsFor_unreadable hnone
    rw [formatIn_open hopen, dispatchWith_error herror]
    rfl

/-- A folder with a config that sets one option. -/
def terseProject : Files.FileSystem :=
  Files.FileSystem.empty.put [".prettierrc.toml"] (.file "semi = false".toUTF8)

/-- An editor with a file of this folder. -/
def terseEditor : Editor :=
  Editor.empty.openFile "a" ⟨"a.js", some "a.js", "x", default, default⟩

/-- The config leaves the width out, so no request has it. Without the config the request has the
width of the settings. -/
theorem request_has_one_source_terse :
    (∃ request, request.options.options.get .semi = some false ∧
      request.options.options.get .printWidth = none ∧
      ∀ session : Session Unit, session.editor = terseEditor →
        session.AsksFor { (default : Surroundings) with files := terseProject } .document "a"
          request) ∧
    ∃ request, request.options.options.get .printWidth = some (80 : UInt32) ∧
      ∀ session : Session Unit, session.editor = terseEditor →
        session.settings.options = Settings.defaultOptions →
        session.AsksFor default .document "a" request := by
  have hfile : terseEditor.file? "a" = some ⟨"a.js", some "a.js", "x", default, default⟩ := rfl
  constructor
  · obtain ⟨config, hconfig, hsemi, hwidth⟩ : ∃ config,
        Config.resolve default terseProject "a.js" [] = .ok (some config) ∧
        config.options.get .semi = some false ∧ config.options.get .printWidth = none :=
      ⟨_, rfl, rfl, rfl⟩
    obtain ⟨hcovered, -, -⟩ := request_has_one_source
      { (default : Surroundings) with files := terseProject } terseEditor hfile .document
    obtain ⟨request, hcarries, hasks⟩ := hcovered config ⟨"a.js", rfl, hconfig⟩
    refine ⟨request, ?_, ?_, hasks Unit⟩
    · exact (hcarries.known .semi fun _ => ⟨by decide, by decide⟩).trans hsemi
    · exact (hcarries.known .printWidth fun _ => ⟨by decide, by decide⟩).trans hwidth
  · obtain ⟨-, huncovered, -⟩ := request_has_one_source default terseEditor hfile .document
    have hnone : Uncovered default terseEditor.folders
        ⟨"a.js", some "a.js", "x", default, default⟩ := by
      rintro path hpath
      obtain rfl : "a.js" = path := Option.some.inj hpath
      rfl
    obtain ⟨request, hcarries, hasks⟩ := huncovered hnone Settings.defaultOptions
    refine ⟨request, hcarries.known .printWidth fun _ => ⟨by decide, by decide⟩, ?_⟩
    exact fun session => hasks Unit session []

end Session

end EditorFormat
