-- SUMMARY: Which failures of the commands reach the user as reports, and what the reports say.
import Bailiff.Batch.Command
import Bailiff.Fleet.Supervision
import Bailiff.Proofs.Files.Tree
import Bailiff.Proofs.Settings.Variables
import Bailiff.Sessions.Command

/-!
# Reports of commands

A command either gives what its work gave or ends with a report that has the message of the failure it
began with (`Reported`). The supervise command and the commands on sessions keep this for every failure.
The batch command keeps it for every failure of its work; but its log level and its log are had before
anything is reported, and what goes wrong there reaches the caller as it is. With variables that are texts or absent
this happens in two cases only: a variable is blank that must not be, or the log file cannot be opened
(`command_failures_reported_iff`).
-/

namespace Bailiff

variable {α : Type}

/-! ## Failures made into reports -/

/-- A result, and the same result for the user: what was given is given, and a failure becomes a report with
its message. -/
inductive Reported : Except Failure α → Except Failure α → Prop where
  | given (a : α) : Reported (.ok a) (.ok a)
  | failed {original shown : Failure} (hreport : shown.isReport = true)
      (hmessage : shown.message = original.message) : Reported (.error original) (.error shown)

namespace Failure

@[simp] theorem isReport_toReport (context : ReportContext) (f : Failure) :
    (f.toReport context).isReport = true := by
  cases f with
  | value v => cases v <;> rfl
  | _ => rfl

@[simp] theorem message_toReport (context : ReportContext) (f : Failure) :
    (f.toReport context).message = f.message := by
  cases f with
  | value v => cases v <;> rfl
  | _ => rfl

end Failure

theorem reported_mapError (context : ReportContext) (r : Except Failure α) :
    Reported r (r.mapError (·.toReport context)) := by
  cases r with
  | ok a => exact .given a
  | error f => exact .failed (f.isReport_toReport context) (f.message_toReport context)

theorem Reported.isReport {r r' : Except Failure α} (h : Reported r r') {f : Failure}
    (hf : r' = .error f) : f.isReport = true := by
  cases h with
  | given a => cases hf
  | failed hreport =>
    cases hf
    exact hreport

/-! ## The batch command -/

namespace BatchCommand

variable {environment : Value} {files : FileTree} {base : Location} {logFile : Option String}
  {given : Option (Logger × Sink)}

/-- What keeps a batch command from having its log: a blank variable, or a file that cannot be opened. A
command that brings its logger along opens no file. -/
inductive LogDenied (environment : Value) (files : FileTree) (base : Location) (logFile : Option String)
    (given : Option (Logger × Sink)) : Prop where
  | variable (hblank : Environment.blankNames environment ≠ [])
  | file {path : String} {fault : FileFault} (hgiven : given = none) (hfile : logFile = some path)
      (hpath : path.isEmpty = false) (hopen : (files.openLog base path).2 = .error fault)

/-- The sink of a command of its own is denied just when its file is, and the denial is no report. -/
theorem ownSink_spec (files : FileTree) (base : Location) (logFile : Option String) :
    ((∃ path fault, logFile = some path ∧ path.isEmpty = false ∧ (files.openLog base path).2 = .error fault)
        ∧ ∃ f, (ownSink files base logFile).2 = .error f ∧ f.isReport = false)
      ∨ (¬∃ path fault, logFile = some path ∧ path.isEmpty = false
            ∧ (files.openLog base path).2 = .error fault)
        ∧ ∃ made, (ownSink files base logFile).2 = .ok made := by
  unfold ownSink
  cases logFile with
  | none => exact .inr ⟨by simp, _, rfl⟩
  | some path =>
    dsimp only
    cases hpath : path.isEmpty with
    | true =>
      refine .inr ⟨?_, _, rfl⟩
      rintro ⟨path', fault, hfile, hpath', -⟩
      cases hfile
      rw [hpath] at hpath'
      cases hpath'
    | false =>
      rw [if_neg Bool.false_ne_true]
      cases hopen : files.openLog base path with
      | mk files' r =>
        cases r with
        | error fault => exact .inl ⟨⟨path, fault, rfl, hpath, by rw [hopen]⟩, fault.failure, rfl, rfl⟩
        | ok l =>
          refine .inr ⟨?_, _, rfl⟩
          rintro ⟨path', fault, hfile, -, hopen'⟩
          cases hfile
          rw [hopen] at hopen'
          cases hopen'

/-- There is a logger unless the log is denied, and a denial is no report. -/
theorem logger_spec (h : environment.IsVariables) (files : FileTree) (base : Location) (logFile : Option String)
    (given : Option (Logger × Sink)) :
    (LogDenied environment files base logFile given
        ∧ ∃ f, (logger files base environment logFile given).2 = .error f ∧ f.isReport = false)
      ∨ ¬LogDenied environment files base logFile given
        ∧ ∃ made, (logger files base environment logFile given).2 = .ok made := by
  have hlevel := resolveLogLevel_eq h
  unfold logger
  by_cases hnone : Environment.blankNames environment = []
  · rw [hlevel, if_pos hnone]
    cases given with
    | some brought =>
      refine .inr ⟨?_, _, rfl⟩
      rintro (hblank | ⟨hgiven, -⟩)
      · exact hblank hnone
      · cases hgiven
    | none =>
      rcases ownSink_spec files base logFile with
        ⟨⟨path, fault, hfile, hpath, hopen⟩, f, hf, hraw⟩ | ⟨hopens, made, hmade⟩
      · exact .inl ⟨.file rfl hfile hpath hopen, f, by simp only [hf]; rfl, hraw⟩
      · refine .inr ⟨?_, (⟨.known (loggedLevel (environment.field "HARNESS_LOGLEVEL")), {}⟩, made), by
          simp only [hmade]; rfl⟩
        rintro (hblank | ⟨-, hfile, hpath, hopen⟩)
        · exact hblank hnone
        · exact hopens ⟨_, _, hfile, hpath, hopen⟩
  · rw [hlevel, if_neg hnone]
    exact .inl ⟨.variable hnone, _, rfl, Issue.isReport_blanks _⟩

variable (host : JudgeHost) (input : BatchInput) (judgeDir : String)

/-- The work of a command once it has its log. -/
def work (environment : Value) (files : FileTree) (base : Location) (given : Option (Logger × Sink)) :
    Except Failure BatchSummary :=
  (runBatch host base input judgeDir
    { files := (logger files base environment input.logFile given).1, clock := {} }).2

theorem reported_run (s : State) : Reported (runBatch host base input judgeDir s).2
    (run host base input judgeDir s).2 := by
  unfold run
  generalize runBatch host base input judgeDir s = ended
  obtain ⟨s', result⟩ := ended
  exact reported_mapError (context input.db) result

theorem runLogged_of_logger_ok {files' : FileTree} {lg : Logger} {sink : Sink} {place : Option Location}
    (h : logger files base environment input.logFile given = (files', .ok (lg, sink, place))) :
    (runLogged host base environment input judgeDir given files).result
      = (run host base input judgeDir { files := files', clock := {} }).2 := by
  unfold runLogged
  rw [h]

theorem runLogged_of_logger_error {files' : FileTree} {f : Failure}
    (h : logger files base environment input.logFile given = (files', .error f)) :
    (runLogged host base environment input judgeDir given files).result = .error f := by
  unfold runLogged
  rw [h]

/-- With its log, a command gives what its work gave or reports its failure. -/
theorem reported_runLogged (hlogged : ∃ made, (logger files base environment input.logFile given).2 = .ok made) :
    Reported (work host input judgeDir environment files base given)
      (runLogged host base environment input judgeDir given files).result := by
  obtain ⟨⟨lg, sink, place⟩, hmade⟩ := hlogged
  have hlogger : logger files base environment input.logFile given
      = ((logger files base environment input.logFile given).1, .ok (lg, sink, place)) := Prod.ext rfl hmade
  rw [runLogged_of_logger_ok host input judgeDir hlogger]
  exact reported_run host input judgeDir _

/-- Without its log, a command ends with what kept it from having one. -/
theorem result_of_denied {f : Failure}
    (hf : (logger files base environment input.logFile given).2 = .error f) :
    (runLogged host base environment input judgeDir given files).result = .error f :=
  runLogged_of_logger_error host input judgeDir (Prod.ext rfl hf)

end BatchCommand

/-! ## The supervise command -/

namespace SuperviseCommand

/-- How the supervise command can end: with what went wrong, or was given, and with what the caller gets of
it. Its settings are refused, or the run that they ask for has ended. -/
inductive Ends (launcher : Fleet.Launcher) (places : Places) (env : Value) (jobs : Option Binary64)
    (workersFile : Option String) (parallelism : Binary64) (files : FileTree) :
    Except Failure (Option Int) → Except Failure (Option Int) → Prop where
  | refused {original shown : Failure}
      (hload : RunSettings.load places env jobs workersFile parallelism = .error original)
      (hsettings : settings places env jobs workersFile parallelism = .error shown) :
      Ends launcher places env jobs workersFile parallelism files (.error original) (.error shown)
  | ran {run : RunSettings} (hsettings : settings places env jobs workersFile parallelism = .ok run)
      (policy : ReadinessPolicy) (suffix : String) (acts : List Supervision.Action) {r : RunResult}
      (hend : (acts.foldl (fun s a => (s.step launcher a).1)
        ((Supervision.make (run.plan policy suffix) files).enter launcher).1).result? = some r) :
      Ends launcher places env jobs workersFile parallelism files r (finish r)

theorem Ends.reported {launcher : Fleet.Launcher} {places : Places} {env : Value} {jobs : Option Binary64}
    {workersFile : Option String} {parallelism : Binary64} {files : FileTree} {original r : RunResult}
    (h : Ends launcher places env jobs workersFile parallelism files original r) : Reported original r := by
  cases h with
  | refused hload hsettings =>
    have hreported := reported_mapError settingsContext (RunSettings.load places env jobs workersFile parallelism)
    rw [settings, hload] at hsettings
    rw [hload] at hreported
    cases hsettings
    cases hreported with
    | failed hreport hmessage => exact .failed hreport hmessage
  | ran => exact reported_mapError context original

end SuperviseCommand

/-! ## The commands on sessions -/

namespace SessionsCommand

/-- What a command on sessions does, as it ends without reporting. -/
def work (files : FileTree) (base : Location) (db : String) (read : Store → Printed) : Except Failure Unit :=
  if (files.find? base db).isNone then .error (noDatabase db)
  else match Connection.connect files base db with
    | (_, .error f) => .error f
    | (files, .ok c) => (read (c.store files)).result

theorem reported_withStore (files : FileTree) (base : Location) (db : String) (read : Store → Printed) :
    Reported (work files base db read) (withStore files base db read).2.result := by
  unfold work withStore
  split
  · exact .failed rfl rfl
  · cases Connection.connect files base db with
    | mk files' r =>
      cases r with
      | error f => exact .failed (f.isReport_toReport _) (f.message_toReport _)
      | ok c => exact reported_mapError _ _

end SessionsCommand

/-! ## All commands -/

/-- With variables that are texts or absent, a batch command gives what its work gave or reports its failure just when
its log is not denied, and a denial reaches the caller as it is. Every end of a supervise command and of a
command on sessions is given or reported. -/
theorem command_failures_reported_iff {environment : Value} (henv : environment.IsVariables) (host : JudgeHost)
    (base : Location) (input : BatchInput) (judgeDir : String) (given : Option (Logger × Sink))
    (files : FileTree) :
    (Reported (BatchCommand.work host input judgeDir environment files base given)
        (BatchCommand.runLogged host base environment input judgeDir given files).result
        ↔ ¬BatchCommand.LogDenied environment files base input.logFile given)
      ∧ (BatchCommand.LogDenied environment files base input.logFile given →
        ∃ f, (BatchCommand.runLogged host base environment input judgeDir given files).result = .error f
          ∧ f.isReport = false)
      ∧ (∀ launcher places jobs workersFile parallelism original r,
        SuperviseCommand.Ends launcher places environment jobs workersFile parallelism files original r →
          Reported original r)
      ∧ (∀ db json, Reported (SessionsCommand.work files base db (SessionsCommand.listSessions db json))
        (SessionsCommand.withStore files base db (SessionsCommand.listSessions db json)).2.result)
      ∧ ∀ db id json, Reported (SessionsCommand.work files base db (SessionsCommand.showSession id json))
        (SessionsCommand.withStore files base db (SessionsCommand.showSession id json)).2.result := by
  have hlogger := BatchCommand.logger_spec henv files base input.logFile given
  refine ⟨⟨?_, ?_⟩, ?_, ?_, ?_, ?_⟩
  · intro hreported hdenied
    rcases hlogger with ⟨-, f, hf, hraw⟩ | ⟨hnot, -⟩
    · have hresult := BatchCommand.result_of_denied host input judgeDir hf
      have hreport := hreported.isReport hresult
      rw [hraw] at hreport
      cases hreport
    · exact hnot hdenied
  · intro hnot
    rcases hlogger with ⟨hdenied, -⟩ | ⟨-, hlogged⟩
    · exact absurd hdenied hnot
    · exact BatchCommand.reported_runLogged host input judgeDir hlogged
  · intro hdenied
    rcases hlogger with ⟨-, f, hf, hraw⟩ | ⟨hnot, -⟩
    · exact ⟨f, BatchCommand.result_of_denied host input judgeDir hf, hraw⟩
    · exact absurd hdenied hnot
  · intro launcher places jobs workersFile parallelism original r hends
    exact hends.reported
  · intro db json
    exact SessionsCommand.reported_withStore files base db _
  · intro db id json
    exact SessionsCommand.reported_withStore files base db _

/-- A batch whose log file is a directory. -/
def logsInput : BatchInput :=
  { judge := "judge", root := "tasks", db := "db.sqlite3", logFile := some "logs" }

/-- A judge that fails at once. -/
def brokenHost : JudgeHost :=
  { readVersion := fun files => (files, .error (.plain "no judge"))
    run := fun files _ _ => (files, { answer := .error (.plain "no judge") }) }

def logsFiles : FileTree := ⟨[(["logs"], .directory)]⟩

theorem openLog_logsFiles : (logsFiles.openLog [] "logs").2 = .error ⟨.isDirectory, "open", some "logs"⟩ := by
  have hmade : logsFiles.makeDirectories [] (Path.directory "logs") = .ok logsFiles := by rfl
  have hlocate : logsFiles.locate [] "logs" = .ok ["logs"] := by
    have hparts : Path.parts "logs" = ["logs"] := by decide +kernel
    have habsolute : Path.isAbsolute "logs" = false := by decide
    simp only [FileTree.locate, hparts, habsolute]
    exact FileTree.walk_last (by decide) (by decide) (by simp [logsFiles, FileTree.at?])
  simp only [FileTree.openLog, hmade, FileTree.openFile, hlocate]
  rfl

theorem command_failures_reported_logs : (Value.record []).IsVariables
    ∧ ∃ f, (BatchCommand.runLogged brokenHost [] (.record []) logsInput "" none logsFiles).result = .error f
      ∧ f.isReport = false := by
  have henv : (Value.record []).IsVariables := ⟨[], rfl, by simp⟩
  have hdenied : BatchCommand.LogDenied (.record []) logsFiles [] logsInput.logFile none :=
    .file rfl rfl (by decide) openLog_logsFiles
  exact ⟨henv, (command_failures_reported_iff henv brokenHost [] logsInput "" none logsFiles).2.1 hdenied⟩

/-- With a blank shell among the variables, a batch command ends with the refusal of the variables as it is,
where a supervise command reports it. -/
theorem blank_shell_unreported :
    let environment : Value := .record [("SHELL", .text " ")]
    let refusal := Issue.failure [.blank "SHELL"]
    environment.IsVariables ∧ refusal.isReport = false
      ∧ (BatchCommand.runLogged brokenHost [] environment { logsInput with logFile := none } "" none {}).result
        = .error refusal
      ∧ SuperviseCommand.settings {} environment none none 8
        = .error (refusal.toReport SuperviseCommand.settingsContext) := by
  refine ⟨⟨_, rfl, by simp⟩, rfl, rfl, rfl⟩

end Bailiff
