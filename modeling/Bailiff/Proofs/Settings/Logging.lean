-- SUMMARY: What the log level and a batch command depend on in the variables: the text of the level, and which variables are blank that must not be.
import Bailiff.Proofs.Commands.Reports
import Bailiff.Proofs.Settings.Validation
import Bailiff.Proofs.Text.Joined

/-!
# What logging depends on

A command that only logs reads all variables to learn its level, so it is refused for a blank one that it has no use
for (`resolveLogLevel_eq`). No two lists of blank variables are refused with
the same message (`Issue.blanks_injective`), so two processes with the same text have the same level, or the same
refusal, just when the same variables are blank, and then their batch commands do the same
(`log_level_settled_iff`).
-/

namespace Bailiff

/-! ## Messages -/

namespace Issue

/-- Names without a semicolon can be told from their refusal. -/
theorem blanks_injective {ns ms : List String} (hns : ∀ n ∈ ns, ';' ∉ n.toList) (hms : ∀ m ∈ ms, ';' ∉ m.toList)
    (hn : ns ≠ []) (hm : ms ≠ []) (h : blanks ns = blanks ms) : ns = ms := by
  have hlines (names : List String) (hnames : ∀ n ∈ names, ';' ∉ n.toList) :
      ∀ cs ∈ (names.map fun n => (Issue.blank n).line).map String.toList, ';' ∉ cs := by
    intro cs hcs
    obtain ⟨line, hline, rfl⟩ := List.mem_map.mp hcs
    obtain ⟨n, hname, rfl⟩ := List.mem_map.mp hline
    rw [RunSettings.line_blank, String.toList_append, List.mem_append, not_or]
    exact ⟨hnames n hname, by decide⟩
  have hjoined : "; ".intercalate (ns.map fun n => (Issue.blank n).line)
      = "; ".intercalate (ms.map fun m => (Issue.blank m).line) := by
    have hmessage := congrArg Failure.message h
    simpa only [blanks, failure, Failure.because, Failure.message, List.map_map, Function.comp_def,
      String.append_right_inj] using hmessage
  have hsame := congrArg String.toList hjoined
  rw [String.toList_intercalate, String.toList_intercalate] at hsame
  have hparts := joined_injective (by decide) (hlines ns hns) (hlines ms hms) (by simpa) (by simpa) hsame
  have hinj : Function.Injective fun n => (Issue.blank n).line := by
    intro n m heq
    simpa only [RunSettings.line_blank, String.append_left_inj] using heq
  have htoList : Function.Injective String.toList := fun _ _ => String.toList_injective
  exact List.map_injective_iff.mpr hinj (List.map_injective_iff.mpr htoList hparts)

end Issue

/-! ## The level -/

variable {env env₁ env₂ : Value}

open Environment

theorem semicolon_notMem_of_mem_blankNames {name : String} (h : name ∈ blankNames env) : ';' ∉ name.toList := by
  have hnames : ∀ n ∈ nonBlankNames, ';' ∉ n.toList := by decide
  exact hnames name (List.mem_of_mem_filter h)

theorem blanks_eq_iff (h₁ : blankNames env₁ ≠ []) (h₂ : blankNames env₂ ≠ []) :
    Issue.blanks (blankNames env₁) = Issue.blanks (blankNames env₂) ↔ blankNames env₁ = blankNames env₂ := by
  refine ⟨fun heq => ?_, fun heq => heq ▸ rfl⟩
  exact Issue.blanks_injective (fun _ => semicolon_notMem_of_mem_blankNames)
    (fun _ => semicolon_notMem_of_mem_blankNames) h₁ h₂ heq

/-- With the same text for the level, the level or the refusal is the same just when the same variables are blank. -/
theorem resolveLogLevel_congr_iff (h₁ : env₁.IsVariables) (h₂ : env₂.IsVariables)
    (hlevel : env₁.field "HARNESS_LOGLEVEL" = env₂.field "HARNESS_LOGLEVEL") :
    resolveLogLevel env₁ = resolveLogLevel env₂ ↔ blankNames env₁ = blankNames env₂ := by
  rw [resolveLogLevel_eq h₁, resolveLogLevel_eq h₂, hlevel]
  by_cases hnone₁ : blankNames env₁ = [] <;> by_cases hnone₂ : blankNames env₂ = []
  · simp [hnone₁, hnone₂]
  · simp [hnone₁, hnone₂, eq_comm]
  · simp [hnone₁, hnone₂]
  · rw [if_neg hnone₁, if_neg hnone₂, Except.error.injEq, blanks_eq_iff hnone₁ hnone₂]

/-! ## The batch command -/

namespace BatchCommand

variable {files : FileTree} {base : Location} {given : Option (Logger × Sink)} {input : BatchInput}

theorem runLogged_of_resolved (host : JudgeHost) (judgeDir : String)
    (h : resolveLogLevel env₁ = resolveLogLevel env₂) :
    runLogged host base env₁ input judgeDir given files = runLogged host base env₂ input judgeDir given files := by
  unfold runLogged logger
  rw [h]

theorem result_of_refused (host : JudgeHost) (judgeDir : String) {f : Failure} (h : resolveLogLevel env = .error f) :
    (runLogged host base env input judgeDir given files).result = .error f := by
  unfold runLogged logger
  rw [h]

theorem fault_of_ownSink {logFile : Option String} {f : Failure} (h : (ownSink files base logFile).2 = .error f) :
    ∃ fault : FileFault, f = fault.failure := by
  unfold ownSink at h
  split at h
  · cases h
  · split at h
    · cases h
    · split at h
      next fault _ =>
        cases h
        exact ⟨fault, rfl⟩
      · cases h

/-- Once the level is had, all that can keep a command from its log is a log file that cannot be opened. -/
theorem fault_of_logger {logFile : Option String} {level : Level} {f : Failure} (h : resolveLogLevel env = .ok level)
    (hlogger : (logger files base env logFile given).2 = .error f) : ∃ fault : FileFault, f = fault.failure := by
  unfold logger at hlogger
  rw [h] at hlogger
  cases given with
  | some brought => cases hlogger
  | none =>
    cases hsink : (ownSink files base logFile).2 with
    | ok made =>
      simp only [hsink] at hlogger
      cases hlogger
    | error fault =>
      simp only [hsink] at hlogger
      cases hlogger
      exact fault_of_ownSink hsink

/-- Once the level is had, a command does not end with a refusal of variables: its failure is a report, or the fault of
its log file. -/
theorem result_of_resolved (host : JudgeHost) (judgeDir : String) {level : Level}
    (h : resolveLogLevel env = .ok level) (names : List String) :
    (runLogged host base env input judgeDir given files).result ≠ .error (Issue.blanks names) := by
  cases hlogger : logger files base env input.logFile given with
  | mk files' r =>
    cases r with
    | ok made =>
      obtain ⟨lg, sink, place⟩ := made
      intro hrefused
      rw [runLogged_of_logger_ok host input judgeDir hlogger] at hrefused
      have hreport := (reported_run host input judgeDir _).isReport hrefused
      rw [Issue.isReport_blanks] at hreport
      cases hreport
    | error f =>
      obtain ⟨fault, rfl⟩ := fault_of_logger h (congrArg Prod.snd hlogger)
      rw [runLogged_of_logger_error host input judgeDir hlogger]
      exact nofun

/-- A command ends with the refusal of some blank variables just when these are the ones that are blank. -/
theorem refused_iff (host : JudgeHost) (judgeDir : String) (h : env.IsVariables) {other : Value}
    (hother : blankNames other ≠ []) :
    (runLogged host base env input judgeDir given files).result = .error (Issue.blanks (blankNames other))
      ↔ blankNames env = blankNames other := by
  have hresolve := resolveLogLevel_eq h
  by_cases hnone : blankNames env = []
  · rw [if_pos hnone] at hresolve
    rw [hnone]
    exact iff_of_false (result_of_resolved host judgeDir hresolve _) hother.symm
  · rw [if_neg hnone] at hresolve
    rw [result_of_refused host judgeDir hresolve, Except.error.injEq, blanks_eq_iff hnone hother]

/-- Batch commands that end alike have the same blank variables. -/
theorem blankNames_of_result (host : JudgeHost) (judgeDir : String) (h₁ : env₁.IsVariables) (h₂ : env₂.IsVariables)
    (hsame : (runLogged host base env₁ input judgeDir given files).result
      = (runLogged host base env₂ input judgeDir given files).result) : blankNames env₁ = blankNames env₂ := by
  by_cases hnone₁ : blankNames env₁ = []
  · by_cases hnone₂ : blankNames env₂ = []
    · rw [hnone₁, hnone₂]
    · exact (refused_iff host judgeDir h₁ hnone₂).mp (hsame.trans ((refused_iff host judgeDir h₂ hnone₂).mpr rfl))
  · exact ((refused_iff host judgeDir h₂ hnone₁).mp (hsame.symm.trans ((refused_iff host judgeDir h₁ hnone₁).mpr rfl))).symm

end BatchCommand

/-- Two processes whose variables are texts, with the same text for the level: their level or refusal is the same just
when the same variables are blank that must not be. There is a level just when none is blank, and then it is the one
that the text asks for. With the same blank variables their batch commands do the same in everything, and with others
they end differently. -/
theorem log_level_settled_iff (h₁ : env₁.IsVariables) (h₂ : env₂.IsVariables)
    (hlevel : env₁.field "HARNESS_LOGLEVEL" = env₂.field "HARNESS_LOGLEVEL") :
    (resolveLogLevel env₁ = resolveLogLevel env₂ ↔ blankNames env₁ = blankNames env₂)
      ∧ (∀ level, resolveLogLevel env₁ = .ok level
        ↔ blankNames env₁ = [] ∧ level = loggedLevel (env₁.field "HARNESS_LOGLEVEL"))
      ∧ ∀ host base input judgeDir given files,
        (blankNames env₁ = blankNames env₂ → BatchCommand.runLogged host base env₁ input judgeDir given files
            = BatchCommand.runLogged host base env₂ input judgeDir given files)
          ∧ ((BatchCommand.runLogged host base env₁ input judgeDir given files).result
            = (BatchCommand.runLogged host base env₂ input judgeDir given files).result
              → blankNames env₁ = blankNames env₂) := by
  have hcongr := resolveLogLevel_congr_iff h₁ h₂ hlevel
  refine ⟨hcongr, fun level => ?_, fun host base input judgeDir given files => ⟨fun hblank => ?_, ?_⟩⟩
  · rw [resolveLogLevel_eq h₁]
    by_cases hnone : blankNames env₁ = []
    · simp [hnone, eq_comm]
    · simp [hnone]
  · exact BatchCommand.runLogged_of_resolved host judgeDir (hcongr.mpr hblank)
  · exact BatchCommand.blankNames_of_result host judgeDir h₁ h₂

/-- Variables that are not about logging, with a blank one that may be. -/
theorem log_level_settled_by_text :
    resolveLogLevel (.record [("HARNESS_LOGLEVEL", .text "debug")])
      = resolveLogLevel (.record
        [("WORKER_ARGS", .text " "), ("SHELL", .text "/bin/sh"), ("HARNESS_LOGLEVEL", .text "debug")]) := by
  have hblank : blankNames (.record [("HARNESS_LOGLEVEL", .text "debug")])
      = blankNames (.record
        [("WORKER_ARGS", .text " "), ("SHELL", .text "/bin/sh"), ("HARNESS_LOGLEVEL", .text "debug")]) := by
    decide +kernel
  exact (log_level_settled_iff ⟨_, rfl, by simp⟩ ⟨_, rfl, by simp⟩ rfl).1.mpr hblank

/-- A blank shell, which logging does not need, takes the level away. -/
theorem log_level_lost_to_shell :
    (Value.record []).IsVariables ∧ (Value.record [("SHELL", .text " ")]).IsVariables
      ∧ (Value.record []).field "HARNESS_LOGLEVEL" = (Value.record [("SHELL", .text " ")]).field "HARNESS_LOGLEVEL"
      ∧ resolveLogLevel (.record []) = .ok .info
      ∧ resolveLogLevel (.record [("SHELL", .text " ")]) = .error (Issue.blanks ["SHELL"]) :=
  ⟨⟨_, rfl, by simp⟩, ⟨_, rfl, by simp⟩, rfl, rfl, rfl⟩

end Bailiff
