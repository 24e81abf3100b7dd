-- SUMMARY: Which variables and numbers of jobs give the settings of a run, what is said about the others, and what the settings are.
import Bailiff.Proofs.Files.Path
import Bailiff.Proofs.Settings.Variables
import Bailiff.Proofs.Settings.WorkerCount

/-!
# Validation of settings

Settings are loaded from variables, and a number of jobs is looked at once these can be read. Settings that come out
of this are what the rest of a run relies on (`RunSettings.IsValid`): `RunSettings.load_exact` says when they do, and
which message there is otherwise.
-/

namespace Bailiff

variable {env : Value}

/-! ## Log levels -/

namespace Level

/-- The names of a level. -/
def names : Level → List String
  | warn => ["warn", "warning"]
  | l => [l.name]

/-- The text is a name of the level, in any case and with any blanks around it. -/
def Names (text : String) (l : Level) : Prop :=
  ∃ word, Trims text.toList word ∧ String.ofList (word.map Char.toLower) ∈ l.names

theorem ofName?_eq_some_iff {s : String} {l : Level} : ofName? s = some l ↔ l.name = s := by
  unfold ofName? all
  constructor
  · intro h
    simpa using List.find?_some h
  · rintro rfl
    cases l <;> rfl

theorem parse?_eq_some_iff {text : String} {l : Level} : parse? text = some l ↔ Names text l := by
  have hnames : Names text l ↔ String.ofList ((stripBlanks text.toList).map Char.toLower) ∈ l.names := by
    simp [Names, trims_iff]
  rw [hnames, parse?]
  generalize String.ofList ((stripBlanks text.toList).map Char.toLower) = word
  split
  next hwarning =>
    subst hwarning
    cases l <;> decide
  next hother =>
    rw [ofName?_eq_some_iff]
    cases l <;> simp [names, name, hother, eq_comm]

end Level

/-! ## Settings -/

/-- A number of jobs or workers: an integer from one on. -/
def Binary64.IsCount (x : Binary64) : Prop := ∃ n : Nat, 0 < n ∧ x.toInt? = some (n : Int)

/-- An absolute path without empty, `.` and `..` parts. -/
def Path.IsResolved (p : String) : Prop := ∃ ps, (∀ part ∈ ps, IsName part) ∧ p = ofParts ps

namespace RunSettings

/-- What a run relies on in its settings. -/
structure IsValid (env : Value) (jobs : Option Binary64) (run : RunSettings) : Prop where
  workerCount : run.workerCount.IsCount
  jobs : ∀ x ∈ jobs, run.workerCount = x
  serverAddr : Environment.Settles env "SERVER_ADDR" "127.0.0.1:27183" run.serverAddr
  toolsBin : Environment.Settles env "JUDGE_TOOLS_BIN" "judge-tools" run.toolsBin
  shell : Environment.Settles env "SHELL" "/bin/bash" run.shell
  storeRoot : Path.IsResolved run.storeRoot
  workersFile : Path.IsResolved run.workersFile
  logLevel : match env.field "HARNESS_LOGLEVEL" with
    | .text s => (∀ l, Level.Names s l → run.logLevel = l) ∧ ((¬∃ l, Level.Names s l) → run.logLevel = .error)
    | _ => run.logLevel = .info
  unrecognized : ∀ s, run.unrecognizedLogLevel = some s
    ↔ env.field "HARNESS_LOGLEVEL" = .text s ∧ ¬∃ l, Level.Names s l

theorem isResolved_resolve (dir p : String) : Path.IsResolved (Path.resolve dir p) := Path.resolve_eq_ofParts dir p

/-- The level of a run is the one that its text names; a text that names none is kept. -/
theorem runLevel_spec (text : String) :
    (∃ l, Level.Names text l ∧ runLevel text = (l, none))
      ∨ (¬∃ l, Level.Names text l) ∧ runLevel text = (.error, some text) := by
  simp only [← Level.parse?_eq_some_iff, runLevel]
  cases Level.parse? text with
  | none => exact .inr ⟨by simp, rfl⟩
  | some l => exact .inl ⟨l, rfl, rfl⟩

/-- Settings made of variables that have been read are valid. -/
theorem isValid_build {places : Places} {workersFile : Option String} {e : Environment} {count : Binary64}
    {jobs : Option Binary64} (henv : env.IsVariables) (hreads : Environment.Reads env e) (hcount : count.IsCount)
    (hjobs : ∀ x ∈ jobs, count = x) : (load.build places workersFile e count).IsValid env jobs := by
  have hsettles {name default value : String} (hdefault : default ≠ "") (hunpadded : Unpadded default.toList)
      (hread : Environment.nonBlank env name default = .ok value) : Environment.Settles env name default value :=
    Environment.settles_of_nonBlank henv hdefault hunpadded hread
  constructor
  case workerCount => exact hcount
  case jobs => exact hjobs
  case serverAddr => exact hsettles (by decide) (by decide +kernel) hreads.serverAddr
  case toolsBin => exact hsettles (by decide) (by decide +kernel) hreads.toolsBin
  case shell => exact hsettles (by decide) (by decide +kernel) hreads.shell
  case storeRoot => exact isResolved_resolve _ _
  case workersFile => exact isResolved_resolve _ _
  case logLevel =>
    dsimp only [load.build]
    rcases Environment.source_of_anyText henv hreads.logLevel with ⟨hfield, htext⟩ | hfield
    · rw [hfield, htext, runLevel_info]
    · rw [hfield]
      rcases runLevel_spec e.logLevel with ⟨l, hnames, hlevel⟩ | ⟨hnone, hlevel⟩
      · refine ⟨fun l' hnames' => ?_, fun hnone => absurd ⟨l, hnames⟩ hnone⟩
        obtain rfl : l = l' := Option.some.inj ((Level.parse?_eq_some_iff.mpr hnames).symm.trans
          (Level.parse?_eq_some_iff.mpr hnames'))
        rw [hlevel]
      · refine ⟨fun l hnames => absurd ⟨l, hnames⟩ hnone, fun _ => ?_⟩
        rw [hlevel]
  case unrecognized =>
    intro s
    dsimp only [load.build]
    rcases Environment.source_of_anyText henv hreads.logLevel with ⟨hfield, htext⟩ | hfield
    · rw [hfield, htext, runLevel_info]
      exact iff_of_false nofun nofun
    · rw [hfield, Value.text.injEq]
      rcases runLevel_spec e.logLevel with ⟨l, hnames, hlevel⟩ | ⟨hnone, hlevel⟩
      · rw [hlevel]
        refine iff_of_false nofun ?_
        rintro ⟨rfl, hnone⟩
        exact hnone ⟨l, hnames⟩
      · rw [hlevel, Option.some.injEq]
        refine ⟨?_, And.left⟩
        rintro rfl
        exact ⟨rfl, hnone⟩

/-- The line of the report on blank variables. -/
theorem line_blank (name : String) :
    (Issue.blank name).line = name ++ ": String must contain at least 1 character(s)" := by
  have hline : (Issue.blank name).line
      = ".".intercalate [name] ++ ": " ++ "String must contain at least 1 character(s)" := rfl
  have hname : ".".intercalate [name] = name := rfl
  have hmessage : ": " ++ "String must contain at least 1 character(s)"
      = ": String must contain at least 1 character(s)" := by decide +kernel
  rw [hline, hname, String.append_assoc, hmessage]

/-- Settings fail to load just when a variable is blank that must not be, or else the number of jobs is not an
integer from one on. All blank variables are reported together, each once and in order, before the number of jobs.
Settings that load are valid. -/
theorem load_exact {n : Nat} {jobs : Option Binary64} {parallelism : Binary64} (places : Places)
    (workersFile : Option String) (henv : env.IsVariables) (hparallelism : parallelism.toInt? = some (n : Int))
    (hpos : 0 < n) (hn : n ≤ Binary64.largest) :
    ((∃ f, load places env jobs workersFile parallelism = .error f)
        ↔ Environment.blankNames env ≠ [] ∨ ∃ x ∈ jobs, ¬x.IsCount)
      ∧ (Environment.blankNames env ≠ [] → ∃ cause, load places env jobs workersFile parallelism
          = .error (.because .config ("Invalid environment configuration: " ++ "; ".intercalate
            ((Environment.blankNames env).map (· ++ ": String must contain at least 1 character(s)"))) cause))
      ∧ (Environment.blankNames env = [] → ∀ x ∈ jobs, ¬x.IsCount → load places env jobs workersFile parallelism
          = .error (.of .config ("Please specify a positive number of jobs, not " ++ x.text ++ ".")))
      ∧ ∀ run, load places env jobs workersFile parallelism = .ok run → run.IsValid env jobs := by
  obtain ⟨fields, hfields, -⟩ := id henv
  have hissues := Environment.issues_eq henv
  subst hfields
  unfold load
  rcases Environment.read_cases fields with ⟨hnone, e, hread, hreads⟩ | ⟨hsome, hread⟩
  · rw [hissues, List.map_eq_nil_iff] at hnone
    rw [hread, hnone]
    cases jobs with
    | none =>
      have hcount := isJobCount_iff.mp (isJobCount_defaultWorkerCount hparallelism hpos hn)
      refine ⟨by simp, by simp, by simp, fun run hrun => ?_⟩
      cases hrun
      exact isValid_build henv hreads hcount nofun
    | some x =>
      cases hjobs : isJobCount x with
      | true =>
        have hcount : x.IsCount := isJobCount_iff.mp hjobs
        refine ⟨by simp [hjobs, hcount], by simp, by simp [hcount], fun run hrun => ?_⟩
        dsimp only at hrun
        rw [hjobs] at hrun
        cases hrun
        exact isValid_build henv hreads hcount fun y hy => Option.some.inj hy
      | false =>
        have hcount : ¬x.IsCount := by
          rw [Binary64.IsCount, ← isJobCount_iff, hjobs]
          exact Bool.false_ne_true
        simp [hjobs, hcount]
  · rw [hissues] at hsome hread
    have hblank : Environment.blankNames (.record fields) ≠ [] := fun hnil => hsome (by rw [hnil, List.map_nil])
    rw [hread]
    simp [hblank, Issue.failure, line_blank, Function.comp_def]

/-- Two variables are blank, and there is a number of jobs that would be refused as well. -/
theorem load_exact_two_blank :
    ∃ cause, load {} (.record [("SHELL", .text " "), ("SERVER_ADDR", .text "")]) (some 0) none 4
      = .error (.because .config ("Invalid environment configuration: " ++ "; ".intercalate
        ["SERVER_ADDR: String must contain at least 1 character(s)",
          "SHELL: String must contain at least 1 character(s)"]) cause) := by
  have henv : (Value.record [("SHELL", .text " "), ("SERVER_ADDR", .text "")]).IsVariables :=
    ⟨_, rfl, by simp⟩
  have hblank : Environment.blankNames (.record [("SHELL", .text " "), ("SERVER_ADDR", .text "")])
      = ["SERVER_ADDR", "SHELL"] := by decide +kernel
  have hlines : ["SERVER_ADDR", "SHELL"].map (· ++ ": String must contain at least 1 character(s)")
      = ["SERVER_ADDR: String must contain at least 1 character(s)",
        "SHELL: String must contain at least 1 character(s)"] := by decide +kernel
  obtain ⟨-, hreported, -, -⟩ := @load_exact _ 4 (some 0) 4 {} none henv (by decide +kernel) (by decide)
    (by decide +kernel)
  rw [hblank, hlines] at hreported
  exact hreported (List.cons_ne_nil _ _)

end RunSettings

end Bailiff
