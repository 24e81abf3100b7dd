-- SUMMARY: Which variables can be read, and the log level that is read from them.
import Bailiff.Proofs.Text.Blank
import Bailiff.Settings.Run

/-!
# Variables

Variables are read in a fixed order, and either all of them can be read or all that are wrong are reported together
(`Environment.read_cases`). Where variables are texts or absent, the wrong ones are those that hold nothing but blanks
and must not (`Environment.issues_eq`). The log level is refused with all of them, and is that of its own text otherwise
(`resolveLogLevel_eq`).
-/

namespace Bailiff

variable {α : Type} {env : Value}

/-! ## Variables -/

/-- The variables of a process: each of them is a text or absent. -/
def Value.IsVariables (env : Value) : Prop :=
  ∃ fields, env = .record fields ∧ ∀ entry ∈ fields, entry.2 = .absent ∨ ∃ s, entry.2 = .text s

theorem Value.IsVariables.field (h : env.IsVariables) (name : String) :
    env.field name = .absent ∨ ∃ s, env.field name = .text s := by
  obtain ⟨fields, rfl, htexts⟩ := h
  unfold Value.field
  cases hfind : fields.find? (fun f => f.1 = name) with
  | none => exact .inl (by simp only [hfind]; rfl)
  | some entry =>
    simp only [hfind]
    exact htexts entry (List.mem_of_find?_eq_some hfind)

namespace Environment

/-- A variable is there and holds nothing but blanks. -/
def isBlankVariable (env : Value) (name : String) : Bool :=
  match env.field name with
  | .text s => s.toList.all isBlank
  | _ => false

/-- The variables that must not be blank, in the order in which they are read. -/
def nonBlankNames : List String := ["SERVER_ADDR", "JUDGE_TOOLS_BIN", "SHELL", "HARNESS_STORE_ROOT"]

/-- The variables that hold nothing but blanks and must not, in the order in which they are read. -/
def blankNames (env : Value) : List String := nonBlankNames.filter (isBlankVariable env)

/-- A value for a variable that must not be blank: its text without the blanks around it, or else its default. -/
structure Settles (env : Value) (name default value : String) : Prop where
  source : (env.field name = .absent ∧ value = default)
    ∨ ∃ s, env.field name = .text s ∧ Trims s.toList value.toList
  nonempty : value ≠ ""
  unpadded : Unpadded value.toList

@[simp] theorem issueOf_ok (a : α) : issueOf (.ok a) = [] := rfl

@[simp] theorem issueOf_error (i : Issue) : issueOf (.error i : Except Issue α) = [i] := rfl

theorem exists_of_issueOf_eq_nil {r : Except Issue α} (h : issueOf r = []) : ∃ a, r = .ok a := by
  cases r with
  | ok a => exact ⟨a, rfl⟩
  | error i => cases h

@[simp] theorem issueOf_map {β : Type} (f : α → β) (r : Except Issue α) : issueOf (r.map f) = issueOf r := by
  cases r <;> rfl

theorem issueOf_anyText (h : env.IsVariables) (name default : String) : issueOf (anyText env name default) = [] := by
  rcases h.field name with hfield | ⟨s, hfield⟩ <;> rw [anyText, hfield, issueOf_ok]

theorem source_of_anyText {name default s : String} (h : env.IsVariables) (hread : anyText env name default = .ok s) :
    (env.field name = .absent ∧ s = default) ∨ env.field name = .text s := by
  unfold anyText at hread
  rcases h.field name with hfield | ⟨s', hfield⟩
  · rw [hfield] at hread
    exact .inl ⟨hfield, (Except.ok.inj hread).symm⟩
  · rw [hfield] at hread
    exact .inr (Except.ok.inj hread ▸ hfield)

theorem isEmpty_trimBlanks (s : String) : (trimBlanks s).isEmpty = s.toList.all isBlank := by
  rw [Bool.eq_iff_iff, String.isEmpty_iff, trimBlanks, List.all_eq_true, ← stripBlanks_eq_nil_iff,
    ← String.toList_eq_nil_iff, String.toList_ofList]

/-- A variable that must not be blank has an issue just when it is. -/
theorem issueOf_nonBlank? (h : env.IsVariables) (name : String) :
    issueOf (nonBlank? env name) = ([name].filter (isBlankVariable env)).map .blank := by
  rcases h.field name with hfield | ⟨s, hfield⟩
  · simp [nonBlank?, isBlankVariable, hfield]
  · cases hblank : s.toList.all isBlank <;>
      simp [nonBlank?, isBlankVariable, hfield, isEmpty_trimBlanks, hblank]

/-- What a variable that must not be blank is read as. -/
theorem settles_of_nonBlank {name default value : String} (h : env.IsVariables) (hdefault : default ≠ "")
    (hunpadded : Unpadded default.toList) (hread : nonBlank env name default = .ok value) :
    Settles env name default value := by
  unfold nonBlank nonBlank? at hread
  rcases h.field name with hfield | ⟨s, hfield⟩
  · rw [hfield] at hread
    obtain rfl : default = value := Except.ok.inj hread
    exact ⟨.inl ⟨hfield, rfl⟩, hdefault, hunpadded⟩
  · rw [hfield] at hread
    dsimp only at hread
    split at hread
    · cases hread
    next hnonempty =>
      obtain rfl : trimBlanks s = value := Except.ok.inj hread
      have htrims := trims_stripBlanks s.toList
      rw [String.isEmpty_iff] at hnonempty
      rw [← String.toList_ofList (l := stripBlanks s.toList)] at htrims
      exact ⟨.inr ⟨s, hfield, htrims⟩, hnonempty, htrims.unpadded⟩

/-! ## Reading all variables -/

/-- Everything that is wrong with the variables, in the order in which they are read. -/
def issues (env : Value) : List Issue :=
  issueOf (anyText env "SERVER_ARGS" "") ++ issueOf (anyText env "WORKER_ARGS" "")
    ++ issueOf (nonBlank env "SERVER_ADDR" "127.0.0.1:27183") ++ issueOf (flag env "SPAWN_SERVER")
    ++ issueOf (flag env "SPAWN_WORKERS") ++ issueOf (anyText env "HARNESS_LOGLEVEL" "info")
    ++ issueOf (nonBlank env "JUDGE_TOOLS_BIN" "judge-tools") ++ issueOf (nonBlank env "SHELL" "/bin/bash")
    ++ issueOf (nonBlank? env "HARNESS_STORE_ROOT")

/-- Each variable has been read. -/
structure Reads (env : Value) (e : Environment) : Prop where
  serverArgs : anyText env "SERVER_ARGS" "" = .ok e.serverArgs
  workerArgs : anyText env "WORKER_ARGS" "" = .ok e.workerArgs
  serverAddr : nonBlank env "SERVER_ADDR" "127.0.0.1:27183" = .ok e.serverAddr
  spawnServer : flag env "SPAWN_SERVER" = .ok e.spawnServer
  spawnWorkers : flag env "SPAWN_WORKERS" = .ok e.spawnWorkers
  logLevel : anyText env "HARNESS_LOGLEVEL" "info" = .ok e.logLevel
  toolsBin : nonBlank env "JUDGE_TOOLS_BIN" "judge-tools" = .ok e.toolsBin
  shell : nonBlank env "SHELL" "/bin/bash" = .ok e.shell
  storeRoot : nonBlank? env "HARNESS_STORE_ROOT" = .ok e.storeRoot

/-- Either all variables can be read, or all that is wrong is reported. -/
theorem read_cases (fields : List (String × Value)) :
    (issues (.record fields) = [] ∧ ∃ e, read (.record fields) = .ok e ∧ Reads (.record fields) e)
      ∨ issues (.record fields) ≠ [] ∧ read (.record fields) = .error (issues (.record fields)) := by
  unfold read
  dsimp only
  split
  next hargs hworker haddr hserver hworkers hlevel htools hshell hroot =>
    refine .inl ⟨?_, _, rfl, hargs, hworker, haddr, hserver, hworkers, hlevel, htools, hshell, hroot⟩
    simp only [issues, hargs, hworker, haddr, hserver, hworkers, hlevel, htools, hshell, hroot, issueOf_ok,
      List.append_nil]
  next hnot =>
    refine .inr ⟨fun hnil => ?_, rfl⟩
    simp only [issues, List.append_eq_nil_iff, and_assoc] at hnil
    obtain ⟨hargs, hworker, haddr, hserver, hworkers, hlevel, htools, hshell, hroot⟩ := hnil
    obtain ⟨_, hargs⟩ := exists_of_issueOf_eq_nil hargs
    obtain ⟨_, hworker⟩ := exists_of_issueOf_eq_nil hworker
    obtain ⟨_, haddr⟩ := exists_of_issueOf_eq_nil haddr
    obtain ⟨_, hserver⟩ := exists_of_issueOf_eq_nil hserver
    obtain ⟨_, hworkers⟩ := exists_of_issueOf_eq_nil hworkers
    obtain ⟨_, hlevel⟩ := exists_of_issueOf_eq_nil hlevel
    obtain ⟨_, htools⟩ := exists_of_issueOf_eq_nil htools
    obtain ⟨_, hshell⟩ := exists_of_issueOf_eq_nil hshell
    obtain ⟨_, hroot⟩ := exists_of_issueOf_eq_nil hroot
    exact hnot _ _ _ _ _ _ _ _ _ hargs hworker haddr hserver hworkers hlevel htools hshell hroot

/-- All that can be wrong with texts is that some are blank. -/
theorem issues_eq (h : env.IsVariables) : issues env = (blankNames env).map .blank := by
  have hnames : nonBlankNames
      = ["SERVER_ADDR"] ++ ["JUDGE_TOOLS_BIN"] ++ ["SHELL"] ++ ["HARNESS_STORE_ROOT"] := rfl
  rw [blankNames, hnames]
  simp only [issues, flag, nonBlank, issueOf_map, issueOf_anyText h, issueOf_nonBlank? h, List.filter_append,
    List.map_append, List.append_nil, List.nil_append]

end Environment

/-! ## The log level -/

/-- The refusal of variables that are blank. -/
def Issue.blanks (names : List String) : Failure := failure (names.map .blank)

theorem Issue.isReport_blanks (names : List String) : (blanks names).isReport = false := rfl

/-- The level that a value of its variable asks for. -/
def loggedLevel : Value → Level
  | .text s => (runLevel s).1
  | _ => .info

theorem runLevel_info : runLevel "info" = (.info, none) := by decide +kernel

/-- A blank variable is refused, whatever it is for. Otherwise the level is that of its own variable. -/
theorem resolveLogLevel_eq (h : env.IsVariables) :
    resolveLogLevel env = if Environment.blankNames env = [] then .ok (loggedLevel (env.field "HARNESS_LOGLEVEL"))
      else .error (Issue.blanks (Environment.blankNames env)) := by
  obtain ⟨fields, hfields, -⟩ := id h
  have hissues := Environment.issues_eq h
  subst hfields
  unfold resolveLogLevel
  rcases Environment.read_cases fields with ⟨hnone, e, hread, hreads⟩ | ⟨hsome, hread⟩
  · rw [hissues, List.map_eq_nil_iff] at hnone
    rw [hread, if_pos hnone]
    rcases Environment.source_of_anyText h hreads.logLevel with ⟨hfield, htext⟩ | hfield
    · simp only [hfield, htext, runLevel_info, loggedLevel]
    · simp only [hfield, loggedLevel]
  · rw [hissues] at hsome
    rw [hread, hissues, if_neg fun hnil => hsome (by rw [hnil, List.map_nil])]
    rfl

end Bailiff
