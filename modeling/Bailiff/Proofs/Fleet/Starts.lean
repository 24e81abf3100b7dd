-- SUMMARY: Which workers a launch starts, and with which command lines.
import Bailiff.Proofs.Fleet.Moves

/-!
# Starts of workers

When the arguments for workers can be read, every store has a command line (`ToolSettings.workerCommand_eq`), and a
launch starts one worker on each store, in order, up to the first one that the launcher refuses
(`Fleet.launchWorkers_starts`). Beside a server, no other step starts workers (`Fleet.IsPair.workerStarts_step`).
-/

namespace Bailiff

/-! ## Command lines -/

namespace ToolSettings

/-- The command line of a worker on a store, with the arguments that are given to workers. -/
def workerLine (s : ToolSettings) (args : List String) (store : String) : CommandLine :=
  ⟨s.toolsBin, (verbosityFlag s.logLevel).toList ++ ["worker", "--store-dir", store] ++ args ++ [s.serverAddr]⟩

theorem expand_verbosityFlag (level : String) :
    (CommandLine.Piece.flag (verbosityFlag level)).expand = .ok (verbosityFlag level).toList := by
  unfold verbosityFlag
  split <;> rfl

theorem workerCommand_eq {s : ToolSettings} {args : List String} (hargs : CommandLine.splitArgs s.workerArgs = .ok args)
    (store : String) : s.workerCommand store = .ok (s.workerLine args store) := by
  simp only [workerCommand, CommandLine.build, CommandLine.expandAll, expand_verbosityFlag]
  simp only [CommandLine.Piece.expand, hargs, Except.map, List.append_nil, List.append_assoc, workerLine]

theorem workerCommand_unreadable {s : ToolSettings} {failure : Failure}
    (hargs : CommandLine.splitArgs s.workerArgs = .error failure) (store : String) :
    s.workerCommand store = .error failure := by
  simp only [workerCommand, CommandLine.build, CommandLine.expandAll, expand_verbosityFlag]
  simp only [CommandLine.Piece.expand, hargs, Except.map]

end ToolSettings

namespace Fleet

variable {launcher : Launcher} {f g : Fleet} {args : List String}

/-- One worker on each of a list of stores, in order, with consecutive numbers. -/
def workerLines (tools : ToolSettings) (args : List String) (number : Nat) (stores : List String) :
    List (Role × CommandLine) :=
  (stores.zipIdx number).map fun (store, n) => (.worker n, tools.workerLine args store)

theorem workerLines_cons (tools : ToolSettings) (args : List String) (number : Nat) (store : String)
    (rest : List String) : workerLines tools args number (store :: rest)
      = (.worker number, tools.workerLine args store) :: workerLines tools args (number + 1) rest := rfl

theorem workerLines_take (tools : ToolSettings) (args : List String) (number count : Nat) (stores : List String) :
    workerLines tools args number (stores.take count) = (workerLines tools args number stores).take count := by
  induction stores generalizing number count with
  | nil => simp [workerLines]
  | cons store rest ih =>
    cases count with
    | zero => rfl
    | succ count => rw [List.take_succ_cons, workerLines_cons, workerLines_cons, List.take_succ_cons, ih]

/-! ## What a launch starts -/

/-- The workers that are started, with their command lines. A start counts also when it is refused. -/
def workerStarts (effects : List Effect) : List (Role × CommandLine) :=
  effects.filterMap fun
    | .launch (.worker n) command => some (.worker n, command)
    | _ => none

theorem workerStarts_append (effects more : List Effect) :
    workerStarts (effects ++ more) = workerStarts effects ++ workerStarts more :=
  List.filterMap_append

/-- The first worker that the launcher refuses, of those for a list of stores. -/
def Refuses (launcher : Launcher) (files : FileTree) (tools : ToolSettings) (args : List String) (starts number : Nat)
    (stores : List String) (count : Nat) (failure : Failure) : Prop :=
  ∃ store, stores[count]? = some store
    ∧ launcher files (starts + count) (.worker (number + count)) (tools.workerLine args store) = .error failure

/-- The start of one worker, whose arguments can be read. -/
theorem worker_eq (launcher : Launcher) (files : FileTree) {tools : ToolSettings}
    (hargs : CommandLine.splitArgs tools.workerArgs = .ok args) (number : Nat) (store : String) (l : Launching) :
    ∃ effects, workerStarts effects = [(.worker number, tools.workerLine args store)]
      ∧ ((∃ failure, launcher files l.starts (.worker number) (tools.workerLine args store) = .error failure
          ∧ l.worker launcher files tools number store = ({ l with effects := l.effects ++ effects }, .error failure))
        ∨ ∃ id, l.worker launcher files tools number store
          = ({ children := l.children ++ [{ role := .worker number }], starts := l.starts + 1,
               effects := l.effects ++ effects }, .ok id)) := by
  unfold Launching.worker
  rw [ToolSettings.workerCommand_eq hargs]
  simp only [Launching.start, Launching.add]
  cases launcher files l.starts (.worker number) (tools.workerLine args store) with
  | error failure =>
    simp only [List.append_assoc]
    refine ⟨_, ?_, .inl ⟨failure, rfl, rfl⟩⟩
    rfl
  | ok id =>
    simp only [List.append_assoc]
    refine ⟨_, ?_, .inr ⟨id, rfl⟩⟩
    rfl

/-- Of the workers for a list of stores, all are started, or those up to the first that the launcher refuses. -/
theorem workers_starts (launcher : Launcher) (files : FileTree) {tools : ToolSettings}
    (hargs : CommandLine.splitArgs tools.workerArgs = .ok args) (number : Nat) (stores : List String) (l : Launching) :
    ∃ count effects, (l.workers launcher files tools number stores).1.children = l.children ++ newWorkers number count
      ∧ (l.workers launcher files tools number stores).1.effects = l.effects ++ effects
      ∧ ((∃ ids, (l.workers launcher files tools number stores).2 = .ok ids) ∧ count = stores.length
          ∧ workerStarts effects = workerLines tools args number stores
        ∨ ∃ failure, (l.workers launcher files tools number stores).2 = .error failure
          ∧ workerStarts effects = workerLines tools args number (stores.take (count + 1))
          ∧ Refuses launcher files tools args l.starts number stores count failure) := by
  induction stores generalizing number l with
  | nil =>
    exact ⟨0, [], (List.append_nil _).symm, (List.append_nil _).symm, .inl ⟨⟨[], rfl⟩, rfl, rfl⟩⟩
  | cons store rest ih =>
    obtain ⟨effects, hstarts, ⟨failure, hrefused, hworker⟩ | ⟨id, hworker⟩⟩ :=
      worker_eq launcher files hargs number store l
    · unfold Launching.workers
      rw [hworker]
      refine ⟨0, effects, by simp [newWorkers], rfl, .inr ⟨failure, rfl, hstarts, store, rfl, hrefused⟩⟩
    · unfold Launching.workers
      rw [hworker]
      obtain ⟨count, more, hchildren, heffects, hanswer⟩ := ih (number + 1)
        { children := l.children ++ [{ role := .worker number }], starts := l.starts + 1,
          effects := l.effects ++ effects }
      dsimp only
      refine ⟨count + 1, effects ++ more, ?_, ?_, ?_⟩
      · rw [hchildren, List.append_assoc]
        simp [newWorkers, List.range'_succ]
      · rw [heffects, List.append_assoc]
      · rw [workerStarts_append, hstarts]
        rcases hanswer with ⟨⟨ids, hids⟩, hcount, hlines⟩ | ⟨failure, hfailure, hlines, last, hlast, hrefused⟩
        · refine .inl ⟨⟨(.worker number, id) :: ids, by rw [hids]; rfl⟩, by rw [hcount]; rfl, ?_⟩
          rw [hlines]
          rfl
        · refine .inr ⟨failure, by rw [hfailure]; rfl, ?_, last, hlast, ?_⟩
          · rw [hlines]
            rfl
          · rw [← hrefused, Nat.add_assoc, Nat.add_assoc, Nat.add_comm 1 count]

/-- A launch whose arguments can be read starts all workers, or those up to the first that the launcher refuses. -/
theorem launchWorkers_starts (launcher : Launcher) (hargs : CommandLine.splitArgs f.plan.tools.workerArgs = .ok args) :
    ∃ count starts effects answer, f.launchWorkers launcher
        = ({ f with children := f.children ++ newWorkers 1 count, starts }, effects, answer)
      ∧ (answer = .ok () ∧ count = f.stores.length ∧ workerStarts effects = workerLines f.plan.tools args 1 f.stores
        ∨ ∃ failure, answer = .error failure
          ∧ workerStarts effects = workerLines f.plan.tools args 1 (f.stores.take (count + 1))
          ∧ Refuses launcher f.files f.plan.tools args f.starts 1 f.stores count failure) := by
  have hworkers := workers_starts launcher f.files hargs 1 f.stores { starts := f.starts }
  simp only [launchWorkers]
  generalize Launching.workers launcher f.files f.plan.tools 1 f.stores { starts := f.starts } = made at hworkers ⊢
  obtain ⟨l, answer⟩ := made
  obtain ⟨count, effects, hchildren, heffects, hanswer⟩ := hworkers
  rw [List.nil_append] at hchildren heffects
  have htook : f.took l = { f with children := f.children ++ newWorkers 1 count, starts := l.starts } := by
    rw [took, ← hchildren]
  refine ⟨count, l.starts, effects, answer.map fun _ => (), by rw [htook, ← heffects], ?_⟩
  rcases hanswer with ⟨⟨ids, rfl⟩, hall⟩ | ⟨failure, rfl, hsome⟩
  · exact .inl ⟨rfl, hall⟩
  · exact .inr ⟨failure, rfl, hsome⟩

/-- Why a launch breaks off when it has started a number of workers. -/
inductive BreaksOff (launcher : Launcher) (files : FileTree) (tools : ToolSettings) (starts : Nat)
    (stores : List String) (count : Nat) (failure : Failure) : Prop where
  /-- The arguments for workers cannot be read. -/
  | unreadable (hargs : CommandLine.splitArgs tools.workerArgs = .error failure) (hnone : count = 0)
  /-- The launcher refuses the next worker. -/
  | refused {args : List String} (hargs : CommandLine.splitArgs tools.workerArgs = .ok args)
      (hrefused : Refuses launcher files tools args starts 1 stores count failure)

/-- A launch whose arguments cannot be read starts no worker, if there is a store. -/
theorem launchWorkers_unreadable (launcher : Launcher) {failure : Failure}
    (hargs : CommandLine.splitArgs f.plan.tools.workerArgs = .error failure) (hsome : f.stores ≠ []) :
    f.launchWorkers launcher = (f, [], .error failure) := by
  obtain ⟨store, rest, hstores⟩ := List.exists_cons_of_ne_nil hsome
  have hworkers : Launching.workers launcher f.files f.plan.tools 1 f.stores { starts := f.starts }
      = ({ starts := f.starts }, .error failure) := by
    rw [hstores]
    simp only [Launching.workers, Launching.worker, ToolSettings.workerCommand_unreadable hargs]
  simp only [launchWorkers, hworkers, took, List.append_nil, Except.map]

/-- A launch starts all workers, or breaks off. -/
theorem launchWorkers_breaksOff (launcher : Launcher) (f : Fleet) :
    ∃ count starts effects answer, f.launchWorkers launcher
        = ({ f with children := f.children ++ newWorkers 1 count, starts }, effects, answer)
      ∧ (answer = .ok () ∧ count = f.stores.length
        ∨ ∃ failure, answer = .error failure ∧ count < f.stores.length
          ∧ BreaksOff launcher f.files f.plan.tools f.starts f.stores count failure) := by
  cases hargs : CommandLine.splitArgs f.plan.tools.workerArgs with
  | ok args =>
    obtain ⟨count, starts, effects, answer, hlaunch, hanswer⟩ := launchWorkers_starts launcher hargs
    refine ⟨count, starts, effects, answer, hlaunch, ?_⟩
    rcases hanswer with ⟨hok, hall, -⟩ | ⟨failure, herror, -, hrefused⟩
    · exact .inl ⟨hok, hall⟩
    · obtain ⟨store, hstore, -⟩ := id hrefused
      exact .inr ⟨failure, herror, (List.getElem?_eq_some_iff.mp hstore).1, .refused hargs hrefused⟩
  | error failure =>
    by_cases hnone : f.stores = []
    · refine ⟨0, f.starts, [], .ok (), ?_, .inl ⟨rfl, by rw [hnone]; rfl⟩⟩
      simp [launchWorkers, hnone, Launching.workers, took, Except.map, newWorkers]
    · refine ⟨0, f.starts, [], .error failure, ?_, .inr ⟨failure, rfl, ?_, .unreadable hargs rfl⟩⟩
      · rw [launchWorkers_unreadable launcher hargs hnone]
        simp [newWorkers]
      · exact List.length_pos_iff.mpr hnone

/-! ## Steps that start no workers -/

theorem workerStarts_server (launcher : Launcher) (files : FileTree) (tools : ToolSettings) (store : String)
    (l : Launching) : workerStarts (l.server launcher files tools store).1.effects = workerStarts l.effects := by
  unfold Launching.server
  cases tools.serverCommand store with
  | error failure => rfl
  | ok command =>
    simp only [Launching.start, Launching.add]
    cases launcher files l.starts .server command <;> simp only [List.append_assoc, workerStarts_append] <;>
      exact List.append_nil _

theorem workerStarts_serverEnds (f : Fleet) (r : RunResult) : workerStarts (f.serverEnds r).2 = [] := by
  unfold Fleet.serverEnds
  split <;> rfl

theorem workerStarts_startServer (launcher : Launcher) (f : Fleet) (store : String) :
    workerStarts (f.startServer launcher store).2 = [] := by
  have hserver := workerStarts_server launcher f.files f.plan.tools store { starts := f.starts }
  unfold Fleet.startServer
  split
  next l failure heq =>
    rw [heq] at hserver
    rw [workerStarts_append, workerStarts_serverEnds, List.append_nil]
    exact hserver
  next l heq =>
    rw [heq] at hserver
    exact hserver

theorem IsPair.workerStarts_fileStep (h : f.IsPair) (launcher : Launcher) :
    workerStarts (f.fileStep launcher).2 = [] := by
  have hallocated : ∀ (g : Fleet) done, workerStarts (g.allocated done).2 = [] := by
    intro g done
    unfold Fleet.allocated
    split <;> rfl
  unfold Fleet.fileStep
  split
  · obtain ⟨files, answer, hwrite⟩ := f.writeMarker_eq 0
    rw [hwrite]
    cases answer with
    | error fault => rfl
    | ok =>
      simp only [h.mode, or_true, if_true]
      exact hallocated _ _
  · dsimp only
    split
    · rfl
    · exact hallocated _ _
  · obtain ⟨files, answer, hwrite⟩ := f.writeMarker_eq f.plan.workerCount
    rw [hwrite]
    cases answer with
    | error fault => rfl
    | ok =>
      dsimp only
      rw [enterMode_eq launcher { f with files } h.mode]
      rfl
  · split
    · exact workerStarts_serverEnds f _
    · rfl
  · dsimp only
    split
    · exact workerStarts_serverEnds _ _
    · exact workerStarts_startServer launcher _ _
  · rfl

theorem workerStarts_fileFails (f : Fleet) (fault : FileFault) : workerStarts (f.fileFails fault).2 = [] := by
  unfold Fleet.fileFails
  split
  · exact workerStarts_serverEnds f _
  · exact workerStarts_serverEnds f _
  · split <;> rfl

theorem workerStarts_concludes (f : Fleet) : workerStarts f.concludes.2 = [] := by
  unfold Fleet.concludes
  split
  · split
    · exact workerStarts_serverEnds f _
    · exact workerStarts_serverEnds f _
    · rfl
  · split
    · rfl
    · split <;> rfl
    · rfl
  · rfl

theorem workerStarts_terminateWorkers (f : Fleet) : workerStarts f.terminateWorkers.2 = [] := by
  simp [workerStarts, terminateWorkers]

theorem workerStarts_dismissWorkers (f : Fleet) : workerStarts f.dismissWorkers.2 = [] := by
  simp [workerStarts, dismissWorkers, List.filterMap_flatMap]

theorem workerStarts_gathers (f : Fleet) : workerStarts f.gathers.2 = [] := by
  have hasked := workerStarts_terminateWorkers f
  unfold Fleet.gathers
  split
  case h_1 =>
    rw [if_pos rfl]
    split
    · exact hasked
    · split <;> rfl
  case h_2 =>
    rw [if_neg Bool.false_ne_true]
    split
    · split
      · rw [workerStarts_append, hasked]
        rfl
      · split <;> rfl
    · rfl

/-- Beside a server, workers are started by nothing but the end of their wait. -/
theorem IsPair.workerStarts_step (h : f.IsPair) (launcher : Launcher) {a : Action}
    (ha : ¬(a = .ready (.ok true) ∧ f.side = .waiting ∧ f.cancelDue = false)) :
    workerStarts (f.step launcher a).2 = [] := by
  cases a with
  | file fault =>
    cases fault with
    | none => exact h.workerStarts_fileStep launcher
    | some fault => exact workerStarts_fileFails f fault
  | ready answer =>
    simp only [Fleet.step]
    split
    next hdue =>
      obtain ⟨hside, hnot⟩ := hdue
      cases answer with
      | error failure => rfl
      | ok isReady =>
        cases isReady with
        | false => rfl
        | true => exact absurd ⟨rfl, hside, Bool.not_eq_true _ ▸ hnot⟩ ha
    · rfl
  | windowOver =>
    simp only [Fleet.step]
    split
    · split
      · rfl
      · exact workerStarts_dismissWorkers f
    · rfl
  | conclude => exact workerStarts_concludes f
  | gather => exact workerStarts_gathers f
  | cancel =>
    simp only [Fleet.step]
    split <;> rfl
  | join =>
    simp only [Fleet.step]
    split
    · split <;> rfl
    · rfl
  | exited | failed | stop => rfl

end Fleet

end Bailiff
