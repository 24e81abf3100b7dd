-- SUMMARY: A batch command that a signal interrupts keeps what it has recorded, and a later one completes the session.
import Bailiff.Proofs.Batch.Tasks
import Bailiff.Proofs.Batch.Undisturbed

/-!
# Interrupted batches

The first signal closes the store at once, so a batch command that is interrupted leaves what had been recorded
before, whatever the judge answers later; and it exits once, after that. A later command that resumes the session
takes up just what is missing of the tasks that it lists (`GuardedBatch.interrupted_batch_resumes`). These are not
always the task directories: below a root with a backslash it finds none
(`GuardedBatch.resumed_batch_misses_task`).
-/

namespace Bailiff

open Batch (todo)

namespace GuardedBatch

variable {g₁ g : GuardedBatch} {plan : BatchPlan} {store : Store} {name : String}

/-- Whether a signal is one of those that end a batch command. -/
def IsEnding (name : String) : Prop := name = "SIGINT" ∨ name = "SIGTERM"

/-- The code with which a batch command exits. -/
def endingCode (name : String) : Int := if name = "SIGINT" then 130 else 143

/-- The first of the signals that end a command is its reason, and begins the cleanup. -/
theorem Watched.signal_first (h : g.Watched) (hname : IsEnding name) (hrunning : g.scope.settled = false)
    (hfirst : g.scope.reason = none) (now : Instant) :
    (g.step now (.signal name)).scope.reason = some name
      ∧ (g.step now (.signal name)).scope.cleanup ≠ .idle
      ∧ (g.step now (.signal name)).store.db = g.store.db := by
  obtain ⟨t, hfollows⟩ := h.follows
  have hsound := hfollows.run.sound
  have hattached : g.scope.attached = true := by
    rw [← Bool.not_eq_false, hsound.attached, Scope.not_exited hsound (.inr hfirst), hrunning]
    simp
  have hregistered : g.scope.registered.contains name = true := by
    rw [Scope.registered, hfollows.run.codes_eq]
    rcases hname with rfl | rfl <;> decide
  have hheard : (g.scope.attached && g.scope.registered.contains name) = true := by
    rw [hattached, hregistered]
    rfl
  obtain ⟨e, hsignal⟩ := Scope.signal_first hheard hfirst name
  have hperforms := performs_inScope now g (·.signal name name)
  refine ⟨?_, ?_, hperforms.db⟩
  · rw [GuardedBatch.step, hperforms.scope, hsignal]
    exact Scope.reason_startCleanup _
  · rw [GuardedBatch.step, hperforms.scope, hsignal]
    exact Scope.cleanup_startCleanup _

/-- When the command has settled and nothing is due any more, it has exited with the code of its first signal. -/
theorem Watched.exits_eq (h : g.Watched) (hname : IsEnding name) (hreason : g.scope.reason = some name)
    (hsettled : g.scope.settled = true) (hdue : g.due? = none) : Trail.exits g.trail = [endingCode name] := by
  obtain ⟨t, hfollows⟩ := h.follows
  have hfinished := (hfollows.run.sound.settled hsettled).1
  have hexited : g.scope.exited = true := by
    rw [← Bool.not_eq_false]
    intro hnot
    simp [due?, hfinished, Scope.exitDue, hreason, hnot] at hdue
  have hcode : g.scope.codeOf name = endingCode name := by
    rw [@Scope.codeOf_eq _ _ {} hfollows.run.codes_eq]
    rcases hname with rfl | rfl <;> decide
  rw [h.exits, hexited, hreason]
  simp [hcode]

/-! ## A session with two tasks -/

/-- A store with one session and no results. -/
def oneSession : Store := { db := (Database.withTables {}).addSession "1.0.0" (.text "") }

/-- A judge whose runs are killed, each at once. -/
def killingHost : JudgeHost :=
  { readVersion := fun files => (files, .ok "1.0.0"), run := fun files _ _ => (files, { answer := .ok .killed }) }

/-- A command that resumes the session. -/
def resumingInput : BatchInput := { judge := "judge", root := "/t", db := "/d", session := some 1 }

/-- The plan of the command. -/
def twoTaskPlan : BatchPlan := BatchCommand.resumedPlan [] resumingInput "" 1

/-- The batch when the first task has been recorded and the second is with the judge. -/
def secondTask : GuardedBatch :=
  ((enter ⟨1⟩ twoTaskPlan oneSession).step ⟨1⟩ (.listed (.ok ["a", "b"]))).step ⟨1⟩ (.judged 1 (.ok .killed))

/-- A signal comes, and the judge answers when the store has been closed. -/
def stoppedLate : GuardedBatch :=
  ((((secondTask.step ⟨1⟩ (.signal "SIGTERM")).step ⟨1⟩ .cleaned).step ⟨1⟩ .exit).step ⟨1⟩
    (.judged 1 (.ok .killed))).step ⟨1⟩ .settle

theorem oneSession_ready : oneSession.db.Ready := ⟨rfl, rfl⟩

theorem oneSession_sound : oneSession.db.Sound := by constructor <;> decide

theorem run_secondTask : Run (enter ⟨1⟩ twoTaskPlan oneSession)
    [.listed (.ok ["a", "b"]), .judged 1 (.ok .killed)] secondTask := by
  have hlisted := (@Run.rest (enter ⟨1⟩ twoTaskPlan oneSession)).step ⟨1⟩ (.listed (.ok ["a", "b"])) ⟨rfl, rfl⟩
  exact hlisted.step ⟨1⟩ (.judged 1 (.ok .killed)) ⟨_, "a", _, rfl, rfl⟩

theorem run_stoppedLate : Run (secondTask.step ⟨1⟩ (.signal "SIGTERM"))
    [.cleaned, .exit, .judged 1 (.ok .killed), .settle] stoppedLate := by
  have hcleaned := (@Run.rest (secondTask.step ⟨1⟩ (.signal "SIGTERM"))).step ⟨1⟩ .cleaned rfl
  have hexited := hcleaned.step ⟨1⟩ .exit rfl
  have hjudged := hexited.step ⟨1⟩ (.judged 1 (.ok .killed)) ⟨_, "b", _, rfl, rfl⟩
  exact hjudged.step ⟨1⟩ .settle rfl

/-- A database, a root with two task directories, and a root with a backslash and one task directory. -/
def resumedFiles (db : Database) : FileTree :=
  ⟨[(["d"], .database db), (["t"], .directory), (["t", "a"], .directory), (["t", "b"], .directory),
    (["x\\y"], .directory), (["x\\y", "c"], .directory)]⟩

/-- A later command begins. -/
def resumedState : BatchCommand.State :=
  { files := resumedFiles stoppedLate.store.db, clock := { epoch := 1, elapsed := 1 } }

theorem undisturbed_killingHost : killingHost.Undisturbed :=
  ⟨fun _ _ _ => rfl, fun _ _ _ => rfl, fun _ _ _ => ⟨.killed, rfl, trivial⟩⟩

theorem steady_killingHost (n : Nat) : resumedState.clock.Steady killingHost n := by
  have hnow : (Instant.ofNumber? (.ofInt resumedState.clock.now.ms)).isSome = true := by decide +kernel
  have hduration : (Batch.secondsBetween resumedState.clock.elapsed resumedState.clock.elapsed).isNaN = false := by
    decide +kernel
  have hstill : resumedState.clock.advance 0 = resumedState.clock := by decide +kernel
  induction n with
  | zero => exact hnow
  | succ n ih =>
    refine ⟨hnow, fun files task i => ?_⟩
    change (Batch.secondsBetween resumedState.clock.elapsed (resumedState.clock.advance 0).elapsed).isNaN = false
      ∧ (resumedState.clock.advance 0).Steady killingHost n
    rw [hstill]
    exact ⟨hduration, ih⟩

theorem connect_resumed : Connection.connect resumedState.files [] "/d"
    = (resumedState.files, .ok { path := "/d", place := .file ["d"] }) := by
  have hroot : Path.directory (Path.resolve (Path.ofParts []) "/d") = "/" := by decide +kernel
  have hmade : resumedState.files.makeDirectories [] "/" = .ok resumedState.files := by rfl
  have hname : trimBlanks "/d" = "/d" := by decide +kernel
  have hdirectory : Path.directory "/d" = "/" := by decide +kernel
  have hlocate : resumedState.files.locate [] "/d" = .ok ["d"] :=
    FileTree.locate_top (by decide) (by decide) (by decide +kernel) (by decide) (by decide) (fun _ => nofun)
  have hthere : (resumedState.files.find? [] "/").isNone = false := by
    rw [FileTree.find?, FileTree.locate_root]
    rfl
  unfold Connection.connect
  simp only [hroot, hmade, hname, hdirectory, hthere, hlocate]
  rfl

theorem distinct_resumed : resumedState.files.Distinct := by
  change List.Nodup [["d"], ["t"], ["t", "a"], ["t", "b"], ["x\\y"], ["x\\y", "c"]]
  decide

theorem leadsTo_resumed : resumedState.files.LeadsTo (Path.resolve (Path.ofParts []) "/t") ["t"] := by
  have hresolve : Path.resolve (Path.ofParts []) "/t" = "/t" := by decide +kernel
  rw [hresolve]
  exact ⟨FileTree.locate_top (by decide) (by decide) (by decide +kernel) (by decide) (by decide) (fun _ => nofun), rfl⟩

theorem isPlainRoot_resumed : Batch.IsPlainRoot resumedState.files [] "/t" := by
  refine ⟨by decide +kernel, fun l hleads name hname _ => ?_⟩
  cases Except.ok.inj (hleads.located.symm.trans leadsTo_resumed.located)
  have hnames : ∀ name ∈ ["a", "b"],
      (∀ c, name.toList.head? = some c → isLineEnd c = false) ∧ ¬['.', '\\'] <+: name.toList := by
    simp [isLineEnd]
  exact hnames name hname

theorem listTasks_resumed : Batch.listTasks resumedState.files [] "/t" = .ok ["a", "b"] := by
  have hplace : Listing.place [] "/t" = Path.resolve (Path.ofParts []) "/t" :=
    Listing.place_eq isPlainRoot_resumed.path
  have hleads (name : String) (hname : Path.IsName name)
      (hdir : resumedState.files.at? (["t"] ++ [name]) = some .directory) :
      resumedState.files.leadsToDirectory ["t"] name = true := FileTree.leadsToDirectory_directory hname hdir
  have hfirst := hleads "a" ⟨by decide, by decide, by decide, by decide⟩ rfl
  have hsecond := hleads "b" ⟨by decide, by decide, by decide, by decide⟩ rfl
  have hnames : (resumedState.files.names ["t"]).mergeSort Text.pointsLE = ["a", "b"] :=
    List.mergeSort_of_pairwise (l := ["a", "b"]) (by decide)
  have hmatched : Listing.matched Batch.isTaskName ["a", "b"] = ["a", "b"] := by decide
  have hsorted : Text.sortByUnits ["a", "b"] = ["a", "b"] := List.mergeSort_of_pairwise (by decide)
  rw [Batch.listTasks, FileTree.directoriesIn_of_leadsTo (hplace ▸ leadsTo_resumed), hnames]
  simp [hfirst, hsecond, hmatched, hsorted, Except.map]

/-- There is a task directory below the root with a backslash. -/
theorem isTask_below_backslash : Batch.IsTask resumedState.files [] "/x\\y" "c" := by
  have hresolve : Path.resolve (Path.ofParts []) "/x\\y" = "/x\\y" := by decide +kernel
  have hlocate : resumedState.files.locate [] "/x\\y" = .ok ["x\\y"] :=
    FileTree.locate_top (by decide) (by decide) (by decide +kernel) (by decide) (by decide) (fun _ => nofun)
  have htask : resumedState.files.at? (["x\\y"] ++ ["c"]) = some .directory := rfl
  refine ⟨["x\\y"], ⟨by rw [hresolve, hlocate], rfl⟩, FileTree.mem_names_iff.mpr (by rw [htask]; nofun), ?_, by decide⟩
  exact FileTree.leadsToDirectory_directory (by constructor <;> decide) htask

theorem listTasks_below_backslash : Batch.listTasks resumedState.files [] "/x\\y" = .ok [] := by
  rw [Batch.listTasks, FileTree.directoriesIn_backslash rfl]
  exact congrArg Except.ok List.mergeSort_nil

/-! ## Interrupted batches -/

/-- A signal comes at any moment of a batch command, whatever the judge does then. When the command has settled,
its database is as it was at the signal, and each row that the command has added is the whole row of an answer of the
judge. The store is closed whenever the exit comes, and there is one exit, with the code of that signal. A later
command that resumes the session undisturbed asks the judge for just the tasks without a row, once and in order,
and leaves one row for every task. Its tasks are those that a listing of its root keeps, and these are the task
directories if listings read the path of the root and the names below it as they stand. -/
theorem interrupted_batch_resumes {known : Session} (hready : store.db.Ready) (hsound : store.db.Sound)
    (hknown : store.db.session? plan.session = some known) {start now : Instant} {before after : List Action}
    (hbefore : Run (enter start plan store) before g₁) (hname : IsEnding name) (hrunning : g₁.scope.settled = false)
    (hfirst : g₁.scope.reason = none) (hafter : Run (g₁.step now (.signal name)) after g)
    (hsettled : g.scope.settled = true) (hdue : g.due? = none) :
    g.store.db = g₁.store.db
      ∧ (∃ (added : List ResultRow) (attempts : List Batch.Attempt),
        g₁.store.db.results = store.db.results ++ added
          ∧ List.Forall₂ (Batch.Leaves plan.session known.id) added attempts
          ∧ (attempts.map fun x => (x.duration, x.answer)).Sublist (answers before))
      ∧ (∀ t g₂, Run (g₁.step now (.signal name)) t g₂ → g₂.scope.exitDue = true → g₂.store.isOpen = false)
      ∧ Trail.exits g.trail = [endingCode name]
      ∧ ∀ (host : JudgeHost) (base : Location) (input : BatchInput) (judgeDir : String) (s : BatchCommand.State)
          (files : FileTree) (c : Connection) (tasks : List String),
        host.Undisturbed → Connection.connect s.files base input.db = (files, .ok c) →
        (c.store files).db = g.store.db → input.session = some plan.session → files.Distinct →
        Batch.listTasks files base input.root = .ok tasks → s.clock.Steady host (tasks.length + 1) →
          (tasks.Pairwise fun a b => Text.units a < Text.units b)
          ∧ (∀ task, task ∈ tasks ↔ Batch.Lists files base input.root task)
          ∧ (Batch.IsPlainRoot files base input.root → ∀ task, task ∈ tasks ↔ Batch.IsTask files base input.root task)
          ∧ ∃ summary added, (BatchCommand.run host base input judgeDir s).2 = .ok summary
            ∧ (BatchCommand.run host base input judgeDir s).1.invocations = s.invocations
              ++ (todo g.store.db plan.session tasks).map
                (Batch.invocationOf (BatchCommand.resumedPlan base input judgeDir plan.session))
            ∧ (c.store (BatchCommand.run host base input judgeDir s).1.files).db.results = g.store.db.results ++ added
            ∧ added.map (·.task) = todo g.store.db plan.session tasks
            ∧ ∀ task ∈ tasks, ((c.store (BatchCommand.run host base input judgeDir s).1.files).db.results.map
              ResultRow.key).count (task, known.id) = 1 := by
  obtain ⟨-, hid⟩ := Database.session?_eq_some hknown
  have hwatched₁ := hbefore.watched (watched_enter start plan store)
  obtain ⟨hreason, hbegun, hsame⟩ := hwatched₁.signal_first hname hrunning hfirst now
  have hwatched := hwatched₁.step now (show g₁.Possible (.signal name) from trivial)
  have hclosed := hwatched.closed hbegun
  have hdb : g.store.db = g₁.store.db := (hafter.db_eq hclosed).1.trans hsame
  have hkept := hbefore.kept hready hsound hid
  refine ⟨hdb, hkept.rows, ?_, ?_, ?_⟩
  · intro t g₂ hrun _
    exact (hrun.db_eq hclosed).2
  · exact (hafter.watched hwatched).exits_eq hname (hafter.reason hreason) hsettled hdue
  · intro host base input judgeDir s files c tasks hhost hconnect hopened hsession hdistinct htasks hclock
    have hknown' : g.store.db.session? plan.session = some known := by
      rw [hdb, Database.session?, hkept.sessions]
      exact hknown
    rw [← hopened] at hknown' ⊢
    have hready' : (c.store files).db.Ready := by
      rw [hopened, hdb]
      exact hkept.ready
    have hsound' : (c.store files).db.Sound := by
      rw [hopened, hdb]
      exact hkept.sound
    obtain ⟨hincreasing, hlists⟩ := Batch.listTasks_eq_ok hdistinct htasks
    refine ⟨hincreasing, hlists, fun hplain task => (hlists task).trans (Batch.lists_iff_isTask hplain), ?_⟩
    exact BatchCommand.run_completes hhost hconnect hready' hsound' hsession hknown' htasks hclock

/-- A signal comes during the second of two tasks, and its run is not recorded. A later command asks the judge for
that task alone. -/
theorem interrupted_batch_resumes_second :
    stoppedLate.store.db = secondTask.store.db ∧ Trail.exits stoppedLate.trail = [143]
      ∧ (∀ task, task ∈ ["a", "b"] ↔ Batch.IsTask resumedState.files [] "/t" task)
      ∧ ∃ summary, (BatchCommand.run killingHost [] resumingInput "" resumedState).2 = .ok summary
        ∧ (BatchCommand.run killingHost [] resumingInput "" resumedState).1.invocations
          = [Batch.invocationOf twoTaskPlan "b"] := by
  have hname : IsEnding "SIGTERM" := .inr rfl
  have hrunning : secondTask.scope.settled = false := rfl
  have hfirst : secondTask.scope.reason = none := rfl
  have hknown : oneSession.db.session? twoTaskPlan.session = some ⟨1, "1.0.0", .text ""⟩ := rfl
  have hsettled : stoppedLate.scope.settled = true := rfl
  have hdue : stoppedLate.due? = none := rfl
  obtain ⟨hdb, -, -, hexits, hlater⟩ := interrupted_batch_resumes oneSession_ready oneSession_sound hknown
    run_secondTask hname hrunning hfirst run_stoppedLate hsettled hdue
  have hopened : (Connection.store resumedState.files { path := "/d", place := .file ["d"] }).db
      = stoppedLate.store.db := rfl
  obtain ⟨-, -, htasks, summary, added, hresult, hinvocations, -⟩ := hlater killingHost [] resumingInput ""
    resumedState resumedState.files { path := "/d", place := .file ["d"] } ["a", "b"] undisturbed_killingHost
    connect_resumed hopened rfl distinct_resumed listTasks_resumed (steady_killingHost 3)
  have htodo : todo stoppedLate.store.db twoTaskPlan.session ["a", "b"] = ["b"] := rfl
  rw [htodo] at hinvocations
  exact ⟨hdb, hexits, htasks isPlainRoot_resumed, summary, hresult, hinvocations⟩

/-- A command that resumes the session over the root with a backslash. -/
def backslashInput : BatchInput := { resumingInput with root := "/x\\y" }

/-- A later command over a root with a backslash succeeds, and has not asked the judge for the task directory there,
which has no row. -/
theorem resumed_batch_misses_task :
    Batch.IsTask resumedState.files [] "/x\\y" "c"
      ∧ stoppedLate.store.db.hasResult 1 "c" = false
      ∧ ∃ summary, (BatchCommand.run killingHost [] backslashInput "" resumedState).2 = .ok summary
        ∧ (BatchCommand.run killingHost [] backslashInput "" resumedState).1.invocations = [] := by
  have hopened : (Connection.store resumedState.files { path := "/d", place := .file ["d"] }).db
      = stoppedLate.store.db := rfl
  have hknown : stoppedLate.store.db.session? 1 = some ⟨1, "1.0.0", .text ""⟩ := rfl
  have hready : stoppedLate.store.db.Ready := ⟨rfl, rfl⟩
  have hsound : stoppedLate.store.db.Sound := by constructor <;> decide
  rw [← hopened] at hknown hready hsound
  obtain ⟨summary, added, hresult, hinvocations, -⟩ := @BatchCommand.run_completes ⟨1, "1.0.0", .text ""⟩ killingHost []
    backslashInput "" resumedState resumedState.files { path := "/d", place := .file ["d"] } 1 [] undisturbed_killingHost
    connect_resumed hready hsound rfl hknown listTasks_below_backslash (steady_killingHost 1)
  rw [Batch.todo, List.filter_nil, List.eraseDups_nil, List.map_nil, List.append_nil] at hinvocations
  exact ⟨isTask_below_backslash, rfl, summary, hresult, hinvocations⟩

end GuardedBatch

end Bailiff
