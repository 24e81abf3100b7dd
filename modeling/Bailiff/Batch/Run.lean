-- SUMMARY: A batch: every task directory through the judge, except those that already have a result.
import Bailiff.Files.Listing
import Bailiff.Judge.Run
import Bailiff.Log.Sink
import Bailiff.Number.Shortest
import Bailiff.Results.Store
import Bailiff.Time.Calendar

/-!
# Batches

A batch goes through its tasks in order. A task with a result in the session is skipped; the others
are given to the judge one after the other, and each outcome is recorded before the next task is
looked at. `Batch.advance` goes on until the judge is needed, `Batch.reply` takes the judge's answer;
in between, anything may happen to the store.
-/

namespace Bailiff

/-- What a batch is told to do. -/
structure BatchPlan where
  judge : String
  root : String
  session : Binary64
  cores : Binary64 := Judge.defaultCores
  timeoutMs : Binary64 := Judge.defaultTimeoutMs
  /-- Where the judge runs. -/
  judgeDir : String
  /-- Where relative paths start. -/
  workDir : String
  deriving DecidableEq, Repr

/-- What a batch did. -/
structure BatchSummary where
  session : Binary64
  executed : List String := []
  skipped : List String := []
  killed : List String := []
  deriving DecidableEq, Repr

/-- A message of a batch: a line of progress, or an event of its session. -/
inductive BatchNote where
  | progress (message : String)
  | event (e : Event)
  deriving Repr

namespace Batch

/-- Where a batch stands: before looking at its next task, waiting for the judge, or at its end. -/
inductive Phase where
  | ready
  | judging (task start : String)
  | done
  | failed (f : Failure)
  deriving Repr

end Batch

structure Batch where
  plan : BatchPlan
  pending : List String
  summary : BatchSummary
  phase : Batch.Phase := .ready
  notes : List BatchNote := []
  deriving Repr

namespace Batch

/-! ## Tasks -/

/-- Whether a directory is a task: its name begins neither with a dot nor with the end of a line. -/
def isTaskName (name : String) : Bool :=
  name.toList.head?.all fun c => c ≠ '.' && !isLineEnd c

/-- The task directories that a listing of a root finds, in the order of their 16-bit units. -/
def listTasks (files : FileTree) (base : Location) (root : String) :
    Except FileFault (List String) :=
  (files.directoriesIn base root).map fun names =>
    Text.sortByUnits (Listing.matched isTaskName names)

/-! ## Messages -/

def note (b : Batch) (n : List BatchNote) : Batch := { b with notes := b.notes ++ n }

def startNotes (plan : BatchPlan) (tasks : List String) : List BatchNote :=
  [.event { type := "batch.start",
            payload := [("task_root", .text plan.root), ("tasks", .nat tasks.length)] }]

def skipNotes (task : String) : List BatchNote :=
  [.progress ("Task " ++ task ++ " already done, skipping"),
    .event { type := "task.skip", level := .known .debug, payload := [("task", .text task)] }]

def beginNotes (task start : String) : List BatchNote :=
  [.progress ("Starting " ++ task ++ " at " ++ start),
    .event { type := "task.start", level := .known .debug, task := some task }]

def outcomeNotes (task : String) (duration : Binary64) : Outcome → List BatchNote
  | .killed =>
    [.progress ("Killed " ++ task ++ " after " ++ duration.fixed 3 ++ "s (timeout)"),
      .event { type := "task.killed", level := .known .warn, task := some task,
               payload := [("duration", .number duration)] }]
  | .completed _ _ returnCode =>
    [.progress ("Completed " ++ task ++ " after " ++ duration.fixed 3 ++ "s"),
      .event { type := "task.complete", level := .known .debug, task := some task,
               payload := [("duration", .number duration), ("return_code", .number returnCode)] }]

def endNotes (s : BatchSummary) : List BatchNote :=
  [.event { type := "batch.complete",
            payload := [("executed", .nat s.executed.length), ("skipped", .nat s.skipped.length),
              ("killed", .nat s.killed.length)] }]

/-! ## Steps -/

/-- A batch over a list of tasks. -/
def start (plan : BatchPlan) (tasks : List String) : Batch :=
  { plan, pending := tasks, summary := { session := plan.session }, notes := startNotes plan tasks }

/-- The batch after a failure. -/
def fail (b : Batch) (f : Failure) : Batch := { b with phase := .failed f }

def stoppedBefore (task : String) : Failure :=
  .of .batchStopped ("Batch stopped before task " ++ task)

/-- Goes through the tasks that need no judge, up to the first that does. `now` is the time at which
that one starts. -/
def advance (stopped : Bool) (store : Store) (now : Binary64) (b : Batch) : Batch :=
  go b.pending b
where
  /-- Looks at the given tasks, the pending ones of the batch. -/
  go : List String → Batch → Batch
    | [], b => { b.note (endNotes b.summary) with pending := [], phase := .done }
    | task :: rest, b =>
      if stopped then b.fail (stoppedBefore task)
      else match store.hasResult b.plan.session task with
        | .error f => b.fail f
        | .ok true =>
          go rest
            { b.note (skipNotes task) with
              pending := rest
              summary := { b.summary with skipped := b.summary.skipped ++ [task] } }
        | .ok false =>
          match Instant.ofNumber? now with
          | none => b.fail (.fault .range "Invalid time value" .unknown)
          | some t =>
            { b.note (beginNotes task t.iso) with pending := rest, phase := .judging task t.iso }

/-- The judge run that a batch waits for. -/
def invocation? (b : Batch) : Option Invocation :=
  match b.phase with
  | .judging task _ =>
    some
      { command :=
          Judge.command b.plan.workDir b.plan.judge (Path.join [b.plan.root, task]) b.plan.cores
        workDir := b.plan.judgeDir
        timeoutMs := b.plan.timeoutMs }
  | _ => none

/-- Takes the answer of the judge after a duration in seconds, and records an outcome. -/
def reply (store : Store) (b : Batch) (duration : Binary64) (answer : Except Failure Outcome) :
    Store × Batch :=
  match b.phase with
  | .judging task start =>
    match answer with
    | .error f => (store, b.fail f)
    | .ok outcome =>
      match store.recordResult b.plan.session task start duration outcome with
      | .error f => (store, b.fail f)
      | .ok store =>
        (store,
          { b.note (outcomeNotes task duration outcome) with
            phase := .ready
            summary :=
              { b.summary with
                executed := b.summary.executed ++ [task]
                killed :=
                  if outcome = .killed then b.summary.killed ++ [task] else b.summary.killed } })
  | _ => (store, b)

/-- What a batch that has ended gives. -/
def result? (b : Batch) : Option (Except Failure BatchSummary) :=
  match b.phase with
  | .done => some (.ok b.summary)
  | .failed f => some (.error f)
  | _ => none

/-- The time between two readings of a clock in milliseconds, in seconds. -/
def secondsBetween (start stop : Binary64) : Binary64 := (stop - start) / 1000

end Batch

end Bailiff
