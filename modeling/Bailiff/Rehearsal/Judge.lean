-- SUMMARY: A judge that answers by a list of what to do for each task.
import Bailiff.Batch.Command

namespace Bailiff.Rehearsal

/-- What a rehearsed judge does with one task, in this order: a signal arrives, the batch is stopped,
time passes, and then it fails or gives an outcome. -/
structure JudgeAct where
  signal : Option String := none
  stop : Bool := false
  elapsedMs : Binary64 := 0
  failure : Option Failure := none
  outcome : Outcome := .completed (.text "") (.text "") 0

def JudgeAct.reply (a : JudgeAct) : JudgeReply :=
  { answer := a.failure.elim (.ok a.outcome) .error
    elapsedMs := a.elapsedMs
    signal := a.signal
    stop := a.stop }

/-- A judge that follows a list of acts. A task without an act is completed at once. -/
def judgeHost (acts : List (String × JudgeAct)) (version : Except Failure String) : JudgeHost :=
  { readVersion := fun files => (files, version)
    run := fun files task _ =>
      (files, ((acts.lookup task).getD {}).reply) }

/-! ## A batch of its own -/

/-- The state of a batch that runs without a scope. -/
structure BatchStage where
  store : Store
  batch : Batch
  stopped : Bool
  clock : Clock
  trail : List Trail := []
  invocations : List Invocation := []

/-- Lets the batch go on and shows its notes. Tasks may start at a fixed time. -/
def BatchStage.proceed (fixed : Option Binary64) (s : BatchStage) : BatchStage :=
  let b := s.batch.advance s.stopped s.store (fixed.getD (.ofInt s.clock.now.ms))
  { s with
    batch := { b with notes := [] }
    trail := s.trail ++ b.notes.map (GuardedBatch.seen s.clock.now b.plan.session) }

/-- Runs a batch to its end. The number bounds the judge runs. -/
def BatchStage.drive (host : JudgeHost) (fixed : Option Binary64) : Nat → BatchStage → BatchStage
  | 0, s => s
  | n + 1, s =>
    match s.batch.invocation?, s.batch.phase with
    | some i, .judging task _ =>
      let (_, reply) := host.run {} task i
      let clock := s.clock.advance reply.elapsedMs
      let duration := Batch.secondsBetween s.clock.elapsed clock.elapsed
      let (store, batch) := s.batch.reply s.store duration reply.answer
      let s :=
        { s with
          store
          batch
          clock
          stopped := s.stopped || reply.stop
          invocations := s.invocations ++ [i] }
      match batch.phase with
      | .ready => drive host fixed n (s.proceed fixed)
      | _ => s
    | _, _ => s

/-- A batch over the tasks of a file tree. -/
def runBatch (host : JudgeHost) (fixed : Option Binary64) (stopped : Bool) (files : FileTree)
    (base : Location) (plan : BatchPlan) (store : Store) :
    BatchStage × Except Failure BatchSummary :=
  match Batch.listTasks files base plan.root with
  | .error fault =>
    ({ store, batch := { plan, pending := [], summary := { session := plan.session } }, stopped,
       clock := {} }, .error fault.failure)
  | .ok tasks =>
    let s : BatchStage := { store, batch := Batch.start plan tasks, stopped, clock := {} }
    let s := (s.proceed fixed).drive host fixed (tasks.length + 1)
    (s, s.batch.result?.getD (.error (.plain "The batch has not ended.")))

end Bailiff.Rehearsal
