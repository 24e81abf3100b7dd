-- SUMMARY: A batch under a cleanup scope, which closes its store and its log when a signal comes.
import Bailiff.Batch.Run
import Bailiff.Scope

/-!
# Guarded batches

A batch runs in a cleanup scope. The first signal asks it to stop and closes the store at once, so
that nothing is recorded after it; the end of the batch closes the store as well. What becomes
visible outside is kept in order on a `trail`.
-/

namespace Bailiff

/-- Something that a command lets be seen. -/
inductive Trail where
  | progress (message : String)
  | entry (e : Entry)
  | attach (signal : String)
  | detach (signal : String)
  | exit (code : Int)
  deriving Repr

namespace Trail

/-- The lines of progress of a trail. -/
def progressLines (trail : List Trail) : List String :=
  trail.filterMap fun t => match t with
    | .progress message => some message
    | _ => none

/-- The sink after the log entries of a trail. -/
def write (lg : Logger) (sink : Sink) (trail : List Trail) : Sink :=
  trail.foldl
    (fun s t => match t with
      | .entry e => s.take lg e
      | _ => s)
    sink

end Trail

structure GuardedBatch where
  plan : BatchPlan
  scope : Scope BatchSummary := {}
  /-- The batch, once its tasks have been listed. -/
  batch : Option Batch := none
  store : Store
  stopped : Bool := false
  trail : List Trail := []

namespace GuardedBatch

/-- What can happen to a guarded batch. -/
inductive Action where
  /-- The tasks have been listed. -/
  | listed (tasks : Except FileFault (List String))
  /-- The judge has answered after a number of seconds. -/
  | judged (duration : Binary64) (answer : Except Failure Outcome)
  /-- A signal arrives. -/
  | signal (name : String)
  /-- The cleanup that was started has ended. -/
  | cleaned
  | exit
  | settle
  deriving Repr

/-- Carries out one effect of the scope. -/
def perform (now : Instant) (g : GuardedBatch) : Scope.Effect → GuardedBatch
  | .log e => { g with trail := g.trail ++ [.entry (.event now {} e)] }
  | .attach signal => { g with trail := g.trail ++ [.attach signal] }
  | .detach signal => { g with trail := g.trail ++ [.detach signal] }
  | .stop _ => { g with stopped := true }
  | .beginCleanup =>
    { g with store := g.store.close, trail := g.trail ++ [.entry .close] }
  | .exit code => { g with trail := g.trail ++ [.exit code] }

/-- The scope after a step, with the effects carried out. -/
def inScope (now : Instant) (g : GuardedBatch)
    (step : Scope BatchSummary → Scope BatchSummary × List Scope.Effect) : GuardedBatch :=
  let (scope, effects) := step g.scope
  effects.foldl (perform now) { g with scope }

/-- A note of the batch as it is seen outside. Its events belong to the session. -/
def seen (now : Instant) (session : Binary64) : BatchNote → Trail
  | .progress message => .progress message
  | .event e => .entry (.event now { session := some (some session) } e)

/-- Lets the batch go on, shows its notes, and ends the work when it has ended. -/
def proceed (now : Instant) (g : GuardedBatch) (b : Batch) : GuardedBatch :=
  let b := b.advance g.stopped g.store (.ofInt now.ms)
  let g :=
    { g with
      batch := some { b with notes := [] }
      trail := g.trail ++ b.notes.map (seen now g.plan.session) }
  match b.result? with
  | some result => g.inScope now (·.workEnds result)
  | none => g

/-- Begins: the scope listens. -/
def enter (now : Instant) (plan : BatchPlan) (store : Store) : GuardedBatch :=
  ({ plan, store } : GuardedBatch).inScope now Scope.enter

def step (now : Instant) (g : GuardedBatch) : Action → GuardedBatch
  | .listed (.error fault) => g.inScope now (·.workEnds (.error fault.failure))
  | .listed (.ok tasks) => g.proceed now (Batch.start g.plan tasks)
  | .judged duration answer =>
    match g.batch with
    | none => g
    | some b =>
      let (store, b) := b.reply g.store duration answer
      match b.phase with
      | .ready => { g with store }.proceed now b
      | .failed f =>
        let g := { g with store, batch := some b }
        g.inScope now (·.workEnds (.error f))
      | _ => { g with store, batch := some b }
  | .signal name => g.inScope now (·.signal name name)
  | .cleaned => g.inScope now (·.cleanupEnds none)
  | .exit => g.inScope now Scope.exit
  | .settle => g.inScope now Scope.settle

/-- The step of the scope that is due, if any. -/
def due? (g : GuardedBatch) : Option Action :=
  if g.scope.cleanup = .running then some .cleaned
  else if g.scope.exitDue then some .exit
  else if g.scope.settleDue then some .settle
  else none

/-- Takes the steps of the scope that are due; there are at most three. -/
def rest (now : Instant) (g : GuardedBatch) : GuardedBatch :=
  go 3 g
where
  /-- Takes at most the given number of steps. -/
  go : Nat → GuardedBatch → GuardedBatch
    | 0, g => g
    | n + 1, g =>
      match g.due? with
      | some a => go n (g.step now a)
      | none => g

end GuardedBatch

end Bailiff
