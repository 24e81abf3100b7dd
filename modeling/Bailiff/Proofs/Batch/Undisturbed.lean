-- SUMMARY: A batch command that nothing interferes with takes up the tasks without a result and leaves one for each.
import Bailiff.Proofs.Batch.Guarded
import Bailiff.Proofs.Batch.Resume
import Bailiff.Proofs.Results.Archive

/-!
# Undisturbed commands

A batch command resumes a session, no signal comes, and every run of the judge gives an outcome. Then each step of
the command either finds the tasks done or waits for the judge with the next task that has no result
(`GuardedBatch.proceed_waiting`), so that the command goes through its tasks in one whole passage
(`BatchCommand.drive_completes`) and succeeds (`BatchCommand.run_completes`).
-/

namespace Bailiff

open Batch (Passage todo)

/-! ## Judges and clocks -/

/-- No run of the judge is interrupted, and each gives an outcome that can be recorded. -/
structure JudgeHost.Undisturbed (host : JudgeHost) : Prop where
  signal : ∀ files task i, (host.run files task i).2.signal = none
  stop : ∀ files task i, (host.run files task i).2.stop = false
  answer : ∀ files task i, ∃ outcome : Outcome, (host.run files task i).2.answer = .ok outcome ∧ outcome.IsRecordable

/-- The time can be told now, and after each of a number of runs of the judge. -/
def Clock.Steady (host : JudgeHost) : Nat → Clock → Prop
  | 0, c => (Instant.ofNumber? (.ofInt c.now.ms)).isSome
  | n + 1, c => (Instant.ofNumber? (.ofInt c.now.ms)).isSome
      ∧ ∀ files task i,
        (Batch.secondsBetween c.elapsed (c.advance (host.run files task i).2.elapsedMs).elapsed).isNaN = false
          ∧ (c.advance (host.run files task i).2.elapsedMs).Steady host n

theorem Clock.Steady.now {host : JudgeHost} {n : Nat} {c : Clock} (h : c.Steady host n) :
    (Instant.ofNumber? (.ofInt c.now.ms)).isSome := by
  cases n with
  | zero => exact h
  | succ n => exact h.1

/-! ## Going on -/

namespace Batch

variable {s s' : Store} {b : Batch} {session : Binary64}

/-- What a batch asks of the judge for a task. -/
def invocationOf (plan : BatchPlan) (task : String) : Invocation :=
  { command := Judge.command plan.workDir plan.judge (Path.join [plan.root, task]) plan.cores
    workDir := plan.judgeDir
    timeoutMs := plan.timeoutMs }

theorem invocation?_of_judging {task start : String} (h : b.phase = .judging task start) :
    b.invocation? = some (invocationOf b.plan task) := by
  simp [invocation?, h, invocationOf]

/-- How a batch that is not stopped goes on: it is done, or it waits for the judge with a task that has no
result, and has passed over those before it. -/
inductive GoesOn (s : Store) (b : Batch) (tasks : List String) (b' : Batch) : Prop where
  | done (hphase : b'.phase = .done) (hpassage : Passage b.plan.session s tasks [] s .done)
  | waits {task start : String} (hphase : b'.phase = .judging task start)
      (hfresh : s.db.hasResult b.plan.session task = false) (hfewer : b'.pending.length < tasks.length)
      (hpassage : ∀ {attempts s' e}, Passage b.plan.session s (task :: b'.pending) attempts s' e →
        Passage b.plan.session s tasks attempts s' e)

theorem goesOn_go {now : Binary64} (hopen : s.isOpen = true) (hnow : (Instant.ofNumber? now).isSome)
    (tasks : List String) : GoesOn s b tasks (advance.go false s now tasks b) := by
  induction tasks generalizing b with
  | nil => exact .done rfl (.done s)
  | cons task rest ih =>
    have hlook : s.hasResult b.plan.session task = .ok (s.db.hasResult b.plan.session task) := by
      rw [Store.hasResult, Store.whenOpen, if_pos hopen]
    rw [advance.go, if_neg Bool.false_ne_true, hlook]
    cases hhas : s.db.hasResult b.plan.session task with
    | true =>
      cases @ih { b.note (skipNotes task) with
          pending := rest
          summary := { b.summary with skipped := b.summary.skipped ++ [task] } } with
      | done hphase hpassage => exact .done hphase (.skipped hhas hpassage)
      | waits hphase hfresh hfewer hpassage =>
        exact .waits hphase hfresh (Nat.lt_succ_of_lt hfewer) fun later => .skipped hhas (hpassage later)
    | false =>
      obtain ⟨t, ht⟩ := Option.isSome_iff_exists.mp hnow
      simp only [ht]
      exact .waits rfl hhas (Nat.lt_succ_self _) id

end Batch

namespace GuardedBatch

variable {g g' : GuardedBatch} {b : Batch} {plan : BatchPlan} {known : Session}

/-- Nothing has interfered with a guarded batch so far, and its session is there. -/
structure Undisturbed (g : GuardedBatch) (plan : BatchPlan) (known : Session) : Prop where
  plan_eq : g.plan = plan
  scope : g.scope = { attached := true }
  stopped : g.stopped = false
  serves : g.store.Serves plan.session (some known)

theorem undisturbed_enter (now : Instant) {store : Store} (h : store.Serves plan.session (some known)) :
    (enter now plan store).Undisturbed plan known :=
  ⟨rfl, rfl, rfl, h⟩

/-- The batch waits for the judge with a task that has no result. -/
structure Waits (g : GuardedBatch) (plan : BatchPlan) (known : Session) (b : Batch) (task start : String) : Prop
    extends g.Undisturbed plan known where
  batch : g.batch = some b
  plan_batch : b.plan = plan
  phase : b.phase = .judging task start
  fresh : g.store.db.hasResult plan.session task = false

/-- What the steps that are due do not touch. -/
theorem due_keeps {a : Action} (hdue : g.due? = some a) (now : Instant) :
    (g.step now a).store.db = g.store.db ∧ (g.step now a).scope.work = g.scope.work
      ∧ (g.step now a).batch = g.batch := by
  have hinScope (f : Scope BatchSummary → Scope BatchSummary × List Scope.Effect)
      (hwork : (f g.scope).1.work = g.scope.work) : (g.inScope now f).store.db = g.store.db
        ∧ (g.inScope now f).scope.work = g.scope.work ∧ (g.inScope now f).batch = g.batch := by
    have hperforms := performs_inScope now g f
    exact ⟨hperforms.db, by rw [hperforms.scope, hwork], hperforms.batch⟩
  unfold due? at hdue
  split at hdue
  · cases hdue
    exact hinScope (·.cleanupEnds none) rfl
  split at hdue
  · cases hdue
    exact hinScope Scope.exit rfl
  split at hdue
  · cases hdue
    exact hinScope Scope.settle (Scope.work_settle _)
  · cases hdue

theorem rest_keeps (now : Instant) (g : GuardedBatch) :
    (g.rest now).store.db = g.store.db ∧ (g.rest now).scope.work = g.scope.work ∧ (g.rest now).batch = g.batch := by
  unfold rest
  generalize 3 = n
  induction n generalizing g with
  | zero => exact ⟨rfl, rfl, rfl⟩
  | succ n ih =>
    unfold rest.go
    split
    next a hdue =>
      obtain ⟨hdb, hwork, hbatch⟩ := due_keeps hdue now
      obtain ⟨hdb', hwork', hbatch'⟩ := ih (g.step now a)
      exact ⟨hdb'.trans hdb, hwork'.trans hwork, hbatch'.trans hbatch⟩
    · exact ⟨rfl, rfl, rfl⟩

/-- An undisturbed batch has no step of its scope due. -/
theorem Undisturbed.rest_eq (h : g.Undisturbed plan known) (now : Instant) : g.rest now = g := by
  have hnone : g.due? = none := by
    rw [due?, h.scope]
    rfl
  rw [rest, rest.go, hnone]

/-- How a batch with pending tasks goes on by itself. -/
inductive Proceeds (g : GuardedBatch) (plan : BatchPlan) (known : Session) (tasks : List String)
    (g' : GuardedBatch) : Prop where
  | done (b : Batch) (hbatch : g'.batch = some b) (hphase : b.phase = .done) (summary : BatchSummary)
      (hwork : g'.scope.work = some (.ok summary)) (hdb : g'.store.db = g.store.db)
      (hpassage : Passage plan.session g.store tasks [] g.store .done)
  | waits {b : Batch} {task start : String} (hwaits : g'.Waits plan known b task start) (hstore : g'.store = g.store)
      (hfewer : b.pending.length < tasks.length)
      (hpassage : ∀ {attempts s' e}, Passage plan.session g.store (task :: b.pending) attempts s' e →
        Passage plan.session g.store tasks attempts s' e)

theorem Undisturbed.proceeds (h : g.Undisturbed plan known) {now : Instant}
    (hnow : (Instant.ofNumber? (.ofInt now.ms)).isSome) (hplan : b.plan = plan) {tasks : List String}
    (hpending : b.pending = tasks) : g.Proceeds plan known tasks ((g.proceed now b).rest now) := by
  subst hplan hpending
  have hgoes := @Batch.goesOn_go g.store b (.ofInt now.ms) h.serves.isOpen hnow b.pending
  have hkept : (Batch.advance g.stopped g.store (.ofInt now.ms) b).plan = b.plan := Batch.plan_advance ..
  unfold proceed
  rw [h.stopped, Batch.advance] at *
  dsimp only
  generalize Batch.advance.go false g.store (.ofInt now.ms) b.pending b = b' at hgoes hkept ⊢
  cases hgoes with
  | done hphase hpassage =>
    have hresult : b'.result? = some (.ok b'.summary) := by simp [Batch.result?, hphase]
    rw [hresult]
    dsimp only
    generalize hshown : GuardedBatch.mk g.plan g.scope (some { b' with notes := [] }) g.store _ _ = shown
    have hperforms := performs_inScope now shown (·.workEnds (.ok b'.summary))
    obtain ⟨hdb, hwork, hbatch⟩ := rest_keeps now (shown.inScope now (·.workEnds (.ok b'.summary)))
    subst hshown
    refine .done { b' with notes := [] } (hbatch.trans hperforms.batch) hphase b'.summary ?_
      (hdb.trans hperforms.db) hpassage
    rw [hwork, hperforms.scope]
    exact Scope.work_workEnds _ _
  | waits hphase hfresh hfewer hpassage =>
    have hresult : b'.result? = none := by simp [Batch.result?, hphase]
    rw [hresult]
    dsimp only
    generalize hshown : GuardedBatch.mk g.plan g.scope (some { b' with notes := [] }) g.store _ _ = shown
    have hundisturbed : shown.Undisturbed b.plan known := by
      subst hshown
      exact ⟨h.plan_eq, h.scope, rfl, h.serves⟩
    rw [hundisturbed.rest_eq]
    subst hshown
    exact .waits ⟨hundisturbed, rfl, hkept, hphase, hfresh⟩ rfl hfewer hpassage

/-- The judge answers, the outcome is recorded, and the batch goes on. -/
theorem Waits.judged {task start : String} (h : g.Waits plan known b task start) {now : Instant}
    (hnow : (Instant.ofNumber? (.ofInt now.ms)).isSome) {duration : Binary64} (hduration : duration.isNaN = false)
    {outcome : Outcome} (houtcome : outcome.IsRecordable) :
    ∃ g₁ : GuardedBatch, g.store.recordResult plan.session task start duration outcome = .ok g₁.store
      ∧ g₁.Proceeds plan known b.pending ((g.step now (.judged duration (.ok outcome))).rest now) := by
  obtain ⟨s, hrecord⟩ := h.serves.recordResult_ok h.fresh start hduration houtcome
  have hundisturbed : Undisturbed { g with batch := some b, store := s } plan known :=
    ⟨h.plan_eq, h.scope, h.stopped, h.serves.recorded hrecord⟩
  refine ⟨{ g with batch := some b, store := s }, hrecord, ?_⟩
  simp only [step, h.batch, Batch.reply, h.phase, h.plan_batch, hrecord]
  apply hundisturbed.proceeds hnow
  · exact h.plan_batch
  · rfl

end GuardedBatch

namespace BatchCommand

variable {plan : BatchPlan} {known : Session} {host : JudgeHost}

/-- The way of an undisturbed command through its tasks. -/
structure Completes (plan : BatchPlan) (store : Store) (tasks : List String) (s s' : State) (g : GuardedBatch) :
    Prop where
  work : ∃ summary, g.scope.work = some (.ok summary)
  passage : ∃ attempts final, Passage plan.session store tasks attempts final .done
    ∧ g.store.db = final.db ∧ (∀ x ∈ attempts, x.answer.isOk = true)
    ∧ s'.invocations = s.invocations ++ attempts.map fun x => Batch.invocationOf plan x.task

theorem isOk_of_eq {x : Batch.Attempt} {outcome : Outcome} (h : x.answer = .ok outcome) : x.answer.isOk = true := by
  rw [h]
  rfl

/-- One run of the judge, after which the batch goes on. -/
theorem drive_waits (hhost : host.Undisturbed) {n : Nat} {s : State} {g : GuardedBatch} {b : Batch}
    {task start : String} (hwaits : g.Waits plan known b task start) (hclock : s.clock.Steady host (n + 1)) :
    ∃ (x : Batch.Attempt) (g₁ g₂ : GuardedBatch) (s₂ : State), x.task = task
      ∧ (∃ outcome, x.answer = .ok outcome
        ∧ g.store.recordResult plan.session x.task x.start x.duration outcome = .ok g₁.store)
      ∧ g₁.Proceeds plan known b.pending g₂ ∧ s₂.clock.Steady host n
      ∧ s₂.invocations = s.invocations ++ [Batch.invocationOf plan task]
      ∧ drive host (n + 1) s g = drive host n s₂ g₂ := by
  have hnext : (g.batch.bind fun b => b.invocation?.map fun i => (b, i))
      = some (b, Batch.invocationOf plan task) := by
    simp [hwaits.batch, Batch.invocation?_of_judging hwaits.phase, hwaits.plan_batch]
  have hsignal := hhost.signal s.files task (Batch.invocationOf plan task)
  have hstop := hhost.stop s.files task (Batch.invocationOf plan task)
  obtain ⟨outcome, hanswer, hrecordable⟩ := hhost.answer s.files task (Batch.invocationOf plan task)
  obtain ⟨hduration, hsteady⟩ := hclock.2 s.files task (Batch.invocationOf plan task)
  rw [drive, hnext]
  simp only [hwaits.phase, hsignal, hstop, hanswer, Bool.false_eq_true, if_false]
  have hstill (trail : List Trail) : GuardedBatch.Waits { g with trail } plan known b task start :=
    ⟨⟨hwaits.plan_eq, hwaits.scope, hwaits.stopped, hwaits.serves⟩, hwaits.batch, hwaits.plan_batch, hwaits.phase,
      hwaits.fresh⟩
  let said := (host.run s.files task (Batch.invocationOf plan task)).2.events.map fun e =>
    Trail.entry (.event s.clock.now {} e)
  obtain ⟨g₁, hrecord, hproceeds⟩ := (hstill (g.trail ++ said)).judged hsteady.now hduration hrecordable
  exact ⟨⟨task, start, _, .ok outcome⟩, g₁, _, _, rfl, ⟨outcome, rfl, hrecord⟩, hproceeds, hsteady, rfl, rfl⟩

theorem drive_done (host : JudgeHost) (n : Nat) (s : State) {g : GuardedBatch} {b : Batch} (hb : g.batch = some b)
    (hphase : b.phase = .done) : drive host n s g = (s, g) := by
  cases n with
  | zero => rfl
  | succ n => simp [drive, hb, Batch.invocation?, hphase]

/-- A command that goes on undisturbed passes through all its tasks. -/
theorem drive_completes (hhost : host.Undisturbed) {n : Nat} {s : State} {g₁ g : GuardedBatch} {tasks : List String}
    (hproceeds : g₁.Proceeds plan known tasks g) (hfuel : tasks.length ≤ n) (hclock : s.clock.Steady host n) :
    Completes plan g₁.store tasks s (drive host n s g).1 (drive host n s g).2 := by
  induction n generalizing s g₁ g tasks with
  | zero =>
    cases hproceeds with
    | done b hbatch hphase summary hwork hdb hpassage =>
      exact ⟨⟨summary, hwork⟩, [], g₁.store, hpassage, hdb, nofun, (List.append_nil _).symm⟩
    | waits hwaits hstore hfewer => omega
  | succ n ih =>
    cases hproceeds with
    | done b hbatch hphase summary hwork hdb hpassage =>
      rw [drive_done host (n + 1) s hbatch hphase]
      exact ⟨⟨summary, hwork⟩, [], g₁.store, hpassage, hdb, nofun, (List.append_nil _).symm⟩
    | waits hwaits hstore hfewer hpassage =>
      obtain ⟨x, g₂, g₃, s₂, rfl, ⟨outcome, hanswer, hrecord⟩, hnext, hsteady, hinvocations, hdrive⟩ :=
        drive_waits hhost hwaits hclock
      have hlater := ih hnext (by omega) hsteady
      obtain ⟨attempts, final, hrest, hdb, hok, hmore⟩ := hlater.passage
      have hfresh := hwaits.fresh
      rw [hstore] at hfresh hrecord
      rw [hdrive]
      refine ⟨hlater.work, x :: attempts, final, hpassage (.recorded x hfresh hanswer hrecord hrest), hdb, ?_, ?_⟩
      · simpa [isOk_of_eq hanswer] using hok
      · rw [hmore, hinvocations, List.append_assoc]
        rfl

variable {base : Location} {input : BatchInput} {judgeDir : String} {s : State} {files : FileTree} {c : Connection}
  {session : Binary64} {tasks : List String}

/-- The plan of a command that resumes a session. -/
def resumedPlan (base : Location) (input : BatchInput) (judgeDir : String) (session : Binary64) : BatchPlan :=
  { judge := input.judge
    root := input.root
    session
    cores := input.cores
    timeoutMs := input.timeout * 1000
    judgeDir
    workDir := Path.ofParts base }

/-- A connection to a database with sessions is one to a file, and what is kept there is found there. -/
theorem db_store_commit (hconnect : Connection.connect s.files base input.db = (files, .ok c))
    (hknown : (c.store files).db.session? session = some known) (files' : FileTree) (store : Store) :
    (c.store (c.commit files' store).1).db = store.db ∧ c.isOpen = true := by
  have hopened := Archive.Opened.of_connect s.files base input.db
  rw [hconnect] at hopened
  generalize hverdict : (Except.ok c : Except Failure Connection) = verdict at hopened
  cases hopened with
  | refused => cases hverdict
  | unnamed =>
    cases hverdict
    have hnone : (Database.withTables {}).session? session = none := rfl
    rw [Connection.store, hnone] at hknown
    cases hknown
  | file _ hl _ _ _ hok =>
    obtain rfl := hok c hverdict.symm
    simp [Connection.store, Connection.commit, FileTree.at?_put hl]

/-- A command whose batch has ended well. -/
theorem run_of_drive (hconnect : Connection.connect s.files base input.db = (files, .ok c)) {s₁ : State}
    (hresolve : resolveSession host input (c.store files) { s with files } = (s₁, .ok (c.store files, session)))
    (htasks : Batch.listTasks s₁.files base input.root = .ok tasks) {d : State × GuardedBatch}
    (hdrive : drive host (tasks.length + 1) s₁
      (((GuardedBatch.enter s₁.clock.now (resumedPlan base input judgeDir session) (c.store files)).step s₁.clock.now
        (.listed (.ok tasks))).rest s₁.clock.now) = d)
    {summary : BatchSummary} (hwork : d.2.scope.work = some (.ok summary)) :
    (run host base input judgeDir s).2 = .ok summary
      ∧ (run host base input judgeDir s).1.invocations = d.1.invocations
      ∧ (run host base input judgeDir s).1.files = (c.commit d.1.files d.2.store).1 := by
  have hbatch : runBatch host base input judgeDir s
      = ({ d.1 with
          files := (c.commit d.1.files d.2.store).1
          trail := d.1.trail ++ d.2.trail ++ [.progress (closing summary)] }, .ok summary) := by
    unfold runBatch
    rw [hconnect]
    dsimp only
    rw [hresolve]
    dsimp only
    rw [htasks]
    dsimp only [Except.toOption, Option.getD]
    unfold resumedPlan at hdrive
    rw [hdrive, hwork]
  unfold run
  rw [hbatch]
  exact ⟨rfl, rfl, rfl⟩

/-- A command that resumes a session undisturbed succeeds. It asks the judge for just the tasks without a result,
once and in order, and leaves every task with one result. -/
theorem run_completes (hhost : host.Undisturbed)
    (hconnect : Connection.connect s.files base input.db = (files, .ok c)) (hready : (c.store files).db.Ready)
    (hsound : (c.store files).db.Sound) (hsession : input.session = some session)
    (hknown : (c.store files).db.session? session = some known)
    (htasks : Batch.listTasks files base input.root = .ok tasks) (hclock : s.clock.Steady host (tasks.length + 1)) :
    ∃ summary added, (run host base input judgeDir s).2 = .ok summary
      ∧ (run host base input judgeDir s).1.invocations = s.invocations
        ++ (todo (c.store files).db session tasks).map (Batch.invocationOf (resumedPlan base input judgeDir session))
      ∧ (c.store (run host base input judgeDir s).1.files).db.results = (c.store files).db.results ++ added
      ∧ added.map (·.task) = todo (c.store files).db session tasks
      ∧ ∀ task ∈ tasks, ((c.store (run host base input judgeDir s).1.files).db.results.map
        ResultRow.key).count (task, known.id) = 1 := by
  obtain ⟨-, hid⟩ := Database.session?_eq_some hknown
  have hopen : (c.store files).isOpen = true := by
    have hisOpen := (db_store_commit hconnect hknown files (c.store files)).2
    unfold Connection.store
    split
    · exact hisOpen
    · split <;> exact hisOpen
  have hresolve : resolveSession host input (c.store files) { s with files }
      = ({ s with files, trail := s.trail ++ [.progress ("Resuming session " ++ session.text)] },
        .ok (c.store files, session)) := by
    rw [resolveSession, hsession]
    simp only [Store.resumeSession, Store.getSession, Store.whenOpen, hopen, if_true, hknown]
  let plan := resumedPlan base input judgeDir session
  let s₁ : State := { s with files, trail := s.trail ++ [.progress ("Resuming session " ++ session.text)] }
  generalize hdrive : drive host (tasks.length + 1) s₁ (((GuardedBatch.enter s₁.clock.now plan (c.store files)).step
    s₁.clock.now (.listed (.ok tasks))).rest s₁.clock.now) = d
  have hcompletes : Completes plan (c.store files) tasks s₁ d.1 d.2 := by
    have hundisturbed := @GuardedBatch.undisturbed_enter plan known s.clock.now _ ⟨hopen, hready, hknown⟩
    have hproceeds := @GuardedBatch.Undisturbed.proceeds _ (Batch.start plan tasks) plan known hundisturbed
      s.clock.now hclock.now rfl tasks rfl
    rw [← hdrive]
    exact @drive_completes plan known host hhost (tasks.length + 1) s₁ _ _ tasks hproceeds (Nat.le_succ _) hclock
  obtain ⟨⟨summary, hwork⟩, attempts, final, hpassage, hdb, hok, hinvocations⟩ := hcompletes
  obtain ⟨hresult, hasked, hfiles⟩ := run_of_drive hconnect hresolve htasks hdrive hwork
  have hfinal : (c.store (run host base input judgeDir s).1.files).db = final.db := by
    rw [hfiles, (db_store_commit hconnect hknown _ _).1, hdb]
  have htables := hready.resultTable
  have htodo := hpassage.todo_eq hid htables rfl
  have hdone := hpassage.todo_done hid htables
  obtain ⟨added, hresults, hadded⟩ := hpassage.results hid htables rfl
  have hreturned : Batch.returned attempts = attempts := List.filter_eq_self.mpr hok
  rw [hdone, List.append_nil, hreturned] at htodo
  rw [hreturned] at hadded
  refine ⟨summary, added, hresult, ?_, ?_, ?_, ?_⟩
  · rw [hasked, hinvocations, htodo, List.map_map]
    rfl
  · rw [hfinal, hresults]
  · have hkeys := congrArg (List.map Prod.fst) (Batch.map_key hadded)
    rw [htodo]
    simpa [Function.comp_def, ResultRow.key] using hkeys
  · intro task htask
    rw [hfinal]
    have hhas := Batch.todo_eq_nil_iff.mp hdone task htask
    exact List.count_eq_one_of_mem (hpassage.unique hid htables hsound.unique)
      ((Database.hasResult_iff hid task).mp hhas)

end BatchCommand

end Bailiff
