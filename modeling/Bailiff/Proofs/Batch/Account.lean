-- SUMMARY: One call of a batch, however it ends: which tasks it takes, what it tells of them, and which rows it leaves.
import Bailiff.Proofs.Batch.Interrupted

/-!
# Accounts of a call

A call lists the tasks below a root and takes them in order. Wherever it stands, the tasks behind it are
accounted for (`Batch.Account`): those without a row were given to the judge, one after the other, and each has
the row of its outcome. Going on and taking an answer keep the account (`Batch.Stands.advance`,
`Batch.Stands.reply`), so it holds when the call returns and when it throws (`Batch.WholeCall.accounts`).
-/

namespace Bailiff.Batch

variable {plan : BatchPlan} {session : Binary64} {id : Int} {s₀ s s' : Store} {b b' : Batch}
  {tasks past : List String} {task : String} {xs more : List Attempt} {x : Attempt} {f : Failure}

/-! ## Accounts -/

/-- The tasks whose judge run was killed. -/
def killedTasks (xs : List Attempt) : List String := (xs.filter (·.answer matches .ok .killed)).map (·.task)

/-- What has become of the tasks that are behind a batch. Those that had no row were given to the judge in
order, and each has got the row of its outcome. Nothing else has changed. -/
structure Account (session : Binary64) (id : Int) (s₀ : Store) (past : List String) (xs : List Attempt)
    (s : Store) : Prop where
  tasks : xs.map (·.task) = past.filter fun task => !s₀.db.hasResult session task
  rows : ∃ added, s.db.results = s₀.db.results ++ added ∧ List.Forall₂ (Leaves session id) added xs
  ahead : ∀ task, task ∉ past → s.db.hasResult session task = s₀.db.hasResult session task
  sessions : s.db.sessions = s₀.db.sessions
  isOpen : s.isOpen = s₀.isOpen
  tables : s.db.resultTable.isSome

theorem Account.start (htables : s₀.db.resultTable.isSome) : Account session id s₀ [] [] s₀ :=
  ⟨rfl, ⟨[], (List.append_nil _).symm, .nil⟩, fun _ _ => rfl, rfl, rfl, htables⟩

theorem Account.skip (h : Account session id s₀ past xs s) (hnew : task ∉ past)
    (hhas : s.db.hasResult session task = true) : Account session id s₀ (past ++ [task]) xs s := by
  have hhad : s₀.db.hasResult session task = true := by rw [← h.ahead task hnew, hhas]
  refine ⟨?_, h.rows, fun other hother => h.ahead other fun hmem => hother (List.mem_append_left _ hmem), h.sessions,
    h.isOpen, h.tables⟩
  rw [List.filter_append, List.filter_cons_of_neg (by simp [hhad]), List.filter_nil, List.append_nil, h.tasks]

theorem Account.record (h : Account session id s₀ past xs s) (hid : session.toInt? = some id) (hnew : x.task ∉ past)
    (hfresh : s.db.hasResult session x.task = false) {outcome : Outcome} (hreturned : x.answer = .ok outcome)
    (hkept : s.recordResult session x.task x.start x.duration outcome = .ok s') :
    Account session id s₀ (past ++ [x.task]) (xs ++ [x]) s' := by
  obtain ⟨r, hrecorded⟩ := recorded_of_eq_ok hid h.tables hreturned hkept
  obtain ⟨added, hresults, hadded⟩ := h.rows
  have hhad : s₀.db.hasResult session x.task = false := by rw [← h.ahead x.task hnew, hfresh]
  constructor
  case tasks =>
    rw [List.map_append, h.tasks, List.filter_append, List.filter_cons_of_pos (by simp [hhad])]
    rfl
  case rows =>
    refine ⟨added ++ [r], ?_, List.rel_append hadded (.cons hrecorded.leaves .nil)⟩
    rw [hrecorded.results, hresults, List.append_assoc]
  case ahead =>
    intro other hother
    rw [List.mem_append, List.mem_singleton, not_or] at hother
    rw [hrecorded.has, h.ahead other hother.1]
    simp [Ne.symm hother.2]
  case sessions => rw [Store.sessions_recordResult hkept, h.sessions]
  case isOpen => rw [hrecorded.isOpen, h.isOpen]
  case tables => exact hrecorded.tables

/-- What a batch tells of the tasks that are behind it. -/
def tally (session : Binary64) (s₀ : Store) (past : List String) (xs : List Attempt) : BatchSummary :=
  { session
    executed := past.filter fun task => !s₀.db.hasResult session task
    skipped := past.filter (s₀.db.hasResult session)
    killed := killedTasks xs }

theorem tally_skip (xs : List Attempt) (hhad : s₀.db.hasResult session task = true) :
    tally session s₀ (past ++ [task]) xs
      = { tally session s₀ past xs with skipped := (tally session s₀ past xs).skipped ++ [task] } := by
  simp [tally, List.filter_append, hhad]

theorem tally_record (hhad : s₀.db.hasResult session x.task = false) {outcome : Outcome}
    (hreturned : x.answer = .ok outcome) :
    tally session s₀ (past ++ [x.task]) (xs ++ [x])
      = { tally session s₀ past xs with
          executed := (tally session s₀ past xs).executed ++ [x.task]
          killed := if outcome = .killed then (tally session s₀ past xs).killed ++ [x.task]
            else (tally session s₀ past xs).killed } := by
  cases outcome <;> simp [tally, killedTasks, List.filter_append, hhad, hreturned]

/-! ## Where a batch stands -/

/-- Why a batch throws at a task, with the run of the judge that it has given the task, if any. -/
inductive Cause (session : Binary64) (s : Store) (task : String) : List Attempt → Failure → Prop where
  | stopped : Cause session s task [] (stoppedBefore task)
  | unreadable {f : Failure} (refused : s.hasResult session task = .error f) : Cause session s task [] f
  | untimed : Cause session s task [] (.fault .range "Invalid time value" .unknown)
  | threw {x : Attempt} {f : Failure} (given : x.task = task) (fresh : s.db.hasResult session task = false)
      (threw : x.answer = .error f) : Cause session s task [x] f
  | unrecorded {x : Attempt} {f : Failure} {outcome : Outcome} (given : x.task = task)
      (fresh : s.db.hasResult session task = false) (returned : x.answer = .ok outcome)
      (refused : s.recordResult session task x.start x.duration outcome = .error f) : Cause session s task [x] f

/-- Where a batch stands among its tasks: at the next one, with the judge, at its end, or where it threw. -/
inductive Stands (plan : BatchPlan) (id : Int) (s₀ : Store) (tasks : List String) :
    Store → Batch → List Attempt → Prop where
  | ready {s : Store} {b : Batch} {past : List String} {xs : List Attempt} (phase : b.phase = .ready)
      (plans : b.plan = plan) (divides : tasks = past ++ b.pending) (account : Account plan.session id s₀ past xs s)
      (summary : b.summary = tally plan.session s₀ past xs) : Stands plan id s₀ tasks s b xs
  | judging {s : Store} {b : Batch} {past : List String} {task start : String} {xs : List Attempt}
      (phase : b.phase = .judging task start) (plans : b.plan = plan) (divides : tasks = past ++ task :: b.pending)
      (fresh : s.db.hasResult plan.session task = false) (account : Account plan.session id s₀ past xs s)
      (summary : b.summary = tally plan.session s₀ past xs) : Stands plan id s₀ tasks s b xs
  | done {s : Store} {b : Batch} {xs : List Attempt} (phase : b.phase = .done)
      (account : Account plan.session id s₀ tasks xs s) (summary : b.summary = tally plan.session s₀ tasks xs) :
      Stands plan id s₀ tasks s b xs
  | failed {s : Store} {b : Batch} {past later : List String} {task : String} {xs last : List Attempt} {f : Failure}
      (phase : b.phase = .failed f) (divides : tasks = past ++ task :: later)
      (account : Account plan.session id s₀ past xs s) (cause : Cause plan.session s task last f) :
      Stands plan id s₀ tasks s b (xs ++ last)

theorem not_mem_of_nodup {later : List String} (hnodup : tasks.Nodup) (h : tasks = past ++ task :: later) :
    task ∉ past := by
  rw [h, List.nodup_append] at hnodup
  exact fun hmem => hnodup.2.2 task hmem task List.mem_cons_self rfl

theorem stands_go {stopped : Bool} {now : Binary64} {ahead : List String} (hnodup : tasks.Nodup)
    (hplan : b.plan = plan) (hdivides : tasks = past ++ ahead) (haccount : Account plan.session id s₀ past xs s)
    (hsummary : b.summary = tally plan.session s₀ past xs) :
    Stands plan id s₀ tasks s (advance.go stopped s now ahead b) xs := by
  have hfails (task : String) (rest : List String) (past : List String) (b : Batch) {f : Failure}
      (hdivides : tasks = past ++ task :: rest) (haccount : Account plan.session id s₀ past xs s)
      (hcause : Cause plan.session s task [] f) : Stands plan id s₀ tasks s (b.fail f) xs := by
    have hstands : Stands plan id s₀ tasks s (b.fail f) (xs ++ []) := .failed rfl hdivides haccount hcause
    rwa [List.append_nil] at hstands
  fun_induction advance.go stopped s now ahead b generalizing past with
  | case1 b =>
    rw [List.append_nil] at hdivides
    subst hdivides
    exact .done rfl haccount hsummary
  | case2 task rest => exact hfails _ _ _ _ hdivides haccount .stopped
  | case3 task rest b _ f hread =>
    rw [hplan] at hread
    exact hfails _ _ _ _ hdivides haccount (.unreadable hread)
  | case4 task rest b _ hread ih =>
    have hnew := not_mem_of_nodup hnodup hdivides
    have hhas := hasResult_eq_ok hread
    rw [hplan] at hhas
    have hhad : s₀.db.hasResult plan.session task = true := by rw [← haccount.ahead task hnew, hhas]
    refine ih hplan (hdivides.trans (List.append_cons ..)) (haccount.skip hnew hhas) ?_
    rw [tally_skip xs hhad, ← hsummary]
  | case5 => exact hfails _ _ _ _ hdivides haccount .untimed
  | case6 task rest b _ hread t =>
    have hfresh := hasResult_eq_ok hread
    rw [hplan] at hfresh
    exact .judging rfl hplan hdivides hfresh haccount hsummary

/-- Going on keeps the account. -/
theorem Stands.advance (h : Stands plan id s₀ tasks s b xs) (hnodup : tasks.Nodup) (hphase : b.phase = .ready)
    (stopped : Bool) (now : Binary64) : Stands plan id s₀ tasks s (b.advance stopped s now) xs := by
  cases h with
  | ready phase plans divides account summary => exact stands_go hnodup plans divides account summary
  | judging phase | done phase | failed phase =>
    rw [hphase] at phase
    cases phase

/-- Taking an answer of the judge keeps the account. -/
theorem Stands.reply (h : Stands plan id s₀ tasks s b xs) (hid : plan.session.toInt? = some id)
    (hnodup : tasks.Nodup) {start : String} (hphase : b.phase = .judging task start) (duration : Binary64)
    (answer : Except Failure Outcome) :
    Stands plan id s₀ tasks (b.reply s duration answer).1 (b.reply s duration answer).2
      (xs ++ [⟨task, start, duration, answer⟩]) := by
  cases h with
  | ready phase | done phase | failed phase =>
    rw [hphase] at phase
    cases phase
  | @judging past task' start' _ phase plans divides fresh account summary =>
    obtain ⟨rfl, rfl⟩ : task = task' ∧ start = start' := by simpa [hphase] using phase
    have hnew := not_mem_of_nodup hnodup divides
    have hhad : s₀.db.hasResult plan.session task = false := by rw [← account.ahead task hnew, fresh]
    cases answer with
    | error f =>
      simp only [Batch.reply, hphase]
      exact .failed rfl divides account (.threw rfl fresh rfl)
    | ok outcome =>
      cases hkept : s.recordResult plan.session task start duration outcome with
      | error f =>
        simp only [Batch.reply, hphase, plans, hkept]
        exact .failed rfl divides account (.unrecorded rfl fresh rfl hkept)
      | ok s₁ =>
        simp only [Batch.reply, hphase, plans, hkept]
        let x : Attempt := ⟨task, start, duration, .ok outcome⟩
        have hreturned : x.answer = .ok outcome := rfl
        have haccount : Account plan.session id s₀ (past ++ [x.task]) (xs ++ [x]) s₁ :=
          account.record hid hnew fresh hreturned hkept
        refine .ready rfl plans (divides.trans (List.append_cons ..)) haccount ?_
        rw [tally_record hhad hreturned, ← summary]

/-- A run keeps the account. -/
theorem Run.stands (h : Run s b more s' b') (hid : plan.session.toInt? = some id) (hnodup : tasks.Nodup)
    (hstands : Stands plan id s₀ tasks s b xs) : Stands plan id s₀ tasks s' b' (xs ++ more) := by
  induction h generalizing xs with
  | rest => rwa [List.append_nil]
  | advance stopped now ready later ih => exact ih (hstands.advance hnodup ready stopped now)
  | reply duration answer judging later ih =>
    rw [List.append_cons]
    exact ih (hstands.reply hid hnodup judging duration answer)

theorem stands_start (htables : s₀.db.resultTable.isSome) (tasks : List String) :
    Stands plan id s₀ tasks s₀ (start plan tasks) [] :=
  .ready rfl rfl rfl (.start htables) rfl

/-! ## Whole calls -/

/-- One call over the tasks below a root: the runs of the judge that it has asked for, the store that it leaves, and
what it returns or throws. That the root cannot be listed is thrown at once. -/
inductive WholeCall (files : FileTree) (base : Location) (plan : BatchPlan) :
    Store → List Attempt → Store → Except Failure BatchSummary → Prop where
  | unlisted {s : Store} {fault : FileFault} (listing : listTasks files base plan.root = .error fault) :
      WholeCall files base plan s [] s (.error fault.failure)
  | listed {s s' : Store} {tasks : List String} {b : Batch} {xs : List Attempt}
      {outcome : Except Failure BatchSummary} (listing : listTasks files base plan.root = .ok tasks)
      (run : Run s (Batch.start plan tasks) xs s' b) (ended : b.result? = some outcome) :
      WholeCall files base plan s xs s' outcome

/-- Two lists are subsequences of a third one that share nothing and together are all of it. -/
structure Divides (left right whole : List String) : Prop where
  leftInOrder : left.Sublist whole
  rightInOrder : right.Sublist whole
  disjoint : left.Disjoint right
  together : (left ++ right).Perm whole

theorem divides_filter (p : String → Bool) (whole : List String) :
    Divides (whole.filter (!p ·)) (whole.filter p) whole := by
  refine ⟨List.filter_sublist, List.filter_sublist, ?_, ?_⟩
  · rw [List.disjoint_left]
    intro task hleft hright
    simp [(List.mem_filter.mp hright).2] at hleft
  · exact List.perm_append_comm.trans (List.filter_append_perm p whole)

/-- The rows that have been added are those of some attempts, in order. -/
def AddsRows (session : Binary64) (id : Int) (s₀ s : Store) (xs : List Attempt) : Prop :=
  ∃ added, s.db.results = s₀.db.results ++ added ∧ List.Forall₂ (Leaves session id) added xs

/-- A call has returned: the tasks that had a row were skipped, and all others were given to the judge, once and in
order, and have got the rows of their outcomes. -/
structure Returned (session : Binary64) (id : Int) (s₀ : Store) (tasks : List String) (xs : List Attempt) (s : Store)
    (summary : BatchSummary) : Prop where
  named : summary.session = session
  divides : Divides summary.executed summary.skipped tasks
  skipped : summary.skipped = tasks.filter (s₀.db.hasResult session)
  judged : xs.map (·.task) = summary.executed
  killed : summary.killed = killedTasks xs
  rows : AddsRows session id s₀ s xs

/-- A call has thrown at a task: those before it that had no row were given to the judge, once and in order, and have
got the rows of their outcomes. The task itself and those after it have no new row, and the judge was not asked for
those after it. -/
structure ThrewAt (session : Binary64) (id : Int) (s₀ : Store) (past : List String) (task : String)
    (later : List String) (xs : List Attempt) (s : Store) (f : Failure) : Prop where
  judged : ∃ kept last, xs = kept ++ last ∧ (kept.map (·.task)) = past.filter (fun t => !s₀.db.hasResult session t)
    ∧ AddsRows session id s₀ s kept ∧ Cause session s task last f
  unrecorded : ∀ other ∈ task :: later, s.db.hasResult session other = s₀.db.hasResult session other
  unasked : ∀ x ∈ xs, x.task ∉ later

theorem session_of_leaves {added : List ResultRow} (h : List.Forall₂ (Leaves session id) added xs) :
    ∀ r ∈ added, r.session = id := by
  induction h with
  | nil => exact fun _ hr => by cases hr
  | cons hleaves later ih => exact List.forall_mem_cons.mpr ⟨(Prod.mk.inj hleaves.key).2, ih⟩

theorem Account.returned {summary : BatchSummary} (h : Account session id s₀ tasks xs s)
    (hsummary : summary = tally session s₀ tasks xs) : Returned session id s₀ tasks xs s summary := by
  subst hsummary
  exact ⟨rfl, divides_filter (s₀.db.hasResult session) tasks, rfl, h.tasks, rfl, h.rows⟩

theorem Cause.given {last : List Attempt} (h : Cause session s task last f) : ∀ x ∈ last, x.task = task := by
  cases h with
  | stopped | unreadable | untimed => exact fun _ hx => by cases hx
  | threw given | unrecorded given => exact List.forall_mem_singleton.mpr given

theorem Account.threwAt {later : List String} {last : List Attempt} (h : Account session id s₀ past xs s)
    (hnodup : (past ++ task :: later).Nodup) (hcause : Cause session s task last f) :
    ThrewAt session id s₀ past task later (xs ++ last) s f := by
  obtain ⟨-, hrest, hapart⟩ := List.nodup_append.mp hnodup
  refine ⟨⟨xs, last, rfl, h.tasks, h.rows, hcause⟩, ?_, ?_⟩
  · exact fun other hother => h.ahead other fun hpast => hapart other hpast other hother rfl
  · intro x hx hlater
    rcases List.mem_append.mp hx with hkept | hlast
    · have hpast : x.task ∈ past := by
        have hmem : x.task ∈ xs.map (·.task) := List.mem_map_of_mem hkept
        rw [h.tasks] at hmem
        exact (List.mem_filter.mp hmem).1
      exact hapart _ hpast _ (List.mem_cons_of_mem _ hlater) rfl
    · rw [hcause.given x hlast] at hlater
      exact (List.nodup_cons.mp hrest).1 hlater

/-- A batch that has ended has returned, or has thrown at one of its tasks. -/
theorem Stands.ends {outcome : Except Failure BatchSummary} (h : Stands plan id s₀ tasks s b xs)
    (hnodup : tasks.Nodup) (hended : b.result? = some outcome) :
    (∀ summary, outcome = .ok summary → Returned plan.session id s₀ tasks xs s summary)
      ∧ ∀ f, outcome = .error f → ∃ past task later, tasks = past ++ task :: later
          ∧ ThrewAt plan.session id s₀ past task later xs s f := by
  unfold result? at hended
  cases h with
  | ready phase | judging phase =>
    rw [phase] at hended
    cases hended
  | done phase account summary =>
    rw [phase] at hended
    cases hended
    refine ⟨fun told htold => ?_, fun f hf => (by cases hf)⟩
    cases htold
    exact account.returned summary
  | failed phase divides account cause =>
    rw [phase] at hended
    cases hended
    refine ⟨fun told htold => (by cases htold), fun f hf => ?_⟩
    cases hf
    exact ⟨_, _, _, divides, account.threwAt (divides ▸ hnodup) cause⟩

theorem Stands.account (h : Stands plan id s₀ tasks s b xs) :
    ∃ past kept, Account plan.session id s₀ past kept s := by
  cases h with
  | ready _ _ _ account | judging _ _ _ _ account | done _ account | failed _ _ account => exact ⟨_, _, account⟩

/-- The tasks of a call are those that a listing of its root keeps, in increasing order, and these are the task
directories if listings read the path of the root and the names below it as they stand. If the call returns, the tasks
that had a row were skipped and all others were judged, once and in order, each with the row of its outcome. If it
throws at a task, this is so for the tasks before it, and there is no new row for the task itself or those after it,
which the judge was not asked for. A root that cannot be listed leads to nothing. Whatever happens, older rows and
those of other sessions stay as they are. -/
theorem WholeCall.accounted {files : FileTree} {base : Location} {known : Session}
    {outcome : Except Failure BatchSummary} (hdistinct : files.Distinct)
    (hknown : s₀.db.session? plan.session = some known) (htables : s₀.db.resultTable.isSome)
    (h : WholeCall files base plan s₀ xs s outcome) :
    (∀ fault, listTasks files base plan.root = .error fault → xs = [] ∧ s = s₀ ∧ outcome = .error fault.failure)
      ∧ (∀ tasks, listTasks files base plan.root = .ok tasks →
          (tasks.Pairwise fun a b => Text.units a < Text.units b)
            ∧ (∀ task, task ∈ tasks ↔ Lists files base plan.root task)
            ∧ (IsPlainRoot files base plan.root → ∀ task, task ∈ tasks ↔ IsTask files base plan.root task)
            ∧ (∀ summary, outcome = .ok summary → Returned plan.session known.id s₀ tasks xs s summary)
            ∧ ∀ f, outcome = .error f → ∃ past task later, tasks = past ++ task :: later
                ∧ ThrewAt plan.session known.id s₀ past task later xs s f)
      ∧ (∃ added, s.db.results = s₀.db.results ++ added ∧ ∀ r ∈ added, r.session = known.id)
      ∧ s.db.sessions = s₀.db.sessions ∧ s.isOpen = s₀.isOpen := by
  have hid := (Database.session?_eq_some hknown).2
  cases h with
  | unlisted listing =>
    refine ⟨fun fault hfault => ?_, fun tasks htasks => ?_, ⟨[], (List.append_nil _).symm, by simp⟩, rfl, rfl⟩
    · rw [listing] at hfault
      cases hfault
      exact ⟨rfl, rfl, rfl⟩
    · rw [listing] at htasks
      cases htasks
  | listed listing run ended =>
    obtain ⟨hincreasing, hmem⟩ := listTasks_eq_ok hdistinct listing
    have hnodup := Text.nodup_of_increasing hincreasing
    have hstands := run.stands hid hnodup (stands_start htables _)
    rw [List.nil_append] at hstands
    obtain ⟨past, kept, haccount⟩ := hstands.account
    obtain ⟨added, hresults, hadded⟩ := haccount.rows
    refine ⟨fun fault hfault => ?_, fun tasks htasks => ?_, ⟨added, hresults, session_of_leaves hadded⟩,
      haccount.sessions, haccount.isOpen⟩
    · rw [listing] at hfault
      cases hfault
    · rw [listing] at htasks
      cases htasks
      exact ⟨hincreasing, hmem, fun hplain task => (hmem task).trans (lists_iff_isTask hplain), hstands.ends hnodup ended⟩

/-- A judge that kills the run of the first task and cannot be started for the second. -/
theorem WholeCall.accounted_at_second_task :
    ∃ xs s, WholeCall GuardedBatch.resumedState.files [] GuardedBatch.twoTaskPlan GuardedBatch.oneSession xs s
        (.error (.of .judgeSpawn "no judge"))
      ∧ (∀ task, task ∈ ["a", "b"] ↔ IsTask GuardedBatch.resumedState.files [] "/t" task)
      ∧ ∃ past task later, ["a", "b"] = past ++ task :: later
        ∧ ThrewAt 1 1 GuardedBatch.oneSession past task later xs s (.of .judgeSpawn "no judge") := by
  have hknown : GuardedBatch.oneSession.db.session? 1 = some ⟨1, "1.0.0", .text ""⟩ := rfl
  have hcall : WholeCall GuardedBatch.resumedState.files [] GuardedBatch.twoTaskPlan GuardedBatch.oneSession _ _ _ :=
    .listed GuardedBatch.listTasks_resumed
      (.advance false 1 rfl (.reply 1 (.ok .killed) rfl
        (.advance false 1 rfl (.reply 1 (.error (.of .judgeSpawn "no judge")) rfl (.rest _ _))))) rfl
  obtain ⟨-, hlisted, -⟩ := hcall.accounted GuardedBatch.distinct_resumed hknown rfl
  obtain ⟨-, -, htasks, -, hthrew⟩ := hlisted _ GuardedBatch.listTasks_resumed
  exact ⟨_, _, hcall, htasks GuardedBatch.isPlainRoot_resumed, hthrew _ rfl⟩

/-- A call over a root with a backslash returns, and has neither judged nor skipped the task directory there. -/
theorem WholeCall.returns_without_task :
    IsTask GuardedBatch.resumedState.files [] "/x\\y" "c"
      ∧ GuardedBatch.oneSession.db.hasResult 1 "c" = false
      ∧ ∃ summary, WholeCall GuardedBatch.resumedState.files []
          (BatchCommand.resumedPlan [] GuardedBatch.backslashInput "" 1) GuardedBatch.oneSession []
          GuardedBatch.oneSession (.ok summary)
        ∧ summary.executed = [] ∧ summary.skipped = [] := by
  have hcall : WholeCall GuardedBatch.resumedState.files []
      (BatchCommand.resumedPlan [] GuardedBatch.backslashInput "" 1) GuardedBatch.oneSession _ _ _ :=
    .listed GuardedBatch.listTasks_below_backslash (.advance false 1 rfl (.rest _ _)) rfl
  exact ⟨GuardedBatch.isTask_below_backslash, rfl, _, hcall, rfl, rfl⟩

end Bailiff.Batch
