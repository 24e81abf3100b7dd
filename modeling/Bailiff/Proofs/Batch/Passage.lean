-- SUMMARY: One batch run told task by task: which tasks it skips, gives to the judge and records, and how it ends.
import Bailiff.Batch.Run
import Bailiff.Proofs.Results.Database
import Mathlib.Data.List.Forall2

/-!
# Passages through tasks

A batch alternates between going on and taking an answer of the judge (`Batch.Run`). A `Passage` tells
the same by its tasks: one case for each thing that can become of the next task. Every run that has
ended is a passage (`Batch.Run.passage`), so what a batch does to its store is proved by induction on
the passage.
-/

namespace Bailiff.Batch

variable {session : Binary64} {id : Int} {s s' s'' : Store} {b b' : Batch}

/-! ## Runs -/

/-- A run of the judge, with its answer. -/
structure Attempt where
  task : String
  start : String
  duration : Binary64
  answer : Except Failure Outcome

/-- A batch that is alone with its store goes on, whether it is asked to stop or not, and takes whatever
the judge answers. -/
inductive Run : Store → Batch → List Attempt → Store → Batch → Prop where
  | rest (s : Store) (b : Batch) : Run s b [] s b
  | advance {s s' : Store} {b b' : Batch} {attempts : List Attempt} (stopped : Bool) (now : Binary64)
      (ready : b.phase = .ready) (later : Run s (b.advance stopped s now) attempts s' b') :
      Run s b attempts s' b'
  | reply {s s' : Store} {b b' : Batch} {attempts : List Attempt} {task start : String}
      (duration : Binary64) (answer : Except Failure Outcome)
      (judging : b.phase = .judging task start)
      (later : Run (b.reply s duration answer).1 (b.reply s duration answer).2 attempts s' b') :
      Run s b (⟨task, start, duration, answer⟩ :: attempts) s' b'

/-- A batch from its start to its end. -/
structure Call (plan : BatchPlan) (tasks : List String) (s : Store) (attempts : List Attempt)
    (s' : Store) (b : Batch) : Prop where
  run : Run s (Batch.start plan tasks) attempts s' b
  ended : b.result? ≠ none

/-- A batch is cut short when the judge throws, or when it is stopped before a task. -/
def CutShort (attempts : List Attempt) (b : Batch) : Prop :=
  ∃ f, b.phase = .failed f
    ∧ ((∃ x, attempts.getLast? = some x ∧ x.answer = .error f) ∨ ∃ task, f = stoppedBefore task)

/-! ## Passages -/

inductive Ending where
  | done
  | stopped (task : String)
  | thrown (f : Failure)
  | broken (f : Failure)

def Ending.phase : Ending → Phase
  | done => .done
  | stopped task => .failed (stoppedBefore task)
  | thrown f => .failed f
  | broken f => .failed f

/-- Whether an ending is none that an interruption leads to. -/
def Ending.isBroken : Ending → Bool
  | broken _ => true
  | _ => false

/-- What becomes of tasks, one after the other. -/
inductive Passage (session : Binary64) :
    Store → List String → List Attempt → Store → Ending → Prop where
  | done (s : Store) : Passage session s [] [] s .done
  | stopped (s : Store) (task : String) (rest : List String) :
      Passage session s (task :: rest) [] s (.stopped task)
  | skipped {s s' : Store} {task : String} {rest : List String} {attempts : List Attempt}
      {e : Ending} (has : s.db.hasResult session task = true)
      (later : Passage session s rest attempts s' e) :
      Passage session s (task :: rest) attempts s' e
  | recorded {s s' s'' : Store} {rest : List String} {attempts : List Attempt} {e : Ending}
      {outcome : Outcome} (x : Attempt) (fresh : s.db.hasResult session x.task = false)
      (returned : x.answer = .ok outcome)
      (kept : s.recordResult session x.task x.start x.duration outcome = .ok s')
      (later : Passage session s' rest attempts s'' e) :
      Passage session s (x.task :: rest) (x :: attempts) s'' e
  | thrown {s : Store} {rest : List String} {f : Failure} (x : Attempt)
      (fresh : s.db.hasResult session x.task = false) (threw : x.answer = .error f) :
      Passage session s (x.task :: rest) [x] s (.thrown f)
  | refused {s : Store} {rest : List String} {f : Failure} {outcome : Outcome} (x : Attempt)
      (fresh : s.db.hasResult session x.task = false) (returned : x.answer = .ok outcome)
      (other : ∀ task, f ≠ stoppedBefore task) :
      Passage session s (x.task :: rest) [x] s (.broken f)
  | broken {s : Store} {task : String} {rest : List String} {f : Failure}
      (other : ∀ task, f ≠ stoppedBefore task) :
      Passage session s (task :: rest) [] s (.broken f)

/-! ## Runs are passages -/

theorem hasResult_eq_ok {task : String} {has : Bool} (h : s.hasResult session task = .ok has) :
    s.db.hasResult session task = has := by
  unfold Store.hasResult Store.whenOpen at h
  split at h
  · cases h
    rfl
  · cases h

theorem hasResult_eq_error {task : String} {f : Failure}
    (h : s.hasResult session task = .error f) (stop : String) : f ≠ stoppedBefore stop := by
  unfold Store.hasResult Store.whenOpen at h
  split at h
  · cases h
  · cases h
    exact fun h => by cases h

theorem recordResult_eq_error {task start : String} {duration : Binary64} {outcome : Outcome}
    {f : Failure} (h : s.recordResult session task start duration outcome = .error f)
    (stop : String) : f ≠ stoppedBefore stop := by
  unfold Store.recordResult Store.insert at h
  split at h
  · split at h
    next refusal _ =>
      cases h
      cases refusal <;> exact fun h => by cases h
    · cases h
  · cases h
    exact fun h => by cases h

/-- What a run amounts to from where its batch stands. -/
def Continues (s : Store) (b : Batch) (attempts : List Attempt) (s' : Store) (b' : Batch) : Prop :=
  match b.phase with
  | .ready => ∃ e, Passage b.plan.session s b.pending attempts s' e ∧ b'.phase = e.phase
  | .judging task _ =>
    s.db.hasResult b.plan.session task = false →
      ∃ e, Passage b.plan.session s (task :: b.pending) attempts s' e ∧ b'.phase = e.phase
  | phase => attempts = [] ∧ s' = s ∧ b'.phase = phase

theorem continues_go {stopped : Bool} {now : Binary64} {attempts : List Attempt}
    (tasks : List String) (h : Continues s (advance.go stopped s now tasks b) attempts s' b') :
    ∃ e, Passage b.plan.session s tasks attempts s' e ∧ b'.phase = e.phase := by
  fun_induction advance.go stopped s now tasks b with
  | case1 =>
    obtain ⟨rfl, rfl, hphase⟩ := h
    exact ⟨_, .done _, hphase⟩
  | case2 task rest =>
    obtain ⟨rfl, rfl, hphase⟩ := h
    exact ⟨_, .stopped _ task rest, hphase⟩
  | case3 task rest _ _ f hfailed =>
    obtain ⟨rfl, rfl, hphase⟩ := h
    exact ⟨.broken f, .broken (hasResult_eq_error hfailed), hphase⟩
  | case4 task rest _ _ hhas ih =>
    obtain ⟨e, hpassage, hphase⟩ := ih h
    exact ⟨e, .skipped (hasResult_eq_ok hhas) hpassage, hphase⟩
  | case5 =>
    obtain ⟨rfl, rfl, hphase⟩ := h
    exact ⟨.broken _, .broken (fun _ h => by cases h), hphase⟩
  | case6 task rest _ _ hhas => exact h (hasResult_eq_ok hhas)

theorem continues_reply {attempts : List Attempt} {task start : String} (duration : Binary64)
    (answer : Except Failure Outcome) (hphase : b.phase = .judging task start)
    (hfresh : s.db.hasResult b.plan.session task = false)
    (h : Continues (b.reply s duration answer).1 (b.reply s duration answer).2 attempts s' b') :
    ∃ e, Passage b.plan.session s (task :: b.pending) (⟨task, start, duration, answer⟩ :: attempts)
      s' e ∧ b'.phase = e.phase := by
  cases answer with
  | error f =>
    simp only [reply, hphase] at h
    obtain ⟨rfl, rfl, hend⟩ := h
    exact ⟨.thrown f, .thrown ⟨task, start, duration, .error f⟩ hfresh rfl, hend⟩
  | ok outcome =>
    cases hkept : s.recordResult b.plan.session task start duration outcome with
    | error f =>
      simp only [reply, hphase, hkept] at h
      obtain ⟨rfl, rfl, hend⟩ := h
      exact ⟨.broken f, .refused ⟨task, start, duration, .ok outcome⟩ hfresh rfl
        (recordResult_eq_error hkept), hend⟩
    | ok s₁ =>
      simp only [reply, hphase, hkept] at h
      obtain ⟨e, hpassage, hend⟩ := h
      exact ⟨e, .recorded ⟨task, start, duration, .ok outcome⟩ hfresh rfl hkept hpassage, hend⟩

theorem Run.continues {attempts : List Attempt} (h : Run s b attempts s' b')
    (hended : b'.result? ≠ none) : Continues s b attempts s' b' := by
  induction h with
  | rest s b =>
    unfold Continues
    cases hphase : b.phase with
    | ready | judging => simp [result?, hphase] at hended
    | done | failed => exact ⟨rfl, rfl, rfl⟩
  | advance stopped now ready later ih =>
    have h := continues_go _ (ih hended)
    simpa only [Continues, ready] using h
  | @reply s s' b b' attempts task start duration answer judging later ih =>
    simp only [Continues, judging]
    intro hfresh
    exact continues_reply duration answer judging hfresh (ih hended)

/-- A batch that has ended is a passage through its tasks. -/
theorem Call.passage {plan : BatchPlan} {tasks : List String} {attempts : List Attempt}
    (h : Call plan tasks s attempts s' b) :
    ∃ e, Passage plan.session s tasks attempts s' e ∧ b.phase = e.phase :=
  h.run.continues h.ended

/-! ## Recorded attempts -/

/-- The row is what an attempt that returned leaves in the session. -/
def Leaves (session : Binary64) (id : Int) (r : ResultRow) (x : Attempt) : Prop :=
  ∃ outcome, x.answer = .ok outcome
    ∧ r = (Database.NewRow.ofOutcome session x.task x.start x.duration outcome).settle id

theorem Leaves.key {r : ResultRow} {x : Attempt} (h : Leaves session id r x) :
    r.key = (x.task, id) := by
  obtain ⟨outcome, -, rfl⟩ := h
  cases outcome <;> rfl

/-- The attempts that returned an outcome. -/
def returned (attempts : List Attempt) : List Attempt := attempts.filter (·.answer.isOk)

theorem returned_append (xs ys : List Attempt) : returned (xs ++ ys) = returned xs ++ returned ys :=
  List.filter_append ..

theorem returned_cons_ok {x : Attempt} {outcome : Outcome} (h : x.answer = .ok outcome)
    (xs : List Attempt) : returned (x :: xs) = x :: returned xs :=
  List.filter_cons_of_pos (by rw [h]; rfl)

theorem returned_cons_error {x : Attempt} {f : Failure} (h : x.answer = .error f)
    (xs : List Attempt) : returned (x :: xs) = returned xs :=
  List.filter_cons_of_neg (by rw [h]; exact Bool.false_ne_true)

/-- What recording an attempt does to a store. -/
structure Recorded (session : Binary64) (id : Int) (s s' : Store) (x : Attempt) (r : ResultRow) :
    Prop where
  leaves : Leaves session id r x
  isOpen : s'.isOpen = s.isOpen
  tables : s'.db.resultTable.isSome
  results : s'.db.results = s.db.results ++ [r]
  has : ∀ task, s'.db.hasResult session task = (s.db.hasResult session task || x.task = task)

theorem recorded_of_eq_ok (hid : session.toInt? = some id) (htables : s.db.resultTable.isSome)
    {x : Attempt} {outcome : Outcome} (returned : x.answer = .ok outcome)
    (h : s.recordResult session x.task x.start x.duration outcome = .ok s') :
    ∃ r, Recorded session id s s' x r := by
  have hnumber : ((Database.NewRow.ofOutcome session x.task x.start x.duration outcome).session.getD
      .nan).toInt? = some id := by
    cases session with
    | nan | infinite => cases hid
    | finite => cases outcome <;> exact hid
  unfold Store.recordResult Store.insert at h
  split at h
  · split at h
    · cases h
    next hinsert =>
      cases h
      have hleaves : Leaves session id _ x := ⟨outcome, returned, rfl⟩
      have hkey := hleaves.key
      simp only [ResultRow.key, Prod.mk.injEq] at hkey
      rw [Database.insert_eq_append hnumber hinsert]
      refine ⟨_, hleaves, rfl, ?_, Database.results_append htables _, fun task => ?_⟩
      · simpa [Database.append] using htables
      · rw [Database.hasResult_append htables, hkey.1, hkey.2, hid]
        simp
  · cases h

/-! ## Tasks without a result -/

/-- The tasks that have no result yet, each once. -/
def todo (db : Database) (session : Binary64) (tasks : List String) : List String :=
  (tasks.filter fun task => !db.hasResult session task).eraseDups

theorem todo_eq_nil_iff {db : Database} {tasks : List String} :
    todo db session tasks = [] ↔ ∀ task ∈ tasks, db.hasResult session task = true := by
  simp [todo, List.eq_nil_iff_forall_not_mem, List.mem_eraseDups]

theorem todo_cons_of_has {db : Database} {task : String} (h : db.hasResult session task = true)
    (rest : List String) : todo db session (task :: rest) = todo db session rest := by
  rw [todo, List.filter_cons_of_neg (by simp [h]), todo]

/-- A task leaves the list with its result. -/
theorem Recorded.todo_cons {x : Attempt} {r : ResultRow} (h : Recorded session id s s' x r)
    (hfresh : s.db.hasResult session x.task = false) (rest : List String) :
    todo s.db session (x.task :: rest) = x.task :: todo s'.db session rest := by
  rw [todo, List.filter_cons_of_pos (by simp [hfresh]), List.eraseDups_cons, List.filter_filter, todo]
  congr 2
  refine List.filter_congr fun task _ => ?_
  rw [h.has]
  by_cases htask : task = x.task
  · simp [htask]
  · simp [htask, Ne.symm htask]

/-! ## What a passage does to its store -/

variable {tasks : List String} {attempts : List Attempt} {e : Ending}

/-- Tables and results stay. -/
theorem Passage.keeps (hid : session.toInt? = some id)
    (h : Passage session s tasks attempts s' e) (htables : s.db.resultTable.isSome) :
    s'.db.resultTable.isSome
      ∧ ∀ task, s.db.hasResult session task = true → s'.db.hasResult session task = true := by
  induction h with
  | done | stopped | thrown | refused | broken => exact ⟨htables, fun _ hhas => hhas⟩
  | skipped has later ih => exact ih htables
  | recorded x fresh returned kept later ih =>
    obtain ⟨r, hrecorded⟩ := recorded_of_eq_ok hid htables returned kept
    obtain ⟨htables', hkeeps⟩ := ih hrecorded.tables
    refine ⟨htables', fun task hhas => hkeeps task ?_⟩
    rw [hrecorded.has, hhas, Bool.true_or]

/-- The judge only ever gets tasks that had no result at first. -/
theorem Passage.fresh (hid : session.toInt? = some id)
    (h : Passage session s tasks attempts s' e) (htables : s.db.resultTable.isSome) :
    ∀ x ∈ attempts, s.db.hasResult session x.task = false := by
  induction h with
  | done | stopped | broken => simp
  | skipped has later ih => exact ih htables
  | thrown x fresh | refused x fresh => simpa using fresh
  | recorded x fresh returned kept later ih =>
    obtain ⟨r, hrecorded⟩ := recorded_of_eq_ok hid htables returned kept
    intro y hy
    rcases List.mem_cons.mp hy with rfl | hy
    · exact fresh
    · have hlater := ih hrecorded.tables y hy
      rw [hrecorded.has, Bool.or_eq_false_iff] at hlater
      exact hlater.1

/-- No two results come to share task and session. -/
theorem Passage.unique (hid : session.toInt? = some id)
    (h : Passage session s tasks attempts s' e) (htables : s.db.resultTable.isSome)
    (hunique : (s.db.results.map ResultRow.key).Nodup) :
    (s'.db.results.map ResultRow.key).Nodup := by
  induction h with
  | done | stopped | thrown | refused | broken => exact hunique
  | skipped has later ih => exact ih htables hunique
  | recorded x fresh returned kept later ih =>
    obtain ⟨r, hrecorded⟩ := recorded_of_eq_ok hid htables returned kept
    refine ih hrecorded.tables ?_
    rw [hrecorded.results, List.map_append, List.nodup_append]
    refine ⟨hunique, by simp, ?_⟩
    intro key hkey new hnew
    obtain rfl : new = (x.task, id) := by simpa [hrecorded.leaves.key] using hnew
    rintro rfl
    rw [(Database.hasResult_iff hid _).mpr hkey] at fresh
    cases fresh

/-- A broken passage got an outcome at every attempt, and no stop. -/
theorem Passage.broken_spec {f : Failure} (h : Passage session s tasks attempts s' (.broken f)) :
    (∀ task, f ≠ stoppedBefore task) ∧ ∀ x ∈ attempts, ∃ outcome, x.answer = .ok outcome := by
  generalize hbroken : Ending.broken f = e at h
  induction h with
  | done | stopped | thrown => cases hbroken
  | skipped has later ih => exact ih hbroken
  | @recorded _ _ _ _ _ _ outcome x fresh returned kept later ih =>
    obtain ⟨hother, hreturned⟩ := ih hbroken
    refine ⟨hother, fun y hy => ?_⟩
    rcases List.mem_cons.mp hy with rfl | hy
    · exact ⟨outcome, returned⟩
    · exact hreturned y hy
  | @refused _ _ _ outcome x fresh returned other =>
    cases hbroken
    exact ⟨other, fun y hy => ⟨outcome, by rwa [List.mem_singleton.mp hy]⟩⟩
  | broken other =>
    cases hbroken
    exact ⟨other, fun _ h => by cases h⟩

/-- The results that are added are those of the attempts that returned, in order. -/
theorem Passage.results (hid : session.toInt? = some id)
    (h : Passage session s tasks attempts s' e) (htables : s.db.resultTable.isSome)
    (hwhole : e.isBroken = false) :
    ∃ added, s'.db.results = s.db.results ++ added
      ∧ List.Forall₂ (Leaves session id) added (returned attempts) := by
  induction h with
  | done | stopped => exact ⟨[], (List.append_nil _).symm, .nil⟩
  | thrown x fresh threw =>
    rw [returned_cons_error threw]
    exact ⟨[], (List.append_nil _).symm, .nil⟩
  | refused | broken => cases hwhole
  | skipped has later ih => exact ih htables hwhole
  | recorded x fresh returned kept later ih =>
    obtain ⟨r, hrecorded⟩ := recorded_of_eq_ok hid htables returned kept
    obtain ⟨added, hresults, hadded⟩ := ih hrecorded.tables hwhole
    refine ⟨r :: added, ?_, ?_⟩
    · rw [hresults, hrecorded.results, List.append_assoc]
      rfl
    · rw [returned_cons_ok returned]
      exact .cons hrecorded.leaves hadded

/-- The attempts that return take up the tasks that have no result, from the first on. -/
theorem Passage.todo_eq (hid : session.toInt? = some id)
    (h : Passage session s tasks attempts s' e) (htables : s.db.resultTable.isSome)
    (hwhole : e.isBroken = false) :
    todo s.db session tasks = (returned attempts).map (·.task) ++ todo s'.db session tasks := by
  induction h with
  | done | stopped => rfl
  | thrown x fresh threw =>
    rw [returned_cons_error threw]
    rfl
  | refused | broken => cases hwhole
  | skipped has later ih =>
    rw [todo_cons_of_has has, todo_cons_of_has ((later.keeps hid htables).2 _ has)]
    exact ih htables hwhole
  | recorded x fresh returned kept later ih =>
    obtain ⟨r, hrecorded⟩ := recorded_of_eq_ok hid htables returned kept
    have hhas := (later.keeps hid hrecorded.tables).2 x.task (by simp [hrecorded.has])
    rw [hrecorded.todo_cons fresh, returned_cons_ok returned, todo_cons_of_has hhas,
      ih hrecorded.tables hwhole]
    rfl

/-- A passage that is done leaves no task without a result. -/
theorem Passage.todo_done (hid : session.toInt? = some id)
    (h : Passage session s tasks attempts s' .done) (htables : s.db.resultTable.isSome) :
    todo s'.db session tasks = [] := by
  generalize hdone : Ending.done = e at h
  induction h with
  | done => rfl
  | stopped | thrown | refused | broken => cases hdone
  | skipped has later ih =>
    rw [todo_cons_of_has ((later.keeps hid htables).2 _ has)]
    exact ih htables hdone
  | recorded x fresh returned kept later ih =>
    obtain ⟨r, hrecorded⟩ := recorded_of_eq_ok hid htables returned kept
    rw [todo_cons_of_has ((later.keeps hid hrecorded.tables).2 x.task (by simp [hrecorded.has]))]
    exact ih hrecorded.tables hdone

/-- Where every task has its result, nothing happens. -/
theorem Passage.of_todo_eq_nil (h : Passage session s tasks attempts s' e)
    (hnone : todo s.db session tasks = []) : attempts = [] ∧ s' = s := by
  rw [todo_eq_nil_iff] at hnone
  induction h with
  | done | stopped | broken => exact ⟨rfl, rfl⟩
  | skipped has later ih => exact ih fun task htask => hnone task (List.mem_cons_of_mem _ htask)
  | thrown x fresh | refused x fresh | recorded x fresh =>
    rw [hnone x.task List.mem_cons_self] at fresh
    cases fresh

end Bailiff.Batch
