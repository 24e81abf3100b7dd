-- SUMMARY: A batch that is cut short and called again, any number of times, comes to the results of one whole batch.
import Bailiff.Proofs.Batch.Passage
import Mathlib.Data.List.Nodup

/-!
# Resumed batches

Whatever interrupts a batch, its calls take up the tasks without a result from the first on
(`Batch.Progress`), and a call that is done leaves none. So the results of a session do not depend on
where and how often its batch was cut short (`Batch.resumed_completes`).
-/

namespace Bailiff.Batch

variable {session : Binary64} {id : Int} {s s' s'' : Store} {plan : BatchPlan} {b : Batch}
  {tasks : List String} {attempts more : List Attempt}

/-! ## Progress -/

/-- What the calls of one session do to its store. -/
structure Progress (session : Binary64) (id : Int) (tasks : List String) (s : Store)
    (attempts : List Attempt) (s' : Store) : Prop where
  tables : s'.db.resultTable.isSome
  unique : (s.db.results.map ResultRow.key).Nodup → (s'.db.results.map ResultRow.key).Nodup
  results : ∃ added, s'.db.results = s.db.results ++ added
    ∧ List.Forall₂ (Leaves session id) added (returned attempts)
  todo : todo s.db session tasks
    = (returned attempts).map (·.task) ++ Batch.todo s'.db session tasks

theorem Progress.refl (htables : s.db.resultTable.isSome) : Progress session id tasks s [] s :=
  ⟨htables, fun h => h, ⟨[], (List.append_nil _).symm, .nil⟩, rfl⟩

theorem Progress.trans (h : Progress session id tasks s attempts s')
    (h' : Progress session id tasks s' more s'') :
    Progress session id tasks s (attempts ++ more) s'' := by
  obtain ⟨added, hresults, hadded⟩ := h.results
  obtain ⟨added', hresults', hadded'⟩ := h'.results
  refine ⟨h'.tables, fun hunique => h'.unique (h.unique hunique), ⟨added ++ added', ?_, ?_⟩, ?_⟩
  · rw [hresults', hresults, List.append_assoc]
  · rw [returned_append]
    exact List.rel_append hadded hadded'
  · rw [h.todo, h'.todo, returned_append, List.map_append, List.append_assoc]

/-- Opening the store anew is no progress and no step back. -/
theorem progress_prepare (session : Binary64) (id : Int) (tasks : List String) (s : Store) :
    Progress session id tasks s [] { db := (Store.prepare s.db).1 } := by
  have hprepare : (Store.prepare s.db).1 = s.db.withTables := by
    unfold Store.prepare
    dsimp only
    split <;> rfl
  have hresults := Database.results_withTables s.db
  have hhas (task : String) :
      s.db.withTables.hasResult session task = s.db.hasResult session task := by
    rw [Database.hasResult, Database.hasResult, hresults]
  rw [hprepare]
  refine ⟨rfl, ?_, ⟨[], ?_, .nil⟩, ?_⟩
  · rw [hresults]
    exact fun h => h
  · rw [hresults, List.append_nil]
  · simp [todo, hhas, returned]

/-! ## Calls -/

/-- A call that is done or cut short is a passage that is not broken. -/
theorem Call.whole (h : Call plan tasks s attempts s' b)
    (hended : b.phase = .done ∨ CutShort attempts b) :
    ∃ e, Passage plan.session s tasks attempts s' e ∧ b.phase = e.phase ∧ e.isBroken = false := by
  obtain ⟨e, hpassage, hphase⟩ := h.passage
  refine ⟨e, hpassage, hphase, ?_⟩
  cases e with
  | done | stopped | thrown => rfl
  | broken f =>
    exfalso
    obtain ⟨hother, hreturned⟩ := hpassage.broken_spec
    rcases hended with hdone | ⟨g, hfailed, hthrew | ⟨task, hstopped⟩⟩
    · rw [hdone] at hphase
      cases hphase
    · obtain ⟨x, hlast, hthrew⟩ := hthrew
      obtain ⟨outcome, hreturned⟩ := hreturned x (List.mem_of_getLast? hlast)
      rw [hreturned] at hthrew
      cases hthrew
    · rw [hfailed] at hphase
      cases hphase
      exact hother task hstopped

theorem Call.progress (hid : plan.session.toInt? = some id) (h : Call plan tasks s attempts s' b)
    (hended : b.phase = .done ∨ CutShort attempts b) (htables : s.db.resultTable.isSome) :
    Progress plan.session id tasks s attempts s' := by
  obtain ⟨e, hpassage, -, hwhole⟩ := h.whole hended
  exact ⟨(hpassage.keeps hid htables).1, hpassage.unique hid htables,
    hpassage.results hid htables hwhole, hpassage.todo_eq hid htables hwhole⟩

theorem Call.todo_done (hid : plan.session.toInt? = some id) (h : Call plan tasks s attempts s' b)
    (hdone : b.phase = .done) (htables : s.db.resultTable.isSome) :
    todo s'.db plan.session tasks = [] := by
  obtain ⟨e, hpassage, hphase⟩ := h.passage
  rw [hdone] at hphase
  cases e with
  | done => exact hpassage.todo_done hid htables
  | stopped | thrown | broken => cases hphase

/-- No call gives the judge a task that had its result when the call began. -/
theorem Call.fresh (hid : plan.session.toInt? = some id) (h : Call plan tasks s attempts s' b)
    (htables : s.db.resultTable.isSome) :
    ∀ x ∈ attempts, s.db.hasResult plan.session x.task = false := by
  obtain ⟨e, hpassage, -⟩ := h.passage
  exact hpassage.fresh hid htables

/-! ## Courses of calls -/

/-- Calls of one session, each done or cut short, with the store opened anew in between at times. -/
inductive Series (session : Binary64) (tasks : List String) :
    Store → List Attempt → Store → Prop where
  | nil (s : Store) : Series session tasks s [] s
  | call {plan : BatchPlan} {b : Batch} {s s' s'' : Store} {attempts more : List Attempt}
      (same : plan.session = session) (call : Call plan tasks s attempts s' b)
      (ended : b.phase = .done ∨ CutShort attempts b) (later : Series session tasks s' more s'') :
      Series session tasks s (attempts ++ more) s''
  | reopened {s s' : Store} {attempts : List Attempt}
      (later : Series session tasks { db := (Store.prepare s.db).1 } attempts s') :
      Series session tasks s attempts s'

theorem Series.progress (hid : session.toInt? = some id) (h : Series session tasks s attempts s')
    (htables : s.db.resultTable.isSome) : Progress session id tasks s attempts s' := by
  induction h with
  | nil => exact .refl htables
  | call same call ended later ih =>
    subst same
    have hcall := call.progress hid ended htables
    exact hcall.trans (ih hcall.tables)
  | @reopened s _ _ later ih =>
    have hopened := progress_prepare session id tasks s
    exact hopened.trans (ih hopened.tables)

/-! ## Outcomes -/

/-- What a result tells apart from its times. -/
def facts (r : ResultRow) : String × Int × Bool × Output × Output × Binary64 :=
  (r.task, r.session, r.killed, r.stdout, r.stderr, r.returnCode)

/-- The judge gives each task the outcome that is its own, whenever it returns. -/
def Follows (outcomes : String → Outcome) (attempts : List Attempt) : Prop :=
  ∀ x ∈ attempts, ∀ outcome, x.answer = .ok outcome → outcome = outcomes x.task

/-- What the result of a task tells when its outcome is given. -/
def factsOf (session : Binary64) (id : Int) (outcomes : String → Outcome) (task : String) :
    String × Int × Bool × Output × Output × Binary64 :=
  facts ((Database.NewRow.ofOutcome session task "" 0 (outcomes task)).settle id)

theorem facts_settle (task start : String) (duration : Binary64) (outcome : Outcome) :
    facts ((Database.NewRow.ofOutcome session task start duration outcome).settle id)
      = facts ((Database.NewRow.ofOutcome session task "" 0 outcome).settle id) := by
  cases outcome <;> rfl

theorem map_facts {outcomes : String → Outcome} {added : List ResultRow}
    (h : List.Forall₂ (Leaves session id) added attempts) (hfollows : Follows outcomes attempts) :
    added.map facts = attempts.map fun x => factsOf session id outcomes x.task := by
  induction h with
  | nil => rfl
  | cons hleaves later ih =>
    obtain ⟨outcome, hanswer, rfl⟩ := hleaves
    obtain rfl := hfollows _ List.mem_cons_self outcome hanswer
    rw [List.map_cons, List.map_cons, facts_settle,
      ih fun x hx => hfollows x (List.mem_cons_of_mem _ hx)]
    rfl

theorem Follows.returned {outcomes : String → Outcome} (h : Follows outcomes attempts) :
    Follows outcomes (returned attempts) :=
  fun x hx => h x (List.mem_filter.mp hx).1

/-- Calls that leave no task without a result determine all results. -/
theorem Progress.facts_eq {outcomes : String → Outcome}
    (h : Progress session id tasks s attempts s') (hfollows : Follows outcomes attempts)
    (hdone : Batch.todo s'.db session tasks = []) :
    s'.db.results.map facts = s.db.results.map facts
      ++ (Batch.todo s.db session tasks).map (factsOf session id outcomes) := by
  obtain ⟨added, hresults, hadded⟩ := h.results
  rw [hresults, List.map_append, map_facts hadded hfollows.returned, h.todo, hdone, List.append_nil,
    List.map_map]
  rfl

theorem map_key {added : List ResultRow} (h : List.Forall₂ (Leaves session id) added attempts) :
    added.map ResultRow.key = (attempts.map (·.task)).map fun task => (task, id) := by
  induction h with
  | nil => rfl
  | cons hleaves later ih =>
    rw [List.map_cons, hleaves.key, ih]
    rfl

/-- Each attempt that returned was the only one of its task that did. -/
theorem Progress.nodup (h : Progress session id tasks s attempts s')
    (hunique : (s.db.results.map ResultRow.key).Nodup) :
    ((returned attempts).map (·.task)).Nodup := by
  obtain ⟨added, hresults, hadded⟩ := h.results
  have hkeys := h.unique hunique
  rw [hresults, List.map_append, List.nodup_append, map_key hadded] at hkeys
  exact hkeys.2.1.of_map

/-! ## Completion -/

/-- On an open store a batch whose tasks all have results is done without the judge. -/
theorem go_done {now : Binary64} (hopen : s.isOpen = true) (tasks : List String)
    (hall : ∀ task ∈ tasks, s.db.hasResult b.plan.session task = true) :
    (advance.go false s now tasks b).phase = .done := by
  induction tasks generalizing b with
  | nil => rfl
  | cons task rest ih =>
    have hhas : s.hasResult b.plan.session task = .ok true := by
      rw [Store.hasResult, Store.whenOpen, if_pos hopen, hall task List.mem_cons_self]
    rw [advance.go, if_neg Bool.false_ne_true, hhas]
    exact ih fun task htask => hall task (List.mem_cons_of_mem _ htask)

theorem call_done (hopen : s.isOpen = true) (hnone : todo s.db plan.session tasks = []) :
    ∃ b, Call plan tasks s [] s b ∧ b.phase = .done := by
  have hdone : ((start plan tasks).advance false s 0).phase = .done :=
    go_done hopen tasks (todo_eq_nil_iff.mp hnone)
  refine ⟨_, ⟨.advance false 0 rfl (.rest _ _), ?_⟩, hdone⟩
  simp [result?, hdone]

/-- Calls of one session are cut short any number of times, and a last one is done. Then every task has
one result: that of its one attempt that returned, or the one it had at first. No call gives the judge
a task that had a result when the call began. If the outcome of a task is always the same, the results
are those of one whole call, and one more call does nothing. -/
theorem resumed_completes {s₀ s₁ s₂ : Store} {last : List Attempt} (tasks : List String)
    (hid : session.toInt? = some id) (htables : s₀.db.resultTable.isSome)
    (hunique : (s₀.db.results.map ResultRow.key).Nodup)
    (hseries : Series session tasks s₀ attempts s₁) (hsession : plan.session = session)
    (hlast : Call plan tasks s₁ last s₂ b) (hdone : b.phase = .done) :
    (∀ task ∈ tasks, (s₂.db.results.map ResultRow.key).count (task, id) = 1)
      ∧ (∃ added, s₂.db.results = s₀.db.results ++ added
          ∧ List.Forall₂ (Leaves session id) added (returned (attempts ++ last))
          ∧ ((returned (attempts ++ last)).map (·.task)).Nodup)
      ∧ (∀ plan s as s' b, plan.session = session → s.db.resultTable.isSome →
          Call plan tasks s as s' b → ∀ x ∈ as, s.db.hasResult session x.task = false)
      ∧ (∀ outcomes, Follows outcomes (attempts ++ last) →
          ∀ plan as s' b, plan.session = session → Call plan tasks s₀ as s' b → b.phase = .done →
            Follows outcomes as → s₂.db.results.map facts = s'.db.results.map facts)
      ∧ (∀ plan as s' b, plan.session = session → Call plan tasks s₂ as s' b →
          as = [] ∧ s' = s₂)
      ∧ (s₂.isOpen = true → ∃ b, Call plan tasks s₂ [] s₂ b ∧ b.phase = .done) := by
  have hprogress₁ := hseries.progress hid htables
  subst hsession
  have hprogress := hprogress₁.trans (hlast.progress hid (.inl hdone) hprogress₁.tables)
  have htodo := hlast.todo_done hid hdone hprogress₁.tables
  refine ⟨?_, ?_, ?_, ?_, ?_, fun hopen => call_done hopen htodo⟩
  · intro task htask
    have hhas := todo_eq_nil_iff.mp htodo task htask
    exact List.count_eq_one_of_mem (hprogress.unique hunique) ((Database.hasResult_iff hid task).mp hhas)
  · obtain ⟨added, hresults, hadded⟩ := hprogress.results
    exact ⟨added, hresults, hadded, hprogress.nodup hunique⟩
  · intro plan' s as s' b' hsession htables hcall
    rw [← hsession] at hid ⊢
    exact hcall.fresh hid htables
  · intro outcomes hfollows plan' as s' b' hsession hcall hdone' hfollows'
    rw [hprogress.facts_eq hfollows htodo]
    rw [← hsession] at hid ⊢
    exact ((hcall.progress hid (.inl hdone') htables).facts_eq hfollows'
      (hcall.todo_done hid hdone' htables)).symm
  · intro plan' as s' b' hsession hcall
    obtain ⟨e, hpassage, -⟩ := hcall.passage
    rw [hsession] at hpassage
    exact hpassage.of_todo_eq_nil htodo

/-- The judge cannot be started at first; after the store is opened anew, a second call is done. -/
theorem resumed_completes_after_throw :
    let plan : BatchPlan :=
      { judge := "judge", root := "tasks", session := 1, judgeDir := "/", workDir := "/" }
    let s₀ : Store := { db := (Database.withTables {}).addSession "1.0.0" (.text "") }
    ∃ attempts last s₁ s₂ b, attempts.length = 1 ∧ Series plan.session ["a"] s₀ attempts s₁
      ∧ Call plan ["a"] s₁ last s₂ b ∧ b.phase = .done
      ∧ ∀ task ∈ ["a"], (s₂.db.results.map ResultRow.key).count (task, 1) = 1 := by
  intro plan s₀
  have first : Call plan ["a"] s₀ _ s₀ _ :=
    ⟨.advance false 1 rfl (.reply 1 (.error (.of .judgeSpawn "no judge")) rfl (.rest _ _)),
      Option.some_ne_none _⟩
  let s₁ : Store := { db := (Store.prepare s₀.db).1 }
  have hseries : Series plan.session ["a"] s₀ _ s₁ :=
    .call rfl first (.inr ⟨_, rfl, .inl ⟨_, rfl, rfl⟩⟩) (.reopened (.nil _))
  let ended := ((start plan ["a"]).advance false s₁ 1).reply s₁ 1 (.ok .killed)
  have hready : ended.2.phase = .ready := rfl
  have hdone : (ended.2.advance false ended.1 1).phase = .done := rfl
  have second : Call plan ["a"] s₁ _ ended.1 (ended.2.advance false ended.1 1) :=
    ⟨.advance false 1 rfl (.reply 1 (.ok .killed) rfl (.advance false 1 hready (.rest _ _))),
      by simp [result?, hdone]⟩
  refine ⟨_, _, _, _, _, rfl, hseries, second, hdone, ?_⟩
  exact (resumed_completes _ rfl rfl (by decide) hseries rfl second hdone).1
end Bailiff.Batch
