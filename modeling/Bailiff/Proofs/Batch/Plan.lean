-- SUMMARY: A batch keeps the plan it was started with, so every judge run has the time limit that the command was given.
import Bailiff.Batch.Command

/-!
# Plans

Nothing that happens to a batch changes its plan, inside of its scope or outside. What the batch command
asks of the judge is therefore determined by its input (`BatchCommand.runBatch_timeoutMs`).
-/

namespace Bailiff

namespace Batch

variable {s : Store} {b : Batch}

theorem plan_go (stopped : Bool) (now : Binary64) (tasks : List String) :
    (advance.go stopped s now tasks b).plan = b.plan := by
  fun_induction advance.go stopped s now tasks b with
  | case1 | case2 | case3 | case5 | case6 => rfl
  | case4 _ _ _ _ _ ih => exact ih

theorem plan_advance (stopped : Bool) (now : Binary64) : (b.advance stopped s now).plan = b.plan :=
  plan_go ..

theorem plan_reply (duration : Binary64) (answer : Except Failure Outcome) :
    (b.reply s duration answer).2.plan = b.plan := by
  unfold reply
  split
  · split
    · rfl
    · split <;> rfl
  · rfl

theorem timeoutMs_invocation? {i : Invocation} (h : b.invocation? = some i) :
    i.timeoutMs = b.plan.timeoutMs := by
  unfold invocation? at h
  split at h
  · cases h
    rfl
  · cases h

end Batch

namespace GuardedBatch

variable {g : GuardedBatch} {plan : BatchPlan}

/-- The batch, once there is one, has the plan of the command. -/
structure HasPlan (g : GuardedBatch) (plan : BatchPlan) : Prop where
  own : g.plan = plan
  batch : ∀ b, g.batch = some b → b.plan = plan

theorem HasPlan.perform (h : g.HasPlan plan) (now : Instant) (e : Scope.Effect) :
    (perform now g e).HasPlan plan := by
  cases e <;> exact ⟨h.own, h.batch⟩

theorem HasPlan.inScope (h : g.HasPlan plan) (now : Instant)
    (step : Scope BatchSummary → Scope BatchSummary × List Scope.Effect) :
    (g.inScope now step).HasPlan plan := by
  have hfold (effects : List Scope.Effect) (g : GuardedBatch) (h : g.HasPlan plan) :
      (effects.foldl (GuardedBatch.perform now) g).HasPlan plan := by
    induction effects generalizing g with
    | nil => exact h
    | cons e rest ih => exact ih _ (h.perform now e)
  exact hfold _ _ ⟨h.own, h.batch⟩

theorem HasPlan.proceed (h : g.HasPlan plan) (now : Instant) {b : Batch} (hb : b.plan = plan) :
    (g.proceed now b).HasPlan plan := by
  unfold GuardedBatch.proceed
  dsimp only
  have hbatch : ({ g with
      batch := some { b.advance g.stopped g.store (.ofInt now.ms) with notes := [] }
      trail := g.trail ++ (b.advance g.stopped g.store (.ofInt now.ms)).notes.map
        (seen now g.plan.session) } : GuardedBatch).HasPlan plan := by
    refine ⟨h.own, fun b' hb' => ?_⟩
    cases hb'
    exact (Batch.plan_advance ..).trans hb
  split
  · exact hbatch.inScope now _
  · exact hbatch

theorem HasPlan.judged (h : g.HasPlan plan) (now : Instant) (duration : Binary64)
    (answer : Except Failure Outcome) : (g.step now (.judged duration answer)).HasPlan plan := by
  unfold GuardedBatch.step
  dsimp only
  split
  · exact h
  next b hb =>
    have hreply : (b.reply g.store duration answer).2.plan = plan :=
      (Batch.plan_reply duration answer).trans (h.batch b hb)
    generalize (b.reply g.store duration answer).1 = store at *
    generalize (b.reply g.store duration answer).2 = b' at *
    have hkept : HasPlan { g with store, batch := some b' } plan :=
      ⟨h.own, fun b hb => by cases hb; exact hreply⟩
    split
    · have hstore : HasPlan { g with store } plan := ⟨h.own, h.batch⟩
      exact hstore.proceed now hreply
    · exact hkept.inScope now _
    · exact hkept

theorem HasPlan.step (h : g.HasPlan plan) (now : Instant) (a : Action) :
    (g.step now a).HasPlan plan := by
  cases a with
  | listed tasks =>
    cases tasks with
    | error fault => exact h.inScope now (·.workEnds (.error fault.failure))
    | ok tasks => exact h.proceed now h.own
  | judged duration answer => exact h.judged now duration answer
  | signal name => exact h.inScope now (·.signal name name)
  | cleaned => exact h.inScope now (·.cleanupEnds none)
  | exit => exact h.inScope now Scope.exit
  | settle => exact h.inScope now Scope.settle

theorem HasPlan.rest (h : g.HasPlan plan) (now : Instant) : (g.rest now).HasPlan plan := by
  unfold GuardedBatch.rest
  generalize 3 = n
  induction n generalizing g with
  | zero => exact h
  | succ n ih =>
    unfold rest.go
    split
    next a _ => exact ih (h.step now a)
    · exact h

theorem hasPlan_enter (now : Instant) (plan : BatchPlan) (store : Store) :
    (enter now plan store).HasPlan plan :=
  HasPlan.inScope ⟨rfl, fun _ h => by cases h⟩ now _

end GuardedBatch

namespace BatchCommand

variable {plan : BatchPlan}

/-- Nothing that comes during a judge run changes the plan. -/
theorem hasPlan_during {g : GuardedBatch} (h : g.HasPlan plan) (reply : JudgeReply) (now : Instant)
    (said : List Trail) :
    let g := { g with trail := g.trail ++ said }
    let g := match reply.signal with
      | some name => (g.step now (.signal name)).rest now
      | none => g
    (if reply.stop then { g with stopped := true } else g).HasPlan plan := by
  have hsaid : GuardedBatch.HasPlan { g with trail := g.trail ++ said } plan := ⟨h.own, h.batch⟩
  have hsignal (name : String) := (hsaid.step now (.signal name)).rest now
  dsimp only
  split
  · split
    · exact ⟨(hsignal _).own, (hsignal _).batch⟩
    · exact ⟨h.own, h.batch⟩
  · split
    · exact hsignal _
    · exact hsaid

/-- Every judge run of a batch has the time limit of its plan. -/
theorem drive_timeoutMs (host : JudgeHost) (n : Nat) (s : State) (g : GuardedBatch)
    (h : g.HasPlan plan) :
    ∀ i ∈ (drive host n s g).1.invocations, i ∈ s.invocations ∨ i.timeoutMs = plan.timeoutMs := by
  induction n generalizing s g with
  | zero => exact fun i hi => .inl hi
  | succ n ih =>
    unfold drive
    split
    · exact fun i hi => .inl hi
    next b i hnext =>
      obtain ⟨b', hb', hi'⟩ := Option.bind_eq_some_iff.mp hnext
      obtain ⟨i', hinvocation, heq⟩ := Option.map_eq_some_iff.mp hi'
      cases heq
      have htimeout : i.timeoutMs = plan.timeoutMs := by
        rw [Batch.timeoutMs_invocation? hinvocation, h.batch b hb']
      dsimp only
      intro k hk
      rcases ih _ _ (((hasPlan_during h _ _ _).judged _ _ _).rest _) k hk with hold | hnew
      · rcases List.mem_append.mp hold with hold | hnew
        · exact .inl hold
        · rw [List.mem_singleton.mp hnew]
          exact .inr htimeout
      · exact .inr hnew

theorem invocations_resolveSession (host : JudgeHost) (input : BatchInput) (store : Store) (s : State) :
    (resolveSession host input store s).1.invocations = s.invocations := by
  unfold resolveSession
  split
  · split <;> rfl
  · dsimp only
    split
    · rfl
    · split <;> rfl

/-- Every judge run of the command has the time limit that the command was given. -/
theorem runBatch_timeoutMs (host : JudgeHost) (base : Location) (input : BatchInput)
    (judgeDir : String) (s : State) :
    ∀ i ∈ (runBatch host base input judgeDir s).1.invocations,
      i ∈ s.invocations ∨ i.timeoutMs = input.timeout * 1000 := by
  unfold runBatch
  split
  · exact fun i hi => .inl hi
  next files c _ =>
    have hsession := invocations_resolveSession host input (c.store files) { s with files }
    split
    next s' f heq =>
      rw [heq] at hsession
      rw [hsession]
      exact fun i hi => .inl hi
    next s' store session heq =>
      rw [heq] at hsession
      have hplan (plan : BatchPlan) (a : GuardedBatch.Action) :=
        ((GuardedBatch.hasPlan_enter s'.clock.now plan store).step s'.clock.now a).rest s'.clock.now
      have hdrive (plan : BatchPlan) (a : GuardedBatch.Action) (n : Nat) :=
        drive_timeoutMs host n s' _ (hplan plan a)
      dsimp only at hsession ⊢
      rw [← hsession]
      -- the limit does not depend on what is listed
      generalize Batch.listTasks s'.files base input.root = tasks
      split
      · exact hdrive _ _ _
      · exact hdrive _ _ _
      · exact hdrive _ _ _

end BatchCommand

end Bailiff
