-- SUMMARY: When the workers beside a server are started, and which of them.
import Bailiff.Proofs.Fleet.Server
import Bailiff.Proofs.Fleet.Starts
import Bailiff.Proofs.Fleet.Stocking
import Bailiff.Proofs.Fleet.Workers

/-!
# Workers that are wanted

Workers beside a server are wanted until the server's part of the run is over or the run is asked to stop. A stop
calls off their launch only from when they begin to wait: one that came before is missed (`Fleet.StoppedEarly`), and
that is all that tells the workers that are started from those that are wanted (`Fleet.Heeds`).
-/

namespace Bailiff

namespace Fleet

variable {launcher : Launcher} {start f g : Fleet} {hs : List Happening} {early : Prop} {effects : List Effect}

/-! ## Stops -/

/-- The run was asked to stop before the workers began to wait. -/
def StoppedEarly (launcher : Launcher) (start : Fleet) (hs : List Happening) : Prop :=
  ∃ before, before <+: hs ∧ (start.run launcher before).side = .idle ∧ (start.run launcher before).stopped = true

theorem stoppedEarly_nil (hstopped : start.stopped = false) : ¬StoppedEarly launcher start [] := by
  rintro ⟨before, hbefore, -, h⟩
  rw [List.prefix_nil.mp hbefore, run_nil, hstopped] at h
  cases h

theorem stoppedEarly_concat {what : Happening} : StoppedEarly launcher start (hs ++ [what])
    ↔ StoppedEarly launcher start hs ∨ ((start.run launcher hs).meet launcher what).side = .idle
      ∧ ((start.run launcher hs).meet launcher what).stopped = true := by
  have hrun : start.run launcher (hs ++ [what]) = (start.run launcher hs).meet launcher what := run_append ..
  constructor
  · rintro ⟨before, hbefore, h⟩
    rcases List.prefix_concat_iff.mp hbefore with rfl | hbefore
    · rw [hrun] at h
      exact .inr h
    · exact .inl ⟨before, hbefore, h⟩
  · rintro (⟨before, hbefore, h⟩ | h)
    · exact ⟨before, hbefore.trans (List.prefix_append ..), h⟩
    · exact ⟨hs ++ [what], List.prefix_rfl, hrun ▸ h⟩

/-- The server's part of the run is not over, and the run was not asked to stop since the workers began to wait. -/
def Wanted (launcher : Launcher) (start : Fleet) (hs : List Happening) : Prop :=
  (start.run launcher hs).outcome? = none ∧ ((start.run launcher hs).stopped = true → StoppedEarly launcher start hs)

/-- How the launch of the workers is called off, for a run that was asked to stop early or was not. -/
structure Heeds (early : Prop) (f : Fleet) : Prop where
  begun : f.side = .idle → f.phase.isPreparing = true ∨ ∃ r, f.phase = .settled r
  idle : f.side = .idle → f.linked = false ∧ f.aborted = false ∧ (f.stopped = true ↔ early)
  stands : f.side ≠ .idle → f.outcome? = none →
    (f.linked = true ↔ ¬early) ∧ (f.aborted = true ↔ f.stopped = true ∧ ¬early)
  ended : f.side ≠ .idle → f.outcome? ≠ none → f.aborted = true

theorem heeds_start (plan : FleetPlan) (files : FileTree) (h : ¬early) : Heeds early { plan, files } := by
  refine ⟨fun _ => .inl rfl, fun _ => ⟨rfl, rfl, by simp [h]⟩, ?_, ?_⟩ <;> exact fun hside => absurd rfl hside

/-! ## Steps -/

/-- The stops that come early, when one step more has been made. -/
def EarlyNow (early : Prop) (g : Fleet) : Prop := early ∨ g.side = .idle ∧ g.stopped = true

theorem earlyNow_iff (hside : g.side ≠ .idle) : EarlyNow early g ↔ early := or_iff_left fun h => hside h.1

/-- What leaves the workers' side and the server's part of the run as they were. -/
theorem Heeds.same (h : f.Heeds early) (hside : g.side = f.side) (hlinked : g.linked = f.linked)
    (haborted : g.aborted = f.aborted) (hstopped : g.stopped = f.stopped) (houtcome : g.outcome? = f.outcome?)
    (hbegun : f.side = .idle → g.phase.isPreparing = true ∨ ∃ r, g.phase = .settled r) :
    g.Heeds (EarlyNow early g) := by
  refine ⟨fun hidle => hbegun (hside ▸ hidle), fun hidle => ?_, fun hne hopen => ?_, fun hne hover => ?_⟩
  · obtain ⟨hl, ha, hs⟩ := h.idle (hside ▸ hidle)
    rw [hlinked, haborted, EarlyNow, hstopped, hs]
    exact ⟨hl, ha, by simp [hidle]⟩
  · rw [earlyNow_iff hne, hlinked, haborted, hstopped]
    exact h.stands (hside ▸ hne) (houtcome ▸ hopen)
  · rw [haborted]
    exact h.ended (hside ▸ hne) (houtcome ▸ hover)

/-- The workers' side goes on, and nothing else. -/
theorem Heeds.onward (h : f.Heeds early) (hbefore : f.side ≠ .idle) (hafter : g.side ≠ .idle)
    (hlinked : g.linked = f.linked) (haborted : g.aborted = f.aborted) (hstopped : g.stopped = f.stopped)
    (houtcome : g.outcome? = f.outcome?) : g.Heeds (EarlyNow early g) := by
  refine ⟨fun hidle => absurd hidle hafter, fun hidle => absurd hidle hafter, fun _ hopen => ?_, fun _ hover => ?_⟩
  · rw [earlyNow_iff hafter, hlinked, haborted, hstopped]
    exact h.stands hbefore (houtcome ▸ hopen)
  · rw [haborted]
    exact h.ended hbefore (houtcome ▸ hover)

/-- The server's part of the run ends. -/
theorem heeds_over (hside : g.side ≠ .idle) (haborted : g.aborted = true) {r : RunResult}
    (hover : g.outcome? = some r) : g.Heeds early := by
  refine ⟨fun hidle => absurd hidle hside, fun hidle => absurd hidle hside, fun _ hopen => ?_, fun _ _ => haborted⟩
  rw [hover] at hopen
  cases hopen

theorem Heeds.serverMove (h : f.Heeds early) (hpreparing : f.phase.isPreparing = true → f.side = .idle)
    (hmove : f.ServerMove g effects) : g.Heeds (EarlyNow early g) := by
  have hpast : f.phase.isPreparing = false → (∀ r, f.phase ≠ .settled r) → f.side ≠ .idle := by
    intro hphase hopen hidle
    rcases h.begun hidle with hstill | ⟨r, hsettled⟩
    · simp [hphase] at hstill
    · exact hopen r hsettled
  cases hmove with
  | still => exact h.same rfl rfl rfl rfl rfl h.begun
  | prepares hfrom phase hto =>
    refine h.same rfl rfl rfl rfl ?_ fun _ => .inl hto
    exact (outcome?_of_preparing hto).trans (outcome?_of_preparing hfrom).symm
  | fails hfrom =>
    have hidle := hpreparing hfrom
    obtain ⟨hlinked, haborted, hstopped⟩ := h.idle hidle
    have hearly : f.stopped = true ↔ early ∨ f.side = .idle ∧ f.stopped = true := by
      simp [hstopped, hidle]
    refine ⟨fun _ => .inr ⟨_, rfl⟩, fun _ => ⟨hlinked, haborted, hearly⟩, ?_, ?_⟩ <;>
      exact fun hside => absurd hidle hside
  | enters hfrom =>
    obtain ⟨hlinked, haborted, hstopped⟩ := h.idle (hpreparing hfrom)
    refine ⟨nofun, nofun, fun hside _ => ?_, fun _ hover => absurd rfl hover⟩
    rw [earlyNow_iff hside]
    simp [haborted, ← hstopped]
  | makes hfrom =>
    have hside : f.side ≠ .idle := hpast (by rw [hfrom]; rfl) (by simp [hfrom])
    exact h.onward hside hside rfl rfl rfl (by simp [outcome?, hfrom])
  | serves hfrom =>
    have hside : f.side ≠ .idle := hpast (by rw [hfrom]; rfl) (by simp [hfrom])
    exact h.onward hside hside rfl rfl rfl (by simp [outcome?, hfrom])
  | abandons hfrom =>
    refine heeds_over (r := .error _) (hpast ?_ ?_) rfl rfl
    · rcases hfrom with hfrom | hfrom <;> rw [hfrom] <;> rfl
    · rcases hfrom with hfrom | hfrom <;> simp [hfrom]
  | concludes hfrom r => exact heeds_over (r := r) (hpast (by rw [hfrom]; rfl) (by simp [hfrom])) rfl rfl
  | ends => exact h.same rfl rfl rfl rfl rfl h.begun

theorem Heeds.workersMove (h : f.Heeds early) (hmove : f.WorkersMove g effects) : g.Heeds (EarlyNow early g) := by
  have hpast : ∀ r, f.phase = .joining r → f.side ≠ .idle := by
    intro r hphase hidle
    rcases h.begun hidle with hstill | ⟨r', hsettled⟩
    · simp [hphase, Phase.isPreparing] at hstill
    · simp [hphase] at hsettled
  have houtcome := hmove.outcome?_eq
  cases hmove with
  | still => exact h.same rfl rfl rfl rfl rfl h.begun
  | stops =>
    refine ⟨h.begun, fun hidle => ?_, fun hside hopen => ?_, fun hside hover => ?_⟩
    · obtain ⟨hlinked, haborted, -⟩ := h.idle hidle
      exact ⟨hlinked, by simp [hlinked, haborted], by simp [EarlyNow, show f.side = .idle from hidle]⟩
    · obtain ⟨hlinked, haborted⟩ := h.stands hside hopen
      rw [earlyNow_iff hside]
      refine ⟨hlinked, ?_⟩
      rw [Bool.or_eq_true, haborted, hlinked]
      simp
    · rw [Bool.or_eq_true]
      exact .inl (h.ended hside hover)
  | ends => exact h.same rfl rfl rfl rfl rfl h.begun
  | cancels hside => exact h.onward (by simp [hside]) (by simp [sideEnds]) rfl rfl rfl houtcome
  | launches hside => exact h.onward (by simp [hside]) (by simp) rfl rfl rfl houtcome
  | breaks hside => exact h.onward (by simp [hside]) (by simp) rfl rfl rfl houtcome
  | gives hside => exact h.onward (by simp [hside]) (by simp) rfl rfl rfl houtcome
  | gathers hside => exact h.onward (by simp [hside]) (by simp [sideEnds]) rfl rfl rfl houtcome
  | dismisses r hfrom hside => exact h.onward (hpast r hfrom) (hpast r hfrom) rfl rfl rfl houtcome
  | joins r hfrom hside => exact h.onward (hpast r hfrom) (hpast r hfrom) rfl rfl rfl houtcome

/-- A step leaves the workers' side, or takes it further. -/
theorem ServerMove.side (hmove : f.ServerMove g effects) :
    g.side = f.side ∨ f.phase.isPreparing = true ∧ g.side = .waiting := by
  cases hmove with
  | enters hfrom => exact .inr ⟨hfrom, rfl⟩
  | _ => exact .inl rfl

theorem WorkersMove.side (hmove : f.WorkersMove g effects) :
    g.side = f.side ∨ f.side ≠ .idle ∧ (g.side = .working ∨ g.side = .done) := by
  cases hmove with
  | cancels hside | breaks hside | gives hside | gathers hside => exact .inr ⟨by simp [hside], .inr rfl⟩
  | launches hside => exact .inr ⟨by simp [hside], .inl rfl⟩
  | still | stops | ends | dismisses | joins => exact .inl rfl

/-! ## The end of the wait -/

/-- When the wait for the server ends well, the workers are started, unless the wait is to be called off. -/
theorem step_ready (launcher : Launcher) (hside : f.side = .waiting) (hdue : f.cancelDue = false) :
    f.step launcher (.ready (.ok true)) = f.becomesReady launcher (.ok true) := by
  simp only [Fleet.step]
  exact if_pos ⟨hside, Bool.not_eq_true _ ▸ hdue⟩

/-- One worker is started on each store of a plan, in order, or those up to the first that the launcher refuses. -/
def StartsWorkers (launcher : Launcher) (f : Fleet) (args : List String) (stores : List String)
    (effects : List Effect) : Prop :=
  workerStarts effects = workerLines f.plan.tools args 1 stores
    ∨ ∃ count failure, Refuses launcher f.files f.plan.tools args f.starts 1 stores count failure
      ∧ workerStarts effects = (workerLines f.plan.tools args 1 stores).take (count + 1)

theorem StartsWorkers.prefix_lines {args stores : List String}
    (h : StartsWorkers launcher f args stores effects) :
    workerStarts effects <+: workerLines f.plan.tools args 1 stores := by
  rcases h with hall | ⟨count, failure, -, hsome⟩
  · exact hall ▸ List.prefix_rfl
  · exact hsome ▸ List.take_prefix ..

theorem startsWorkers_becomesReady {args : List String}
    (hargs : CommandLine.splitArgs f.plan.tools.workerArgs = .ok args) (launcher : Launcher) :
    StartsWorkers launcher f args f.stores (f.becomesReady launcher (.ok true)).2
      ∧ ((f.becomesReady launcher (.ok true)).1.side = .working
        ∨ (f.becomesReady launcher (.ok true)).1.side = .done) := by
  obtain ⟨count, starts, effects, answer, hlaunch, hanswer⟩ := launchWorkers_starts launcher hargs
  simp only [Fleet.becomesReady, hlaunch]
  rcases hanswer with ⟨rfl, -, hall⟩ | ⟨failure, rfl, hsome, hrefused⟩
  · exact ⟨.inl hall, .inl rfl⟩
  · refine ⟨.inr ⟨count, failure, hrefused, ?_⟩, .inr rfl⟩
    rw [workerStarts_append, hsome, workerLines_take]
    exact List.append_nil _

/-! ## Runs -/

/-- What a run has started up to now. -/
structure Started (args : List String) (f : Fleet) (effects : List Effect) : Prop where
  before : f.side = .idle ∨ f.side = .waiting → workerStarts effects = []
  prefix_lines : workerStarts effects
    <+: workerLines f.plan.tools args 1 (firstStores f.plan (storeCount f.plan.workerCount))

theorem Started.step {args : List String} (h : Started args f effects) (hpair : f.IsPair) (hstocked : f.Stocked)
    (hargs : CommandLine.splitArgs f.plan.tools.workerArgs = .ok args) (launcher : Launcher) (a : Action) :
    Started args (f.step launcher a).1 (effects ++ (f.step launcher a).2) := by
  have hplan := plan_step launcher f a
  by_cases hready : a = .ready (.ok true) ∧ f.side = .waiting ∧ f.cancelDue = false
  · obtain ⟨rfl, hside, hdue⟩ := hready
    obtain ⟨hstarts, hafter⟩ := startsWorkers_becomesReady hargs launcher
    rw [hstocked.full (.inr (.inl (by simp [hside])))] at hstarts
    rw [← step_ready launcher hside hdue] at hstarts hafter
    refine ⟨fun hbefore => ?_, ?_⟩
    · rcases hafter with hafter | hafter <;> simp [hafter] at hbefore
    · rw [workerStarts_append, h.before (.inr hside), List.nil_append, hplan]
      exact hstarts.prefix_lines
  · have hnone := hpair.workerStarts_step launcher hready
    refine ⟨fun hbefore => ?_, ?_⟩
    · rw [workerStarts_append, hnone, List.append_nil]
      refine h.before ?_
      rcases hpair.move_step launcher a with hmove | hmove
      · rcases hmove.side with hsame | ⟨hfrom, -⟩
        · exact hsame ▸ hbefore
        · exact .inl (hstocked.preparing hfrom)
      · rcases hmove.side with hsame | ⟨-, hafter | hafter⟩
        · exact hsame ▸ hbefore
        · simp [hafter] at hbefore
        · simp [hafter] at hbefore
    · rw [workerStarts_append, hnone, List.append_nil, hplan]
      exact h.prefix_lines

/-- What a run with server and workers has come to: how far it heeds a stop, and what it has started. -/
theorem heeds_run {plan : FleetPlan} (hmode : plan.mode = .serverAndWorkers) (launcher : Launcher) (files : FileTree)
    (hs : List Happening) :
    Heeds (StoppedEarly launcher { plan, files } hs) (Fleet.run launcher { plan, files } hs) := by
  induction hs using List.reverseRecOn with
  | nil => exact heeds_start plan files (stoppedEarly_nil rfl)
  | append_singleton hs what ih =>
    have hpair := (isPair_start hmode files).run launcher hs
    have hstocked := stocked_run launcher plan files hs
    rw [stoppedEarly_concat, run_append]
    cases what with
    | files t => exact ih.same rfl rfl rfl rfl rfl ih.begun
    | act a =>
      rcases hpair.move_step launcher a with hmove | hmove
      · exact ih.serverMove hstocked.preparing hmove
      · exact ih.workersMove hmove

theorem started_run {plan : FleetPlan} (hmode : plan.mode = .serverAndWorkers) {args : List String}
    (hargs : CommandLine.splitArgs plan.tools.workerArgs = .ok args) (launcher : Launcher) (files : FileTree)
    (hs : List Happening) :
    Started args (Fleet.run launcher { plan, files } hs) (Fleet.effects launcher { plan, files } hs) := by
  induction hs using List.reverseRecOn with
  | nil => exact ⟨fun _ => rfl, List.nil_prefix⟩
  | append_singleton hs what ih =>
    rw [effects_append, run_append]
    cases what with
    | files t =>
      simp only [effects, List.append_nil]
      exact ⟨ih.before, ih.prefix_lines⟩
    | act a =>
      simp only [effects, List.append_nil]
      refine ih.step ((isPair_start hmode files).run launcher hs) (stocked_run launcher plan files hs) ?_ launcher a
      rw [plan_run]
      exact hargs

/-- Workers that wait and are wanted go on waiting until their wait ends. -/
theorem IsPair.waiting_step (h : f.IsPair) (hstocked : f.Stocked) (hside : f.side = .waiting)
    (hopen : f.outcome? = none) (hdue : f.cancelDue = false) (launcher : Launcher) {a : Action}
    (ha : ∀ answer, a ≠ .ready answer) :
    (f.step launcher a).1.side = .waiting := by
  have hservers : (Happening.act a).isServers = true → (f.step launcher a).1.side = .waiting := by
    intro hyes
    rcases (h.serverMove_step launcher hyes).side with hsame | ⟨hfrom, -⟩
    · exact hsame.trans hside
    · rw [hstocked.preparing hfrom] at hside
      cases hside
  cases a with
  | file | conclude => exact hservers rfl
  | ready answer => exact absurd rfl (ha answer)
  | exited | failed | stop => exact hside
  | windowOver | join =>
    simp only [Fleet.step]
    split
    next r hphase => simp [outcome?, hphase] at hopen
    · exact hside
  | cancel => simpa [Fleet.step, hdue] using hside
  | gather =>
    simp only [Fleet.step, Fleet.gathers]
    split
    case h_1 => exact absurd ‹_› h.working
    case h_2 => simp [hside]

/-- With a fixed delay the wait is to be called off just when the workers are not wanted any more. -/
theorem Heeds.cancelDue_iff (h : f.Heeds early) {ms : Binary64} (hpolicy : f.plan.policy = .delay ms)
    (hside : f.side = .waiting) :
    f.cancelDue = false ↔ f.outcome? = none ∧ (f.stopped = true → early) := by
  have hbegun : f.side ≠ .idle := by simp [hside]
  have hdue : f.cancelDue = f.aborted := by
    simp [cancelDue, hside, hpolicy, ReadinessPolicy.delay]
  rw [hdue, ← Bool.not_eq_true]
  constructor
  · intro hcalm
    have hopen : f.outcome? = none := Decidable.byContradiction fun hover => hcalm (h.ended hbegun hover)
    rw [(h.stands hbegun hopen).2, not_and, not_not] at hcalm
    exact ⟨hopen, hcalm⟩
  · rintro ⟨hopen, hearly⟩
    rw [(h.stands hbegun hopen).2, not_and, not_not]
    exact hearly

/-! ## Starts -/

/-- With a fixed delay, workers are started only by its end and while they are wanted, where a stop does not count
that came before they began to wait. While they are wanted they wait for that end, and then one is started on each
store, in order, up to the first that the launcher refuses. Over a whole run no other worker is started, and none
twice. -/
theorem workers_start_while_wanted {plan : FleetPlan} {ms : Binary64} (hmode : plan.mode = .serverAndWorkers)
    (hpolicy : plan.policy = .delay ms) {files : FileTree} (hrun : Fleet.run launcher { plan, files } hs = f) :
    (∀ a, workerStarts (f.step launcher a).2 ≠ [] →
        a = .ready (.ok true) ∧ f.side = .waiting ∧ Wanted launcher { plan, files } hs)
      ∧ (f.side = .waiting → Wanted launcher { plan, files } hs →
          (∀ a, (∀ answer, a ≠ .ready answer) → (f.step launcher a).1.side = .waiting)
          ∧ ∀ args, CommandLine.splitArgs plan.tools.workerArgs = .ok args →
            StartsWorkers launcher f args (firstStores plan (storeCount plan.workerCount))
              (f.step launcher (.ready (.ok true))).2)
      ∧ ∀ args, CommandLine.splitArgs plan.tools.workerArgs = .ok args →
          workerStarts (Fleet.effects launcher { plan, files } hs)
            <+: workerLines plan.tools args 1 (firstStores plan (storeCount plan.workerCount)) := by
  have hpair := (isPair_start hmode files).run launcher hs
  have hheeds := heeds_run hmode launcher files hs
  have hstocked := stocked_run launcher plan files hs
  have hplan : (Fleet.run launcher { plan, files } hs).plan = plan := plan_run ..
  have hstarted := fun args (hargs : CommandLine.splitArgs plan.tools.workerArgs = .ok args) =>
    (started_run hmode hargs launcher files hs).prefix_lines
  unfold Wanted
  rw [hrun] at hpair hheeds hstocked hplan hstarted ⊢
  have hdue := fun hside => hheeds.cancelDue_iff (by rw [hplan]; exact hpolicy) hside
  refine ⟨fun a hsome => ?_, fun hside hwanted => ⟨fun a ha => ?_, fun args hargs => ?_⟩, fun args hargs => ?_⟩
  · obtain ⟨rfl, hside, hcalm⟩ := not_imp_comm.mp (hpair.workerStarts_step launcher) hsome
    exact ⟨rfl, hside, (hdue hside).mp hcalm⟩
  · exact hpair.waiting_step hstocked hside hwanted.1 ((hdue hside).mpr hwanted) launcher ha
  · have hstarts := (startsWorkers_becomesReady (f := f) (by rw [hplan]; exact hargs) launcher).1
    rw [hstocked.full (.inr (.inl (by simp [hside]))), hplan, ← step_ready launcher hside ((hdue hside).mpr hwanted)]
      at hstarts
    exact hstarts
  · have hprefix := hstarted args hargs
    rwa [hplan] at hprefix

theorem workers_start_while_wanted_on_two_stores :
    twoWorkers.mode = .serverAndWorkers ∧ twoWorkers.policy = .delay (.ofNat defaultReadinessMs)
      ∧ twoServing.side = .waiting
      ∧ Wanted (allBut 0) { plan := twoWorkers, files := {} } (List.replicate 6 (.act (.file none)))
      ∧ CommandLine.splitArgs twoWorkers.tools.workerArgs = .ok []
      ∧ StartsWorkers (allBut 0) twoServing [] (firstStores twoWorkers (storeCount twoWorkers.workerCount))
        (twoServing.step (allBut 0) (.ready (.ok true))).2 := by
  have hwanted : Wanted (allBut 0) { plan := twoWorkers, files := {} } (List.replicate 6 (.act (.file none))) := by
    rw [Wanted, run_twoServing]
    exact ⟨rfl, nofun⟩
  have hstarts := workers_start_while_wanted rfl rfl (run_twoServing 0)
  exact ⟨rfl, rfl, rfl, hwanted, rfl, (hstarts.2.1 rfl hwanted).2 [] rfl⟩

/-- A stop that comes before everything else is missed, and the workers are started. If the first worker cannot be
started, the second one is not started either, although it is wanted. -/
theorem workers_started_after_stop :
    (∃ f, Fleet.run (allBut 0) { plan := twoWorkers, files := {} }
          (.act .stop :: List.replicate 6 (.act (.file none))) = f
        ∧ f.stopped = true
        ∧ workerStarts (f.step (allBut 0) (.ready (.ok true))).2
          = workerLines twoWorkers.tools [] 1 ["/harness-worker.a-01", "/harness-worker.a-02"])
      ∧ ∃ f, Fleet.run (allBut 1) { plan := twoWorkers, files := {} } (List.replicate 6 (.act (.file none))) = f
        ∧ f.stopped = false ∧ f.outcome? = none ∧ f.stores = ["/harness-worker.a-01", "/harness-worker.a-02"]
        ∧ workerStarts (f.step (allBut 1) (.ready (.ok true))).2
          = workerLines twoWorkers.tools [] 1 ["/harness-worker.a-01"] :=
  ⟨⟨_, run_twoServing_of_stopped 0 true, rfl, rfl⟩, _, run_twoServing 1, rfl, rfl, rfl, rfl⟩

end Fleet

end Bailiff
