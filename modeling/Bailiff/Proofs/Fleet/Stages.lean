-- SUMMARY: The stages of a supervision that no signal reaches: first its fleet runs, then the sweep goes its way.
import Bailiff.Proofs.Fleet.Clearing
import Bailiff.Proofs.Fleet.Survivors

/-!
# Stages

Without a signal the sweep begins when the run has settled, so that no store is made after the root has been
listed. A supervision is therefore at one of two stages (`Supervision.Stage`): its fleet runs and nothing has been
swept, or the files are those that the fleet has left and the sweep is on its way. Every step keeps this
(`Supervision.Stage.step`).
-/

namespace Bailiff

namespace Supervision

variable {launcher : Fleet.Launcher} {start s : Supervision} {acts : List Action} {a : Action} {ps ws : List String}
  {octets : List Nat}

/-- The fleet runs and nothing has been swept. -/
structure Runs (start : Supervision) (ps : List String) (s : Supervision) : Prop where
  cleanup : s.scope.cleanup = .idle
  work : s.scope.work = none
  plan : s.fleet.plan = start.fleet.plan
  sweep : s.sweep = { root := start.fleet.plan.storeRoot }
  prepared : s.fleet.Prepared ps start.fleet.files

/-- The fleet has settled and has left some files, which are swept unless it was a shell. -/
structure Sweeps (launcher : Fleet.Launcher) (start : Supervision) (ps : List String) (acts : List Action)
    (s : Supervision) (r : RunResult) (t : FileTree) : Prop where
  settled : s.fleet.phase = .settled r
  work : s.scope.work = some r
  moment : ∃ before, before <+: acts ∧ (start.run launcher before).1.fleet.files = t
  prepares : Fleet.Prepares start.fleet.plan ps start.fleet.files t
  shell : start.fleet.plan.mode = .shell → s.sweep.phase = .done ∧ s.fleet.files = t
  kept : ∀ m n, s.fleet.files.at? m = some n → t.at? m = some n
  course : start.fleet.plan.mode ≠ .shell → ¬GaveUp launcher start acts →
    (∀ f, Sweep.storesBelow t start.fleet.plan.storeRoot ≠ .error f) →
    Sweep.Course t start.fleet.plan.storeRoot s.fleet.files s.sweep

/-- How far a supervision has come that no signal has reached. -/
inductive Stage (launcher : Fleet.Launcher) (start : Supervision) (ps : List String) (acts : List Action)
    (s : Supervision) : Prop where
  | runs (h : Runs start ps s)
  | sweeps {r : RunResult} {t : FileTree} (h : Sweeps launcher start ps acts s r t)

variable {r : RunResult} {t : FileTree}

/-! ## Steps of the scope -/

/-- The ends that reach the scope change nothing else. -/
theorem step_scope (launcher : Fleet.Launcher) (s : Supervision) (ha : a = .swept ∨ a = .exit ∨ a = .settle) :
    ∃ scope, (s.step launcher a).1 = { s with scope } ∧ scope.work = s.scope.work
      ∧ (scope.cleanup = .idle ↔ s.scope.cleanup = .idle) := by
  rcases ha with rfl | rfl | rfl
  · simp only [step]
    split
    next hdue =>
      simp only [sweptDue, Bool.and_eq_true, decide_eq_true_eq] at hdue
      refine ⟨{ s.scope with cleanup := .finished }, rfl, rfl, ?_⟩
      simp [hdue.1]
    · exact ⟨s.scope, rfl, rfl, Iff.rfl⟩
  · simp only [step]
    split
    · rw [inScope, performAll_outward (isOutward_exit s.scope)]
      exact ⟨_, rfl, rfl, Iff.rfl⟩
    · exact ⟨s.scope, rfl, rfl, Iff.rfl⟩
  · simp only [step]
    split
    · rw [inScope, performAll_outward (isOutward_settle s.scope)]
      refine ⟨_, rfl, ?_⟩
      unfold Scope.settle
      split <;> exact ⟨rfl, Iff.rfl⟩
    · exact ⟨s.scope, rfl, rfl, Iff.rfl⟩

/-- When the run has settled, the sweep begins, and a shell has none. -/
theorem step_runEnds (launcher : Fleet.Launcher) {r : RunResult} (hresult : s.fleet.result? = some r)
    (hwork : s.scope.work = none) (hcleanup : s.scope.cleanup = .idle) : (s.step launcher .runEnds).1
      = { s with scope := { s.scope with work := some r, cleanup := .running }, sweep := s.sweepBegun } := by
  have hends : s.scope.workEnds r = ({ s.scope with work := some r, cleanup := .running }, [.beginCleanup]) :=
    Scope.startCleanup_idle (s := { s.scope with work := some r }) hcleanup
  simp only [step, hresult, hwork, Option.isNone_none, if_true, inScope, hends, performAll_beginCleanup]
  rfl

theorem phase_of_result? {f : Fleet} {r : RunResult} (h : f.result? = some r) : f.phase = .settled r := by
  unfold Fleet.result? at h
  split at h
  next hphase =>
    cases h
    exact hphase
  · cases h

/-! ## Steps of a stage -/

theorem not_gaveUp_before (h : ¬GaveUp launcher start (acts ++ [a])) : ¬GaveUp launcher start acts :=
  fun hup => h (once_concat.mpr (.inl hup))

theorem Sweeps.later (h : Sweeps launcher start ps acts s r t) (a : Action) :
    Sweeps launcher start ps (acts ++ [a]) s r t := by
  obtain ⟨before, hbefore, htree⟩ := h.moment
  exact { h with
    moment := ⟨before, hbefore.trans (List.prefix_append acts [a]), htree⟩
    course := fun hmode hnot => h.course hmode (not_gaveUp_before hnot) }

theorem Stage.later (h : Stage launcher start ps acts s) (a : Action) : Stage launcher start ps (acts ++ [a]) s := by
  cases h with
  | runs h => exact .runs h
  | sweeps h => exact .sweeps (h.later a)

/-- What happens to the scope alone leaves a supervision at its stage, unless the cleanup begins. -/
theorem Stage.scope (h : Stage launcher start ps acts s) {scope : Scope (Option Int)}
    (hwork : scope.work = s.scope.work) (hidle : scope.cleanup = .idle ↔ s.scope.cleanup = .idle) (a : Action) :
    Stage launcher start ps (acts ++ [a]) { s with scope } := by
  cases h with
  | runs h => exact .runs { h with cleanup := hidle.mpr h.cleanup, work := hwork.trans h.work }
  | sweeps h => exact .sweeps { h.later a with work := hwork.trans h.work }

/-- When the run ends, the sweep begins with the files of that moment. -/
theorem Runs.ends (h : Runs start ps s) (hnow : (start.run launcher acts).1 = s) (hresult : s.fleet.result? = some r) :
    Sweeps launcher start ps (acts ++ [.runEnds]) (s.step launcher .runEnds).1 r s.fleet.files := by
  rw [step_runEnds launcher hresult h.work h.cleanup]
  constructor
  case settled => exact phase_of_result? hresult
  case work => rfl
  case moment => exact ⟨acts, List.prefix_append acts _, by rw [hnow]⟩
  case prepares => exact h.plan ▸ h.prepared.prepares
  case shell =>
    intro hmode
    rw [sweepBegun, h.plan, if_pos hmode]
    exact ⟨rfl, rfl⟩
  case kept => exact fun _ _ hn => hn
  case course =>
    intro hmode _ _
    rw [sweepBegun, h.plan, if_neg hmode, h.sweep]
    exact .begins

/-- The fleet does no more. -/
theorem Sweeps.fleet (h : Sweeps launcher start ps acts s r t) (a : Fleet.Action) :
    Sweeps launcher start ps (acts ++ [.fleet a]) (s.step launcher (.fleet a)).1 r t := by
  obtain ⟨hfiles, hsettled⟩ := Fleet.step_settled launcher h.settled a
  have hfiles : (s.step launcher (.fleet a)).1.fleet.files = s.fleet.files := hfiles
  have hlater := h.later (.fleet a)
  refine ⟨hsettled, hlater.work, hlater.moment, hlater.prepares, ?_, ?_, ?_⟩
  all_goals rw [hfiles]
  · exact hlater.shell
  · exact hlater.kept
  · exact hlater.course

theorem Sweeps.sweep (h : Sweeps launcher start ps acts s r t) (hnow : (start.run launcher acts).1 = s)
    (fault : Option FileFault) :
    Sweeps launcher start ps (acts ++ [.sweep fault]) (s.step launcher (.sweep fault)).1 r t := by
  have hlater := h.later (.sweep fault)
  have hmove := Sweep.move_step fault s.fleet.files s.sweep
  refine ⟨hlater.settled, hlater.work, hlater.moment, hlater.prepares, fun hmode => ?_, ?_, fun hmode hnot hlists => ?_⟩
  · -- A sweep that is over does nothing.
    obtain ⟨hdone, hfiles⟩ := h.shell hmode
    simp only [Supervision.step, Sweep.step, hdone]
    exact ⟨trivial, hfiles⟩
  · exact fun m n hn => h.kept m n (hmove.kept hn)
  · have hbegun := hlater.course hmode hnot hlists
    refine hbegun.move hmove fun hscanning => ⟨?_, ?_⟩
    · cases fault with
      | none => rfl
      | some f =>
        refine absurd (once_concat.mpr (.inr ?_)) hnot
        exact ⟨by rw [hnow, hscanning], f, rfl⟩
    · rwa [(hbegun.scanning hscanning).1, hbegun.root_eq]

/-- Without a signal, every step leaves a supervision at a stage. -/
theorem Stage.step (hnow : (start.run launcher acts).1 = s) (h : Stage launcher start ps acts s)
    (hspells : Fleet.Spells start.fleet.plan ps ws octets) (hquiet : ∀ name, a ≠ .signal name) :
    Stage launcher start ps (acts ++ [a]) (s.step launcher a).1 := by
  cases a with
  | signal name => exact absurd rfl (hquiet name)
  | swept =>
    obtain ⟨scope, hstep, hwork, hidle⟩ := @step_scope .swept launcher s (.inl rfl)
    exact hstep ▸ h.scope hwork hidle .swept
  | exit =>
    obtain ⟨scope, hstep, hwork, hidle⟩ := @step_scope .exit launcher s (.inr (.inl rfl))
    exact hstep ▸ h.scope hwork hidle .exit
  | settle =>
    obtain ⟨scope, hstep, hwork, hidle⟩ := @step_scope .settle launcher s (.inr (.inr rfl))
    exact hstep ▸ h.scope hwork hidle .settle
  | fleet a =>
    cases h with
    | runs h =>
      have hplan := (Fleet.builds_step launcher s.fleet a).plan.trans h.plan
      exact .runs ⟨h.cleanup, h.work, hplan, h.sweep, h.prepared.step (h.plan ▸ hspells) launcher a⟩
    | sweeps h => exact .sweeps (h.fleet a)
  | runEnds =>
    cases hresult : s.fleet.result? with
    | none =>
      have hstep : (s.step launcher .runEnds).1 = s := by simp only [Supervision.step, hresult]
      exact hstep.symm ▸ h.later .runEnds
    | some r =>
      cases h with
      | runs h => exact .sweeps (h.ends hnow hresult)
      | sweeps h =>
        have hstep : (s.step launcher .runEnds).1 = s := by simp [Supervision.step, hresult, h.work]
        exact hstep.symm ▸ .sweeps (h.later .runEnds)
  | sweep fault =>
    cases h with
    | runs h =>
      have hstep : (s.step launcher (.sweep fault)).1 = s := by
        simp only [Supervision.step, Sweep.step, h.sweep]
        rw [← h.sweep]
      exact hstep.symm ▸ .runs h
    | sweeps h => exact .sweeps (h.sweep hnow fault)

/-! ## Runs -/

variable {plan : FleetPlan} {files : FileTree}

theorem stage_begin (launcher : Fleet.Launcher) (plan : FleetPlan) (ps : List String) (hclosed : files.Closed) :
    Stage launcher (begin launcher plan files) ps [] (begin launcher plan files) := by
  refine .runs ⟨rfl, rfl, rfl, rfl, ?_⟩
  exact ⟨Fleet.prepares_refl plan ps hclosed, fun _ => .inl ⟨rfl, rfl⟩, nofun, fun _ _ => rfl⟩

theorem stage_run (launcher : Fleet.Launcher) (hclosed : files.Closed) (hspells : Fleet.Spells plan ps ws octets)
    (acts : List Action) (hquiet : ∀ a ∈ acts, ∀ name, a ≠ .signal name) :
    Stage launcher (begin launcher plan files) ps acts ((begin launcher plan files).run launcher acts).1 := by
  induction acts using List.reverseRecOn with
  | nil => exact stage_begin launcher plan ps hclosed
  | append_singleton acts a ih =>
    rw [run_concat]
    have hbefore := ih fun b hb => hquiet b (List.mem_append_left _ hb)
    exact hbefore.step rfl hspells (hquiet a (by simp))

theorem distinct_run (h : start.fleet.files.Distinct) (acts : List Action) :
    (start.run launcher acts).1.fleet.files.Distinct := by
  induction acts using List.reverseRecOn with
  | nil => exact h
  | append_singleton acts a ih =>
    have hmove := move_step launcher (start.run launcher acts).1 a
    rw [run_concat]
    dsimp only
    generalize ((start.run launcher acts).1.step launcher a).1 = s' at hmove ⊢
    generalize ((start.run launcher acts).1.step launcher a).2 = effects at hmove
    cases hmove with
    | goesOn _ hbuilds => exact hbuilds.files.distinct ih
    | begins _ _ hbuilds => exact hbuilds.files.distinct ih
    | ends _ hfleet => rwa [hfleet]
    | sweeps fault hmove =>
      cases hmove with
      | drops _ hremove => exact Sweep.distinct_removePath hremove ih
      | rests | givesUp | lists | keeps => exact ih

theorem sound_run (h : start.scope.Sound) (acts : List Action) : (start.run launcher acts).1.scope.Sound := by
  induction acts using List.reverseRecOn with
  | nil => exact h
  | append_singleton acts a ih =>
    rw [run_concat]
    exact sound_step ih a

end Supervision

end Bailiff
