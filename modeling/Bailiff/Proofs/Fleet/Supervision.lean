-- SUMMARY: Every run of a supervision: what its steps do to the files, and when its sweep begins and ends.
import Mathlib.Data.List.Induction
import Bailiff.Fleet.Supervision
import Bailiff.Proofs.Fleet.Moves
import Bailiff.Proofs.Fleet.Sweep
import Bailiff.Proofs.Scope.Record

/-!
# Runs of a supervision

A run is a list of actions in any order: steps of the fleet, signals, steps of the sweep, and the ends that
reach the scope. The steps of the fleet only add to the files (`Fleet.builds_step`), so all that is ever taken
away is taken by the sweep. One inversion of the step (`Supervision.move_step`) says what it can do to files,
sweep and cleanup; from it follows that the sweep is over once the scope has exited or settled
(`Supervision.InOrder.run`).
-/

namespace Bailiff

/-! ## Steps of the fleet -/

namespace Fleet

variable {f g : Fleet}

/-- The plan stays, and the files grow. -/
structure Builds (f g : Fleet) : Prop where
  plan : g.plan = f.plan
  files : f.files.Grows g.files

theorem builds_same (hplan : g.plan = f.plan) (hfiles : g.files = f.files) : f.Builds g :=
  ⟨hplan, hfiles ▸ .refl _⟩

theorem Builds.trans {h : Fleet} (hfg : f.Builds g) (hgh : g.Builds h) : f.Builds h :=
  ⟨hgh.plan.trans hfg.plan, hfg.files.trans hgh.files⟩

theorem builds_files {files : FileTree} (h : f.files.Grows files) : f.Builds { f with files } := ⟨rfl, h⟩

theorem builds_writeMarker (f : Fleet) (count : Binary64) : f.Builds (f.writeMarker count).1 := by
  have hgrows := @FileTree.writeText_grows f.files [] f.plan.workersFile (count.text ++ "\n")
  unfold Fleet.writeMarker
  generalize f.files.writeText [] f.plan.workersFile (count.text ++ "\n") = written at hgrows ⊢
  obtain ⟨files, answer⟩ := written
  exact builds_files hgrows

theorem builds_allocated (f : Fleet) (done : List String) : f.Builds (f.allocated done).1 := by
  unfold Fleet.allocated
  split <;> exact builds_same rfl rfl

theorem builds_serverEnds (f : Fleet) (r : RunResult) : f.Builds (f.serverEnds r).1 := by
  unfold Fleet.serverEnds
  split <;> exact builds_same rfl rfl

theorem builds_launchWorkers (launcher : Launcher) (f : Fleet) : f.Builds (f.launchWorkers launcher).1 := by
  obtain ⟨count, starts, effects, answer, heq, -⟩ := launchWorkers_eq launcher f
  rw [heq]
  exact builds_same rfl rfl

theorem builds_enterMode (launcher : Launcher) (f : Fleet) : f.Builds (f.enterMode launcher).1 := by
  have hworkers := builds_launchWorkers launcher f
  unfold Fleet.enterMode
  split
  · split
    all_goals
      next heq =>
        rw [heq] at hworkers
        exact hworkers.trans (builds_same rfl rfl)
  · exact builds_same rfl rfl
  · exact builds_same rfl rfl
  · dsimp only
    split <;> exact builds_same rfl rfl

theorem builds_startServer (launcher : Launcher) (f : Fleet) (store : String) :
    f.Builds (f.startServer launcher store).1 := by
  unfold Fleet.startServer
  split
  next l failure heq =>
    exact (builds_same rfl rfl : f.Builds (f.took l)).trans (builds_serverEnds (f.took l) (.error failure))
  next => exact builds_same rfl rfl

theorem builds_settle (f : Fleet) (r : RunResult) : f.Builds (f.settle r).1 := builds_same rfl rfl

/-- What follows the writing of the marker. -/
theorem Builds.marked {count : Binary64} {answer : Except FileFault Unit} (heq : f.writeMarker count = (g, answer)) :
    f.Builds g := by
  have hmarked := builds_writeMarker f count
  rwa [heq] at hmarked

theorem builds_fileStep (launcher : Launcher) (f : Fleet) : f.Builds (f.fileStep launcher).1 := by
  unfold Fleet.fileStep
  split
  · split
    next fleet fault heq => exact (Builds.marked heq).trans (builds_settle fleet _)
    next fleet heq =>
      split
      · exact (Builds.marked heq).trans (builds_allocated fleet [])
      · exact (Builds.marked heq).trans (builds_enterMode launcher fleet)
  next made _ =>
    dsimp only
    split
    · exact builds_settle f _
    next files heq =>
      exact (builds_files (FileTree.makeDirectories_grows heq)).trans (builds_allocated { f with files } _)
  · split
    next fleet fault heq => exact (Builds.marked heq).trans (builds_settle fleet _)
    next fleet heq => exact (Builds.marked heq).trans (builds_enterMode launcher fleet)
  · split
    · exact builds_serverEnds f _
    next files heq => exact (builds_files (FileTree.makeDirectories_grows heq)).trans (builds_same rfl rfl)
  · dsimp only
    split
    next fault heq =>
      exact (builds_same rfl rfl : f.Builds { f with temporaries := f.temporaries + 1 }).trans
        (builds_serverEnds { f with temporaries := f.temporaries + 1 } _)
    next files store heq =>
      have hmade : f.Builds { f with files, temporaries := f.temporaries + 1 } :=
        ⟨rfl, FileTree.makeTemporary_grows heq⟩
      exact hmade.trans (builds_startServer launcher _ store)
  · exact builds_same rfl rfl

theorem builds_fileFails (f : Fleet) (fault : FileFault) : f.Builds (f.fileFails fault).1 := by
  unfold Fleet.fileFails
  split
  · exact builds_serverEnds f _
  · exact builds_serverEnds f _
  · split <;> exact builds_same rfl rfl

theorem builds_concludes (f : Fleet) : f.Builds f.concludes.1 := by
  unfold Fleet.concludes
  split
  · split
    · exact builds_serverEnds f _
    · exact builds_serverEnds f _
    · exact builds_same rfl rfl
  · split
    · exact builds_settle f _
    · split <;> exact builds_same rfl rfl
    · exact builds_same rfl rfl
  · exact builds_same rfl rfl

theorem builds_terminateWorkers (f : Fleet) : f.Builds f.terminateWorkers.1 := by
  rw [terminateWorkers_eq]
  exact builds_same rfl rfl

theorem builds_dismissWorkers (f : Fleet) : f.Builds f.dismissWorkers.1 := by
  rw [dismissWorkers_eq]
  exact builds_same rfl rfl

theorem builds_gathers (f : Fleet) : f.Builds f.gathers.1 := by
  have hasked := builds_terminateWorkers f
  unfold Fleet.gathers
  split
  case h_1 =>
    rw [if_pos rfl]
    split
    · exact hasked.trans (builds_same rfl rfl)
    · split <;> exact builds_same rfl rfl
  case h_2 =>
    rw [if_neg Bool.false_ne_true]
    split
    · split
      · exact hasked.trans (builds_same rfl rfl)
      · split <;> exact builds_same rfl rfl
    · exact builds_same rfl rfl

theorem builds_becomesReady (launcher : Launcher) (f : Fleet) (answer : Except Failure Bool) :
    f.Builds (f.becomesReady launcher answer).1 := by
  have hlaunched := builds_launchWorkers launcher f
  unfold Fleet.becomesReady
  split
  · exact builds_same rfl rfl
  · exact builds_same rfl rfl
  · split
    all_goals
      next heq =>
        rw [heq] at hlaunched
        exact hlaunched.trans (builds_same rfl rfl)

/-- No step of a fleet takes anything away from the files. -/
theorem builds_step (launcher : Launcher) (f : Fleet) (a : Action) : f.Builds (f.step launcher a).1 := by
  cases a with
  | file fault =>
    cases fault with
    | none => exact builds_fileStep launcher f
    | some fault => exact builds_fileFails f fault
  | ready answer =>
    simp only [Fleet.step]
    split
    · exact builds_becomesReady launcher f answer
    · exact builds_same rfl rfl
  | windowOver =>
    simp only [Fleet.step]
    split
    · split
      · exact builds_same rfl rfl
      · exact (builds_dismissWorkers f).trans (builds_same rfl rfl)
    · exact builds_same rfl rfl
  | cancel =>
    simp only [Fleet.step]
    split <;> exact builds_same rfl rfl
  | conclude => exact builds_concludes f
  | gather => exact builds_gathers f
  | join =>
    simp only [Fleet.step]
    split
    · split <;> exact builds_same rfl rfl
    · exact builds_same rfl rfl
  | exited | failed | stop => exact builds_same rfl rfl

end Fleet

namespace Supervision

open Scope (startCleanup_idle startCleanup_of_ne signal_unheard signal_again signal_first)

variable {launcher : Fleet.Launcher} {s s' : Supervision}

/-! ## Runs -/

/-- What a list of actions leads to, and all that is done on the way. -/
def run (launcher : Fleet.Launcher) (s : Supervision) (acts : List Action) : Supervision × List Effect :=
  acts.foldl (fun r a => ((r.1.step launcher a).1, r.2 ++ (r.1.step launcher a).2)) (s, [])

@[simp] theorem run_nil (launcher : Fleet.Launcher) (s : Supervision) : s.run launcher [] = (s, []) := rfl

theorem run_concat (launcher : Fleet.Launcher) (s : Supervision) (acts : List Action) (a : Action) :
    s.run launcher (acts ++ [a])
      = (((s.run launcher acts).1.step launcher a).1,
          (s.run launcher acts).2 ++ ((s.run launcher acts).1.step launcher a).2) := by
  rw [run, List.foldl_append]
  rfl

/-- The state after a first action and others. -/
theorem run_cons (launcher : Fleet.Launcher) (s : Supervision) (a : Action) (acts : List Action) :
    (s.run launcher (a :: acts)).1 = ((s.step launcher a).1.run launcher acts).1 := by
  induction acts using List.reverseRecOn with
  | nil => rfl
  | append_singleton acts b ih => rw [← List.cons_append, run_concat, run_concat, ih]

/-- What holds at every moment of a run holds now and at every moment after the first action. -/
theorem forall_run_cons (launcher : Fleet.Launcher) (s : Supervision) (a : Action) (acts : List Action)
    (P : Supervision → Prop) : (∀ before, before <+: a :: acts → P (s.run launcher before).1)
      ↔ P s ∧ ∀ before, before <+: acts → P ((s.step launcher a).1.run launcher before).1 := by
  constructor
  · intro h
    refine ⟨h [] List.nil_prefix, fun before hbefore => ?_⟩
    rw [← run_cons]
    exact h (a :: before) (List.cons_prefix_cons.mpr ⟨rfl, hbefore⟩)
  · rintro ⟨hstart, h⟩ before hbefore
    rcases List.prefix_cons_iff.mp hbefore with rfl | ⟨rest, rfl, hrest⟩
    · exact hstart
    · rw [run_cons]
      exact h rest hrest

/-- A supervision of a plan that has just begun. -/
def begin (launcher : Fleet.Launcher) (plan : FleetPlan) (files : FileTree) : Supervision :=
  ((make plan files).enter launcher).1

/-! ## Effects of the scope -/

/-- Effects that are seen outside only. -/
def IsOutward : Scope.Effect → Prop
  | .stop _ => False
  | .beginCleanup => False
  | _ => True

theorem performAll_cons (e : Scope.Effect) (rest : List Scope.Effect) :
    (performAll launcher s (e :: rest)).1 = (performAll launcher (s.perform launcher e).1 rest).1 := rfl

theorem performAll_outward {effects : List Scope.Effect} (h : ∀ e ∈ effects, IsOutward e) :
    (performAll launcher s effects).1 = s := by
  induction effects generalizing s with
  | nil => rfl
  | cons e rest ih =>
    rw [List.forall_mem_cons] at h
    rw [performAll_cons]
    cases e with
    | stop => exact h.1.elim
    | beginCleanup => exact h.1.elim
    | log | attach | detach | exit => exact ih h.2

/-- The sweep as the beginning of the cleanup leaves it. A shell has none. -/
def sweepBegun (s : Supervision) : Sweep :=
  if s.fleet.plan.mode = .shell then { s.sweep with phase := .done } else s.sweep.start.1

theorem performAll_beginCleanup :
    (performAll launcher s [.beginCleanup]).1 = { s with sweep := s.sweepBegun } := by
  rw [performAll_cons, performAll_outward (by simp)]
  unfold perform sweepBegun
  dsimp only
  split <;> rfl

/-! ## Moves -/

def Action.isSweep : Action → Bool
  | .sweep _ => true
  | _ => false

/-- What a step can do to files, sweep and cleanup. -/
inductive Move (s : Supervision) : Action → Supervision → List Effect → Prop where
  /-- The fleet goes on, or something happens that is not about the cleanup. -/
  | goesOn {a : Action} {s' : Supervision} {effects : List Effect} (hother : a.isSweep = false)
      (hbuilds : s.fleet.Builds s'.fleet) (hsweep : s'.sweep = s.sweep)
      (hcleanup : s'.scope.cleanup = s.scope.cleanup) : Move s a s' effects
  /-- The cleanup begins, because the run has ended or a signal has come. -/
  | begins {a : Action} {s' : Supervision} {effects : List Effect} (hother : a.isSweep = false)
      (hidle : s.scope.cleanup = .idle) (hbuilds : s.fleet.Builds s'.fleet) (hsweep : s'.sweep = s.sweepBegun)
      (hcleanup : s'.scope.cleanup = .running) : Move s a s' effects
  | sweeps (fault : Option FileFault) {files : FileTree} {sweep : Sweep} {events : List Event}
      (hmove : s.sweep.Move fault s.fleet.files files sweep events) :
      Move s (.sweep fault) { s with fleet := { s.fleet with files }, sweep } (logged events)
  /-- The end of the sweep reaches the scope. -/
  | ends {s' : Supervision} {effects : List Effect} (hdone : s.sweep.phase = .done)
      (hfleet : s'.fleet = s.fleet) (hsweep : s'.sweep = s.sweep) (hcleanup : s'.scope.cleanup = .finished) :
      Move s .swept s' effects

variable {a : Action}

theorem move_same (hother : a.isSweep = false) (effects : List Effect) : s.Move a s effects :=
  .goesOn hother ⟨rfl, .refl _⟩ rfl rfl

/-- A step of the scope that starts the cleanup, unless it has been started before. -/
theorem move_startCleanup (hother : a.isSweep = false) {fleet : Fleet} (hbuilds : s.fleet.Builds fleet)
    (scope : Scope (Option Int)) (hcleanup : scope.cleanup = s.scope.cleanup) (effects : List Effect) :
    s.Move a (performAll launcher { s with fleet, scope := scope.startCleanup.1 } scope.startCleanup.2).1 effects := by
  by_cases hidle : scope.cleanup = .idle
  · rw [startCleanup_idle hidle, performAll_beginCleanup]
    refine .begins hother (hcleanup ▸ hidle) hbuilds ?_ rfl
    simp only [sweepBegun, hbuilds.plan]
  · rw [startCleanup_of_ne hidle]
    exact .goesOn hother hbuilds rfl hcleanup

theorem move_signal (name : String) :
    s.Move (.signal name) (s.step launcher (.signal name)).1 (s.step launcher (.signal name)).2 := by
  generalize (s.step launcher (.signal name)).2 = effects
  simp only [step, inScope]
  cases hlisten : s.scope.attached && s.scope.registered.contains name with
  | false =>
    rw [signal_unheard hlisten]
    exact move_same rfl effects
  | true =>
    cases hreason : s.scope.reason with
    | some first =>
      rw [signal_again hlisten (by rw [hreason]; rfl)]
      exact move_same rfl effects
    | none =>
      obtain ⟨e, hsignal⟩ := signal_first hlisten hreason name
      rw [hsignal, performAll_cons, performAll_cons]
      exact move_startCleanup rfl (Fleet.builds_step launcher s.fleet .stop) { s.scope with reason := some name }
        rfl effects

theorem isOutward_exit (scope : Scope (Option Int)) : ∀ e ∈ scope.exit.2, IsOutward e := by
  intro e he
  simp only [Scope.exit, List.mem_append, List.mem_map, Option.mem_toList, Option.map_eq_some_iff] at he
  rcases he with ⟨name, -, rfl⟩ | ⟨reason, -, rfl⟩ <;> trivial

theorem isOutward_settle (scope : Scope (Option Int)) : ∀ e ∈ scope.settle.2, IsOutward e := by
  intro e he
  unfold Scope.settle at he
  split at he
  · cases he
  · obtain ⟨name, -, rfl⟩ := List.mem_map.mp he
    trivial

theorem move_step (launcher : Fleet.Launcher) (s : Supervision) (a : Action) :
    s.Move a (s.step launcher a).1 (s.step launcher a).2 := by
  cases a with
  | fleet a => exact .goesOn rfl (Fleet.builds_step launcher s.fleet a) rfl rfl
  | signal name => exact move_signal name
  | runEnds =>
    generalize (s.step launcher .runEnds).2 = effects
    simp only [step]
    split
    next r hr =>
      split
      · exact move_startCleanup rfl ⟨rfl, .refl _⟩ { s.scope with work := some r } rfl effects
      · exact move_same rfl effects
    · exact move_same rfl effects
  | sweep fault => exact .sweeps fault (Sweep.move_step fault s.fleet.files s.sweep)
  | swept =>
    generalize (s.step launcher .swept).2 = effects
    simp only [step]
    split
    next hdue =>
      simp only [sweptDue, Sweep.isDone, Bool.and_eq_true, decide_eq_true_eq] at hdue
      exact .ends hdue.2 rfl rfl rfl
    · exact move_same rfl effects
  | exit =>
    generalize (s.step launcher .exit).2 = effects
    simp only [step]
    split
    · rw [inScope, performAll_outward (isOutward_exit s.scope)]
      exact .goesOn rfl ⟨rfl, .refl _⟩ rfl rfl
    · exact move_same rfl effects
  | settle =>
    generalize (s.step launcher .settle).2 = effects
    simp only [step]
    split
    · rw [inScope, performAll_outward (isOutward_settle s.scope)]
      refine .goesOn rfl ⟨rfl, .refl _⟩ rfl ?_
      unfold Scope.settle
      split <;> rfl
    · exact move_same rfl effects

/-! ## Order -/

/-- The effects of the scope do not reach back to it. -/
theorem scope_performAll (effects : List Scope.Effect) : (performAll launcher s effects).1.scope = s.scope := by
  induction effects generalizing s with
  | nil => rfl
  | cons e rest ih =>
    rw [performAll_cons, ih]
    cases e with
    | beginCleanup =>
      unfold perform
      dsimp only
      split <;> rfl
    | log | attach | detach | stop | exit => rfl

theorem sound_step (h : s.scope.Sound) (a : Action) : (s.step launcher a).1.scope.Sound := by
  cases a with
  | fleet a => exact h
  | sweep fault => exact h
  | signal name =>
    rw [step, inScope, scope_performAll]
    exact h.signal name name
  | runEnds =>
    simp only [step]
    split
    next r hr =>
      split
      next hwork =>
        rw [inScope, scope_performAll]
        exact h.workEnds (Option.isNone_iff_eq_none.mp hwork) r
      · exact h
    · exact h
  | swept =>
    simp only [step]
    split
    next hdue =>
      simp only [sweptDue, Bool.and_eq_true, decide_eq_true_eq] at hdue
      rw [inScope, scope_performAll]
      exact h.cleanupEnds hdue.1 none
    · exact h
  | exit =>
    simp only [step]
    split
    next hdue =>
      rw [inScope, scope_performAll]
      exact h.exit hdue
    · exact h
  | settle =>
    simp only [step]
    split
    next hdue =>
      rw [inScope, scope_performAll]
      exact h.settle hdue
    · exact h

/-- How scope and sweep keep step with each other. The sweep is idle before the cleanup and done after it, and
nothing has failed before the root has been listed. -/
structure InOrder (plan : FleetPlan) (s : Supervision) : Prop where
  plan_eq : s.fleet.plan = plan
  root_eq : s.sweep.root = plan.storeRoot
  sound : s.scope.Sound
  idle : s.scope.cleanup = .idle → s.sweep.phase = .idle
  finished : s.scope.cleanup = .finished → s.sweep.phase = .done
  unlisted : ¬s.sweep.HasListed → s.sweep.failed = []

theorem inOrder_begin (launcher : Fleet.Launcher) (plan : FleetPlan) (files : FileTree) :
    (begin launcher plan files).InOrder plan := by
  have hattach : ∀ e ∈ ((make plan files).scope.enter).2, IsOutward e := by
    intro e he
    obtain ⟨name, -, rfl⟩ := List.mem_map.mp he
    trivial
  have hbegin : begin launcher plan files = { make plan files with scope := (make plan files).scope.enter.1 } := by
    rw [begin, enter, inScope]
    exact performAll_outward hattach
  rw [hbegin]
  exact ⟨rfl, rfl, Scope.sound_enter, fun _ => rfl, nofun, fun _ => rfl⟩

variable {plan : FleetPlan}

theorem InOrder.step (h : s.InOrder plan) (hmode : plan.mode ≠ .shell) (a : Action) :
    (s.step launcher a).1.InOrder plan := by
  have hsound := @sound_step launcher s h.sound a
  have hmove := move_step launcher s a
  generalize (s.step launcher a).1 = s', (s.step launcher a).2 = effects at hsound hmove ⊢
  cases hmove with
  | goesOn hother hbuilds hsweep hcleanup =>
    refine ⟨hbuilds.plan.trans h.plan_eq, ?_, hsound, ?_, ?_, ?_⟩
    · rw [hsweep, h.root_eq]
    · rw [hsweep, hcleanup]
      exact h.idle
    · rw [hsweep, hcleanup]
      exact h.finished
    · rw [hsweep]
      exact h.unlisted
  | begins hother hidle hbuilds hsweep hcleanup =>
    have hstarted : s'.sweep = s.sweep.start.1 := by
      rw [hsweep, sweepBegun, if_neg (by rw [h.plan_eq]; exact hmode)]
    refine ⟨hbuilds.plan.trans h.plan_eq, ?_, hsound, ?_, ?_, ?_⟩
    · rw [hstarted]
      exact h.root_eq
    · simp [hcleanup]
    · simp [hcleanup]
    · intro _
      rw [hstarted]
      exact h.unlisted fun hlisted => hlisted.1 (h.idle hidle)
  | sweeps fault hmove =>
    refine ⟨h.plan_eq, hmove.root_eq.trans h.root_eq, hsound, ?_, ?_, ?_⟩
    · intro hidle
      rw [hmove.eq_of_rest (.inl (h.idle hidle))]
      exact h.idle hidle
    · intro hfinished
      rw [hmove.eq_of_rest (.inr (h.finished hfinished))]
      exact h.finished hfinished
    · intro hunlisted
      rcases hmove.hasListed with hsame | hlisted
      · rw [hsame] at hunlisted ⊢
        exact h.unlisted hunlisted
      · exact absurd hlisted hunlisted
  | ends hdone hfleet hsweep hcleanup =>
    refine ⟨hfleet ▸ h.plan_eq, hsweep ▸ h.root_eq, hsound, ?_, fun _ => hsweep ▸ hdone, hsweep ▸ h.unlisted⟩
    simp [hcleanup]

theorem InOrder.run (h : s.InOrder plan) (hmode : plan.mode ≠ .shell) (acts : List Action) :
    (s.run launcher acts).1.InOrder plan := by
  induction acts using List.reverseRecOn with
  | nil => exact h
  | append_singleton acts a ih =>
    rw [run_concat]
    exact ih.step hmode a

/-- Once the scope has exited, the sweep has nothing more to do. -/
theorem InOrder.done (h : s.InOrder plan) (hexited : s.scope.exited = true) : s.sweep.phase = .done :=
  h.finished (h.sound.exited hexited).1

end Supervision

end Bailiff
