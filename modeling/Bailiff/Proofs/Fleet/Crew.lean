-- SUMMARY: Workers without a server: when a run with them settles, and with what.
import Bailiff.Proofs.Fleet.Starts
import Bailiff.Proofs.Fleet.Stocking
import Bailiff.Proofs.Fleet.Survivors
import Bailiff.Proofs.Settings.WorkerCount

/-!
# Workers without a server

A run with workers and no server is a crew: it makes the stores, starts a worker on each of them, and waits for all.
One relation says all that a step can do to it (`Fleet.CrewMove`), and the waits that fail are listed in the order in
which they do (`Fleet.failures`). From that follows how a run settles (`Fleet.CrewEnds`): with the worst of the exit
codes when all workers have exited, or with the first failing wait after the others were asked to end. The case left
over is a launch that breaks off: the workers that it had started run on, and nobody asks them to end.
-/

namespace Bailiff

namespace Fleet

variable {launcher : Launcher} {f g : Fleet} {effects : List Effect} {a : Action}

/-! ## Failing waits -/

/-- The failure with which the wait for a worker fails, if an action makes it fail. -/
def failure? (f : Fleet) : Action → Option Failure
  | .failed role failure => if role.isWorker ∧ (f.course? role).any (·.isRunning) then some failure else none
  | _ => none

/-- The failures of the waits for workers, in the order in which the waits fail. -/
def failures (launcher : Launcher) (f : Fleet) : List Happening → List Failure
  | [] => []
  | .act a :: rest => (f.failure? a).toList ++ failures launcher (f.meet launcher (.act a)) rest
  | .files t :: rest => failures launcher (f.meet launcher (.files t)) rest

theorem failures_append (f : Fleet) (hs hs' : List Happening) :
    f.failures launcher (hs ++ hs') = f.failures launcher hs ++ (f.run launcher hs).failures launcher hs' := by
  induction hs generalizing f with
  | nil => rfl
  | cons h rest ih => cases h <;> simp only [List.cons_append, failures, run_cons, ih, List.append_assoc]

/-! ## Crews -/

/-- The fleet is to have workers and no server, and is in a phase that such a fleet can be in. -/
structure IsCrew (f : Fleet) : Prop where
  mode : f.plan.mode = .workersOnly
  side : f.side = .idle
  phase : f.phase.isPreparing = true ∨ f.phase = .working ∨ ∃ r, f.phase = .settled r

/-- What a step does to a crew. -/
inductive CrewMove (launcher : Launcher) (f : Fleet) : Action → Fleet → List Effect → Prop where
  | still {a : Action} (hnone : f.failure? a = none) : CrewMove launcher f a f []
  | prepares {effects : List Effect} (hfrom : f.phase.isPreparing = true) (phase : Phase)
      (hto : phase.isPreparing = true) (files : FileTree) (stores : List String) :
      CrewMove launcher f (.file none) { f with files, phase, stores } effects
  /-- The marker or a store cannot be written. -/
  | fails (hfrom : f.phase.isPreparing = true) (fault : Option FileFault) (files : FileTree) (failure : Failure) :
      CrewMove launcher f (.file fault) { f with files, phase := .settled (.error failure) } []
  | launches {effects : List Effect} (hfrom : f.phase = .publishMarker) (files : FileTree) (starts : Nat) :
      CrewMove launcher f (.file none)
        { f with files, phase := .working, starts, children := f.children ++ newWorkers 1 f.stores.length } effects
  /-- One of the workers cannot be started. -/
  | breaks {effects : List Effect} (hfrom : f.phase = .publishMarker) (files : FileTree) (starts count : Nat)
      (hcount : count < f.stores.length) (failure : Failure)
      (hwhy : BreaksOff launcher files f.plan.tools f.starts f.stores count failure) :
      CrewMove launcher f (.file none)
        { f with files, phase := .settled (.error failure), starts, children := f.children ++ newWorkers 1 count }
        effects
  | stops : CrewMove launcher f .stop { f with stopped := true, aborted := f.aborted || f.linked } []
  | exits (role : Role) (code : Int) : CrewMove launcher f (.exited role code) (f.ends role (.exited code)) []
  | failsToStart (role : Role) (failure : Failure) :
      CrewMove launcher f (.failed role failure)
        { f.ends role (.failed failure) with firstFailure := f.firstFailure.or (f.failure? (.failed role failure)) } []
  /-- A wait has failed, and the workers that still run are asked to end. -/
  | gives (hfrom : f.phase = .working) (failure : Failure) (hfirst : f.firstFailure = some failure) :
      CrewMove launcher f .gather
        { f with phase := .settled (.error failure),
                 children := f.children.map fun c => if c.role ∈ f.lingering then askedToEnd c else c }
        (f.lingering.map .terminate)
  | gathers {effects : List Effect} (hfrom : f.phase = .working) (hcalm : f.firstFailure = none) (codes : List Int)
      (hcodes : f.workerCodes? = some codes) :
      CrewMove launcher f .gather { f with phase := .settled (.ok codes.max?) } effects

theorem isCrew_start {plan : FleetPlan} (hmode : plan.mode = .workersOnly) (files : FileTree) :
    IsCrew { plan, files } := ⟨hmode, rfl, .inl rfl⟩

/-- A crew is never in a phase that is about a server or a shell. -/
theorem IsCrew.no_server (h : f.IsCrew) : f.phase ≠ .makeRoot ∧ f.phase ≠ .makeServerStore ∧ f.phase ≠ .serving
    ∧ f.phase ≠ .inShell ∧ ∀ r, f.phase ≠ .joining r := by
  rcases h.phase with hpreparing | hworking | ⟨r, hsettled⟩
  · refine ⟨?_, ?_, ?_, ?_, fun r => ?_⟩ <;> rintro hphase <;> simp [hphase, Phase.isPreparing] at hpreparing
  · simp [hworking]
  · simp [hsettled]

/-! ## Steps -/

theorem CrewMove.allocated (launcher : Launcher) (hfrom : f.phase.isPreparing = true) (files : FileTree)
    (done : List String) :
    f.CrewMove launcher (.file none) (allocated { f with files } done).1 (allocated { f with files } done).2 := by
  unfold Fleet.allocated
  split
  · exact .prepares hfrom _ rfl files f.stores
  · exact .prepares hfrom _ rfl files done

theorem CrewMove.enterMode (hmode : f.plan.mode = .workersOnly) (hfrom : f.phase = .publishMarker) (files : FileTree)
    (launcher : Launcher) : f.CrewMove launcher (.file none) (enterMode launcher { f with files }).1
      (enterMode launcher { f with files }).2 := by
  obtain ⟨count, starts, effects, answer, hlaunch, hanswer⟩ := launchWorkers_breaksOff launcher { f with files }
  simp only [Fleet.enterMode, hmode, hlaunch]
  rcases hanswer with ⟨rfl, rfl⟩ | ⟨failure, rfl, hcount, hwhy⟩
  · exact .launches hfrom files starts
  · exact .breaks hfrom files starts count hcount failure hwhy

theorem IsCrew.fileStep (h : f.IsCrew) (launcher : Launcher) :
    f.CrewMove launcher (.file none) (f.fileStep launcher).1 (f.fileStep launcher).2 := by
  unfold Fleet.fileStep
  cases hphase : f.phase with
  | resetMarker =>
    have hfrom : f.phase.isPreparing = true := by rw [hphase]; rfl
    obtain ⟨files, answer, hwrite⟩ := f.writeMarker_eq 0
    simp only [hwrite]
    cases answer with
    | error fault => exact .fails hfrom none files fault.failure
    | ok =>
      simp only [h.mode, true_or, if_true]
      exact .allocated launcher hfrom files []
  | allocate done =>
    have hfrom : f.phase.isPreparing = true := by rw [hphase]; rfl
    simp only
    cases f.files.makeDirectories [] (storePath f.plan done.length) with
    | error fault => exact .fails hfrom none f.files fault.failure
    | ok files =>
      have hmove := CrewMove.allocated launcher hfrom files (done ++ [storePath f.plan done.length])
      rw [hphase] at hmove
      exact hmove
  | publishMarker =>
    have hfrom : f.phase.isPreparing = true := by rw [hphase]; rfl
    obtain ⟨files, answer, hwrite⟩ := f.writeMarker_eq f.plan.workerCount
    simp only [hwrite]
    cases answer with
    | error fault => exact .fails hfrom none files fault.failure
    | ok => exact .enterMode h.mode hphase files launcher
  | makeRoot => exact absurd hphase h.no_server.1
  | makeServerStore => exact absurd hphase h.no_server.2.1
  | _ => exact .still rfl

theorem IsCrew.fileFails (h : f.IsCrew) (fault : FileFault) :
    f.CrewMove launcher (.file (some fault)) (f.fileFails fault).1 (f.fileFails fault).2 := by
  unfold Fleet.fileFails
  cases hphase : f.phase with
  | resetMarker | allocate _ | publishMarker =>
    simp only [hasFileStep, hphase, if_true]
    exact .fails (by rw [hphase]; rfl) _ f.files fault.failure
  | makeRoot => exact absurd hphase h.no_server.1
  | makeServerStore => exact absurd hphase h.no_server.2.1
  | _ =>
    simp only [hasFileStep, hphase]
    exact .still rfl

theorem IsCrew.gathers (h : f.IsCrew) : f.CrewMove launcher .gather f.gathers.1 f.gathers.2 := by
  unfold Fleet.gathers
  split
  case h_1 hphase =>
    rw [if_pos rfl]
    split
    next failure hfirst =>
      simp only [terminateWorkers_eq]
      exact .gives hphase failure hfirst
    next hfirst =>
      split
      next codes hcodes => exact .gathers hphase hfirst codes hcodes
      next => exact .still rfl
  case h_2 =>
    rw [if_neg Bool.false_ne_true, if_neg (by simp [h.side])]
    exact .still rfl

/-- Every step makes a move. -/
theorem IsCrew.move_step (h : f.IsCrew) (launcher : Launcher) (a : Action) :
    f.CrewMove launcher a (f.step launcher a).1 (f.step launcher a).2 := by
  obtain ⟨-, -, hserving, hshell, hjoining⟩ := h.no_server
  cases a with
  | file fault =>
    cases fault with
    | none => exact h.fileStep launcher
    | some fault => exact h.fileFails fault
  | ready answer => simpa [Fleet.step, h.side] using CrewMove.still rfl
  | exited role code => exact .exits role code
  | failed role failure =>
    have hfirst : (if role.isWorker ∧ (f.course? role).any (·.isRunning) ∧ f.firstFailure.isNone then some failure
        else f.firstFailure) = f.firstFailure.or (f.failure? (.failed role failure)) := by
      cases f.firstFailure <;> simp [failure?]
    simp only [Fleet.step]
    rw [hfirst]
    exact .failsToStart role failure
  | stop => exact .stops
  | windowOver | join =>
    -- a crew is not in the phases that these act on
    simp only [Fleet.step]
    exact .still rfl
  | cancel => simpa [Fleet.step, cancelDue, h.side] using CrewMove.still rfl
  | conclude =>
    simp only [Fleet.step, Fleet.concludes]
    exact .still rfl
  | gather => exact h.gathers

/-! ## Runs -/

/-- What holds of a crew whose waits have failed as listed. -/
structure Manned (failed : List Failure) (f : Fleet) : Prop where
  crew : f.IsCrew
  preparing : f.phase.isPreparing = true → f.children = [] ∧ f.starts = 0
  working : f.phase = .working → f.workers.map (·.role) = (List.range' 1 f.stores.length).map .worker
  first : f.firstFailure = failed.head?

theorem manned_start {plan : FleetPlan} (hmode : plan.mode = .workersOnly) (files : FileTree) :
    Manned [] { plan, files } := ⟨isCrew_start hmode files, fun _ => ⟨rfl, rfl⟩, nofun, rfl⟩

theorem workers_of_children {count : Nat} (h : f.children = newWorkers 1 count) : f.workers = newWorkers 1 count := by
  rw [workers, h]
  exact List.filter_eq_self.mpr fun c hc => (mem_newWorkers hc).1

theorem roles_newWorkers (number count : Nat) :
    (newWorkers number count).map (·.role) = (List.range' number count).map .worker := by
  rw [newWorkers, List.map_map]
  rfl

theorem roles_ends (f : Fleet) (role : Role) (course : Course) :
    (f.ends role course).workers.map (·.role) = f.workers.map (·.role) := by
  rw [workers_ends, List.map_map]
  exact List.map_congr_left fun c _ => (endAs_kept role course c).1

/-- A run that has settled is done with. -/
theorem Manned.settled {failed : List Failure} (h : f.Manned failed) (hmode : g.plan = f.plan) (hside : g.side = f.side)
    {r : RunResult} (hphase : g.phase = .settled r) (hfirst : g.firstFailure = f.firstFailure) : g.Manned failed := by
  refine ⟨⟨hmode ▸ h.crew.mode, hside.trans h.crew.side, .inr (.inr ⟨r, hphase⟩)⟩, ?_, ?_, hfirst.trans h.first⟩
  · simp [hphase, Phase.isPreparing]
  · simp [hphase]

theorem Manned.move {failed : List Failure} (h : f.Manned failed) (hmove : f.CrewMove launcher a g effects) :
    g.Manned (failed ++ (f.failure? a).toList) := by
  have hnothing : f.failure? a = none → failed ++ (f.failure? a).toList = failed := by
    intro hnone
    rw [hnone]
    exact List.append_nil _
  cases hmove with
  | still hnone =>
    rw [hnothing hnone]
    exact h
  | prepares hfrom phase hto =>
    rw [hnothing rfl]
    refine ⟨⟨h.crew.mode, h.crew.side, .inl hto⟩, fun _ => h.preparing hfrom, ?_, h.first⟩
    rintro rfl
    cases hto
  | fails =>
    rw [hnothing rfl]
    exact h.settled rfl rfl rfl rfl
  | launches hfrom =>
    rw [hnothing rfl]
    refine ⟨⟨h.crew.mode, h.crew.side, .inr (.inl rfl)⟩, nofun, fun _ => ?_, h.first⟩
    have hnone : f.children = [] := (h.preparing (by rw [hfrom]; rfl)).1
    rw [@workers_of_children _ f.stores.length (by rw [hnone]; rfl), roles_newWorkers]
  | breaks =>
    rw [hnothing rfl]
    exact h.settled rfl rfl rfl rfl
  | stops =>
    rw [hnothing rfl]
    exact ⟨⟨h.crew.mode, h.crew.side, h.crew.phase⟩, h.preparing, h.working, h.first⟩
  | exits role code =>
    rw [hnothing rfl]
    refine ⟨⟨h.crew.mode, h.crew.side, h.crew.phase⟩, fun hpre => ?_, fun hworking => ?_, h.first⟩
    · rw [ends_eq, (h.preparing hpre).1]
      exact ⟨rfl, (h.preparing hpre).2⟩
    · rw [roles_ends]
      exact h.working hworking
  | failsToStart role failure =>
    refine ⟨⟨h.crew.mode, h.crew.side, h.crew.phase⟩, fun hpre => ?_, fun hworking => ?_, ?_⟩
    · simp [ends_eq, h.preparing hpre]
    · exact (roles_ends f role (.failed failure)).trans (h.working hworking)
    · rw [List.head?_append, ← h.first, Option.head?_toList]
  | gives | gathers =>
    rw [hnothing rfl]
    exact h.settled rfl rfl rfl rfl

theorem manned_run {plan : FleetPlan} (hmode : plan.mode = .workersOnly) (launcher : Launcher) (files : FileTree)
    (hs : List Happening) :
    Manned (Fleet.failures launcher { plan, files } hs) (Fleet.run launcher { plan, files } hs) := by
  induction hs using List.reverseRecOn with
  | nil => exact manned_start hmode files
  | append_singleton hs what ih =>
    rw [failures_append, run_append]
    cases what with
    | act a =>
      simp only [failures, List.append_nil]
      exact ih.move (ih.crew.move_step launcher a)
    | files t =>
      simp only [failures, List.append_nil]
      exact ⟨⟨ih.crew.mode, ih.crew.side, ih.crew.phase⟩, ih.preparing, ih.working, ih.first⟩

/-! ## Exit codes -/

theorem courses_of_workerCodes? {codes : List Int} (h : f.workerCodes? = some codes) :
    f.workers.map (·.course) = codes.map .exited := by
  unfold workerCodes? at h
  generalize f.workers = children at h ⊢
  induction children generalizing codes with
  | nil =>
    cases h
    rfl
  | cons child rest ih =>
    simp only [List.mapM_cons, Option.bind_eq_bind, Option.bind_eq_some_iff] at h
    obtain ⟨code, hcode, codes, hrest, heq⟩ := h
    cases heq
    rw [List.map_cons, List.map_cons, ih hrest]
    cases hcourse : child.course <;> simp_all [Course.code?]

theorem isSome_workerCodes? : f.workerCodes?.isSome = true ↔ ∀ c ∈ f.workers, c.course.code?.isSome = true := by
  unfold workerCodes?
  induction f.workers with
  | nil => simp
  | cons child rest ih =>
    rw [List.forall_mem_cons, ← ih, List.mapM_cons]
    cases child.course.code? with
    | none => simp
    | some code => cases rest.mapM (·.course.code?) <;> simp

/-- A crew at work settles just when a wait has failed or all workers have exited. -/
theorem settles_iff (hphase : f.phase = .working) (launcher : Launcher) :
    (f.step launcher .gather).1.result?.isSome = true
      ↔ f.firstFailure.isSome = true ∨ ∀ c ∈ f.workers, c.course.code?.isSome = true := by
  rw [← isSome_workerCodes?]
  simp only [Fleet.step, Fleet.gathers, hphase, if_true]
  cases f.firstFailure with
  | some failure => simp [result?]
  | none => cases f.workerCodes? <;> simp [result?, hphase]

/-! ## Ends of runs -/

/-- How a crew of a number of workers settles, when waits have failed as listed. -/
inductive CrewEnds (launcher : Launcher) (count : Nat) (failed : List Failure) (g : Fleet) (effects : List Effect) :
    RunResult → Prop where
  /-- The marker or a store could not be written, and no worker was started. -/
  | unready (failure : Failure) (hnone : g.workers = []) : CrewEnds launcher count failed g effects (.error failure)
  /-- A worker could not be started: those before it run on, and nobody has asked them to end. -/
  | broken (failure : Failure) (started : Nat) (hless : started < count) (hworkers : g.workers = newWorkers 1 started)
      (hwhy : BreaksOff launcher g.files g.plan.tools 0 g.stores started failure) :
      CrewEnds launcher count failed g effects (.error failure)
  /-- A wait has failed, and the workers that still run are asked to end. -/
  | fails (failure : Failure) (hfirst : failed.head? = some failure)
      (hroles : g.workers.map (·.role) = (List.range' 1 count).map .worker)
      (hasked : ∀ c ∈ g.workers, c.course.isRunning = true → c.terminated = true ∧ .terminate c.role ∈ effects) :
      CrewEnds launcher count failed g effects (.error failure)
  /-- All workers have exited. -/
  | exits (codes : List Int) (worst : Int) (hcalm : failed = [])
      (hroles : g.workers.map (·.role) = (List.range' 1 count).map .worker)
      (hcourses : g.workers.map (·.course) = codes.map .exited)
      (hworst : worst ∈ codes ∧ ∀ code ∈ codes, code ≤ worst)
      (hzero : (∀ code ∈ codes, 0 ≤ code) → (worst = 0 ↔ ∀ code ∈ codes, code = 0)) :
      CrewEnds launcher count failed g effects (.ok (some worst))

variable {count : Nat} {failed : List Failure} {codes : List Int}

/-- The running workers of a crew that gives up are asked to end. -/
theorem asked_of_lingering {c : Child}
    (hc : c ∈ f.workers.map fun c => if c.role ∈ f.lingering then askedToEnd c else c)
    (hrunning : c.course.isRunning = true) :
    c.terminated = true ∧ Effect.terminate c.role ∈ f.lingering.map Effect.terminate := by
  obtain ⟨before, hmem, rfl⟩ := List.mem_map.mp hc
  have hbefore : before.course.isRunning = true := by split at hrunning <;> exact hrunning
  have hlingers := mem_lingering hmem hbefore
  rw [if_pos hlingers]
  exact ⟨rfl, List.mem_map_of_mem hlingers⟩

/-- The worst code is that of a worker, and it is zero just if all are, unless some are below zero. -/
theorem worst_code (hne : codes ≠ []) : ∃ worst, codes.max? = some worst
    ∧ (worst ∈ codes ∧ ∀ code ∈ codes, code ≤ worst)
    ∧ ((∀ code ∈ codes, 0 ≤ code) → (worst = 0 ↔ ∀ code ∈ codes, code = 0)) := by
  obtain ⟨worst, hmax⟩ := Option.isSome_iff_exists.mp (List.isSome_max?_of_ne_nil hne)
  have hworst := List.max?_eq_some_iff.mp hmax
  refine ⟨worst, hmax, hworst, fun hnonneg => ⟨?_, fun hall => hall worst hworst.1⟩⟩
  rintro rfl code hcode
  exact le_antisymm (hworst.2 code hcode) (hnonneg code hcode)

/-- A move that settles an open run settles it in one of the ways. -/
theorem Manned.ends (h : f.Manned failed) (hstocked : f.Stocked) (hpos : 0 < count)
    (hcount : storeCount f.plan.workerCount = count) (hopen : f.result? = none)
    (hmove : f.CrewMove launcher a g effects) {r : RunResult} (hsettled : g.phase = .settled r) :
    CrewEnds launcher count failed g effects r := by
  have hnot : f.phase ≠ .settled r := by
    rintro hphase
    simp [result?, hphase] at hopen
  have hlength : f.phase = .publishMarker ∨ f.phase = .working → f.stores.length = count := by
    intro hphase
    rw [hstocked.full (hphase.imp_right .inr), length_firstStores, hcount]
  have hroles : f.phase = .working → f.workers.map (·.role) = (List.range' 1 count).map .worker := by
    intro hphase
    rw [h.working hphase, hlength (.inr hphase)]
  cases hmove with
  | still | stops | exits | failsToStart => exact absurd hsettled hnot
  | prepares _ phase hto =>
    have hphase : phase = .settled r := hsettled
    rw [hphase] at hto
    cases hto
  | launches => cases hsettled
  | fails hfrom _ files failure =>
    cases hsettled
    exact .unready failure (by simp [workers, (h.preparing hfrom).1])
  | breaks hfrom files starts started hless failure hwhy =>
    cases hsettled
    obtain ⟨hnone, hstarts⟩ := h.preparing (by rw [hfrom]; rfl)
    rw [hstarts] at hwhy
    exact .broken failure started (hlength (.inl hfrom) ▸ hless) (workers_of_children (by rw [hnone]; rfl)) hwhy
  | gives hfrom failure hfirst =>
    cases hsettled
    have hworkers := @workers_lingering f askedToEnd fun _ => rfl
    refine .fails failure (h.first ▸ hfirst) ?_ fun c hc hrunning => ?_
    · rw [workers, hworkers, List.map_map, ← hroles hfrom]
      exact List.map_congr_left fun c _ => by
        rw [Function.comp_apply]
        split <;> rfl
    · rw [workers, hworkers] at hc
      exact asked_of_lingering hc hrunning
  | gathers hfrom hcalm codes hcodes =>
    cases hsettled
    have hcourses := courses_of_workerCodes? hcodes
    have hne : codes ≠ [] := by
      rintro rfl
      have hempty := congrArg List.length (hroles hfrom)
      have hnone := congrArg List.length hcourses
      simp only [List.length_map, List.length_range', List.length_nil] at hempty hnone
      omega
    obtain ⟨worst, hmax, hworst, hzero⟩ := worst_code hne
    rw [hmax]
    refine .exits codes worst ?_ (hroles hfrom) hcourses hworst hzero
    rw [h.first] at hcalm
    exact List.head?_eq_none_iff.mp hcalm

/-! ## A crew of two -/

open Supervision (workersVariables oneWorker)

/-- The settings of two workers without a server. -/
def twoCrew : RunSettings := { oneWorker "/" with workerCount := 2 }

/-- The crew when both stores have been made. -/
def crewAllocated : Fleet :=
  { twoAllocated with plan := twoCrew.plan (.delay 2000) "a" }

/-- The crew when both workers run. -/
def crewWorking : Fleet :=
  { crewAllocated with
    files := twoFiles "2" ["harness-worker.a-01", "harness-worker.a-02"]
    phase := .working
    children := [{ role := .worker 1 }, { role := .worker 2 }]
    starts := 2 }

theorem load_twoCrew : RunSettings.load {} (workersVariables "/") (some 2) (some "/m") 8 = .ok twoCrew := by
  refine Supervision.load_of_read ?_ ?_ ?_ <;> decide +kernel

theorem run_crewAllocated (number : Nat) :
    Fleet.run (allBut number) { plan := twoCrew.plan (.delay 2000) "a", files := {} }
      (List.replicate 3 (.act (.file none))) = crewAllocated := by
  have hzero : (0 : Binary64).text = "0" := by decide +kernel
  have hmarked : (Fleet.fileStep (allBut number) { plan := twoCrew.plan (.delay 2000) "a", files := {} }).1
      = { twoAllocating [] with plan := twoCrew.plan (.delay 2000) "a" } := by
    have hmarker : (twoCrew.plan (.delay 2000) "a").workersFile = "/m" := rfl
    simp only [fileStep, writeMarker, hzero, hmarker, (@Supervision.writeText_marker {} _).1 rfl]
    rfl
  have hfirst : (Fleet.fileStep (allBut number) { twoAllocating [] with plan := twoCrew.plan (.delay 2000) "a" }).1
      = { twoAllocating ["harness-worker.a-01"] with plan := twoCrew.plan (.delay 2000) "a" } := by
    simp only [fileStep, twoAllocating]
    rfl
  have hsecond : (Fleet.fileStep (allBut number)
      { twoAllocating ["harness-worker.a-01"] with plan := twoCrew.plan (.delay 2000) "a" }).1 = crewAllocated := by
    simp only [fileStep, twoAllocating]
    rfl
  simp only [List.replicate, run_cons, run_nil, meet, step, hmarked, hfirst, hsecond]

theorem step_crewAllocated (launcher : Launcher) : (crewAllocated.step launcher (.file none)).1
    = (Fleet.enterMode launcher
        { crewAllocated with files := twoFiles "2" ["harness-worker.a-01", "harness-worker.a-02"] }).1 := by
  have hphase : crewAllocated.phase = .publishMarker := rfl
  have htwo : crewAllocated.plan.workerCount.text = "2" := by decide +kernel
  have hmarker : crewAllocated.plan.workersFile = "/m" := rfl
  have hfiles : crewAllocated.files = twoFiles "0" ["harness-worker.a-01", "harness-worker.a-02"] := rfl
  simp only [Fleet.step, fileStep, hphase, writeMarker, htwo, hmarker, hfiles,
    (@Supervision.writeText_marker (twoFiles "0" ["harness-worker.a-01", "harness-worker.a-02"]) _).2 _ rfl]
  rfl

/-- Both workers run and exit. -/
def bothExit : List Happening :=
  List.replicate 3 (.act (.file none))
    ++ [.act (.file none), .act (.exited (.worker 2) 3), .act (.exited (.worker 1) 0)]

/-! ## Crews of settings -/

/-- A run with workers and no server, of settings that can be loaded, settles in one of the ways of a crew with as many
workers as the settings say: with the worst exit code when all of them have exited, or with the first failing wait when
the others were asked to end, unless a file or a start of a worker was in the way. Once workers have been started, it
does settle as soon as a wait has failed or all have exited, and not before. -/
theorem crew_settles {places : Places} {env : Value} {jobs : Option Binary64} {workersFile : Option String}
    {parallelism : Binary64} {settings : RunSettings} {n : Nat}
    (hload : RunSettings.load places env jobs workersFile parallelism = .ok settings)
    (hparallelism : parallelism.toInt? = some (n : Int)) (hpos : 0 < n) (hn : n ≤ Binary64.largest)
    (hserver : settings.spawnServer = false) (hworkers : settings.spawnWorkers = true) {policy : ReadinessPolicy}
    {suffix : String} {files : FileTree} {hs : List Happening}
    (hrun : Fleet.run launcher { plan := settings.plan policy suffix, files } hs = f) (hopen : f.result? = none) :
    ∃ count : Nat, 0 < count ∧ settings.workerCount.toInt? = some (count : Int)
      ∧ (∀ a r, (f.step launcher a).1.result? = some r →
          CrewEnds launcher count (Fleet.failures launcher { plan := settings.plan policy suffix, files } hs)
            (f.step launcher a).1 (f.step launcher a).2 r)
      ∧ (f.workers ≠ [] →
          ((f.step launcher .gather).1.result?.isSome = true
            ↔ Fleet.failures launcher { plan := settings.plan policy suffix, files } hs ≠ []
              ∨ ∀ c ∈ f.workers, c.course.code?.isSome = true)) := by
  obtain ⟨count, hcountpos, hcount⟩ := RunSettings.workerCount_of_load hload hparallelism hpos hn
  have hmode : (settings.plan policy suffix).mode = .workersOnly := by
    simp [RunSettings.plan, Mode.select, hserver, hworkers]
  have hmanned := manned_run hmode launcher files hs
  have hstocked := stocked_run launcher (settings.plan policy suffix) files hs
  have hplan : (Fleet.run launcher { plan := settings.plan policy suffix, files } hs).plan
      = settings.plan policy suffix := plan_run ..
  rw [hrun] at hmanned hstocked hplan
  refine ⟨count, hcountpos, hcount, fun a r hsettles => ?_, fun hsome => ?_⟩
  · have hstores : storeCount f.plan.workerCount = count := by
      rw [hplan]
      exact storeCount_of_toInt? hcount
    have hmove := hmanned.crew.move_step launcher a
    exact hmanned.ends hstocked hcountpos hstores hopen hmove (result?_eq_some.mp hsettles)
  · have hphase : f.phase = .working := by
      rcases hmanned.crew.phase with hpre | hworking | ⟨r, hsettled⟩
      · exact absurd (by simp [workers, (hmanned.preparing hpre).1]) hsome
      · exact hworking
      · simp [result?, hsettled] at hopen
    rw [settles_iff hphase launcher, hmanned.first, Option.isSome_iff_ne_none, ne_eq, List.head?_eq_none_iff]

theorem crew_settles_with_worst_code :
    RunSettings.load {} (workersVariables "/") (some 2) (some "/m") 8 = .ok twoCrew
      ∧ (8 : Binary64).toInt? = some (8 : Nat) ∧ twoCrew.spawnServer = false ∧ twoCrew.spawnWorkers = true
      ∧ ∃ f, Fleet.run (allBut 0) { plan := twoCrew.plan (.delay 2000) "a", files := {} } bothExit = f
        ∧ f.result? = none ∧ (f.step (allBut 0) .gather).1.result? = some (.ok (some 3))
        ∧ ∃ count, CrewEnds (allBut 0) count
            (Fleet.failures (allBut 0) { plan := twoCrew.plan (.delay 2000) "a", files := {} } bothExit)
            (f.step (allBut 0) .gather).1 (f.step (allBut 0) .gather).2 (.ok (some 3)) := by
  have hparallelism : (8 : Binary64).toInt? = some (8 : Nat) := by decide +kernel
  have hworking : (crewAllocated.step (allBut 0) (.file none)).1 = crewWorking := step_crewAllocated _
  have hrun : Fleet.run (allBut 0) { plan := twoCrew.plan (.delay 2000) "a", files := {} } bothExit
      = (crewWorking.ends (.worker 2) (.exited 3)).ends (.worker 1) (.exited 0) := by
    rw [bothExit, run_append, run_crewAllocated]
    simp only [run_cons, run_nil, meet, hworking]
    rfl
  obtain ⟨count, -, -, hends, -⟩ :=
    crew_settles load_twoCrew hparallelism (by decide) (by decide +kernel) rfl rfl hrun rfl
  exact ⟨load_twoCrew, hparallelism, rfl, rfl, _, hrun, rfl, rfl, count, hends .gather _ rfl⟩

/-- The second worker cannot be started: the run settles while the first one runs, and has not asked it to end. -/
theorem crew_left_running :
    RunSettings.load {} (workersVariables "/") (some 2) (some "/m") 8 = .ok twoCrew
      ∧ twoCrew.spawnServer = false ∧ twoCrew.spawnWorkers = true
      ∧ ∃ f, Fleet.run (allBut 2) { plan := twoCrew.plan (.delay 2000) "a", files := {} }
            (List.replicate 3 (.act (.file none))) = f
        ∧ (f.step (allBut 2) (.file none)).1.result? = some (.error (.plain "not started"))
        ∧ ∃ c ∈ (f.step (allBut 2) (.file none)).1.workers, c.course.isRunning = true ∧ c.terminated = false := by
  refine ⟨load_twoCrew, rfl, rfl, _, run_crewAllocated 2, ?_⟩
  rw [step_crewAllocated]
  exact ⟨rfl, { role := .worker 1 }, .head _, rfl, rfl⟩

end Fleet

end Bailiff
