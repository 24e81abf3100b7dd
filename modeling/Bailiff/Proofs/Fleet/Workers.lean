-- SUMMARY: Which workers a run with server and workers leaves behind when it settles.
import Bailiff.Proofs.Files.Tree
import Bailiff.Proofs.Fleet.Moves

/-!
# Workers that are left behind

A run with server and workers should settle with every worker ended, or asked to end and not waited for. Until
it settles, its workers are `Tended`: where the workers' side stands says what has been done to them. From that
follows which workers are left behind (`Fleet.worker_left_behind_iff`): those that still run when the workers'
side is over, because it was a failure that ended it.
-/

namespace Bailiff

/-- A process that still runs and was not both asked to end and let go. -/
def Child.IsLeftBehind (c : Child) : Prop :=
  c.course.isRunning = true ∧ ¬(c.terminated = true ∧ c.released = true)

namespace Fleet

/-! ## States -/

/-- A running worker that the end of the workers' side passed over: it was asked to end when another failed,
or not even that when another could not be started. -/
def IsPassedOver (f : Fleet) (c : Child) : Prop :=
  f.firstFailure.isSome = true ∧ c.terminated = true
    ∨ f.workers.length < f.stores.length ∧ c.terminated = false

/-- What holds of the workers beside a server until the run settles. -/
structure Tended (f : Fleet) : Prop where
  preparing : f.phase.isPreparing = true → f.side = .idle
  unstarted : f.side = .idle ∨ f.side = .waiting → f.workers = []
  working : f.side = .working → f.workers.length = f.stores.length ∧ ∀ c ∈ f.workers, c.terminated = false
  done : f.side = .done → ∀ c ∈ f.workers, c.course.isRunning = true → f.IsPassedOver c
  unreleased : ∀ c ∈ f.workers, c.released = false

theorem tended_start (plan : FleetPlan) (files : FileTree) : Tended { plan, files } := by
  constructor <;> simp [workers]

variable {launcher : Launcher} {f g : Fleet} {effects : List Effect}

theorem tended_of_no_workers (hpreparing : g.phase.isPreparing = true → g.side = .idle) (hnone : g.workers = [])
    (hside : g.side ≠ .working) : g.Tended := by
  constructor <;> simp_all

/-- The workers' side of a fleet is as it was in another. -/
structure SameWorkers (f g : Fleet) : Prop where
  side : g.side = f.side
  stores : g.stores = f.stores
  workers : g.workers = f.workers
  firstFailure : g.firstFailure = f.firstFailure

theorem Tended.of_same (h : f.Tended) (hsame : f.SameWorkers g)
    (hpreparing : g.phase.isPreparing = true → f.phase.isPreparing = true) : g.Tended where
  preparing hg := hsame.side ▸ h.preparing (hpreparing hg)
  unstarted hside := hsame.workers ▸ h.unstarted (hsame.side ▸ hside)
  working hside := by
    rw [hsame.workers, hsame.stores]
    exact h.working (hsame.side ▸ hside)
  done hside := by
    simp only [IsPassedOver, hsame.workers, hsame.stores, hsame.firstFailure]
    exact h.done (hsame.side ▸ hside)
  unreleased := hsame.workers ▸ h.unreleased

theorem Tended.not_preparing (h : f.Tended) (hside : f.side ≠ .idle) : f.phase.isPreparing = false := by
  rw [← Bool.not_eq_true]
  exact fun hphase => hside (h.preparing hphase)

/-- The workers' side is over. -/
theorem Tended.over (h : f.Tended) (hside : f.side ≠ .idle) (hphase : g.phase = f.phase) (hdone : g.side = .done)
    (hpassed : ∀ c ∈ g.workers, c.course.isRunning = true → g.IsPassedOver c)
    (hunreleased : ∀ c ∈ g.workers, c.released = false) : g.Tended where
  preparing hg := by simp [hphase, h.not_preparing hside] at hg
  unstarted hg := by simp [hdone] at hg
  working hg := by simp [hdone] at hg
  done _ := hpassed
  unreleased := hunreleased

theorem Tended.ends (h : f.Tended) (role : Role) {course : Course} (hcourse : course.isRunning = false)
    (first : Option Failure) (hfirst : f.firstFailure.isSome = true → first.isSome = true) :
    Tended { f.ends role course with firstFailure := first } := by
  have hworkers : Fleet.workers { f.ends role course with firstFailure := first }
      = f.workers.map (endAs role course) := f.workers_ends role course
  constructor
  case preparing => exact h.preparing
  case unstarted =>
    intro hside
    rw [hworkers, h.unstarted hside, List.map_nil]
  case working =>
    intro hside
    obtain ⟨hlength, hcalm⟩ := h.working hside
    rw [hworkers]
    refine ⟨(List.length_map _).trans hlength, ?_⟩
    simp only [List.mem_map, forall_exists_index, and_imp, forall_apply_eq_imp_iff₂, endAs_kept]
    exact hcalm
  case done =>
    intro hside c hc hrunning
    rw [hworkers] at hc
    obtain ⟨c, hmem, rfl⟩ := List.mem_map.mp hc
    obtain ⟨hbefore, hsame⟩ := endAs_running hcourse hrunning
    rw [hsame, IsPassedOver, hworkers, List.length_map]
    exact (h.done hside c hmem hbefore).imp_left (And.imp_left hfirst)
  case unreleased =>
    rw [hworkers]
    simp only [List.mem_map, forall_exists_index, and_imp, forall_apply_eq_imp_iff₂, endAs_kept]
    exact h.unreleased

/-! ## Steps -/

/-- The workers of a fleet without workers that starts some. -/
theorem workers_newWorkers (hnone : f.workers = []) (count : Nat) :
    (f.children ++ newWorkers 1 count).filter (·.role.isWorker) = newWorkers 1 count := by
  rw [List.filter_append, List.filter_eq_self.mpr fun c hc => (mem_newWorkers hc).1]
  exact congrArg (· ++ _) hnone

/-- The workers of a fleet when those that still run are changed. -/
theorem workers_lingering {update : Child → Child} (hrole : ∀ c, (update c).role = c.role) :
    (f.children.map fun c => if c.role ∈ f.lingering then update c else c).filter (·.role.isWorker)
      = f.workers.map fun c => if c.role ∈ f.lingering then update c else c :=
  filter_map_of_role _ (fun c => by split <;> simp [hrole]) f.children

/-- How a tended fleet goes on: it is tended still, or it settles and leaves its workers as they are, or it
settles and dismisses those that still run. -/
inductive GoesOn (f g : Fleet) : Prop where
  | tended (h : g.Tended) (hopen : g.result? = none)
  | leaves (hside : f.side = .idle ∨ f.side = .done) (hsettled : g.result?.isSome = true)
      (hworkers : g.workers = f.workers)
  | dismisses (hside : f.side ≠ .done) (hsettled : g.result?.isSome = true)
      (hworkers : g.workers = f.workers.map fun c => if c.role ∈ f.lingering then dismissed c else c)

theorem Tended.serverMove (h : f.Tended) (hopen : f.result? = none) (hmove : f.ServerMove g effects) :
    f.GoesOn g := by
  cases hmove with
  | still => exact .tended h hopen
  | prepares hfrom phase hto =>
    have hside := h.preparing hfrom
    refine .tended (tended_of_no_workers (fun _ => hside) (h.unstarted (.inl hside)) (by simp [hside])) ?_
    cases phase <;> first | rfl | contradiction
  | fails hfrom => exact .leaves (.inl (h.preparing hfrom)) rfl rfl
  | enters hfrom =>
    have hnone := h.unstarted (.inl (h.preparing hfrom))
    exact .tended (tended_of_no_workers (by simp [Phase.isPreparing]) hnone (by simp)) rfl
  | makes | abandons | concludes =>
    exact .tended (h.of_same ⟨rfl, rfl, rfl, rfl⟩ (by simp [Phase.isPreparing])) rfl
  | serves =>
    refine .tended (h.of_same ⟨rfl, rfl, ?_, rfl⟩ (by simp [Phase.isPreparing])) rfl
    simp [workers, Role.isWorker]
  | @ends role hrole course hcourse => exact .tended (h.ends role hcourse f.firstFailure id) hopen

theorem Tended.workersMove (h : f.Tended) (hopen : f.result? = none) (hmove : f.WorkersMove g effects) :
    f.GoesOn g := by
  cases hmove with
  | still => exact .tended h hopen
  | stops => exact .tended (h.of_same ⟨rfl, rfl, rfl, rfl⟩ id) hopen
  | @ends role hrole course hcourse first hfirst => exact .tended (h.ends role hcourse first hfirst) hopen
  | cancels hside =>
    have hnone : f.sideEnds.workers = [] := h.unstarted (.inr hside)
    exact .tended (h.over (by simp [hside]) rfl rfl (by simp [hnone]) (by simp [hnone])) hopen
  | launches hside =>
    have hworkers := workers_newWorkers (h.unstarted (.inr hside)) f.stores.length
    refine .tended ⟨?_, by simp, fun _ => ?_, by simp, ?_⟩ hopen
    · simp [h.not_preparing (by simp [hside])]
    · rw [workers, hworkers]
      exact ⟨length_newWorkers .., fun c hc => (mem_newWorkers hc).2.1⟩
    · rw [workers, hworkers]
      exact fun c hc => (mem_newWorkers hc).2.2
  | breaks hside count starts hcount =>
    have hworkers := workers_newWorkers (h.unstarted (.inr hside)) count
    refine .tended (h.over (by simp [hside]) rfl rfl (fun c hc _ => .inr ⟨?_, ?_⟩) ?_) hopen
    · rw [workers, hworkers, length_newWorkers]
      exact hcount
    · rw [workers, hworkers] at hc
      exact (mem_newWorkers hc).2.1
    · rw [workers, hworkers]
      exact fun c hc => (mem_newWorkers hc).2.2
  | gives hside hfirst =>
    have hworkers := @workers_lingering f askedToEnd fun _ => rfl
    refine .tended (h.over (by simp [hside]) rfl rfl (fun c hc hrunning => .inl ⟨hfirst, ?_⟩) fun c hc => ?_) hopen
    all_goals
      rw [workers, hworkers] at hc
      obtain ⟨c, hmem, rfl⟩ := List.mem_map.mp hc
    · have hbefore : c.course.isRunning = true := by split at hrunning <;> exact hrunning
      rw [if_pos (mem_lingering hmem hbefore)]
      rfl
    · split <;> exact h.unreleased c hmem
  | gathers hside hexited =>
    refine .tended (h.over (by simp [hside]) rfl rfl ?_ h.unreleased) hopen
    intro c hc hrunning
    rw [hexited c hc] at hrunning
    contradiction
  | dismisses r hfrom hside => exact .dismisses hside rfl (workers_lingering fun _ => rfl)
  | joins r hfrom hside => exact .leaves (.inr hside) rfl rfl

theorem Tended.goesOn_step (h : f.Tended) (hpair : f.IsPair) (hopen : f.result? = none) (launcher : Launcher)
    (a : Action) : f.GoesOn (f.step launcher a).1 :=
  (hpair.move_step launcher a).elim (h.serverMove hopen) (h.workersMove hopen)

/-! ## Runs -/

theorem Tended.run (h : f.Tended) (hpair : f.IsPair) (hopen : f.result? = none) (hs : List Happening)
    (hstill : (f.run launcher hs).result? = none) : (f.run launcher hs).Tended := by
  induction hs generalizing f with
  | nil => exact h
  | cons what rest ih =>
    have hmeet : (f.meet launcher what).result? = none := by
      refine Option.eq_none_iff_forall_ne_some.mpr fun r hr => ?_
      have hsettled := (hpair.meet launcher what).settled_run (result?_eq_some.mp hr) launcher rest
      simp [result?_eq_some.mpr hsettled] at hstill
    refine ih ?_ (hpair.meet launcher what) hmeet hstill
    cases what with
    | files t => exact h.of_same ⟨rfl, rfl, rfl, rfl⟩ id
    | act a =>
      simp only [meet] at hmeet ⊢
      cases h.goesOn_step hpair hopen launcher a with
      | tended h => exact h
      | leaves _ hsettled => simp [hmeet] at hsettled
      | dismisses _ hsettled => simp [hmeet] at hsettled

/-! ## A fleet with two workers -/

/-- A plan for a server and two workers, with everything directly below the root. -/
def twoWorkers : FleetPlan :=
  { mode := .serverAndWorkers
    workerCount := .ofNat 2
    tools := { toolsBin := "tool", logLevel := "info", serverArgs := "", workerArgs := "", serverAddr := "" }
    shell := "sh"
    storeRoot := "/"
    workersFile := "/m"
    suffix := "a" }

/-- The files of a fleet with this plan: the marker with a count, and the stores that have been made. -/
def twoFiles (count : String) (stores : List String) : FileTree :=
  ⟨(["m"], .file (count ++ "\n")) :: stores.map fun store => ([store], .directory)⟩

/-- The fleet when some stores have been made. -/
def twoAllocating (stores : List String) : Fleet :=
  { plan := twoWorkers, files := twoFiles "0" stores, phase := .allocate (stores.map ("/" ++ ·)) }

/-- The fleet when all stores have been made. -/
def twoAllocated : Fleet :=
  { plan := twoWorkers
    files := twoFiles "0" ["harness-worker.a-01", "harness-worker.a-02"]
    phase := .publishMarker
    stores := ["/harness-worker.a-01", "/harness-worker.a-02"] }

/-- The fleet when the marker tells of two workers, which wait for the server. -/
def twoEntered : Fleet :=
  { twoAllocated with
    files := twoFiles "2" ["harness-worker.a-01", "harness-worker.a-02"]
    phase := .makeRoot
    side := .waiting
    linked := true }

/-- The fleet when the server runs. -/
def twoServing : Fleet :=
  { twoEntered with
    files := twoFiles "2" ["harness-worker.a-01", "harness-worker.a-02", "harness-server.000001"]
    phase := .serving
    children := [{ role := .server }]
    starts := 1
    temporaries := 1 }

/-- All starts succeed but that of one worker. -/
def allBut (number : Nat) : Launcher := fun _ _ role _ =>
  if role = .worker number then .error (.plain "not started") else .ok none

theorem at?_twoFiles (count : String) (stores : List String) (name target : String) :
    (twoFiles count stores).at? [name] ≠ some (.link target) := by
  intro h
  simp only [FileTree.at?, List.isEmpty_cons, Bool.false_eq_true, if_false, Option.map_eq_some_iff] at h
  obtain ⟨entry, hentry, hnode⟩ := h
  rcases List.mem_cons.mp (List.mem_of_find?_eq_some hentry) with rfl | hstore
  · cases hnode
  · obtain ⟨store, -, rfl⟩ := List.mem_map.mp hstore
    cases hnode

theorem writeMarker_twoWorkers (stopped : Bool) :
    Fleet.writeMarker { plan := twoWorkers, files := {}, stopped } 0
        = ({ plan := twoWorkers, files := twoFiles "0" [], stopped }, .ok ())
      ∧ Fleet.writeMarker { twoAllocated with stopped } twoWorkers.workerCount
        = ({ twoAllocated with files := twoFiles "2" ["harness-worker.a-01", "harness-worker.a-02"], stopped },
          .ok ()) := by
  have hzero : (0 : Binary64).text = "0" := by decide +kernel
  have htwo : twoWorkers.workerCount.text = "2" := by decide +kernel
  have hdirectory : ∀ t, FileTree.makeDirectories t [] (Path.directory "/m") = .ok t := fun _ => by rfl
  have hlocate : ∀ t : FileTree, (∀ target, t.at? ["m"] ≠ some (.link target)) → t.locate [] "/m" = .ok ["m"] :=
    fun t => FileTree.locate_top (by decide) (by decide) (by decide +kernel) (by decide) (by decide)
  have hempty := hlocate {} (by simp [FileTree.at?])
  have hstores := hlocate (twoFiles "0" ["harness-worker.a-01", "harness-worker.a-02"]) (at?_twoFiles _ _ _)
  constructor
  · simp only [writeMarker, FileTree.writeText, FileTree.openFile, twoWorkers, hdirectory, hempty, hzero]
    cases stopped <;> rfl
  · simp only [writeMarker, FileTree.writeText, FileTree.openFile, twoAllocated, htwo]
    simp only [twoWorkers, hdirectory, hstores]
    cases stopped <;> rfl

theorem makeTemporary_twoFiles :
    (twoFiles "2" ["harness-worker.a-01", "harness-worker.a-02"]).makeTemporary [] (Stores.serverPath "/") 1
      = .ok (twoFiles "2" ["harness-worker.a-01", "harness-worker.a-02", "harness-server.000001"],
          "/harness-server.000001") := by
  have hpath : Stores.serverPath "/" ++ String.ofList (Instant.zeroPadded 6 1) = "/harness-server.000001" := by
    decide +kernel
  have hparts : Path.parts "/harness-server.000001" = ["", "harness-server.000001"] := by decide +kernel
  have hway : (twoFiles "2" ["harness-worker.a-01", "harness-worker.a-02"]).walk false FileTree.maxLinks []
      ["", "harness-server.000001"] = .ok ["harness-server.000001"] := by
    rw [FileTree.walk, if_pos (.inl rfl)]
    exact FileTree.walk_last (by decide) (by decide) (at?_twoFiles _ _ _)
  simp only [FileTree.makeTemporary, hpath, hparts, ite_self, hway]
  rfl

/-- The server is started also if the run has been asked to stop before all, but the stop is not linked then. -/
theorem run_twoServing_of_stopped (number : Nat) (stopped : Bool) :
    Fleet.run (allBut number) { plan := twoWorkers, files := {}, stopped } (List.replicate 6 (.act (.file none)))
      = { twoServing with stopped, linked := !stopped } := by
  have hmarked : (Fleet.fileStep (allBut number) { plan := twoWorkers, files := {}, stopped }).1
      = { twoAllocating [] with stopped } := by
    simp only [fileStep, writeMarker_twoWorkers]
    cases stopped <;> rfl
  have hfirst : (Fleet.fileStep (allBut number) { twoAllocating [] with stopped }).1
      = { twoAllocating ["harness-worker.a-01"] with stopped } := by
    simp only [fileStep, twoAllocating]
    cases stopped <;> rfl
  have hsecond : (Fleet.fileStep (allBut number) { twoAllocating ["harness-worker.a-01"] with stopped }).1
      = { twoAllocated with stopped } := by
    simp only [fileStep, twoAllocating]
    cases stopped <;> rfl
  have hentered : (Fleet.fileStep (allBut number) { twoAllocated with stopped }).1
      = { twoEntered with stopped, linked := !stopped } := by
    have hpublishes : ∀ f g : Fleet, f.phase = .publishMarker → f.writeMarker f.plan.workerCount = (g, .ok ()) →
        (f.fileStep (allBut number)).1 = (g.enterMode (allBut number)).1 := by
      intro f g hphase hwrite
      simp only [fileStep, hphase, hwrite]
    exact hpublishes _ _ rfl (writeMarker_twoWorkers stopped).2
  have hrooted : (Fleet.fileStep (allBut number) { twoEntered with stopped, linked := !stopped }).1
      = { twoEntered with phase := .makeServerStore, stopped, linked := !stopped } := by
    cases stopped <;> rfl
  have hserving : (Fleet.fileStep (allBut number)
      { twoEntered with phase := .makeServerStore, stopped, linked := !stopped }).1
      = { twoServing with stopped, linked := !stopped } := by
    have hfiles : twoEntered.files = twoFiles "2" ["harness-worker.a-01", "harness-worker.a-02"] := rfl
    have hroot : twoEntered.plan.storeRoot = "/" := rfl
    have hmade : twoEntered.temporaries = 0 := rfl
    simp only [fileStep, hfiles, hroot, hmade, Nat.zero_add, makeTemporary_twoFiles]
    cases stopped <;> rfl
  simp only [List.replicate, run_cons, run_nil, meet, step, hmarked, hfirst, hsecond, hentered, hrooted, hserving]

theorem run_twoServing (number : Nat) :
    Fleet.run (allBut number) { plan := twoWorkers, files := {} } (List.replicate 6 (.act (.file none)))
      = twoServing := run_twoServing_of_stopped number false

/-- The second worker cannot be started, and the first still runs when the server has ended. -/
def secondMissing : List Happening :=
  List.replicate 6 (.act (.file none)) ++ [.act (.ready (.ok true)), .act (.exited .server 0), .act .conclude]

/-- The first worker fails, the second goes on although it was asked to end, and the server ends. -/
def firstFails : List Happening :=
  List.replicate 6 (.act (.file none))
    ++ [.act (.ready (.ok true)), .act (.failed (.worker 1) (.plain "no program")), .act .gather,
      .act (.exited .server 0), .act .conclude]

/-! ## Workers left behind -/

/-- Just those workers are left behind by a run with server and workers, when it settles, that still run
although the workers' side is over, because a failure ended it: another worker failed, and they were asked to
end but not let go, or another worker could not be started, and they were not even asked. -/
theorem worker_left_behind_iff {plan : FleetPlan} (hmode : plan.mode = .serverAndWorkers) (files : FileTree)
    (hs : List Happening) (a : Action) (c : Child)
    (hopen : (Fleet.run launcher { plan, files } hs).result? = none)
    (hsettles : ((Fleet.run launcher { plan, files } hs).step launcher a).1.result?.isSome = true) :
    c ∈ ((Fleet.run launcher { plan, files } hs).step launcher a).1.workers ∧ c.IsLeftBehind
      ↔ c ∈ (Fleet.run launcher { plan, files } hs).workers ∧ c.course.isRunning = true
        ∧ (Fleet.run launcher { plan, files } hs).side = .done ∧ c.released = false
        ∧ (Fleet.run launcher { plan, files } hs).IsPassedOver c := by
  have hpair := (isPair_start hmode files).run launcher hs
  have htended := (tended_start plan files).run (isPair_start hmode files) rfl hs hopen
  generalize Fleet.run launcher { plan, files } hs = f at hopen hsettles hpair htended ⊢
  cases htended.goesOn_step hpair hopen launcher a with
  | tended _ hstill => simp [hstill] at hsettles
  | leaves hside _ hworkers =>
    rw [hworkers]
    have hunreleased := htended.unreleased c
    rcases hside with hidle | hdone
    · simp [htended.unstarted (.inl hidle)]
    · constructor
      · rintro ⟨hmem, hrunning, -⟩
        exact ⟨hmem, hrunning, hdone, hunreleased hmem, htended.done hdone c hmem hrunning⟩
      · rintro ⟨hmem, hrunning, -, hreleased, -⟩
        exact ⟨hmem, hrunning, by simp [hreleased]⟩
  | dismisses hside _ hworkers =>
    rw [hworkers]
    constructor
    · rintro ⟨hmem, hrunning, hleft⟩
      obtain ⟨before, hbefore, rfl⟩ := List.mem_map.mp hmem
      have hlingers : before.role ∈ f.lingering := mem_lingering hbefore (by split at hrunning <;> exact hrunning)
      rw [if_pos hlingers] at hleft
      exact absurd ⟨rfl, rfl⟩ hleft
    · rintro ⟨-, -, hdone, -⟩
      exact absurd hdone hside

theorem worker_left_behind_unasked :
    (Fleet.run (allBut 2) { plan := twoWorkers, files := {} } secondMissing).result? = none
      ∧ ((Fleet.run (allBut 2) { plan := twoWorkers, files := {} } secondMissing).step
          (allBut 2) .join).1.result?.isSome = true
      ∧ { role := .worker 1 } ∈ ((Fleet.run (allBut 2) { plan := twoWorkers, files := {} } secondMissing).step
          (allBut 2) .join).1.workers
      ∧ Child.IsLeftBehind { role := .worker 1 } := by
  have hrun : Fleet.run (allBut 2) { plan := twoWorkers, files := {} } secondMissing
      = twoServing.run (allBut 2) [.act (.ready (.ok true)), .act (.exited .server 0), .act .conclude] := by
    rw [secondMissing, run_append, run_twoServing]
  have hopen : (Fleet.run (allBut 2) { plan := twoWorkers, files := {} } secondMissing).result? = none := by
    rw [hrun]
    rfl
  have hsettles : ((Fleet.run (allBut 2) { plan := twoWorkers, files := {} } secondMissing).step
      (allBut 2) .join).1.result?.isSome = true := by
    rw [hrun]
    rfl
  refine ⟨hopen, hsettles, (worker_left_behind_iff rfl {} _ .join { role := .worker 1 } hopen hsettles).mpr ?_⟩
  rw [hrun]
  exact ⟨.head _, rfl, rfl, rfl, .inr ⟨by decide, rfl⟩⟩

/-- When a worker has no program, one that ignores being asked to end is not let go: the run settles with the
code of the server and leaves that worker behind. -/
theorem worker_left_behind_by_missing_program :
    (Fleet.run (allBut 0) { plan := twoWorkers, files := {} } firstFails).result? = none
      ∧ ((Fleet.run (allBut 0) { plan := twoWorkers, files := {} } firstFails).step (allBut 0) .join).1.result?
        = some (.ok (some 0))
      ∧ ∃ c ∈ ((Fleet.run (allBut 0) { plan := twoWorkers, files := {} } firstFails).step (allBut 0) .join).1.workers,
        c.IsLeftBehind := by
  rw [firstFails, run_append, run_twoServing]
  exact ⟨rfl, rfl, { role := .worker 2, terminated := true }, .tail _ (.head _), rfl, by decide⟩

end Fleet

end Bailiff
