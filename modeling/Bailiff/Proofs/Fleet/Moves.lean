-- SUMMARY: What one step can do to a fleet with server and workers, on the server's side and on the workers'.
import Bailiff.Proofs.Fleet.Children

/-!
# Moves of a fleet

With server and workers, a step belongs to the server's side or to the workers'. The two relations here say all
that a step can do on either side (`Fleet.IsPair.serverMove_step`, `Fleet.IsPair.workersMove_step`), so that whatever
holds of a run is proved by cases on them, without the code of the steps.
-/

namespace Bailiff

namespace Fleet

/-! ## Sides -/

/-- What happens to the server, and around it. -/
def Happening.isServers : Happening → Bool
  | .act (.file _) | .act .conclude | .files _ => true
  | .act (.exited role _) | .act (.failed role _) => !role.isWorker
  | _ => false

/-- The fleet is to have server and workers, and is in a phase that such a fleet can be in. -/
structure IsPair (f : Fleet) : Prop where
  mode : f.plan.mode = .serverAndWorkers
  working : f.phase ≠ .working
  inShell : f.phase ≠ .inShell

/-- The marker and the stores of the workers are being written. -/
def Phase.isPreparing : Phase → Bool
  | resetMarker | allocate _ | publishMarker => true
  | _ => false

/-- The result that the server leads to: its exit code, its failure, or a failure that kept it from starting. -/
def IsServers (f : Fleet) (r : RunResult) : Prop :=
  match f.course? .server with
  | some (.exited code) => r = .ok (some code)
  | some (.failed failure) => r = .error failure
  | some .running => False
  | none => ∃ failure, r = .error failure

/-- Whether effects open the window of the workers. -/
def opens (effects : List Effect) : Bool := effects.any (· matches .openWindow)

/-! ## The server's side -/

/-- What a step on the server's side does. -/
inductive ServerMove (f : Fleet) : Fleet → List Effect → Prop where
  | still : ServerMove f f []
  | prepares {effects : List Effect} (hfrom : f.phase.isPreparing = true) (phase : Phase)
      (hto : phase.isPreparing = true) (files : FileTree) (stores : List String) (hopens : opens effects = false) :
      ServerMove f { f with files, phase, stores } effects
  /-- The marker or a store of the workers cannot be written. -/
  | fails (hfrom : f.phase.isPreparing = true) (files : FileTree) (failure : Failure) :
      ServerMove f { f with files, phase := .settled (.error failure) } []
  /-- The marker and the stores are written, and the workers begin to wait. -/
  | enters {effects : List Effect} (hfrom : f.phase.isPreparing = true) (files : FileTree)
      (hopens : opens effects = false) :
      ServerMove f { f with files, phase := .makeRoot, side := .waiting, linked := !f.stopped } effects
  | makes (hfrom : f.phase = .makeRoot) (files : FileTree) :
      ServerMove f { f with files, phase := .makeServerStore } []
  | serves {effects : List Effect} (hfrom : f.phase = .makeServerStore) (files : FileTree) (starts temporaries : Nat)
      (hopens : opens effects = false) :
      ServerMove f { f with files, phase := .serving, children := f.children ++ [{ role := .server }], starts,
                            temporaries } effects
  /-- The server is never started. -/
  | abandons {effects : List Effect} (hfrom : f.phase = .makeRoot ∨ f.phase = .makeServerStore) (files : FileTree)
      (starts temporaries : Nat) (failure : Failure) (hopens : opens effects = true) :
      ServerMove f { f with files, phase := .joining (.error failure), starts, temporaries, linked := false,
                            aborted := true } effects
  | concludes {effects : List Effect} (hfrom : f.phase = .serving) (r : RunResult) (hserver : f.IsServers r)
      (hopens : opens effects = true) :
      ServerMove f { f with phase := .joining r, linked := false, aborted := true } effects
  | ends {role : Role} (hrole : role.isWorker = false) {course : Course} (hcourse : course.isRunning = false) :
      ServerMove f (f.ends role course) []

/-- What a step on the workers' side does. -/
inductive WorkersMove (f : Fleet) : Fleet → List Effect → Prop where
  | still : WorkersMove f f []
  | stops : WorkersMove f { f with stopped := true, aborted := f.aborted || f.linked } []
  | ends {role : Role} (hrole : role.isWorker = true) {course : Course} (hcourse : course.isRunning = false)
      (firstFailure : Option Failure) (hfirst : f.firstFailure.isSome = true → firstFailure.isSome = true) :
      WorkersMove f { f.ends role course with firstFailure } []
  /-- No worker is started any more. -/
  | cancels {effects : List Effect} (hside : f.side = .waiting) (hopens : opens effects = false) :
      WorkersMove f f.sideEnds effects
  | launches {effects : List Effect} (hside : f.side = .waiting) (starts : Nat) (hopens : opens effects = false) :
      WorkersMove f { f with side := .working, children := f.children ++ newWorkers 1 f.stores.length, starts } effects
  /-- One of the workers cannot be started. -/
  | breaks {effects : List Effect} (hside : f.side = .waiting) (count starts : Nat) (hcount : count < f.stores.length)
      (hopens : opens effects = false) :
      WorkersMove f { f with side := .done, children := f.children ++ newWorkers 1 count, starts } effects
  /-- One of the workers has failed, and the others are asked to end. -/
  | gives {effects : List Effect} (hside : f.side = .working) (hfirst : f.firstFailure.isSome = true)
      (hopens : opens effects = false) :
      WorkersMove f { f with side := .done, children := f.children.map fun c =>
                        if c.role ∈ f.lingering then askedToEnd c else c } effects
  | gathers {effects : List Effect} (hside : f.side = .working) (hexited : ∀ c ∈ f.workers, c.course.isRunning = false)
      (hopens : opens effects = false) : WorkersMove f f.sideEnds effects
  /-- The window is over before the workers' side is. -/
  | dismisses {effects : List Effect} (r : RunResult) (hfrom : f.phase = .joining r) (hside : f.side ≠ .done)
      (hopens : opens effects = false) :
      WorkersMove f { f with phase := .settled r, children := f.children.map fun c =>
                        if c.role ∈ f.lingering then dismissed c else c } effects
  | joins (r : RunResult) (hfrom : f.phase = .joining r) (hside : f.side = .done) :
      WorkersMove f { f with phase := .settled r } []

/-! ## Effects -/

theorem opens_append (effects effects' : List Effect) :
    opens (effects ++ effects') = (opens effects || opens effects') :=
  List.any_append

theorem opens_start (launcher : Launcher) (files : FileTree) (role : Role) (command : CommandLine) (l : Launching) :
    opens (l.start launcher files role command).1.effects = opens l.effects := by
  unfold Launching.start
  cases launcher files l.starts role command <;> simp [Launching.add, opens]

theorem opens_server (launcher : Launcher) (files : FileTree) (tools : ToolSettings) (store : String)
    (l : Launching) : opens (l.server launcher files tools store).1.effects = opens l.effects := by
  unfold Launching.server
  cases tools.serverCommand store with
  | error failure => rfl
  | ok command =>
    simp only [opens_start]
    simp [Launching.add, opens, note]

theorem opens_worker (launcher : Launcher) (files : FileTree) (tools : ToolSettings) (number : Nat)
    (store : String) (l : Launching) :
    opens (l.worker launcher files tools number store).1.effects = opens l.effects := by
  unfold Launching.worker
  cases tools.workerCommand store with
  | error failure => rfl
  | ok command =>
    have hstart := opens_start launcher files (.worker number) command (l.add
      [note .debug "process.exec" [("command", .text command.render)],
        note .info "worker.start" [("store", .text store), ("server_addr", .text tools.serverAddr)]])
    simp only
    generalize Launching.start launcher files (.worker number) command _ = started at hstart ⊢
    obtain ⟨l', answer⟩ := started
    cases answer with
    | error failure => exact hstart.trans (by simp [Launching.add, opens, note])
    | ok id =>
      change opens (l'.effects ++ _) = _
      rw [opens_append, hstart]
      simp [Launching.add, opens, note]

theorem opens_workers (launcher : Launcher) (files : FileTree) (tools : ToolSettings) (number : Nat)
    (stores : List String) (l : Launching) :
    opens (l.workers launcher files tools number stores).1.effects = opens l.effects := by
  induction stores generalizing number l with
  | nil => rfl
  | cons store rest ih =>
    have hworker := opens_worker launcher files tools number store l
    unfold Launching.workers
    generalize l.worker launcher files tools number store = first at hworker ⊢
    obtain ⟨l', answer⟩ := first
    cases answer with
    | error failure => exact hworker
    | ok id => exact (ih (number + 1) l').trans hworker

theorem opens_terminateWorkers (f : Fleet) : opens f.terminateWorkers.2 = false := by
  simp [opens, terminateWorkers]

theorem opens_dismissWorkers (f : Fleet) : opens f.dismissWorkers.2 = false := by
  simp [opens, dismissWorkers, List.any_flatMap]

/-- A launch of the workers starts some of them, all of them if it does not fail, and does nothing else to the
fleet. -/
theorem launchWorkers_eq (launcher : Launcher) (f : Fleet) :
    ∃ count starts effects answer, f.launchWorkers launcher
        = ({ f with children := f.children ++ newWorkers 1 count, starts }, effects, answer)
      ∧ opens effects = false
      ∧ (answer = .ok () ∧ count = f.stores.length
        ∨ (∃ failure, answer = .error failure) ∧ count < f.stores.length) := by
  have hworkers := children_workers launcher f.files f.plan.tools 1 f.stores { starts := f.starts }
  have hopens := opens_workers launcher f.files f.plan.tools 1 f.stores { starts := f.starts }
  simp only [launchWorkers]
  generalize Launching.workers launcher f.files f.plan.tools 1 f.stores { starts := f.starts } = made
    at hworkers hopens ⊢
  obtain ⟨l, answer⟩ := made
  obtain ⟨count, hchildren, hanswer⟩ := hworkers
  rw [List.nil_append] at hchildren
  have htook : f.took l = { f with children := f.children ++ newWorkers 1 count, starts := l.starts } := by
    rw [took, ← hchildren]
  refine ⟨count, l.starts, l.effects, answer.map fun _ => (), by rw [htook], hopens, ?_⟩
  rcases hanswer with ⟨⟨ids, rfl⟩, hcount⟩ | ⟨⟨failure, rfl⟩, hcount⟩
  · exact .inl ⟨rfl, hcount⟩
  · exact .inr ⟨⟨failure, rfl⟩, hcount⟩

/-! ## Steps on the server's side -/

variable {launcher : Launcher} {f g : Fleet}

theorem writeMarker_eq (f : Fleet) (count : Binary64) :
    ∃ files answer, f.writeMarker count = ({ f with files }, answer) := ⟨_, _, rfl⟩

/-- With workers, the end of the server opens their window. -/
theorem serverEnds_eq (h : f.plan.mode = .serverAndWorkers) (r : RunResult) : f.serverEnds r
    = ({ f with phase := .joining r, linked := false, aborted := true }, [.openWindow]) := by
  simp only [serverEnds, h, if_true]

theorem ServerMove.allocated (hfrom : f.phase.isPreparing = true) (files : FileTree) (done : List String) :
    f.ServerMove (allocated { f with files } done).1 (allocated { f with files } done).2 := by
  unfold Fleet.allocated
  split
  · exact .prepares hfrom _ rfl files f.stores rfl
  · exact .prepares hfrom _ rfl files done rfl

theorem ServerMove.enterMode (hmode : f.plan.mode = .serverAndWorkers) (hfrom : f.phase.isPreparing = true)
    (files : FileTree) (launcher : Launcher) :
    f.ServerMove (enterMode launcher { f with files }).1 (enterMode launcher { f with files }).2 := by
  rw [enterMode_eq launcher { f with files } hmode]
  exact .enters hfrom files rfl

theorem ServerMove.serverEnds (hmode : f.plan.mode = .serverAndWorkers)
    (hfrom : f.phase = .makeRoot ∨ f.phase = .makeServerStore) (files : FileTree) (starts temporaries : Nat)
    (failure : Failure) (before : List Effect) :
    f.ServerMove (serverEnds { f with files, starts, temporaries } (.error failure)).1
      (before ++ (serverEnds { f with files, starts, temporaries } (.error failure)).2) := by
  rw [serverEnds_eq (f := { f with files, starts, temporaries }) hmode]
  refine .abandons hfrom files starts temporaries failure ?_
  simp [opens]

theorem ServerMove.startServer (hmode : f.plan.mode = .serverAndWorkers) (hfrom : f.phase = .makeServerStore)
    (files : FileTree) (temporaries : Nat) (launcher : Launcher) (store : String) :
    f.ServerMove (startServer launcher { f with files, temporaries } store).1
      (startServer launcher { f with files, temporaries } store).2 := by
  have hchildren := children_server launcher files f.plan.tools store { starts := f.starts }
  have hopens := opens_server launcher files f.plan.tools store { starts := f.starts }
  unfold Fleet.startServer
  simp only
  generalize Launching.server launcher files f.plan.tools store { starts := f.starts } = made at hchildren hopens ⊢
  obtain ⟨l, answer⟩ := made
  cases answer with
  | error failure =>
    have hsame : took { f with files, temporaries } l = { f with files, starts := l.starts, temporaries } := by
      simp [took, show l.children = [] from hchildren]
    simp only [hsame]
    exact ServerMove.serverEnds hmode (.inr hfrom) files l.starts temporaries failure (_ :: l.effects)
  | ok =>
    have hsame : l.children = [{ role := .server }] := hchildren
    simp only [took, hsame]
    exact .serves hfrom files l.starts temporaries hopens

theorem IsPair.fileStep (h : f.IsPair) (launcher : Launcher) :
    f.ServerMove (f.fileStep launcher).1 (f.fileStep launcher).2 := by
  have hmode := h.mode
  unfold Fleet.fileStep
  cases hphase : f.phase with
  | resetMarker =>
    have hfrom : f.phase.isPreparing = true := by rw [hphase]; rfl
    obtain ⟨files, answer, hwrite⟩ := f.writeMarker_eq 0
    simp only [hwrite]
    cases answer with
    | error fault => exact .fails hfrom files fault.failure
    | ok =>
      simp only [hmode, or_true, if_true]
      exact .allocated hfrom files []
  | allocate done =>
    have hfrom : f.phase.isPreparing = true := by rw [hphase]; rfl
    simp only
    cases f.files.makeDirectories [] (storePath f.plan done.length) with
    | error fault => exact .fails hfrom f.files fault.failure
    | ok files =>
      have hmove := ServerMove.allocated hfrom files (done ++ [storePath f.plan done.length])
      rw [hphase] at hmove
      exact hmove
  | publishMarker =>
    have hfrom : f.phase.isPreparing = true := by rw [hphase]; rfl
    obtain ⟨files, answer, hwrite⟩ := f.writeMarker_eq f.plan.workerCount
    simp only [hwrite]
    cases answer with
    | error fault => exact .fails hfrom files fault.failure
    | ok => exact .enterMode hmode hfrom files launcher
  | makeRoot =>
    simp only
    cases f.files.makeDirectories [] f.plan.storeRoot with
    | error fault => exact .serverEnds hmode (.inl hphase) f.files f.starts f.temporaries fault.failure []
    | ok files => exact .makes hphase files
  | makeServerStore =>
    simp only
    cases f.files.makeTemporary [] (Stores.serverPath f.plan.storeRoot) (f.temporaries + 1) with
    | error fault =>
      have hmove := ServerMove.serverEnds hmode (.inr hphase) f.files f.starts (f.temporaries + 1) fault.failure []
      rw [hphase] at hmove
      exact hmove
    | ok made =>
      have hmove := ServerMove.startServer hmode hphase made.1 (f.temporaries + 1) launcher made.2
      rw [hphase] at hmove
      exact hmove
  | _ => exact .still

theorem IsPair.fileFails (h : f.IsPair) (fault : FileFault) :
    f.ServerMove (f.fileFails fault).1 (f.fileFails fault).2 := by
  unfold Fleet.fileFails
  cases hphase : f.phase with
  | makeRoot => exact .serverEnds h.mode (.inl hphase) f.files f.starts f.temporaries fault.failure []
  | makeServerStore => exact .serverEnds h.mode (.inr hphase) f.files f.starts f.temporaries fault.failure []
  | resetMarker | allocate _ | publishMarker =>
    simp only [hasFileStep, hphase, if_true]
    exact .fails (by rw [hphase]; rfl) f.files fault.failure
  | _ =>
    simp only [hasFileStep, hphase]
    exact .still

theorem IsPair.concludes (h : f.IsPair) : f.ServerMove f.concludes.1 f.concludes.2 := by
  unfold Fleet.concludes
  cases hphase : f.phase with
  | serving =>
    simp only [serverEnds_eq h.mode]
    split
    · exact .concludes hphase _ (by simp [IsServers, *]) rfl
    · exact .concludes hphase _ (by simp [IsServers, *]) rfl
    · exact .still
  | inShell => exact absurd hphase h.inShell
  | _ => exact .still

/-- A step on the server's side makes a move there. -/
theorem IsPair.serverMove_step (h : f.IsPair) (launcher : Launcher) {a : Action}
    (ha : (Happening.act a).isServers = true) : f.ServerMove (f.step launcher a).1 (f.step launcher a).2 := by
  cases a with
  | file fault =>
    cases fault with
    | none => exact h.fileStep launcher
    | some fault => exact h.fileFails fault
  | conclude => exact h.concludes
  | exited role code => exact .ends (by simpa [Happening.isServers] using ha) rfl
  | failed role failure =>
    have hrole : role.isWorker = false := by simpa [Happening.isServers] using ha
    simp only [step, hrole, Bool.false_eq_true, false_and, if_false]
    exact .ends hrole rfl
  | _ => contradiction

/-! ## Steps on the workers' side -/

theorem not_running_of_workerCodes? {codes : List Int} (h : f.workerCodes? = some codes) :
    ∀ c ∈ f.workers, c.course.isRunning = false := by
  unfold workerCodes? at h
  generalize f.workers = children at h ⊢
  induction children generalizing codes with
  | nil => simp
  | cons child rest ih =>
    simp only [List.mapM_cons, Option.bind_eq_bind, Option.bind_eq_some_iff] at h
    obtain ⟨code, hcode, codes, hrest, -⟩ := h
    refine List.forall_mem_cons.mpr ⟨?_, ih hrest⟩
    cases hcourse : child.course <;> simp_all [Course.code?, Course.isRunning]

theorem waiting_of_cancelDue (h : f.cancelDue = true) : f.side = .waiting := by
  simp only [cancelDue, Bool.and_eq_true, decide_eq_true_eq] at h
  exact h.1.1

theorem WorkersMove.becomesReady (hside : f.side = .waiting) (launcher : Launcher) (answer : Except Failure Bool) :
    f.WorkersMove (f.becomesReady launcher answer).1 (f.becomesReady launcher answer).2 := by
  cases answer with
  | error failure => exact .cancels hside rfl
  | ok isReady =>
    cases isReady with
    | false => exact .cancels hside rfl
    | true =>
      obtain ⟨count, starts, effects, answer, hlaunch, hopens, hanswer⟩ := launchWorkers_eq launcher f
      simp only [Fleet.becomesReady, hlaunch]
      rcases hanswer with ⟨rfl, rfl⟩ | ⟨⟨failure, rfl⟩, hcount⟩
      · exact .launches hside starts hopens
      · exact .breaks hside count starts hcount (by rw [opens_append, hopens]; rfl)

/-- The workers' side ends when a worker has failed, and asks the others to end, or when all have exited. -/
theorem IsPair.gathers (h : f.IsPair) : f.WorkersMove f.gathers.1 f.gathers.2 := by
  unfold Fleet.gathers
  split
  case h_1 => exact absurd ‹_› h.working
  case h_2 =>
    rw [if_neg Bool.false_ne_true]
    split
    case isFalse => exact .still
    case isTrue hside =>
      cases hfirst : f.firstFailure with
      | some failure =>
        simp only [terminateWorkers_eq]
        refine .gives hside (by simp [hfirst]) ?_
        rw [opens_append, opens_terminateWorkers]
        rfl
      | none =>
        simp only
        split
        · exact .gathers hside (not_running_of_workerCodes? ‹_›) rfl
        · exact .still

theorem WorkersMove.windowOver (launcher : Launcher) :
    f.WorkersMove (f.step launcher .windowOver).1 (f.step launcher .windowOver).2 := by
  simp only [step]
  split
  · split
    · exact .still
    · simp only [dismissWorkers_eq]
      exact .dismisses _ ‹_› ‹_› (opens_dismissWorkers f)
  · exact .still

/-- A step on the workers' side makes a move there. -/
theorem IsPair.workersMove_step (h : f.IsPair) (launcher : Launcher) {a : Action}
    (ha : (Happening.act a).isServers = false) : f.WorkersMove (f.step launcher a).1 (f.step launcher a).2 := by
  cases a with
  | file fault => contradiction
  | conclude => contradiction
  | ready answer =>
    simp only [step]
    split
    · exact .becomesReady (And.left ‹_›) launcher answer
    · exact .still
  | exited role code => exact .ends (by simpa [Happening.isServers] using ha) rfl f.firstFailure id
  | failed role failure =>
    refine .ends (by simpa [Happening.isServers] using ha) rfl _ fun hfirst => ?_
    split <;> simp_all
  | stop => exact .stops
  | windowOver => exact .windowOver launcher
  | cancel =>
    simp only [step]
    split
    · exact .cancels (waiting_of_cancelDue ‹_›) rfl
    · exact .still
  | gather => exact h.gathers
  | join =>
    simp only [step]
    split
    · split
      · exact .joins _ ‹_› ‹_›
      · exact .still
    · exact .still

/-! ## Runs -/

theorem isPair_start {plan : FleetPlan} (h : plan.mode = .serverAndWorkers) (files : FileTree) :
    IsPair { plan, files } := ⟨h, by simp, by simp⟩

theorem ServerMove.isPair {effects : List Effect} (hmove : f.ServerMove g effects) (h : f.IsPair) : g.IsPair := by
  cases hmove with
  | still | ends => exact ⟨h.mode, h.working, h.inShell⟩
  | prepares _ phase hto =>
    refine ⟨h.mode, ?_, ?_⟩ <;>
    · rintro rfl
      contradiction
  | fails | enters | makes | serves | abandons | concludes => exact ⟨h.mode, by simp, by simp⟩

theorem WorkersMove.isPair {effects : List Effect} (hmove : f.WorkersMove g effects) (h : f.IsPair) : g.IsPair := by
  cases hmove with
  | dismisses | joins => exact ⟨h.mode, by simp, by simp⟩
  | _ => exact ⟨h.mode, h.working, h.inShell⟩

/-- Every step makes a move on one of the sides. -/
theorem IsPair.move_step (h : f.IsPair) (launcher : Launcher) (a : Action) :
    f.ServerMove (f.step launcher a).1 (f.step launcher a).2
      ∨ f.WorkersMove (f.step launcher a).1 (f.step launcher a).2 := by
  cases ha : (Happening.act a).isServers with
  | true => exact .inl (h.serverMove_step launcher ha)
  | false => exact .inr (h.workersMove_step launcher ha)

theorem IsPair.meet (h : f.IsPair) (launcher : Launcher) (what : Happening) : (f.meet launcher what).IsPair := by
  cases what with
  | files t => exact ⟨h.mode, h.working, h.inShell⟩
  | act a => exact (h.move_step launcher a).elim (·.isPair h) (·.isPair h)

theorem IsPair.run (h : f.IsPair) (launcher : Launcher) (hs : List Happening) : (f.run launcher hs).IsPair := by
  induction hs generalizing f with
  | nil => exact h
  | cons what rest ih => exact ih (h.meet launcher what)

theorem result?_eq_some {r : RunResult} : f.result? = some r ↔ f.phase = .settled r := by
  unfold result?
  cases f.phase <;> simp

theorem ServerMove.settled {effects : List Effect} {r : RunResult} (hmove : f.ServerMove g effects)
    (h : f.phase = .settled r) : g.phase = .settled r := by
  cases hmove with
  | still | ends => exact h
  | prepares hfrom | fails hfrom | enters hfrom => simp [h, Phase.isPreparing] at hfrom
  | makes hfrom | serves hfrom | concludes hfrom | abandons hfrom => simp [h] at hfrom

theorem WorkersMove.settled {effects : List Effect} {r : RunResult} (hmove : f.WorkersMove g effects)
    (h : f.phase = .settled r) : g.phase = .settled r := by
  cases hmove with
  | dismisses _ hfrom | joins _ hfrom => simp [h] at hfrom
  | _ => exact h

/-- A run that has settled stays so. -/
theorem IsPair.settled_meet (h : f.IsPair) {r : RunResult} (hsettled : f.phase = .settled r) (launcher : Launcher)
    (what : Happening) : (f.meet launcher what).phase = .settled r := by
  cases what with
  | files t => exact hsettled
  | act a => exact (h.move_step launcher a).elim (·.settled hsettled) (·.settled hsettled)

theorem IsPair.settled_run (h : f.IsPair) {r : RunResult} (hsettled : f.phase = .settled r) (launcher : Launcher)
    (hs : List Happening) : (f.run launcher hs).phase = .settled r := by
  induction hs generalizing f with
  | nil => exact hsettled
  | cons what rest ih => exact ih (h.meet launcher what) (h.settled_meet hsettled launcher what)

end Fleet

end Bailiff
