-- SUMMARY: What a fleet with server and workers does for the server, and that the workers do not show in it.
import Mathlib.Data.List.Induction
import Bailiff.Proofs.Fleet.Moves

/-!
# The server's part

The part of a fleet that is about the server leaves out the workers and all that is known of them. A step on the
workers' side leaves it alone, and a step on the server's side does to it what it does to a fleet without workers.
So a run with workers is, to the server, a run of its own (`Fleet.ofServer_run`), and what a run comes to is the
server's result (`Fleet.Served`).
-/

namespace Bailiff

/-! ## The server's part -/

/-- A plan without what only the workers depend on. -/
def FleetPlan.ofServer (p : FleetPlan) : FleetPlan :=
  { p with tools := { p.tools with workerArgs := "" }, policy := ⟨"", false⟩ }

namespace Fleet

/-- A phase for those who do not see whether the workers are still waited for. -/
def Phase.ofServer : Phase → Phase
  | settled r => joining r
  | p => p

/-- The part of a fleet that is about the server: the workers are left out, and all that is known of them. -/
def ofServer (f : Fleet) : Fleet :=
  { plan := f.plan.ofServer
    files := f.files
    phase := f.phase.ofServer
    children := f.children.filter fun c => !c.role.isWorker
    temporaries := f.temporaries }

/-- How a launcher answers the start of a server. The answer depends on nothing that has been started. -/
def StartsServer (launcher : Launcher) (answers : FileTree → CommandLine → Except Failure Unit) : Prop :=
  ∀ files starts command, (launcher files starts .server command).map (fun _ => ()) = answers files command

variable {launcher launcher' : Launcher} {answers : FileTree → CommandLine → Except Failure Unit} {f g : Fleet}

theorem course?_ofServer (f : Fleet) {role : Role} (h : role.isWorker = false) :
    f.ofServer.course? role = f.course? role := by
  unfold course? ofServer
  rw [List.find?_filter]
  congr 2
  funext c
  by_cases hc : c.role = role <;> simp [hc, h]

@[simp] theorem Phase.ofServer_ofServer (p : Phase) : p.ofServer.ofServer = p.ofServer := by
  cases p <;> rfl

@[simp] theorem ofServer_ofServer (f : Fleet) : f.ofServer.ofServer = f.ofServer := by
  simp [ofServer, FleetPlan.ofServer, List.filter_filter]

/-- Parts that are the same stay so when both fleets go to one phase. -/
theorem ofServer_phase (h : f.ofServer = g.ofServer) (p : Phase) :
    ofServer { f with phase := p } = ofServer { g with phase := p } := by
  simp only [ofServer, Fleet.mk.injEq] at h ⊢
  simp [h]

/-- When the phase changes, the server's part changes as it does by itself. -/
theorem ofServer_phase_self (f : Fleet) (p : Phase) :
    ofServer { f with phase := p } = ofServer { f.ofServer with phase := p } :=
  ofServer_phase (ofServer_ofServer f).symm p

theorem writeMarker_ofServer (f : Fleet) (count : Binary64) :
    f.ofServer.writeMarker count = ((f.writeMarker count).1.ofServer, (f.writeMarker count).2) := by
  simp only [writeMarker, ofServer, FleetPlan.ofServer]

theorem ofServer_allocated (f : Fleet) (done : List String) :
    (f.allocated done).1.ofServer = (f.ofServer.allocated done).1.ofServer := by
  have hcount : f.ofServer.plan.workerCount = f.plan.workerCount := rfl
  unfold allocated
  rw [hcount]
  split <;> exact ofServer_phase_self f _

theorem ofServer_serverEnds (f : Fleet) (r : RunResult) :
    (f.serverEnds r).1.ofServer = (f.ofServer.serverEnds r).1.ofServer := by
  have hmode : f.ofServer.plan.mode = f.plan.mode := rfl
  unfold serverEnds
  rw [hmode]
  split <;> exact ofServer_phase_self f _

theorem ofServer_settle (f : Fleet) (r : RunResult) :
    (f.settle r).1.ofServer = (f.ofServer.settle r).1.ofServer :=
  ofServer_phase_self f _

theorem ofServer_enterMode (launcher launcher' : Launcher) (hmode : f.plan.mode = .serverAndWorkers) :
    (f.enterMode launcher).1.ofServer = (f.ofServer.enterMode launcher').1.ofServer := by
  rw [enterMode_eq launcher f hmode, enterMode_eq launcher' f.ofServer hmode]
  exact ofServer_phase_self f .makeRoot

theorem server_answer_of_starts (hstarts : StartsServer launcher answers) (files : FileTree) (tools : ToolSettings)
    (store : String) (l : Launching) :
    (l.server launcher files tools store).2 = (tools.serverCommand store).bind (answers files) := by
  rw [server_answer]
  congr 1
  funext command
  exact hstarts files l.starts command

/-- The server is started on both sides, or on none and for the same reason. -/
theorem ofServer_startServer (hstarts : StartsServer launcher answers) (hstarts' : StartsServer launcher' answers)
    (f : Fleet) (store : String) :
    (f.startServer launcher store).1.ofServer = (f.ofServer.startServer launcher' store).1.ofServer := by
  have hanswer := server_answer_of_starts hstarts f.files f.plan.tools store { starts := f.starts }
  have hanswer' := server_answer_of_starts hstarts' f.ofServer.files f.ofServer.plan.tools store { starts := 0 }
  have hchildren := children_server launcher f.files f.plan.tools store { starts := f.starts }
  have hchildren' := children_server launcher' f.ofServer.files f.ofServer.plan.tools store { starts := 0 }
  have hstart : f.ofServer.starts = 0 := rfl
  unfold startServer
  rw [hstart]
  generalize Launching.server launcher f.files f.plan.tools store { starts := f.starts } = made at *
  generalize Launching.server launcher' f.ofServer.files f.ofServer.plan.tools store { starts := 0 } = made' at *
  obtain ⟨l, answer⟩ := made
  obtain ⟨l', answer'⟩ := made'
  have hsame : answer' = answer := hanswer'.trans hanswer.symm
  subst hsame
  have htook : (f.took l).ofServer = (f.ofServer.took l').ofServer := by
    simp only [List.nil_append] at hchildren hchildren'
    simp [ofServer, took, FleetPlan.ofServer, List.filter_filter, hchildren, hchildren']
  cases answer' with
  | error failure =>
    simp only
    rw [ofServer_serverEnds, htook, ← ofServer_serverEnds]
  | ok =>
    exact ofServer_phase htook .serving

theorem ofServer_fileStep (hmode : f.plan.mode = .serverAndWorkers) (hstarts : StartsServer launcher answers)
    (hstarts' : StartsServer launcher' answers) :
    (f.fileStep launcher).1.ofServer = (f.ofServer.fileStep launcher').1.ofServer := by
  have hphases : f.ofServer.phase = f.phase.ofServer := rfl
  have hfiles : f.ofServer.files = f.files := rfl
  have hroot : f.ofServer.plan.storeRoot = f.plan.storeRoot := rfl
  have hcount : f.ofServer.plan.workerCount = f.plan.workerCount := rfl
  have hmade : f.ofServer.temporaries = f.temporaries := rfl
  have hpath : ∀ made, storePath f.ofServer.plan made = storePath f.plan made := fun _ => rfl
  unfold fileStep
  cases hphase : f.phase with
  | resetMarker =>
    simp only [hphases, hphase, Phase.ofServer, writeMarker_ofServer]
    obtain ⟨files, answer, hwrite⟩ := f.writeMarker_eq 0
    simp only [hwrite]
    cases answer with
    | error fault => exact ofServer_settle _ _
    | ok =>
      simp only [hmode, or_true, if_true]
      rw [if_pos (.inr hmode)]
      exact ofServer_allocated _ _
  | allocate done =>
    simp only [hphases, hphase, Phase.ofServer, hfiles, hpath]
    cases f.files.makeDirectories [] (storePath f.plan done.length) with
    | error fault => exact ofServer_settle _ _
    | ok files => exact ofServer_allocated { f with files } _
  | publishMarker =>
    simp only [hphases, hphase, Phase.ofServer, writeMarker_ofServer, hcount]
    obtain ⟨files, answer, hwrite⟩ := f.writeMarker_eq f.plan.workerCount
    simp only [hwrite]
    cases answer with
    | error fault => exact ofServer_settle _ _
    | ok =>
      refine ofServer_enterMode launcher launcher' ?_
      exact hmode
  | makeRoot =>
    simp only [hphases, hphase, Phase.ofServer, hfiles, hroot]
    cases f.files.makeDirectories [] f.plan.storeRoot with
    | error fault => exact ofServer_serverEnds _ _
    | ok files => exact ofServer_phase_self { f with files } .makeServerStore
  | makeServerStore =>
    simp only [hphases, hphase, Phase.ofServer, hfiles, hroot, hmade]
    cases f.files.makeTemporary [] (Stores.serverPath f.plan.storeRoot) (f.temporaries + 1) with
    | error fault => exact ofServer_serverEnds { f with temporaries := f.temporaries + 1 } _
    | ok made =>
      exact ofServer_startServer hstarts hstarts' { f with files := made.1, temporaries := f.temporaries + 1 } made.2
  | _ =>
    simp only [hphases, hphase, Phase.ofServer]
    exact (ofServer_ofServer f).symm

theorem ofServer_fileFails (f : Fleet) (fault : FileFault) :
    (f.fileFails fault).1.ofServer = (f.ofServer.fileFails fault).1.ofServer := by
  have hphases : f.ofServer.phase = f.phase.ofServer := rfl
  unfold fileFails
  cases hphase : f.phase with
  | makeRoot =>
    simp only [hphases, hphase, Phase.ofServer]
    exact ofServer_serverEnds _ _
  | makeServerStore =>
    simp only [hphases, hphase, Phase.ofServer]
    exact ofServer_serverEnds _ _
  | resetMarker | allocate _ | publishMarker =>
    simp only [hasFileStep, hphases, hphase, Phase.ofServer, if_true]
    exact ofServer_settle _ _
  | _ =>
    simp only [hasFileStep, hphases, hphase, Phase.ofServer]
    exact (ofServer_ofServer f).symm

theorem ofServer_concludes (f : Fleet) : f.concludes.1.ofServer = f.ofServer.concludes.1.ofServer := by
  have hphases : f.ofServer.phase = f.phase.ofServer := rfl
  unfold concludes
  cases hphase : f.phase with
  | serving =>
    simp only [hphases, hphase, Phase.ofServer, course?_ofServer f (rfl : Role.server.isWorker = false)]
    split
    · exact ofServer_serverEnds _ _
    · exact ofServer_serverEnds _ _
    · exact (ofServer_ofServer f).symm
  | inShell =>
    simp only [hphases, hphase, Phase.ofServer, course?_ofServer f (rfl : Role.shell.isWorker = false)]
    split
    · exact ofServer_settle _ _
    · split
      · exact ofServer_settle _ _
      · exact ofServer_settle _ _
    · exact (ofServer_ofServer f).symm
  | _ => simp [hphases, hphase, Phase.ofServer]

theorem ofServer_ends (f : Fleet) (role : Role) (course : Course) :
    (f.ends role course).ofServer = f.ofServer.ends role course := by
  simp only [ends_eq, ofServer]
  rw [filter_map_of_role (fun r => !r.isWorker) fun c => (endAs_kept role course c).1]

/-- What happens to the server does to the server's part what it does without workers. -/
theorem ofServer_meet_servers (hmode : f.plan.mode = .serverAndWorkers) (hstarts : StartsServer launcher answers)
    (hstarts' : StartsServer launcher' answers) {what : Happening} (h : what.isServers = true) :
    (f.meet launcher what).ofServer = (f.ofServer.meet launcher' what).ofServer := by
  cases what with
  | files t => exact (ofServer_ofServer { f with files := t }).symm
  | act a =>
    cases a with
    | file fault =>
      cases fault with
      | none =>
        simp only [meet, step]
        exact ofServer_fileStep hmode hstarts hstarts'
      | some fault =>
        simp only [meet, step]
        exact ofServer_fileFails f fault
    | conclude =>
      simp only [meet, step]
      exact ofServer_concludes f
    | exited role code =>
      simp only [meet, step, ofServer_ends, ofServer_ofServer]
    | failed role failure =>
      change (f.ends role (.failed failure)).ofServer = (f.ofServer.ends role (.failed failure)).ofServer
      simp only [ofServer_ends, ofServer_ofServer]
    | _ => contradiction

/-! ## The workers' part -/

/-- A change of workers does not show in the server's part. -/
theorem ofServer_map {update : Child → Child} (hrole : ∀ c, (update c).role = c.role)
    (hfixed : ∀ c, c.role.isWorker = false → update c = c) :
    ofServer { f with children := f.children.map update } = f.ofServer := by
  simp only [ofServer]
  rw [filter_map_of_fixed (fun r => !r.isWorker) hrole fun c hc => hfixed c (by simpa using hc)]

theorem ofServer_map_lingering {update : Child → Child} (hrole : ∀ c, (update c).role = c.role) :
    ofServer { f with children := f.children.map fun c => if c.role ∈ f.lingering then update c else c }
      = f.ofServer := by
  refine ofServer_map (fun c => by split <;> simp [hrole]) fun c hc => if_neg fun hlingers => ?_
  simp [isWorker_of_mem_lingering hlingers] at hc

theorem ofServer_newWorkers (f : Fleet) (count : Nat) :
    ofServer { f with children := f.children ++ newWorkers 1 count } = f.ofServer := by
  have hnone : ((newWorkers 1 count).filter fun c => !c.role.isWorker) = [] :=
    List.filter_eq_nil_iff.mpr fun c hc => by simp [(mem_newWorkers hc).1]
  simp only [ofServer, List.filter_append, hnone, List.append_nil]

/-- A move on the workers' side leaves the server's part alone. -/
theorem WorkersMove.ofServer_eq {effects : List Effect} (hmove : f.WorkersMove g effects) :
    g.ofServer = f.ofServer := by
  cases hmove with
  | still | stops | cancels | gathers => rfl
  | @ends role hrole course =>
    change (f.ends role course).ofServer = f.ofServer
    rw [ends_eq]
    refine ofServer_map (fun c => (endAs_kept role course c).1) fun c hc => if_neg ?_
    rintro rfl
    simp [hrole] at hc
  | launches | breaks => exact ofServer_newWorkers f _
  | gives => exact @ofServer_map_lingering f askedToEnd fun _ => rfl
  | dismisses r hfrom =>
    rw [ofServer_phase (@ofServer_map_lingering f dismissed fun _ => rfl)]
    simp [ofServer, Phase.ofServer, hfrom]
  | joins r hfrom => simp [ofServer, Phase.ofServer, hfrom]

theorem IsPair.ofServer_meet_workers (h : f.IsPair) (launcher : Launcher) {what : Happening}
    (hwhat : what.isServers = false) : (f.meet launcher what).ofServer = f.ofServer := by
  cases what with
  | files t => contradiction
  | act a => exact (h.workersMove_step launcher hwhat).ofServer_eq

/-! ## Runs of the server's part -/

/-- To the server, a run with workers is a run of its own. -/
theorem ofServer_run {plan : FleetPlan} (hmode : plan.mode = .serverAndWorkers) (files : FileTree)
    (hstarts : StartsServer launcher answers) (hstarts' : StartsServer launcher' answers) (hs : List Happening) :
    (Fleet.run launcher { plan, files } hs).ofServer
      = (Fleet.run launcher' { plan := plan.ofServer, files } (hs.filter (·.isServers))).ofServer := by
  have hmode' : plan.ofServer.mode = .serverAndWorkers := hmode
  induction hs using List.reverseRecOn with
  | nil => simp only [List.filter_nil, run_nil, ofServer, FleetPlan.ofServer]
  | append_singleton hs what ih =>
    have hpair := (isPair_start hmode files).run launcher hs
    have hpair' := (isPair_start hmode' files).run launcher' (hs.filter (·.isServers))
    rw [List.filter_append, run_append, run_append]
    cases hwhat : what.isServers with
    | true =>
      simp only [List.filter_cons, hwhat, if_true, List.filter_nil, run_cons, run_nil]
      rw [ofServer_meet_servers hpair.mode hstarts hstarts' hwhat, ih,
        ← ofServer_meet_servers hpair'.mode hstarts' hstarts' hwhat]
    | false =>
      simp only [List.filter_cons, hwhat, List.filter_nil, run_cons, run_nil, Bool.false_eq_true, if_false]
      rw [hpair.ofServer_meet_workers launcher hwhat, ih]

/-! ## Outcomes -/

/-- The result that a run has come to, whether it has settled or still waits for the workers. -/
def outcome? (f : Fleet) : Option RunResult :=
  match f.phase with
  | .joining r | .settled r => some r
  | _ => none

theorem outcome?_ofServer (f : Fleet) : f.ofServer.outcome? = f.outcome? := by
  have hphase : f.ofServer.phase = f.phase.ofServer := rfl
  unfold outcome?
  rw [hphase]
  cases f.phase <;> rfl

theorem outcome?_of_preparing (h : f.phase.isPreparing = true) : f.outcome? = none := by
  unfold outcome?
  cases hphase : f.phase <;> simp_all [Phase.isPreparing]

theorem ServerMove.outcome {effects : List Effect} {r : RunResult} (hmove : f.ServerMove g effects)
    (h : f.outcome? = some r) : g.outcome? = some r := by
  cases hmove with
  | still | ends => exact h
  | prepares hfrom | fails hfrom | enters hfrom => simp [outcome?_of_preparing hfrom] at h
  | makes hfrom | serves hfrom | concludes hfrom => simp [outcome?, hfrom] at h
  | abandons hfrom => rcases hfrom with hfrom | hfrom <;> simp [outcome?, hfrom] at h

theorem WorkersMove.outcome?_eq {effects : List Effect} (hmove : f.WorkersMove g effects) :
    g.outcome? = f.outcome? := by
  rw [← outcome?_ofServer g, hmove.ofServer_eq, outcome?_ofServer]

/-- What a run has come to does not change any more. -/
theorem IsPair.outcome_run (h : f.IsPair) {r : RunResult} (houtcome : f.outcome? = some r) (launcher : Launcher)
    (hs : List Happening) : (f.run launcher hs).outcome? = some r := by
  induction hs generalizing f with
  | nil => exact houtcome
  | cons what rest ih =>
    refine ih (h.meet launcher what) ?_
    cases what with
    | files t => exact houtcome
    | act a => exact (h.move_step launcher a).elim (·.outcome houtcome) (·.outcome?_eq.trans houtcome)

/-- There is no server before it is started, and what a run comes to is the server's result. -/
structure Served (f : Fleet) : Prop where
  before : f.outcome? = none → f.phase ≠ .serving → f.course? .server = none
  outcome : ∀ r, f.outcome? = some r → f.IsServers r

theorem course?_ends (f : Fleet) (role role' : Role) (course : Course) :
    (f.ends role course).course? role' = (f.course? role').map fun before =>
      if role' = role ∧ before.isRunning = true then course else before := by
  unfold course?
  rw [ends_eq, List.find?_map]
  have hrole : ((fun c : Child => decide (c.role = role')) ∘ endAs role course) = fun c => decide (c.role = role') := by
    funext c
    simp [endAs_kept]
  rw [hrole, Option.map_map, Option.map_map]
  cases hfind : f.children.find? fun c => decide (c.role = role') with
  | none => rfl
  | some c =>
    have hc : c.role = role' := by simpa using List.find?_some hfind
    simp only [Option.map_some, Function.comp_apply, endAs, hc]
    split
    · split <;> simp_all
    · simp_all

/-- What holds of the server's part holds of every fleet with the same. -/
theorem Served.of_ofServer (h : f.Served) (hsame : g.ofServer = f.ofServer) : g.Served := by
  have hcourse : g.course? .server = f.course? .server := by
    rw [← course?_ofServer g (rfl : Role.server.isWorker = false), hsame, course?_ofServer f rfl]
  have houtcome : g.outcome? = f.outcome? := by rw [← outcome?_ofServer g, hsame, outcome?_ofServer f]
  have hserving : f.phase = .serving → g.phase = .serving := by
    intro hf
    have hphase : g.phase.ofServer = f.phase.ofServer := congrArg Fleet.phase hsame
    rw [hf] at hphase
    cases hg : g.phase <;> simp_all [Phase.ofServer]
  constructor
  · intro hbefore hnot
    rw [hcourse]
    exact h.before (houtcome ▸ hbefore) fun hf => hnot (hserving hf)
  · intro r hr
    simp only [IsServers, hcourse]
    exact h.outcome r (houtcome ▸ hr)

theorem Served.ends (h : f.Served) (role : Role) (course : Course) : (f.ends role course).Served := by
  constructor
  · intro hbefore hphase
    rw [course?_ends, h.before hbefore hphase, Option.map_none]
  · intro r hr
    have hserver := h.outcome r hr
    simp only [IsServers, course?_ends] at hserver ⊢
    cases hcourse : f.course? .server with
    | none => simpa [hcourse] using hserver
    | some before => cases before <;> simp_all [Course.isRunning]

theorem Served.no_server (h : f.Served) (hphase : f.phase.isPreparing = true ∨ f.phase = .makeRoot
    ∨ f.phase = .makeServerStore) : f.course? .server = none := by
  refine h.before ?_ ?_
  · rcases hphase with hphase | hphase | hphase
    · exact outcome?_of_preparing hphase
    all_goals simp [outcome?, hphase]
  · rintro hf
    simp [hf, Phase.isPreparing] at hphase

/-- Nothing of the server is known, and if the run has come to something it is a failure. -/
theorem served_of_no_server (hnone : g.course? .server = none)
    (herror : ∀ r, g.outcome? = some r → ∃ failure, r = .error failure) : g.Served := by
  refine ⟨fun _ _ => hnone, fun r hr => ?_⟩
  simp only [IsServers, hnone]
  exact herror r hr

theorem Served.serverMove (h : f.Served) {effects : List Effect} (hmove : f.ServerMove g effects) : g.Served := by
  cases hmove with
  | still => exact h
  | prepares hfrom phase hto =>
    refine served_of_no_server (h.no_server (.inl hfrom)) fun r hr => ?_
    simp [outcome?_of_preparing, hto] at hr
  | fails hfrom => exact served_of_no_server (h.no_server (.inl hfrom)) (by simp [outcome?])
  | enters hfrom => exact served_of_no_server (h.no_server (.inl hfrom)) (by simp [outcome?])
  | makes hfrom => exact served_of_no_server (h.no_server (.inr (.inl hfrom))) (by simp [outcome?])
  | serves => exact ⟨fun _ hphase => absurd rfl hphase, by simp [outcome?]⟩
  | abandons hfrom => exact served_of_no_server (h.no_server (.inr hfrom)) (by simp [outcome?])
  | concludes hfrom r hserver =>
    refine ⟨by simp [outcome?], fun r' hr => ?_⟩
    obtain rfl : r = r' := by simpa [outcome?] using hr
    exact hserver
  | ends hrole hcourse => exact h.ends _ _

theorem Served.run (h : f.Served) (hpair : f.IsPair) (launcher : Launcher) (hs : List Happening) :
    (f.run launcher hs).Served := by
  induction hs generalizing f with
  | nil => exact h
  | cons what rest ih =>
    refine ih ?_ (hpair.meet launcher what)
    cases what with
    | files t => exact ⟨h.before, h.outcome⟩
    | act a => exact (hpair.move_step launcher a).elim h.serverMove fun hmove => h.of_ofServer hmove.ofServer_eq

end Fleet

end Bailiff
