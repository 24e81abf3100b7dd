-- SUMMARY: What can happen to a fleet, one thing after another, and what steps do to its processes.
import Bailiff.Fleet.Run

/-!
# Runs of a fleet and its processes

A run is a list of happenings, in any order: steps of the fleet, and changes that others make to the files
meanwhile. The equations here say what the parts of a step do to the processes, for all that the proofs about
runs ask: which processes a launch adds, and which ones are changed by the end of a process or by asking the
workers to end.
-/

namespace Bailiff

namespace Fleet

/-! ## Runs -/

/-- What happens to a fleet. -/
inductive Happening where
  | act (a : Action)
  /-- Others change the files. -/
  | files (t : FileTree)

variable (launcher : Launcher)

/-- The fleet after something has happened. -/
def meet (f : Fleet) : Happening → Fleet
  | .act a => (f.step launcher a).1
  | .files t => { f with files := t }

/-- The fleet after all of a list has happened. -/
def run (f : Fleet) (hs : List Happening) : Fleet := hs.foldl (meet launcher) f

@[simp] theorem run_nil (f : Fleet) : f.run launcher [] = f := rfl

@[simp] theorem run_cons (f : Fleet) (h : Happening) (hs : List Happening) :
    f.run launcher (h :: hs) = (f.meet launcher h).run launcher hs := rfl

theorem run_append (f : Fleet) (hs hs' : List Happening) :
    f.run launcher (hs ++ hs') = (f.run launcher hs).run launcher hs' := List.foldl_append

/-- What a run does outside of itself, in order. -/
def effects (f : Fleet) : List Happening → List Effect
  | [] => []
  | .act a :: rest => (f.step launcher a).2 ++ effects (f.meet launcher (.act a)) rest
  | .files t :: rest => effects (f.meet launcher (.files t)) rest

theorem effects_append (f : Fleet) (hs hs' : List Happening) :
    f.effects launcher (hs ++ hs') = f.effects launcher hs ++ (f.run launcher hs).effects launcher hs' := by
  induction hs generalizing f with
  | nil => rfl
  | cons h rest ih => cases h <;> simp only [List.cons_append, effects, run_cons, ih, List.append_assoc]

/-! ## Changes of one process -/

variable {launcher} {f : Fleet} {role : Role} {update : Child → Child}

/-- A change that leaves the roles alone passes through a selection by role. -/
theorem filter_map_of_role (p : Role → Bool) (hrole : ∀ c, (update c).role = c.role) (children : List Child) :
    (children.map update).filter (fun c => p c.role) = (children.filter fun c => p c.role).map update := by
  rw [List.filter_map]
  congr 1
  refine List.filter_congr fun c _ => ?_
  rw [Function.comp_apply, hrole]

/-- A change of other processes does not show in a selection by role. -/
theorem filter_map_of_fixed (p : Role → Bool) (hrole : ∀ c, (update c).role = c.role)
    (hfixed : ∀ c, p c.role = true → update c = c) (children : List Child) :
    (children.map update).filter (fun c => p c.role) = children.filter fun c => p c.role := by
  rw [filter_map_of_role p hrole]
  exact (List.map_congr_left fun c hc => hfixed c (List.mem_filter.mp hc).2).trans (List.map_id _)

/-- What becomes of a process when one with a role ends. -/
def endAs (role : Role) (course : Course) (c : Child) : Child :=
  if c.role = role then if c.course.isRunning then { c with course } else c else c

theorem ends_eq (f : Fleet) (role : Role) (course : Course) :
    f.ends role course = { f with children := f.children.map (endAs role course) } := rfl

/-- The end of a process changes nothing of it but how far it has come. -/
theorem endAs_kept (role : Role) (course : Course) (c : Child) :
    (endAs role course c).role = c.role ∧ (endAs role course c).terminated = c.terminated
      ∧ (endAs role course c).released = c.released := by
  unfold endAs
  split
  · split <;> exact ⟨rfl, rfl, rfl⟩
  · exact ⟨rfl, rfl, rfl⟩

/-- A process that runs when another has ended is as it was. -/
theorem endAs_running {role : Role} {course : Course} (hcourse : course.isRunning = false) {c : Child}
    (hrunning : (endAs role course c).course.isRunning = true) :
    c.course.isRunning = true ∧ endAs role course c = c := by
  unfold endAs at hrunning ⊢
  split at hrunning
  · split at hrunning <;> simp_all
  · exact ⟨hrunning, if_neg ‹_›⟩

theorem workers_ends (f : Fleet) (role : Role) (course : Course) :
    (f.ends role course).workers = f.workers.map (endAs role course) :=
  filter_map_of_role _ (fun c => (endAs_kept role course c).1) f.children

/-- The same change of several processes, made to one after the other. -/
theorem foldl_change (hrole : ∀ c, (update c).role = c.role) (hagain : ∀ c, update (update c) = update c)
    (roles : List Role) :
    roles.foldl (fun f role => f.change role update) f
      = { f with children := f.children.map fun c => if c.role ∈ roles then update c else c } := by
  induction roles generalizing f with
  | nil => simp
  | cons role rest ih =>
    rw [List.foldl_cons, ih]
    simp only [change, List.map_map]
    congr 1
    refine List.map_congr_left fun c _ => ?_
    by_cases hc : c.role = role <;> by_cases hrest : c.role ∈ rest <;>
      simp [hc, hrest, hrole, hagain]

/-! ## Starts -/

/-- With server and workers, the workers wait while the server is started. -/
theorem enterMode_eq (launcher : Launcher) (f : Fleet) (h : f.plan.mode = .serverAndWorkers) :
    f.enterMode launcher = ({ f with phase := .makeRoot, side := .waiting, linked := !f.stopped },
      [note .debug "workers.readiness.wait" [("policy", .text f.plan.policy.description)], .awaitReadiness]) := by
  simp only [enterMode, h]

/-- Processes of workers with consecutive numbers, as they are when they have just been started. -/
def newWorkers (number count : Nat) : List Child := (List.range' number count).map fun n => { role := .worker n }

theorem length_newWorkers (number count : Nat) : (newWorkers number count).length = count := by
  simp [newWorkers]

theorem mem_newWorkers {number count : Nat} {c : Child} (h : c ∈ newWorkers number count) :
    c.role.isWorker = true ∧ c.terminated = false ∧ c.released = false := by
  obtain ⟨n, -, rfl⟩ := List.mem_map.mp h
  exact ⟨rfl, rfl, rfl⟩

/-- The start of one worker adds its process, or fails and adds none. -/
theorem children_worker (launcher : Launcher) (files : FileTree) (tools : ToolSettings) (number : Nat)
    (store : String) (l : Launching) :
    (∃ failure, (l.worker launcher files tools number store).2 = .error failure
        ∧ (l.worker launcher files tools number store).1.children = l.children)
      ∨ ∃ id, (l.worker launcher files tools number store).2 = .ok id
        ∧ (l.worker launcher files tools number store).1.children
          = l.children ++ newWorkers number 1 := by
  unfold Launching.worker
  cases tools.workerCommand store with
  | error failure => exact .inl ⟨failure, rfl, rfl⟩
  | ok command =>
    simp only [Launching.start]
    split
    · rename_i failure h
      split at h
      · exact .inl ⟨failure, rfl, by cases h; rfl⟩
      · cases h
    · rename_i id h
      split at h
      · cases h
      · exact .inr ⟨id, rfl, by cases h; rfl⟩

/-- Of the workers for a list of stores, the first ones are started: all of them, or as many as come before
the one that fails. -/
theorem children_workers (launcher : Launcher) (files : FileTree) (tools : ToolSettings) (number : Nat)
    (stores : List String) (l : Launching) :
    ∃ count, (l.workers launcher files tools number stores).1.children = l.children ++ newWorkers number count
      ∧ ((∃ ids, (l.workers launcher files tools number stores).2 = .ok ids) ∧ count = stores.length
        ∨ (∃ failure, (l.workers launcher files tools number stores).2 = .error failure)
          ∧ count < stores.length) := by
  induction stores generalizing number l with
  | nil => exact ⟨0, by simp [Launching.workers, newWorkers], .inl ⟨⟨[], rfl⟩, rfl⟩⟩
  | cons store rest ih =>
    have hworker := children_worker launcher files tools number store l
    unfold Launching.workers
    generalize l.worker launcher files tools number store = first at hworker ⊢
    obtain ⟨l', answer⟩ := first
    rcases hworker with ⟨failure, rfl, hchildren⟩ | ⟨id, rfl, hchildren⟩
    · exact ⟨0, by simpa [newWorkers] using hchildren, .inr ⟨⟨failure, rfl⟩, by simp⟩⟩
    · obtain ⟨count, hrest, hanswer⟩ := ih (number + 1) l'
      refine ⟨count + 1, ?_, ?_⟩
      · rw [hrest, hchildren, List.append_assoc]
        simp [newWorkers, List.range'_succ]
      · rcases hanswer with ⟨⟨ids, hids⟩, hcount⟩ | ⟨⟨failure, hfailure⟩, hcount⟩
        · exact .inl ⟨⟨(.worker number, id) :: ids, by simp [hids, Except.map]⟩, by simp [hcount]⟩
        · exact .inr ⟨⟨failure, by simp [hfailure, Except.map]⟩, by simpa using hcount⟩

/-- What the start of the server answers: the command must read, and then the launcher decides. -/
theorem server_answer (launcher : Launcher) (files : FileTree) (tools : ToolSettings) (store : String)
    (l : Launching) : (l.server launcher files tools store).2
      = (tools.serverCommand store).bind fun command =>
          (launcher files l.starts .server command).map fun _ => () := by
  unfold Launching.server
  cases tools.serverCommand store with
  | error failure => rfl
  | ok command =>
    simp only [Launching.start, Launching.add, Except.bind]
    cases launcher files l.starts .server command <;> rfl

/-- The start of the server adds one process, unless it fails. -/
theorem children_server (launcher : Launcher) (files : FileTree) (tools : ToolSettings) (store : String)
    (l : Launching) : (l.server launcher files tools store).1.children
      = l.children ++ ((l.server launcher files tools store).2.toOption.map fun _ => { role := .server }).toList := by
  unfold Launching.server
  cases tools.serverCommand store with
  | error failure => exact (List.append_nil _).symm
  | ok command =>
    simp only [Launching.start, Launching.add]
    cases launcher files l.starts .server command with
    | error failure => exact (List.append_nil _).symm
    | ok id => rfl

/-! ## Asking workers to end -/

theorem mem_lingering {c : Child} (h : c ∈ f.workers) (hrunning : c.course.isRunning = true) :
    c.role ∈ f.lingering :=
  List.mem_map_of_mem (List.mem_filter.mpr ⟨h, hrunning⟩)

/-- A worker that is asked to end. -/
def askedToEnd (c : Child) : Child := { c with terminated := true }

/-- A worker that is asked to end and not waited for. -/
def dismissed (c : Child) : Child := { c with terminated := true, released := true }

theorem isWorker_of_mem_lingering {role : Role} (h : role ∈ f.lingering) : role.isWorker = true := by
  obtain ⟨c, hc, rfl⟩ := List.mem_map.mp h
  exact (List.mem_filter.mp (List.mem_filter.mp hc).1).2

theorem terminateWorkers_eq (f : Fleet) : f.terminateWorkers.1
    = { f with children := f.children.map fun c => if c.role ∈ f.lingering then askedToEnd c else c } :=
  @foldl_change f askedToEnd (fun _ => rfl) (fun _ => rfl) _

theorem release_terminate (f : Fleet) (role : Role) :
    (f.terminate role).release role = f.change role dismissed := by
  simp only [terminate, release, change, List.map_map]
  congr 1
  refine List.map_congr_left fun c _ => ?_
  by_cases hc : c.role = role <;> simp [hc, dismissed]

theorem dismissWorkers_eq (f : Fleet) : f.dismissWorkers.1
    = { f with children := f.children.map fun c => if c.role ∈ f.lingering then dismissed c else c } := by
  simp only [dismissWorkers, release_terminate]
  exact @foldl_change f dismissed (fun _ => rfl) (fun _ => rfl) _

end Fleet

end Bailiff
