-- SUMMARY: What a supervise command that no signal reaches leaves below the root of its stores.
import Bailiff.Fleet.Supervision
import Bailiff.Proofs.Fleet.Stages

/-!
# Clean roots

When a call of the supervise command has settled without a signal, what is below the root of its stores is what
was there before, but for stores that could not be removed (`SuperviseCommand.Call.leaves_clean_root`). It rests on
what is known of the files at the two ends of the sweep: the fleet has made nothing below the root but stores
(`Fleet.Prepares.below`), and the sweep has taken away just the stores it has listed (`Sweep.Account`). Paths with
a backslash are the exception, since the listing takes it for a slash and walks another place
(`SuperviseCommand.Call.leaves_stores_below_backslash`).
-/

namespace Bailiff

/-! ## Below the root -/

section Below

variable {plan : FleetPlan} {ps ws : List String} {octets : List Nat} {files t : FileTree} {l : Location}

/-- All that a fleet makes below its root are stores, when its marker is elsewhere. -/
theorem Fleet.Prepares.below (h : Fleet.Prepares plan ps files t)
    (houtside : ∀ d, files.WritesTo plan.workersFile d → ¬l <+: d) (hway : t.Way [] ps l) (name : String)
    (below : Location) : t.at? (l ++ name :: below) = files.at? (l ++ name :: below)
      ∨ below = [] ∧ Stores.IsPlain name ∧ t.at? (l ++ [name]) = some .directory := by
  rcases h.changed (l ++ name :: below) with hsame | ⟨d, hd, hpre⟩ | ⟨-, -, hdir, l', hway', hof⟩
  · exact .inl hsame
  · exact absurd ((List.prefix_append l _).trans hpre) (houtside d hd)
  · cases hway'.unique hway
    rcases hof with hpre | ⟨other, hother, heq⟩
    · exact absurd hpre.length_le (by simp)
    · obtain ⟨rfl, rfl⟩ : name = other ∧ below = [] := by simpa using heq
      exact .inr ⟨rfl, hother, hdir⟩

theorem Fleet.Prepares.plainBelow (h : Fleet.Prepares plan ps files t)
    (houtside : ∀ d, files.WritesTo plan.workersFile d → ¬l <+: d) (hway : t.Way [] ps l) (htree : files.IsTree)
    (hplain : ∀ name ∈ files.names l, Stores.isStoreName (Listing.key name) = true → '\\' ∉ name.toList) :
    Sweep.PlainBelow t l := by
  intro name hname hstore
  rw [FileTree.mem_names_iff] at hname
  rcases h.below houtside hway name [] with hsame | ⟨-, hnew, -⟩
  · rw [hsame] at hname
    have hself := hplain name (FileTree.mem_names_iff.mpr hname) hstore
    rw [Listing.key_of_plain hself] at hstore
    exact ⟨hstore, htree.names l name hname, hself⟩
  · exact hnew

end Below

/-! ## The supervise command -/

namespace SuperviseCommand

/-- A call of the command: what it is given, what it draws at random, and the files it finds. -/
structure Call where
  places : Places := {}
  env : Value
  jobs : Option Binary64
  workersFile : Option String
  parallelism : Binary64
  policy : ReadinessPolicy
  octets : List Nat
  launcher : Fleet.Launcher
  files : FileTree

/-- What has come of a call. -/
structure Outcome where
  files : FileTree
  effects : List Supervision.Effect
  result : Option RunResult

namespace Call

def settings (c : Call) : Except Failure RunSettings :=
  SuperviseCommand.settings c.places c.env c.jobs c.workersFile c.parallelism

def plan (c : Call) (run : RunSettings) : FleetPlan := run.plan c.policy (Stores.suffix c.octets)

/-- The supervision that settings lead to. -/
def start (c : Call) (run : RunSettings) : Supervision := .begin c.launcher (c.plan run) c.files

/-- What has come of a call when some things have happened. Without settings nothing is begun. -/
def after (c : Call) (acts : List Supervision.Action) : Outcome :=
  match c.settings with
  | .error report => { files := c.files, effects := [], result := some (.error report) }
  | .ok run =>
    let (s, effects) := (c.start run).run c.launcher acts
    { files := s.fleet.files, effects, result := s.result?.map finish }

/-- The marker is written to no place below another. -/
def MarksOutside (c : Call) (run : RunSettings) (l : Location) : Prop :=
  ∀ d, c.files.WritesTo run.workersFile d → ¬l <+: d

/-- The stores below a place, if any are left, could not be removed, and that has been logged. -/
def LeavesClean (c : Call) (acts : List Supervision.Action) (root : String) (l : Location) : Prop :=
  ∀ name ∈ (c.after acts).files.names l, Stores.isStoreName name = true →
    (c.after acts).files.leadsToDirectory l name = true →
    ∃ f, Supervision.removalFailed (Sweep.listedPath root name) f ∈ (c.after acts).effects

/-- Everything below a place is as the call has found it, unless it has the name of a store and was a directory,
or led to one, at some moment. -/
def LeavesOthers (c : Call) (acts : List Supervision.Action) (l : Location) : Prop :=
  ∀ name, (Stores.isStoreName name = true →
      ∀ before, before <+: acts → (c.after before).files.leadsToDirectory l name = false) →
    ∀ below, (c.after acts).files.at? (l ++ name :: below) = c.files.at? (l ++ name :: below)

variable {c : Call} {run : RunSettings} {acts : List Supervision.Action} {l : Location}

theorem after_of_settings (h : c.settings = .ok run) (acts : List Supervision.Action) : c.after acts
    = { files := ((c.start run).run c.launcher acts).1.fleet.files
        effects := ((c.start run).run c.launcher acts).2
        result := ((c.start run).run c.launcher acts).1.result?.map finish } := by
  simp only [after, h]

theorem load_of_settings (h : c.settings = .ok run) :
    RunSettings.load c.places c.env c.jobs c.workersFile c.parallelism = .ok run := by
  unfold settings SuperviseCommand.settings at h
  cases hload : RunSettings.load c.places c.env c.jobs c.workersFile c.parallelism with
  | error f =>
    rw [hload] at h
    cases h
  | ok given =>
    rw [hload] at h
    cases h
    rfl

theorem spells (h : c.settings = .ok run) :
    ∃ ps ws, Fleet.Spells (c.plan run) ps ws c.octets := by
  obtain ⟨ps, hps, hroot⟩ := RunSettings.storeRoot_of_load (load_of_settings h)
  obtain ⟨ws, hws, hmarker⟩ := RunSettings.workersFile_of_load (load_of_settings h)
  exact ⟨ps, ws, hroot, hps, hmarker, hws, rfl⟩

/-- What is known of a call that has settled: the files as the settled fleet has left them, and what the sweep has
made of them. -/
structure Ended (c : Call) (run : RunSettings) (acts : List Supervision.Action) (r : RunResult) (ps : List String)
    (t : FileTree) : Prop where
  root : run.storeRoot = Path.ofParts ps
  rootNames : ∀ part ∈ ps, Path.IsName part
  result : ∃ given, ((c.start run).run c.launcher acts).1.fleet.result? = some given ∧ r = finish given
  moment : ∃ before, before <+: acts ∧ (c.after before).files = t
  distinct : t.Distinct
  prepares : Fleet.Prepares (c.plan run) ps c.files t
  shell : (c.plan run).mode = .shell → (c.after acts).files = t
  swept : (c.plan run).mode ≠ .shell → ((c.start run).run c.launcher acts).1.sweep.phase = .done
  kept : ∀ m n, (c.after acts).files.at? m = some n → t.at? m = some n
  course : (c.plan run).mode ≠ .shell → ¬Supervision.GaveUp c.launcher (c.start run) acts →
    (∀ f, Sweep.storesBelow t run.storeRoot ≠ .error f) →
    Sweep.Course t run.storeRoot (c.after acts).files ((c.start run).run c.launcher acts).1.sweep

theorem ended (h : c.settings = .ok run) (htree : c.files.IsTree) (hquiet : ∀ a ∈ acts, ∀ name, a ≠ .signal name)
    {r : RunResult} (hresult : (c.after acts).result = some r) : ∃ ps t, c.Ended run acts r ps t := by
  obtain ⟨ps, ws, hspells⟩ := spells h
  have hstage := Supervision.stage_run c.launcher htree.closed hspells acts hquiet
  have horder := Supervision.inOrder_begin c.launcher (c.plan run) c.files
  have hsound := @Supervision.sound_run c.launcher _ horder.sound acts
  have hdistinct := @Supervision.distinct_run c.launcher (c.start run) htree.distinct
  have hafter := after_of_settings h
  rw [hafter] at hresult
  obtain ⟨given, hgiven, rfl⟩ := Option.map_eq_some_iff.mp hresult
  unfold Supervision.result? at hgiven
  split at hgiven
  next hsettled =>
    cases hstage with
    | runs h => exact absurd (hgiven.symm.trans h.work) nofun
    | @sweeps r t h =>
      cases hgiven.symm.trans h.work
      obtain ⟨before, hbefore, htime⟩ := h.moment
      refine ⟨ps, t, ?_⟩
      constructor
      case root => exact hspells.root
      case rootNames => exact hspells.rootNames
      case result => exact ⟨given, by simp only [Call.start, Fleet.result?, h.settled], rfl⟩
      case moment =>
        refine ⟨before, hbefore, ?_⟩
        rw [hafter]
        exact htime
      case distinct => exact htime ▸ hdistinct before
      case prepares => exact h.prepares
      case swept => exact fun hmode => (horder.run hmode acts).finished (hsound.settled hsettled).1
      all_goals rw [hafter]
      case shell => exact fun hmode => (h.shell hmode).2
      case kept => exact h.kept
      case course => exact h.course
  · cases hgiven

/-- No backslash is in the path of the root, nor in a name below a place that a listing takes for that of a store
before the call. -/
structure IsPlain (c : Call) (run : RunSettings) (l : Location) : Prop where
  root : '\\' ∉ run.storeRoot.toList
  stores : ∀ name ∈ c.files.names l, Stores.isStoreName (Listing.key name) = true → '\\' ∉ name.toList

namespace Ended

variable {r : RunResult} {ps : List String} {t : FileTree}

theorem plainRoot (h : c.Ended run acts r ps t) (hplain : c.IsPlain run l) : Sweep.PlainRoot run.storeRoot ps :=
  ⟨h.rootNames, h.root, hplain.root⟩

theorem way (h : c.Ended run acts r ps t) (hleads : t.LeadsTo run.storeRoot l) : t.Way [] ps l :=
  (h.root ▸ hleads : t.LeadsTo (Path.ofParts ps) l).way h.rootNames

/-- A shell leaves everything as it is, but for the marker. -/
theorem untouched (h : c.Ended run acts r ps t) (houtside : c.MarksOutside run l)
    (hmode : (c.plan run).mode = .shell) (below : Location) :
    (c.after acts).files.at? (l ++ below) = c.files.at? (l ++ below) := by
  rw [h.shell hmode]
  rcases h.prepares.changed (l ++ below) with hsame | ⟨d, hd, hbelow⟩ | ⟨hnot, -⟩
  · exact hsame
  · exact absurd ((List.prefix_append l below).trans hbelow) (houtside d hd)
  · exact absurd hmode hnot

variable (htree : c.files.IsTree) (houtside : c.MarksOutside run l) (hplain : c.IsPlain run l)
  (hmode : (c.plan run).mode ≠ .shell) (hlisted : ¬Supervision.GaveUp c.launcher (c.start run) acts)

include htree houtside hplain hmode hlisted

/-- A root that leads to its place has been swept. -/
theorem sweeps (h : c.Ended run acts r ps t) (hleads : t.LeadsTo run.storeRoot l) :
    Sweep.PlainBelow t l
      ∧ Sweep.Course t run.storeRoot (c.after acts).files ((c.start run).run c.launcher acts).1.sweep := by
  refine ⟨h.prepares.plainBelow houtside (h.way hleads) htree hplain.stores, h.course hmode hlisted fun f => ?_⟩
  obtain ⟨stores, hstores⟩ := Sweep.storesBelow_of_leadsTo ((h.plainRoot hplain).place_eq.symm ▸ hleads)
  rw [hstores]
  nofun

theorem account (h : c.Ended run acts r ps t) (hleads : (c.after acts).files.LeadsTo run.storeRoot l) :
    Sweep.Account t run.storeRoot l (c.after acts).files ((c.start run).run c.launcher acts).1.sweep := by
  obtain ⟨hbelow, hcourse⟩ := h.sweeps htree houtside hplain hmode hlisted (hleads.of_kept h.kept)
  exact hcourse.account (h.plainRoot hplain) h.distinct hbelow hleads

theorem leavesClean (h : c.Ended run acts r ps t) (hsettings : c.settings = .ok run)
    (hleads : (c.after acts).files.LeadsTo run.storeRoot l) : c.LeavesClean acts run.storeRoot l := by
  intro name hname hstore hdir
  have hphase := h.swept hmode
  have haccount := h.account htree houtside hplain hmode hlisted hleads
  obtain ⟨n, hn⟩ := Option.ne_none_iff_exists'.mp (FileTree.mem_names_iff.mp hname)
  have hentry : Sweep.Listed t l name :=
    ⟨FileTree.mem_names_iff.mpr (by rw [h.kept _ n hn]; nofun), hstore, FileTree.leadsToDirectory_of_kept h.kept hdir⟩
  by_cases hfailed : Sweep.listedPath run.storeRoot name ∈ ((c.start run).run c.launcher acts).1.sweep.failed
  · rw [after_of_settings hsettings]
    rcases Supervision.failed_logged acts _ hfailed with hold | hlogged
    · cases hold
    · exact hlogged
  · have hdropped : Sweep.Dropped t run.storeRoot l ((c.start run).run c.launcher acts).1.sweep name := by
      refine ⟨hentry, by simp [Sweep.HasListed, hphase], ?_⟩
      simpa [Sweep.charged, Sweep.pending, hphase] using hfailed
    rw [haccount.gone name hdropped _ List.prefix_rfl] at hn
    cases hn

theorem leavesOthers (h : c.Ended run acts r ps t) (hleads : (c.after acts).files.LeadsTo run.storeRoot l) :
    c.LeavesOthers acts l := by
  intro name hnever below
  have haccount := h.account htree houtside hplain hmode hlisted hleads
  have hway := h.way (hleads.of_kept h.kept)
  obtain ⟨before, hpre, rfl⟩ := h.moment
  have hkept : (c.after acts).files.at? (l ++ name :: below) = (c.after before).files.at? (l ++ name :: below) := by
    refine haccount.kept _ fun other hdropped hbelow => ?_
    obtain rfl : other = name := by
      obtain ⟨rest, heq⟩ := hbelow
      rw [List.append_assoc, List.append_cancel_left_eq, List.singleton_append, List.cons.injEq] at heq
      exact heq.1
    have hleads := hnever hdropped.listed.store before hpre
    rw [hdropped.listed.leads] at hleads
    cases hleads
  rw [hkept]
  rcases h.prepares.below houtside hway name below with hsame | ⟨-, hnew, hdir⟩
  · exact hsame
  · have hleads := hnever hnew.store before hpre
    rw [FileTree.leadsToDirectory_directory hnew.isName hdir] at hleads
    cases hleads

/-- If the way to the root does not go through one of its stores, the root stays where it is. -/
theorem leadsTo (h : c.Ended run acts r ps t)
    (hwithout : ∀ name, Stores.isStoreName name = true → (c.files.remove (l ++ [name])).LeadsTo run.storeRoot l) :
    (c.after acts).files.LeadsTo run.storeRoot l := by
  have hbegun : c.files.LeadsTo run.storeRoot l :=
    (hwithout Stores.serverStem (by decide)).of_kept fun m n => FileTree.at?_of_remove (by simp)
  have hbefore := hbegun.of_keepsWays h.prepares.ways
  obtain ⟨hbelow, hcourse⟩ := h.sweeps htree houtside hplain hmode hlisted hbefore
  refine hcourse.leadsTo (h.plainRoot hplain) h.distinct hbelow hbefore fun name hentry => ?_
  exact (hwithout name hentry.store).of_keepsWays (h.prepares.ways.remove (by simp))

end Ended

/-! ## A call for one worker -/

section OneWorker

open Supervision (Action workersVariables oneWorker)
open Fleet (allBut)

/-- A call for one worker, with the stores below a directory that is in use. -/
def forOneWorker (name : String) : Call :=
  { env := workersVariables ("/" ++ name)
    jobs := some 1
    workersFile := some "/m"
    parallelism := 8
    policy := .delay 2000
    octets := [0]
    launcher := allBut 0
    files := ⟨[([name], .directory), ([name, "README"], .file "kept\n"), ([name, "harness-server.old"], .directory)]⟩ }

/-- The files when the marker has been written and the store of the worker has been made. -/
def servedFiles (name count : String) : FileTree :=
  ⟨(forOneWorker name).files.entries
    ++ [(["m"], .file (count ++ "\n")), ([name, "harness-worker.a-01"], .directory)]⟩

/-- The worker exits, and the sweep follows. -/
def workerExits : List Action :=
  [.fleet (.file none), .fleet (.file none), .fleet (.file none), .fleet (.exited (.worker 1) 0), .fleet .gather,
    .runEnds, .sweep none, .sweep none, .sweep none, .swept, .settle]

def begun (name : String) : Supervision := (forOneWorker name).start (oneWorker ("/" ++ name))

/-- The supervision when the store has been made. -/
def stored (name : String) : Supervision :=
  { begun name with
    fleet := { (begun name).fleet with
      files := servedFiles name "0"
      phase := .publishMarker
      stores := ["/" ++ name ++ "/harness-worker.a-01"] } }

/-- The supervision when the worker has exited and the sweep begins. -/
def exited (name : String) : Supervision :=
  { stored name with
    fleet := { (stored name).fleet with
      files := servedFiles name "1"
      phase := .settled (.ok (some 0))
      children := [{ role := .worker 1, course := .exited 0 }]
      starts := 1 }
    scope := { (stored name).scope with work := some (.ok (some 0)), cleanup := .running }
    sweep := { root := "/" ++ name, phase := .scanning } }

theorem steps_forOneWorker {name : String} (hname : name = "x" ∨ name = "x\\y") :
    ((begun name).run (allBut 0) [.fleet (.file none), .fleet (.file none)]).1 = stored name
      ∧ ((stored name).run (allBut 0) [.fleet (.file none), .fleet (.exited (.worker 1) 0), .fleet .gather, .runEnds]).1
        = exited name := by
  constructor
  · have hzero : (0 : Binary64).text = "0" := by decide +kernel
    have hphase : (begun name).fleet.phase = .resetMarker := rfl
    have hmarker : (begun name).fleet.plan.workersFile = "/m" := rfl
    have hfiles : (begun name).fleet.files = (forOneWorker name).files := rfl
    have hnone : (forOneWorker name).files.at? ["m"] = none := by rcases hname with rfl | rfl <;> rfl
    simp only [Supervision.run_cons, Supervision.run_nil, Supervision.step, Supervision.inFleet, Fleet.step,
      Fleet.fileStep, hphase, Fleet.writeMarker, hzero, hmarker, hfiles,
      (@Supervision.writeText_marker (forOneWorker name).files _).1 hnone]
    rcases hname with rfl | rfl <;> rfl
  · have hone : (1 : Binary64).text = "1" := by decide +kernel
    have hcount : (stored name).fleet.plan.workerCount = 1 := rfl
    have hphase : (stored name).fleet.phase = .publishMarker := rfl
    have hmarker : (stored name).fleet.plan.workersFile = "/m" := rfl
    have hfiles : (stored name).fleet.files = servedFiles name "0" := rfl
    have hold : (servedFiles name "0").at? ["m"] = some (.file "0\n") := by rcases hname with rfl | rfl <;> rfl
    simp only [Supervision.run_cons, Supervision.run_nil, Supervision.step, Supervision.inFleet, Fleet.step,
      Fleet.fileStep, hphase, Fleet.writeMarker, hcount, hone, hmarker, hfiles,
      (@Supervision.writeText_marker (servedFiles name "0") _).2 _ hold]
    rcases hname with rfl | rfl <;> rfl

theorem leadsTo_served {t : FileTree} (hdir : t.at? ["x"] = some .directory) : t.LeadsTo "/x" ["x"] :=
  ⟨FileTree.locate_top (by decide) (by decide) (by decide +kernel) (by decide) (by decide) (by simp [hdir]), hdir⟩

theorem storesBelow_served :
    Sweep.storesBelow (servedFiles "x" "1") "/x" = .ok ["/x/harness-server.old", "/x/harness-worker.a-01"] := by
  have hplace : Listing.place [] "/x" = "/x" := by decide +kernel
  have hnames : (servedFiles "x" "1").names ["x"] = ["README", "harness-server.old", "harness-worker.a-01"] := rfl
  have hserver : (servedFiles "x" "1").leadsToDirectory ["x"] "harness-server.old" = true :=
    FileTree.leadsToDirectory_directory (by constructor <;> decide) rfl
  have hworker : (servedFiles "x" "1").leadsToDirectory ["x"] "harness-worker.a-01" = true :=
    FileTree.leadsToDirectory_directory (by constructor <;> decide) rfl
  have hreadme : (servedFiles "x" "1").leadsToDirectory ["x"] "README" = false := by
    have hfile : (servedFiles "x" "1").at? ["x", "README"] = some (.file "kept\n") := rfl
    rw [FileTree.leadsToDirectory, FileTree.walk_last (by decide) (by decide) (by simp [hfile])]
    simp [hfile]
  have hmatched : Listing.matched Stores.isStoreName ["harness-server.old", "harness-worker.a-01"]
      = ["harness-server.old", "harness-worker.a-01"] := by decide
  have hlisted : Sweep.listedPath "/x" "harness-server.old" = "/x/harness-server.old"
      ∧ Sweep.listedPath "/x" "harness-worker.a-01" = "/x/harness-worker.a-01" := by decide +kernel
  have hsorted : Text.unitsLE "/x/harness-server.old" "/x/harness-worker.a-01" = true := by decide +kernel
  have hleads : (servedFiles "x" "1").LeadsTo (Listing.place [] "/x") ["x"] := hplace.symm ▸ leadsTo_served rfl
  rw [Sweep.storesBelow_eq hleads (hnames ▸ by decide), hnames]
  simp only [List.filter, hserver, hworker, hreadme, hmatched, List.map, hlisted, Text.sortByUnits]
  rw [List.mergeSort_of_pairwise]
  simp [hsorted]

theorem removePath_served {t : FileTree} (hdir : t.at? ["x"] = some .directory) {path name : String}
    (hname : Stores.IsPlain name) (hpath : Sweep.listedPath "/x" name = path) :
    Sweep.removePath t path = .ok (t.remove ["x", name]) := by
  have hroot : Sweep.PlainRoot "/x" ["x"] := by
    refine ⟨?_, by decide +kernel, by decide⟩
    intro part hpart
    rw [List.mem_singleton.mp hpart]
    constructor <;> decide
  rw [← hpath, Sweep.removePath_listed hroot (leadsTo_served hdir) hname]
  rfl

/-- A sweep of two stores that nothing disturbs. -/
theorem steps_sweep {s : Supervision} {root first second : String} {t t' : FileTree}
    (hsweep : s.sweep = { root, phase := .scanning })
    (hlist : Sweep.storesBelow s.fleet.files root = .ok [first, second])
    (hfirst : Sweep.removePath s.fleet.files first = .ok t) (hsecond : Sweep.removePath t second = .ok t')
    (launcher : Fleet.Launcher) : (s.run launcher [.sweep none, .sweep none, .sweep none]).1
      = { s with
          fleet := { s.fleet with files := t' }
          sweep := { root, phase := .done, removed := [first, second] } } := by
  simp [Supervision.run_cons, Supervision.run_nil, Supervision.step, Sweep.step, hsweep, hlist, hfirst, hsecond,
    Sweep.drops, Sweep.goOn]

/-- A sweep that finds nothing. -/
theorem steps_sweep_nothing {s : Supervision} {root : String} (hsweep : s.sweep = { root, phase := .scanning })
    (hlist : Sweep.storesBelow s.fleet.files root = .ok []) (launcher : Fleet.Launcher) :
    (s.run launcher [.sweep none, .sweep none, .sweep none]).1 = { s with sweep := { root, phase := .done } } := by
  simp [Supervision.run_cons, Supervision.run_nil, Supervision.step, Sweep.step, hsweep, hlist, Sweep.goOn]

theorem settings_forOneWorker {name : String} (hname : name = "x" ∨ name = "x\\y") :
    (forOneWorker name).settings = .ok (oneWorker ("/" ++ name)) := by
  have hload : RunSettings.load {} (workersVariables ("/" ++ name)) (some 1) (some "/m") 8
      = .ok (oneWorker ("/" ++ name)) := by
    refine Supervision.load_of_read ?_ ?_ ?_
    · rcases hname with rfl | rfl <;> decide +kernel
    · rcases hname with rfl | rfl <;> decide +kernel
    · decide +kernel
  have hsettings : (forOneWorker name).settings
      = (RunSettings.load {} (workersVariables ("/" ++ name)) (some 1) (some "/m") 8).mapError
          (·.toReport settingsContext) := rfl
  rw [hsettings, hload]
  rfl

theorem isTree_forOneWorker {name : String} (hname : name = "x" ∨ name = "x\\y") :
    (forOneWorker name).files.IsTree := by
  refine FileTree.isTree_of_entries ?_ fun e he => ?_
  · rcases hname with rfl | rfl <;> unfold FileTree.Distinct <;> decide
  · simp only [forOneWorker, List.mem_cons, List.not_mem_nil, or_false] at he
    rcases he with rfl | rfl | rfl
    · exact ⟨rfl, by rcases hname with rfl | rfl <;> simp <;> constructor <;> decide⟩
    · exact ⟨by rcases hname with rfl | rfl <;> rfl, by simp; constructor <;> decide⟩
    · exact ⟨by rcases hname with rfl | rfl <;> rfl, by simp; constructor <;> decide⟩

theorem marksOutside_forOneWorker {name : String} (hname : name = "x" ∨ name = "x\\y") :
    (forOneWorker name).MarksOutside (oneWorker ("/" ++ name)) [name] := by
  intro d hd hbelow
  have hnone : (forOneWorker name).files.at? ["m"] = none := by rcases hname with rfl | rfl <;> rfl
  have hlocate : (forOneWorker name).files.locate [] "/m" = .ok ["m"] :=
    FileTree.locate_top (by decide) (by decide) (by decide +kernel) (by decide) (by decide) (by simp [hnone])
  have hmarker : (forOneWorker name).files.WritesTo "/m" ["m"] := FileTree.Holds.writesTo ⟨by rfl, hlocate⟩
  rw [hd.unique hmarker] at hbelow
  rcases hname with rfl | rfl <;> simp at hbelow

theorem workerExits_quiet : ∀ a ∈ workerExits, ∀ name, a ≠ .signal name := by
  simp [workerExits]

theorem not_gaveUp_workerExits (launcher : Fleet.Launcher) (start : Supervision) :
    ¬Supervision.GaveUp launcher start workerExits := by
  rintro ⟨before, a, rest, hacts, -, f, rfl⟩
  have hmem : Action.sweep (some f) ∈ workerExits := by
    rw [hacts]
    simp
  simp [workerExits] at hmem

/-- The call ends with the result of the worker and with the files that the sweep has left. -/
theorem after_workerExits {name : String} {t : FileTree} {removed : List String} (hname : name = "x" ∨ name = "x\\y")
    (hswept : ((exited name).run (allBut 0) [.sweep none, .sweep none, .sweep none]).1
      = { exited name with
          fleet := { (exited name).fleet with files := t }
          sweep := { root := "/" ++ name, phase := .done, removed } }) :
    ((forOneWorker name).after workerExits).files = t
      ∧ ((forOneWorker name).after workerExits).result = some (.ok (some 0))
      ∧ (((forOneWorker name).start (oneWorker ("/" ++ name))).run (forOneWorker name).launcher workerExits).1.sweep
        = { root := "/" ++ name, phase := .done, removed } := by
  obtain ⟨hstored, hexited⟩ := steps_forOneWorker hname
  simp only [Supervision.run_cons, Supervision.run_nil] at hstored hexited hswept
  have hrun : ((begun name).run (allBut 0) workerExits).1
      = (Supervision.run (allBut 0)
          { exited name with
            fleet := { (exited name).fleet with files := t }
            sweep := { root := "/" ++ name, phase := .done, removed } }
          [.swept, .settle]).1 := by
    simp only [workerExits, Supervision.run_cons, hstored, hexited, hswept]
  have hafter := after_of_settings (settings_forOneWorker hname) workerExits
  have hstart : ((forOneWorker name).start (oneWorker ("/" ++ name))).run (forOneWorker name).launcher workerExits
      = (begun name).run (allBut 0) workerExits := rfl
  rw [hafter, hstart, hrun]
  exact ⟨rfl, rfl, rfl⟩

end OneWorker

/-! ## Clean roots -/

/-- Without a signal, a call that has settled leaves a clean root. Settings that are refused begin nothing. Otherwise
the result is that of the run, a shell touches nothing below the root, and in every other mode the only stores
left below it are those whose removal has failed. This is so for every marker elsewhere, whatever the launcher and
the processes do and whichever operations on the files fail, as long as the root can be listed and no backslash is in
its path or in a name below it that the listing takes for that of a store. The root stays where it is, unless the way
to it goes through one of its stores. -/
theorem leaves_clean_root (c : Call) (htree : c.files.IsTree) {acts : List Supervision.Action}
    (hquiet : ∀ a ∈ acts, ∀ name, a ≠ .signal name) {r : RunResult} (hresult : (c.after acts).result = some r) :
    (∀ report, c.settings = .error report →
        c.after acts = { files := c.files, effects := [], result := some (.error report) })
      ∧ ∀ run, c.settings = .ok run →
        (∃ given, ((c.start run).run c.launcher acts).1.fleet.result? = some given ∧ r = finish given
          ∧ ∀ code, r = .ok code ↔ given = .ok code)
        ∧ ∀ l, c.MarksOutside run l →
          ((c.plan run).mode = .shell →
            ∀ below, (c.after acts).files.at? (l ++ below) = c.files.at? (l ++ below))
          ∧ ((c.plan run).mode ≠ .shell → ¬Supervision.GaveUp c.launcher (c.start run) acts → c.IsPlain run l →
            ((c.after acts).files.LeadsTo run.storeRoot l →
                c.LeavesClean acts run.storeRoot l ∧ c.LeavesOthers acts l)
            ∧ ((∀ name, Stores.isStoreName name = true → (c.files.remove (l ++ [name])).LeadsTo run.storeRoot l) →
                (c.after acts).files.LeadsTo run.storeRoot l)) := by
  refine ⟨fun report hrefused => by simp only [after, hrefused], fun run hsettings => ?_⟩
  obtain ⟨ps, t, h⟩ := ended hsettings htree hquiet hresult
  constructor
  · obtain ⟨given, hgiven, rfl⟩ := h.result
    refine ⟨given, hgiven, rfl, fun code => ?_⟩
    cases given with
    | error report => exact ⟨nofun, nofun⟩
    | ok given => exact Iff.rfl
  intro l houtside
  refine ⟨h.untouched houtside, fun hmode hlisted hplain => ⟨fun hleads => ⟨?_, ?_⟩, fun hwithout => ?_⟩⟩
  · exact h.leavesClean htree houtside hplain hmode hlisted hsettings hleads
  · exact h.leavesOthers htree houtside hplain hmode hlisted hleads
  · exact h.leadsTo htree houtside hplain hmode hlisted hwithout

theorem leaves_clean_root_of_worker :
    let c := forOneWorker "x"
    c.settings = .ok (Supervision.oneWorker "/x") ∧ (c.after workerExits).result = some (.ok (some 0))
      ∧ c.files.at? ["x", "harness-server.old"] = some .directory
      ∧ c.LeavesClean workerExits "/x" ["x"] ∧ c.LeavesOthers workerExits ["x"]
      ∧ (c.after workerExits).files.at? ["x", "README"] = some (.file "kept\n") := by
  intro c
  have hserver : Stores.IsPlain "harness-server.old" := ⟨by decide, by constructor <;> decide, by decide⟩
  have hworker : Stores.IsPlain "harness-worker.a-01" := ⟨by decide, by constructor <;> decide, by decide⟩
  have hsettings : c.settings = .ok (Supervision.oneWorker "/x") := @settings_forOneWorker "x" (.inl rfl)
  have hroot : "/" ++ "x" = "/x" := by decide
  have hlist : Sweep.storesBelow (exited "x").fleet.files ("/" ++ "x")
      = .ok ["/x/harness-server.old", "/x/harness-worker.a-01"] := by
    rw [hroot]
    exact storesBelow_served
  have hfirst : Sweep.removePath (exited "x").fleet.files "/x/harness-server.old" = .ok _ :=
    removePath_served rfl hserver (by decide +kernel)
  obtain ⟨hfiles, hresult, -⟩ := after_workerExits (.inl rfl)
    (steps_sweep rfl hlist hfirst (removePath_served rfl hworker (by decide +kernel)) (Fleet.allBut 0))
  have hplain : c.IsPlain (Supervision.oneWorker "/x") ["x"] := by
    refine ⟨by decide, fun name hname _ => ?_⟩
    have hnames : c.files.names ["x"] = ["README", "harness-server.old"] := rfl
    rw [hnames] at hname
    revert name
    decide
  have hleads : (c.after workerExits).files.LeadsTo "/x" ["x"] := by
    rw [hfiles]
    exact leadsTo_served rfl
  have hmode : (c.plan (Supervision.oneWorker "/x")).mode ≠ .shell := by
    have hselect : (c.plan (Supervision.oneWorker "/x")).mode = Mode.select false true := rfl
    rw [hselect]
    decide
  obtain ⟨-, haccepted⟩ := leaves_clean_root c (@isTree_forOneWorker "x" (.inl rfl)) workerExits_quiet hresult
  obtain ⟨-, hroot⟩ := haccepted _ hsettings
  have hswept := (hroot ["x"] (@marksOutside_forOneWorker "x" (.inl rfl))).2 hmode
    (not_gaveUp_workerExits c.launcher (c.start (Supervision.oneWorker "/x"))) hplain
  obtain ⟨hclean, hothers⟩ := hswept.1 hleads
  have hreadme := hothers "README" (fun hstore => absurd hstore (by decide)) []
  exact ⟨hsettings, hresult, rfl, hclean, hothers, hreadme⟩

/-- A root with a backslash is left with the stores that were there before and that have been made. Nothing has been
signalled, the listing has been made, but of another place, and nothing has been removed nor has failed. -/
theorem leaves_stores_below_backslash :
    let c := forOneWorker "x\\y"
    let s := ((c.start (Supervision.oneWorker "/x\\y")).run c.launcher workerExits).1
    c.settings = .ok (Supervision.oneWorker "/x\\y") ∧ c.MarksOutside (Supervision.oneWorker "/x\\y") ["x\\y"]
      ∧ (∀ a ∈ workerExits, ∀ name, a ≠ .signal name)
      ∧ ¬Supervision.GaveUp c.launcher (c.start (Supervision.oneWorker "/x\\y")) workerExits
      ∧ (c.after workerExits).result = some (.ok (some 0)) ∧ s.sweep.removed = [] ∧ s.sweep.failed = []
      ∧ c.files.at? ["x\\y", "harness-worker.a-01"] = none
      ∧ (c.after workerExits).files.at? ["x\\y", "harness-worker.a-01"] = some .directory
      ∧ (c.after workerExits).files.at? ["x\\y", "harness-server.old"] = some .directory := by
  intro c s
  have hroot : "/" ++ "x\\y" = "/x\\y" := by decide
  have hlist : Sweep.storesBelow (exited "x\\y").fleet.files ("/" ++ "x\\y") = .ok [] := by
    rw [hroot]
    exact Sweep.storesBelow_backslash rfl
  obtain ⟨hfiles, hresult, hsweep⟩ := after_workerExits (.inr rfl) (steps_sweep_nothing rfl hlist (Fleet.allBut 0))
  have hsettings := @settings_forOneWorker "x\\y" (.inr rfl)
  have houtside := @marksOutside_forOneWorker "x\\y" (.inr rfl)
  rw [hroot] at hsweep hsettings houtside
  refine ⟨hsettings, houtside, workerExits_quiet, not_gaveUp_workerExits c.launcher _, hresult, ?_, ?_, rfl, ?_, ?_⟩
  · with_reducible exact congrArg Sweep.removed hsweep
  · with_reducible exact congrArg Sweep.failed hsweep
  · rw [hfiles]
    rfl
  · rw [hfiles]
    rfl

end Call

end SuperviseCommand

end Bailiff
