-- SUMMARY: The marker of a run reads zero, or how many workers there are to be, and then all their stores are there.
import Bailiff.Proofs.Files.ReadBack
import Bailiff.Proofs.Fleet.Stocking
import Bailiff.Proofs.Fleet.Workers
import Mathlib.Data.List.Nodup

/-!
# The marker of a run

A run writes zero to its marker, makes the stores of its workers, writes their number, and only then starts
anything. If the first writing fails, nothing else is ever done (`Fleet.Barren`). After it the marker tells the
truth (`Fleet.TellsTruth`): each step keeps this together with how far the stores have come (`Fleet.Marked.step`),
whichever operation on the files fails and whatever the processes do.
-/

namespace Bailiff

namespace Fleet

variable {launcher : Launcher} {f g : Fleet} {plan : FleetPlan} {ps ws : List String} {octets : List Nat}
  {files t t' : FileTree} {acts before rest : List Action} {fault : Option FileFault}

/-! ## Runs that come to nothing -/

/-- Nothing has been started and no store has been made, and what is due, if anything, is the first writing of the
marker. -/
structure Barren (f : Fleet) : Prop where
  phase : f.phase = .resetMarker ∨ ∃ r, f.phase = .settled r
  side : f.side = .idle
  children : f.children = []
  stores : f.stores = []
  temporaries : f.temporaries = 0

/-- Two fleets with the same plan, phase and files. -/
structure SameStage (f g : Fleet) : Prop where
  plan : g.plan = f.plan
  phase : g.phase = f.phase
  files : g.files = f.files

/-- Unless the marker is written, nothing comes of a step. -/
theorem Barren.step (h : f.Barren) (launcher : Launcher) {a : Action}
    (ha : f.phase = .resetMarker → ∀ fault, a ≠ .file fault) :
    (f.step launcher a).1.Barren ∧ f.SameStage (f.step launcher a).1 ∧ (f.step launcher a).2 = [] := by
  have hsame : f.Barren ∧ f.SameStage f ∧ ([] : List Effect) = [] := ⟨h, ⟨rfl, rfl, rfl⟩, rfl⟩
  have hends : ∀ role course first, Barren { f.ends role course with firstFailure := first }
      ∧ f.SameStage { f.ends role course with firstFailure := first } ∧ ([] : List Effect) = [] := by
    intro role course first
    refine ⟨⟨h.phase, h.side, ?_, h.stores, h.temporaries⟩, ⟨rfl, rfl, rfl⟩, rfl⟩
    simp [ends_eq, h.children]
  cases a with
  | file fault =>
    obtain hphase | ⟨r, hphase⟩ := h.phase
    · exact absurd rfl (ha hphase fault)
    · cases fault with
      | none => simpa [Fleet.step, fileStep, hphase] using hsame
      | some fault => simpa [Fleet.step, fileFails, hasFileStep, hphase] using hsame
  | ready | cancel => simpa [Fleet.step, cancelDue, h.side] using hsame
  | exited role code => exact hends role (.exited code) f.firstFailure
  | failed role failure => exact hends role (.failed failure) _
  | stop => exact ⟨⟨h.phase, h.side, h.children, h.stores, h.temporaries⟩, ⟨rfl, rfl, rfl⟩, rfl⟩
  | windowOver | conclude | join =>
    obtain hphase | ⟨r, hphase⟩ := h.phase <;> simpa [Fleet.step, concludes, hphase] using hsame
  | gather => obtain hphase | ⟨r, hphase⟩ := h.phase <;> simpa [Fleet.step, gathers, hphase, h.side] using hsame

theorem Barren.run (h : f.Barren) (launcher : Launcher) (acts : List Action)
    (hacts : f.phase = .resetMarker → ∀ a ∈ acts, ∀ fault, a ≠ .file fault) :
    (f.run launcher (acts.map .act)).Barren ∧ f.SameStage (f.run launcher (acts.map .act))
      ∧ f.effects launcher (acts.map .act) = [] := by
  induction acts generalizing f with
  | nil => exact ⟨h, ⟨rfl, rfl, rfl⟩, rfl⟩
  | cons a rest ih =>
    obtain ⟨hstep, hsame, hnone⟩ := h.step launcher fun hphase => hacts hphase a List.mem_cons_self
    obtain ⟨hrun, hsame', hrest⟩ := ih hstep fun hphase b hb =>
      hacts (hsame.phase ▸ hphase) b (List.mem_cons_of_mem a hb)
    refine ⟨hrun, ⟨hsame'.plan.trans hsame.plan, hsame'.phase.trans hsame.phase, hsame'.files.trans hsame.files⟩, ?_⟩
    rw [List.map_cons, effects, hnone]
    exact hrest

theorem barren_start (plan : FleetPlan) (files : FileTree) : Barren { plan, files } :=
  ⟨.inl rfl, rfl, rfl, rfl, rfl⟩

/-! ## What the marker reads -/

/-- The marker reads a count. -/
def Reads (f : Fleet) (count : Binary64) : Prop :=
  f.files.read? [] f.plan.workersFile = some (count.text ++ "\n")

/-- The first stores of a plan are there. -/
structure AreThere (f : Fleet) (stores : List String) : Prop where
  workers : f.plan.HasWorkers
  paths : stores = firstStores f.plan stores.length
  made : ∀ store ∈ stores, f.files.HasDirectory store

/-- The marker tells the truth: it reads zero, or it reads how many workers there are to be, and they have got all
their stores. -/
inductive TellsTruth (f : Fleet) : Prop where
  | zero (h : f.Reads 0)
  | count (h : f.Reads f.plan.workerCount) (hthere : f.AreThere f.stores)
      (hall : f.stores.length = storeCount f.plan.workerCount)

theorem AreThere.of_keepsWays {stores : List String} (h : f.AreThere stores) (hplan : g.plan = f.plan)
    (hways : f.files.KeepsWays g.files) : g.AreThere stores :=
  ⟨hplan ▸ h.workers, hplan ▸ h.paths, fun store hstore => (h.made store hstore).of_keepsWays hways⟩

/-- One store more is there. -/
theorem AreThere.concat {stores : List String} (h : f.AreThere stores)
    (hstore : f.files.HasDirectory (storePath f.plan stores.length)) :
    f.AreThere (stores ++ [storePath f.plan stores.length]) := by
  refine ⟨h.workers, firstStores_concat h.paths, ?_⟩
  · rw [List.forall_mem_append, List.forall_mem_singleton]
    exact ⟨h.made, hstore⟩

theorem Reads.of_gains {count : Binary64} (h : f.Reads count) (hplan : g.plan = f.plan)
    (hgains : f.files.GainsDirectories g.files) : g.Reads count := by
  unfold Reads at h ⊢
  rw [hplan]
  exact hgains.read? h

/-- Directories that are added leave the truth. -/
theorem TellsTruth.of_gains (h : f.TellsTruth) (hplan : g.plan = f.plan) (hstores : g.stores = f.stores)
    (hgains : f.files.GainsDirectories g.files) : g.TellsTruth := by
  cases h with
  | zero h => exact .zero (h.of_gains hplan hgains)
  | count h hthere hall =>
    refine .count ?_ ?_ ?_
    · rw [hplan]
      exact h.of_gains hplan hgains
    · rw [hstores]
      exact hthere.of_keepsWays hplan hgains.keepsWays
    · rw [hstores, hplan, hall]

/-! ## From the first writing on -/

/-- How the marker and the stores stand after the first writing of the marker. -/
structure Marked (f : Fleet) : Prop where
  begun : f.phase ≠ .resetMarker
  truth : f.TellsTruth
  allocating : ∀ done, f.phase = .allocate done →
    f.Reads 0 ∧ f.AreThere done ∧ done.length < storeCount f.plan.workerCount
  publishing : f.phase = .publishMarker →
    f.Reads 0 ∧ f.AreThere f.stores ∧ f.stores.length = storeCount f.plan.workerCount

theorem Marked.reads_of_isPreparing (h : f.Marked) (hphase : f.phase.isPreparing = true) : f.Reads 0 := by
  cases heq : f.phase with
  | resetMarker => exact absurd heq h.begun
  | allocate done => exact (h.allocating done heq).1
  | publishMarker => exact (h.publishing heq).1
  | _ => simp [heq, Phase.isPreparing] at hphase

/-- The marker and the stores are done with. -/
theorem TellsTruth.marked (h : f.TellsTruth) (hphase : f.phase.isPreparing = false) : f.Marked := by
  refine ⟨fun heq => ?_, h, fun done heq => ?_, fun heq => ?_⟩
  all_goals
    rw [heq] at hphase
    cases hphase

theorem marked_allocated (h : f.Reads 0) {done : List String} (hthere : f.AreThere done)
    (hlength : done.length ≤ storeCount f.plan.workerCount) : (f.allocated done).1.Marked := by
  have hread : ∀ phase stores, Reads { f with phase, stores } 0 := fun _ _ => h
  have hstill : ∀ phase stores, AreThere { f with phase, stores } done := fun _ _ =>
    ⟨hthere.workers, hthere.paths, hthere.made⟩
  unfold Fleet.allocated
  split
  next hless =>
    refine ⟨nofun, .zero (hread _ _), fun made heq => ?_, nofun⟩
    cases heq
    exact ⟨hread _ _, hstill _ _, hless⟩
  next hmore =>
    have hall := Nat.le_antisymm hlength (Nat.not_lt.mp hmore)
    exact ⟨nofun, .zero (hread _ _), nofun, fun _ => ⟨hread _ _, hstill _ _, hall⟩⟩

/-! ## Steps that leave the marker and the stores -/

/-- What the marker and the stores are to a fleet stays as it is. -/
structure Passes (f g : Fleet) : Prop where
  plan : g.plan = f.plan
  stores : g.stores = f.stores
  files : g.files = f.files
  phase : g.phase.isPreparing = false

theorem passes_serverEnds (f : Fleet) (r : RunResult) : f.Passes (f.serverEnds r).1 := by
  unfold Fleet.serverEnds
  split <;> exact ⟨rfl, rfl, rfl, rfl⟩

theorem passes_enterMode (launcher : Launcher) (f : Fleet) : f.Passes (f.enterMode launcher).1 := by
  obtain ⟨count, starts, effects, answer, hlaunch, -⟩ := launchWorkers_eq launcher f
  unfold Fleet.enterMode
  split
  · rw [hlaunch]
    cases answer <;> exact ⟨rfl, rfl, rfl, rfl⟩
  · exact ⟨rfl, rfl, rfl, rfl⟩
  · exact ⟨rfl, rfl, rfl, rfl⟩
  · dsimp only
    split <;> exact ⟨rfl, rfl, rfl, rfl⟩

theorem passes_startServer (launcher : Launcher) (f : Fleet) (store : String) :
    f.Passes (f.startServer launcher store).1 := by
  unfold Fleet.startServer
  split
  next l failure heq =>
    have hends := passes_serverEnds (f.took l) (.error failure)
    exact ⟨hends.plan, hends.stores, hends.files, hends.phase⟩
  next => exact ⟨rfl, rfl, rfl, rfl⟩

theorem Passes.marked (h : f.Passes g) (htruth : f.TellsTruth) : g.Marked :=
  (htruth.of_gains h.plan h.stores (h.files ▸ .refl f.files)).marked h.phase

/-! ## Every step -/

theorem Marked.rests (h : f.Marked) (hplan : g.plan = f.plan) (hstores : g.stores = f.stores) (hrests : f.Rests g) :
    g.Marked := by
  obtain ⟨hfiles, hphase⟩ := hrests
  have hgains : f.files.GainsDirectories g.files := hfiles ▸ .refl f.files
  have htruth := h.truth.of_gains hplan hstores hgains
  rcases hphase with hsame | hnone
  · refine ⟨hsame ▸ h.begun, htruth, fun done heq => ?_, fun heq => ?_⟩
    · obtain ⟨hread, hthere, hless⟩ := h.allocating done (hsame ▸ heq)
      exact ⟨hread.of_gains hplan hgains, hthere.of_keepsWays hplan hgains.keepsWays, hplan ▸ hless⟩
    · obtain ⟨hread, hthere, hall⟩ := h.publishing (hsame ▸ heq)
      refine ⟨hread.of_gains hplan hgains, ?_, ?_⟩
      · rw [hstores]
        exact hthere.of_keepsWays hplan hgains.keepsWays
      · rw [hstores, hplan, hall]
  · exact htruth.marked (isPreparing_of_hasFileStep hnone)

/-- What the writing of the marker leaves, if it succeeds and if it does not. -/
theorem writeMarker_reads (hclosed : f.files.Closed) (hspells : Spells f.plan ps ws octets)
    (hretains : f.files.Retains f.plan.workersFile) {count : Binary64} {answer : Except FileFault Unit}
    (hwrite : f.writeMarker count = (g, answer)) :
    (∃ files, g = { f with files } ∧ f.files.KeepsWays files) ∧ (answer = .ok () → g.Reads count)
      ∧ ∀ fault old, answer = .error fault → f.Reads old → g.Reads old := by
  have hwrites := FileTree.writeText_writes hclosed hspells.markerNames (count.text ++ "\n")
  rw [← hspells.marker] at hwrites
  have hread : ∀ t, f.files.writeText [] f.plan.workersFile (count.text ++ "\n") = (t, .ok ()) →
      t.read? [] f.plan.workersFile = some (count.text ++ "\n") := by
    rw [hspells.marker] at hretains ⊢
    exact fun t => FileTree.read?_writeText hclosed hspells.markerNames hretains
  have hold : ∀ t fault text, f.files.read? [] f.plan.workersFile = some text →
      f.files.writeText [] f.plan.workersFile (count.text ++ "\n") = (t, .error fault) →
      t.read? [] f.plan.workersFile = some text := fun t fault text h => FileTree.read?_writeText_error h
  unfold Fleet.writeMarker at hwrite
  -- What the writing gives is not to be computed from here on.
  generalize f.files.writeText [] f.plan.workersFile (count.text ++ "\n") = r at hwrite hwrites hread hold
  obtain ⟨t, answer⟩ := r
  cases hwrite
  refine ⟨⟨t, rfl, hwrites.ways⟩, ?_, ?_⟩
  · rintro rfl
    exact hread t rfl
  · rintro fault old rfl hreads
    exact hold t fault _ hreads rfl

/-- A marker that reads something is not at a place that keeps nothing. -/
theorem Reads.retains {count : Binary64} (h : f.Reads count) : f.files.Retains f.plan.workersFile := by
  intro d hd hnull
  obtain ⟨l, hlocated, hfile⟩ := FileTree.read?_eq_some.mp h
  obtain ⟨t, hmade, hway⟩ := hd
  have hways := (FileTree.makeDirectories_gainsDirectories hmade).keepsWays
  obtain rfl := hway.unique ((FileTree.way_of_locate hlocated).of_keepsWays hways)
  rw [hfile] at hnull
  cases hnull

theorem passes_settle (f : Fleet) (r : RunResult) : f.Passes (f.settle r).1 := ⟨rfl, rfl, rfl, rfl⟩

theorem Marked.fileStep (h : f.Marked) (hclosed : f.files.Closed) (hspells : Spells f.plan ps ws octets)
    (launcher : Launcher) : (f.fileStep launcher).1.Marked := by
  unfold Fleet.fileStep
  split
  next hphase => exact absurd hphase h.begun
  next done hphase =>
    obtain ⟨hread, hthere, hless⟩ := h.allocating done hphase
    dsimp only
    split
    · exact (passes_settle f _).marked h.truth
    next t hmade =>
      have hgains := FileTree.makeDirectories_gainsDirectories hmade
      have hstore : t.HasDirectory (storePath f.plan done.length) := by
        rw [storePath_eq hspells] at hmade ⊢
        exact FileTree.hasDirectory_makeDirectories hclosed (by simp [storeNames]) (isName_storeNames hspells.rootNames _ _) hmade
      refine marked_allocated (f := { f with files := t }) (hread.of_gains rfl hgains) ?_ ?_
      · exact (hthere.of_keepsWays rfl hgains.keepsWays : AreThere { f with files := t } done).concat hstore
      · rw [List.length_append]
        exact hless
  next hphase =>
    obtain ⟨hread, hthere, hall⟩ := h.publishing hphase
    split
    next g fault hwrite =>
      obtain ⟨⟨t, rfl, hways⟩, -, hold⟩ := writeMarker_reads hclosed hspells hread.retains hwrite
      exact (passes_settle _ _).marked (.zero (hold fault 0 rfl hread))
    next g hwrite =>
      obtain ⟨⟨t, rfl, hways⟩, hnew, -⟩ := writeMarker_reads hclosed hspells hread.retains hwrite
      exact (passes_enterMode launcher _).marked (.count (hnew rfl) (hthere.of_keepsWays rfl hways) hall)
  next hphase =>
    split
    · exact (passes_serverEnds f _).marked h.truth
    next t hmade =>
      have hgains := FileTree.makeDirectories_gainsDirectories hmade
      exact (h.truth.of_gains rfl rfl hgains : TellsTruth { f with files := t, phase := .makeServerStore }).marked rfl
  next hphase =>
    dsimp only
    split
    · exact (passes_serverEnds _ _).marked (h.truth.of_gains rfl rfl (.refl f.files))
    next t store hmade =>
      refine (passes_startServer launcher { f with files := t, temporaries := f.temporaries + 1 } store).marked ?_
      exact h.truth.of_gains rfl rfl (FileTree.makeTemporary_gainsDirectories hmade)
  · exact h

/-- Every step keeps how the marker and the stores stand. -/
theorem Marked.step (h : f.Marked) (hclosed : f.files.Closed) (hspells : Spells f.plan ps ws octets)
    (launcher : Launcher) (a : Action) : (f.step launcher a).1.Marked := by
  by_cases ha : a = .file none
  · subst ha
    exact h.fileStep hclosed hspells launcher
  · refine h.rests (builds_step launcher f a).plan (idles_step launcher f ha).stores (rests_step launcher f ?_)
    rintro fault rfl rfl
    exact ha rfl

/-! ## Runs -/

theorem prepared_start (plan : FleetPlan) (ps : List String) (hclosed : files.Closed) :
    Prepared ps files { plan, files } :=
  ⟨prepares_refl plan ps hclosed, fun _ => .inl ⟨rfl, rfl⟩, nofun, fun _ _ => rfl⟩

theorem Prepared.run (h : f.Prepared ps files) (hspells : Spells f.plan ps ws octets) (launcher : Launcher)
    (acts : List Action) :
    (f.run launcher (acts.map .act)).Prepared ps files ∧ (f.run launcher (acts.map .act)).plan = f.plan := by
  induction acts generalizing f with
  | nil => exact ⟨h, rfl⟩
  | cons a rest ih =>
    have hplan := (builds_step launcher f a).plan
    obtain ⟨hrun, hsame⟩ := ih (h.step hspells launcher a) (hplan ▸ hspells)
    exact ⟨hrun, hsame.trans hplan⟩

theorem Marked.run (h : f.Marked) (hprepared : f.Prepared ps files) (hspells : Spells f.plan ps ws octets)
    (launcher : Launcher) (acts : List Action) : (f.run launcher (acts.map .act)).Marked := by
  induction acts generalizing f with
  | nil => exact h
  | cons a rest ih =>
    have hplan := (builds_step launcher f a).plan
    exact ih (h.step hprepared.prepares.closed hspells launcher a) (hprepared.step hspells launcher a)
      (hplan ▸ hspells)

theorem files_settled_run {r : RunResult} (hphase : f.phase = .settled r) (launcher : Launcher) (acts : List Action) :
    (f.run launcher (acts.map .act)).files = f.files := by
  induction acts generalizing f with
  | nil => rfl
  | cons a rest ih =>
    obtain ⟨hfiles, hsettled⟩ := step_settled launcher hphase a
    exact (ih hsettled).trans hfiles

/-- How the first writing of the marker goes, with the files that it leaves. -/
def firstWriting (plan : FleetPlan) (files : FileTree) : Option FileFault → FileTree × Except FileFault Unit
  | some fault => (files, .error fault)
  | none => files.writeText [] plan.workersFile ((0 : Binary64).text ++ "\n")

theorem writeMarker_firstWriting {answer : Except FileFault Unit} (h : firstWriting f.plan f.files none = (t, answer)) :
    f.writeMarker 0 = ({ f with files := t }, answer) := by
  have hwrite : f.files.writeText [] f.plan.workersFile ((0 : Binary64).text ++ "\n") = (t, answer) := h
  unfold Fleet.writeMarker
  rw [hwrite]

/-- When the first writing fails, the run settles. -/
theorem step_firstWriting_error (hphase : f.phase = .resetMarker) {e : FileFault}
    (hfails : firstWriting f.plan f.files fault = (t, .error e)) (launcher : Launcher) :
    f.step launcher (.file fault) = ({ f with files := t, phase := .settled (.error e.failure) }, []) := by
  cases fault with
  | none => simp only [Fleet.step, Fleet.fileStep, hphase, writeMarker_firstWriting hfails, settle]
  | some fault =>
    cases hfails
    simp [Fleet.step, fileFails, hasFileStep, hphase, settle]

/-- When the first writing succeeds, the marker reads zero. -/
theorem marked_firstWriting (hphase : f.phase = .resetMarker) (hclosed : f.files.Closed)
    (hspells : Spells f.plan ps ws octets) (hretains : f.files.Retains f.plan.workersFile)
    (hwritten : firstWriting f.plan f.files fault = (t, .ok ())) (launcher : Launcher) :
    (f.step launcher (.file fault)).1.Marked := by
  cases fault with
  | some fault => cases hwritten
  | none =>
    have hwrite := writeMarker_firstWriting hwritten
    obtain ⟨-, hread, -⟩ := writeMarker_reads hclosed hspells hretains hwrite
    simp only [Fleet.step, Fleet.fileStep, hphase, hwrite]
    split
    next hworkers => exact marked_allocated (hread rfl) ⟨hworkers, rfl, by simp⟩ (Nat.zero_le _)
    next => exact (passes_enterMode launcher _).marked (.zero (hread rfl))

/-- A run fails while the stores of its workers are being made. -/
def FailsAllocating (launcher : Launcher) (start : Fleet) (acts : List Action) : Prop :=
  ∃ mid a more done, acts = mid ++ a :: more ∧ (start.run launcher (mid.map .act)).phase = .allocate done
    ∧ ((start.run launcher (mid.map .act)).step launcher a).1.result?.isSome = true

/-- A step that fails to make a store leaves the files. -/
theorem files_of_fails {done : List String} (hphase : f.phase = .allocate done) {a : Action}
    (hsettled : (f.step launcher a).1.result?.isSome = true) : (f.step launcher a).1.files = f.files := by
  by_cases ha : a = .file none
  · subst ha
    simp only [Fleet.step, Fleet.fileStep, hphase] at hsettled ⊢
    split at hsettled
    · rfl
    · unfold Fleet.allocated at hsettled
      split at hsettled <;> cases hsettled
  · refine (rests_step launcher f ?_).1
    rintro fault rfl rfl
    exact ha rfl

/-- A marker that reads a number from one on has workers, as many as it reads, and so many stores. -/
theorem TellsTruth.of_natural (h : f.TellsTruth) {k : Int} (hcount : f.plan.workerCount.toInt? = some k)
    (hexact : k.natAbs ≤ Binary64.maxExactInteger) {n : Nat} (hn : 0 < n)
    (hread : f.files.read? [] f.plan.workersFile = some (Binary64.integerText n ++ "\n")) :
    k = n ∧ f.AreThere f.stores ∧ f.stores.length = n := by
  have htext {count : Binary64} (hreads : f.Reads count) : count.text = Binary64.integerText n :=
    (String.append_left_inj "\n").mp (Option.some.inj (hreads.symm.trans hread))
  cases h with
  | zero hzero =>
    have hnone : (0 : Int) = n := Binary64.toInt?_of_text (by decide +kernel) (Nat.zero_le _) (htext hzero)
    omega
  | count hreads hthere hall =>
    obtain rfl := Binary64.toInt?_of_text hcount hexact (htext hreads)
    refine ⟨rfl, hthere, ?_⟩
    rw [hall, storeCount, Binary64.truncate?_of_toInt? hcount]
    rfl

/-! ## The whole of a run -/

/-- What has become of a run whose first writing of the marker has failed. -/
structure ComesToNothing (launcher : Launcher) (start : Fleet) (course : List Happening) (e : FileFault)
    (left : FileTree) : Prop where
  result : (start.run launcher course).result? = some (.error e.failure)
  files : (start.run launcher course).files = left
  stores : (start.run launcher course).stores = [] ∧ (start.run launcher course).temporaries = 0
  children : (start.run launcher course).children = []
  effects : start.effects launcher course = []
  stale : ∀ text, start.files.read? [] start.plan.workersFile = some text →
    (start.run launcher course).files.read? [] start.plan.workersFile = some text

theorem AreThere.nodup (hspells : Spells f.plan ps ws octets) {stores : List String} (h : f.AreThere stores) :
    stores.Nodup := by
  rw [h.paths]
  exact List.Nodup.map (storePath_injective hspells) List.nodup_range

/-- The steps of a run up to the first writing of its marker and from there on. -/
theorem run_firstWriting (start : Fleet) (launcher : Launcher) (before rest : List Action) (fault : Option FileFault) :
    start.run launcher ((before ++ .file fault :: rest).map .act)
      = (((start.run launcher (before.map .act)).step launcher (.file fault)).1).run launcher (rest.map .act) := by
  rw [List.map_append, run_append]
  rfl

theorem comesToNothing (plan : FleetPlan) (files : FileTree) (launcher : Launcher)
    (hbefore : ∀ a ∈ before, ∀ fault, a ≠ .file fault) {e : FileFault}
    (hfails : firstWriting plan files fault = (t, .error e)) :
    ComesToNothing launcher { plan, files } ((before ++ .file fault :: rest).map .act) e t := by
  obtain ⟨hbarren, hsame, hnone⟩ := (barren_start plan files).run launcher before fun _ => hbefore
  have hrun := run_firstWriting { plan, files } launcher before rest fault
  generalize hg : Fleet.run launcher { plan, files } (before.map .act) = g at hbarren hsame hrun
  have hphase : g.phase = .resetMarker := hsame.phase
  have hstep := step_firstWriting_error (f := g) hphase (by rw [hsame.plan, hsame.files]; exact hfails) launcher
  rw [hstep] at hrun
  have hbarren' : Barren { g with files := t, phase := .settled (.error e.failure) } :=
    ⟨.inr ⟨_, rfl⟩, hbarren.side, hbarren.children, hbarren.stores, hbarren.temporaries⟩
  obtain ⟨hlast, hlike, hrest⟩ := hbarren'.run launcher rest nofun
  constructor
  case result =>
    rw [hrun, result?_eq_some]
    exact hlike.phase
  case files => rw [hrun, hlike.files]
  case stores =>
    rw [hrun]
    exact ⟨hlast.stores, hlast.temporaries⟩
  case children => rw [hrun, hlast.children]
  case effects =>
    rw [List.map_append, effects_append, hnone, hg, List.map_cons, Fleet.effects, Fleet.meet, hstep]
    exact hrest
  case stale =>
    intro text htext
    rw [hrun, hlike.files]
    cases fault with
    | some fault =>
      cases hfails
      exact htext
    | none => exact FileTree.read?_writeText_error htext hfails

/-- Once the first writing has succeeded, the marker and the stores stand as they should at every moment. -/
theorem marked_run (hspells : Spells plan ps ws octets) (hclosed : files.Closed)
    (hretains : files.Retains plan.workersFile) (launcher : Launcher)
    (hbefore : ∀ a ∈ before, ∀ fault, a ≠ .file fault) (hwritten : firstWriting plan files fault = (t, .ok ()))
    (rest : List Action) :
    (Fleet.run launcher { plan, files } ((before ++ .file fault :: rest).map .act)).Marked
      ∧ (Fleet.run launcher { plan, files } ((before ++ .file fault :: rest).map .act)).plan = plan := by
  obtain ⟨-, hsame, -⟩ := (barren_start plan files).run launcher before fun _ => hbefore
  obtain ⟨hprepared, -⟩ := (prepared_start plan ps hclosed).run hspells launcher before
  rw [run_firstWriting]
  generalize Fleet.run launcher { plan, files } (before.map .act) = g at hsame hprepared
  have hplan : g.plan = plan := hsame.plan
  have hfiles : g.files = files := hsame.files
  have hspells' : Spells g.plan ps ws octets := hplan ▸ hspells
  have hwritten' : firstWriting g.plan g.files fault = (t, .ok ()) := by
    rw [hplan, hfiles]
    exact hwritten
  have hmarked := marked_firstWriting hsame.phase (hfiles ▸ hclosed) hspells' (by rw [hplan, hfiles]; exact hretains)
    hwritten' launcher
  have hnext := (builds_step launcher g (.file fault)).plan
  have hspells'' : Spells (g.step launcher (.file fault)).1.plan ps ws octets := hnext ▸ hspells'
  have hprepared' := hprepared.step hspells' launcher (.file fault)
  exact ⟨hmarked.run hprepared' hspells'' launcher rest,
    (hprepared'.run hspells'' launcher rest).2.trans (hnext.trans hplan)⟩

/-- A run that has failed while the stores were being made leaves zero in its marker. -/
theorem reads_of_failsAllocating (hspells : Spells plan ps ws octets) (hclosed : files.Closed)
    (hretains : files.Retains plan.workersFile) (launcher : Launcher)
    (hbefore : ∀ a ∈ before, ∀ fault, a ≠ .file fault) (hwritten : firstWriting plan files fault = (t, .ok ()))
    (hfails : FailsAllocating launcher { plan, files } (before ++ .file fault :: rest)) :
    (Fleet.run launcher { plan, files } ((before ++ .file fault :: rest).map .act)).Reads 0 := by
  obtain ⟨mid, a, more, done, hacts, hphase, hsettled⟩ := hfails
  -- the stores are made after the first writing
  have hlater : ∃ rest', mid = before ++ .file fault :: rest' := by
    have hnot : ¬mid <+: before := by
      rintro ⟨more', rfl⟩
      obtain ⟨-, hsame, -⟩ := (barren_start plan files).run launcher mid fun _ a ha =>
        hbefore a (List.mem_append_left more' ha)
      cases hsame.phase.symm.trans hphase
    rcases List.append_eq_append_iff.mp hacts with ⟨rest', rfl, hrest⟩ | ⟨rest', rfl, -⟩
    · cases rest' with
      | nil => exact absurd (by simp) hnot
      | cons b rest' =>
        obtain ⟨rfl, -⟩ := List.cons.inj hrest
        exact ⟨rest', rfl⟩
    · exact absurd (List.prefix_append mid rest') hnot
  obtain ⟨rest', rfl⟩ := hlater
  obtain ⟨hmarked, hplan⟩ := marked_run hspells hclosed hretains launcher hbefore hwritten rest'
  obtain ⟨-, hlast⟩ := marked_run hspells hclosed hretains launcher hbefore hwritten rest
  have hrun : Fleet.run launcher { plan, files } ((before ++ .file fault :: rest).map .act)
      = ((Fleet.run launcher { plan, files } ((before ++ .file fault :: rest').map .act)).step launcher a).1.run
        launcher (more.map .act) := by
    rw [hacts, List.map_append, run_append]
    rfl
  rw [hrun] at hlast ⊢
  generalize Fleet.run launcher { plan, files } ((before ++ .file fault :: rest').map .act) = g
    at hphase hsettled hmarked hplan hlast
  obtain ⟨r, hr⟩ := Option.isSome_iff_exists.mp hsettled
  have hkept := files_settled_run (result?_eq_some.mp hr) launcher more
  have hread := (hmarked.allocating done hphase).1
  unfold Reads at hread ⊢
  rw [hkept, files_of_fails hphase hsettled, hlast]
  rwa [hplan] at hread

/-- The marker of a run tells the truth. -/
theorem marker_tells_truth (hspells : Spells plan ps ws octets) (hclosed : files.Closed)
    (hretains : files.Retains plan.workersFile) (launcher : Launcher) (before rest : List Action)
    (fault : Option FileFault) (hbefore : ∀ a ∈ before, ∀ fault, a ≠ .file fault) :
    let start : Fleet := { plan, files }
    let acts := before ++ .file fault :: rest
    let f := start.run launcher (acts.map .act)
    (∀ e left, firstWriting plan files fault = (left, .error e) → ComesToNothing launcher start (acts.map .act) e left)
      ∧ (∀ left, firstWriting plan files fault = (left, .ok ()) →
        (f.Reads 0 ∨ f.Reads plan.workerCount ∧ plan.HasWorkers ∧ f.stores.length = storeCount plan.workerCount
            ∧ f.stores.Nodup ∧ ∀ store ∈ f.stores, f.files.HasDirectory store)
          ∧ (f.phase.isPreparing = true → f.Reads 0)
          ∧ (FailsAllocating launcher start acts → f.Reads 0)
          ∧ (¬plan.HasWorkers → f.Reads 0)
          ∧ ∀ k : Int, plan.workerCount.toInt? = some k → k.natAbs ≤ Binary64.maxExactInteger → ∀ n : Nat, 0 < n →
            f.files.read? [] plan.workersFile = some (Binary64.integerText n ++ "\n") →
            plan.HasWorkers ∧ k = n ∧ f.stores.length = n ∧ f.stores.Nodup
              ∧ ∀ store ∈ f.stores, f.files.HasDirectory store) := by
  intro start acts f
  refine ⟨fun e left hfails => comesToNothing plan files launcher hbefore hfails, fun left hwritten => ?_⟩
  obtain ⟨hmarked, hplan⟩ := marked_run hspells hclosed hretains launcher hbefore hwritten rest
  have hnodup : f.AreThere f.stores → f.stores.Nodup := fun h => h.nodup (hplan ▸ hspells)
  have hworkers : f.AreThere f.stores → plan.HasWorkers := fun h => hplan ▸ h.workers
  refine ⟨?_, fun hphase => ?_, fun hfails => ?_, fun hnone => ?_, fun k hcount hexact n hn hread => ?_⟩
  · cases hmarked.truth with
    | zero h => exact .inl h
    | count h hthere hall =>
      exact .inr ⟨hplan ▸ h, hworkers hthere, hplan ▸ hall, hnodup hthere, hthere.made⟩
  · exact hmarked.reads_of_isPreparing hphase
  · exact reads_of_failsAllocating hspells hclosed hretains launcher hbefore hwritten hfails
  · cases hmarked.truth with
    | zero h => exact h
    | count _ hthere => exact absurd (hworkers hthere) hnone
  · rw [← hplan] at hcount hread
    obtain ⟨hk, hthere, hlength⟩ := hmarked.truth.of_natural hcount hexact hn hread
    exact ⟨hworkers hthere, hk, hlength, hnodup hthere, hthere.made⟩

/-- A run over a marker that an earlier run has left. -/
theorem marker_tells_truth_over_stale :
    Spells twoWorkers [] ["m"] [0] ∧ (twoFiles "5" []).Closed ∧ (twoFiles "5" []).Retains twoWorkers.workersFile
      ∧ firstWriting twoWorkers (twoFiles "5" []) none = (twoFiles "0" [], .ok ())
      ∧ ∀ rest : List Action,
        let f := Fleet.run (allBut 0) { plan := twoWorkers, files := twoFiles "5" [] } ((.file none :: rest).map .act)
        f.Reads 0 ∨ f.Reads twoWorkers.workerCount ∧ twoWorkers.HasWorkers
          ∧ f.stores.length = storeCount twoWorkers.workerCount ∧ f.stores.Nodup
          ∧ ∀ store ∈ f.stores, f.files.HasDirectory store := by
  have hspells : Spells twoWorkers [] ["m"] [0] := by
    constructor
    case rootNames => exact fun part hpart => absurd hpart List.not_mem_nil
    case markerNames =>
      rw [List.forall_mem_singleton]
      constructor <;> decide
    all_goals decide +kernel
  have hclosed : (twoFiles "5" []).Closed := by
    have hdistinct : (twoFiles "5" []).Distinct := List.nodup_singleton _
    refine (FileTree.isTree_of_entries hdistinct fun e he => ?_).closed
    obtain rfl : e = (["m"], .file "5\n") := List.mem_singleton.mp he
    refine ⟨rfl, ?_⟩
    simp only [List.getLast?_singleton, Option.mem_def, Option.some.injEq, forall_eq']
    constructor <;> decide
  have hretains : (twoFiles "5" []).Retains twoWorkers.workersFile := by
    intro d _ hnull
    unfold FileTree.at? at hnull
    split at hnull
    · cases hnull
    · obtain ⟨e, hentry, hnode⟩ := Option.map_eq_some_iff.mp hnull
      obtain rfl : e = (["m"], .file "5\n") := List.mem_singleton.mp (List.mem_of_find?_eq_some hentry)
      cases hnode
  have hwritten : firstWriting twoWorkers (twoFiles "5" []) none = (twoFiles "0" [], .ok ()) := by
    have hzero : (0 : Binary64).text = "0" := by decide +kernel
    have hdirectory : ∀ t, FileTree.makeDirectories t [] (Path.directory "/m") = .ok t := fun _ => by rfl
    have hlocate : (twoFiles "5" []).locate [] "/m" = .ok ["m"] :=
      FileTree.locate_top (by decide) (by decide) (by decide +kernel) (by decide) (by decide) (at?_twoFiles _ _ _)
    simp only [firstWriting, FileTree.writeText, FileTree.openFile, twoWorkers, hdirectory, hlocate, hzero]
    rfl
  refine ⟨hspells, hclosed, hretains, hwritten, fun rest => ?_⟩
  exact ((marker_tells_truth hspells hclosed hretains (allBut 0) [] rest none
    (fun move hmove => absurd hmove List.not_mem_nil)).2 _ hwritten).1

end Fleet

end Bailiff
