-- SUMMARY: What a fleet's run may change of the files it began with: its marker, its root, and its stores.
import Bailiff.Proofs.Files.Writing
import Bailiff.Proofs.Fleet.Supervision
import Bailiff.Proofs.Number.Notation
import Bailiff.Proofs.Number.Whole

/-!
# Preparation

Before a fleet starts anything it writes its marker and makes its stores. All that is then different in the files
(`Fleet.Prepared`) is on the way to the marker, on the way to the root of the stores, or a store directly below
it. Every step keeps this (`Fleet.Prepared.step`), whether the operations on the files succeed or not, and once a
run has settled its files are left alone (`Fleet.step_settled`).
-/

namespace Bailiff

/-! ## Names of stores -/

namespace Stores

/-- A text without slashes and backslashes. -/
def IsSlashless (text : String) : Prop := ∀ c ∈ text.toList, c ≠ '/' ∧ c ≠ '\\'

theorem isSlashless_of_all {text : String} (h : text.toList.all (fun c => c != '/' && c != '\\') = true) :
    IsSlashless text := by
  intro c hc
  simpa using List.all_eq_true.mp h c hc

theorem IsSlashless.append {text more : String} (h : IsSlashless text) (h' : IsSlashless more) :
    IsSlashless (text ++ more) := by
  intro c hc
  rw [String.toList_append, List.mem_append] at hc
  exact hc.elim (h c) (h' c)

theorem isSlashless_digits {cs : List Char} (h : AreDigits cs) : IsSlashless (String.ofList cs) := by
  intro c hc
  have hdigit := h c (by simpa using hc)
  constructor
  all_goals
    rintro rfl
    cases hdigit

theorem isPlain_append {stem more : String} (hstem : stem = serverStem ∨ stem = workerStem) (hmore : IsSlashless more) :
    IsPlain (stem ++ more) := by
  have hslashless : IsSlashless (stem ++ more) := by
    refine .append ?_ hmore
    rcases hstem with rfl | rfl <;> exact isSlashless_of_all (by decide +kernel)
  have hstore : isStoreName (stem ++ more) = true := by
    simp only [isStoreName, String.toList_append, Bool.or_eq_true, List.isPrefixOf_iff_prefix]
    rcases hstem with rfl | rfl
    · exact .inl (List.prefix_append _ _)
    · exact .inr (List.prefix_append _ _)
  exact ⟨hstore, isName_of_isStoreName hstore fun hc => (hslashless _ hc).1 rfl,
    fun hc => (hslashless _ hc).2 rfl⟩

theorem isSlashless_suffix (octets : List Nat) : IsSlashless (suffix octets) := by
  have halphabet : ('a' :: alphabet).all (fun c => c != '/' && c != '\\') = true := by decide +kernel
  simp only [List.all_eq_true, Bool.and_eq_true, bne_iff_ne] at halphabet
  intro c hc
  rw [suffix, String.toList_ofList, List.mem_map] at hc
  obtain ⟨b, -, rfl⟩ := hc
  apply halphabet
  rw [List.getD_eq_getElem?_getD]
  cases hget : alphabet[b % alphabet.length]? with
  | none => exact List.mem_cons_self
  | some c => exact List.mem_cons_of_mem _ (List.mem_of_getElem? hget)

theorem toList_workerIndex (number : Nat) : (workerIndex number).toList
    = List.replicate (2 - Text.width (Binary64.integerText number)) '0' ++ Nat.toDigits 10 number := by
  rw [workerIndex, padded, Text.padStart, String.toList_append, String.toList_ofList,
    Binary64.toList_integerText]

/-- The index of a worker tells its number, since leading zeros do not count. -/
theorem workerIndex_injective : Function.Injective workerIndex := by
  have hread (number : Nat) : Nat.ofDigitChars 10 (workerIndex number).toList 0 = number := by
    rw [toList_workerIndex, Nat.ofDigitChars_append, Nat.ofDigitChars_replicate_zero, Nat.mul_zero,
      Nat.ofDigitChars_ten_toDigits]
  intro m n h
  rw [← hread m, h, hread n]

theorem isSlashless_workerIndex (number : Nat) : IsSlashless (workerIndex number) := by
  have hslashless : IsSlashless (String.ofList (workerIndex number).toList) := by
    rw [toList_workerIndex]
    exact isSlashless_digits (areDigits_padded _ number)
  rwa [String.ofList_toList] at hslashless

/-- The name of the store of a worker. -/
theorem isPlain_worker (octets : List Nat) (number : Nat) :
    IsPlain (workerStem ++ suffix octets ++ "-" ++ workerIndex number) := by
  have hmore : IsSlashless (suffix octets ++ ("-" ++ workerIndex number)) := by
    exact (isSlashless_suffix octets).append
      ((isSlashless_of_all (by decide +kernel)).append (isSlashless_workerIndex number))
  simpa [String.append_assoc] using isPlain_append (.inr rfl) hmore

/-- The name of the store of a server. -/
theorem isPlain_server (number : Nat) : IsPlain (serverStem ++ String.ofList (Instant.zeroPadded 6 number)) := by
  exact isPlain_append (.inl rfl) (isSlashless_digits (areDigits_padded _ number))

end Stores

namespace Fleet

variable {launcher : Launcher} {f g : Fleet}

/-! ## Steps without files -/

/-- The files stay, and no operation on them has become due. -/
def Rests (f g : Fleet) : Prop := g.files = f.files ∧ (g.phase = f.phase ∨ g.hasFileStep = false)

theorem rests_same (hfiles : g.files = f.files) (hphase : g.phase = f.phase) : f.Rests g := ⟨hfiles, .inl hphase⟩

theorem Rests.trans {g' : Fleet} (h : f.Rests g) (h' : g.Rests g') : f.Rests g' := by
  refine ⟨h'.1.trans h.1, ?_⟩
  rcases h'.2 with hsame | hnone
  · refine h.2.imp hsame.trans fun hnone => ?_
    unfold hasFileStep at hnone ⊢
    rwa [hsame]
  · exact .inr hnone

theorem rests_settle (f : Fleet) (r : RunResult) : f.Rests (f.settle r).1 := ⟨rfl, .inr rfl⟩

theorem rests_serverEnds (f : Fleet) (r : RunResult) : f.Rests (f.serverEnds r).1 := by
  unfold Fleet.serverEnds
  split
  · exact ⟨rfl, .inr rfl⟩
  · exact rests_settle f r

theorem rests_fileFails (f : Fleet) (fault : FileFault) : f.Rests (f.fileFails fault).1 := by
  unfold Fleet.fileFails
  split
  · exact rests_serverEnds f _
  · exact rests_serverEnds f _
  · split
    · exact rests_settle f _
    · exact rests_same rfl rfl

theorem rests_concludes (f : Fleet) : f.Rests f.concludes.1 := by
  unfold Fleet.concludes
  split
  · split
    · exact rests_serverEnds f _
    · exact rests_serverEnds f _
    · exact rests_same rfl rfl
  · split
    · exact rests_settle f _
    · split
      · exact ⟨rfl, .inr rfl⟩
      · exact rests_settle f _
    · exact rests_same rfl rfl
  · exact rests_same rfl rfl

theorem rests_gathers (f : Fleet) : f.Rests f.gathers.1 := by
  have hasked : f.Rests f.terminateWorkers.1 := by
    rw [terminateWorkers_eq]
    exact rests_same rfl rfl
  unfold Fleet.gathers
  split
  case h_1 =>
    rw [if_pos rfl]
    split
    · exact hasked.trans ⟨rfl, .inr rfl⟩
    · split
      · exact ⟨rfl, .inr rfl⟩
      · exact rests_same rfl rfl
  case h_2 =>
    rw [if_neg Bool.false_ne_true]
    split
    · split
      · exact hasked.trans (rests_same rfl rfl)
      · split <;> exact rests_same rfl rfl
    · exact rests_same rfl rfl

theorem rests_launchWorkers (launcher : Launcher) (f : Fleet) : f.Rests (f.launchWorkers launcher).1 := by
  obtain ⟨count, starts, effects, answer, heq, -⟩ := launchWorkers_eq launcher f
  rw [heq]
  exact rests_same rfl rfl

theorem rests_becomesReady (launcher : Launcher) (f : Fleet) (answer : Except Failure Bool) :
    f.Rests (f.becomesReady launcher answer).1 := by
  have hlaunched := rests_launchWorkers launcher f
  unfold Fleet.becomesReady
  split
  · exact rests_same rfl rfl
  · exact rests_same rfl rfl
  · split
    all_goals
      next heq =>
        rw [heq] at hlaunched
        exact hlaunched.trans (rests_same rfl rfl)

/-- Only an operation on the files changes them or makes another one due. -/
theorem rests_step (launcher : Launcher) (f : Fleet) {a : Action} (ha : ∀ fault, a = .file fault → fault ≠ none) :
    f.Rests (f.step launcher a).1 := by
  cases a with
  | file fault =>
    cases fault with
    | none => exact absurd rfl (ha none rfl)
    | some fault => exact rests_fileFails f fault
  | ready answer =>
    simp only [Fleet.step]
    split
    · exact rests_becomesReady launcher f answer
    · exact rests_same rfl rfl
  | windowOver =>
    simp only [Fleet.step]
    split
    · split
      · exact rests_same rfl rfl
      · rw [dismissWorkers_eq]
        exact ⟨rfl, .inr rfl⟩
    · exact rests_same rfl rfl
  | cancel =>
    simp only [Fleet.step]
    split <;> exact rests_same rfl rfl
  | conclude => exact rests_concludes f
  | gather => exact rests_gathers f
  | join =>
    simp only [Fleet.step]
    split
    · split
      · exact rests_settle f _
      · exact rests_same rfl rfl
    · exact rests_same rfl rfl
  | exited | failed | stop => exact rests_same rfl rfl

/-- Once a run has settled, it stays as it is and leaves the files alone. -/
theorem step_settled (launcher : Launcher) {r : RunResult} (hphase : f.phase = .settled r) (a : Action) :
    (f.step launcher a).1.files = f.files ∧ (f.step launcher a).1.phase = .settled r := by
  cases a with
  | file fault =>
    cases fault with
    | none => simp [Fleet.step, fileStep, hphase]
    | some fault => simp [Fleet.step, fileFails, hasFileStep, hphase]
  | ready answer =>
    simp only [Fleet.step]
    split
    · obtain ⟨count, starts, effects, launched, heq, -⟩ := launchWorkers_eq launcher f
      simp only [becomesReady, heq]
      split
      · exact ⟨rfl, hphase⟩
      · exact ⟨rfl, hphase⟩
      · cases launched <;> exact ⟨rfl, hphase⟩
    · exact ⟨rfl, hphase⟩
  | gather =>
    simp only [Fleet.step, gathers, hphase, Bool.false_eq_true, if_false]
    split
    · split
      · rw [terminateWorkers_eq]
        exact ⟨rfl, hphase⟩
      · split <;> exact ⟨rfl, hphase⟩
    · exact ⟨rfl, hphase⟩
  | cancel =>
    simp only [Fleet.step]
    split <;> exact ⟨rfl, hphase⟩
  | windowOver | conclude | join => simp [Fleet.step, concludes, hphase]
  | exited | failed | stop => exact ⟨rfl, hphase⟩

/-! ## What is different in the files -/

variable {plan : FleetPlan} {ps ws : List String} {octets : List Nat} {files t t' : FileTree}

/-- The paths of a plan are those of plain names, and the random part of its stores is made of octets. -/
structure Spells (plan : FleetPlan) (ps ws : List String) (octets : List Nat) : Prop where
  root : plan.storeRoot = Path.ofParts ps
  rootNames : ∀ part ∈ ps, Path.IsName part
  marker : plan.workersFile = Path.ofParts ws
  markerNames : ∀ part ∈ ws, Path.IsName part
  suffix : plan.suffix = Stores.suffix octets

/-- A location on the way to the root of the stores, or that of a store below it. -/
def OfStores (t : FileTree) (ps : List String) (m : Location) : Prop :=
  ∃ l, t.Way [] ps l ∧ (m <+: l ∨ ∃ name, Stores.IsPlain name ∧ m = l ++ [name])

/-- The files are those that a fleet of a plan began with, up to its marker, its root and its stores. -/
structure Prepares (plan : FleetPlan) (ps : List String) (files t : FileTree) : Prop where
  closed : t.Closed
  ways : files.KeepsWays t
  changed : ∀ m, t.at? m = files.at? m ∨ (∃ d, files.WritesTo plan.workersFile d ∧ m <+: d)
    ∨ plan.mode ≠ .shell ∧ files.at? m = none ∧ t.at? m = some .directory ∧ OfStores t ps m

theorem prepares_refl (plan : FleetPlan) (ps : List String) (h : files.Closed) : Prepares plan ps files files :=
  ⟨h, .refl files, fun _ => .inl rfl⟩

/-- What is new stays new in a tree that keeps its ways. -/
theorem Prepares.keep (h : Prepares plan ps files t) (hways : t.KeepsWays t') {m : Location}
    (hsame : t'.at? m = t.at? m) : t'.at? m = files.at? m ∨ (∃ d, files.WritesTo plan.workersFile d ∧ m <+: d)
      ∨ plan.mode ≠ .shell ∧ files.at? m = none ∧ t'.at? m = some .directory ∧ OfStores t' ps m := by
  rcases h.changed m with hold | hmarker | ⟨hmode, hnone, hdir, l, hway, hbelow⟩
  · exact .inl (hsame.trans hold)
  · exact .inr (.inl hmarker)
  · exact .inr (.inr ⟨hmode, hnone, hsame.trans hdir, l, hway.of_keepsWays hways, hbelow⟩)

/-- The marker is written to the place that it had at the beginning. -/
theorem Prepares.marks (h : Prepares plan ps files t) {r : FileTree × Except FileFault Unit}
    (hwrites : t.Writes plan.workersFile r)
    (hplace : ∀ d, t.WritesTo plan.workersFile d → files.WritesTo plan.workersFile d) : Prepares plan ps files r.1 := by
  refine ⟨hwrites.closed, h.ways.trans hwrites.ways, fun m => ?_⟩
  rcases hwrites.changed m with hsame | ⟨d, hd, hpre⟩
  · exact h.keep hwrites.ways hsame
  · exact .inr (.inl ⟨d, hplace d hd, hpre⟩)

/-- Directories are made on the way to the root, and a store below it. -/
theorem Prepares.makes (h : Prepares plan ps files t) (hmode : plan.mode ≠ .shell) (hclosed : t'.Closed)
    (hways : t.KeepsWays t') (hmakes : ∀ m, t'.at? m = t.at? m
      ∨ t.at? m = none ∧ t'.at? m = some .directory ∧ OfStores t' ps m) : Prepares plan ps files t' := by
  refine ⟨hclosed, h.ways.trans hways, fun m => ?_⟩
  rcases hmakes m with hsame | ⟨hnone, hnew, hof⟩
  · exact h.keep hways hsame
  · rcases h.changed m with hold | hmarker | ⟨-, -, hdir, -⟩
    · exact .inr (.inr ⟨hmode, hold ▸ hnone, hnew, hof⟩)
    · exact .inr (.inl hmarker)
    · rw [hnone] at hdir
      cases hdir

theorem Prepares.makesRoot (h : Prepares plan ps files t) (hspells : Spells plan ps ws octets)
    (hmode : plan.mode ≠ .shell) (hmade : t.makeDirectories [] plan.storeRoot = .ok t') :
    Prepares plan ps files t' ∧ ∃ l, t'.Way [] ps l ∧ t'.at? l = some .directory := by
  have hways := (FileTree.makeDirectories_gainsDirectories hmade).keepsWays
  rw [hspells.root, FileTree.makeDirectories_ofParts hspells.rootNames] at hmade
  obtain ⟨l, hway, hmakes⟩ := FileTree.makeWay_makes h.closed rfl hspells.rootNames hmade
  refine ⟨h.makes hmode (FileTree.makeWay_closed h.closed rfl hmade) hways fun m => ?_, l, hway, hmakes.directory⟩
  exact (hmakes.changed m).imp_right fun ⟨hnone, hdir, hpre⟩ => ⟨hnone, hdir, l, hway, .inl hpre⟩

/-- The names on the way to the worker store that comes after a number of others. -/
def storeNames (ps : List String) (octets : List Nat) (made : Nat) : List String :=
  ps ++ [Stores.workerStem ++ Stores.suffix octets ++ "-" ++ Stores.workerIndex (made + 1)]

theorem isName_storeNames (hps : ∀ part ∈ ps, Path.IsName part) (octets : List Nat) (made : Nat) :
    ∀ part ∈ storeNames ps octets made, Path.IsName part := by
  have hname := (Stores.isPlain_worker octets (made + 1)).isName
  simpa only [storeNames, List.forall_mem_append, List.forall_mem_singleton] using ⟨hps, hname⟩

/-- The name of the store of a worker tells how many were made before it. -/
theorem storeNames_injective (ps : List String) (octets : List Nat) :
    Function.Injective fun made => Path.ofParts (storeNames ps octets made) := by
  intro m n h
  have hname := Path.ofParts_concat_injective ps h
  exact Nat.succ.inj (Stores.workerIndex_injective ((String.append_right_inj _).mp hname))

theorem storePath_ofParts (hroot : plan.storeRoot = Path.ofParts ps) (hps : ∀ part ∈ ps, Path.IsName part)
    (hsuffix : plan.suffix = Stores.suffix octets) (made : Nat) :
    storePath plan made = Path.ofParts (storeNames ps octets made) := by
  rw [storePath, Stores.workerPath, hroot, hsuffix, storeNames,
    Path.join_ofParts hps (Stores.isPlain_worker octets (made + 1)).isName]

theorem storePath_eq (hspells : Spells plan ps ws octets) (made : Nat) :
    storePath plan made = Path.ofParts (storeNames ps octets made) :=
  storePath_ofParts hspells.root hspells.rootNames hspells.suffix made

/-- No two worker stores of a plan have the same path. -/
theorem storePath_injective (hspells : Spells plan ps ws octets) : Function.Injective (storePath plan) := by
  intro m n h
  rw [storePath_eq hspells, storePath_eq hspells] at h
  exact storeNames_injective ps octets h

theorem Prepares.makesStore (h : Prepares plan ps files t) (hspells : Spells plan ps ws octets)
    (hmode : plan.mode ≠ .shell) {made : Nat} (hmade : t.makeDirectories [] (storePath plan made) = .ok t') :
    Prepares plan ps files t' := by
  have hways := (FileTree.makeDirectories_gainsDirectories hmade).keepsWays
  have hname := Stores.isPlain_worker octets (made + 1)
  rw [storePath_eq hspells, FileTree.makeDirectories_ofParts (isName_storeNames hspells.rootNames octets made)] at hmade
  obtain ⟨l, hway, hdir, hchanged⟩ := FileTree.makeWay_concat h.closed rfl hspells.rootNames hname.isName hmade
  refine h.makes hmode (FileTree.makeWay_closed h.closed rfl hmade) hways fun m => ?_
  exact (hchanged m).imp_right fun ⟨hnone, hnew, hbelow⟩ =>
    ⟨hnone, hnew, l, hway, hbelow.imp_right fun heq => ⟨_, hname, heq⟩⟩

theorem Prepares.makesTemporary (h : Prepares plan ps files t) (hspells : Spells plan ps ws octets)
    (hmode : plan.mode ≠ .shell) (hroot : ∃ l, t.Way [] ps l ∧ t.at? l = some .directory) {number : Nat} {path : String}
    (hmade : t.makeTemporary [] (Stores.serverPath plan.storeRoot) number = .ok (t', path)) :
    Prepares plan ps files t' := by
  obtain ⟨l, hway, hdir⟩ := hroot
  have hname := Stores.isPlain_server number
  have hstem : Path.IsName Stores.serverStem := by
    constructor <;> decide
  rw [Stores.serverPath, hspells.root, Path.join_ofParts hspells.rootNames hstem] at hmade
  obtain ⟨hnone, rfl⟩ := FileTree.makeTemporary_makes hspells.rootNames hname.isName hway hmade
  have hne := FileTree.ne_nil_of_at?_eq_none hnone
  have hways := (FileTree.gainsDirectories_put hne hnone).keepsWays
  refine h.makes hmode (h.closed.put hne (by simpa using hdir) fun _ => rfl) hways fun m => ?_
  rw [FileTree.at?_put hne]
  by_cases hm : m = l ++ [Stores.serverStem ++ String.ofList (Instant.zeroPadded 6 number)]
  · subst hm
    exact .inr ⟨hnone, if_pos rfl, l, hway.of_keepsWays hways, .inr ⟨_, hname, rfl⟩⟩
  · exact .inl (if_neg hm)

/-! ## Fleets that prepare -/

/-- What a fleet has made of the files it began with, and what its next operation on them relies on. -/
structure Prepared (ps : List String) (files : FileTree) (f : Fleet) : Prop where
  prepares : Prepares f.plan ps files f.files
  /-- The marker has not been written yet, or its path leads to its place. -/
  marked : f.hasFileStep = true → f.phase = .resetMarker ∧ f.files = files
    ∨ ∃ d, files.WritesTo f.plan.workersFile d ∧ f.files.Holds f.plan.workersFile d
  rooted : f.phase = .makeServerStore → ∃ l, f.files.Way [] ps l ∧ f.files.at? l = some .directory
  shell : f.plan.mode = .shell → f.hasFileStep = true → f.phase = .resetMarker

theorem hasFileStep_of_phase (h : g.phase = f.phase) : g.hasFileStep = f.hasFileStep := by
  unfold hasFileStep
  rw [h]

/-- Without an operation due, nothing is relied on. -/
theorem Prepares.done (h : Prepares g.plan ps files g.files) (hnone : g.hasFileStep = false) : g.Prepared ps files := by
  refine ⟨h, fun hdue => ?_, fun hphase => ?_, fun _ hdue => ?_⟩
  · simp [hnone] at hdue
  · simp [hasFileStep, hphase] at hnone
  · simp [hnone] at hdue

theorem Prepared.rests (h : f.Prepared ps files) (hplan : g.plan = f.plan) (hrests : f.Rests g) :
    g.Prepared ps files := by
  obtain ⟨hfiles, hsame | hnone⟩ := hrests
  · have hstep := hasFileStep_of_phase hsame
    constructor
    all_goals simp only [hplan, hfiles, hsame, hstep]
    · exact h.prepares
    · exact h.marked
    · exact h.rooted
    · exact h.shell
  · exact Prepares.done (by rw [hplan, hfiles]; exact h.prepares) hnone

/-- When the marker has been written, the fleet goes on. -/
theorem Prepares.goesOn (h : Prepares g.plan ps files g.files)
    (hholds : ∃ d, files.WritesTo g.plan.workersFile d ∧ g.files.Holds g.plan.workersFile d)
    (hphase : g.phase ≠ .makeServerStore) (hshell : g.plan.mode = .shell → g.hasFileStep = false) :
    g.Prepared ps files := by
  refine ⟨h, fun _ => .inr hholds, fun heq => absurd heq hphase, fun hmode hdue => ?_⟩
  simp [hshell hmode] at hdue

theorem Prepares.allocated (h : Prepares f.plan ps files f.files)
    (hholds : ∃ d, files.WritesTo f.plan.workersFile d ∧ f.files.Holds f.plan.workersFile d)
    (hmode : f.plan.mode ≠ .shell) (done : List String) : (f.allocated done).1.Prepared ps files := by
  unfold Fleet.allocated
  split
  · exact Prepares.goesOn h hholds nofun fun heq => absurd heq hmode
  · exact Prepares.goesOn h hholds nofun fun heq => absurd heq hmode

theorem Prepares.enterMode (h : Prepares f.plan ps files f.files)
    (hholds : ∃ d, files.WritesTo f.plan.workersFile d ∧ f.files.Holds f.plan.workersFile d) (launcher : Launcher) :
    (f.enterMode launcher).1.Prepared ps files := by
  obtain ⟨count, starts, effects, answer, hlaunch, -⟩ := launchWorkers_eq launcher f
  unfold Fleet.enterMode
  split
  · rw [hlaunch]
    cases answer <;> exact Prepares.done h rfl
  next hmode => exact Prepares.goesOn h hholds nofun fun heq => by simp [hmode] at heq
  next hmode => exact Prepares.goesOn h hholds nofun fun heq => by simp [hmode] at heq
  · dsimp only
    split <;> exact Prepares.done h rfl

theorem Prepares.serverEnds (h : Prepares f.plan ps files f.files) (r : RunResult) :
    (f.serverEnds r).1.Prepared ps files := by
  unfold Fleet.serverEnds
  split <;> exact Prepares.done h rfl

theorem Prepares.startServer (h : Prepares f.plan ps files f.files) (launcher : Launcher) (store : String) :
    (f.startServer launcher store).1.Prepared ps files := by
  unfold Fleet.startServer
  split
  next l failure heq => exact Prepares.serverEnds (f := f.took l) h (.error failure)
  next => exact Prepares.done h rfl

/-- What writing the marker makes of a fleet. -/
theorem Prepared.writeMarker (h : f.Prepared ps files) (hspells : Spells f.plan ps ws octets)
    (hdue : f.hasFileStep = true) (count : Binary64) {answer : Except FileFault Unit}
    (hwrite : f.writeMarker count = (g, answer)) : g.plan = f.plan ∧ g.phase = f.phase
      ∧ Prepares g.plan ps files g.files ∧ (answer = .ok () →
        ∃ d, files.WritesTo g.plan.workersFile d ∧ g.files.Holds g.plan.workersFile d) := by
  have hwrites := FileTree.writeText_writes h.prepares.closed hspells.markerNames (count.text ++ "\n")
  rw [← hspells.marker] at hwrites
  have hplace : ∀ d, f.files.WritesTo f.plan.workersFile d → files.WritesTo f.plan.workersFile d := by
    intro d hd
    rcases h.marked hdue with ⟨-, hsame⟩ | ⟨d', hd', hholds⟩
    · rwa [hsame] at hd
    · rwa [hd.unique hholds.writesTo]
  unfold Fleet.writeMarker at hwrite
  -- What the writing gives is not to be computed from here on.
  generalize f.files.writeText [] f.plan.workersFile (count.text ++ "\n") = r at hwrite hwrites
  cases hwrite
  refine ⟨rfl, rfl, h.prepares.marks hwrites hplace, fun hok => ?_⟩
  obtain ⟨d, hd, hholds⟩ := hwrites.holds hok
  exact ⟨d, hplace d hd, hholds⟩

theorem Prepared.fileStep (h : f.Prepared ps files) (hspells : Spells f.plan ps ws octets) (launcher : Launcher) :
    (f.fileStep launcher).1.Prepared ps files := by
  have hprepares := h.prepares
  unfold Fleet.fileStep
  split
  next hphase =>
    have hdue : f.hasFileStep = true := by rw [hasFileStep, hphase]
    split
    next g fault hwrite =>
      obtain ⟨-, -, hprep, -⟩ := h.writeMarker hspells hdue 0 hwrite
      exact Prepares.done (g := (g.settle _).1) hprep rfl
    next g hwrite =>
      obtain ⟨hplan, -, hprep, hholds⟩ := h.writeMarker hspells hdue 0 hwrite
      split
      next hmode => exact hprep.allocated (hholds rfl) (by rintro heq; simp [heq] at hmode) []
      · exact hprep.enterMode (hholds rfl) launcher
  next done hphase =>
    have hdue : f.hasFileStep = true := by rw [hasFileStep, hphase]
    have hmode : f.plan.mode ≠ .shell := fun heq => by simp [h.shell heq hdue] at hphase
    dsimp only
    split
    · exact Prepares.done (g := (f.settle _).1) hprepares rfl
    next t hmade =>
      have hways := (FileTree.makeDirectories_gainsDirectories hmade).keepsWays
      rcases h.marked hdue with ⟨heq, -⟩ | ⟨d, hd, hholds⟩
      · simp [heq] at hphase
      · exact (hprepares.makesStore hspells hmode hmade).allocated (f := { f with files := t })
          ⟨d, hd, hholds.of_keepsWays hways⟩ hmode _
  next hphase =>
    have hdue : f.hasFileStep = true := by rw [hasFileStep, hphase]
    split
    next g fault hwrite =>
      obtain ⟨-, -, hprep, -⟩ := h.writeMarker hspells hdue f.plan.workerCount hwrite
      exact Prepares.done (g := (g.settle _).1) hprep rfl
    next g hwrite =>
      obtain ⟨-, -, hprep, hholds⟩ := h.writeMarker hspells hdue f.plan.workerCount hwrite
      exact hprep.enterMode (hholds rfl) launcher
  next hphase =>
    have hdue : f.hasFileStep = true := by rw [hasFileStep, hphase]
    have hmode : f.plan.mode ≠ .shell := fun heq => by simp [h.shell heq hdue] at hphase
    split
    · exact hprepares.serverEnds _
    next t hmade =>
      have hways := (FileTree.makeDirectories_gainsDirectories hmade).keepsWays
      obtain ⟨hprep, hroot⟩ := hprepares.makesRoot hspells hmode hmade
      refine ⟨hprep, fun _ => ?_, fun _ => hroot, fun heq => absurd heq hmode⟩
      rcases h.marked hdue with ⟨heq, -⟩ | ⟨d, hd, hholds⟩
      · simp [heq] at hphase
      · exact .inr ⟨d, hd, hholds.of_keepsWays hways⟩
  next hphase =>
    have hdue : f.hasFileStep = true := by rw [hasFileStep, hphase]
    have hmode : f.plan.mode ≠ .shell := fun heq => by simp [h.shell heq hdue] at hphase
    dsimp only
    split
    · exact Prepares.serverEnds (f := { f with temporaries := f.temporaries + 1 }) hprepares _
    next t store hmade =>
      have hprep := hprepares.makesTemporary hspells hmode (h.rooted hphase) hmade
      exact Prepares.startServer (f := { f with files := t, temporaries := f.temporaries + 1 }) hprep launcher store
  · exact h

/-- Every step of a fleet keeps what its files may differ in. -/
theorem Prepared.step (h : f.Prepared ps files) (hspells : Spells f.plan ps ws octets) (launcher : Launcher)
    (a : Action) : (f.step launcher a).1.Prepared ps files := by
  by_cases ha : a = .file none
  · subst ha
    exact h.fileStep hspells launcher
  · refine h.rests (builds_step launcher f a).plan (rests_step launcher f ?_)
    rintro fault rfl rfl
    exact ha rfl

end Fleet

end Bailiff
