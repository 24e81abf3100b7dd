-- SUMMARY: Stores that calls have made are found and swept by what follows, as long as no backslash is in their paths.
import Bailiff.Proofs.Fleet.WholeSweep
import Bailiff.Rehearsal.Supervisor

/-!
# Draws

Calls that make stores draw their names at random (`Rehearsal.Draw`). Whatever they draw and whichever of them fail,
the stores of the calls that were answered are there afterwards (`Rehearsal.Acting.draws_stores`), and a sweep that
follows reports on all the stores below the root (`Rehearsal.Acting.stores_made_are_swept`). A store below a root with
a backslash is the exception: another place is listed, and the store is left
(`Rehearsal.Acting.sweep_misses_store_below_backslash`).
-/

namespace Bailiff

namespace Rehearsal

/-- A call that makes stores, with what it draws at random: the number in the name of a server's store, or the octets
from which the names of worker stores are made. -/
inductive Draw where
  | server (number : Nat)
  | workers (octets : List Nat) (count : Binary64)

/-- A store is there: below the root, a directory or a link to one. -/
structure Stored (files : FileTree) (ps : List String) (name : String) : Prop where
  plain : Stores.IsPlain name
  leads : ∃ l, files.Way [] ps l ∧ files.at? l = some .directory ∧ files.leadsToDirectory l name = true

theorem Stored.of_keepsWays {files files' : FileTree} {ps : List String} {name : String} (h : Stored files ps name)
    (hways : files.KeepsWays files') : Stored files' ps name := by
  obtain ⟨l, hway, hdir, hleads⟩ := h.leads
  exact ⟨h.plain, l, hway.of_keepsWays hways, hways.directory l hdir,
    FileTree.leadsToDirectory_of_keepsWays hways hleads⟩

section Stored

variable {files : FileTree} {root name : String} {ps listed : List String} (h : Stored files ps name)
  (hps : ∀ part ∈ ps, Path.IsName part) (hspelled : root = Path.ofParts ps)
  (hlisted : Sweep.storesBelow files root = .ok listed)
include h hps hspelled hlisted

/-- Below a root that could be listed as it stands, a store that is there can be found. -/
theorem Stored.hasStore (hplace : Listing.place [] root = root) : Sweep.HasStore files root name := by
  obtain ⟨l, hway, hdir, hleads⟩ := h.leads
  have hlocate : files.locate [] root = .ok l := by
    rw [hspelled, FileTree.locate_ofParts hps]
    rcases hway.walk FileTree.maxLinks with hfound | hloop
    · exact hfound
    · rw [← FileTree.locate_ofParts hps, ← hspelled] at hloop
      simp only [Sweep.storesBelow, FileTree.directoriesIn, hplace, hloop] at hlisted
      cases hlisted
  exact ⟨l, ⟨hlocate, hdir⟩, FileTree.mem_names_of_leadsToDirectory h.plain.isName hleads, h.plain.store, hleads⟩

/-- A store that is there is on the list just if no backslash is in its path, and its name is not found with a dot and
a backslash before it as well. -/
theorem Stored.mem_listed_iff (htree : files.IsTree) : Path.join [root, name] ∈ listed
    ↔ '\\' ∉ (Path.join [root, name]).toList ∧ ¬Sweep.Finds files root (".\\" ++ name) := by
  by_cases hplain : '\\' ∉ (Path.join [root, name]).toList
  · obtain ⟨hroot, -⟩ := (Sweep.plain_join_iff hps hspelled h.plain.isName).mp hplain
    have hplace : Listing.place [] root = root := Sweep.PlainRoot.place_eq ⟨hps, hspelled, hroot⟩
    exact Sweep.join_mem_listed_iff hps hspelled htree hlisted (h.hasStore hps hspelled hlisted hplace)
  · refine iff_of_false (fun hmem => hplain ?_) (fun hboth => hplain hboth.1)
    obtain ⟨other, -, heq⟩ := (Sweep.mem_listed_iff htree hlisted).mp hmem
    rw [heq]
    exact Path.not_mem_slashed _

end Stored

namespace Acting

/-- Makes the stores of one call, and answers their paths. -/
def draw (s : Acting) : Draw → Acting × Except Failure (List String)
  | .server number =>
    let (s, answer) := { s with temporaries := number }.makeServerStore
    (s, answer.map fun store => [store])
  | .workers octets count => { s with plan := { s.plan with suffix := Stores.suffix octets } }.makeWorkerStores count

/-- Makes the stores of some calls, one after the other, whether or not those before have failed. -/
def draws (s : Acting) : List Draw → Acting × List (Except Failure (List String))
  | [] => (s, [])
  | d :: ds =>
    let (s, answer) := s.draw d
    let (s, answers) := s.draws ds
    (s, answer :: answers)

/-! ## Calls -/

/-- What a call leaves in place: a tree of files with the ways there were, and the root. -/
structure Leaves (s s' : Acting) : Prop where
  tree : s'.files.IsTree
  ways : s.files.KeepsWays s'.files
  root : s'.plan.storeRoot = s.plan.storeRoot

/-- The paths that a call answers are different from each other, and those of stores that are there. -/
def AnswersStores (files : FileTree) (ps : List String) (answer : Except Failure (List String)) : Prop :=
  ∀ paths, answer = .ok paths →
    paths.Nodup ∧ ∀ path ∈ paths, ∃ name, Stored files ps name ∧ path = Path.ofParts (ps ++ [name])

variable {s s' s'' : Acting} {files files' : FileTree} {ps : List String} {path : String}

theorem leaves_refl (h : s.files.IsTree) : Leaves s s := ⟨h, .refl _, rfl⟩

theorem Leaves.trans (h : Leaves s s') (h' : Leaves s' s'') : Leaves s s'' :=
  ⟨h'.tree, h.ways.trans h'.ways, h'.root.trans h.root⟩

theorem AnswersStores.of_keepsWays {answer : Except Failure (List String)} (h : AnswersStores files ps answer)
    (hways : files.KeepsWays files') : AnswersStores files' ps answer := by
  intro paths hpaths
  obtain ⟨hnodup, hstored⟩ := h paths hpaths
  refine ⟨hnodup, fun path hpath => ?_⟩
  obtain ⟨name, hname, heq⟩ := hstored path hpath
  exact ⟨name, hname.of_keepsWays hways, heq⟩

section Stores

variable (hps : ∀ part ∈ ps, Path.IsName part)
include hps

theorem makes_server (htree : s.files.IsTree) (hroot : s.plan.storeRoot = Path.ofParts ps) :
    Leaves s s.makeServerStore.1 ∧ ∀ path, s.makeServerStore.2 = .ok path →
      ∃ name, Stored s.makeServerStore.1.files ps name ∧ path = Path.ofParts (ps ++ [name]) := by
  have hstem : Path.IsName Stores.serverStem := by
    constructor <;> decide
  unfold makeServerStore
  cases hmade : s.files.makeDirectories [] s.plan.storeRoot with
  | error fault => exact ⟨leaves_refl htree, nofun⟩
  | ok t =>
    have hways := (FileTree.makeDirectories_gainsDirectories hmade).keepsWays
    rw [hroot, FileTree.makeDirectories_ofParts hps] at hmade
    obtain ⟨l, hway, hmakes⟩ := FileTree.makeWay_makes htree.closed rfl hps hmade
    have hrooted := FileTree.makeWay_isTree htree rfl hps hmade
    dsimp only
    cases htemporary : t.makeTemporary [] (Stores.serverPath s.plan.storeRoot) (s.temporaries + 1) with
    | error fault => exact ⟨⟨hrooted, hways, rfl⟩, nofun⟩
    | ok made =>
      obtain ⟨t', store⟩ := made
      have hname := Stores.isPlain_server (s.temporaries + 1)
      have hpath := FileTree.path_of_makeTemporary htemporary
      rw [Stores.serverPath, hroot, Path.join_ofParts hps hstem] at htemporary hpath
      obtain ⟨hnone, rfl⟩ := FileTree.makeTemporary_makes hps hname.isName hway htemporary
      have hne := FileTree.ne_nil_of_at?_eq_none hnone
      have hkept := (FileTree.gainsDirectories_put hne hnone).keepsWays
      refine ⟨⟨hrooted.put hname.isName hmakes.directory hnone, hways.trans hkept, rfl⟩, fun path heq => ?_⟩
      cases heq
      refine ⟨_, ⟨hname, l, hway.of_keepsWays hkept, hkept.directory l hmakes.directory, ?_⟩, ?_⟩
      · exact FileTree.leadsToDirectory_directory hname.isName (FileTree.at?_put_self hne)
      · rw [hpath, Path.ofParts_append]

/-- The name of the store of a worker that comes after a number of others. -/
def workerName (octets : List Nat) (made : Nat) : String :=
  Stores.workerStem ++ Stores.suffix octets ++ "-" ++ Stores.workerIndex (made + 1)

/-- When some stores have been made, those that are missing are made one after the other. -/
theorem makes_missing {octets : List Nat} (hsuffix : s.plan.suffix = Stores.suffix octets) (htree : s.files.IsTree)
    (hroot : s.plan.storeRoot = Path.ofParts ps) (count : Binary64) (missing : Nat) {made : Nat}
    (hthere : ∀ k < made, Stored s.files ps (workerName octets k)) :
    let r := makeWorkerStores.go count missing s ((List.range made).map (Fleet.storePath s.plan))
    Leaves s r.1 ∧ ∀ paths, r.2 = .ok paths → paths = (List.range (made + missing)).map (Fleet.storePath s.plan)
      ∧ ∀ k < made + missing, Stored r.1.files ps (workerName octets k) := by
  induction missing generalizing s made with
  | zero =>
    refine ⟨⟨htree, .refl _, rfl⟩, fun paths hpaths => ?_⟩
    cases hpaths
    exact ⟨rfl, hthere⟩
  | succ missing ih =>
    rw [makeWorkerStores.go, List.length_map, List.length_range]
    cases hmade : s.files.makeDirectories [] (Fleet.storePath s.plan made) with
    | error fault => exact ⟨leaves_refl htree, nofun⟩
    | ok t =>
      have hname := Stores.isPlain_worker octets (made + 1)
      have hways := (FileTree.makeDirectories_gainsDirectories hmade).keepsWays
      have hall := Fleet.isName_storeNames hps octets made
      rw [Fleet.storePath_ofParts hroot hps hsuffix, FileTree.makeDirectories_ofParts hall] at hmade
      have hleaves : Leaves s { s with files := t } := ⟨FileTree.makeWay_isTree htree rfl hall hmade, hways, rfl⟩
      obtain ⟨t₁, l, -, hway, hdir, hlast⟩ := FileTree.makeWay_append rfl hps hmade
      have hlater := (FileTree.makeWay_gainsDirectories _ _ hlast).keepsWays
      have hnew : Stored t ps (workerName octets made) :=
        ⟨hname, l, hway.of_keepsWays hlater, hlater.directory l hdir,
          FileTree.leadsToDirectory_of_makeWay hname.isName hlast⟩
      have hthere' : ∀ k < made + 1, Stored t ps (workerName octets k) := by
        intro k hk
        rcases Nat.lt_succ_iff_lt_or_eq.mp hk with hbefore | rfl
        · exact (hthere k hbefore).of_keepsWays hways
        · exact hnew
      have hmore := @ih { s with files := t } hsuffix hleaves.tree hroot (made + 1) hthere'
      rw [List.range_succ, List.map_append, Nat.add_right_comm] at hmore
      exact ⟨hleaves.trans hmore.1, hmore.2⟩

theorem makes_workers {octets : List Nat} (hsuffix : s.plan.suffix = Stores.suffix octets) (htree : s.files.IsTree)
    (hroot : s.plan.storeRoot = Path.ofParts ps) (count : Binary64) : Leaves s (s.makeWorkerStores count).1
      ∧ AnswersStores (s.makeWorkerStores count).1.files ps (s.makeWorkerStores count).2 := by
  have hnone : ∀ k < 0, Stored s.files ps (workerName octets k) := nofun
  obtain ⟨hleaves, hanswer⟩ := makes_missing hps hsuffix htree hroot count (Fleet.storeCount count) hnone
  refine ⟨hleaves, fun paths hpaths => ?_⟩
  obtain ⟨rfl, hthere⟩ := hanswer paths hpaths
  constructor
  · refine List.Nodup.map (fun m n heq => ?_) List.nodup_range
    rw [Fleet.storePath_ofParts hroot hps hsuffix, Fleet.storePath_ofParts hroot hps hsuffix] at heq
    exact Fleet.storeNames_injective ps octets heq
  · intro path hpath
    obtain ⟨made, hmade, rfl⟩ := List.mem_map.mp hpath
    exact ⟨_, hthere made (List.mem_range.mp hmade), Fleet.storePath_ofParts hroot hps hsuffix made⟩

theorem draw_stores (htree : s.files.IsTree) (hroot : s.plan.storeRoot = Path.ofParts ps) (d : Draw) :
    Leaves s (s.draw d).1 ∧ AnswersStores (s.draw d).1.files ps (s.draw d).2 := by
  cases d with
  | server number =>
    obtain ⟨⟨htree', hways, hroot'⟩, hanswer⟩ := makes_server hps (s := { s with temporaries := number }) htree hroot
    refine ⟨⟨htree', hways, hroot'⟩, fun paths hpaths => ?_⟩
    simp only [draw] at hpaths
    cases hmade : ({ s with temporaries := number } : Acting).makeServerStore.2 with
    | error f =>
      rw [hmade] at hpaths
      cases hpaths
    | ok store =>
      rw [hmade] at hpaths
      cases hpaths
      refine ⟨List.nodup_singleton store, fun path hpath => ?_⟩
      cases List.mem_singleton.mp hpath
      exact hanswer store hmade
  | workers octets count =>
    obtain ⟨⟨htree', hways, hroot'⟩, hanswer⟩ := makes_workers hps
      (s := { s with plan := { s.plan with suffix := Stores.suffix octets } }) rfl htree hroot count
    exact ⟨⟨htree', hways, hroot'⟩, hanswer⟩

/-- Whatever stores are made, and whether or not that fails, the stores of the calls that were answered are there. -/
theorem draws_stores (htree : s.files.IsTree) (hroot : s.plan.storeRoot = Path.ofParts ps) (ds : List Draw) :
    Leaves s (s.draws ds).1 ∧ ∀ answer ∈ (s.draws ds).2, AnswersStores (s.draws ds).1.files ps answer := by
  induction ds generalizing s with
  | nil => exact ⟨leaves_refl htree, nofun⟩
  | cons d ds ih =>
    obtain ⟨hfirst, hanswer⟩ := draw_stores hps htree hroot d
    obtain ⟨hrest, hanswers⟩ := ih hfirst.tree (hfirst.root.trans hroot)
    refine ⟨hfirst.trans hrest, fun answer hmem => ?_⟩
    rcases List.mem_cons.mp hmem with rfl | hmem
    · exact hanswer.of_keepsWays hrest.ways
    · exact hanswers answer hmem

end Stores

/-! ## Sweeps that follow -/

/-- What a sweep logs leaves the files alone. -/
theorem files_logged (s : Acting) (events : List Event) :
    (events.foldl (fun s e => s.perform (.log e)) s).files = s.files := by
  induction events generalizing s with
  | nil => rfl
  | cons e events ih => exact ih _

theorem files_sweep (s : Acting) :
    (s.play .sweep).1.files = (Sweep.run s.fault? s.files s.plan.storeRoot).1 := by
  simp only [play]
  rw [files_logged]

theorem reply_sweep (s : Acting) : (s.play .sweep).2 = some (.ok (.report
    (Sweep.run s.fault? s.files s.plan.storeRoot).2.1.removed
    (Sweep.run s.fault? s.files s.plan.storeRoot).2.1.failed)) := by
  simp only [play]

/-- What has become of the stores below a root when they have been swept. The report divides a list that is in order
and has no path twice. This list has the paths of the stores and no others just if no backslash is in these, nor in the
path of a name that the listing finds, and then all that is different in the files is that stores reported as removed
are gone. -/
structure Swept (files : FileTree) (root : String) (listed removed failed : List String) (t : FileTree) : Prop where
  divides : Sweep.Divides listed removed failed
  disjoint : removed.Disjoint failed
  inOrder : listed.Pairwise fun path path' => Text.units path < Text.units path'
  right : Sweep.ListsStores files root listed
    ↔ ∀ name, Sweep.HasStore files root name ∨ Sweep.Finds files root name → '\\' ∉ (Path.join [root, name]).toList
  cleared : Sweep.ListsStores files root listed → Sweep.Cleared files root removed t

/-- Whatever the calls draw and whichever of them fail, the paths that one call answers are different from each other
and directly below the root. The sweep that follows has an answer: an empty report that leaves the files alone if the
root cannot be listed, and else one about the whole list, whichever removals fail. A store that was answered is on the
list under its path just if no backslash is in that path, and its name is not found with a dot and a backslash before
it as well. -/
theorem stores_made_are_swept (s : Acting) (ds : List Draw) (hps : ∀ part ∈ ps, Path.IsName part)
    (hroot : s.plan.storeRoot = Path.ofParts ps) (htree : s.files.IsTree) :
    let root := s.plan.storeRoot
    let made := (s.draws ds).1
    (∀ paths, .ok paths ∈ (s.draws ds).2 →
        paths.Nodup ∧ ∀ path ∈ paths, ∃ name, Stores.IsPlain name ∧ path = Path.join [root, name])
      ∧ ∃ after removed failed, made.play .sweep = (after, some (.ok (.report removed failed)))
        ∧ (∀ f, Sweep.storesBelow made.files root = .error f → removed = [] ∧ failed = [] ∧ after.files = made.files)
        ∧ ∀ listed, Sweep.storesBelow made.files root = .ok listed →
          Swept made.files root listed removed failed after.files
            ∧ ∀ paths, .ok paths ∈ (s.draws ds).2 → ∀ path ∈ paths,
              ∃ name, Stores.IsPlain name ∧ path = Path.join [root, name]
                ∧ (path ∈ listed ↔ '\\' ∉ path.toList ∧ ¬Sweep.Finds made.files root (".\\" ++ name)) := by
  intro root made
  obtain ⟨hleaves, hanswers⟩ := draws_stores hps htree hroot ds
  have hmade : made.plan.storeRoot = root := hleaves.root
  have hjoin {name : String} (hname : Stores.IsPlain name) : Path.ofParts (ps ++ [name]) = Path.join [root, name] := by
    rw [← Path.join_ofParts hps hname.isName, ← hroot]
  refine ⟨fun paths hpaths => ?_, ?_⟩
  · obtain ⟨hnodup, hstored⟩ := hanswers _ hpaths paths rfl
    refine ⟨hnodup, fun path hpath => ?_⟩
    obtain ⟨name, hname, rfl⟩ := hstored path hpath
    exact ⟨name, hname.plain, hjoin hname.plain⟩
  have hfiles := files_sweep made
  have hreply := reply_sweep made
  have hunlisted {f : FileFault} (hf : Sweep.storesBelow made.files root = .error f) :=
    Sweep.run_unlisted made.fault? hf
  have hlists {listed : List String} (hlisted : Sweep.storesBelow made.files root = .ok listed) :=
    Sweep.works_run hps hroot hleaves.tree made.fault? hlisted
  rw [hmade] at hfiles hreply
  generalize Sweep.run made.fault? made.files root = swept at hfiles hreply hunlisted hlists
  refine ⟨(made.play .sweep).1, swept.2.1.removed, swept.2.1.failed, ?_, fun f hf => ?_,
    fun listed hlisted => ⟨?_, ?_⟩⟩
  · rw [← hreply]
  · obtain ⟨hsame, hsweep⟩ := hunlisted hf
    rw [hfiles, hsweep]
    exact ⟨rfl, rfl, hsame⟩
  · obtain ⟨hworks, hpending⟩ := hlists hlisted
    obtain ⟨worked, heq, hdivides⟩ := hworks.divides
    rw [hpending, List.append_nil] at heq
    subst heq
    have hincreasing := Sweep.listed_increasing hps hroot hleaves.tree hlisted
    have hright := Sweep.listsStores_iff hps hroot hleaves.tree hlisted
    refine ⟨hdivides, hdivides.disjoint (Text.nodup_of_increasing hincreasing), hincreasing, hright, fun hstores => ?_⟩
    rw [hfiles]
    exact hworks.cleared hstores
  · intro paths hpaths path hpath
    obtain ⟨name, hstored, rfl⟩ := (hanswers _ hpaths paths rfl).2 path hpath
    rw [hjoin hstored.plain]
    exact ⟨name, hstored.plain, rfl, hstored.mem_listed_iff hps hroot hlisted hleaves.tree⟩

/-! ## One worker store -/

/-- A stage with files, a root for the stores, and nothing else. -/
def stage (root : String) (files : FileTree) : Acting :=
  { cast := fun _ _ _ => {}
    plan :=
      { mode := .select false true
        workerCount := 1
        tools := { toolsBin := "judge-tools", logLevel := "info", serverArgs := "", workerArgs := "", serverAddr := "" }
        shell := "/bin/bash"
        storeRoot := root
        workersFile := "/m"
        suffix := "" }
    fault? := fun _ => none
    files }

/-- A call for one worker store answers its path, and leaves the directory. -/
theorem draws_workerStore {root path : String} {files files' : FileTree}
    (hpath : Path.join [root, "harness-worker.a-01"] = path) (hmade : files.makeDirectories [] path = .ok files') :
    let made := ((stage root files).draws [.workers [0] 1]).1
    ((stage root files).draws [.workers [0] 1]).2 = [.ok [path]] ∧ made.files = files' ∧ made.plan.storeRoot = root
      ∧ made.fault? = fun _ => none := by
  intro made
  have hcount : Fleet.storeCount 1 = 1 := by decide +kernel
  have hname : Stores.workerStem ++ Stores.suffix [0] ++ "-" ++ Stores.workerIndex (0 + 1) = "harness-worker.a-01" := by
    decide +kernel
  have hstore : ∀ plan : FleetPlan, plan.storeRoot = root → plan.suffix = Stores.suffix [0] →
      Fleet.storePath plan 0 = path := by
    intro plan hroot hsuffix
    rw [Fleet.storePath, Stores.workerPath, hroot, hsuffix, hname, hpath]
  simp only [made, draws, draw, makeWorkerStores, hcount, makeWorkerStores.go, List.length_nil]
  rw [hstore _ rfl rfl]
  simp only [stage, hmade]
  exact ⟨rfl, rfl, rfl, rfl⟩

/-- A root below which there are a file with the name of a store, and a store that is not directly below. -/
def besideNotes : FileTree :=
  ⟨[(["x"], .directory), (["x", "deep"], .directory), (["x", "deep", "harness-worker.deep"], .directory),
    (["x", "harness-server.notes"], .file "kept\n")]⟩

theorem isTree_besideNotes : besideNotes.IsTree := by
  refine FileTree.isTree_of_entries (by unfold FileTree.Distinct; decide) fun e he => ?_
  simp only [besideNotes, List.mem_cons, List.not_mem_nil, or_false] at he
  rcases he with rfl | rfl | rfl | rfl
  all_goals exact ⟨rfl, by simp; constructor <;> decide⟩

/-- The same files when a store has been made below the root. -/
def besideStore : FileTree := ⟨besideNotes.entries ++ [(["x", "harness-worker.a-01"], .directory)]⟩

theorem leadsTo_besideStore : besideStore.LeadsTo "/x" ["x"] := by
  have hdir : besideStore.at? ["x"] = some .directory := rfl
  exact ⟨FileTree.locate_top (by decide) (by decide) (by decide +kernel) (by decide) (by decide) (by simp [hdir]), hdir⟩

theorem leadsToDirectory_notes : besideStore.leadsToDirectory ["x"] "harness-server.notes" = false := by
  have hfile : besideStore.at? ["x", "harness-server.notes"] = some (.file "kept\n") := rfl
  rw [FileTree.leadsToDirectory, FileTree.walk_last (by decide) (by decide) (by simp [hfile])]
  simp [hfile]

theorem storesBelow_besideStore : Sweep.storesBelow besideStore "/x" = .ok ["/x/harness-worker.a-01"] := by
  have hplace : Listing.place [] "/x" = "/x" := by decide +kernel
  have hnames : besideStore.names ["x"] = ["deep", "harness-server.notes", "harness-worker.a-01"] := rfl
  have hdeep : besideStore.leadsToDirectory ["x"] "deep" = true :=
    FileTree.leadsToDirectory_directory (by constructor <;> decide) rfl
  have hworker : besideStore.leadsToDirectory ["x"] "harness-worker.a-01" = true :=
    FileTree.leadsToDirectory_directory (by constructor <;> decide) rfl
  have hmatched : Listing.matched Stores.isStoreName ["deep", "harness-worker.a-01"] = ["harness-worker.a-01"] := by
    decide
  have hshown : Sweep.listedPath "/x" "harness-worker.a-01" = "/x/harness-worker.a-01" := by decide +kernel
  rw [Sweep.storesBelow_eq (hplace.symm ▸ leadsTo_besideStore) (hnames ▸ by decide), hnames]
  simp [hdeep, leadsToDirectory_notes, hworker, hmatched, hshown, Text.sortByUnits]

theorem eq_of_listed_besideStore {l : Location} {name : String} (hleads : besideStore.LeadsTo "/x" l)
    (hlisted : Sweep.Listed besideStore l name) : l = ["x"] ∧ name = "harness-worker.a-01" := by
  cases Except.ok.inj (hleads.located.symm.trans leadsTo_besideStore.located)
  have hnames : besideStore.names ["x"] = ["deep", "harness-server.notes", "harness-worker.a-01"] := rfl
  have hhere := hlisted.here
  simp only [hnames, List.mem_cons, List.not_mem_nil, or_false] at hhere
  rcases hhere with rfl | rfl | rfl
  · exact absurd hlisted.store (by decide)
  · exact absurd hlisted.leads (by simp [leadsToDirectory_notes])
  · exact ⟨rfl, rfl⟩

/-- No backslash is in the path of anything below the root. -/
theorem plain_besideStore {name : String}
    (h : Sweep.HasStore besideStore "/x" name ∨ Sweep.Finds besideStore "/x" name) :
    '\\' ∉ (Path.join ["/x", name]).toList := by
  have hplace : Listing.place [] "/x" = "/x" := by decide +kernel
  have hhere : name ∈ besideStore.names ["x"] := by
    rcases h with ⟨l, hleads, hlisted⟩ | ⟨⟨l, hleads, hhere, -⟩, -⟩
    · cases Except.ok.inj (hleads.located.symm.trans leadsTo_besideStore.located)
      exact hlisted.here
    · rw [hplace] at hleads
      cases Except.ok.inj (hleads.located.symm.trans leadsTo_besideStore.located)
      exact hhere
  have hall : ∀ name ∈ ["deep", "harness-server.notes", "harness-worker.a-01"],
      '\\' ∉ (Path.join ["/x", name]).toList := by decide +kernel
  exact hall name hhere

theorem stores_made_are_swept_beside_notes :
    let s := stage "/x" besideNotes
    let made := (s.draws [.workers [0] 1]).1
    (∀ part ∈ ["x"], Path.IsName part) ∧ s.plan.storeRoot = Path.ofParts ["x"] ∧ s.files.IsTree
      ∧ (s.draws [.workers [0] 1]).2 = [.ok ["/x/harness-worker.a-01"]]
      ∧ Sweep.storesBelow made.files "/x" = .ok ["/x/harness-worker.a-01"]
      ∧ ∃ after removed failed, made.play .sweep = (after, some (.ok (.report removed failed)))
        ∧ (removed ++ failed).Perm ["/x/harness-worker.a-01"] ∧ (∀ path ∈ removed, ¬after.files.HasEntry path)
        ∧ after.files.at? ["x", "harness-server.notes"] = some (.file "kept\n")
        ∧ after.files.at? ["x", "deep", "harness-worker.deep"] = some .directory := by
  intro s made
  have hps : ∀ part ∈ ["x"], Path.IsName part := by
    intro part hpart
    rw [List.mem_singleton.mp hpart]
    constructor <;> decide
  have hroot : s.plan.storeRoot = Path.ofParts ["x"] := by decide +kernel
  obtain ⟨hanswer, hfiles, -⟩ := @draws_workerStore "/x" "/x/harness-worker.a-01" besideNotes besideStore
    (by decide +kernel) (by rfl)
  have hlisted : Sweep.storesBelow made.files "/x" = .ok ["/x/harness-worker.a-01"] := by
    rw [hfiles]
    exact storesBelow_besideStore
  obtain ⟨-, after, removed, failed, hplay, -, hswept⟩ :=
    stores_made_are_swept s [.workers [0] 1] hps hroot isTree_besideNotes
  obtain ⟨hswept, -⟩ := hswept _ hlisted
  have honly : ∀ l name, made.files.LeadsTo "/x" l → Sweep.Listed made.files l name →
      l = ["x"] ∧ name = "harness-worker.a-01" := by
    rw [hfiles]
    exact fun l name => eq_of_listed_besideStore
  have hcleared : Sweep.Cleared made.files "/x" removed after.files := by
    refine hswept.cleared (hswept.right.mpr ?_)
    rw [hfiles]
    exact fun name => plain_besideStore
  refine ⟨hps, hroot, isTree_besideNotes, hanswer, hlisted, after, removed, failed, hplay, hswept.divides.perm,
    hcleared.gone, ?_, ?_⟩
  all_goals
    rw [hcleared.kept, hfiles]
    · rfl
    · intro l name hleads hbelow _
      obtain ⟨rfl, rfl⟩ := honly l name hleads hbelow
      decide

/-- The files when a store has been made below a root with a backslash. -/
def strayStore : FileTree := ⟨[(["x\\y"], .directory), (["x\\y", "harness-worker.a-01"], .directory)]⟩

/-- Below a root with a backslash a sweep finds nothing, and the store that has been made is left. -/
theorem sweep_misses_store_below_backslash :
    let s := stage "/x\\y" {}
    let made := (s.draws [.workers [0] 1]).1
    (s.draws [.workers [0] 1]).2 = [.ok ["/x\\y/harness-worker.a-01"]]
      ∧ ∃ after, made.play .sweep = (after, some (.ok (.report [] [])))
        ∧ after.files.at? ["x\\y", "harness-worker.a-01"] = some .directory := by
  intro s made
  obtain ⟨hanswer, hfiles, hroot, hfault⟩ := @draws_workerStore "/x\\y" "/x\\y/harness-worker.a-01" {} strayStore
    (by decide +kernel) (by rfl)
  have hnone : Sweep.storesBelow strayStore "/x\\y" = .ok [] := Sweep.storesBelow_backslash rfl
  obtain ⟨hswept, hreport⟩ := Sweep.run_nothing (fun _ => none) hnone
  have hreply : (made.play .sweep).2 = some (.ok (.report [] [])) := by
    rw [reply_sweep, hfault, hfiles, hroot, hreport]
  have hafter : (made.play .sweep).1.files = strayStore := by
    rw [files_sweep, hfault, hfiles, hroot, hswept]
  refine ⟨hanswer, (made.play .sweep).1, ?_, ?_⟩
  · rw [← hreply]
  · rw [hafter]
    rfl

end Acting

end Rehearsal

end Bailiff
