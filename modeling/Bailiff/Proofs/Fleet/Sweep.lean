-- SUMMARY: What a sweep lists below its root, what its steps do, and where the listed paths lead.
import Bailiff.Fleet.Sweep
import Bailiff.Proofs.Files.Listing

/-!
# Steps of a sweep

A sweep lists its root once and then works its list off (`Sweep.Move`). On the list is what it finds at the place
that is walked for the root, but for a name that is found with a dot and a backslash before it as well
(`Sweep.storesBelow_eq_ok`). As long as no backslash is in the way, these are the stores below the root, each once and
under its own path (`Sweep.storesBelow_plain`), and removing such a path removes that location of the tree and no
other (`Sweep.removePath_own`, `Sweep.removePath_other`).
-/

namespace Bailiff

/-! ## Names of stores -/

namespace Stores

variable {name : String}

/-- A store name that stands for itself in paths and in listings. -/
structure IsPlain (name : String) : Prop where
  store : isStoreName name = true
  isName : Path.IsName name
  plain : '\\' ∉ name.toList

theorem isName_of_isStoreName (hstore : isStoreName name = true) (hslash : '/' ∉ name.toList) : Path.IsName name := by
  have hshort : ∀ other : String, other.toList.length < 4 → name ≠ other := by
    rintro other hother rfl
    simp only [isStoreName, Bool.or_eq_true, List.isPrefixOf_iff_prefix] at hstore
    rcases hstore with hstem | hstem
    all_goals
      have hlength := hstem.length_le
      have hstems : 4 ≤ serverStem.toList.length ∧ 4 ≤ workerStem.toList.length := by decide
      omega
  exact ⟨hshort "" (by decide), hshort "." (by decide), hshort ".." (by decide), hslash⟩

theorem toList_of_isStoreName (h : isStoreName name = true) : ∃ rest, name.toList = 'h' :: rest := by
  simp only [isStoreName, Bool.or_eq_true, List.isPrefixOf_iff_prefix] at h
  rcases h with ⟨rest, h⟩ | ⟨rest, h⟩
  all_goals exact ⟨_, h.symm⟩

/-- The name of a store is its own key. -/
theorem key_eq (h : isStoreName name = true) : Listing.key name = name := by
  obtain ⟨rest, hname⟩ := toList_of_isStoreName h
  simp [Listing.key, hname]

/-- With a dot and a backslash before it the name of a store comes before the name itself. -/
theorem points_dotted_lt (h : isStoreName name = true) : Text.points (".\\" ++ name) < Text.points name := by
  obtain ⟨rest, hname⟩ := toList_of_isStoreName h
  rw [Text.points, Text.points, String.toList_append, hname]
  exact List.cons_lt_cons_iff.mpr (.inl (by decide))

end Stores

namespace Sweep

variable {files : FileTree} {s : Sweep}

/-! ## Steps -/

/-- What is still to be removed. -/
def pending (s : Sweep) : List String :=
  match s.phase with
  | .removing rest => rest
  | _ => []

/-- The paths that are still to be removed or could not be. -/
def charged (s : Sweep) : List String := s.pending ++ s.failed

/-- The root has been listed, or could not be. -/
def HasListed (s : Sweep) : Prop := s.phase ≠ .idle ∧ s.phase ≠ .scanning

/-- What a step of a sweep can do. -/
inductive Move (fault : Option FileFault) (files : FileTree) (s : Sweep) : FileTree → Sweep → List Event → Prop where
  | rests (hscanning : s.phase ≠ .scanning) (hpending : s.pending = []) : Move fault files s files s []
  | givesUp (hscanning : s.phase = .scanning) {f : FileFault}
      (hfault : fault = some f ∨ storesBelow files s.root = .error f) :
      Move fault files s files (s.givesUp f).1 (s.givesUp f).2
  | lists (hscanning : s.phase = .scanning) (hfault : fault = none) {stores : List String}
      (hstores : storesBelow files s.root = .ok stores) :
      Move fault files s files (s.goOn stores).1 (s.goOn stores).2
  | keeps {store : String} {rest : List String} (hphase : s.phase = .removing (store :: rest)) (f : FileFault) :
      Move fault files s files (s.keeps store rest f).1 (s.keeps store rest f).2
  | drops {store : String} {rest : List String} {files' : FileTree} (hphase : s.phase = .removing (store :: rest))
      (hremove : removePath files store = .ok files') :
      Move fault files s files' (s.drops store rest).1 (s.drops store rest).2

theorem move_step (fault : Option FileFault) (files : FileTree) (s : Sweep) :
    s.Move fault files (s.step fault files).1 (s.step fault files).2.1 (s.step fault files).2.2 := by
  unfold step
  split
  next hscanning =>
    split
    next f hf =>
      cases fault with
      | none =>
        rw [Option.elim_none] at hf
        exact .givesUp hscanning (.inr hf)
      | some _ => exact .givesUp hscanning (.inl (congrArg some (Except.error.inj hf)))
    next stores hstores =>
      cases fault with
      | none =>
        rw [Option.elim_none] at hstores
        exact .lists hscanning rfl hstores
      | some f => cases hstores
  next store rest hphase =>
    split
    next f _ => exact .keeps hphase f
    next files' hremove =>
      cases fault with
      | none => exact .drops hphase hremove
      | some f => cases hremove
  next hscanning hremoving =>
    refine .rests (fun h => hscanning h) ?_
    unfold pending
    split
    next rest hphase =>
      cases rest with
      | nil => rfl
      | cons store rest => exact absurd hphase (hremoving store rest)
    · rfl

theorem goOn_eq (s : Sweep) (rest : List String) :
    (s.goOn rest).1 = { s with phase := if rest.isEmpty then .done else .removing rest } := by
  unfold goOn
  split <;> rfl

@[simp] theorem pending_goOn (s : Sweep) (rest : List String) : (s.goOn rest).1.pending = rest := by
  rw [goOn_eq]
  unfold pending
  cases rest <;> rfl

theorem hasListed_goOn (s : Sweep) (rest : List String) : (s.goOn rest).1.HasListed := by
  rw [goOn_eq]
  unfold HasListed
  cases rest <;> simp

@[simp] theorem root_goOn (s : Sweep) (rest : List String) : (s.goOn rest).1.root = s.root := by
  rw [goOn_eq]

@[simp] theorem failed_goOn (s : Sweep) (rest : List String) : (s.goOn rest).1.failed = s.failed := by
  rw [goOn_eq]

theorem Move.root_eq {fault : Option FileFault} {files' : FileTree} {s' : Sweep} {events : List Event}
    (h : s.Move fault files files' s' events) : s'.root = s.root := by
  cases h with
  | rests => rfl
  | givesUp => rfl
  | lists => exact root_goOn s _
  | keeps => exact root_goOn _ _
  | drops => exact root_goOn _ _

/-- A step that does anything lists the root or goes on after that. -/
theorem Move.hasListed {fault : Option FileFault} {files' : FileTree} {s' : Sweep} {events : List Event}
    (h : s.Move fault files files' s' events) : s' = s ∨ s'.HasListed := by
  cases h with
  | rests => exact .inl rfl
  | givesUp => exact .inr ⟨nofun, nofun⟩
  | lists => exact .inr (hasListed_goOn s _)
  | keeps => exact .inr (hasListed_goOn _ _)
  | drops => exact .inr (hasListed_goOn _ _)

/-- A sweep that is idle or done rests. -/
theorem Move.eq_of_rest {fault : Option FileFault} {files' : FileTree} {s' : Sweep} {events : List Event}
    (h : s.Move fault files files' s' events) (hphase : s.phase = .idle ∨ s.phase = .done) : s' = s := by
  cases h with
  | rests => rfl
  | givesUp hscanning | lists hscanning => simp [hscanning] at hphase
  | keeps hremoving | drops hremoving => simp [hremoving] at hphase

/-! ## Listed paths -/

variable {root name : String} {ps stores : List String} {l : Location} {files' : FileTree}

/-- Different stores are listed under different paths, whatever characters are in them. -/
theorem listedPath_injective (hps : ∀ part ∈ ps, Path.IsName part) (hspelled : root = Path.ofParts ps) {other : String}
    (hname : Path.IsName name) (hother : Path.IsName other) (heq : listedPath root name = listedPath root other) :
    name = other := by
  rw [listedPath, listedPath, hspelled, Path.resolve_name hps hname, Path.resolve_name hps hother] at heq
  have hlists := congrArg String.toList heq
  rw [Path.slashed, Path.slashed, String.toList_ofList, String.toList_ofList, Path.toList_ofParts_concat,
    Path.toList_ofParts_concat, List.map_append, List.map_append, List.append_cancel_left_eq, List.map_cons,
    List.map_cons, List.cons.injEq] at hlists
  exact Path.slashed_injective hname.slashless hother.slashless (congrArg String.ofList hlists.2)

/-! ## What is found -/

/-- A sweep finds a name: it is shown below the root, and it is that of a store, apart from a dot and a backslash. -/
def Finds (files : FileTree) (root name : String) : Prop :=
  files.Shows [] root name ∧ Stores.isStoreName (Listing.key name) = true

/-- Of the names that are shown those match that are found, and not found with a dot and a backslash as well. -/
theorem mem_matched_iff {names : List String} (hdistinct : files.Distinct)
    (h : files.directoriesIn [] root = .ok names) :
    name ∈ Listing.matched Stores.isStoreName names ↔ Finds files root name ∧ ¬Finds files root (".\\" ++ name) := by
  obtain ⟨hsorted, hshown⟩ := FileTree.directoriesIn_eq_ok hdistinct h
  rw [Listing.mem_matched_iff hsorted, hshown]
  refine and_congr_right fun ⟨_, hstore⟩ => ?_
  constructor
  · rintro hleast ⟨hdotted, hkey⟩
    rw [Listing.key_dotted] at hkey
    have hle := hleast _ ((hshown _).mpr hdotted) (by rw [Listing.key_dotted, Stores.key_eq hkey])
    exact absurd hle (not_le.mpr (Stores.points_dotted_lt hkey))
  · intro hnone other hother hkey
    generalize hk : Listing.key name = k at hkey hstore
    -- Two names have this key: the key itself, and the dotted one, which comes first.
    rcases Listing.eq_of_key hk with hname | hname <;> rcases Listing.eq_of_key hkey with hname' | hname'
    · rw [hname, hname']
    · rw [hname', ← hname] at hother
      exact absurd ⟨(hshown _).mp hother, by rw [Listing.key_dotted, hname, hstore]⟩ hnone
    · rw [hname, hname']
      exact (Stores.points_dotted_lt hstore).le
    · rw [hname, hname']

/-- A list that could be made has the paths of the names that match, in the order of units. -/
theorem storesBelow_eq_ok (hdistinct : files.Distinct) (h : storesBelow files root = .ok stores) :
    ∃ names : List String, names.Nodup
      ∧ (∀ name, name ∈ names ↔ Finds files root name ∧ ¬Finds files root (".\\" ++ name))
      ∧ stores = Text.sortByUnits (names.map (listedPath root)) := by
  unfold storesBelow at h
  cases hnames : files.directoriesIn [] root with
  | error fault =>
    rw [hnames] at h
    cases h
  | ok names =>
    rw [hnames] at h
    have hnodup : names.Nodup :=
      (FileTree.directoriesIn_eq_ok hdistinct hnames).1.imp fun hlt => ne_of_apply_ne Text.points hlt.ne
    exact ⟨_, hnodup.sublist (Listing.matched_sublist _ _), fun name => mem_matched_iff hdistinct hnames,
      (Except.ok.inj h).symm⟩

/-- What is listed below a root that leads to a directory, when its names are in order. -/
theorem storesBelow_eq (h : files.LeadsTo (Listing.place [] root) l)
    (hsorted : (files.names l).Pairwise fun a b => Text.pointsLE a b = true) :
    storesBelow files root = .ok (Text.sortByUnits
      ((Listing.matched Stores.isStoreName ((files.names l).filter (files.leadsToDirectory l))).map
        (listedPath root))) := by
  rw [storesBelow, FileTree.directoriesIn_of_leadsTo h, List.mergeSort_of_pairwise hsorted]
  rfl

theorem storesBelow_backslash (h : files.at? ["x"] = none) : storesBelow files "/x\\y" = .ok [] := by
  rw [storesBelow, FileTree.directoriesIn_backslash h]
  exact congrArg Except.ok List.mergeSort_nil

/-- A root that leads to a directory can be listed. -/
theorem storesBelow_of_leadsTo (h : files.LeadsTo (Listing.place [] root) l) :
    ∃ stores, storesBelow files root = .ok stores := by
  rw [storesBelow, FileTree.directoriesIn_of_leadsTo h]
  exact ⟨_, rfl⟩

/-! ## Plain roots -/

/-- The root of a sweep as the path of plain names, without a backslash. -/
structure PlainRoot (root : String) (ps : List String) : Prop where
  names : ∀ part ∈ ps, Path.IsName part
  spelled : root = Path.ofParts ps
  plain : '\\' ∉ root.toList

/-- A name is on the list: that of a store, which is a directory or leads to one. -/
structure Listed (files : FileTree) (l : Location) (name : String) : Prop where
  here : name ∈ files.names l
  store : Stores.isStoreName name = true
  leads : files.leadsToDirectory l name = true

/-- The names below a place that listings take for those of stores stand for themselves in paths and in listings. -/
def PlainBelow (files : FileTree) (l : Location) : Prop :=
  ∀ name ∈ files.names l, Stores.isStoreName (Listing.key name) = true → Stores.IsPlain name

theorem PlainBelow.isPlain (h : PlainBelow files l) (hname : name ∈ files.names l)
    (hstore : Stores.isStoreName name = true) : Stores.IsPlain name :=
  h name hname ((Stores.key_eq hstore).symm ▸ hstore)

theorem Listed.isPlain (h : Listed files l name) (hplain : PlainBelow files l) : Stores.IsPlain name :=
  hplain.isPlain h.here h.store

namespace PlainRoot

theorem resolved (hroot : PlainRoot root ps) : Path.resolve (Path.ofParts []) root = root := by
  rw [hroot.spelled, Path.resolve_ofParts hroot.names]

/-- What is walked for a plain root is the root itself. -/
theorem place_eq (hroot : PlainRoot root ps) : Listing.place [] root = root := by
  rw [Listing.place, hroot.resolved, Path.slashed_eq hroot.plain]

theorem concat (hroot : PlainRoot root ps) (hname : Path.IsName name) : ∀ part ∈ ps ++ [name], Path.IsName part := by
  simpa [or_imp, forall_and] using ⟨hroot.names, hname⟩

/-- The path of a store is listed as it is when there is no backslash in it. -/
theorem listedPath_eq (hroot : PlainRoot root ps) (hname : Path.IsName name) (hplain : '\\' ∉ name.toList) :
    listedPath root name = Path.ofParts (ps ++ [name]) := by
  have hnone : '\\' ∉ (Path.ofParts (ps ++ [name])).toList := by
    have hparts := hroot.plain
    rw [hroot.spelled, Path.mem_ofParts_iff (by decide) hroot.names] at hparts
    rw [Path.mem_ofParts_iff (by decide) (hroot.concat hname)]
    rintro ⟨part, hpart, hc⟩
    rw [List.mem_append, List.mem_singleton] at hpart
    rcases hpart with hpart | rfl
    · exact hparts ⟨part, hpart, hc⟩
    · exact hplain hc
  rw [listedPath, hroot.spelled, Path.resolve_name hroot.names hname, Path.slashed_eq hnone]

theorem listedPath_inj (hroot : PlainRoot root ps) {other : String} (hname : Path.IsName name)
    (hother : Path.IsName other) (heq : listedPath root name = listedPath root other) : name = other :=
  listedPath_injective hroot.names hroot.spelled hname hother heq

end PlainRoot

/-- A listing of a plain root has the listed names and no others, each once. -/
theorem storesBelow_plain (hroot : PlainRoot root ps) (hdistinct : files.Distinct) (hplain : PlainBelow files l)
    (honly : ∀ m, files.LeadsTo root m → m = l) (h : storesBelow files root = .ok stores) :
    stores.Nodup ∧ ∀ store, store ∈ stores
      ↔ ∃ name, (files.LeadsTo root l ∧ Listed files l name) ∧ store = listedPath root name := by
  obtain ⟨names, hnodup, hnames, rfl⟩ := storesBelow_eq_ok hdistinct h
  have hlisted (name : String) : name ∈ names ↔ files.LeadsTo root l ∧ Listed files l name := by
    rw [hnames]
    constructor
    · rintro ⟨⟨⟨m, hleads, hhere, hdir⟩, hstore⟩, -⟩
      rw [hroot.place_eq] at hleads
      obtain rfl := honly m hleads
      exact ⟨hleads, hhere, (hplain name hhere hstore).store, hdir⟩
    · rintro ⟨hleads, hlisted⟩
      refine ⟨⟨⟨l, hroot.place_eq.symm ▸ hleads, hlisted.here, hlisted.leads⟩, ?_⟩, ?_⟩
      · rw [Stores.key_eq hlisted.store]
        exact hlisted.store
      · rintro ⟨⟨m, hleads', hhere, -⟩, hstore⟩
        rw [hroot.place_eq] at hleads'
        obtain rfl := honly m hleads'
        exact (hplain _ hhere hstore).plain (by simp)
  constructor
  · rw [(Text.sortByUnits_perm _).nodup_iff, List.Nodup, List.pairwise_map]
    refine List.Pairwise.imp_of_mem (fun hname hother hne heq => hne ?_) hnodup
    rw [hlisted] at hname hother
    exact hroot.listedPath_inj (hname.2.isPlain hplain).isName (hother.2.isPlain hplain).isName heq
  · intro store
    rw [(Text.sortByUnits_perm _).mem_iff, List.mem_map]
    exact exists_congr fun name => and_congr (hlisted name) eq_comm

/-! ## Anchored stores -/

/-- The stores of a sweep are below one location: the root leads there or nowhere, a store that is there is
below the root, and the names of stores there are plain. -/
structure Anchored (files : FileTree) (root : String) (l : Location) : Prop where
  only : ∀ m, files.locate [] root = .ok m → m = l
  under : ∀ name, Stores.isStoreName name = true → files.at? (l ++ [name]) = some .directory →
    files.locate [] root = .ok l ∧ files.at? l = some .directory
  plain : PlainBelow files l

namespace Anchored

/-- A store that is there is plain, and it is on the list. -/
theorem isPlain (h : Anchored files root l) (hstore : Stores.isStoreName name = true)
    (hdir : files.at? (l ++ [name]) = some .directory) : Stores.IsPlain name :=
  h.plain.isPlain (FileTree.mem_names_iff.mpr (by simp [hdir])) hstore

theorem listed (h : Anchored files root l) (hstore : Stores.isStoreName name = true)
    (hdir : files.at? (l ++ [name]) = some .directory) : files.LeadsTo root l ∧ Listed files l name := by
  obtain ⟨hlocate, hl⟩ := h.under name hstore hdir
  exact ⟨⟨hlocate, hl⟩, FileTree.mem_names_iff.mpr (by simp [hdir]), hstore,
    FileTree.leadsToDirectory_directory (h.isPlain hstore hdir).isName hdir⟩

/-- The root of a store that is there can be listed. -/
theorem listable (h : Anchored files root l) (hroot : PlainRoot root ps) (hstore : Stores.isStoreName name = true)
    (hdir : files.at? (l ++ [name]) = some .directory) (f : FileFault) : storesBelow files root ≠ .error f := by
  obtain ⟨stores, hstores⟩ := storesBelow_of_leadsTo (hroot.place_eq.symm ▸ (h.listed hstore hdir).1)
  rw [hstores]
  nofun

end Anchored

/-! ## Removing by a listed path -/

theorem removePath_cases {path : String} (h : removePath files path = .ok files') :
    (files' = files ∧ ∀ m, files.walk false FileTree.maxLinks [] (Path.parts path) ≠ .ok m)
      ∨ ∃ m, files.walk false FileTree.maxLinks [] (Path.parts path) = .ok m ∧ files' = files.remove m := by
  unfold removePath at h
  split at h
  next m hway =>
    cases h
    exact .inr ⟨m, hway, rfl⟩
  next hway =>
    cases h
    exact .inl ⟨rfl, fun m heq => by cases hway.symm.trans heq⟩
  next => cases h

/-- Removing makes nothing. -/
theorem at?_of_removePath {path : String} (h : removePath files path = .ok files') {m : Location} {n : Node}
    (hn : files'.at? m = some n) : files.at? m = some n := by
  rcases removePath_cases h with ⟨rfl, -⟩ | ⟨m', -, rfl⟩
  · exact hn
  by_cases hm' : m' = []
  · subst hm'
    by_cases hm : m = []
    · subst hm
      exact hn
    · have hnone : (files.remove []).at? m = none := by
        rw [FileTree.at?_of_ne_nil hm, FileTree.remove]
        simp
      rw [hnone] at hn
      cases hn
  · rw [FileTree.at?_remove hm'] at hn
    split at hn
    · cases hn
    · exact hn

theorem distinct_removePath {path : String} (h : removePath files path = .ok files') (hdistinct : files.Distinct) :
    files'.Distinct := by
  rcases removePath_cases h with ⟨rfl, -⟩ | ⟨m, -, rfl⟩
  · exact hdistinct
  · exact hdistinct.remove m

/-- The path of a store that is listed leads to it, so that it is what is removed. -/
theorem removePath_listed (hroot : PlainRoot root ps) (hleads : files.LeadsTo root l) (hname : Stores.IsPlain name) :
    removePath files (listedPath root name) = .ok (files.remove (l ++ [name])) := by
  have hlocated := hleads.located
  rw [hroot.spelled, FileTree.locate_ofParts hroot.names] at hlocated
  rw [hroot.listedPath_eq hname.isName hname.plain, removePath, FileTree.walk_ofParts (hroot.concat hname.isName),
    FileTree.walk_concat hname.isName hleads.directory hlocated]

/-- The path of a store that is there leads to it, and removing it takes it away. -/
theorem removePath_own (hroot : PlainRoot root ps) (hanchored : Anchored files root l)
    (hstore : Stores.isStoreName name = true) (hdir : files.at? (l ++ [name]) = some .directory)
    (h : removePath files (listedPath root name) = .ok files') : files'.at? (l ++ [name]) = none := by
  rw [removePath_listed hroot (hanchored.listed hstore hdir).1 (hanchored.isPlain hstore hdir)] at h
  cases h
  rw [FileTree.at?_remove (by simp), if_pos (by simp)]

/-- The path of another store leads elsewhere. -/
theorem removePath_other (hroot : PlainRoot root ps) (hanchored : Anchored files root l) {other : String}
    (hother : Path.IsName other) (hplain : '\\' ∉ other.toList) (hne : other ≠ name)
    (h : removePath files (listedPath root other) = .ok files') :
    files'.at? (l ++ [name]) = files.at? (l ++ [name]) := by
  rcases removePath_cases h with ⟨rfl, -⟩ | ⟨m, hway, rfl⟩
  · rfl
  rw [hroot.listedPath_eq hother hplain, FileTree.walk_ofParts (hroot.concat hother)] at hway
  obtain ⟨l', hlocate, rfl⟩ := FileTree.walk_of_concat hother hway
  rw [← FileTree.locate_ofParts hroot.names, ← hroot.spelled] at hlocate
  rw [hanchored.only l' hlocate, FileTree.at?_remove (by simp), if_neg]
  simpa using hne

end Sweep

end Bailiff
