-- SUMMARY: A whole sweep: what it lists, how its report divides the list, and what it leaves of the files.
import Bailiff.Proofs.Fleet.Clearing
import Bailiff.Proofs.Text.Order

/-!
# Whole sweeps

A list that could be made shows what is found at the place walked for the root, in the order of units. A store below
the root need not be found there, nor be listed under its own path (`Sweep.join_mem_listed_iff`). Step by step a sweep works the list off (`Sweep.Works.move`), so that in the
end its report divides it between the removed stores and the failed ones (`Sweep.works_run`). When the paths on the
list are those of the stores, nothing is at the path of a removed store any more, and all else is as it was
(`Sweep.Cleared`). The way to the root may lead through one of its own stores: when that is gone the others are out
of reach, so their paths lead to nothing, and removing them takes nothing away.
-/

namespace Bailiff.Sweep

variable {files t t' : FileTree} {root name path : String} {ps listed : List String} {l m : Location} {s s' : Sweep}

/-! ## The list -/

/-- A store is below a root: a directory, or a link to one, with a name of stores. -/
def HasStore (files : FileTree) (root name : String) : Prop := ∃ l, files.LeadsTo root l ∧ Listed files l name

theorem HasStore.isName (h : HasStore files root name) (htree : files.IsTree) : Path.IsName name := by
  obtain ⟨l, -, hlisted⟩ := h
  exact htree.names l name (FileTree.mem_names_iff.mp hlisted.here)

theorem Finds.isName (h : Finds files root name) (htree : files.IsTree) : Path.IsName name := by
  obtain ⟨⟨l, -, hhere, -⟩, -⟩ := h
  exact htree.names l name (FileTree.mem_names_iff.mp hhere)

/-- Two dots with their backslashes are no name of a store. -/
theorem not_finds_twice_dotted (files : FileTree) (root name : String) :
    ¬Finds files root (".\\" ++ (".\\" ++ name)) := by
  rintro ⟨-, hstore⟩
  rw [Listing.key_dotted] at hstore
  obtain ⟨rest, hdotted⟩ := Stores.toList_of_isStoreName hstore
  rw [String.toList_append] at hdotted
  cases hdotted

/-- All paths on a list are those of stores below the root, and none is missing. -/
def ListsStores (files : FileTree) (root : String) (listed : List String) : Prop :=
  ∀ path, path ∈ listed ↔ ∃ name, HasStore files root name ∧ path = Path.join [root, name]

section Listing

variable (hps : ∀ part ∈ ps, Path.IsName part) (hspelled : root = Path.ofParts ps) (htree : files.IsTree)
  (h : storesBelow files root = .ok listed)

section Names

variable {other : String}

include hps hspelled

/-- The path of a name has a backslash just if the root or the name has one. -/
theorem plain_join_iff (hname : Path.IsName name) :
    '\\' ∉ (Path.join [root, name]).toList ↔ '\\' ∉ root.toList ∧ '\\' ∉ name.toList := by
  rw [hspelled, Path.join_ofParts hps hname, Path.toList_ofParts_concat, List.mem_append, not_or, List.mem_cons, not_or]
  refine and_congr ?_ (and_iff_right (by decide))
  split
  next hnil => simp [hnil, Path.toList_ofParts]
  · exact Iff.rfl

/-- The path of a store is listed as it is when no backslash is in it. -/
theorem listedPath_eq_join (hname : Path.IsName name) (hplain : '\\' ∉ (Path.join [root, name]).toList) :
    listedPath root name = Path.join [root, name] := by
  have hjoin : Path.resolve root name = Path.join [root, name] := by
    rw [hspelled, Path.join_ofParts hps hname, Path.resolve_name hps hname]
  rw [listedPath, hjoin, Path.slashed_eq hplain]

/-- What is shown for a name is the path of a name just if it is the same one and no backslash is in that path. -/
theorem listedPath_eq_join_iff (hname : Path.IsName name) (hother : Path.IsName other) :
    listedPath root other = Path.join [root, name]
      ↔ other = name ∧ '\\' ∉ (Path.join [root, name]).toList := by
  constructor
  · intro heq
    have hplain : '\\' ∉ (Path.join [root, name]).toList := heq ▸ Path.not_mem_slashed _
    have hshown := listedPath_eq_join hps hspelled hname hplain
    exact ⟨listedPath_injective hps hspelled hother hname (heq.trans hshown.symm), hplain⟩
  · rintro ⟨rfl, hplain⟩
    exact listedPath_eq_join hps hspelled hname hplain

/-- When no backslash is in the path of a name, it is found just if it is a store below the root. -/
theorem finds_iff_hasStore (hname : Path.IsName name) (hplain : '\\' ∉ (Path.join [root, name]).toList) :
    Finds files root name ↔ HasStore files root name := by
  obtain ⟨hroot, hself⟩ := (plain_join_iff hps hspelled hname).mp hplain
  have hplace : Listing.place [] root = root := PlainRoot.place_eq ⟨hps, hspelled, hroot⟩
  rw [Finds, FileTree.Shows, hplace, Listing.key_of_plain hself]
  constructor
  · rintro ⟨⟨l, hleads, hhere, hdir⟩, hstore⟩
    exact ⟨l, hleads, hhere, hstore, hdir⟩
  · rintro ⟨l, hleads, hlisted⟩
    exact ⟨⟨l, hleads, hlisted.here, hlisted.leads⟩, hlisted.store⟩

end Names

include htree h

theorem mem_listed_iff : path ∈ listed
    ↔ ∃ name, (Finds files root name ∧ ¬Finds files root (".\\" ++ name)) ∧ path = listedPath root name := by
  obtain ⟨names, -, hnames, rfl⟩ := storesBelow_eq_ok htree.distinct h
  rw [(Text.sortByUnits_perm _).mem_iff, List.mem_map]
  exact exists_congr fun name => and_congr (hnames name) eq_comm

include hps hspelled

/-- The list is in the order of units, and no path is on it twice. -/
theorem listed_increasing : listed.Pairwise fun path path' => Text.units path < Text.units path' := by
  obtain ⟨names, hnodup, hnames, rfl⟩ := storesBelow_eq_ok htree.distinct h
  apply Text.sortByUnits_increasing
  rw [List.Nodup, List.pairwise_map]
  refine List.Pairwise.imp_of_mem (fun hname hother hne heq => hne ?_) hnodup
  rw [hnames] at hname hother
  exact listedPath_injective hps hspelled (hname.1.isName htree) (hother.1.isName htree) heq

/-- A store is listed under its own path just if no backslash is in that path, and its name is not found with a dot
and a backslash before it as well. -/
theorem join_mem_listed_iff (hstore : HasStore files root name) : Path.join [root, name] ∈ listed
    ↔ '\\' ∉ (Path.join [root, name]).toList ∧ ¬Finds files root (".\\" ++ name) := by
  have hname := hstore.isName htree
  rw [mem_listed_iff htree h]
  constructor
  · rintro ⟨other, ⟨hfinds, hnot⟩, heq⟩
    obtain ⟨rfl, hplain⟩ := (listedPath_eq_join_iff hps hspelled hname (hfinds.isName htree)).mp heq.symm
    exact ⟨hplain, hnot⟩
  · rintro ⟨hplain, hnot⟩
    exact ⟨name, ⟨(finds_iff_hasStore hps hspelled hname hplain).mpr hstore, hnot⟩,
      (listedPath_eq_join hps hspelled hname hplain).symm⟩

/-- The list has the paths of the stores just if no backslash is in one of them, nor in the path of a name that is
found. -/
theorem listsStores_iff : ListsStores files root listed
    ↔ ∀ name, HasStore files root name ∨ Finds files root name → '\\' ∉ (Path.join [root, name]).toList := by
  constructor
  · intro hlists name hcase
    have honly {other : String} (hfinds : Finds files root other) (hnot : ¬Finds files root (".\\" ++ other)) :
        '\\' ∉ (Path.join [root, other]).toList := by
      obtain ⟨own, hstore, heq⟩ := (hlists _).mp ((mem_listed_iff htree h).mpr ⟨other, ⟨hfinds, hnot⟩, rfl⟩)
      obtain ⟨rfl, hplain⟩ :=
        (listedPath_eq_join_iff hps hspelled (hstore.isName htree) (hfinds.isName htree)).mp heq
      exact hplain
    rcases hcase with hstore | hfinds
    · exact ((join_mem_listed_iff hps hspelled htree h hstore).mp ((hlists _).mpr ⟨name, hstore, rfl⟩)).1
    · refine honly hfinds fun hdotted => ?_
      have hplain := honly hdotted (not_finds_twice_dotted files root name)
      rw [plain_join_iff hps hspelled (hdotted.isName htree)] at hplain
      exact hplain.2 (by simp)
  · intro hplain path
    rw [mem_listed_iff htree h]
    refine exists_congr fun name => ?_
    constructor
    · rintro ⟨⟨hfinds, -⟩, rfl⟩
      have hname := hfinds.isName htree
      have hjoin := hplain name (.inr hfinds)
      exact ⟨(finds_iff_hasStore hps hspelled hname hjoin).mp hfinds, listedPath_eq_join hps hspelled hname hjoin⟩
    · rintro ⟨hstore, rfl⟩
      have hname := hstore.isName htree
      have hjoin := hplain name (.inl hstore)
      refine ⟨⟨(finds_iff_hasStore hps hspelled hname hjoin).mpr hstore, fun hdotted => ?_⟩,
        (listedPath_eq_join hps hspelled hname hjoin).symm⟩
      have hpath := hplain _ (.inr hdotted)
      rw [plain_join_iff hps hspelled (hdotted.isName htree)] at hpath
      exact hpath.2 (by simp)

end Listing

/-! ## The report -/

/-- What has been worked off of a list is divided between the removed stores and the failed ones, each in the order
of the list. -/
structure Divides (worked removed failed : List String) : Prop where
  sublist_removed : removed.Sublist worked
  sublist_failed : failed.Sublist worked
  perm : (removed ++ failed).Perm worked

variable {worked removed failed : List String}

theorem Divides.disjoint (h : Divides listed removed failed) (hnodup : listed.Nodup) : removed.Disjoint failed :=
  List.disjoint_of_nodup_append (h.perm.nodup_iff.mpr hnodup)

theorem Divides.removes (h : Divides worked removed failed) (store : String) :
    Divides (worked ++ [store]) (removed ++ [store]) failed := by
  refine ⟨h.sublist_removed.append (.refl _), h.sublist_failed.trans (List.sublist_append_left _ _), ?_⟩
  have hlast : (removed ++ [store] ++ failed).Perm (removed ++ failed ++ [store]) := by
    rw [List.append_assoc, List.append_assoc]
    exact List.perm_append_comm.append_left removed
  exact hlast.trans (h.perm.append_right [store])

theorem Divides.fails (h : Divides worked removed failed) (store : String) :
    Divides (worked ++ [store]) removed (failed ++ [store]) := by
  refine ⟨h.sublist_removed.trans (List.sublist_append_left _ _), h.sublist_failed.append (.refl _), ?_⟩
  rw [← List.append_assoc]
  exact h.perm.append_right [store]

/-! ## What is left -/

/-- Nothing is at the paths of the removed stores any more. Nothing has been made, and all that is no removed store
and not below one is as it was. -/
structure Cleared (files : FileTree) (root : String) (removed : List String) (t : FileTree) : Prop where
  gone : ∀ path ∈ removed, ¬t.HasEntry path
  fewer : ∀ m n, t.at? m = some n → files.at? m = some n
  kept : ∀ m, (∀ l name, files.LeadsTo root l → Listed files l name → Path.join [root, name] ∈ removed →
    ¬l ++ [name] <+: m) → t.at? m = files.at? m
  closed : t.Closed

theorem cleared_nil (h : files.Closed) : Cleared files root [] files := ⟨nofun, fun _ _ hn => hn, fun _ _ => rfl, h⟩

/-- What a path has led to is not there once it has been removed. -/
theorem not_hasEntry_of_removePath (hbelow : ∀ m, t.walk false FileTree.maxLinks [] (Path.parts path) = .ok m → m ≠ [])
    (h : removePath t path = .ok t') : ¬t'.HasEntry path := by
  rintro ⟨m, hway, hm⟩
  have hbefore := FileTree.walk_of_kept (fun m n hn => at?_of_removePath h hn) hm hway
  rcases removePath_cases h with ⟨-, hnone⟩ | ⟨m', hway', rfl⟩
  · exact hnone m hbefore
  · cases hway'.symm.trans hbefore
    rw [FileTree.at?_remove (hbelow _ hway')] at hm
    simp at hm

section Remove

variable (hps : ∀ part ∈ ps, Path.IsName part) (hspelled : root = Path.ofParts ps) (hname : Path.IsName name)
include hps hspelled hname

theorem walk_join : t.walk false FileTree.maxLinks [] (Path.parts (Path.join [root, name]))
    = t.walk false FileTree.maxLinks [] (ps ++ [name]) := by
  have hall : ∀ part ∈ ps ++ [name], Path.IsName part := by
    simpa [or_imp, forall_and] using ⟨hps, hname⟩
  rw [hspelled, Path.join_ofParts hps hname, FileTree.walk_ofParts hall]

/-- When entries have been taken away, the path of a store leads to the store or to a place where nothing is. -/
theorem walk_join_cases (hleads : files.LeadsTo root l) (hfewer : ∀ m n, t.at? m = some n → files.at? m = some n)
    (hway : t.walk false FileTree.maxLinks [] (Path.parts (Path.join [root, name])) = .ok m) :
    m ≠ [] ∧ (m = l ++ [name] ∨ t.at? m = none) := by
  rw [walk_join hps hspelled hname] at hway
  constructor
  · obtain ⟨above, -, rfl⟩ := FileTree.walk_of_concat hname hway
    simp
  · by_cases hm : t.at? m = none
    · exact .inr hm
    · have hlocated := hleads.located
      rw [hspelled, FileTree.locate_ofParts hps] at hlocated
      have hwhole := FileTree.walk_concat hname hleads.directory hlocated
      exact .inl (Except.ok.inj ((FileTree.walk_of_kept hfewer hm hway).symm.trans hwhole))

/-- Removing what is at the path of a store takes away the store, or nothing. -/
theorem Cleared.remove (h : Cleared files root removed t) (hleads : files.LeadsTo root l)
    (hlisted : Listed files l name) (hremove : removePath t (Path.join [root, name]) = .ok t') :
    Cleared files root (removed ++ [Path.join [root, name]]) t' := by
  have hplace : ∀ m, t.walk false FileTree.maxLinks [] (Path.parts (Path.join [root, name])) = .ok m →
      m ≠ [] ∧ (m = l ++ [name] ∨ t.at? m = none) := fun m hway =>
    walk_join_cases hps hspelled hname hleads h.fewer hway
  have hfewer : ∀ m n, t'.at? m = some n → t.at? m = some n := fun m n hn => at?_of_removePath hremove hn
  have hgone := not_hasEntry_of_removePath (fun m hway => (hplace m hway).1) hremove
  refine ⟨fun path hpath => ?_, fun m n hn => h.fewer m n (hfewer m n hn), fun m hm => ?_, ?_⟩
  · rw [List.mem_append, List.mem_singleton] at hpath
    rcases hpath with hpath | rfl
    · exact fun hentry => h.gone path hpath (hentry.of_kept hfewer)
    · exact hgone
  · have hold : t.at? m = files.at? m := h.kept m fun l' name' hleads' hlisted' hmem =>
      hm l' name' hleads' hlisted' (List.mem_append_left _ hmem)
    rcases removePath_cases hremove with ⟨rfl, -⟩ | ⟨m', hway, rfl⟩
    · exact hold
    · obtain ⟨hne, hm'⟩ := hplace m' hway
      rw [FileTree.at?_remove hne]
      split
      next hpre =>
        rw [List.isPrefixOf_iff_prefix] at hpre
        rcases hm' with rfl | hnone
        · exact absurd hpre (hm l name hleads hlisted (by simp))
        · rw [← hold]
          obtain ⟨below, rfl⟩ := hpre
          cases below with
          | nil => rw [List.append_nil, hnone]
          | cons part below => exact (h.closed.nothing_below (by simp [hnone]) part below).symm
      · exact hold
  · rcases removePath_cases hremove with ⟨rfl, -⟩ | ⟨m', hway, rfl⟩
    · exact h.closed
    · exact h.closed.remove (hplace m' hway).1

end Remove

/-! ## Whole sweeps -/

/-- A sweep has listed its root and worked the list off up to what is pending. -/
structure Works (files : FileTree) (root : String) (listed : List String) (t : FileTree) (s : Sweep) : Prop where
  begun : s.HasListed
  divides : ∃ worked, listed = worked ++ s.pending ∧ Divides worked s.removed s.failed
  cleared : ListsStores files root listed → Cleared files root s.removed t

theorem works_goOn {worked rest : List String} (hlisted : listed = worked ++ rest)
    (hdivides : Divides worked s.removed s.failed)
    (hcleared : ListsStores files root listed → Cleared files root s.removed t) :
    Works files root listed t (s.goOn rest).1 := by
  have hreport : (s.goOn rest).1.removed = s.removed ∧ (s.goOn rest).1.failed = s.failed := by
    rw [goOn_eq]
    exact ⟨rfl, rfl⟩
  refine ⟨hasListed_goOn s rest, ⟨worked, ?_, ?_⟩, ?_⟩
  · rwa [pending_goOn]
  · rwa [hreport.1, hreport.2]
  · rwa [hreport.1]

section Works

variable (hps : ∀ part ∈ ps, Path.IsName part) (hspelled : root = Path.ofParts ps) (htree : files.IsTree)
include hps hspelled htree

/-- A step works one store off. -/
theorem Works.move (h : Works files root listed t s) {fault : Option FileFault} {events : List Event}
    (hmove : s.Move fault t t' s' events) : Works files root listed t' s' ∧ s'.pending = s.pending.tail := by
  obtain ⟨worked, hlisted, hdivides⟩ := h.divides
  cases hmove with
  | rests hscanning hpending => exact ⟨h, by rw [hpending]; rfl⟩
  | givesUp hscanning | lists hscanning => exact absurd hscanning h.begun.2
  | @keeps store rest hphase f =>
    have hpending : s.pending = store :: rest := by simp [pending, hphase]
    rw [hpending, List.append_cons] at hlisted
    rw [hpending]
    have hworks := works_goOn (s := { s with failed := s.failed ++ [store] }) hlisted (hdivides.fails store) h.cleared
    exact ⟨hworks, pending_goOn _ rest⟩
  | @drops store rest t' hphase hremove =>
    have hpending : s.pending = store :: rest := by simp [pending, hphase]
    rw [hpending, List.append_cons] at hlisted
    rw [hpending]
    have hcleared : ListsStores files root listed → Cleared files root (s.removed ++ [store]) t' := by
      intro hstores
      obtain ⟨name, hstore, rfl⟩ := (hstores store).mp (by simp [hlisted])
      have hname := hstore.isName htree
      obtain ⟨l, hleads, hbelow⟩ := hstore
      exact (h.cleared hstores).remove hps hspelled hname hleads hbelow hremove
    have hworks := works_goOn (s := { s with removed := s.removed ++ [store] }) hlisted (hdivides.removes store) hcleared
    exact ⟨hworks, pending_goOn _ rest⟩

/-- Steps work off as many stores as there are steps. -/
theorem Works.steps (fault? : String → Option FileFault) (n : Nat) (h : Works files root listed t s) :
    Works files root listed (Sweep.steps fault? n t s).1 (Sweep.steps fault? n t s).2.1
      ∧ (Sweep.steps fault? n t s).2.1.pending = s.pending.drop n := by
  induction n generalizing t s with
  | zero => exact ⟨h, rfl⟩
  | succ n ih =>
    simp only [Sweep.steps]
    obtain ⟨hnext, hpending⟩ := h.move hps hspelled htree (move_step _ t s)
    obtain ⟨hlast, hrest⟩ := ih hnext
    rw [hpending, List.drop_tail] at hrest
    exact ⟨hlast, hrest⟩

/-- A whole sweep of a root that can be listed works off all of the list. -/
theorem works_run (fault? : String → Option FileFault)
    (h : storesBelow files root = .ok listed) :
    Works files root listed (run fault? files root).1 (run fault? files root).2.1
      ∧ (run fault? files root).2.1.pending = [] := by
  have hnone : Divides [] [] [] := ⟨.refl [], .refl [], .refl []⟩
  have hbegun : Works files root listed files (({ root, phase := .scanning } : Sweep).goOn listed).1 :=
    works_goOn (List.nil_append listed).symm hnone fun _ => cleared_nil htree.closed
  obtain ⟨hworks, hpending⟩ := hbegun.steps hps hspelled htree fault? listed.length
  rw [pending_goOn, List.drop_length] at hpending
  simp only [run, start, h, Except.toOption, Option.getD_some, Sweep.steps, step, Option.elim]
  exact ⟨hworks, hpending⟩

end Works

/-- A whole sweep of a root that cannot be listed reports nothing and leaves the files alone. -/
theorem run_unlisted (fault? : String → Option FileFault) {f : FileFault} (h : storesBelow files root = .error f) :
    (run fault? files root).1 = files ∧ (run fault? files root).2.1 = { root, phase := .done } := by
  simp [run, start, steps, step, h, givesUp, Except.toOption]

/-- A whole sweep that finds nothing does the same. -/
theorem run_nothing (fault? : String → Option FileFault) (h : storesBelow files root = .ok []) :
    (run fault? files root).1 = files ∧ (run fault? files root).2.1 = { root, phase := .done } := by
  simp [run, start, steps, step, h, goOn, Except.toOption]

end Bailiff.Sweep
