-- SUMMARY: Which names a batch lists as its tasks, and when these are the task directories.
import Bailiff.Batch.Run
import Bailiff.Proofs.Files.Listing

/-!
# Tasks

A task directory is a directory below the root, or a link to one, whose name does not begin with a dot
(`Batch.IsTask`). What a batch takes is what a listing of the root keeps (`Batch.Lists`), in the order of units
(`Batch.listTasks_eq_ok`). These are the task directories as long as listings read the path of the root, and the
names below it, as they stand (`Batch.lists_iff_isTask`).
-/

namespace Bailiff

namespace Batch

variable {files : FileTree} {base : Location} {root task name : String} {tasks : List String}

/-- A task directory: a directory directly below the root, or a link to one, whose name does not begin with a
dot. -/
def IsTask (files : FileTree) (base : Location) (root task : String) : Prop :=
  ∃ l, files.LeadsTo (Path.resolve (Path.ofParts base) root) l ∧ task ∈ files.names l
    ∧ files.leadsToDirectory l task = true ∧ task.toList.head? ≠ some '.'

/-- A name is among the tasks of a root: it is shown, its key is that of a task, and no other name of this key comes
before it. -/
def Lists (files : FileTree) (base : Location) (root task : String) : Prop :=
  (files.Shows base root task ∧ isTaskName (Listing.key task) = true)
    ∧ ∀ other, files.Shows base root other → Listing.key other = Listing.key task →
      Text.points task ≤ Text.points other

/-- The tasks are those that are listed, each before the next in the order of 16-bit units. -/
theorem listTasks_eq_ok (hdistinct : files.Distinct) (h : listTasks files base root = .ok tasks) :
    (tasks.Pairwise fun a b => Text.units a < Text.units b) ∧ ∀ task, task ∈ tasks ↔ Lists files base root task := by
  unfold listTasks at h
  cases hnames : files.directoriesIn base root with
  | error fault =>
    rw [hnames] at h
    cases h
  | ok names =>
    rw [hnames] at h
    cases Except.ok.inj h
    obtain ⟨hsorted, hshown⟩ := FileTree.directoriesIn_eq_ok hdistinct hnames
    have hnodup : names.Nodup := hsorted.imp fun hlt => ne_of_apply_ne Text.points hlt.ne
    refine ⟨Text.sortByUnits_increasing (hnodup.sublist (Listing.matched_sublist _ _)), fun task => ?_⟩
    rw [(Text.sortByUnits_perm _).mem_iff, Listing.mem_matched_iff hsorted]
    simp only [hshown, Lists]

/-- Listings read the path of a root, and the names of the directories below it, as they stand: no backslash is in
the path, and no name begins with the end of a line, or with a dot and a backslash. -/
structure IsPlainRoot (files : FileTree) (base : Location) (root : String) : Prop where
  path : '\\' ∉ (Path.resolve (Path.ofParts base) root).toList
  names : ∀ l, files.LeadsTo (Path.resolve (Path.ofParts base) root) l →
    ∀ name ∈ files.names l, files.leadsToDirectory l name = true →
      (∀ c, name.toList.head? = some c → isLineEnd c = false) ∧ ¬['.', '\\'] <+: name.toList

theorem isTaskName_iff (hline : ∀ c, name.toList.head? = some c → isLineEnd c = false) :
    isTaskName name = true ↔ name.toList.head? ≠ some '.' := by
  unfold isTaskName
  cases hhead : name.toList.head? with
  | none => simp
  | some c => simp [hline c hhead]

theorem shows_iff (hplain : IsPlainRoot files base root) : files.Shows base root name
    ↔ ∃ l, files.LeadsTo (Path.resolve (Path.ofParts base) root) l ∧ name ∈ files.names l
      ∧ files.leadsToDirectory l name = true := by
  rw [FileTree.Shows, Listing.place_eq hplain.path]

/-- The tasks of a root that listings read as it stands are its task directories. -/
theorem lists_iff_isTask (hplain : IsPlainRoot files base root) :
    Lists files base root task ↔ IsTask files base root task := by
  have hname {name : String} (h : files.Shows base root name) : Listing.key name = name
      ∧ (isTaskName name = true ↔ name.toList.head? ≠ some '.') := by
    obtain ⟨l, hleads, hhere, hdir⟩ := (shows_iff hplain).mp h
    obtain ⟨hline, hdotted⟩ := hplain.names l hleads name hhere hdir
    exact ⟨Listing.key_of_not_dotted hdotted, isTaskName_iff hline⟩
  constructor
  · rintro ⟨⟨hshows, hmatches⟩, -⟩
    obtain ⟨hkey, hiff⟩ := hname hshows
    rw [hkey, hiff] at hmatches
    obtain ⟨l, hleads, hhere, hdir⟩ := (shows_iff hplain).mp hshows
    exact ⟨l, hleads, hhere, hdir, hmatches⟩
  · rintro ⟨l, hleads, hhere, hdir, hdot⟩
    have hshows : files.Shows base root task := (shows_iff hplain).mpr ⟨l, hleads, hhere, hdir⟩
    obtain ⟨hkey, hiff⟩ := hname hshows
    refine ⟨⟨hshows, by rw [hkey, hiff]; exact hdot⟩, fun other hother hsame => ?_⟩
    rw [hkey, (hname hother).1] at hsame
    rw [hsame]

end Batch

end Bailiff
