-- SUMMARY: What a listing of a path shows: the place it walks, the names it comes upon there, and which of them it keeps.
import Bailiff.Files.Listing
import Bailiff.Proofs.Files.Ways
import Bailiff.Proofs.Text.Order

/-!
# Listings

A listing shows the directories below the place that it walks (`FileTree.Shows`), each once and in the order of
their characters (`FileTree.directoriesIn_eq_ok`). That place is the one that the path names as long as no backslash
is in the way (`Listing.place_eq`). Of the names that match, those are kept that no other of the same key comes
before (`Listing.mem_matched_iff`). A key belongs to two names at most (`Listing.eq_of_key`), and a name that does
not begin with a dot and a backslash is its own key (`Listing.key_of_not_dotted`).
-/

namespace Bailiff

namespace Path

theorem mem_iff_splitSlashes {c : Char} (hc : c ≠ '/') (cs : List Char) :
    c ∈ cs ↔ ∃ part ∈ splitSlashes cs, c ∈ part := by
  fun_induction splitSlashes cs
  case case1 => simp
  case case2 ih => simp [hc, ih]
  case case3 hrest ih =>
    simp only [hrest, List.not_mem_nil, false_and, exists_false, iff_false] at ih
    simp [ih]
  case case4 hrest ih =>
    rw [hrest] at ih
    simp only [List.mem_cons, ih, exists_eq_or_imp, or_assoc]

/-- A character other than a slash is in a path of names just when it is in one of them. -/
theorem mem_ofParts_iff {c : Char} (hc : c ≠ '/') {ps : List String} (h : ∀ part ∈ ps, IsName part) :
    c ∈ (ofParts ps).toList ↔ ∃ part ∈ ps, c ∈ part.toList := by
  by_cases hps : ps = []
  · subst hps
    simp [toList_ofParts, hc]
  have hslashless : ∀ part ∈ ps.map String.toList, '/' ∉ part := by
    intro part hpart
    obtain ⟨name, hname, rfl⟩ := List.mem_map.mp hpart
    exact (h name hname).slashless
  rw [toList_ofParts, List.mem_cons, or_iff_right hc, mem_iff_splitSlashes hc,
    splitSlashes_intercalate (by simpa using hps) hslashless]
  constructor
  · rintro ⟨part, hpart, hmem⟩
    obtain ⟨name, hname, rfl⟩ := List.mem_map.mp hpart
    exact ⟨name, hname, hmem⟩
  · rintro ⟨name, hname, hmem⟩
    exact ⟨name.toList, List.mem_map_of_mem hname, hmem⟩

/-! ## Slashes for backslashes -/

theorem not_mem_slashed (p : String) : '\\' ∉ (slashed p).toList := by
  rw [slashed, String.toList_ofList, List.mem_map]
  rintro ⟨c, -, hc⟩
  split at hc
  · cases hc
  next hplain => exact hplain hc

theorem slashed_eq {p : String} (h : '\\' ∉ p.toList) : slashed p = p := by
  have hsame : ∀ c ∈ p.toList, (if c = '\\' then '/' else c) = c := by
    intro c hc
    refine if_neg ?_
    rintro rfl
    exact h hc
  rw [slashed, List.map_congr_left hsame]
  simp

/-- A path that has slashes for its backslashes tells the text it is from, if no slash was in that text. -/
theorem slashed_injective {p q : String} (hp : '/' ∉ p.toList) (hq : '/' ∉ q.toList) (h : slashed p = slashed q) :
    p = q := by
  have hback (text : String) (htext : '/' ∉ text.toList) :
      ((slashed text).toList.map fun c => if c = '/' then '\\' else c) = text.toList := by
    rw [slashed, String.toList_ofList, List.map_map]
    refine (List.map_congr_left fun c hc => ?_).trans (List.map_id _)
    by_cases hbackslash : c = '\\'
    · subst hbackslash
      rfl
    · have hslash : c ≠ '/' := by
        rintro rfl
        exact htext hc
      simp [hbackslash, hslash]
  rw [← String.toList_inj, ← hback p hp, h, hback q hq]

end Path

/-! ## Keys -/

namespace Listing

variable {name k : String} {names : List String} {wanted : String → Bool}

/-- A name without a dot and a backslash before it is its own key. -/
theorem key_of_not_dotted (h : ¬['.', '\\'] <+: name.toList) : key name = name := by
  unfold key
  split
  next rest heq => exact absurd ⟨rest, heq.symm⟩ h
  · rfl

theorem key_of_plain (h : '\\' ∉ name.toList) : key name = name :=
  key_of_not_dotted fun hdotted => h (hdotted.subset (by simp))

theorem key_dotted (k : String) : key (".\\" ++ k) = k := by
  have hdotted : (".\\" ++ k).toList = '.' :: '\\' :: k.toList := by
    rw [String.toList_append]
    rfl
  simp [key, hdotted]

/-- A key is that of itself or of one other name, with a dot and a backslash before it. -/
theorem eq_of_key (h : key name = k) : name = k ∨ name = ".\\" ++ k := by
  unfold key at h
  split at h
  next rest heq =>
    subst h
    right
    rw [← String.toList_inj, heq]
    simp
  · exact .inl h

/-! ## Names that are kept -/

theorem firsts_sublist (names : List String) : (firsts names).Sublist names := by
  induction names with
  | nil => exact .slnil
  | cons name rest ih => exact (List.filter_sublist.trans ih).cons_cons name

/-- In a list in order the first of a key is the one that no other of this key is below. -/
theorem mem_firsts_iff (h : names.Pairwise fun a b => Text.points a < Text.points b) :
    name ∈ firsts names ↔ name ∈ names
      ∧ ∀ other ∈ names, key other = key name → Text.points name ≤ Text.points other := by
  induction names with
  | nil => simp [firsts]
  | cons first rest ih =>
    obtain ⟨hfirst, hrest⟩ := List.pairwise_cons.mp h
    rw [firsts, List.mem_cons, List.mem_cons, List.mem_filter, ih hrest, List.forall_mem_cons]
    by_cases hname : name = first
    · subst hname
      simp only [true_or, true_and, true_iff]
      exact ⟨fun _ => le_rfl, fun other hother _ => (hfirst other hother).le⟩
    · simp only [hname, false_or, ne_eq, decide_not, Bool.not_eq_true', decide_eq_false_iff_not]
      constructor
      · rintro ⟨⟨hmem, hleast⟩, hkey⟩
        exact ⟨hmem, fun hsame => absurd hsame.symm hkey, hleast⟩
      · rintro ⟨hmem, hother, hleast⟩
        exact ⟨⟨hmem, hleast⟩, fun hsame => absurd (hother hsame.symm) (not_le.mpr (hfirst name hmem))⟩

theorem matched_sublist (wanted : String → Bool) (names : List String) : (matched wanted names).Sublist names :=
  (firsts_sublist _).trans List.filter_sublist

/-- Of the names whose keys match, those are kept that no other of the same key is below. -/
theorem mem_matched_iff (h : names.Pairwise fun a b => Text.points a < Text.points b) :
    name ∈ matched wanted names ↔ (name ∈ names ∧ wanted (key name) = true)
      ∧ ∀ other ∈ names, key other = key name → Text.points name ≤ Text.points other := by
  rw [matched, mem_firsts_iff (h.filter _), List.mem_filter]
  refine and_congr_right fun ⟨_, hwanted⟩ => forall_congr' fun other => ?_
  rw [List.mem_filter]
  constructor
  · intro hleast hother hkey
    exact hleast ⟨hother, by rw [hkey, hwanted]⟩ hkey
  · intro hleast hother hkey
    exact hleast hother.1 hkey

/-! ## Places -/

theorem place_eq {base : Location} {path : String}
    (h : '\\' ∉ (Path.resolve (Path.ofParts base) path).toList) :
    place base path = Path.resolve (Path.ofParts base) path := Path.slashed_eq h

end Listing

/-! ## What is shown -/

namespace FileTree

variable {t : FileTree} {base l : Location} {path name : String} {shown : List String}

theorem names_eq (t : FileTree) (l : Location) :
    t.names l = (t.entries.map (·.1)).filterMap fun m => if m.dropLast = l then m.getLast? else none := by
  rw [List.filterMap_map]
  rfl

theorem getLast?_eq_some_of_below {m : Location}
    (h : name ∈ (if m.dropLast = l then m.getLast? else none)) : m = l ++ [name] := by
  split at h
  next hdrop =>
    obtain ⟨above, rfl⟩ := List.getLast?_eq_some_iff.mp h
    rw [List.dropLast_concat] at hdrop
    rw [hdrop]
  · cases h

/-- The names below a location are those that have an entry there. -/
theorem mem_names_iff : name ∈ t.names l ↔ t.at? (l ++ [name]) ≠ none := by
  rw [names_eq, at?_of_ne_nil (by simp), List.mem_filterMap, ← Option.isSome_iff_ne_none, Option.isSome_map,
    List.find?_isSome]
  constructor
  · rintro ⟨m, hm, hname⟩
    obtain ⟨e, he, rfl⟩ := List.mem_map.mp hm
    exact ⟨e, he, decide_eq_true (getLast?_eq_some_of_below hname)⟩
  · rintro ⟨e, he, hat⟩
    exact ⟨e.1, List.mem_map_of_mem he, by simp [of_decide_eq_true hat]⟩

theorem Distinct.names (h : t.Distinct) (l : Location) : (t.names l).Nodup := by
  rw [names_eq]
  refine List.Pairwise.filterMap _ ?_ h
  rintro m m' hne name hm name' hm' rfl
  exact hne ((getLast?_eq_some_of_below hm).trans (getLast?_eq_some_of_below hm').symm)

theorem mem_names_of_leadsToDirectory (hname : Path.IsName name) (h : t.leadsToDirectory l name = true) :
    name ∈ t.names l := by
  rw [mem_names_iff]
  intro hnone
  rw [leadsToDirectory, walk_last (by simp [hname.nonempty, hname.notHere]) hname.notUp (by simp [hnone])] at h
  simp [hnone] at h

/-- A listing of a path shows a name: it is that of a directory, or of a link to one, in the directory that is at the
place walked. -/
def Shows (t : FileTree) (base : Location) (path name : String) : Prop :=
  ∃ l, t.LeadsTo (Listing.place base path) l ∧ name ∈ t.names l ∧ t.leadsToDirectory l name = true

/-- A directory can be listed. -/
theorem directoriesIn_of_leadsTo (h : t.LeadsTo (Listing.place base path) l) :
    t.directoriesIn base path = .ok (((t.names l).mergeSort Text.pointsLE).filter (t.leadsToDirectory l)) := by
  simp only [directoriesIn, h.located, h.directory]

/-- A place that is not there has no directories. -/
theorem directoriesIn_of_missing (h : t.locate [] (Listing.place base path) = .error .noEntry) :
    t.directoriesIn base path = .ok [] := by
  simp only [directoriesIn, h]

/-- What is walked for a path with a backslash need not be there, though the path leads to a directory. -/
theorem directoriesIn_backslash (h : t.at? ["x"] = none) : t.directoriesIn [] "/x\\y" = .ok [] := by
  have hplace : Listing.place [] "/x\\y" = "/x/y" := by decide +kernel
  have hparts : Path.parts "/x/y" = ["", "x", "y"] := by decide +kernel
  apply directoriesIn_of_missing
  rw [hplace, locate, if_neg (by decide), if_pos (by decide), hparts, walk_empty, walk]
  simp [h]

/-- A listing shows every directory once, in the order of the characters of their names. -/
theorem directoriesIn_eq_ok (hdistinct : t.Distinct) (h : t.directoriesIn base path = .ok shown) :
    (shown.Pairwise fun a b => Text.points a < Text.points b) ∧ ∀ name, name ∈ shown ↔ t.Shows base path name := by
  by_cases hleads : ∃ l, t.LeadsTo (Listing.place base path) l
  · obtain ⟨l, hleads⟩ := hleads
    cases Except.ok.inj ((directoriesIn_of_leadsTo hleads).symm.trans h)
    refine ⟨(Text.mergeSort_increasing ((hdistinct.names l).map Text.points_injective)).filter _, fun name => ?_⟩
    rw [List.mem_filter, (List.mergeSort_perm _ _).mem_iff]
    constructor
    · rintro ⟨hname, hdir⟩
      exact ⟨l, hleads, hname, hdir⟩
    · rintro ⟨m, hleads', hname, hdir⟩
      cases Except.ok.inj (hleads'.located.symm.trans hleads.located)
      exact ⟨hname, hdir⟩
  · have hnone : shown = [] := by
      unfold directoriesIn at h
      dsimp only at h
      split at h
      · cases h
        rfl
      · cases h
      next l hlocated =>
        split at h
        · cases h
          rfl
        next hdirectory => exact absurd ⟨l, hlocated, hdirectory⟩ hleads
        · cases h
    subst hnone
    exact ⟨.nil, fun name => ⟨nofun, fun ⟨l, hl, _⟩ => absurd ⟨l, hl⟩ hleads⟩⟩

end FileTree

end Bailiff
