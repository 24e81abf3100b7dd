-- SUMMARY: What changes a file tree leaves alone: putting an entry, making directories, and the way of paths.
import Bailiff.Files.Tree

/-!
# File trees

Putting an entry changes one location, and making directories only fills empty ones. A path that
leads somewhere keeps leading there as long as directories and links stay and no link is added
(`FileTree.locate_of_keepsWays`).
-/

namespace Bailiff.FileTree

variable {t t' : FileTree} {l m : Location} {n : Node}

/-! ## One entry -/

theorem at?_of_ne_nil (hl : l ≠ []) :
    t.at? l = (t.entries.find? fun e => e.1 = l).map (·.2) := by
  simp [at?, hl]

private theorem find?_map_put (entries : List (Location × Node)) :
    (entries.map fun e => if e.1 = l then (l, n) else e).find? (fun e => e.1 = m)
      = if m = l then (entries.find? fun e => e.1 = l).map fun _ => (l, n)
        else entries.find? fun e => e.1 = m := by
  induction entries with
  | nil => simp
  | cons e entries ih => grind

/-- After an entry is put, it is the one at its location, and all others are as before. -/
theorem at?_put (hl : l ≠ []) : (t.put l n).at? m = if m = l then some n else t.at? m := by
  by_cases hm : m = []
  · subst hm
    simp [at?, Ne.symm hl]
  rw [at?_of_ne_nil hm, at?_of_ne_nil hm]
  unfold put
  split
  next hany =>
    rw [find?_map_put]
    obtain ⟨e, he⟩ : ∃ e, t.entries.find? (fun e => decide (e.1 = l)) = some e := by
      rw [← Option.isSome_iff_exists, List.find?_isSome]
      simpa using hany
    by_cases h : m = l <;> simp [h, he]
  next hany =>
    have hnone : t.entries.find? (fun e => decide (e.1 = l)) = none := by
      simp only [List.any_eq_true, not_exists, not_and] at hany
      exact List.find?_eq_none.mpr hany
    rw [List.find?_append]
    by_cases h : m = l
    · simp [h, hnone]
    · simp [h, Ne.symm h]

/-- To put an entry once more changes nothing. -/
theorem put_put (t : FileTree) (l : Location) (n : Node) : (t.put l n).put l n = t.put l n := by
  have hmap (entries : List (Location × Node)) :
      (entries.map fun e => if e.1 = l then (l, n) else e).map (fun e => if e.1 = l then (l, n) else e)
        = entries.map fun e => if e.1 = l then (l, n) else e := by
    rw [List.map_map]
    refine List.map_congr_left fun e _ => ?_
    by_cases he : e.1 = l <;> simp [he]
  by_cases hany : t.entries.any (fun e => e.1 = l) = true
  · have hput : t.put l n = ⟨t.entries.map fun e => if e.1 = l then (l, n) else e⟩ := by rw [put, if_pos hany]
    obtain ⟨e, he, hel⟩ := List.any_eq_true.mp hany
    rw [hput, put, if_pos, hmap]
    exact List.any_eq_true.mpr ⟨(l, n), List.mem_map.mpr ⟨e, he, if_pos (of_decide_eq_true hel)⟩, decide_eq_true rfl⟩
  · have hput : t.put l n = ⟨t.entries ++ [(l, n)]⟩ := by rw [put, if_neg hany]
    have hsame : t.entries.map (fun e => if e.1 = l then (l, n) else e) = t.entries := by
      refine (List.map_congr_left fun e he => ?_).trans (List.map_id _)
      exact if_neg fun hel => hany (List.any_eq_true.mpr ⟨e, he, decide_eq_true hel⟩)
    rw [hput, put, if_pos (by simp), List.map_append, hsame]
    simp

/-! ## Directories -/

/-- The tree is the same except that empty locations may have become directories. -/
def GainsDirectories (t t' : FileTree) : Prop :=
  ∀ m, t'.at? m = t.at? m ∨ (t.at? m = none ∧ t'.at? m = some .directory)

theorem GainsDirectories.refl (t : FileTree) : GainsDirectories t t := fun _ => .inl rfl

theorem GainsDirectories.trans {t'' : FileTree} (h : GainsDirectories t t')
    (h' : GainsDirectories t' t'') : GainsDirectories t t'' := by
  intro m
  rcases h m with h | ⟨hnone, hdir⟩ <;> rcases h' m with h' | ⟨hnone', hdir'⟩ <;> simp_all

theorem gainsDirectories_put (hl : l ≠ []) (hnone : t.at? l = none) :
    GainsDirectories t (t.put l .directory) := by
  intro m
  rw [at?_put hl]
  by_cases h : m = l
  · exact .inr ⟨h ▸ hnone, by simp [h]⟩
  · exact .inl (by simp [h])

theorem makeWay_gainsDirectories (here : Location) (parts : List String)
    (h : t.makeWay here parts = .ok t') : GainsDirectories t t' := by
  fun_induction makeWay t here parts
  case case1 => cases h; exact .refl _
  case case4 hnone ih => exact (gainsDirectories_put (by simp +zetaDelta) hnone).trans (ih h)
  case case2 ih | case3 ih | case5 ih | case6 ih => exact ih h
  all_goals cases h

theorem makeDirectories_gainsDirectories {base : Location} {path : String}
    (h : t.makeDirectories base path = .ok t') : GainsDirectories t t' := by
  unfold makeDirectories at h
  cases hway : t.makeWay (if Path.isAbsolute path then [] else base) (Path.parts path) with
  | error e =>
    rw [hway] at h
    cases h
  | ok t₁ =>
    rw [hway] at h
    cases h
    exact makeWay_gainsDirectories _ _ hway

/-! ## Paths -/

/-- The ways of the tree stay: its directories and links are kept, and no link is added. -/
structure KeepsWays (t t' : FileTree) : Prop where
  directory : ∀ m, t.at? m = some .directory → t'.at? m = some .directory
  link : ∀ m target, t'.at? m = some (.link target) ↔ t.at? m = some (.link target)

theorem KeepsWays.refl (t : FileTree) : KeepsWays t t := ⟨fun _ h => h, fun _ _ => Iff.rfl⟩

theorem KeepsWays.trans {t'' : FileTree} (h : KeepsWays t t') (h' : KeepsWays t' t'') :
    KeepsWays t t'' :=
  ⟨fun m hm => h'.directory m (h.directory m hm),
    fun m target => (h'.link m target).trans (h.link m target)⟩

theorem GainsDirectories.keepsWays (h : GainsDirectories t t') : KeepsWays t t' := by
  constructor
  · intro m hm
    rcases h m with heq | ⟨hnone, -⟩
    · rw [heq, hm]
    · simp [hm] at hnone
  · intro m target
    rcases h m with heq | ⟨hnone, hdir⟩
    · rw [heq]
    · simp [hnone, hdir]

/-- An entry that is neither a directory nor a link may be replaced by another such entry. -/
theorem keepsWays_put (hl : l ≠ []) (hdir : t.at? l ≠ some .directory)
    (hold : ∀ target, t.at? l ≠ some (.link target)) (hnew : ∀ target, n ≠ .link target) :
    KeepsWays t (t.put l n) := by
  constructor
  · intro m hm
    have hne : m ≠ l := by
      rintro rfl
      exact hdir hm
    simpa [at?_put hl, hne] using hm
  · intro m target
    by_cases h : m = l
    · subst h
      simp [at?_put hl, hnew, hold]
    · simp [at?_put hl, h]

/-- A last part without a link leads to the location it names. -/
theorem walk_last {follow : Bool} {links : Nat} {here : Location} {part : String}
    (hskip : ¬(part = "" ∨ part = ".")) (hup : part ≠ "..")
    (hlink : ∀ target, t.at? (here ++ [part]) ≠ some (.link target)) :
    t.walk follow links here [part] = .ok (here ++ [part]) := by
  rw [walk, if_neg hskip, if_neg hup]
  dsimp only
  split
  next target hchild => exact absurd hchild (hlink target)
  next => rw [walk]
  all_goals rfl

theorem walk_of_keepsWays (h : KeepsWays t t') {follow : Bool} {links : Nat} {here : Location}
    {parts : List String} (hw : t.walk follow links here parts = .ok l) :
    t'.walk follow links here parts = .ok l := by
  fun_induction walk t follow links here parts
  case case1 => rwa [walk]
  case case2 hskip ih => rw [walk, if_pos hskip, ih hw]
  case case3 hskip ih => rw [walk, if_neg hskip, if_pos rfl, ih hw]
  case case4 here part rest hskip hup _ target hchild hlast =>
    have hnew : t'.at? (here ++ [part]) = some (.link target) := (h.link _ _).mpr hchild
    rw [walk, if_neg hskip, if_neg hup]
    simp only [hnew, hlast]
    exact hw
  case case6 here part rest hskip hup _ target hchild hlast links ih =>
    have hnew : t'.at? (here ++ [part]) = some (.link target) := (h.link _ _).mpr hchild
    rw [walk, if_neg hskip, if_neg hup]
    simp only [hnew, hlast]
    exact ih hw
  case case7 here part rest hskip hup _ hchild ih =>
    have hnew : t'.at? (here ++ [part]) = some .directory := h.directory _ hchild
    rw [walk, if_neg hskip, if_neg hup]
    simp only [hnew]
    exact ih hw
  case case8 hskip hup _ node hlink _ hchild hlast =>
    rw [List.isEmpty_iff.mp hlast, walk_last hskip hup fun target hnew => ?_, hw]
    rw [h.link, hchild, Option.some.injEq] at hnew
    exact hlink target hnew
  case case10 hskip hup _ hchild hlast =>
    rw [List.isEmpty_iff.mp hlast, walk_last hskip hup fun target hnew => ?_, hw]
    rw [h.link, hchild] at hnew
    cases hnew
  all_goals cases hw

/-- A path that leads somewhere keeps leading there. -/
theorem locate_of_keepsWays (h : KeepsWays t t') {base : Location} {path : String}
    (hl : t.locate base path = .ok l) : t'.locate base path = .ok l := by
  unfold locate at hl ⊢
  split at hl
  · cases hl
  next hpath =>
    rw [if_neg hpath]
    exact walk_of_keepsWays h hl

/-- Once directories have been made, they need not be made again. -/
theorem makeWay_of_keepsWays {t'' : FileTree} {here : Location} {parts : List String}
    (h : t.makeWay here parts = .ok t') (h' : KeepsWays t' t'') : t''.makeWay here parts = .ok t'' := by
  fun_induction makeWay t here parts
  case case1 => rw [makeWay]
  case case2 hskip ih => rw [makeWay, if_pos hskip, ih h]
  case case3 hskip ih => rw [makeWay, if_neg hskip, if_pos rfl, ih h]
  case case4 t here part rest hskip hup _ hnone ih =>
    have hmade : (t.put (here ++ [part]) .directory).at? (here ++ [part]) = some .directory := by
      rw [at?_put (by simp), if_pos rfl]
    have hdir := h'.directory _ ((makeWay_gainsDirectories _ _ h).keepsWays.directory _ hmade)
    rw [makeWay, if_neg hskip, if_neg hup]
    simp only [hdir]
    exact ih h
  case case5 t here part rest hskip hup _ hchild ih =>
    have hdir : t''.at? (here ++ [part]) = some .directory :=
      h'.directory _ ((makeWay_gainsDirectories _ _ h).keepsWays.directory _ hchild)
    rw [makeWay, if_neg hskip, if_neg hup]
    simp only [hdir]
    exact ih h
  case case6 t here part rest hskip hup _ target hchild l hway hl ih =>
    have hways := (makeWay_gainsDirectories _ _ h).keepsWays.trans h'
    have hlink : t''.at? (here ++ [part]) = some (.link target) := (hways.link _ _).mpr hchild
    rw [makeWay, if_neg hskip, if_neg hup]
    simp only [hlink, walk_of_keepsWays hways hway, hways.directory _ hl, if_true]
    exact ih h
  all_goals cases h

theorem makeDirectories_of_keepsWays {t'' : FileTree} {base : Location} {path : String}
    (h : t.makeDirectories base path = .ok t') (h' : KeepsWays t' t'') : t''.makeDirectories base path = .ok t'' := by
  unfold makeDirectories at h ⊢
  cases hway : t.makeWay (if Path.isAbsolute path then [] else base) (Path.parts path) with
  | error e =>
    rw [hway] at h
    cases h
  | ok t₁ =>
    rw [hway] at h
    cases h
    rw [makeWay_of_keepsWays hway h']
    rfl

/-- A path to a name directly below the root leads there, unless a link is there. -/
theorem locate_top {path name : String} (habsolute : Path.isAbsolute path = true) (hpath : path.isEmpty = false)
    (hparts : Path.parts path = ["", name]) (hskip : ¬(name = "" ∨ name = ".")) (hup : name ≠ "..")
    (hlink : ∀ target, t.at? [name] ≠ some (.link target)) : t.locate [] path = .ok [name] := by
  simp only [locate, hpath, habsolute, hparts, Bool.false_eq_true, if_false, if_true]
  rw [walk, if_pos (.inl rfl)]
  exact walk_last hskip hup hlink

end Bailiff.FileTree
