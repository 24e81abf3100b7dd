-- SUMMARY: What writing and making directories leaves in place, and what removing takes away.
import Bailiff.Proofs.Files.Tree

/-!
# Growth of file trees

Writing a file and making directories only add to a tree: what is there stays, and no file becomes a directory
or the other way round (`FileTree.Grows`). Removing takes away one location with what is below it and nothing
else (`FileTree.at?_remove`).
-/

namespace Bailiff.FileTree

variable {t t' : FileTree} {l m : Location} {n : Node}

/-! ## Growth -/

/-- No location is entered twice. -/
def Distinct (t : FileTree) : Prop := (t.entries.map (·.1)).Nodup

/-- What is there stays, and a directory stays one, as does what is not. -/
structure Grows (t t' : FileTree) : Prop where
  kept : ∀ m n, t.at? m = some n → ∃ n', t'.at? m = some n' ∧ (n' = .directory ↔ n = .directory)
  distinct : t.Distinct → t'.Distinct

theorem Grows.refl (t : FileTree) : Grows t t := ⟨fun _ n h => ⟨n, h, Iff.rfl⟩, id⟩

theorem Grows.trans {t'' : FileTree} (h : Grows t t') (h' : Grows t' t'') : Grows t t'' := by
  refine ⟨fun m n hn => ?_, fun hdistinct => h'.distinct (h.distinct hdistinct)⟩
  obtain ⟨n', hn', hiff⟩ := h.kept m n hn
  obtain ⟨n'', hn'', hiff'⟩ := h'.kept m n' hn'
  exact ⟨n'', hn'', hiff'.trans hiff⟩

theorem Grows.directory (h : Grows t t') (hm : t.at? m = some .directory) : t'.at? m = some .directory := by
  obtain ⟨n', hn', hiff⟩ := h.kept m _ hm
  rw [hn', hiff.mpr rfl]

theorem Distinct.put (h : t.Distinct) (l : Location) (n : Node) : (t.put l n).Distinct := by
  unfold FileTree.put Distinct at *
  split
  · have hsame : (t.entries.map fun e => if e.1 = l then (l, n) else e).map (·.1) = t.entries.map (·.1) := by
      rw [List.map_map]
      refine List.map_congr_left fun e _ => ?_
      simp only [Function.comp_apply]
      split
      next heq => exact heq.symm
      · rfl
    simpa only [hsame] using h
  next hnone =>
    simp only [List.any_eq_true, decide_eq_true_eq, not_exists, not_and] at hnone
    simp only [List.map_append, List.map_cons, List.map_nil]
    refine List.nodup_append.mpr ⟨h, by simp, ?_⟩
    rintro a ha b hb rfl
    obtain ⟨e, he, rfl⟩ := List.mem_map.mp ha
    exact hnone e he (List.mem_singleton.mp hb)

/-- An entry may be put where there is none, or in the place of one that is a directory just if it is. -/
theorem grows_put (hl : l ≠ []) (h : ∀ n', t.at? l = some n' → (n = .directory ↔ n' = .directory)) :
    Grows t (t.put l n) := by
  refine ⟨fun m n' hn' => ?_, fun hdistinct => hdistinct.put l n⟩
  rw [at?_put hl]
  by_cases hm : m = l
  · subst hm
    exact ⟨n, if_pos rfl, h n' hn'⟩
  · exact ⟨n', by rw [if_neg hm, hn'], Iff.rfl⟩

theorem grows_put_new (hl : l ≠ []) (hnone : t.at? l = none) (n : Node) : Grows t (t.put l n) :=
  grows_put hl fun n' hn' => by rw [hnone] at hn'; cases hn'

theorem ne_nil_of_at?_eq_none (h : t.at? l = none) : l ≠ [] := by
  rintro rfl
  cases h

/-! ## Operations -/

theorem makeWay_grows (here : Location) (parts : List String) (h : t.makeWay here parts = .ok t') :
    Grows t t' := by
  fun_induction makeWay t here parts
  case case1 =>
    cases h
    exact .refl _
  case case4 hnone ih => exact (grows_put_new (by simp +zetaDelta) hnone .directory).trans (ih h)
  case case2 ih | case3 ih | case5 ih | case6 ih => exact ih h
  all_goals cases h

theorem makeDirectories_grows {base : Location} {path : String}
    (h : t.makeDirectories base path = .ok t') : Grows t t' := by
  unfold makeDirectories at h
  cases hway : t.makeWay (if Path.isAbsolute path then [] else base) (Path.parts path) with
  | error e =>
    rw [hway] at h
    cases h
  | ok t₁ =>
    rw [hway] at h
    cases h
    exact makeWay_grows _ _ hway

theorem makeTemporary_grows {base : Location} {stem path : String} {number : Nat}
    (h : t.makeTemporary base stem number = .ok (t', path)) : Grows t t' := by
  unfold makeTemporary at h
  dsimp only at h
  split at h
  · cases h
  next l hl =>
    split at h
    · cases h
    next hnew =>
      have hnone : t.at? l = none := by simpa using hnew
      cases h
      exact grows_put_new (ne_nil_of_at?_eq_none hnone) hnone .directory

/-- A file that has been opened is not a directory. -/
theorem openFile_grows {base : Location} {path : String} (h : t.openFile base path = .ok (t', l)) :
    Grows t t' ∧ t'.at? l ≠ some .directory ∧ l ≠ [] := by
  unfold openFile at h
  dsimp only at h
  split at h
  · cases h
  next l' hl =>
    split at h
    · cases h
    next node hnode hat =>
      split at h
      · cases h
      · cases h
        refine ⟨.refl t, fun hdir => ?_, ?_⟩
        · rw [hat, Option.some.injEq] at hdir
          exact hnode hdir
        · rintro rfl
          exact hnode (Option.some.inj hat).symm
    next hnone =>
      split at h
      · cases h
      · cases h
        have hne := ne_nil_of_at?_eq_none hnone
        exact ⟨grows_put_new hne hnone _, by simp [at?_put hne], hne⟩

theorem write_grows {change : String → String} (hl : l ≠ []) (hdir : t.at? l ≠ some .directory)
    (h : t.write l change = .ok t') : Grows t t' := by
  have hput : ∀ content, Grows t (t.put l (.file content)) := by
    intro content
    refine grows_put hl fun n' hn' => ?_
    constructor
    · intro hfile
      cases hfile
    · rintro rfl
      exact absurd hn' hdir
  unfold write at h
  split at h
  · cases h
  · cases h
    exact .refl _
  · cases h
    exact hput _
  · cases h
    exact hput _

theorem writeText_grows (base : Location) (path content : String) :
    Grows t (t.writeText base path content).1 := by
  unfold writeText
  cases hmade : t.makeDirectories base (Path.directory path) with
  | error e => exact .refl _
  | ok t₁ =>
    have hgrows := makeDirectories_grows hmade
    dsimp only
    cases hopen : t₁.openFile base path with
    | error e => exact hgrows
    | ok opened =>
      obtain ⟨t₂, l⟩ := opened
      dsimp only
      obtain ⟨hopened, hdir, hne⟩ := openFile_grows hopen
      cases hwritten : t₂.write l fun _ => content with
      | error e => exact hgrows.trans hopened
      | ok t₃ => exact (hgrows.trans hopened).trans (write_grows hne hdir hwritten)

/-! ## Removing -/

/-- Removing takes away a location and what is below it. -/
theorem at?_remove (hl : l ≠ []) : (t.remove l).at? m = if l.isPrefixOf m then none else t.at? m := by
  by_cases hm : m = []
  · subst hm
    have hprefix : l.isPrefixOf [] = false := by
      cases l with
      | nil => exact absurd rfl hl
      | cons => rfl
    simp [at?, hprefix]
  rw [at?_of_ne_nil hm, at?_of_ne_nil hm, remove, List.find?_filter]
  by_cases hprefix : l.isPrefixOf m = true
  · rw [if_pos hprefix, Option.map_eq_none_iff, List.find?_eq_none]
    rintro e - he
    simp only [decide_eq_true_eq] at he
    rw [he.2, hprefix] at he
    exact absurd he.1 (by decide)
  · rw [if_neg hprefix]
    congr 2
    funext e
    by_cases he : e.1 = m
    · simp [he, hprefix]
    · simp [he]

theorem Distinct.remove (h : t.Distinct) (l : Location) : (t.remove l).Distinct :=
  (List.filter_sublist.map _).nodup h

end Bailiff.FileTree
