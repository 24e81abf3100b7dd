-- SUMMARY: What a path reads and where it leads after files have been written and directories made.
import Bailiff.Proofs.Files.Writing

/-!
# Reading back

A text that has been written is read under its path (`FileTree.read?_writeText`), unless its place takes whatever is
written and keeps nothing; a text that could not be written leaves what was read there before
(`FileTree.read?_writeText_error`). Directories that have been made are found under their paths
(`FileTree.hasDirectory_makeDirectories`). All of this lasts while directories are added.
-/

namespace Bailiff.FileTree

variable {t t' : FileTree} {base l m d : Location} {path text content : String} {ps : List String}

/-! ## Texts -/

theorem read?_eq_some :
    t.read? base path = some text ↔ ∃ l, t.locate base path = .ok l ∧ t.at? l = some (.file text) := by
  unfold read? find?
  cases t.locate base path with
  | error code => simp
  | ok l =>
    simp only [Except.ok.injEq, exists_eq_left']
    cases hat : t.at? l with
    | none => simp
    | some node => cases node <;> simp

/-- Directories that are added leave what is read. -/
theorem GainsDirectories.read? (h : GainsDirectories t t') (hread : t.read? base path = some text) :
    t'.read? base path = some text := by
  obtain ⟨l, hlocated, hfile⟩ := read?_eq_some.mp hread
  refine read?_eq_some.mpr ⟨l, locate_of_keepsWays h.keepsWays hlocated, ?_⟩
  rcases h l with hsame | ⟨hnone, -⟩
  · rw [hsame, hfile]
  · rw [hnone] at hfile
    cases hfile

/-- The place of a path does not just swallow what is written to it. -/
def Retains (t : FileTree) (path : String) : Prop := ∀ d, t.WritesTo path d → t.at? d ≠ some (.device .null)

/-- What is written to an open file is its content from then on. -/
theorem at?_write (hd : d ≠ []) (hdevice : t.at? d ≠ some (.device .null))
    (hwrite : t.write d (fun _ => content) = .ok t') : t'.at? d = some (.file content) := by
  unfold FileTree.write at hwrite
  split at hwrite
  · cases hwrite
  next hnull => exact absurd hnull hdevice
  all_goals
    cases hwrite
    exact at?_put_self hd

/-- Opening a file leaves what is at its place, or makes an empty file there. -/
theorem at?_openFile (hopen : t.openFile base path = .ok (t', d)) :
    t'.at? d = t.at? d ∨ t'.at? d = some (.file "") := by
  unfold openFile at hopen
  dsimp only at hopen
  split at hopen
  · cases hopen
  · split at hopen
    · cases hopen
    · split at hopen
      · cases hopen
      · cases hopen
        exact .inl rfl
    next hnone =>
      split at hopen
      · cases hopen
      · cases hopen
        exact .inr (at?_put_self (ne_nil_of_at?_eq_none hnone))

theorem read?_writeText (h : t.Closed) (hps : ∀ part ∈ ps, Path.IsName part) (hretains : t.Retains (Path.ofParts ps))
    (hwrite : t.writeText [] (Path.ofParts ps) content = (t', .ok ())) :
    t'.read? [] (Path.ofParts ps) = some content := by
  unfold writeText at hwrite
  cases hmade : t.makeDirectories [] (Path.directory (Path.ofParts ps)) with
  | error fault =>
    rw [hmade] at hwrite
    cases hwrite
  | ok t₁ =>
    obtain ⟨hclosed, -, -⟩ := makeDirectories_above h hps hmade
    simp only [hmade] at hwrite
    split at hwrite
    · cases hwrite
    next t₂ d hopen =>
      have hopens := openFile_opens hclosed hopen
      split at hwrite
      · cases hwrite
      next t₃ hput =>
        cases hwrite
        have hfills := hopens.write hput
        refine read?_eq_some.mpr ⟨d, locate_of_keepsWays hfills.ways hopens.located, ?_⟩
        refine at?_write hopens.nonempty (fun hnull => ?_) hput
        rcases at?_openFile hopen with hsame | hnew
        · rcases makeDirectories_gainsDirectories hmade d with hold | ⟨-, hdir⟩
          · exact hretains d ⟨t₁, hmade, way_of_locate hopens.located⟩ (hold ▸ hsame ▸ hnull)
          · rw [hsame, hdir] at hnull
            cases hnull
        · rw [hnew] at hnull
          cases hnull

/-- A text that cannot be written leaves what is read. -/
theorem read?_writeText_error {fault : FileFault} (hread : t.read? [] path = some text)
    (hwrite : t.writeText [] path content = (t', .error fault)) : t'.read? [] path = some text := by
  unfold writeText at hwrite
  cases hmade : t.makeDirectories [] (Path.directory path) with
  | error fault =>
    rw [hmade] at hwrite
    cases hwrite
    exact hread
  | ok t₁ =>
    have hread₁ := (makeDirectories_gainsDirectories hmade).read? hread
    obtain ⟨l, hlocated, hfile⟩ := read?_eq_some.mp hread₁
    simp only [hmade, openFile, hlocated, hfile] at hwrite
    split at hwrite
    next heq =>
      cases hwrite
      exact hread₁
    next t₂ d hopen =>
      have hsame : t₁ = t₂ ∧ l = d := by
        split at hopen
        · cases hopen
        · cases hopen
          exact ⟨rfl, rfl⟩
      obtain ⟨rfl, rfl⟩ := hsame
      simp [FileTree.write, hfile] at hwrite

/-! ## Files that are appended to -/

/-- Opening a file finds what is at its place, or makes an empty file there. -/
theorem openFile_cases (hopen : t.openFile base path = .ok (t', l)) :
    t.locate base path = .ok l ∧ l ≠ []
      ∧ ((t.at? l ≠ none ∧ t' = t) ∨ (t.at? l = none ∧ t' = t.put l (.file ""))) := by
  obtain ⟨-, -, hne⟩ := openFile_grows hopen
  unfold openFile at hopen
  dsimp only at hopen
  split at hopen
  · cases hopen
  next d hlocated =>
    split at hopen
    · cases hopen
    next node _ hat =>
      split at hopen
      · cases hopen
      · cases hopen
        exact ⟨hlocated, hne, .inl ⟨by simp [hat], rfl⟩⟩
    next hnone =>
      split at hopen
      · cases hopen
      · cases hopen
        exact ⟨hlocated, hne, .inr ⟨hnone, rfl⟩⟩

/-- A file that is opened to be appended to keeps its content, and is made if it is not there. -/
theorem openLog_file (hopen : t.openLog base path = (t', .ok l))
    (hold : t.at? l = some (.file text) ∨ t.at? l = none ∧ text = "") :
    t'.locate base path = .ok l ∧ l ≠ [] ∧ t'.at? l = some (.file text) := by
  unfold openLog at hopen
  split at hopen
  · cases hopen
  next t₁ hmade =>
    split at hopen
    · cases hopen
    next t₂ d hfile =>
      cases hopen
      obtain ⟨hlocated, hne, hcases⟩ := openFile_cases hfile
      obtain ⟨-, hdir, -⟩ := openFile_grows hfile
      have hgains := makeDirectories_gainsDirectories hmade l
      rcases hcases with ⟨hsome, rfl⟩ | ⟨hnone, rfl⟩
      · refine ⟨hlocated, hne, ?_⟩
        rcases hgains with hsame | ⟨-, hmadeDir⟩
        · rcases hold with hold | ⟨hold, -⟩
          · rw [hsame, hold]
          · exact absurd (hsame.trans hold) hsome
        · exact absurd hmadeDir hdir
      · have hways : KeepsWays t₁ (t₁.put l (.file "")) := keepsWays_put hne (by simp [hnone]) (by simp [hnone]) nofun
        refine ⟨locate_of_keepsWays hways hlocated, hne, ?_⟩
        rcases hold with hold | ⟨-, rfl⟩
        · rcases hgains with hsame | ⟨hold', -⟩
          · rw [hsame, hold] at hnone
            cases hnone
          · rw [hold] at hold'
            cases hold'
        · exact at?_put_self hne

/-- What is appended to a file is read behind its content. -/
theorem read?_append (hlocated : t.locate base path = .ok l) (hl : l ≠ []) (hfile : t.at? l = some (.file text))
    (more : String) :
    (t.append l more).read? base path = some (text ++ more) := by
  have happend : t.append l more = t.put l (.file (text ++ more)) := by simp [append, FileTree.write, hfile]
  have hways : KeepsWays t (t.put l (.file (text ++ more))) :=
    keepsWays_put hl (by simp [hfile]) (by simp [hfile]) nofun
  rw [happend]
  exact read?_eq_some.mpr ⟨l, locate_of_keepsWays hways hlocated, at?_put_self hl⟩

/-! ## Directories -/

/-- A path leads to a directory. -/
def HasDirectory (t : FileTree) (path : String) : Prop := ∃ l, t.Way [] (Path.parts path) l ∧ t.at? l = some .directory

theorem HasDirectory.of_keepsWays (h : t.HasDirectory path) (hways : KeepsWays t t') : t'.HasDirectory path := by
  obtain ⟨l, hway, hdir⟩ := h
  exact ⟨l, hway.of_keepsWays hways, hways.directory l hdir⟩

theorem hasDirectory_makeDirectories (h : t.Closed) (hne : ps ≠ []) (hps : ∀ part ∈ ps, Path.IsName part)
    (hmade : t.makeDirectories [] (Path.ofParts ps) = .ok t') : t'.HasDirectory (Path.ofParts ps) := by
  rw [makeDirectories_ofParts hps] at hmade
  obtain ⟨l, hway, hmakes⟩ := makeWay_makes h rfl hps hmade
  refine ⟨l, ?_, hmakes.directory⟩
  rw [Path.parts_ofParts hne hps]
  exact .stays (.inl rfl) hway

theorem makeTemporary_gainsDirectories {stem : String} {number : Nat}
    (hmade : t.makeTemporary base stem number = .ok (t', path)) : GainsDirectories t t' := by
  unfold makeTemporary at hmade
  dsimp only at hmade
  split at hmade
  · cases hmade
  next l _ =>
    split at hmade
    · cases hmade
    next hnone =>
      cases hmade
      rw [Option.not_isSome_iff_eq_none] at hnone
      exact gainsDirectories_put (ne_nil_of_at?_eq_none hnone) hnone

end Bailiff.FileTree
