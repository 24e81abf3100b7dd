-- SUMMARY: Where a text is written, and that writing it there again changes nothing else.
import Bailiff.Proofs.Files.Ways

/-!
# Writing

A text is written to the place where its path leads once the directories above it have been made
(`FileTree.WritesTo`). Writing it adds beginnings of that place and changes no other location
(`FileTree.Writes.changed`). After that the path has its directories, and leads to the same place as long as
directories and links stay (`FileTree.Holds`).
-/

namespace Bailiff.FileTree

variable {t t' : FileTree} {here l m d : Location} {path content : String} {ps : List String}

/-! ## Places -/

/-- The place that a text is written to under a path. -/
def WritesTo (t : FileTree) (path : String) (d : Location) : Prop :=
  ∃ t', t.makeDirectories [] (Path.directory path) = .ok t' ∧ t'.Way [] (Path.parts path) d

/-- The directories above a path are there, and the path leads to a place. -/
structure Holds (t : FileTree) (path : String) (d : Location) : Prop where
  made : t.makeDirectories [] (Path.directory path) = .ok t
  located : t.locate [] path = .ok d

theorem Holds.of_keepsWays (h : t.Holds path d) (hways : KeepsWays t t') : t'.Holds path d :=
  ⟨makeDirectories_of_keepsWays h.made hways, locate_of_keepsWays hways h.located⟩

/-- A path that is located has a way. -/
theorem way_of_locate (h : t.locate [] path = .ok d) : t.Way [] (Path.parts path) d := by
  unfold locate at h
  split at h
  · cases h
  · rw [ite_self] at h
    exact way_of_walk h

theorem Holds.writesTo (h : t.Holds path d) : t.WritesTo path d := ⟨t, h.made, way_of_locate h.located⟩

theorem WritesTo.unique (h : t.WritesTo path d) (h' : t.WritesTo path m) : d = m := by
  obtain ⟨t₁, hmade, hway⟩ := h
  obtain ⟨t₂, hmade', hway'⟩ := h'
  rw [hmade] at hmade'
  cases hmade'
  exact hway.unique hway'

/-! ## One file -/

/-- A way from a directory does not end at a link. -/
theorem Way.not_link (h : t.Way here ps l) (hclosed : t.Closed) (hhere : t.at? here = some .directory)
    (target : String) :
    t.at? l ≠ some (.link target) := by
  induction h with
  | arrives => simp [hhere]
  | stays _ _ ih => exact ih hhere
  | up _ ih => exact ih (hclosed.dropLast (by simp [hhere]))
  | enters _ _ hdir _ ih => exact ih hdir
  | follows _ _ _ _ ih =>
    refine ih ?_
    split
    · rfl
    · exact hhere
  | ends _ _ _ hlink => exact hlink target

/-- Nothing has changed but one location that is neither a directory nor a link. -/
structure Fills (t t' : FileTree) (d : Location) : Prop where
  closed : t'.Closed
  ways : KeepsWays t t'
  elsewhere : ∀ m, m ≠ d → t'.at? m = t.at? m

theorem fills_refl (h : t.Closed) (d : Location) : Fills t t d := ⟨h, .refl t, fun _ _ => rfl⟩

theorem Fills.trans {t'' : FileTree} (h : Fills t t' d) (h' : Fills t' t'' d) : Fills t t'' d :=
  ⟨h'.closed, h.ways.trans h'.ways, fun m hm => (h'.elsewhere m hm).trans (h.elsewhere m hm)⟩

theorem fills_put (h : t.Closed) {n : Node} (hd : d ≠ []) (habove : t.at? d.dropLast = some .directory)
    (hdir : t.at? d ≠ some .directory) (hlink : ∀ target, t.at? d ≠ some (.link target))
    (hnew : ∀ target, n ≠ .link target) : Fills t (t.put d n) d :=
  ⟨h.put hd habove fun hyes => absurd hyes hdir, keepsWays_put hd hdir hlink hnew,
    fun m hm => by rw [at?_put hd, if_neg hm]⟩

/-- A file is open at the place where its path leads. -/
structure Opens (t t' : FileTree) (path : String) (d : Location) : Prop where
  located : t.locate [] path = .ok d
  fills : Fills t t' d
  nonempty : d ≠ []
  present : t'.at? d ≠ none
  not_directory : t'.at? d ≠ some .directory
  not_link : ∀ target, t'.at? d ≠ some (.link target)

theorem openFile_opens (h : t.Closed) (hopen : t.openFile [] path = .ok (t', d)) : Opens t t' path d := by
  unfold openFile at hopen
  dsimp only at hopen
  split at hopen
  · cases hopen
  next l hlocate =>
    have hlink := (way_of_locate hlocate).not_link h rfl
    split at hopen
    · cases hopen
    next node hdir hat =>
      split at hopen
      · cases hopen
      · cases hopen
        have hnot : t.at? d ≠ some .directory := by
          rw [hat]
          exact fun heq => hdir (Option.some.inj heq)
        exact ⟨hlocate, fills_refl h d, fun hnil => hnot (by rw [hnil]; rfl), by simp [hat], hnot, hlink⟩
    next hnone =>
      split at hopen
      · cases hopen
      · cases hopen
        have hne := ne_nil_of_at?_eq_none hnone
        have habove : t.at? d.dropLast = some .directory := by
          unfold locate at hlocate
          split at hlocate
          · cases hlocate
          · rw [ite_self] at hlocate
            exact h.walk rfl hlocate
        have hself := at?_put_self (t := t) (n := .file "") hne
        refine ⟨hlocate, fills_put h hne habove (by simp [hnone]) hlink nofun, hne, ?_, ?_, ?_⟩
        all_goals simp [hself]

theorem Opens.write {t'' : FileTree} {change : String → String} (h : Opens t t' path d)
    (hwrite : t'.write d change = .ok t'') : Fills t t'' d := by
  have habove := h.fills.closed.dropLast h.present
  have hput : ∀ content, Fills t' (t'.put d (.file content)) d := fun content =>
    fills_put h.fills.closed h.nonempty habove h.not_directory h.not_link nofun
  refine h.fills.trans ?_
  unfold FileTree.write at hwrite
  split at hwrite
  · cases hwrite
  all_goals cases hwrite
  · exact fills_refl h.fills.closed d
  · exact hput _
  · exact hput _

/-! ## A text -/

/-- What writing a text under a path does, whether or not it succeeds. -/
structure Writes (t : FileTree) (path : String) (r : FileTree × Except FileFault Unit) : Prop where
  closed : r.1.Closed
  ways : KeepsWays t r.1
  changed : ∀ m, r.1.at? m = t.at? m ∨ ∃ d, t.WritesTo path d ∧ m <+: d
  holds : r.2 = .ok () → ∃ d, t.WritesTo path d ∧ r.1.Holds path d

/-- Making the directories above a path adds beginnings of the place where the path then leads. -/
theorem makeDirectories_above (h : t.Closed) (hps : ∀ part ∈ ps, Path.IsName part)
    (hmade : t.makeDirectories [] (Path.directory (Path.ofParts ps)) = .ok t') :
    t'.Closed ∧ KeepsWays t t'
      ∧ ∀ m, t'.at? m = t.at? m ∨ ∃ d, t'.Way [] (Path.parts (Path.ofParts ps)) d ∧ m <+: d := by
  rcases List.eq_nil_or_concat ps with rfl | ⟨above, name, rfl⟩
  · have hroot : Path.directory (Path.ofParts []) = Path.ofParts [] := by decide +kernel
    rw [hroot, makeDirectories_ofParts (by simp), makeWay] at hmade
    cases hmade
    exact ⟨h, .refl t, fun _ => .inl rfl⟩
  have hways := (makeDirectories_gainsDirectories hmade).keepsWays
  rw [List.concat_eq_append] at hps hmade
  have habove : ∀ part ∈ above, Path.IsName part := fun part hpart => hps part (List.mem_append_left _ hpart)
  have hname := hps name (by simp)
  rw [Path.directory_ofParts habove hname, makeDirectories_ofParts habove] at hmade
  refine ⟨makeWay_closed h rfl hmade, hways, fun m => ?_⟩
  obtain ⟨l, hway, hmakes⟩ := makeWay_makes h rfl habove hmade
  rcases hmakes.fresh with rfl | hfresh
  · exact .inl rfl
  rcases hmakes.changed m with hsame | ⟨-, -, hpre⟩
  · exact .inl hsame
  have hskip : ¬(name = "" ∨ name = ".") := by simp [hname.nonempty, hname.notHere]
  have hlast : t'.Way l [name] (l ++ [name]) := .ends hskip hname.notUp (by simp [hfresh]) (by simp [hfresh])
  refine .inr ⟨l ++ [name], ?_, hpre.trans (List.prefix_append l [name])⟩
  rw [List.concat_eq_append, Path.parts_ofParts (by simp) hps]
  exact .stays (.inl rfl) (hway.append hmakes.directory hlast)

/-- Writing a text makes the directories above it, opens its file and fills it. -/
theorem writeText_writes (h : t.Closed) (hps : ∀ part ∈ ps, Path.IsName part) (content : String) :
    Writes t (Path.ofParts ps) (t.writeText [] (Path.ofParts ps) content) := by
  unfold writeText
  cases hmade : t.makeDirectories [] (Path.directory (Path.ofParts ps)) with
  | error fault => exact ⟨h, .refl t, fun _ => .inl rfl, nofun⟩
  | ok t₁ =>
    obtain ⟨hclosed, hways, hchanged⟩ := makeDirectories_above h hps hmade
    have hadded : ∀ m, t₁.at? m = t.at? m ∨ ∃ d, t.WritesTo (Path.ofParts ps) d ∧ m <+: d := fun m =>
      (hchanged m).imp_right fun ⟨d, hway, hpre⟩ => ⟨d, ⟨t₁, hmade, hway⟩, hpre⟩
    dsimp only
    cases hopen : t₁.openFile [] (Path.ofParts ps) with
    | error fault => exact ⟨hclosed, hways, hadded, nofun⟩
    | ok opened =>
      obtain ⟨t₂, d⟩ := opened
      have hopens := openFile_opens hclosed hopen
      have hto : t.WritesTo (Path.ofParts ps) d := ⟨t₁, hmade, way_of_locate hopens.located⟩
      -- All that is done after the directories have been made is done at the place of the file.
      have hfilled : ∀ t₃, Fills t₁ t₃ d → ∀ m, t₃.at? m = t.at? m ∨ ∃ d, t.WritesTo (Path.ofParts ps) d ∧ m <+: d := by
        intro t₃ hfills m
        by_cases hm : m = d
        · exact .inr ⟨d, hto, hm ▸ List.prefix_rfl⟩
        · rw [hfills.elsewhere m hm]
          exact hadded m
      dsimp only
      cases hwrite : t₂.write d fun _ => content with
      | error fault =>
        exact ⟨hopens.fills.closed, hways.trans hopens.fills.ways, hfilled t₂ hopens.fills, nofun⟩
      | ok t₃ =>
        have hfills := hopens.write hwrite
        exact ⟨hfills.closed, hways.trans hfills.ways, hfilled t₃ hfills, fun _ => ⟨d, hto,
          makeDirectories_of_keepsWays hmade hfills.ways, locate_of_keepsWays hfills.ways hopens.located⟩⟩

end Bailiff.FileTree
