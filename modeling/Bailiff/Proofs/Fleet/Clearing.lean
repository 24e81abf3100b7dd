-- SUMMARY: What a sweep that has not given up leaves of the files: all but the stores it has worked off.
import Bailiff.Proofs.Files.Ways
import Bailiff.Proofs.Fleet.Preparation

/-!
# Clearing

A sweep that can list its root works its list off (`Sweep.Course`). At every moment the files are those it began
with, except that the stores on the list that are neither still to come nor reported as failed are gone with all
that was below them (`Sweep.Account`). The account needs the root to lead to its place still; it does, unless
the way there goes through one of the stores (`Sweep.Course.leadsTo`).
-/

namespace Bailiff.Sweep

variable {files t t' : FileTree} {root name : String} {ps : List String} {l m : Location} {s s' : Sweep}

/-! ## Courses -/

/-- A sweep on its way that has not given up, with the files it began with and those it has left. -/
inductive Course (files : FileTree) (root : String) : FileTree → Sweep → Prop where
  | begins : Course files root files { root, phase := .scanning }
  | lists {t : FileTree} {s : Sweep} (h : Course files root t s) (hscanning : s.phase = .scanning)
      {stores : List String} (hstores : storesBelow t s.root = .ok stores) : Course files root t (s.goOn stores).1
  | keeps {t : FileTree} {s : Sweep} (h : Course files root t s) {store : String} {rest : List String}
      (hphase : s.phase = .removing (store :: rest)) (f : FileFault) : Course files root t (s.keeps store rest f).1
  | drops {t t' : FileTree} {s : Sweep} (h : Course files root t s) {store : String} {rest : List String}
      (hphase : s.phase = .removing (store :: rest)) (hremove : removePath t store = .ok t') :
      Course files root t' (s.drops store rest).1

/-- A step makes nothing. -/
theorem Move.kept {fault : Option FileFault} {events : List Event} (h : s.Move fault t t' s' events) {n : Node}
    (hn : t'.at? m = some n) : t.at? m = some n := by
  cases h with
  | drops _ hremove => exact at?_of_removePath hremove hn
  | rests | givesUp | lists | keeps => exact hn

/-- A step that does not give up goes on with the course. -/
theorem Course.move (h : Course files root t s) {fault : Option FileFault} {events : List Event}
    (hmove : s.Move fault t t' s' events)
    (hscan : s.phase = .scanning → fault = none ∧ ∀ f, storesBelow t s.root ≠ .error f) : Course files root t' s' := by
  cases hmove with
  | rests => exact h
  | @givesUp hscanning f hfault =>
    obtain ⟨hnone, hlists⟩ := hscan hscanning
    rcases hfault with hfault | hfault
    · rw [hnone] at hfault
      cases hfault
    · exact absurd hfault (hlists f)
  | lists hscanning _ hstores => exact .lists h hscanning hstores
  | keeps hphase f => exact .keeps h hphase f
  | drops hphase hremove => exact .drops h hphase hremove

theorem Course.root_eq (h : Course files root t s) : s.root = root := by
  induction h with
  | begins => rfl
  | lists _ _ _ ih => rw [root_goOn, ih]
  | keeps _ _ _ ih => exact (root_goOn _ _).trans ih
  | drops _ _ _ ih => exact (root_goOn _ _).trans ih

/-- Before the root is listed nothing has happened. -/
theorem Course.scanning (h : Course files root t s) (hscanning : s.phase = .scanning) : t = files ∧ s.failed = [] := by
  have hlisted : ∀ (sweep : Sweep) rest, (sweep.goOn rest).1.phase ≠ .scanning := fun sweep rest =>
    (hasListed_goOn sweep rest).2
  cases h with
  | begins => exact ⟨rfl, rfl⟩
  | lists => exact absurd hscanning (hlisted _ _)
  | keeps => exact absurd hscanning (hlisted _ _)
  | drops => exact absurd hscanning (hlisted _ _)

/-! ## The account -/

/-- A name on the list has been worked off. -/
structure Dropped (files : FileTree) (root : String) (l : Location) (s : Sweep) (name : String) : Prop where
  listed : Listed files l name
  begun : s.HasListed
  gone : listedPath root name ∉ s.charged

/-- What has been dropped is gone with all that was below it, and all else is as it was at the beginning. -/
structure Account (files : FileTree) (root : String) (l : Location) (t : FileTree) (s : Sweep) : Prop where
  charged : ∀ store ∈ s.charged, ∃ name, Listed files l name ∧ store = listedPath root name
  nodup : s.charged.Nodup
  gone : ∀ name, Dropped files root l s name → ∀ m, l ++ [name] <+: m → t.at? m = none
  kept : ∀ m, (∀ name, Dropped files root l s name → ¬l ++ [name] <+: m) → t.at? m = files.at? m

namespace Account

/-- A step that leaves the files alone, and the charged stores and whether the root has been listed. -/
theorem same (h : Account files root l t s) (hcharged : s'.charged.Perm s.charged)
    (hlisted : s'.HasListed ↔ s.HasListed) : Account files root l t s' := by
  have hdropped : ∀ name, Dropped files root l s' name ↔ Dropped files root l s name := fun name =>
    ⟨fun hd => ⟨hd.listed, hlisted.mp hd.begun, fun hmem => hd.gone (hcharged.mem_iff.mpr hmem)⟩,
      fun hd => ⟨hd.listed, hlisted.mpr hd.begun, fun hmem => hd.gone (hcharged.mem_iff.mp hmem)⟩⟩
  refine ⟨fun store hmem => h.charged store (hcharged.mem_iff.mp hmem), hcharged.nodup_iff.mpr h.nodup,
    fun name hd => h.gone name ((hdropped name).mp hd), fun m hm => h.kept m fun name hd => ?_⟩
  exact hm name ((hdropped name).mpr hd)

theorem drops (h : Account files root l t s) (hroot : PlainRoot root ps) (hplain : PlainBelow files l)
    (hleads : t.LeadsTo root l) {store : String} {rest : List String} (hphase : s.phase = .removing (store :: rest))
    (hremove : removePath t store = .ok t') : Account files root l t' (s.drops store rest).1 := by
  have hcharged : s.charged = store :: (rest ++ s.failed) := by
    simp [Sweep.charged, Sweep.pending, hphase]
  have hdropped : (s.drops store rest).1.charged = rest ++ s.failed := by simp [Sweep.drops, Sweep.charged]
  have hnodup := h.nodup
  rw [hcharged, List.nodup_cons] at hnodup
  obtain ⟨name, hlisted, rfl⟩ := h.charged store (by rw [hcharged]; exact List.mem_cons_self)
  rw [removePath_listed hroot hleads (hlisted.isPlain hplain)] at hremove
  cases hremove
  -- Beside those before, the store that has been removed now is dropped.
  have hiff : ∀ other, Dropped files root l (s.drops (listedPath root name) rest).1 other
      ↔ Dropped files root l s other ∨ other = name := by
    intro other
    constructor
    · intro hd
      by_cases hsame : other = name
      · exact .inr hsame
      refine .inl ⟨hd.listed, by simp [HasListed, hphase], fun hmem => ?_⟩
      rw [hcharged, List.mem_cons] at hmem
      rcases hmem with heq | hmem
      · have hname := hlisted.isPlain hplain
        have hother := hd.listed.isPlain hplain
        exact hsame (hroot.listedPath_inj hother.isName hname.isName heq)
      · exact hd.gone (hdropped ▸ hmem)
    · rintro (hd | rfl)
      · refine ⟨hd.listed, hasListed_goOn _ rest, fun hmem => hd.gone ?_⟩
        rw [hcharged]
        exact List.mem_cons_of_mem _ (hdropped ▸ hmem)
      · exact ⟨hlisted, hasListed_goOn _ rest, hdropped ▸ hnodup.1⟩
  refine ⟨fun store hmem => h.charged store ?_, hdropped ▸ hnodup.2, ?_, ?_⟩
  · rw [hcharged]
    exact List.mem_cons_of_mem _ (hdropped ▸ hmem)
  · intro other hd m hpre
    rw [FileTree.at?_remove (by simp)]
    split
    · rfl
    next hout =>
      rcases (hiff other).mp hd with hd | rfl
      · exact h.gone other hd m hpre
      · exact absurd (List.isPrefixOf_iff_prefix.mpr hpre) hout
  · intro m hm
    rw [FileTree.at?_remove (by simp), if_neg]
    · exact h.kept m fun other hd => hm other ((hiff other).mpr (.inl hd))
    · rw [List.isPrefixOf_iff_prefix]
      exact hm name ((hiff name).mpr (.inr rfl))

end Account

/-- The files are accounted for as long as the root leads to its place. -/
theorem Course.account (h : Course files root t s) (hroot : PlainRoot root ps) (hdistinct : files.Distinct)
    (hplain : PlainBelow files l) (hleads : t.LeadsTo root l) : Account files root l t s := by
  induction h with
  | begins =>
    have hcharged : charged { root, phase := .scanning } = [] := rfl
    refine ⟨by simp [hcharged], by simp [hcharged], fun name hd => ?_, fun _ _ => rfl⟩
    exact absurd rfl hd.begun.2
  | lists h hscanning hstores _ =>
    obtain ⟨rfl, hfailed⟩ := h.scanning hscanning
    rw [h.root_eq] at hstores
    obtain ⟨hnodup, hmem⟩ := storesBelow_plain hroot hdistinct hplain
      (fun m hm => Except.ok.inj (hm.located.symm.trans hleads.located)) hstores
    have hcharged : ∀ (sweep : Sweep) stores, sweep.failed = [] → (sweep.goOn stores).1.charged = stores := by
      intro sweep stores hnone
      simp [charged, hnone]
    refine ⟨?_, ?_, fun name hd => ?_, fun _ _ => rfl⟩
    · rw [hcharged _ _ hfailed]
      intro store hstore
      obtain ⟨name, ⟨-, hlisted⟩, heq⟩ := (hmem store).mp hstore
      exact ⟨name, hlisted, heq⟩
    · rwa [hcharged _ _ hfailed]
    · refine absurd ?_ hd.gone
      rw [hcharged _ _ hfailed]
      exact (hmem _).mpr ⟨name, ⟨hleads, hd.listed⟩, rfl⟩
  | @keeps t s h store rest hphase f ih =>
    refine (ih hleads).same ?_ ?_
    · have hcharged : s.charged = store :: (rest ++ s.failed) := by simp [charged, pending, hphase]
      have hkept : (s.keeps store rest f).1.charged = rest ++ (s.failed ++ [store]) := by simp [Sweep.keeps, charged]
      rw [hkept, hcharged, ← List.append_assoc]
      exact List.perm_append_singleton store _
    · exact ⟨fun _ => by simp [HasListed, hphase], fun _ => hasListed_goOn _ rest⟩
  | drops h hphase hremove ih =>
    have hbefore := hleads.of_kept fun m n hn => at?_of_removePath hremove hn
    exact (ih hbefore).drops hroot hplain hbefore hphase hremove

/-- If the root leads to its place without any one of the listed stores, it still does at the end. -/
theorem Course.leadsTo (h : Course files root t s) (hroot : PlainRoot root ps) (hdistinct : files.Distinct)
    (hplain : PlainBelow files l) (hleads : files.LeadsTo root l)
    (hwithout : ∀ name, Listed files l name → (files.remove (l ++ [name])).LeadsTo root l) : t.LeadsTo root l := by
  induction h with
  | begins => exact hleads
  | lists _ _ _ ih => exact ih
  | keeps _ _ _ ih => exact ih
  | @drops t t' s h store rest hphase hremove ih =>
    have haccount := (h.account hroot hdistinct hplain ih).drops hroot hplain ih hphase hremove
    have hout : ∀ name, ¬l ++ [name] <+: l := fun name hpre => absurd hpre.length_le (by simp)
    have hwalk : ∀ {tree : FileTree}, tree.LeadsTo root l → tree.walk true FileTree.maxLinks [] ps = .ok l := by
      intro tree htree
      rw [← FileTree.locate_ofParts hroot.names, ← hroot.spelled]
      exact htree.located
    refine ⟨?_, ?_⟩
    · rw [hroot.spelled, FileTree.locate_ofParts hroot.names]
      refine FileTree.walk_without
        (P := fun x => ∃ name, Dropped files root l (s.drops store rest).1 name ∧ x = l ++ [name])
        ?_ ?_ ?_ (hwalk hleads)
      · rintro x ⟨name, -, rfl⟩
        exact hout name
      · exact fun m hm => haccount.kept m fun name hd => hm _ ⟨name, hd, rfl⟩
      · rintro x ⟨name, hd, rfl⟩
        exact hwalk (hwithout name hd.listed)
    · rw [haccount.kept l fun name _ => hout name]
      exact hleads.directory

end Bailiff.Sweep
