-- SUMMARY: The stores that are left when a supervision has exited: those made after the root had been listed.
import Bailiff.Proofs.Fleet.Supervision
import Bailiff.Proofs.Fleet.Workers

/-!
# Stores that are left

The only listing of the root takes place as soon as a signal comes or the run has ended, and after a signal the
fleet goes on making stores. What a run does to one store can be accounted for at any moment: it is on the list,
its removal has failed, it was made after the listing, or it is not there (`Supervision.Accounted`). Every step
keeps the account (`Supervision.Accounted.step`), so that at the end just those stores are left, beside the ones
whose removal has failed, that were made too late or could not be listed (`Supervision.store_left_iff`).
-/

namespace Bailiff

namespace Supervision

variable {launcher : Fleet.Launcher} {start : Supervision} {acts : List Action} {a : Action}

/-! ## Moments of a run -/

/-- At some moment of a list of actions, a condition holds of the actions before it and the next one. -/
def Once (P : List Action → Action → Prop) (acts : List Action) : Prop :=
  ∃ before a after, acts = before ++ a :: after ∧ P before a

variable {P : List Action → Action → Prop}

theorem not_once_nil : ¬Once P [] := by
  rintro ⟨before, a, after, hacts, -⟩
  simp at hacts

theorem once_concat : Once P (acts ++ [a]) ↔ Once P acts ∨ P acts a := by
  constructor
  · rintro ⟨before, b, after, hacts, hb⟩
    rcases List.eq_nil_or_concat after with rfl | ⟨after, c, rfl⟩
    · obtain ⟨hbefore, hlast⟩ := List.append_inj' hacts rfl
      cases hlast
      exact .inr (hbefore ▸ hb)
    · have hacts : acts ++ [a] = (before ++ b :: after) ++ [c] := by simpa using hacts
      obtain ⟨hbefore, -⟩ := List.append_inj' hacts rfl
      exact .inl ⟨before, b, after, hbefore, hb⟩
  · rintro (⟨before, b, after, rfl, hb⟩ | ha)
    · exact ⟨before, b, after ++ [a], by simp, hb⟩
    · exact ⟨acts, a, [], rfl, ha⟩

/-- A directory is made after the sweep has listed its root. -/
def MadeLate (launcher : Fleet.Launcher) (start : Supervision) (l : Location) : List Action → Prop :=
  Once fun before a => (start.run launcher before).1.sweep.HasListed
    ∧ (start.run launcher before).1.fleet.files.at? l = none
    ∧ (start.run launcher (before ++ [a])).1.fleet.files.at? l = some .directory

/-- A fault keeps the sweep from listing its root. -/
def GaveUp (launcher : Fleet.Launcher) (start : Supervision) : List Action → Prop :=
  Once fun before a => (start.run launcher before).1.sweep.phase = .scanning ∧ ∃ f, a = .sweep (some f)

/-! ## The account of a store -/

/-- What is known about a store at a moment of a run. -/
structure Accounted (launcher : Fleet.Launcher) (start : Supervision) (plan : FleetPlan) (l : Location)
    (name : String) (acts : List Action) (s : Supervision) : Prop where
  now : (start.run launcher acts).1 = s
  order : s.InOrder plan
  distinct : s.fleet.files.Distinct
  /-- The paths of the sweep are those of plain names. -/
  spelled : ∀ store ∈ s.sweep.charged,
    ∃ other, Path.IsName other ∧ '\\' ∉ other.toList ∧ store = Sweep.listedPath plan.storeRoot other
  nodup : s.sweep.charged.Nodup
  present : Sweep.listedPath plan.storeRoot name ∈ s.sweep.charged → s.fleet.files.at? (l ++ [name]) ≠ none
  left : s.sweep.HasListed → s.fleet.files.at? (l ++ [name]) = some .directory →
    Sweep.listedPath plan.storeRoot name ∈ s.sweep.charged
      ∨ MadeLate launcher start (l ++ [name]) acts ∨ GaveUp launcher start acts
  made : MadeLate launcher start (l ++ [name]) acts → s.sweep.HasListed
    ∧ s.fleet.files.at? (l ++ [name]) = some .directory ∧ Sweep.listedPath plan.storeRoot name ∉ s.sweep.charged
  gaveUp : GaveUp launcher start acts → s.sweep.HasListed ∧ s.sweep.charged = []

variable {plan : FleetPlan} {l : Location} {name : String} {s s' : Supervision}

theorem madeLate_concat {m : Location} (hnow : (start.run launcher acts).1 = s) (hstep : (s.step launcher a).1 = s') :
    MadeLate launcher start m (acts ++ [a]) ↔ MadeLate launcher start m acts
      ∨ s.sweep.HasListed ∧ s.fleet.files.at? m = none ∧ s'.fleet.files.at? m = some .directory := by
  rw [MadeLate, once_concat, run_concat, hnow, hstep]

theorem gaveUp_concat (hnow : (start.run launcher acts).1 = s) :
    GaveUp launcher start (acts ++ [a]) ↔ GaveUp launcher start acts
      ∨ s.sweep.phase = .scanning ∧ ∃ f, a = .sweep (some f) := by
  rw [GaveUp, once_concat, hnow]

namespace Accounted

/-- A step that leaves the list alone and takes nothing away. -/
theorem builds (h : Accounted launcher start plan l name acts s) (hstep : (s.step launcher a).1 = s')
    (horder : s'.InOrder plan) (hquiet : ¬(s.sweep.phase = .scanning ∧ ∃ f, a = .sweep (some f)))
    (hfiles : s.fleet.files.Grows s'.fleet.files) (hcharged : s'.sweep.charged = s.sweep.charged)
    (hlisted : s'.sweep.HasListed ↔ s.sweep.HasListed) :
    Accounted launcher start plan l name (acts ++ [a]) s' := by
  have hmade := @madeLate_concat launcher start acts a s s' (l ++ [name]) h.now hstep
  have hgaveUp := @gaveUp_concat launcher start acts a s h.now
  constructor
  case now => rw [run_concat, h.now, hstep]
  case order => exact horder
  case distinct => exact hfiles.distinct h.distinct
  case spelled =>
    rw [hcharged]
    exact h.spelled
  case nodup =>
    rw [hcharged]
    exact h.nodup
  case present =>
    intro hmem
    rw [hcharged] at hmem
    obtain ⟨n, hn⟩ := Option.ne_none_iff_exists'.mp (h.present hmem)
    obtain ⟨n', hn', -⟩ := hfiles.kept _ n hn
    simp [hn']
  case left =>
    intro hlisted' hdir
    rw [hmade, hgaveUp, hcharged]
    rw [hlisted] at hlisted'
    cases hbefore : s.fleet.files.at? (l ++ [name]) with
    | none => exact .inr (.inl (.inr ⟨hlisted', rfl, hdir⟩))
    | some n =>
      obtain ⟨n', hn', hiff⟩ := hfiles.kept _ n hbefore
      rw [hdir, Option.some.injEq] at hn'
      have hn : n = .directory := hiff.mp hn'.symm
      rcases h.left hlisted' (hn ▸ hbefore) with hmem | hlate | hup
      · exact .inl hmem
      · exact .inr (.inl (.inl hlate))
      · exact .inr (.inr (.inl hup))
  case made =>
    intro hlate
    rw [hlisted, hcharged]
    rcases hmade.mp hlate with hlate | ⟨hlisted', hnone, hdir⟩
    · obtain ⟨hlisted', hdir, hfree⟩ := h.made hlate
      exact ⟨hlisted', hfiles.directory hdir, hfree⟩
    · exact ⟨hlisted', hdir, fun hmem => h.present hmem hnone⟩
  case gaveUp =>
    intro hup
    rw [hlisted, hcharged]
    rcases hgaveUp.mp hup with hup | hnew
    · exact h.gaveUp hup
    · exact absurd hnew hquiet

variable {fault : Option FileFault} {files : FileTree} {sweep : Sweep}

/-- A step of the sweep that does something makes no directory. -/
theorem sweeps (h : Accounted launcher start plan l name acts s)
    (hstep : (s.step launcher (.sweep fault)).1 = s') (horder : s'.InOrder plan)
    (hdistinct : s'.fleet.files.Distinct) (hlisted : s'.sweep.HasListed)
    (hspelled : ∀ store ∈ s'.sweep.charged,
      ∃ other, Path.IsName other ∧ '\\' ∉ other.toList ∧ store = Sweep.listedPath plan.storeRoot other)
    (hnodup : s'.sweep.charged.Nodup)
    (hpresent : Sweep.listedPath plan.storeRoot name ∈ s'.sweep.charged → s'.fleet.files.at? (l ++ [name]) ≠ none)
    (hback : s'.fleet.files.at? (l ++ [name]) = some .directory → s.fleet.files.at? (l ++ [name]) = some .directory)
    (hleft : s'.fleet.files.at? (l ++ [name]) = some .directory →
      Sweep.listedPath plan.storeRoot name ∈ s'.sweep.charged ∨ MadeLate launcher start (l ++ [name]) acts
        ∨ GaveUp launcher start (acts ++ [.sweep fault]))
    (hmade : MadeLate launcher start (l ++ [name]) acts →
      s'.fleet.files.at? (l ++ [name]) = some .directory ∧ Sweep.listedPath plan.storeRoot name ∉ s'.sweep.charged)
    (hgaveUp : GaveUp launcher start (acts ++ [.sweep fault]) → s'.sweep.charged = []) :
    Accounted launcher start plan l name (acts ++ [.sweep fault]) s' := by
  have hconcat := @madeLate_concat launcher start acts (.sweep fault) s s' (l ++ [name]) h.now hstep
  refine ⟨by rw [run_concat, h.now, hstep], horder, hdistinct, hspelled, hnodup, hpresent, ?_, ?_, ?_⟩
  · intro _ hdir
    rcases hleft hdir with hmem | hlate | hup
    · exact .inl hmem
    · exact .inr (.inl (hconcat.mpr (.inl hlate)))
    · exact .inr (.inr hup)
  · intro hlate
    rcases hconcat.mp hlate with hlate | ⟨-, hnone, hdir⟩
    · exact ⟨hlisted, hmade hlate⟩
    · rw [hback hdir] at hnone
      cases hnone
  · intro hup
    exact ⟨hlisted, hgaveUp hup⟩

/-- Before the root is listed there is nothing to account for. -/
theorem blank (h : Accounted launcher start plan l name acts s) (hscanning : s.sweep.phase = .scanning) :
    s.sweep.failed = [] ∧ ¬MadeLate launcher start (l ++ [name]) acts ∧ ¬GaveUp launcher start acts := by
  have hunlisted : ¬s.sweep.HasListed := fun hlisted => hlisted.2 hscanning
  exact ⟨h.order.unlisted hunlisted, fun hlate => hunlisted (h.made hlate).1, fun hup => hunlisted (h.gaveUp hup).1⟩

variable {ps : List String}

/-- The root could not be listed, so whatever is there is left. -/
theorem givesUp (h : Accounted launcher start plan l name acts s) (hroot : Sweep.PlainRoot plan.storeRoot ps)
    (hanchored : Sweep.Anchored s.fleet.files plan.storeRoot l) (hstore : Stores.isStoreName name = true)
    {f : FileFault}
    (hstep : (s.step launcher (.sweep fault)).1 = { s with sweep := (s.sweep.givesUp f).1 })
    (horder : InOrder plan { s with sweep := (s.sweep.givesUp f).1 }) (hscanning : s.sweep.phase = .scanning)
    (hfault : fault = some f ∨ Sweep.storesBelow s.fleet.files s.sweep.root = .error f) :
    Accounted launcher start plan l name (acts ++ [.sweep fault]) { s with sweep := (s.sweep.givesUp f).1 } := by
  obtain ⟨hfailed, hlate, hup⟩ := h.blank hscanning
  have hcharged : (s.sweep.givesUp f).1.charged = [] := hfailed
  refine h.sweeps hstep horder h.distinct ⟨nofun, nofun⟩ (by simp [hcharged]) (by simp [hcharged])
    (by simp [hcharged]) id ?_ (fun hmade => absurd hmade hlate) (fun _ => hcharged)
  intro hdir
  rcases hfault with rfl | hfault
  · exact .inr (.inr ((gaveUp_concat h.now).mpr (.inr ⟨hscanning, f, rfl⟩)))
  · rw [h.order.root_eq] at hfault
    exact absurd hfault (hanchored.listable hroot hstore hdir f)

/-- The root has been listed, so every store that is there is on the list. -/
theorem lists (h : Accounted launcher start plan l name acts s) (hroot : Sweep.PlainRoot plan.storeRoot ps)
    (hanchored : Sweep.Anchored s.fleet.files plan.storeRoot l) (hstore : Stores.isStoreName name = true)
    (hname : Path.IsName name) {stores : List String}
    (hstep : (s.step launcher (.sweep fault)).1 = { s with sweep := (s.sweep.goOn stores).1 })
    (horder : InOrder plan { s with sweep := (s.sweep.goOn stores).1 }) (hscanning : s.sweep.phase = .scanning)
    (hfault : fault = none) (hstores : Sweep.storesBelow s.fleet.files s.sweep.root = .ok stores) :
    Accounted launcher start plan l name (acts ++ [.sweep fault]) { s with sweep := (s.sweep.goOn stores).1 } := by
  obtain ⟨hfailed, hlate, hup⟩ := h.blank hscanning
  rw [h.order.root_eq] at hstores
  obtain ⟨hnodup, hmem⟩ := Sweep.storesBelow_plain hroot h.distinct hanchored.plain
    (fun m hm => hanchored.only m hm.located) hstores
  have hcharged : (s.sweep.goOn stores).1.charged = stores := by simp [Sweep.charged, hfailed]
  refine h.sweeps hstep horder h.distinct (Sweep.hasListed_goOn s.sweep stores) ?_ ?_ ?_ id ?_
    (fun hmade => absurd hmade hlate) ?_
  · intro store hstore
    rw [hcharged] at hstore
    obtain ⟨other, ⟨-, hlisted⟩, rfl⟩ := (hmem store).mp hstore
    have hother := hlisted.isPlain hanchored.plain
    exact ⟨other, hother.isName, hother.plain, rfl⟩
  · rw [hcharged]
    exact hnodup
  · intro hstore
    rw [hcharged] at hstore
    obtain ⟨other, ⟨-, hlisted⟩, heq⟩ := (hmem _).mp hstore
    rw [hroot.listedPath_inj hname (hlisted.isPlain hanchored.plain).isName heq]
    exact FileTree.mem_names_iff.mp hlisted.here
  · intro hdir
    rw [hcharged]
    exact .inl ((hmem _).mpr ⟨name, hanchored.listed hstore hdir, rfl⟩)
  · intro hup'
    rcases (gaveUp_concat h.now).mp hup' with hup' | ⟨-, f, hf⟩
    · exact absurd hup' hup
    · rw [hfault] at hf
      cases hf

/-- The listed store that is next. -/
theorem next (h : Accounted launcher start plan l name acts s) {store : String} {rest : List String}
    (hphase : s.sweep.phase = .removing (store :: rest)) :
    s.sweep.HasListed ∧ s.sweep.charged = store :: (rest ++ s.sweep.failed)
      ∧ ¬GaveUp launcher start (acts ++ [.sweep fault]) := by
  have hcharged : s.sweep.charged = store :: (rest ++ s.sweep.failed) := by
    simp [Sweep.charged, Sweep.pending, hphase]
  refine ⟨by simp [Sweep.HasListed, hphase], hcharged, ?_⟩
  intro hup
  rcases (gaveUp_concat h.now).mp hup with hup | ⟨hscanning, -⟩
  · have hnone := (h.gaveUp hup).2
    rw [hcharged] at hnone
    cases hnone
  · rw [hphase] at hscanning
    cases hscanning

/-- A store could not be removed, so it stays where it is. -/
theorem keeps (h : Accounted launcher start plan l name acts s) {store : String} {rest : List String} {f : FileFault}
    (hstep : (s.step launcher (.sweep fault)).1 = { s with sweep := (s.sweep.keeps store rest f).1 })
    (horder : InOrder plan { s with sweep := (s.sweep.keeps store rest f).1 })
    (hphase : s.sweep.phase = .removing (store :: rest)) :
    Accounted launcher start plan l name (acts ++ [.sweep fault])
      { s with sweep := (s.sweep.keeps store rest f).1 } := by
  obtain ⟨hlisted, hcharged, hup⟩ := @next launcher start acts plan l name s fault h store rest hphase
  have hkept : (s.sweep.keeps store rest f).1.charged = rest ++ (s.sweep.failed ++ [store]) := by
    simp [Sweep.keeps, Sweep.charged]
  have hperm : (s.sweep.keeps store rest f).1.charged.Perm s.sweep.charged := by
    rw [hkept, hcharged, ← List.append_assoc]
    exact List.perm_append_singleton store _
  refine h.sweeps hstep horder h.distinct (Sweep.hasListed_goOn _ rest) ?_ (hperm.nodup_iff.mpr h.nodup) ?_ id ?_ ?_
    (fun hup' => absurd hup' hup)
  · intro other hmem
    exact h.spelled other (hperm.mem_iff.mp hmem)
  · intro hmem
    exact h.present (hperm.mem_iff.mp hmem)
  · intro hdir
    rw [hperm.mem_iff]
    exact (h.left hlisted hdir).imp_right (.imp_right fun hup' => (gaveUp_concat h.now).mpr (.inl hup'))
  · intro hlate
    rw [hperm.mem_iff]
    exact (h.made hlate).2

/-- A store has been removed. If it is the one of the account, it is not there any more; if it is another, the
account stays as it was. -/
theorem drops (h : Accounted launcher start plan l name acts s) (hroot : Sweep.PlainRoot plan.storeRoot ps)
    (hanchored : Sweep.Anchored s.fleet.files plan.storeRoot l) (hstore : Stores.isStoreName name = true)
    (hname : Path.IsName name) (hplain : '\\' ∉ name.toList) {store : String} {rest : List String}
    (hstep : (s.step launcher (.sweep fault)).1
      = { s with fleet := { s.fleet with files }, sweep := (s.sweep.drops store rest).1 })
    (horder : InOrder plan { s with fleet := { s.fleet with files }, sweep := (s.sweep.drops store rest).1 })
    (hphase : s.sweep.phase = .removing (store :: rest))
    (hremove : Sweep.removePath s.fleet.files store = .ok files) :
    Accounted launcher start plan l name (acts ++ [.sweep fault])
      { s with fleet := { s.fleet with files }, sweep := (s.sweep.drops store rest).1 } := by
  obtain ⟨hlisted, hcharged, hup⟩ := @next launcher start acts plan l name s fault h store rest hphase
  have hdropped : (s.sweep.drops store rest).1.charged = rest ++ s.sweep.failed := by
    simp [Sweep.drops, Sweep.charged]
  have hsub : ∀ other ∈ (s.sweep.drops store rest).1.charged, other ∈ s.sweep.charged := by
    rw [hdropped, hcharged]
    exact fun other hmem => List.mem_cons_of_mem store hmem
  have hnodup := h.nodup
  rw [hcharged, List.nodup_cons] at hnodup
  have hback : files.at? (l ++ [name]) = some .directory → s.fleet.files.at? (l ++ [name]) = some .directory :=
    Sweep.at?_of_removePath hremove
  have hspelled : ∀ other ∈ (s.sweep.drops store rest).1.charged,
      ∃ name', Path.IsName name' ∧ '\\' ∉ name'.toList
      ∧ other = Sweep.listedPath plan.storeRoot name' :=
    fun other hmem => h.spelled other (hsub other hmem)
  obtain ⟨other, hother, hotherPlain, hspelt⟩ := h.spelled store (by rw [hcharged]; exact List.mem_cons_self)
  have hsweeps := h.sweeps hstep horder (Sweep.distinct_removePath hremove h.distinct) (Sweep.hasListed_goOn _ rest)
    hspelled (hdropped ▸ hnodup.2)
  by_cases hown : other = name
  · subst hown
    have hfree : Sweep.listedPath plan.storeRoot other ∉ (s.sweep.drops store rest).1.charged := by
      rw [hdropped, ← hspelt]
      exact hnodup.1
    have hgone : files.at? (l ++ [other]) ≠ some .directory := by
      intro hdir
      have hnone := Sweep.removePath_own hroot hanchored hstore (hback hdir) (hspelt ▸ hremove)
      rw [hnone] at hdir
      cases hdir
    refine hsweeps (fun hmem => absurd hmem hfree) hback (fun hdir => absurd hdir hgone) ?_
      (fun hup' => absurd hup' hup)
    intro hlate
    refine absurd ?_ (h.made hlate).2.2
    rw [hcharged, ← hspelt]
    exact List.mem_cons_self
  · have hsame : files.at? (l ++ [name]) = s.fleet.files.at? (l ++ [name]) :=
      Sweep.removePath_other hroot hanchored hother hotherPlain hown (hspelt ▸ hremove)
    have hmem : Sweep.listedPath plan.storeRoot name ∈ (s.sweep.drops store rest).1.charged
        ↔ Sweep.listedPath plan.storeRoot name ∈ s.sweep.charged := by
      rw [hdropped, hcharged, List.mem_cons]
      refine (or_iff_right fun heq => hown ?_).symm
      exact (hroot.listedPath_inj hname hother (heq.trans hspelt)).symm
    refine hsweeps ?_ hback ?_ ?_ (fun hup' => absurd hup' hup)
    · rw [hmem]
      intro hcharge
      exact hsame ▸ h.present hcharge
    · intro hdir
      rw [hmem]
      exact (h.left hlisted (hback hdir)).imp_right (.imp_right fun hup' => (gaveUp_concat h.now).mpr (.inl hup'))
    · intro hlate
      rw [hmem]
      obtain ⟨-, hdir, hfree⟩ := h.made hlate
      exact ⟨hsame.trans hdir, hfree⟩

/-- Every step of a run keeps the account of a store. -/
theorem step (h : Accounted launcher start plan l name acts s) (hmode : plan.mode ≠ .shell)
    (hroot : Sweep.PlainRoot plan.storeRoot ps) (hanchored : Sweep.Anchored s.fleet.files plan.storeRoot l)
    (hstore : Stores.isStoreName name = true) (hname : Path.IsName name) (hplain : '\\' ∉ name.toList) (a : Action) :
    Accounted launcher start plan l name (acts ++ [a]) (s.step launcher a).1 := by
  have horder := @InOrder.step launcher s plan h.order hmode a
  have hmove := move_step launcher s a
  generalize hstep : (s.step launcher a).1 = s', (s.step launcher a).2 = effects at horder hmove ⊢
  have hquiet : a.isSweep = false → ¬(s.sweep.phase = .scanning ∧ ∃ f, a = .sweep (some f)) := by
    rintro hother ⟨-, f, rfl⟩
    cases hother
  cases hmove with
  | goesOn hother hbuilds hsweep hcleanup =>
    exact h.builds hstep horder (hquiet hother) hbuilds.files (by rw [hsweep]) (by rw [hsweep])
  | begins hother hidle hbuilds hsweep hcleanup =>
    have hphase := h.order.idle hidle
    have hstarted : s'.sweep = s.sweep.start.1 := by
      rw [hsweep, sweepBegun, if_neg (by rw [h.order.plan_eq]; exact hmode)]
    refine h.builds hstep horder (hquiet hother) hbuilds.files ?_ ?_
    · simp [hstarted, Sweep.charged, Sweep.pending, Sweep.start, hphase]
    · simp [hstarted, Sweep.HasListed, Sweep.start, hphase]
  | ends hdone hfleet hsweep hcleanup =>
    exact h.builds hstep horder (hquiet rfl) (hfleet ▸ .refl _) (by rw [hsweep]) (by rw [hsweep])
  | sweeps fault hmove =>
    cases hmove with
    | rests hscanning hpending =>
      exact h.builds hstep horder (fun hboth => hscanning hboth.1) (.refl _) rfl Iff.rfl
    | givesUp hscanning hfault => exact h.givesUp hroot hanchored hstore hstep horder hscanning hfault
    | lists hscanning hfault hstores =>
      exact h.lists hroot hanchored hstore hname hstep horder hscanning hfault hstores
    | keeps hphase f => exact h.keeps hstep horder hphase
    | drops hphase hremove => exact h.drops hroot hanchored hstore hname hplain hstep horder hphase hremove

end Accounted

theorem accounted_begin (launcher : Fleet.Launcher) (plan : FleetPlan) {files : FileTree} (hdistinct : files.Distinct)
    (l : Location) (name : String) : Accounted launcher (begin launcher plan files) plan l name []
      (begin launcher plan files) := by
  have horder := inOrder_begin launcher plan files
  have hsweep : (begin launcher plan files).sweep = { root := plan.storeRoot } := rfl
  have hfiles : (begin launcher plan files).fleet.files = files := rfl
  have hcharged : (begin launcher plan files).sweep.charged = [] := rfl
  refine ⟨rfl, horder, hfiles ▸ hdistinct, by simp [hcharged], by simp [hcharged], by simp [hcharged], ?_, ?_, ?_⟩
  · rintro ⟨hidle, -⟩
    exact absurd rfl hidle
  · exact fun hlate => absurd hlate not_once_nil
  · exact fun hup => absurd hup not_once_nil

variable {ps : List String} {files : FileTree}

theorem accounted_run (launcher : Fleet.Launcher) (hmode : plan.mode ≠ .shell)
    (hroot : Sweep.PlainRoot plan.storeRoot ps) (hdistinct : files.Distinct)
    (hstore : Stores.isStoreName name = true) (hname : Path.IsName name) (hplain : '\\' ∉ name.toList)
    (acts : List Action) (hanchored : ∀ before, before <+: acts →
      Sweep.Anchored ((begin launcher plan files).run launcher before).1.fleet.files plan.storeRoot l) :
    Accounted launcher (begin launcher plan files) plan l name acts
      ((begin launcher plan files).run launcher acts).1 := by
  induction acts using List.reverseRecOn with
  | nil => exact accounted_begin launcher plan hdistinct l name
  | append_singleton acts a ih =>
    have hbefore := ih fun before hearlier => hanchored before (hearlier.trans (List.prefix_append acts [a]))
    rw [run_concat]
    exact hbefore.step hmode hroot (hanchored acts (List.prefix_append acts [a])) hstore hname hplain a

/-! ## What is logged -/

/-- What is logged of a store that could not be removed. -/
def removalFailed (store : String) (f : FileFault) : Effect :=
  .fleet (.log (Sweep.note .warn "cleanup.remove.failed" [("store", .text store), ("error", .text f.message)]))

theorem removalFailed_mem_keeps (sweep : Sweep) (store : String) (rest : List String) (f : FileFault) :
    removalFailed store f ∈ logged (sweep.keeps store rest f).2 :=
  List.mem_map_of_mem List.mem_cons_self

/-- Every store whose removal has failed has been logged as such. -/
theorem failed_logged (acts : List Action) : ∀ store ∈ (start.run launcher acts).1.sweep.failed,
    store ∈ start.sweep.failed ∨ ∃ f, removalFailed store f ∈ (start.run launcher acts).2 := by
  induction acts using List.reverseRecOn with
  | nil => exact fun store hstore => .inl hstore
  | append_singleton acts a ih =>
    intro store hstore
    have hmove := move_step launcher (start.run launcher acts).1 a
    rw [run_concat] at hstore ⊢
    dsimp only at hstore ⊢
    generalize ((start.run launcher acts).1.step launcher a).1 = s' at hmove hstore
    generalize ((start.run launcher acts).1.step launcher a).2 = effects at hmove ⊢
    have hkept : store ∈ (start.run launcher acts).1.sweep.failed → store ∈ start.sweep.failed
        ∨ ∃ f, removalFailed store f ∈ (start.run launcher acts).2 ++ effects := fun hold =>
      (ih store hold).imp_right fun ⟨f, hf⟩ => ⟨f, List.mem_append_left effects hf⟩
    cases hmove with
    | goesOn hother hbuilds hsweep => exact hkept (hsweep ▸ hstore)
    | ends hdone hfleet hsweep => exact hkept (hsweep ▸ hstore)
    | begins hother hidle hbuilds hsweep =>
      rw [hsweep, sweepBegun] at hstore
      split at hstore <;> exact hkept hstore
    | sweeps fault hmove =>
      cases hmove with
      | rests => exact hkept hstore
      | givesUp => exact hkept hstore
      | lists => exact hkept (by simpa using hstore)
      | drops => exact hkept (by simpa [Sweep.drops] using hstore)
      | @keeps kept rest hphase f =>
        simp only [Sweep.keeps, Sweep.failed_goOn, List.mem_append, List.mem_singleton] at hstore
        rcases hstore with hold | rfl
        · exact hkept hold
        · exact .inr ⟨f, List.mem_append_right _ (removalFailed_mem_keeps _ store rest f)⟩

end Supervision

/-! ## The settings of a run -/

theorem RunSettings.build_of_load {places : Places} {env : Value} {jobs : Option Binary64}
    {workersFile : Option String} {parallelism : Binary64} {run : RunSettings}
    (h : RunSettings.load places env jobs workersFile parallelism = .ok run) :
    ∃ e count, run = RunSettings.load.build places workersFile e count := by
  unfold RunSettings.load at h
  split at h
  · cases h
  next e he =>
    split at h
    next n =>
      split at h
      · exact ⟨e, n, (Except.ok.inj h).symm⟩
      · cases h
    next => exact ⟨e, _, (Except.ok.inj h).symm⟩

/-- The root of the stores is an absolute path of plain names. -/
theorem RunSettings.storeRoot_of_load {places : Places} {env : Value} {jobs : Option Binary64}
    {workersFile : Option String} {parallelism : Binary64} {run : RunSettings}
    (h : RunSettings.load places env jobs workersFile parallelism = .ok run) :
    ∃ ps, (∀ part ∈ ps, Path.IsName part) ∧ run.storeRoot = Path.ofParts ps := by
  obtain ⟨e, count, rfl⟩ := RunSettings.build_of_load h
  exact Path.resolve_eq_ofParts places.work (e.storeRoot.getD places.temporary)

/-- The path of the marker is an absolute one of plain names. -/
theorem RunSettings.workersFile_of_load {places : Places} {env : Value} {jobs : Option Binary64}
    {workersFile : Option String} {parallelism : Binary64} {run : RunSettings}
    (h : RunSettings.load places env jobs workersFile parallelism = .ok run) :
    ∃ ws, (∀ part ∈ ws, Path.IsName part) ∧ run.workersFile = Path.ofParts ws := by
  obtain ⟨e, count, rfl⟩ := RunSettings.build_of_load h
  exact Path.resolve_eq_ofParts places.work (workersFile.getD defaultWorkersFile)

namespace Supervision

open Fleet (allBut twoFiles)

/-! ## One worker -/

/-- Variables that ask for workers without a server, with the stores below a root. -/
def workersVariables (root : String) : Value :=
  .record [("SPAWN_SERVER", .text "false"), ("HARNESS_STORE_ROOT", .text root)]

/-- The settings of one worker with its store below a root. -/
def oneWorker (root : String) : RunSettings :=
  { workerCount := 1
    spawnServer := false
    spawnWorkers := true
    serverAddr := "127.0.0.1:27183"
    serverArgs := ""
    workerArgs := ""
    logLevel := .info
    unrecognizedLogLevel := none
    toolsBin := "judge-tools"
    shell := "/bin/bash"
    storeRoot := root
    workersFile := "/m" }

/-- The plan for one worker, before anything has happened. -/
def forOneWorker (root : String) : Supervision :=
  begin (allBut 0) ((oneWorker root).plan (.delay 2000) "a") {}

/-- The variables as they are read. -/
def workersEnvironment (root : String) : Environment :=
  { serverArgs := ""
    workerArgs := ""
    serverAddr := "127.0.0.1:27183"
    spawnServer := false
    spawnWorkers := true
    logLevel := "info"
    toolsBin := "judge-tools"
    shell := "/bin/bash"
    storeRoot := some root }

theorem load_of_read {root : String} (hread : Environment.read (workersVariables root) = .ok (workersEnvironment root))
    (hresolved : Path.resolve "/work" root = root) {jobs : Binary64} (hjobs : isJobCount jobs = true) :
    RunSettings.load {} (workersVariables root) (some jobs) (some "/m") 8
      = .ok { oneWorker root with workerCount := jobs } := by
  have hmarker : Path.resolve "/work" "/m" = "/m" := by decide +kernel
  have hlevel : runLevel "info" = (.info, none) := by decide +kernel
  simp only [RunSettings.load, hread, hjobs, if_true, RunSettings.load.build, workersEnvironment, hlevel, hmarker,
    hresolved, oneWorker, Option.getD_some]

theorem load_oneWorker {root : String} (hroot : root = "/" ∨ root = "/x\\y") :
    RunSettings.load {} (workersVariables root) (some 1) (some "/m") 8 = .ok (oneWorker root) := by
  refine load_of_read ?_ ?_ ?_
  · rcases hroot with rfl | rfl <;> decide +kernel
  · rcases hroot with rfl | rfl <;> decide +kernel
  · decide +kernel

theorem writeText_marker {t : FileTree} (content : String) :
    (t.at? ["m"] = none → t.writeText [] "/m" content
        = ((t.put ["m"] (.file "")).put ["m"] (.file content), .ok ()))
      ∧ ∀ old, t.at? ["m"] = some (.file old) → t.writeText [] "/m" content
        = (t.put ["m"] (.file content), .ok ()) := by
  have hdirectory : t.makeDirectories [] (Path.directory "/m") = .ok t := by rfl
  have hslash : ("/m".toList.getLast? = some '/') = False := by decide
  have hlocate : (∀ target, t.at? ["m"] ≠ some (.link target)) → t.locate [] "/m" = .ok ["m"] :=
    FileTree.locate_top (by decide) (by decide) (by decide +kernel) (by decide) (by decide)
  constructor
  · intro hnone
    have hlocate := hlocate (by simp [hnone])
    simp [FileTree.writeText, hdirectory, FileTree.openFile, hlocate, hnone, FileTree.write, FileTree.at?_put]
  · intro old hold
    have hlocate := hlocate (by simp [hold])
    simp [FileTree.writeText, hdirectory, FileTree.openFile, hlocate, hold, FileTree.write]

/-- The supervision when the marker has been reset. -/
def markedFor (root : String) : Supervision :=
  let s := forOneWorker root
  { s with fleet := { s.fleet with files := twoFiles "0" [], phase := .allocate [] } }

theorem step_forOneWorker (root : String) :
    ((forOneWorker root).step (allBut 0) (.fleet (.file none))).1 = markedFor root := by
  have hzero : (0 : Binary64).text = "0" := by decide +kernel
  have hphase : (forOneWorker root).fleet.phase = .resetMarker := rfl
  have hmarker : (forOneWorker root).fleet.plan.workersFile = "/m" := rfl
  have hfiles : (forOneWorker root).fleet.files = {} := rfl
  simp only [step, inFleet, Fleet.step, Fleet.fileStep, hphase, Fleet.writeMarker, hzero, hmarker, hfiles,
    (@writeText_marker {} _).1 rfl]
  rfl

/-! ## A store that is made too late -/

/-- A signal comes before the store has been made, and the sweep is over before that. -/
def lateStore : List Action :=
  [.fleet (.file none), .signal "SIGTERM", .sweep none, .fleet (.file none), .swept, .exit,
    .fleet (.file none), .fleet (.exited (.worker 1) 143), .fleet .gather, .runEnds, .settle]

/-- The supervision when the sweep has found no store. -/
def sweptEarly : Supervision :=
  let s := forOneWorker "/"
  { s with
    fleet := { s.fleet with files := twoFiles "0" [], phase := .allocate [], stopped := true }
    scope := { s.scope with reason := some "SIGTERM", cleanup := .running }
    sweep := { root := "/", phase := .done } }

/-- The supervision after the exit, when the store has been made. -/
def storedLate : Supervision :=
  { sweptEarly with
    fleet := { sweptEarly.fleet with
      files := twoFiles "0" ["harness-worker.a-01"]
      phase := .publishMarker
      stores := ["/harness-worker.a-01"] }
    scope := { sweptEarly.scope with attached := false, cleanup := .finished, exited := true } }

/-- The supervision after the exit, when the worker has been started. -/
def startedLate : Supervision :=
  { storedLate with
    fleet := { storedLate.fleet with
      files := twoFiles "1" ["harness-worker.a-01"]
      phase := .working
      children := [{ role := .worker 1 }]
      starts := 1 } }

theorem storesBelow_twoFiles : Sweep.storesBelow (twoFiles "0" []) "/" = .ok [] := by
  have hplace : Listing.place [] "/" = "/" := by decide +kernel
  have hmarker : Stores.isStoreName (Listing.key "m") = false := by decide
  have hnames : (twoFiles "0" []).names [] = ["m"] := rfl
  rw [Sweep.storesBelow_eq ⟨hplace.symm ▸ FileTree.locate_root _, rfl⟩ (hnames ▸ List.pairwise_singleton _ _), hnames]
  simp [Listing.matched, List.filter_filter, hmarker, Listing.firsts, Text.sortByUnits]

/-- Below the root of all files the stores are anchored as long as their names are plain. -/
theorem anchored_root {files : FileTree} (hplain : ∀ name ∈ files.names [], '/' ∉ name.toList ∧ '\\' ∉ name.toList) :
    Sweep.Anchored files "/" [] := by
  refine ⟨fun m hm => ?_, fun _ _ _ => ⟨FileTree.locate_root files, rfl⟩, fun name hname hstore => ?_⟩
  · rw [FileTree.locate_root] at hm
    exact (Except.ok.inj hm).symm
  · obtain ⟨hslash, hbackslash⟩ := hplain name hname
    rw [Listing.key_of_plain hbackslash] at hstore
    exact ⟨hstore, Stores.isName_of_isStoreName hstore hslash, hbackslash⟩

theorem anchored_twoFiles (count : String) {stores : List String}
    (hstores : ∀ store ∈ stores, '/' ∉ store.toList ∧ '\\' ∉ store.toList) :
    Sweep.Anchored (twoFiles count stores) "/" [] := by
  have hnames : (twoFiles count stores).names [] = "m" :: stores := by
    simp [FileTree.names, twoFiles, List.filterMap_map, Function.comp_def]
  apply anchored_root
  intro name hname
  rw [hnames, List.mem_cons] at hname
  rcases hname with rfl | hname
  · decide
  · exact hstores name hname

/-- The steps of the run up to the listing of the root, which finds no store, and from the exit to the start of
the worker. -/
theorem steps_lateStore :
    ((markedFor "/").step (allBut 0) (.signal "SIGTERM")).1
        = { sweptEarly with sweep := { root := "/", phase := .scanning } }
      ∧ (Supervision.step (allBut 0) { sweptEarly with sweep := { root := "/", phase := .scanning } }
          (.sweep none)).1 = sweptEarly
      ∧ (sweptEarly.run (allBut 0) [.fleet (.file none), .swept, .exit]).1 = storedLate
      ∧ (storedLate.step (allBut 0) (.fleet (.file none))).1 = startedLate := by
  refine ⟨rfl, ?_, rfl, ?_⟩
  · have hfiles : sweptEarly.fleet.files = twoFiles "0" [] := rfl
    simp only [step, Sweep.step, Option.elim, hfiles, storesBelow_twoFiles]
    rfl
  · have hone : storedLate.fleet.plan.workerCount.text = "1" := by decide +kernel
    have hphase : storedLate.fleet.phase = .publishMarker := rfl
    have hmarker : storedLate.fleet.plan.workersFile = "/m" := rfl
    have hfiles : storedLate.fleet.files = twoFiles "0" ["harness-worker.a-01"] := rfl
    simp only [step, inFleet, Fleet.step, Fleet.fileStep, hphase, Fleet.writeMarker, hone, hmarker, hfiles,
      (@writeText_marker (twoFiles "0" ["harness-worker.a-01"]) _).2 _ rfl]
    rfl

theorem anchored_lateStore : ∀ before, before <+: lateStore →
    Sweep.Anchored ((forOneWorker "/").run (allBut 0) before).1.fleet.files "/" [] := by
  obtain ⟨hsignal, hswept, hstored, hstarted⟩ := steps_lateStore
  have hempty : Sweep.Anchored {} "/" [] := anchored_root nofun
  have hnone := @anchored_twoFiles "0" [] nofun
  have hmade : ∀ count, Sweep.Anchored (twoFiles count ["harness-worker.a-01"]) "/" [] := fun count =>
    anchored_twoFiles count (by decide)
  simp only [run_cons, run_nil] at hstored
  simp only [lateStore, forall_run_cons _ _ _ _ fun s => Sweep.Anchored s.fleet.files "/" [],
    step_forOneWorker, hsignal, hswept, hstored, hstarted]
  refine ⟨hempty, hnone, hnone, hnone, hmade "0", hmade "0", hmade "0", hmade "1", hmade "1", hmade "1", hmade "1",
    ?_⟩
  intro before hbefore
  rw [List.prefix_nil.mp hbefore]
  exact hmade "1"

/-! ## A root with a backslash -/

/-- A signal comes while the worker runs. -/
def strayRemoval : List Action :=
  [.fleet (.file none), .fleet (.file none), .fleet (.file none), .signal "SIGTERM", .sweep none, .swept, .exit,
    .fleet (.exited (.worker 1) 143), .fleet .gather, .runEnds, .settle]

/-- The files when the store has been made below a root with a backslash. -/
def strayFiles (count : String) : FileTree :=
  ⟨[(["m"], .file (count ++ "\n")), (["x\\y"], .directory), (["x\\y", "harness-worker.a-01"], .directory)]⟩

/-- The supervision when the store has been made below a root with a backslash. -/
def strayStored : Supervision :=
  let s := forOneWorker "/x\\y"
  { s with
    fleet := { s.fleet with
      files := strayFiles "0"
      phase := .publishMarker
      stores := ["/x\\y/harness-worker.a-01"] } }

/-- The supervision when the worker runs and the signal has come. -/
def strayStopped : Supervision :=
  { strayStored with
    fleet := { strayStored.fleet with
      files := strayFiles "1"
      phase := .working
      children := [{ role := .worker 1 }]
      starts := 1
      stopped := true }
    scope := { strayStored.scope with reason := some "SIGTERM", cleanup := .running }
    sweep := { root := "/x\\y", phase := .scanning } }

/-- The steps of the run up to the signal, and the listing, which finds nothing. -/
theorem steps_strayRemoval :
    ((markedFor "/x\\y").step (allBut 0) (.fleet (.file none))).1 = strayStored
      ∧ (strayStored.run (allBut 0) [.fleet (.file none), .signal "SIGTERM"]).1 = strayStopped
      ∧ (strayStopped.step (allBut 0) (.sweep none)).1
        = { strayStopped with sweep := { root := "/x\\y", phase := .done } } := by
  refine ⟨rfl, ?_, ?_⟩
  · have hone : strayStored.fleet.plan.workerCount.text = "1" := by decide +kernel
    have hphase : strayStored.fleet.phase = .publishMarker := rfl
    have hmarker : strayStored.fleet.plan.workersFile = "/m" := rfl
    have hfiles : strayStored.fleet.files = strayFiles "0" := rfl
    simp only [run_cons, run_nil, step, inFleet, Fleet.step, Fleet.fileStep, hphase, Fleet.writeMarker, hone, hmarker,
      hfiles, (@writeText_marker (strayFiles "0") _).2 _ rfl]
    rfl
  · have hstores : Sweep.storesBelow strayStopped.fleet.files "/x\\y" = .ok [] := Sweep.storesBelow_backslash rfl
    have hsweep : strayStopped.sweep = { root := "/x\\y", phase := .scanning } := rfl
    simp only [step, Sweep.step, Option.elim, hsweep, hstores]
    rfl

/-! ## Stores that are left -/

/-- When a supervision that is not for a shell has exited, a store is left and its removal has not failed just if
it was made after the sweep had listed the root, or the root could not be listed. And what has failed is logged.
This holds of every order in which the steps of the fleet, of the sweep and of the scope may come, as long as no
backslash is in the path of the root, and the names below it that a listing takes for those of stores are plain. -/
theorem store_left_iff {places : Places} {env : Value} {jobs : Option Binary64} {workersFile : Option String}
    {parallelism : Binary64} {run : RunSettings}
    (hload : RunSettings.load places env jobs workersFile parallelism = .ok run)
    (policy : ReadinessPolicy) (suffix : String) (hmode : (run.plan policy suffix).mode ≠ .shell)
    (hplain : '\\' ∉ run.storeRoot.toList) {files : FileTree} (hdistinct : files.Distinct)
    (launcher : Fleet.Launcher) (acts : List Action) {l : Location}
    (hanchored : ∀ before, before <+: acts → Sweep.Anchored
      ((begin launcher (run.plan policy suffix) files).run launcher before).1.fleet.files run.storeRoot l)
    {name : String} (hstore : Stores.isStoreName name = true)
    (hexited : ((begin launcher (run.plan policy suffix) files).run launcher acts).1.scope.exited = true) :
    let start := begin launcher (run.plan policy suffix) files
    let s := (start.run launcher acts).1
    ((s.fleet.files.at? (l ++ [name]) = some .directory ∧ Sweep.listedPath run.storeRoot name ∉ s.sweep.failed)
        ↔ MadeLate launcher start (l ++ [name]) acts
          ∨ GaveUp launcher start acts ∧ s.fleet.files.at? (l ++ [name]) = some .directory)
      ∧ ∀ store ∈ s.sweep.failed, ∃ f, removalFailed store f ∈ (start.run launcher acts).2 := by
  intro start s
  obtain ⟨ps, hps, hspelled⟩ := RunSettings.storeRoot_of_load hload
  have hroot : Sweep.PlainRoot (run.plan policy suffix).storeRoot ps := ⟨hps, hspelled, hplain⟩
  have hphase : s.sweep.phase = .done :=
    ((inOrder_begin launcher (run.plan policy suffix) files).run hmode acts).done hexited
  have hlisted : s.sweep.HasListed := by simp [Sweep.HasListed, hphase]
  have hcharged : s.sweep.charged = s.sweep.failed := by simp [Sweep.charged, Sweep.pending, hphase]
  -- A store that is there at any moment has a plain name, so that its account can be followed.
  have haccounted : ∀ before, before <+: acts →
      (start.run launcher before).1.fleet.files.at? (l ++ [name]) = some .directory →
      Accounted launcher start (run.plan policy suffix) l name acts s := by
    intro before hearlier hdir
    have hname := (hanchored before hearlier).isPlain hstore hdir
    exact accounted_run launcher hmode hroot hdistinct hstore hname.isName hname.plain acts hanchored
  refine ⟨⟨?_, ?_⟩, ?_⟩
  · rintro ⟨hdir, hfree⟩
    rw [← hcharged] at hfree
    rcases (haccounted acts List.prefix_rfl hdir).left hlisted hdir with hmem | hlate | hup
    · exact absurd hmem hfree
    · exact .inl hlate
    · exact .inr ⟨hup, hdir⟩
  · rintro (hlate | ⟨hup, hdir⟩)
    · obtain ⟨before, a, after, hacts, -, -, hdir⟩ := id hlate
      have hearlier : before ++ [a] <+: acts := ⟨after, by simp [hacts]⟩
      obtain ⟨-, hdir, hfree⟩ := (haccounted (before ++ [a]) hearlier hdir).made hlate
      exact ⟨hdir, hcharged ▸ hfree⟩
    · have hnone := ((haccounted acts List.prefix_rfl hdir).gaveUp hup).2
      rw [hcharged] at hnone
      exact ⟨hdir, by rw [hnone]; exact List.not_mem_nil⟩
  · intro store hfailed
    rcases failed_logged acts store hfailed with hold | hlogged
    · cases hold
    · exact hlogged

theorem store_left_after_signal :
    let start := begin (allBut 0) ((oneWorker "/").plan (.delay 2000) "a") {}
    let s := (start.run (allBut 0) lateStore).1
    RunSettings.load {} (workersVariables "/") (some 1) (some "/m") 8 = .ok (oneWorker "/")
      ∧ s.scope.exited = true ∧ s.scope.settled = true
      ∧ s.fleet.files.at? ["harness-worker.a-01"] = some .directory
      ∧ Sweep.listedPath "/" "harness-worker.a-01" ∉ s.sweep.failed
      ∧ ∀ store ∈ s.sweep.failed, ∃ f, removalFailed store f ∈ (start.run (allBut 0) lateStore).2 := by
  obtain ⟨hsignal, hswept, hstored, hstarted⟩ := steps_lateStore
  simp only [run_cons, run_nil] at hstored
  have hbegin : begin (allBut 0) ((oneWorker "/").plan (.delay 2000) "a") {} = forOneWorker "/" := rfl
  have hload := @load_oneWorker "/" (.inl rfl)
  have hanchored := anchored_lateStore
  have hbefore : ((forOneWorker "/").run (allBut 0) (lateStore.take 3)).1 = sweptEarly := by
    simp only [lateStore, List.take, run_cons, run_nil, step_forOneWorker, hsignal, hswept]
  have hend : ((forOneWorker "/").run (allBut 0) lateStore).1 = (startedLate.run (allBut 0) (lateStore.drop 7)).1 := by
    simp only [lateStore, run_cons, step_forOneWorker, hsignal, hswept, hstored, hstarted, List.drop]
  have hlate : MadeLate (allBut 0) (forOneWorker "/") ["harness-worker.a-01"] lateStore := by
    refine ⟨lateStore.take 3, .fleet (.file none), lateStore.drop 4, rfl, ?_⟩
    dsimp only
    rw [run_concat, hbefore]
    exact ⟨⟨nofun, nofun⟩, rfl, rfl⟩
  have hexited : ((forOneWorker "/").run (allBut 0) lateStore).1.scope.exited = true := by
    rw [hend]
    rfl
  have hsettled : ((forOneWorker "/").run (allBut 0) lateStore).1.scope.settled = true := by
    rw [hend]
    rfl
  have hmode : ((oneWorker "/").plan (.delay 2000) "a").mode ≠ .shell := by decide
  have hplain : '\\' ∉ (oneWorker "/").storeRoot.toList := by decide
  have hname : Stores.isStoreName "harness-worker.a-01" = true := by decide
  rw [← hbegin] at hanchored hlate hexited hsettled
  obtain ⟨hleft, hlogged⟩ := @store_left_iff {} (workersVariables "/") (some 1) (some "/m") 8 (oneWorker "/") hload
    (.delay 2000) "a" hmode hplain {} List.Pairwise.nil (allBut 0) lateStore [] hanchored
    "harness-worker.a-01" hname hexited
  obtain ⟨hdir, hfree⟩ := hleft.mpr (.inl hlate)
  exact ⟨hload, hexited, hsettled, hdir, hfree, hlogged⟩

/-- Below a root with a backslash a store is left: the listing walks another place, so that nothing is found and
nothing fails. -/
theorem store_left_below_backslash :
    let start := begin (allBut 0) ((oneWorker "/x\\y").plan (.delay 2000) "a") {}
    let s := (start.run (allBut 0) strayRemoval).1
    RunSettings.load {} (workersVariables "/x\\y") (some 1) (some "/m") 8 = .ok (oneWorker "/x\\y")
      ∧ s.scope.exited = true ∧ s.scope.settled = true ∧ s.sweep.removed = [] ∧ s.sweep.failed = []
      ∧ start.fleet.files.at? ["x\\y", "harness-worker.a-01"] = none
      ∧ s.fleet.files.at? ["x\\y", "harness-worker.a-01"] = some .directory := by
  obtain ⟨hstored, hstopped, hswept⟩ := steps_strayRemoval
  have hbegin : begin (allBut 0) ((oneWorker "/x\\y").plan (.delay 2000) "a") {} = forOneWorker "/x\\y" := rfl
  have hload := @load_oneWorker "/x\\y" (.inr rfl)
  simp only [run_cons, run_nil] at hstopped
  simp only [hbegin, strayRemoval, run_cons, step_forOneWorker, hstored, hstopped, hswept]
  exact ⟨hload, rfl, rfl, rfl, rfl, rfl, rfl⟩

end Supervision

end Bailiff
