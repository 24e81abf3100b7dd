-- SUMMARY: The stores of the workers: which ones a run has made when its workers may be started.
import Bailiff.Proofs.Fleet.Preparation

/-!
# Stores of workers

A run makes the stores of its workers one after another, and goes on when there are as many as its plan has
workers. So when the workers are waited for, or wait for the server, there is one store for each of them, in order
(`Fleet.Stocked`). Every step keeps this, and only operations on the files make stores (`Fleet.idles_step`).
-/

namespace Bailiff

/-- Workers are to be started. -/
def FleetPlan.HasWorkers (plan : FleetPlan) : Prop := plan.mode = .workersOnly ∨ plan.mode = .serverAndWorkers

namespace Fleet

variable {launcher : Launcher} {f g : Fleet} {plan : FleetPlan} {stores : List String}

/-! ## Steps that make no store -/

/-- No stores are made, and neither do the workers begin to wait nor is it them that the run begins to wait for. -/
structure Idles (f g : Fleet) : Prop where
  stores : g.stores = f.stores
  side : g.side ≠ .idle → f.side ≠ .idle
  working : g.phase = .working → f.phase = .working

theorem idles_refl (f : Fleet) : f.Idles f := ⟨rfl, id, id⟩

theorem idles_settled (f : Fleet) (r : RunResult) : f.Idles { f with phase := .settled r } := ⟨rfl, id, nofun⟩

theorem idles_serverEnds (f : Fleet) (r : RunResult) : f.Idles (f.serverEnds r).1 := by
  unfold Fleet.serverEnds
  split <;> exact ⟨rfl, id, nofun⟩

theorem idles_fileFails (f : Fleet) (fault : FileFault) : f.Idles (f.fileFails fault).1 := by
  unfold Fleet.fileFails
  split
  · exact idles_serverEnds f _
  · exact idles_serverEnds f _
  · split
    · exact idles_settled f _
    · exact idles_refl f

theorem idles_concludes (f : Fleet) : f.Idles f.concludes.1 := by
  unfold Fleet.concludes
  split
  · split
    · exact idles_serverEnds f _
    · exact idles_serverEnds f _
    · exact idles_refl f
  · split
    · exact idles_settled f _
    · split <;> exact idles_settled f _
    · exact idles_refl f
  · exact idles_refl f

theorem idles_gathers (f : Fleet) : f.Idles f.gathers.1 := by
  have hasked : f.terminateWorkers.1.stores = f.stores ∧ f.terminateWorkers.1.side = f.side
      ∧ f.terminateWorkers.1.phase = f.phase := by
    rw [terminateWorkers_eq]
    exact ⟨rfl, rfl, rfl⟩
  unfold Fleet.gathers
  split
  case h_1 =>
    rw [if_pos rfl]
    split
    · exact ⟨hasked.1, hasked.2.1 ▸ id, nofun⟩
    · split
      · exact idles_settled f _
      · exact idles_refl f
  case h_2 =>
    rw [if_neg Bool.false_ne_true]
    split
    next hside =>
      have hbegun : f.side ≠ .idle := by simp [hside]
      split
      · exact ⟨hasked.1, fun _ => hbegun, hasked.2.2.symm.trans⟩
      · split
        · exact ⟨rfl, fun _ => hbegun, id⟩
        · exact idles_refl f
    · exact idles_refl f

theorem idles_becomesReady (hside : f.side = .waiting) (launcher : Launcher) (answer : Except Failure Bool) :
    f.Idles (f.becomesReady launcher answer).1 := by
  have hbegun : f.side ≠ .idle := by simp [hside]
  obtain ⟨count, starts, effects, launched, heq, -⟩ := launchWorkers_eq launcher f
  unfold Fleet.becomesReady
  split
  · exact ⟨rfl, fun _ => hbegun, id⟩
  · exact ⟨rfl, fun _ => hbegun, id⟩
  · rw [heq]
    cases launched <;> exact ⟨rfl, fun _ => hbegun, id⟩

/-- Only an operation on the files makes stores. -/
theorem idles_step (launcher : Launcher) (f : Fleet) {a : Action} (ha : a ≠ .file none) :
    f.Idles (f.step launcher a).1 := by
  cases a with
  | file fault =>
    cases fault with
    | none => exact absurd rfl ha
    | some fault => exact idles_fileFails f fault
  | ready answer =>
    simp only [Fleet.step]
    split
    next hdue => exact idles_becomesReady hdue.1 launcher answer
    · exact idles_refl f
  | windowOver =>
    simp only [Fleet.step]
    split
    · split
      · exact idles_refl f
      · rw [dismissWorkers_eq]
        exact ⟨rfl, id, fun hworking => by cases hworking⟩
    · exact idles_refl f
  | conclude => exact idles_concludes f
  | gather => exact idles_gathers f
  | cancel =>
    simp only [Fleet.step]
    split
    next hdue => exact ⟨rfl, fun _ => by simp [waiting_of_cancelDue hdue], id⟩
    · exact idles_refl f
  | join =>
    simp only [Fleet.step]
    split
    · split
      · exact idles_settled f _
      · exact idles_refl f
    · exact idles_refl f
  | exited | failed | stop => exact ⟨rfl, id, id⟩

/-! ## Stores in order -/

/-- The paths of the first stores of a plan. -/
def firstStores (plan : FleetPlan) (count : Nat) : List String := (List.range count).map (storePath plan)

theorem length_firstStores (plan : FleetPlan) (count : Nat) : (firstStores plan count).length = count := by
  rw [firstStores, List.length_map, List.length_range]

theorem firstStores_concat (h : stores = firstStores plan stores.length) :
    stores ++ [storePath plan stores.length]
      = firstStores plan (stores ++ [storePath plan stores.length]).length := by
  rw [List.length_append, List.length_singleton, firstStores, List.range_succ, List.map_append]
  exact congrArg (· ++ _) h

/-- The stores that have been made are the first ones of the plan, and when workers may be started there is one for
each of them. -/
structure Stocked (f : Fleet) : Prop where
  preparing : f.phase.isPreparing = true → f.side = .idle
  allocating : ∀ done, f.phase = .allocate done →
    done = firstStores f.plan done.length ∧ done.length < storeCount f.plan.workerCount
  full : f.phase = .publishMarker ∨ f.side ≠ .idle ∨ f.phase = .working →
    f.stores = firstStores f.plan (storeCount f.plan.workerCount)

theorem stocked_start (plan : FleetPlan) (files : FileTree) : Stocked { plan, files } := by
  refine ⟨fun _ => rfl, fun _ => nofun, ?_⟩
  rintro (h | h | h)
  · cases h
  · exact absurd rfl h
  · cases h

/-- What makes no stores keeps them in order, if it does not begin to make them again. -/
theorem Stocked.idles (h : f.Stocked) (hidles : f.Idles g) (hplan : g.plan = f.plan)
    (hphase : g.phase = f.phase ∨ g.phase.isPreparing = false) : g.Stocked := by
  have hkept : ∀ phase, g.phase = phase → phase.isPreparing = true → f.phase = phase := by
    intro phase hg hpreparing
    rcases hphase with hsame | hpast
    · exact hsame.symm.trans hg
    · rw [hg, hpreparing] at hpast
      cases hpast
  refine ⟨fun hpreparing => ?_, fun done hdone => ?_, ?_⟩
  · have hidle : f.side = .idle := h.preparing (hkept _ rfl hpreparing ▸ hpreparing)
    exact Decidable.byContradiction fun hside => hidles.side hside hidle
  · rw [hplan]
    exact h.allocating done (hkept _ hdone rfl)
  · rw [hidles.stores, hplan]
    rintro (hpublish | hside | hworking)
    · exact h.full (.inl (hkept _ hpublish rfl))
    · exact h.full (.inr (.inl (hidles.side hside)))
    · exact h.full (.inr (.inr (hidles.working hworking)))

theorem stocked_allocated (hside : f.side = .idle) {done : List String} (hpaths : done = firstStores f.plan done.length)
    (hlength : done.length ≤ storeCount f.plan.workerCount) : (f.allocated done).1.Stocked := by
  unfold Fleet.allocated
  split
  next hless =>
    refine ⟨fun _ => hside, fun made heq => ?_, ?_⟩
    · cases heq
      exact ⟨hpaths, hless⟩
    · rintro (h | h | h)
      · cases h
      · exact absurd hside h
      · cases h
  next hmore =>
    refine ⟨fun _ => hside, fun _ => nofun, fun _ => ?_⟩
    rw [Nat.le_antisymm hlength (Nat.not_lt.mp hmore)] at hpaths
    exact hpaths

theorem stocked_enterMode (hside : f.side = .idle)
    (hfull : f.plan.HasWorkers → f.stores = firstStores f.plan (storeCount f.plan.workerCount)) (launcher : Launcher) :
    (f.enterMode launcher).1.Stocked := by
  obtain ⟨count, starts, effects, answer, hlaunch, -⟩ := launchWorkers_eq launcher f
  have hnone : ∀ phase : Phase, (phase = .publishMarker ∨ f.side ≠ .idle ∨ phase = .working) →
      phase.isPreparing = false → phase = .working := by
    rintro phase (rfl | hbegun | rfl) hpast
    · cases hpast
    · exact absurd hside hbegun
    · rfl
  unfold Fleet.enterMode
  split
  next hmode =>
    rw [hlaunch]
    cases answer <;> exact ⟨nofun, fun _ => nofun, fun _ => hfull (.inl hmode)⟩
  · exact ⟨nofun, fun _ => nofun, fun h => nomatch hnone .makeRoot h rfl⟩
  next hmode => exact ⟨nofun, fun _ => nofun, fun _ => hfull (.inr hmode)⟩
  · dsimp only
    split
    · exact ⟨nofun, fun _ => nofun, fun h => nomatch hnone .inShell h rfl⟩
    · exact ⟨nofun, fun _ => nofun, fun h => nomatch hnone (.settled _) h rfl⟩

/-! ## Every step -/

theorem plan_step (launcher : Launcher) (f : Fleet) (a : Action) : (f.step launcher a).1.plan = f.plan :=
  (builds_step launcher f a).plan

theorem plan_run (launcher : Launcher) (f : Fleet) (hs : List Happening) : (f.run launcher hs).plan = f.plan := by
  induction hs generalizing f with
  | nil => rfl
  | cons what rest ih =>
    rw [run_cons, ih]
    cases what with
    | act a => exact plan_step launcher f a
    | files t => rfl

theorem isPreparing_of_hasFileStep (h : f.hasFileStep = false) : f.phase.isPreparing = false := by
  unfold hasFileStep at h
  unfold Phase.isPreparing
  split at h <;> simp_all

/-- The server's part of a run ends, or its store is made. -/
theorem Stocked.leaves (h : f.Stocked) (hpast : g.phase.isPreparing = false) (hworking : g.phase ≠ .working)
    (hplan : g.plan = f.plan) (hstores : g.stores = f.stores) (hside : g.side = f.side) : g.Stocked :=
  h.idles ⟨hstores, hside ▸ id, fun heq => absurd heq hworking⟩ hplan (.inr hpast)

theorem Stocked.serverEnds (h : f.Stocked) (r : RunResult) : (f.serverEnds r).1.Stocked := by
  unfold Fleet.serverEnds
  split <;> exact h.leaves rfl nofun rfl rfl rfl

theorem Stocked.startServer (h : f.Stocked) (launcher : Launcher) (store : String) :
    (f.startServer launcher store).1.Stocked := by
  unfold Fleet.startServer
  split
  next l failure heq =>
    exact Stocked.serverEnds (f := f.took l) ⟨h.preparing, h.allocating, h.full⟩ (.error failure)
  next => exact h.leaves rfl nofun rfl rfl rfl

theorem Stocked.fileStep (h : f.Stocked) (launcher : Launcher) : (f.fileStep launcher).1.Stocked := by
  unfold Fleet.fileStep
  split
  next hphase =>
    have hside : f.side = .idle := h.preparing (by rw [hphase]; rfl)
    obtain ⟨files, answer, hwrite⟩ := f.writeMarker_eq 0
    rw [hwrite]
    cases answer with
    | error fault => exact h.leaves rfl nofun rfl rfl rfl
    | ok =>
      dsimp only
      split
      · exact stocked_allocated (f := { f with files }) hside rfl (Nat.zero_le _)
      next hnone =>
        exact stocked_enterMode (f := { f with files }) hside (fun hworkers => absurd hworkers hnone) launcher
  next done hphase =>
    have hside : f.side = .idle := h.preparing (by rw [hphase]; rfl)
    obtain ⟨hpaths, hless⟩ := h.allocating done hphase
    dsimp only
    split
    · exact h.leaves rfl nofun rfl rfl rfl
    next files hmade =>
      refine stocked_allocated (f := { f with files }) hside (firstStores_concat hpaths) ?_
      rw [List.length_append]
      exact hless
  next hphase =>
    have hside : f.side = .idle := h.preparing (by rw [hphase]; rfl)
    obtain ⟨files, answer, hwrite⟩ := f.writeMarker_eq f.plan.workerCount
    rw [hwrite]
    cases answer with
    | error fault => exact h.leaves rfl nofun rfl rfl rfl
    | ok => exact stocked_enterMode (f := { f with files }) hside (fun _ => h.full (.inl hphase)) launcher
  next hphase =>
    split
    · exact h.serverEnds _
    · exact h.leaves rfl nofun rfl rfl rfl
  next hphase =>
    dsimp only
    split
    · exact Stocked.serverEnds (f := { f with temporaries := f.temporaries + 1 })
        ⟨h.preparing, h.allocating, h.full⟩ _
    next files store hmade =>
      exact Stocked.startServer (f := { f with files, temporaries := f.temporaries + 1 })
        ⟨h.preparing, h.allocating, h.full⟩ launcher store
  · exact h

/-- Every step keeps the stores in order. -/
theorem Stocked.step (h : f.Stocked) (launcher : Launcher) (a : Action) : (f.step launcher a).1.Stocked := by
  by_cases ha : a = .file none
  · subst ha
    exact h.fileStep launcher
  · have hrests := rests_step launcher f (a := a) fun fault heq hnone => ha (heq.trans (hnone ▸ rfl))
    exact h.idles (idles_step launcher f ha) (plan_step launcher f a)
      (hrests.2.imp_right isPreparing_of_hasFileStep)

/-- When the workers are waited for, or wait for the server, there is one store for each of them, in order. -/
theorem stocked_run (launcher : Launcher) (plan : FleetPlan) (files : FileTree) (hs : List Happening) :
    (Fleet.run launcher { plan, files } hs).Stocked := by
  suffices ∀ f : Fleet, f.Stocked → (f.run launcher hs).Stocked from this _ (stocked_start plan files)
  induction hs with
  | nil => exact fun _ => id
  | cons what rest ih =>
    intro f h
    refine ih _ ?_
    cases what with
    | act a => exact h.step launcher a
    | files t => exact ⟨h.preparing, h.allocating, h.full⟩

end Fleet

end Bailiff
