-- SUMMARY: Batches that take turns on one store: each goes on as if alone in its session, and first results stay.
import Bailiff.Proofs.Batch.Turns
import Mathlib.Logic.Function.Basic

/-!
# Batches that share a store

Any number of batches run on one store. They take turns in any order, so between two turns of one batch the others
may do as they like (`Batches.run`). Of the rows that they offer, the first of each task is kept
(`Batches.results_run`). A batch whose session no other has cannot tell that it is not alone (`Batches.run_alike`).
-/

namespace Bailiff

open Batch (Attempt Turn told keepFirst IsConflict)

/-- Batches over one store. -/
structure Batches (ι : Type) where
  store : Store
  batch : ι → Batch

namespace Batches

variable {ι : Type} [DecidableEq ι]

def start (store : Store) (plan : ι → BatchPlan) (tasks : ι → List String) : Batches ι :=
  { store, batch := fun i => Batch.start (plan i) (tasks i) }

/-- One of the batches takes a turn. -/
def take (d : Batches ι) (i : ι) (t : Turn) : Batches ι :=
  { store := ((d.batch i).turn d.store t).1
    batch := Function.update d.batch i ((d.batch i).turn d.store t).2 }

def run (d : Batches ι) (turns : List (ι × Turn)) : Batches ι := turns.foldl (fun d p => d.take p.1 p.2) d

/-- The turns of one batch. -/
def own (i : ι) (turns : List (ι × Turn)) : List Turn :=
  turns.filterMap fun p => if p.1 = i then some p.2 else none

/-- The attempts that end in the course of turns, with their batches. -/
def attempts (d : Batches ι) : List (ι × Turn) → List (ι × Attempt)
  | [] => []
  | (i, t) :: rest => ((d.batch i).attempt? t).toList.map (i, ·) ++ (d.take i t).attempts rest

variable {d : Batches ι} {plan : ι → BatchPlan} {known : ι → Option Session}

/-- The rows that attempts offer to the sessions of their batches. -/
def offered (plan : ι → BatchPlan) (known : ι → Option Session) (attempts : List (ι × Attempt)) : List ResultRow :=
  attempts.filterMap fun p => p.2.row? (plan p.1).session (known p.1)

/-- The batches have their plans, and the store serves their sessions. -/
structure Served (d : Batches ι) (plan : ι → BatchPlan) (known : ι → Option Session) : Prop where
  plan_eq : ∀ i, (d.batch i).plan = plan i
  serves : ∀ i, d.store.Serves (plan i).session (known i)

theorem run_cons (d : Batches ι) (i : ι) (t : Turn) (rest : List (ι × Turn)) :
    d.run ((i, t) :: rest) = (d.take i t).run rest := rfl

theorem Served.take (h : d.Served plan known) (i : ι) (t : Turn) : (d.take i t).Served plan known := by
  refine ⟨?_, fun j => Batch.serves_turn (h.serves j) _ t⟩
  intro j
  by_cases hj : j = i
  · subst hj
    simp [Batches.take, Batch.plan_turn, h.plan_eq]
  · simp [Batches.take, hj, h.plan_eq]

theorem Served.run (h : d.Served plan known) (turns : List (ι × Turn)) : (d.run turns).Served plan known := by
  induction turns generalizing d with
  | nil => exact h
  | cons p rest ih => exact ih (h.take p.1 p.2)

/-- Of the rows that are offered to the store in the course of turns, the first of each task is kept. -/
theorem results_run (h : d.Served plan known) (turns : List (ι × Turn)) :
    (d.run turns).store.db.results = (offered plan known (d.attempts turns)).foldl keepFirst d.store.db.results := by
  induction turns generalizing d with
  | nil => rfl
  | cons p rest ih =>
    obtain ⟨i, t⟩ := p
    have hserves : d.store.Serves (d.batch i).plan.session (known i) := (h.plan_eq i).symm ▸ h.serves i
    have hturn : (d.take i t).store.db.results
        = (offered plan known (((d.batch i).attempt? t).toList.map (i, ·))).foldl keepFirst d.store.db.results := by
      rw [take, Batch.results_turn hserves t, h.plan_eq i]
      cases hattempt : (d.batch i).attempt? t with
      | none => rfl
      | some x => cases hrow : x.row? (plan i).session (known i) <;> simp [offered, hrow]
    rw [run_cons, ih (h.take i t), hturn, ← List.foldl_append, offered, offered, offered, attempts,
      List.filterMap_append]

theorem own_cons_self (i : ι) (t : Turn) (rest : List (ι × Turn)) : own i ((i, t) :: rest) = t :: own i rest := by
  simp [own]

theorem own_cons_other {i j : ι} (hj : j ≠ i) (t : Turn) (rest : List (ι × Turn)) :
    own i ((j, t) :: rest) = own i rest := by
  simp [own, hj]

/-- Whether no session has both numbers. -/
def Apart (x y : Binary64) : Prop := ∀ id, x.toInt? = some id → y.toInt? ≠ some id

/-- A batch leaves the rows of other sessions as they are. -/
theorem told_take_other (h : d.Served plan known) {i j : ι} (hother : Apart (plan j).session (plan i).session)
    (t : Turn) : told (plan i).session (d.take j t).store.db.results = told (plan i).session d.store.db.results := by
  have hserves : d.store.Serves (d.batch j).plan.session (known j) := (h.plan_eq j).symm ▸ h.serves j
  rw [take, Batch.results_turn hserves t]
  cases hattempt : (d.batch j).attempt? t with
  | none => rfl
  | some x =>
    cases hrow : x.row? (d.batch j).plan.session (known j) with
    | none => simp [hrow]
    | some r =>
      obtain ⟨k, hknown, hleaves⟩ := Batch.Attempt.leaves_of_row? hrow
      have hsession : r.session = k.id := congrArg Prod.snd hleaves.key
      have hid := (Database.session?_eq_some ((h.serves j).known.trans hknown)).2
      have hkept := Batch.told_keepFirst_other (hsession ▸ hother k.id hid) d.store.db.results
      simpa [hrow] using hkept

/-- A batch whose session is its own goes on as if it were alone. -/
theorem run_alike (h : d.Served plan known) {i : ι} (hother : ∀ j, j ≠ i → Apart (plan j).session (plan i).session)
    {s : Store} {b : Batch} (hserves : s.Serves (plan i).session (known i)) (halike : (d.batch i).Alike b)
    (htold : told (plan i).session d.store.db.results = told (plan i).session s.db.results)
    {turns : List (ι × Turn)} {alone : List Turn} (hturns : List.Forall₂ Turn.Alike (own i turns) alone) :
    ((d.run turns).batch i).Alike (b.turns s alone).2
      ∧ told (plan i).session (d.run turns).store.db.results
        = told (plan i).session (b.turns s alone).1.db.results := by
  induction turns generalizing d s b alone with
  | nil =>
    cases hturns
    exact ⟨halike, htold⟩
  | cons p rest ih =>
    obtain ⟨j, t⟩ := p
    -- The batch takes the turn, and so does the one that is alone; or another takes it, and neither sees it.
    by_cases hj : j = i
    · subst hj
      rw [own_cons_self] at hturns
      cases hturns with
      | @cons _ t' _ alone ht hturns =>
        have hplan := h.plan_eq j
        rw [← hplan] at htold ⊢
        obtain ⟨halike', htold'⟩ := halike.turn (hplan ▸ h.serves j) (hplan ▸ hserves) htold ht
        have hbatch : (d.take j t).batch j = ((d.batch j).turn d.store t).2 := Function.update_self ..
        rw [hplan] at htold' ⊢
        rw [run_cons, Batch.turns_cons]
        exact ih (h.take j t) (Batch.serves_turn hserves b t') (hbatch ▸ halike') htold' hturns
    · rw [own_cons_other hj] at hturns
      have hbatch : (d.take j t).batch i = d.batch i := Function.update_of_ne (Ne.symm hj) ..
      have hrows := told_take_other h (hother j hj) t
      exact ih (h.take j t) hserves (hbatch.symm ▸ halike) (hrows.trans htold) hturns

/-! ## Three batches -/

/-- A store with two sessions and no results. -/
def twoSessions : Store :=
  { db := ((Database.withTables {}).addSession "1.0.0" (.text "")).addSession "1.0.0" (.text "") }

/-- Two batches share the first session, and one has the second. -/
def threePlans (i : Fin 3) : BatchPlan :=
  { judge := "judge", root := "/t", session := if i = 2 then 2 else 1, judgeDir := "/", workDir := "/" }

/-- All have begun the same task, and two have recorded their outcomes. -/
def twoRecorded : List (Fin 3 × Turn) :=
  [(0, .goOn false 1), (1, .goOn false 1), (2, .goOn false 1), (1, .answer 1 (.ok .killed)),
    (2, .answer 1 (.ok .killed)), (2, .goOn false 1)]

/-! ## Turns on one store -/

/-- Batches take turns on one store in any order. A batch whose session no other has comes to the same result as
alone, and its session tells the same. In any session each task has at most one row, which is the first that was
there or was offered, and no later turn changes it. An outcome for a task that has a result in the meantime is
refused: the batch fails and the store stays as it is. A batch that is alone with its store never fails in that
way or for want of its session, unless the judge threw such a failure. -/
theorem turns_on_one_store {store : Store} (hopen : store.isOpen = true) (hready : store.db.Ready)
    (hunique : (store.db.results.map ResultRow.key).Nodup) (plan : ι → BatchPlan) (tasks : ι → List String)
    (turns : List (ι × Turn)) (hrun : (start store plan tasks).run turns = d) :
    (∀ i alone, (∀ j, j ≠ i → Apart (plan j).session (plan i).session) →
        List.Forall₂ Turn.Alike (own i turns) alone →
        (d.batch i).result? = ((Batch.start (plan i) (tasks i)).turns store alone).2.result?
          ∧ told (plan i).session d.store.db.results
            = told (plan i).session ((Batch.start (plan i) (tasks i)).turns store alone).1.db.results)
      ∧ (d.store.db.results.map ResultRow.key).Nodup
      ∧ (∀ key, d.store.db.results.find? (·.key = key)
          = (store.db.results ++ offered plan (fun i => store.db.session? (plan i).session)
            ((start store plan tasks).attempts turns)).find? (·.key = key))
      ∧ (∀ later, ∃ added, (d.run later).store.db.results = d.store.db.results ++ added)
      ∧ (∀ i task begun duration outcome, (d.batch i).phase = .judging task begun →
          d.store.db.hasResult (plan i).session task = true →
          (d.take i (.answer duration (.ok outcome))).store = d.store
            ∧ ∃ f, ((d.take i (.answer duration (.ok outcome))).batch i).result? = some (.error f)
              ∧ (duration.isNaN = false → outcome.IsRecordable →
                f = Store.alreadyRecorded task (plan i).session.text))
      ∧ ∀ (s : Store) (p : BatchPlan) (tasks : List String) (known : Session) (alone : List Turn) (f : Failure),
          s.db.session? p.session = some known →
          ((Batch.start p tasks).turns s alone).2.result? = some (.error f) → IsConflict f →
          ∃ duration, .answer duration (.error f) ∈ alone := by
  have hstart : (start store plan tasks).Served plan fun i => store.db.session? (plan i).session :=
    ⟨fun _ => rfl, fun _ => ⟨hopen, hready, rfl⟩⟩
  have hserved : d.Served plan _ := hrun ▸ hstart.run turns
  have hresults := results_run hstart turns
  rw [hrun] at hresults
  refine ⟨?_, ?_, ?_, ?_, ?_, ?_⟩
  · intro i alone hother hturns
    have hsame : ((start store plan tasks).batch i).Alike (Batch.start (plan i) (tasks i)) := ⟨rfl, rfl, rfl, .ready⟩
    obtain ⟨halike, htold⟩ := run_alike hstart hother (hstart.serves i) hsame rfl hturns
    rw [hrun] at halike htold
    exact ⟨halike.result?_eq, htold⟩
  · rw [hresults]
    exact Batch.nodup_foldl_keepFirst hunique _
  · intro key
    rw [hresults]
    exact Batch.find?_foldl_keepFirst _ _ key
  · intro later
    rw [results_run hserved later]
    exact Batch.grows_foldl_keepFirst _ _
  · intro i task begun duration outcome hphase hhas
    have hplan := hserved.plan_eq i
    rw [← hplan] at hhas ⊢
    obtain ⟨hstore, f, hfailed, hduplicate⟩ :=
      Batch.turn_refused (hplan ▸ hserved.serves i) hphase hhas duration outcome
    have hbatch : (d.take i (.answer duration (.ok outcome))).batch i
        = ((d.batch i).turn d.store (.answer duration (.ok outcome))).2 := Function.update_self ..
    exact ⟨hstore, f, hbatch ▸ hfailed, hduplicate⟩
  · intro s p tasks known alone f hknown hfailed hconflict
    have hbegun : Batch.Unopposed s (Batch.start p tasks) known [] := ⟨hknown, nofun, nofun⟩
    have hended := hbegun.turns alone
    apply hended.failed f
    · unfold Batch.result? at hfailed
      split at hfailed <;> cases hfailed
      assumption
    · exact hconflict

/-- Two batches share a session and one has its own. The batch that is late in the shared session is refused, and the
one that has its own session comes to the same as alone, at other times. -/
theorem turns_on_one_store_by_three :
    let d := (start twoSessions threePlans fun _ => ["a"]).run twoRecorded
    ((d.take 0 (.answer 1 (.ok .killed))).batch 0).result?
        = some (.error (Store.alreadyRecorded "a" (Binary64.text 1)))
      ∧ (d.take 0 (.answer 1 (.ok .killed))).store = d.store
      ∧ (d.batch 2).result?
        = ((Batch.start (threePlans 2) ["a"]).turns twoSessions
          [.goOn false 2, .answer 3 (.ok .killed), .goOn false 2]).2.result? := by
  intro d
  obtain ⟨halone, -, -, -, hrefused, -⟩ :=
    turns_on_one_store rfl ⟨rfl, rfl⟩ (by decide) threePlans (fun _ => ["a"]) twoRecorded (show _ = d from rfl)
  obtain ⟨hstore, f, hfailed, hduplicate⟩ := hrefused 0 "a" _ 1 .killed rfl rfl
  have hother : ∀ j : Fin 3, j ≠ 2 → Apart (threePlans j).session (threePlans 2).session := by
    intro j hj id hid hid'
    have hone : (threePlans j).session = 1 := if_neg hj
    rw [hone] at hid
    exact absurd (hid.trans hid'.symm) (by decide)
  have htimes : List.Forall₂ Turn.Alike (own 2 twoRecorded)
      [.goOn false 2, .answer 3 (.ok .killed), .goOn false 2] :=
    .cons (.goOn false rfl) (.cons (.answer _ rfl) (.cons (.goOn false rfl) .nil))
  rw [hduplicate rfl trivial] at hfailed
  exact ⟨hfailed, hstore, (halone 2 _ hother htimes).1⟩

end Batches

end Bailiff
