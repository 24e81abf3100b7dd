-- SUMMARY: The order in which a call runs the tasks of a fresh session, and the order in which their rows are listed.
import Bailiff.Proofs.Batch.Account
import Bailiff.Proofs.Results.Decision
import Bailiff.Proofs.Text.Collation

/-!
# Order of runs and rows

A call takes its tasks in the order of their 16-bit units, and the rows of a session are listed in the order of code
points, which is that of UTF-8 octets. In a session without older rows (`Store.IsFresh`) the rows are those of the
tasks that were run (`Batch.Returned.tasks_perm`), so the two lists differ in their order at most, and not even in
that when all names are without characters above `U+FFFF` (`Batch.WholeCall.listed_in_order`).
-/

namespace Bailiff

/-- A store has no results of a session. -/
def Store.IsFresh (s : Store) (id : Int) : Prop := ∀ r ∈ s.db.results, r.session ≠ id

/-- A session that has just been added has no results. -/
theorem Store.isFresh_addSession {s : Store} {db : Database} (hsound : db.Sound) {version : String} {start : Stamp}
    (hs : s.db = db.addSession version start) : s.IsFresh db.nextId := by
  intro r hr
  rw [hs, Database.results_addSession] at hr
  obtain ⟨known, hknown, hid⟩ := hsound.known r hr
  exact hid ▸ (Database.lt_nextId hknown).ne

namespace Batch

variable {plan : BatchPlan} {session : Binary64} {id : Int} {s₀ s : Store} {tasks : List String} {xs : List Attempt}
  {summary : BatchSummary}

/-! ## Rows of a fresh session -/

/-- No task of a fresh session is skipped. -/
theorem Returned.executed_eq (h : Returned session id s₀ tasks xs s summary) (hid : session.toInt? = some id)
    (hfresh : s₀.IsFresh id) : summary.executed = tasks := by
  have hskipped : summary.skipped = [] := by
    rw [h.skipped]
    apply List.filter_eq_nil_iff.mpr
    intro task _ hhas
    obtain ⟨r, hr, hkey⟩ := List.mem_map.mp ((Database.hasResult_iff hid task).mp hhas)
    exact hfresh r hr (Prod.mk.inj hkey).2
  have htogether := h.divides.together
  rw [hskipped, List.append_nil] at htogether
  exact h.divides.leftInOrder.eq_of_length htogether.length_eq

/-- The rows of a fresh session are those of the tasks that were run. -/
theorem Returned.tasks_perm (h : Returned session id s₀ tasks xs s summary) (hid : session.toInt? = some id)
    (hfresh : s₀.IsFresh id) : ((s.db.resultsOf session).map (·.task)).Perm summary.executed := by
  obtain ⟨added, hresults, hadded⟩ := h.rows
  have hold : s₀.db.results.filter (fun r => session.toInt? = some r.session) = [] := by
    apply List.filter_eq_nil_iff.mpr
    intro r hr
    simpa [hid] using Ne.symm (hfresh r hr)
  have hnew : added.filter (fun r => session.toInt? = some r.session) = added := by
    apply List.filter_eq_self.mpr
    intro r hr
    simp [hid, session_of_leaves hadded r hr]
  have htasks : added.map (·.task) = summary.executed := by
    have hkeys := congrArg (List.map Prod.fst) (map_key hadded)
    rw [h.judged, List.map_map, List.map_map] at hkeys
    exact hkeys.trans (List.map_id _)
  have hperm := (Database.resultsOf_perm s.db session).map (·.task)
  rwa [hresults, List.filter_append, hold, hnew, List.nil_append, htasks] at hperm

/-- Rows whose tasks are different are listed in the order of the code points of their tasks. -/
theorem resultsOf_increasing {db : Database} (h : ((db.resultsOf session).map (·.task)).Nodup) :
    Increasing (db.resultsOf session) := by
  have hperm := (Database.resultsOf_perm db session).map (·.task)
  have hnodup := (hperm.nodup_iff.mp h).map Text.points_injective
  rw [List.map_map] at hnodup
  exact Text.mergeSort_increasing hnodup

/-- Two orders of the same names without characters above `U+FFFF`. -/
theorem eq_of_isBasic {listed run : List String} (hperm : listed.Perm run)
    (hlisted : listed.Pairwise fun a b => Text.points a < Text.points b)
    (hrun : run.Pairwise fun a b => Text.units a < Text.units b) (hbasic : ∀ task ∈ run, Text.IsBasic task) :
    listed = run := by
  have hrun' : run.Pairwise fun a b => Text.points a < Text.points b := by
    refine hrun.imp_of_mem fun ha hb hlt => ?_
    rwa [Text.units_eq_points (hbasic _ ha), Text.units_eq_points (hbasic _ hb)] at hlt
  exact hperm.eq_of_pairwise (fun a b _ _ hlt hlt' => absurd hlt' (lt_asymm hlt)) hlisted hrun'

/-! ## Whole calls -/

/-- A call that returns in a fresh session has run its tasks once each, in increasing order of units, and the session
then lists a row for each, in increasing order of code points and of UTF-8 octets. These are the same order when no
name has a character above `U+FFFF`. -/
theorem WholeCall.listed_in_order {files : FileTree} {base : Location} {known : Session} (hdistinct : files.Distinct)
    (hknown : s₀.db.session? plan.session = some known) (htables : s₀.db.resultTable.isSome)
    (hopen : s₀.isOpen = true) (hfresh : s₀.IsFresh known.id)
    (h : WholeCall files base plan s₀ xs s (.ok summary)) :
    ∃ rows, s.listResults plan.session = .ok rows
      ∧ xs.map (·.task) = summary.executed
      ∧ (rows.map (·.task)).Perm summary.executed
      ∧ (summary.executed.Pairwise fun a b => Text.units a < Text.units b)
      ∧ (rows.Pairwise fun r r' => Text.points r.task < Text.points r'.task)
      ∧ (rows.Pairwise fun r r' => Text.octets r.task < Text.octets r'.task)
      ∧ ((∀ task ∈ summary.executed, Text.IsBasic task) → rows.map (·.task) = summary.executed) := by
  have hid := (Database.session?_eq_some hknown).2
  cases h with
  | listed listing run ended =>
    obtain ⟨hincreasing, -⟩ := listTasks_eq_ok hdistinct listing
    have hnodup := Text.nodup_of_increasing hincreasing
    have hstands := run.stands hid hnodup (stands_start htables _)
    rw [List.nil_append] at hstands
    obtain ⟨past, kept, haccount⟩ := hstands.account
    have hreturned := (hstands.ends hnodup ended).1 summary rfl
    obtain rfl := hreturned.executed_eq hid hfresh
    have hperm := hreturned.tasks_perm hid hfresh
    have hrows : Increasing (s.db.resultsOf plan.session) := resultsOf_increasing (hperm.nodup_iff.mpr hnodup)
    refine ⟨s.db.resultsOf plan.session, if_pos (haccount.isOpen.trans hopen), hreturned.judged, hperm,
      hincreasing, hrows, hrows.imp Text.octets_lt_iff.mpr, fun hbasic => ?_⟩
    exact eq_of_isBasic hperm (List.pairwise_map.mpr hrows) hincreasing hbasic

/-- A judge that kills the runs of both tasks. -/
theorem WholeCall.listed_in_order_killed :
    ∃ xs s summary, WholeCall GuardedBatch.resumedState.files [] GuardedBatch.twoTaskPlan GuardedBatch.oneSession xs s
        (.ok summary)
      ∧ ∃ rows, s.listResults 1 = .ok rows ∧ rows.map (·.task) = summary.executed := by
  have hknown : GuardedBatch.oneSession.db.session? 1 = some ⟨1, "1.0.0", .text ""⟩ := rfl
  have hempty : ({} : Database).IsEmpty := ⟨rfl, rfl, nofun, nofun⟩
  have hfresh : GuardedBatch.oneSession.IsFresh 1 := Store.isFresh_addSession hempty.sound.withTables rfl
  have hcall : WholeCall GuardedBatch.resumedState.files [] GuardedBatch.twoTaskPlan GuardedBatch.oneSession _ _ _ :=
    .listed GuardedBatch.listTasks_resumed
      (.advance false 1 rfl (.reply 1 (.ok .killed) rfl
        (.advance false 1 rfl (.reply 1 (.ok .killed) rfl (.advance false 1 rfl (.rest _ _)))))) rfl
  obtain ⟨rows, hrows, -, -, -, -, -, hsame⟩ :=
    hcall.listed_in_order GuardedBatch.distinct_resumed hknown rfl rfl hfresh
  have hbasic : ∀ name ∈ ["a", "b"], Text.IsBasic name := by decide
  exact ⟨_, _, _, hcall, rows, hrows, hsame hbasic⟩

end Batch

end Bailiff
