-- SUMMARY: The rules that a result database keeps, and what each way of adding to it does to them.
import Bailiff.Proofs.Number.Whole
import Bailiff.Results.Database

/-!
# Sound databases

In a sound database no two results share task and session, every result belongs to a session, killed
runs have left nothing behind, and session ids ascend. Sessions and results are only ever added at the
end of their tables, and each addition that the database lets through keeps it sound.
-/

namespace Bailiff

/-- The task and the session of a result. -/
def ResultRow.key (r : ResultRow) : String × Int := (r.task, r.session)

namespace Database

variable {db db' : Database} {row : NewRow}

/-- The rules of a result database. -/
structure Sound (db : Database) : Prop where
  unique : (db.results.map ResultRow.key).Nodup
  known : ∀ r ∈ db.results, ∃ s ∈ db.sessions, s.id = r.session
  blank : ∀ r ∈ db.results, r.killed = true →
    r.stdout = .text "" ∧ r.stderr = .text "" ∧ r.returnCode = killedReturnCode
  ascending : (db.sessions.map (·.id)).Pairwise (· < ·)

/-- A database that holds nothing and has no table that was declared elsewhere. -/
structure IsEmpty (db : Database) : Prop where
  sessions : db.sessions = []
  results : db.results = []
  ownSessions : ∀ t, db.sessionTable = some t → t.isForeign = false
  ownResults : ∀ t, db.resultTable = some t → t.isForeign = false

theorem IsEmpty.sound (h : db.IsEmpty) : db.Sound := by
  constructor <;> simp [h.sessions, h.results]

/-- Both tables are there, and the rules hold for the table of results. -/
structure Ready (db : Database) : Prop where
  sessions : db.sessionTable.isSome
  guarded : db.isGuarded = true

theorem Ready.resultTable (h : db.Ready) : db.resultTable.isSome := by
  have hguarded := h.guarded
  unfold isGuarded at hguarded
  cases hrows : db.resultTable with
  | none => simp [hrows] at hguarded
  | some t => rfl

/-! ## Tables -/

@[simp] theorem sessions_withTables (db : Database) : db.withTables.sessions = db.sessions := by
  cases h : db.sessionTable <;> simp [sessions, withTables, h]

@[simp] theorem results_withTables (db : Database) : db.withTables.results = db.results := by
  cases h : db.resultTable <;> simp [results, withTables, h]

theorem Ready.own (h : db.Ready) (t : Table ResultRow) (ht : db.resultTable = some t) :
    t.isForeign = false := by
  simpa [isGuarded, ht] using h.guarded

theorem Ready.withTables (h : db.Ready) : db.withTables = db := by
  obtain ⟨sessionTable, resultTable, others⟩ := db
  obtain ⟨t, rfl⟩ := Option.isSome_iff_exists.mp h.sessions
  obtain ⟨u, rfl⟩ := Option.isSome_iff_exists.mp h.resultTable
  rfl

theorem ready_withTables (h : ∀ t, db.resultTable = some t → t.isForeign = false) :
    db.withTables.Ready := by
  constructor
  · rfl
  · cases hrows : db.resultTable with
    | none => simp [isGuarded, Database.withTables, hrows]
    | some t => simp [isGuarded, Database.withTables, hrows, h t hrows]

theorem Sound.withTables (h : db.Sound) : db.withTables.Sound := by
  constructor
  · simpa using h.unique
  · simpa using h.known
  · simpa using h.blank
  · simpa using h.ascending

/-! ## Sessions -/

@[simp] theorem results_addSession (db : Database) (version : String) (start : Stamp) :
    (db.addSession version start).results = db.results := rfl

theorem sessions_addSession (h : db.Ready) (version : String) (start : Stamp) :
    (db.addSession version start).sessions = db.sessions ++ [⟨db.nextId, version, start⟩] := by
  obtain ⟨t, ht⟩ := Option.isSome_iff_exists.mp h.sessions
  simp [sessions, addSession, ht]

theorem Ready.addSession (h : db.Ready) (version : String) (start : Stamp) :
    (db.addSession version start).Ready := by
  constructor
  · simpa [Database.addSession] using h.sessions
  · exact h.guarded

/-- The next id is larger than all ids in use. -/
theorem lt_nextId {s : Session} (hs : s ∈ db.sessions) : s.id < db.nextId := by
  have hmem : s.id ∈ db.sessions.map (·.id) := List.mem_map_of_mem hs
  unfold nextId
  split
  next n hmax =>
    have := (List.max?_eq_some_iff.mp hmax).2 s.id hmem
    omega
  next hmax =>
    rw [List.max?_eq_none_iff] at hmax
    simp [hmax] at hmem

theorem Sound.addSession (h : db.Sound) (hready : db.Ready) (version : String) (start : Stamp) :
    (db.addSession version start).Sound := by
  constructor
  · exact h.unique
  · intro r hr
    obtain ⟨s, hs, hid⟩ := h.known r hr
    refine ⟨s, ?_, hid⟩
    rw [sessions_addSession hready]
    exact List.mem_append_left _ hs
  · exact h.blank
  · rw [sessions_addSession hready, List.map_append, List.pairwise_append]
    refine ⟨h.ascending, List.pairwise_singleton _ _, ?_⟩
    intro id hid next hnext
    obtain ⟨s, hs, rfl⟩ := List.mem_map.mp hid
    obtain rfl : next = db.nextId := by simpa using hnext
    exact lt_nextId hs

/-! ## Results -/

@[simp] theorem sessions_append (db : Database) (r : ResultRow) :
    (db.append r).sessions = db.sessions := rfl

theorem results_append (h : db.resultTable.isSome) (r : ResultRow) :
    (db.append r).results = db.results ++ [r] := by
  obtain ⟨t, ht⟩ := Option.isSome_iff_exists.mp h
  simp [results, append, ht]

theorem Ready.append (h : db.Ready) (r : ResultRow) : (db.append r).Ready := by
  constructor
  · exact h.sessions
  · have hguarded := h.guarded
    cases hrows : db.resultTable <;> simp_all [isGuarded, Database.append]

theorem hasResult_iff {session : Binary64} {id : Int} (hid : session.toInt? = some id)
    (task : String) :
    db.hasResult session task = true ↔ (task, id) ∈ db.results.map ResultRow.key := by
  simp [hasResult, ResultRow.key, hid, @eq_comm Int id]

theorem hasResult_append (h : db.resultTable.isSome) (session : Binary64) (task : String)
    (r : ResultRow) :
    (db.append r).hasResult session task
      = (db.hasResult session task || (r.task = task && session.toInt? = some r.session)) := by
  simp [hasResult, results_append h]

theorem session?_eq_some {session : Binary64} {s : Session} (h : db.session? session = some s) :
    s ∈ db.sessions ∧ session.toInt? = some s.id :=
  ⟨List.mem_of_find?_eq_some h, by simpa using List.find?_some h⟩

/-- A result that is let through stands behind the others. -/
theorem insert_eq_append {id : Int} (hid : (row.session.getD .nan).toInt? = some id)
    (h : db.insert row = .ok db') : db' = db.append (row.settle id) := by
  unfold insert at h
  split at h
  · split at h
    · cases h
    · dsimp only at h
      split at h
      · cases h
      · split at h
        · cases h
        next s hs =>
          obtain ⟨-, hs⟩ := session?_eq_some hs
          rw [hid] at hs
          cases hs
          cases h
          rfl
  · rw [Binary64.truncate?_of_toInt? hid] at h
    cases h
    rfl

/-- Whatever is let through adds at most its own row. -/
theorem mem_results_insert (h : db.insert row = .ok db') {r : ResultRow} (hr : r ∈ db'.results) :
    r ∈ db.results ∨ ∃ id, r = row.settle id := by
  have happend (id : Int) (hr : r ∈ (db.append (row.settle id)).results) :
      r ∈ db.results ∨ ∃ id, r = row.settle id := by
    cases hrows : db.resultTable with
    | none => simp [results, append, hrows] at hr
    | some t =>
      rw [results_append (by rw [hrows]; rfl), List.mem_append, List.mem_singleton] at hr
      exact hr.imp_right fun h => ⟨id, h⟩
  unfold insert at h
  split at h
  · split at h
    · cases h
    · dsimp only at h
      split at h
      · cases h
      · split at h
        · cases h
        next s _ =>
          cases h
          exact happend s.id hr
  · cases h
    exact happend _ hr

/-- What it takes for a result to be added where the rules hold. -/
theorem insert_eq_ok (hguarded : db.isGuarded = true) (h : db.insert row = .ok db') :
    ∃ s ∈ db.sessions, (row.session.getD .nan).toInt? = some s.id
      ∧ row.missing? = none
      ∧ db.hasResult (row.session.getD .nan) (row.task.getD "") = false
      ∧ db' = db.append (row.settle s.id) := by
  unfold insert at h
  rw [if_pos hguarded] at h
  split at h
  · cases h
  next hmissing =>
    dsimp only at h
    split at h
    · cases h
    next hfresh =>
      split at h
      · cases h
      next s hs =>
        obtain ⟨hmem, hid⟩ := session?_eq_some hs
        cases h
        exact ⟨s, hmem, hid, hmissing, by simpa using hfresh, rfl⟩

/-- A row of a killed run is blank. -/
def NewRow.Blank (row : NewRow) : Prop :=
  row.killed = true → row.stdout = some (.text "") ∧ row.stderr = some (.text "")
    ∧ row.returnCode = some killedReturnCode

theorem Sound.append (h : db.Sound) (hready : db.Ready) {s : Session} (hs : s ∈ db.sessions)
    (hid : (row.session.getD .nan).toInt? = some s.id)
    (hfresh : db.hasResult (row.session.getD .nan) (row.task.getD "") = false)
    (hblank : row.Blank) : (db.append (row.settle s.id)).Sound := by
  have hresults := results_append hready.resultTable (row.settle s.id)
  constructor
  · rw [hresults, List.map_append, List.nodup_append]
    refine ⟨h.unique, by simp, ?_⟩
    intro key hkey new hnew
    obtain rfl : new = (row.task.getD "", s.id) := by simpa [ResultRow.key, NewRow.settle] using hnew
    rintro rfl
    rw [(hasResult_iff hid _).mpr hkey] at hfresh
    cases hfresh
  · intro r hr
    rw [hresults, List.mem_append, List.mem_singleton] at hr
    rcases hr with hr | rfl
    · exact h.known r hr
    · exact ⟨s, hs, rfl⟩
  · intro r hr
    rw [hresults, List.mem_append, List.mem_singleton] at hr
    rcases hr with hr | rfl
    · exact h.blank r hr
    · intro hkilled
      obtain ⟨hout, herr, hcode⟩ := hblank hkilled
      simp only [NewRow.settle, hout, herr, hcode, Option.getD_some, true_and]
      decide
  · exact h.ascending

end Database

end Bailiff
