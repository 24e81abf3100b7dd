-- SUMMARY: Recording a result agrees with what the store answers when asked for it before and after.
import Bailiff.Proofs.Results.History
import Bailiff.Proofs.Results.Opening
import Bailiff.Proofs.Results.Recording
import Bailiff.Proofs.Text.Order

/-!
# Decisions of a store

Whether a result is there, whether its session is there, and how the results of a session are listed are three
questions to a store. `Database.Gains` says how the answers change when a row is kept, and
`Archive.recordResult_decides` says which answers decide what becomes of a result, in every store that requests
lead to.
-/

namespace Bailiff

/-! ## Requests whose values have the right types -/

def Output.toValue : Output → Value
  | text s => .text s
  | octets bytes => .octets bytes

/-- The outcome as a request has it. -/
def Outcome.loose : Outcome → Store.LooseOutcome
  | .completed stdout stderr returnCode => .completed stdout.toValue stderr.toValue (.number returnCode)
  | .killed => .killed

namespace Store

/-- Recording values of the right types is what the operation on them does; not-a-number is null. -/
theorem recordResultWith_typed (s : Store) (session : Binary64) (task start : String) (duration : Binary64)
    (outcome : Outcome) :
    s.recordResultWith (.number session) (.text task) (.text start) (.number duration) outcome.loose
      = s.recordResult session task start duration outcome := by
  have hnumber (x : Binary64) :
      (if x.isNaN then Cell.null else .number x).toNumber? = Database.NewRow.ofOutcome.notNaN? x := by
    unfold Database.NewRow.ofOutcome.notNaN?
    split <;> rfl
  cases hopen : s.isOpen with
  | false => simp [recordResultWith, recordResult, insert, hopen, Value.describe]
  | true =>
    cases outcome with
    | killed =>
      simp [recordResultWith, recordResult, Outcome.loose, bindAll, Cell.ofValue?, Database.NewRow.ofOutcome,
        Cell.toText?, Cell.toStamp?, hopen, hnumber, Cell.toOutput?, Value.describe]
      rfl
    | completed stdout stderr returnCode =>
      cases stdout <;> cases stderr <;>
        simp [recordResultWith, recordResult, Outcome.loose, bindAll, Cell.ofValue?, Database.NewRow.ofOutcome,
          Cell.toText?, Cell.toStamp?, hopen, hnumber, Cell.toOutput?, Output.toValue, Value.describe]

end Store

/-! ## Rows of outcomes -/

/-- The row tells what was asked to be recorded. -/
structure ResultRow.Tells (r : ResultRow) (session : Binary64) (task start : String) (duration : Binary64)
    (outcome : Outcome) : Prop where
  task : r.task = task
  session : session.toInt? = some r.session
  start : r.start = Stamp.ofText start
  duration : r.duration = storedNumber duration
  outcome : match outcome with
    | .completed stdout stderr returnCode =>
      r.killed = false ∧ r.stdout = stdout ∧ r.stderr = stderr ∧ r.returnCode = storedNumber returnCode
    | .killed => r.killed = true ∧ r.stdout = .text "" ∧ r.stderr = .text "" ∧ r.returnCode = killedReturnCode

theorem Database.NewRow.tells_settle {session : Binary64} {id : Int} (hid : session.toInt? = some id)
    (task start : String) {duration : Binary64} (hduration : duration.isNaN = false) {outcome : Outcome}
    (houtcome : outcome.IsRecordable) :
    ((ofOutcome session task start duration outcome).settle id).Tells session task start duration outcome := by
  cases outcome with
  | completed stdout stderr returnCode =>
    have hcode : returnCode.isNaN = false := houtcome
    constructor <;> simp [ofOutcome, settle, ofOutcome.notNaN?, hid, hduration, hcode]
  | killed =>
    constructor <;> simp [ofOutcome, settle, ofOutcome.notNaN?, hid, hduration]
    decide

/-! ## Lists in the order of tasks -/

/-- The second list is the first with a row put at its place in the order of the tasks. -/
def IsInserted (row : ResultRow) (old new : List ResultRow) : Prop :=
  ∃ before after, old = before ++ after ∧ new = before ++ row :: after
    ∧ (∀ r ∈ before, Text.points r.task < Text.points row.task)
    ∧ ∀ r ∈ after, Text.points row.task < Text.points r.task

/-- The tasks of the rows come in the order of their code points, and none comes twice. -/
def Increasing (rows : List ResultRow) : Prop := rows.Pairwise fun r r' => Text.points r.task < Text.points r'.task

/-- One row more in a list in order stands at its place. -/
theorem isInserted_of_perm {row : ResultRow} {old new : List ResultRow} (hold : Increasing old)
    (hnew : Increasing new) (h : new.Perm (row :: old)) : IsInserted row old new := by
  obtain ⟨before, after, rfl⟩ := List.append_of_mem (h.mem_iff.mpr List.mem_cons_self)
  have hperm : (before ++ after).Perm old := (List.perm_middle.symm.trans h).cons_inv
  obtain ⟨hbefore, hafter, hacross⟩ := List.pairwise_append.mp hnew
  obtain ⟨hrow, hafter⟩ := List.pairwise_cons.mp hafter
  have hrest : Increasing (before ++ after) :=
    List.pairwise_append.mpr ⟨hbefore, hafter, fun r hr r' hr' => hacross r hr r' (List.mem_cons_of_mem _ hr')⟩
  have heq : before ++ after = old := by
    refine hperm.eq_of_pairwise (fun r r' _ _ hlt hlt' => ?_) hrest hold
    exact absurd hlt' (lt_asymm hlt)
  exact ⟨before, after, heq.symm, rfl, fun r hr => hacross r hr row List.mem_cons_self, hrow⟩

namespace Database

variable {db : Database} {session : Binary64} {row : ResultRow}

theorem resultsOf_perm (db : Database) (session : Binary64) :
    (db.resultsOf session).Perm (db.results.filter fun r => session.toInt? = some r.session) :=
  List.mergeSort_perm ..

/-- The results of a session are listed in the order of their tasks, each task once. -/
theorem Sound.resultsOf_increasing (h : db.Sound) (session : Binary64) : Increasing (db.resultsOf session) := by
  refine Text.mergeSort_increasing ?_
  have hrows := (List.nodup_map_iff_inj_on h.unique.of_map).mp h.unique
  refine (List.nodup_map_iff_inj_on (h.unique.of_map.filter _)).mpr ?_
  intro r hr r' hr' heq
  rw [List.mem_filter, decide_eq_true_eq] at hr hr'
  refine hrows r hr.1 r' hr'.1 (Prod.ext (Text.points_injective heq) ?_)
  exact Option.some.inj (hr.2.symm.trans hr'.2)

/-- A row of a session is listed at its place from then on. -/
theorem resultsOf_append (hready : db.Ready) (hsound : db.Sound) (hsound' : (db.append row).Sound)
    (hid : session.toInt? = some row.session) :
    IsInserted row (db.resultsOf session) ((db.append row).resultsOf session) := by
  refine isInserted_of_perm (hsound.resultsOf_increasing session) (hsound'.resultsOf_increasing session) ?_
  have hmore : (db.append row).results.filter (fun r => session.toInt? = some r.session)
      = db.results.filter (fun r => session.toInt? = some r.session) ++ [row] := by
    rw [results_append hready.resultTable, List.filter_append, List.filter_cons_of_pos (by simpa using hid),
      List.filter_nil]
  refine (resultsOf_perm ..).trans ?_
  rw [hmore]
  exact (List.perm_append_singleton row _).trans ((resultsOf_perm db session).symm.cons row)

theorem resultsOf_append_of_ne (hready : db.Ready) (hid : ¬session.toInt? = some row.session) :
    (db.append row).resultsOf session = db.resultsOf session := by
  unfold resultsOf
  rw [results_append hready.resultTable, List.filter_append, List.filter_cons_of_neg (by simpa using hid),
    List.filter_nil, List.append_nil]

end Database

/-! ## Stores -/

namespace Store

variable {s s' : Store} {session : Binary64} {task start : String} {duration : Binary64} {outcome : Outcome}
  {known : Option Session}

/-- What is asked for fails with a trouble of an area. -/
def FailsIn {α : Type} (area : Area) (answer : Except Failure α) : Prop :=
  ∃ f, answer = .error f ∧ f.name? = some area.name

theorem failsIn_of {α : Type} {area : Area} {message : String} {kind : Area} :
    FailsIn kind (.error (.of area message) : Except Failure α) ↔ area.name = kind.name := by
  constructor
  · rintro ⟨f, heq, hname⟩
    cases heq
    exact Option.some.inj hname
  · exact fun h => ⟨_, rfl, congrArg some h⟩

theorem not_failsIn_ok {α : Type} {area : Area} {x : α} : ¬FailsIn area (.ok x : Except Failure α) := by
  rintro ⟨f, heq, -⟩
  cases heq

/-- What becomes of a result whose numbers are numbers. -/
theorem Serves.recordResult_cases (h : s.Serves session known) (hsession : session.isNaN = false)
    (task start : String) (hduration : duration.isNaN = false) (houtcome : outcome.IsRecordable) :
    (s.db.hasResult session task = true
        ∧ s.recordResult session task start duration outcome = .error (alreadyRecorded task session.text))
      ∨ (s.db.hasResult session task = false ∧ known = none
        ∧ s.recordResult session task start duration outcome = .error (notPresent session.text))
      ∨ ∃ k row, s.db.hasResult session task = false ∧ known = some k
        ∧ row.Tells session task start duration outcome
        ∧ s.recordResult session task start duration outcome = .ok { s with db := s.db.append row } := by
  have heq := h.recordResult_eq task start duration outcome
  rw [Database.NewRow.missing?_eq_none hsession task start hduration houtcome] at heq
  cases hhas : s.db.hasResult session task with
  | true => exact .inl ⟨rfl, by rw [heq, hhas]; rfl⟩
  | false =>
    rw [hhas] at heq
    cases known with
    | none => exact .inr (.inl ⟨rfl, rfl, heq⟩)
    | some k =>
      have hid := (Database.session?_eq_some h.known).2
      exact .inr (.inr ⟨k, _, rfl, rfl, Database.NewRow.tells_settle hid task start hduration houtcome, heq⟩)

/-- Which answers decide what becomes of a result: it is a duplicate, its session is not there, or it is kept. -/
structure Decides (s : Store) (session : Binary64) (task start : String) (duration : Binary64) (outcome : Outcome)
    (has : Bool) (known : Option Session) : Prop where
  duplicate : FailsIn .duplicateKey (s.recordResult session task start duration outcome) ↔ has = true
  notFound : FailsIn .notFound (s.recordResult session task start duration outcome) ↔ has = false ∧ known = none
  kept : (∃ s', s.recordResult session task start duration outcome = .ok s') ↔ has = false ∧ known.isSome

/-- How the answers about results change when a row is kept for a session. -/
structure Gains (s s' : Store) (session : Binary64) (row : ResultRow) : Prop where
  has : s'.hasResult session row.task = .ok true
  hasOther : ∀ (other : Binary64) (task : String), ¬(other.toInt? = session.toInt? ∧ task = row.task) →
    s'.hasResult other task = s.hasResult other task
  listed : ∃ old new, s.listResults session = .ok old ∧ s'.listResults session = .ok new ∧ IsInserted row old new
  listedOther : ∀ other : Binary64, other.toInt? ≠ session.toInt? → s'.listResults other = s.listResults other

theorem Serves.decides (h : s.Serves session known) (hsession : session.isNaN = false) (task start : String)
    (hduration : duration.isNaN = false) (houtcome : outcome.IsRecordable) :
    s.Decides session task start duration outcome (s.db.hasResult session task) known := by
  rcases h.recordResult_cases hsession task start hduration houtcome with ⟨hhas, heq⟩ | ⟨hhas, rfl, heq⟩ | hkept
  · constructor <;> simp [heq, hhas, alreadyRecorded, failsIn_of, Area.name]
  · constructor <;> simp [heq, hhas, notPresent, failsIn_of, Area.name]
  · obtain ⟨k, row, hhas, rfl, -, heq⟩ := hkept
    constructor <;> simp [heq, hhas, not_failsIn_ok]

theorem gains_append {row : ResultRow} (hopen : s.isOpen = true) (hready : s.db.Ready) (hsound : s.db.Sound)
    (hsound' : (s.db.append row).Sound) (hid : session.toInt? = some row.session) :
    Gains s { s with db := s.db.append row } session row := by
  constructor
  case has =>
    simp [hasResult, whenOpen, hopen, Database.hasResult_append hready.resultTable, hid]
  case hasOther =>
    intro other task hother
    have hne : ¬(row.task = task ∧ other.toInt? = session.toInt?) := fun h => hother ⟨h.2, h.1.symm⟩
    unfold hasResult
    rw [Database.hasResult_append hready.resultTable, ← hid, ← Bool.decide_and, decide_eq_false hne, Bool.or_false]
    rfl
  case listed =>
    refine ⟨_, _, if_pos hopen, if_pos hopen, ?_⟩
    exact Database.resultsOf_append hready hsound hsound' hid
  case listedOther =>
    intro other hother
    unfold listResults
    rw [Database.resultsOf_append_of_ne hready (hid ▸ hother)]
    rfl

theorem Serves.resumeSession_iff (h : s.Serves session known) :
    (∃ id, s.resumeSession session = .ok id) ↔ known.isSome := by
  unfold resumeSession getSession
  rw [whenOpen, if_pos h.isOpen, h.known]
  cases known <;> simp

/-- In an open store that keeps the rules of the database, the answers about a task and a session decide what
becomes of a result, and the answers afterwards show it. -/
theorem Serves.decides_gains (h : s.Serves session known) (hsound : s.db.Sound) (hsession : session.isNaN = false)
    (task start : String) (hduration : duration.isNaN = false) (houtcome : outcome.IsRecordable) :
    ∃ has known, s.hasResult session task = .ok has ∧ s.getSession session = .ok known
      ∧ s.Decides session task start duration outcome has known
      ∧ (∀ s', s.recordResult session task start duration outcome = .ok s' →
          ∃ row : ResultRow, row.Tells session task start duration outcome ∧ s.Gains s' session row)
      ∧ (has = false → ((∃ id, s.resumeSession session = .ok id) ↔
          ¬FailsIn .notFound (s.recordResult session task start duration outcome))) := by
  have hdecides := h.decides hsession task start hduration houtcome
  refine ⟨_, _, if_pos h.isOpen, (if_pos h.isOpen).trans (congrArg Except.ok h.known), hdecides, ?_, ?_⟩
  · intro s' hrecord
    rcases h.recordResult_cases hsession task start hduration houtcome with ⟨-, heq⟩ | ⟨-, -, heq⟩ | hkept
    · rw [heq] at hrecord
      cases hrecord
    · rw [heq] at hrecord
      cases hrecord
    · obtain ⟨_, row, -, -, htells, heq⟩ := hkept
      obtain rfl := Except.ok.inj (heq.symm.trans hrecord)
      have hsound' := (recordResult_keeps h.ready hsound hrecord).2
      exact ⟨row, htells, gains_append h.isOpen h.ready hsound hsound' htells.session⟩
  · intro hhas
    rw [h.resumeSession_iff, hdecides.notFound]
    cases known <;> simp [hhas]

end Store

/-! ## Stores that requests lead to -/

namespace Archive

theorem isOpen_store (files : FileTree) (c : Connection) : (c.store files).isOpen = c.isOpen := by
  unfold Connection.store
  split
  · rfl
  · split <;> rfl

/-- In every open store that any course of connections and requests leads to from an empty database, whether a
result is there and whether its session is there decide what becomes of it: a duplicate, a session that is not
present, or a row that is kept and listed at its place, with all other answers as they were. Going on with a
session agrees with recording a new task for it. -/
theorem recordResult_decides (files : FileTree) (base : Location) (acts : List Action) {number : Nat}
    {c : Connection} (hc : ((fresh files base).run acts).1.connections[number]? = some c)
    (hempty : ((fresh files base).database (spotOf number c)).IsEmpty) (hopen : c.isOpen = true)
    {session : Binary64} (hsession : session.isNaN = false) (task start : String) {duration : Binary64}
    (hduration : duration.isNaN = false) {outcome : Outcome} (houtcome : outcome.IsRecordable) :
    let s := c.store ((fresh files base).run acts).1.files
    ∃ has known, s.hasResult session task = .ok has ∧ s.getSession session = .ok known
      ∧ s.Decides session task start duration outcome has known
      ∧ (∀ s', s.recordResult session task start duration outcome = .ok s' →
          ∃ row : ResultRow, row.Tells session task start duration outcome ∧ s.Gains s' session row)
      ∧ (has = false → ((∃ id, s.resumeSession session = .ok id) ↔
          ¬Store.FailsIn .notFound (s.recordResult session task start duration outcome))) := by
  obtain ⟨-, hkept, -⟩ := (kept_fresh hempty).run (linked_fresh files base) acts
  have hdb := db_store hc
  have hready := hkept.ready number c hc rfl
  have hsound := hkept.tells.sound
  rw [← hdb] at hready hsound
  have hisOpen := (isOpen_store ((fresh files base).run acts).1.files c).trans hopen
  exact Store.Serves.decides_gains ⟨hisOpen, hready, rfl⟩ hsound hsession task start hduration houtcome

/-! ## A store with one result -/

/-- A connection to the database of a directory. -/
def connection : Connection := ⟨"db.sqlite3", .file ["work", "db.sqlite3"], true⟩

/-- An archive with one connection to an empty database. -/
def opened : Archive where
  files := Connection.workWith (Database.withTables {})
  base := ["work"]
  connections := [connection]

theorem run_opened (acts : List Action) :
    ((fresh (Connection.workWith {}) ["work"]).run (.connect "db.sqlite3" :: acts)).1 = (opened.run acts).1 := by
  have hconnect : (fresh (Connection.workWith {}) ["work"]).connect "db.sqlite3" = (opened, .ok 0) := by
    unfold connect fresh
    rw [Connection.connect_of_reaches (Connection.reaches_workWith {})]
    rfl
  rw [run, act_connect, hconnect]

theorem isEmpty_workWith : ((fresh (Connection.workWith {}) ["work"]).database (spotOf 0 connection)).IsEmpty := by
  constructor <;> simp [fresh, Connection.workWith, spotOf, connection, database, FileTree.at?, databaseIn,
    Database.sessions, Database.results]

/-- A session is begun, and a result of it is recorded. -/
def oneResult : List Action :=
  [.request 0 (.begin (.text "1.0.0") 0),
    .request 0 (.record (.int 1) (.text "tasks/b") (.text "") (.number 1) .killed)]

theorem recordResult_decides_before_first :
    ((fresh (Connection.workWith {}) ["work"]).run (.connect "db.sqlite3" :: oneResult)).1.connections[0]?
        = some connection
      ∧ ((fresh (Connection.workWith {}) ["work"]).database (spotOf 0 connection)).IsEmpty
      ∧ let s := connection.store (opened.run oneResult).1.files
        ∃ has known, s.hasResult 1 "tasks/a" = .ok has ∧ s.getSession 1 = .ok known
          ∧ s.Decides 1 "tasks/a" "" 0 (.completed (.text "") (.text "") 0) has known := by
  have hc : ((fresh (Connection.workWith {}) ["work"]).run (.connect "db.sqlite3" :: oneResult)).1.connections[0]?
      = some connection := by
    rw [run_opened]
    decide +kernel
  have hempty : ((fresh (Connection.workWith {}) ["work"]).database (spotOf 0 connection)).IsEmpty := by
    constructor <;> simp [fresh, Connection.workWith, spotOf, connection, database, FileTree.at?, databaseIn,
      Database.sessions, Database.results]
  have hone : (1 : Binary64).isNaN = false := by decide
  have hzero : (0 : Binary64).isNaN = false := by decide
  have hpass : Outcome.IsRecordable (.completed (.text "") (.text "") 0) := hzero
  obtain ⟨has, known, hhas, hknown, hdecides, -⟩ := recordResult_decides (Connection.workWith {}) ["work"]
    (.connect "db.sqlite3" :: oneResult) hc hempty rfl hone "tasks/a" "" hzero hpass
  rw [run_opened] at hhas hknown hdecides
  exact ⟨hc, hempty, has, known, hhas, hknown, hdecides⟩

end Archive

end Bailiff
