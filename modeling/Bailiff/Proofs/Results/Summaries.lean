-- SUMMARY: The counts in the list of sessions are those of the results that are listed for each session.
import Bailiff.Proofs.Results.Decision
import Bailiff.Proofs.Results.Numbering
import Bailiff.Sessions.Command

/-!
# Summaries and details

A session is summarized by counts of its rows, and each row has a status of its own. The counts are those of the
statuses (`Database.counts_summaryOf`), every session has an entry in the order of the ids
(`Store.summarizes_of_sound`), and the two sessions commands print numbers that agree and change nothing
(`Archive.summaries_agree`).
-/

namespace Bailiff

/-! ## Counts -/

namespace Database

variable {db : Database}

/-- The counts of a summary are those of rows. -/
structure Summary.Counts (x : Summary) (rows : List ResultRow) : Prop where
  total : x.total = rows.length
  ok : x.ok = rows.countP (·.status = .ok)
  failed : x.failed = rows.countP (·.status = .failed)
  killed : x.killed = rows.countP (·.status = .killed)
  sum : x.total = x.ok + x.failed + x.killed

theorem status_eq_ok_iff (r : ResultRow) : r.status = .ok ↔ r.killed = false ∧ r.returnCode.isZero = true := by
  unfold ResultRow.status resultStatus
  cases r.killed <;> cases r.returnCode.isZero <;> simp

theorem status_eq_failed_iff (r : ResultRow) : r.status = .failed ↔ r.killed = false ∧ r.returnCode.isZero = false := by
  unfold ResultRow.status resultStatus
  cases r.killed <;> cases r.returnCode.isZero <;> simp

theorem status_eq_killed_iff (r : ResultRow) : r.status = .killed ↔ r.killed = true := by
  unfold ResultRow.status resultStatus
  cases r.killed <;> cases r.returnCode.isZero <;> simp

/-- Every row has one of the three statuses. -/
theorem length_eq_countP_status (rows : List ResultRow) :
    rows.length = rows.countP (·.status = .ok) + rows.countP (·.status = .failed)
      + rows.countP (·.status = .killed) := by
  induction rows with
  | nil => rfl
  | cons r rows ih =>
    simp only [List.length_cons, List.countP_cons]
    cases r.status <;> simp <;> omega

theorem counts_filter (db : Database) (s : Session) :
    (db.summaryOf s).Counts (db.results.filter (·.session = s.id)) := by
  have hok : (db.summaryOf s).ok = (db.results.filter (·.session = s.id)).countP (·.status = .ok) :=
    List.countP_congr fun r _ => by simp [status_eq_ok_iff]
  have hfailed : (db.summaryOf s).failed = (db.results.filter (·.session = s.id)).countP (·.status = .failed) :=
    List.countP_congr fun r _ => by simp [status_eq_failed_iff]
  have hkilled : (db.summaryOf s).killed = (db.results.filter (·.session = s.id)).countP (·.status = .killed) :=
    List.countP_congr fun r _ => by simp [status_eq_killed_iff]
  refine ⟨rfl, hok, hfailed, hkilled, ?_⟩
  rw [hok, hfailed, hkilled]
  exact length_eq_countP_status _

theorem Summary.Counts.perm {x : Summary} {rows rows' : List ResultRow} (h : x.Counts rows) (hperm : rows'.Perm rows) :
    x.Counts rows' := by
  refine ⟨h.total.trans hperm.length_eq.symm, ?_, ?_, ?_, h.sum⟩
  · rw [h.ok, hperm.countP_eq]
  · rw [h.failed, hperm.countP_eq]
  · rw [h.killed, hperm.countP_eq]

/-- The summary of a session counts the results that are listed for it. -/
theorem counts_summaryOf (db : Database) (s : Session) {id : Binary64} (hid : id.toInt? = some s.id) :
    (db.summaryOf s).Counts (db.resultsOf id) := by
  refine (counts_filter db s).perm ?_
  have hfilter : db.results.filter (fun r => id.toInt? = some r.session) = db.results.filter (·.session = s.id) := by
    exact List.filter_congr fun r _ => by simp [hid, eq_comm]
  exact hfilter ▸ resultsOf_perm db id

/-- Sessions that ascend are summarized in their order. -/
theorem Sound.sessions_summaries (h : db.Sound) : db.summaries.map (·.session) = db.sessions := by
  have hsorted : db.sessions.mergeSort (fun a b => a.id ≤ b.id) = db.sessions := by
    refine List.mergeSort_of_pairwise ?_
    exact (List.pairwise_map.mp h.ascending).imp fun hlt => decide_eq_true hlt.le
  rw [summaries, hsorted, List.map_map]
  exact List.map_id _

end Database

/-! ## Tables -/

/-- A line of the list of sessions counts the status cells of the lines that are shown for the session. -/
def CountsCells (listed : List String) (shown : List (List String)) : Prop :=
  listed.drop 3 = [ResultStatus.ok, .failed, .killed].map fun status =>
    Binary64.integerText (shown.countP fun cells => cells[1]? = some status.text)

theorem ResultStatus.text_injective : Function.Injective ResultStatus.text := by
  intro x y h
  cases x <;> cases y <;> first | rfl | exact absurd h (by decide)

theorem Database.Summary.Counts.countsCells {x : Database.Summary} {rows : List ResultRow} (h : x.Counts rows) :
    CountsCells (SessionsCommand.listRow x) (SessionsCommand.showTable rows).rows := by
  have hcells (status : ResultStatus) :
      (SessionsCommand.showTable rows).rows.countP (fun cells => cells[1]? = some status.text)
        = rows.countP (·.status = status) := by
    rw [SessionsCommand.showTable, List.countP_map]
    refine List.countP_congr fun r _ => ?_
    simp [SessionsCommand.showRow, ResultStatus.text_injective.eq_iff]
  simp only [CountsCells, SessionsCommand.listRow, List.drop_succ_cons, List.drop_zero, List.map_cons, List.map_nil,
    hcells, h.ok, h.failed, h.killed]

/-! ## Stores -/

/-- What the store lists of its sessions is what it tells of each. -/
structure Store.Summarizes (s : Store) (entries : List Database.Summary) : Prop where
  listed : s.listSessions = .ok entries
  sessions : entries.map (·.session) = s.db.sessions
  ascending : (entries.map (·.session.id)).Pairwise (· < ·)
  details : ∀ x ∈ entries, ∀ id : Binary64, id.toInt? = some x.session.id →
    s.getSession id = .ok (some x.session)
      ∧ ∃ rows, s.listResults id = .ok rows ∧ x.Counts rows
        ∧ CountsCells (SessionsCommand.listRow x) (SessionsCommand.showTable rows).rows

theorem Store.summarizes_of_sound {s : Store} (hopen : s.isOpen = true) (hsound : s.db.Sound) :
    s.Summarizes s.db.summaries := by
  constructor
  case listed => exact if_pos hopen
  case sessions => exact hsound.sessions_summaries
  case ascending =>
    have hids : s.db.summaries.map (·.session.id) = s.db.sessions.map (·.id) := by
      rw [← hsound.sessions_summaries, List.map_map]
      rfl
    rw [hids]
    exact hsound.ascending
  case details =>
    intro x hx id hid
    obtain ⟨session, hsession, rfl⟩ := List.mem_map.mp hx
    rw [List.mem_mergeSort] at hsession
    have hcounts := Database.counts_summaryOf s.db session hid
    refine ⟨?_, s.db.resultsOf id, if_pos hopen, hcounts, hcounts.countsCells⟩
    rw [getSession, whenOpen, if_pos hopen, hsound.session?_eq hsession hid]
    rfl

/-! ## Commands -/

namespace SessionsCommand

/-- What a command prints of a store, with any failure as it is reported. -/
def reported (path : String) (printed : Printed) : Printed :=
  { printed with result := printed.result.mapError (·.toReport (context path)) }

theorem withStore_ok {files files' : FileTree} {base : Location} {path : String} {c : Connection}
    (hthere : (files.find? base path).isSome) (hconnect : Connection.connect files base path = (files', .ok c))
    (read : Store → Printed) : withStore files base path read = (files', reported path (read (c.store files'))) := by
  unfold withStore
  rw [Option.isNone_eq_false_iff.mpr hthere, hconnect]
  rfl

/-- Reading a database adds at most missing tables to one. -/
theorem files_withStore (files : FileTree) (base : Location) (path : String) (read : Store → Printed) :
    (withStore files base path read).1 = files
      ∨ (withStore files base path read).1 = (Connection.connect files base path).1 := by
  unfold withStore
  split
  · exact .inl rfl
  · split <;> simp_all

end SessionsCommand

namespace Archive

/-- A command that reads a database changes no session and no result. -/
theorem same_withStore (files : FileTree) (base : Location) (path : String)
    (read : Store → SessionsCommand.Printed) (l : Location) :
    Same (databaseIn (files.at? l)) (databaseIn ((SessionsCommand.withStore files base path read).1.at? l)) := by
  rcases SessionsCommand.files_withStore files base path read with heq | heq
  · rw [heq]
    exact ⟨rfl, rfl⟩
  · rw [heq]
    have hsame := same_connect (a := fresh files base) path (.file l)
    have hfiles : ((fresh files base).connect path).1.files = (Connection.connect files base path).1 := by
      unfold connect fresh
      dsimp only
      split <;> simp_all
    simp only [database, hfiles] at hsame
    exact hsame

variable {a : Archive} {number : Nat} {c c' : Connection} {files' : FileTree} {deeds : List Deed} {l : Location}

theorem store_of_file (files : FileTree) (h : c.place = .file l) :
    c.store files = ⟨databaseIn (files.at? l), c.isOpen⟩ := by
  unfold Connection.store
  rw [h]
  dsimp only
  split
  next db hdb => rw [hdb, databaseIn_database]
  next hnone =>
    unfold databaseIn
    split
    next db hdb => exact absurd hdb (hnone db)
    next => rfl

/-- A connection is open when it has just been opened. -/
theorem isOpen_of_connect {files : FileTree} {base : Location} {path : String}
    (h : Connection.connect files base path = (files', .ok c)) : c.isOpen = true := by
  have hcomes := Connection.comes_connect files base path
  rw [h] at hcomes
  cases hcomes <;> rfl

/-- One more connection to the file of an open one has the same store. -/
theorem Kept.store_connect (hkept : Kept (spotOf number c) a deeds) (hc : a.connections[number]? = some c)
    (hopen : c.isOpen = true) (hplace : c.place = .file l) {path : String}
    (hconnect : Connection.connect a.files a.base path = (files', .ok c')) (hplace' : c'.place = .file l) :
    c'.store files' = c.store a.files := by
  have hready := hkept.ready number c hc rfl
  rw [place_eq_file_iff.mp hplace] at hready
  have hfiles : (a.connect path).1.database (.file l) = databaseIn (files'.at? l) := by
    unfold Archive.connect
    rw [hconnect]
    rfl
  have hsame : databaseIn (files'.at? l) = databaseIn (a.files.at? l) := by
    rw [← hfiles]
    rcases database_connect (a := a) path (.file l) with h | h
    · exact h
    · rw [h, hready.withTables]
      rfl
  rw [store_of_file files' hplace', store_of_file a.files hplace, isOpen_of_connect hconnect, hopen, hsame]

/-- In every state that requests lead to from an empty database, the list of sessions has one entry for each session
that was begun, in the order of their ids, which are numbers up to `2 ^ 53`. Its counts add up, and they are those
of the results of the session and of the cells that are shown for it. Over any path to the same file, both commands
read this store, and over any path they change no session and no result. -/
theorem summaries_agree (files : FileTree) (base : Location) (acts : List Action) {number : Nat} {c : Connection}
    (hc : ((fresh files base).run acts).1.connections[number]? = some c)
    (hempty : ((fresh files base).database (spotOf number c)).IsEmpty) (hopen : c.isOpen = true) :
    let a := ((fresh files base).run acts).1
    let s := c.store a.files
    ∃ entries, s.Summarizes entries
      ∧ ((fresh files base).run acts).2.filterMap (Deed.begun? (spotOf number c))
          = entries.map (fun x => .int x.session.id)
      ∧ (acts.length < 2 ^ 53 → ∀ x ∈ entries, (Binary64.ofInt x.session.id).toInt? = some x.session.id)
      ∧ (∀ path l files' c', c.place = .file l → (a.files.find? a.base path).isSome →
          Connection.connect a.files a.base path = (files', .ok c') → c'.place = .file l → ∀ id json,
          SessionsCommand.withStore a.files a.base path (SessionsCommand.listSessions path json)
              = (files', SessionsCommand.reported path (SessionsCommand.listSessions path json s))
            ∧ SessionsCommand.withStore a.files a.base path (SessionsCommand.showSession id json)
              = (files', SessionsCommand.reported path (SessionsCommand.showSession id json s)))
      ∧ ∀ path id json l,
          let listed := (SessionsCommand.withStore a.files a.base path (SessionsCommand.listSessions path json)).1
          let shown := (SessionsCommand.withStore a.files a.base path (SessionsCommand.showSession id json)).1
          Same (databaseIn (a.files.at? l)) (databaseIn (listed.at? l))
            ∧ Same (databaseIn (a.files.at? l)) (databaseIn (shown.at? l)) := by
  intro a s
  obtain ⟨hlinked, hkept, -⟩ := (kept_fresh hempty).run (linked_fresh files base) acts
  have hdb : s.db = a.database (spotOf number c) := db_store hc
  have hsound : s.db.Sound := by
    rw [hdb]
    exact hkept.tells.sound
  have hisOpen : s.isOpen = true := (isOpen_store a.files c).trans hopen
  have hsummarizes := Store.summarizes_of_sound hisOpen hsound
  refine ⟨s.db.summaries, hsummarizes, ?_, fun hacts x hx => ?_, ?_, ?_⟩
  · have hbegun := hkept.tells.begun
    rw [List.nil_append, ← hdb, ← hsummarizes.sessions, List.map_map] at hbegun
    exact hbegun
  · obtain ⟨hnumbered, hlength⟩ := numbered_of_run files base acts hempty
    rw [← hdb] at hnumbered hlength
    have hmem : x.session ∈ s.db.sessions := by
      rw [← hsummarizes.sessions]
      exact List.mem_map_of_mem hx
    obtain ⟨hpos, hle⟩ := hnumbered.mem hmem
    exact Binary64.toInt?_ofInt hpos (by omega)
  · intro path l files' c' hplace hthere hconnect hplace' id json
    rw [SessionsCommand.withStore_ok hthere hconnect, SessionsCommand.withStore_ok hthere hconnect,
      hkept.store_connect hc hopen hplace hconnect hplace']
    exact ⟨rfl, rfl⟩
  · intro path id json l
    exact ⟨same_withStore .., same_withStore ..⟩

/-- A session without results, and one with a completed run whose return code is that of killed ones. -/
def twoSessions : List Action :=
  [.request 0 (.begin (.text "1.0.0") 0), .request 0 (.begin (.text "1.0.0") 0),
    .request 0 (.record (.int 2) (.text "tasks/a") (.text "") (.number 1)
      (Outcome.completed (.text "") (.text "") killedReturnCode).loose)]

theorem summaries_agree_killed_code :
    let a := ((fresh (Connection.workWith {}) ["work"]).run (.connect "db.sqlite3" :: twoSessions)).1
    let s := connection.store a.files
    a.connections[0]? = some connection
      ∧ ((fresh (Connection.workWith {}) ["work"]).database (spotOf 0 connection)).IsEmpty
      ∧ ∃ entries, s.Summarizes entries
        ∧ (∀ x ∈ entries, (Binary64.ofInt x.session.id).toInt? = some x.session.id)
        ∧ ∃ files', (SessionsCommand.withStore a.files a.base "db.sqlite3"
              (SessionsCommand.listSessions "db.sqlite3" false)
            = (files', SessionsCommand.reported "db.sqlite3" (SessionsCommand.listSessions "db.sqlite3" false s)))
          ∧ Same (databaseIn (a.files.at? ["work", "db.sqlite3"]))
            (databaseIn (files'.at? ["work", "db.sqlite3"])) := by
  intro a s
  have ha : a = (opened.run twoSessions).1 := run_opened twoSessions
  have hc : a.connections[0]? = some connection := by
    rw [ha]
    decide +kernel
  have hbase : a.base = ["work"] := by
    rw [ha]
    decide +kernel
  have hdir : a.files.at? ["work"] = some .directory := by
    rw [ha]
    decide +kernel
  have hdb : Connection.databaseAt a.files ["work", "db.sqlite3"] = .ok s.db := by
    simp only [s, ha]
    decide +kernel
  have hfits : s.db.withTables.incompatibility? = none := by
    simp only [s, ha]
    decide +kernel
  have hreaches := Connection.reaches_name hdir hdb
  have hthere : (a.files.find? a.base "db.sqlite3").isSome := by
    have hlocated := hreaches.located
    have hname : trimBlanks "db.sqlite3" = "db.sqlite3" := by decide +kernel
    rw [hname, ← hbase] at hlocated
    rw [FileTree.find?, hlocated, ha]
    decide +kernel
  have hconnect := Connection.connect_of_reaches hreaches
  rw [hfits, ← hbase] at hconnect
  obtain ⟨entries, hsummarizes, -, hids, hcommands, hsame⟩ :=
    summaries_agree (Connection.workWith {}) ["work"] (.connect "db.sqlite3" :: twoSessions) hc isEmpty_workWith rfl
  have hlisted := (hcommands "db.sqlite3" ["work", "db.sqlite3"] _ _ rfl hthere hconnect rfl 1 false).1
  have hkept := (hsame "db.sqlite3" 1 false ["work", "db.sqlite3"]).1
  rw [hlisted] at hkept
  exact ⟨hc, isEmpty_workWith, entries, hsummarizes, hids (by decide), _, hlisted, hkept⟩

end Archive

end Bailiff
