-- SUMMARY: What opening a result store leaves alone, what it adds, and which tables it turns down.
import Bailiff.Proofs.Results.Archive

/-!
# Opening a result store

Opening a path stops short of any database (`Connection.connect_cases`), or it reaches one
(`Connection.Reaches`). A database that is reached gets the tables that it lacks, and is then turned down just
if a table lacks columns (`Connection.connect_of_reaches`), which is never one that was added
(`Database.incompatibility?_withTables`). What has been opened has both tables, so to open it again changes
nothing.
-/

namespace Bailiff

/-! ## Tables that lack columns -/

namespace Database

variable {db db' : Database} {table : String} {columns : List String}

/-- A table that is there and lacks columns, with these columns. The table of results counts just if that of
sessions lacks none. -/
inductive Lacks (db : Database) : String → List String → Prop where
  | sessions {t : Table Session} (isThere : db.sessionTable = some t)
      (lacks : lacking sessionColumns t.columns ≠ []) : Lacks db "sessions" (lacking sessionColumns t.columns)
  | results {t : Table ResultRow} (fits : ∀ s, db.sessionTable = some s → lacking sessionColumns s.columns = [])
      (isThere : db.resultTable = some t) (lacks : lacking resultColumns t.columns ≠ []) :
      Lacks db "tests" (lacking resultColumns t.columns)

theorem lacking_self (expected : List String) : lacking expected expected = [] := by
  simp [lacking]

/-- The columns that the table of sessions lacks once it is there. -/
theorem lacking_sessions (db : Database) :
    lacking sessionColumns (db.withTables.sessionTable.elim [] (·.columns))
      = db.sessionTable.elim [] fun t => lacking sessionColumns t.columns := by
  cases h : db.sessionTable <;> simp [withTables, h, lacking_self]

/-- The columns that the table of results lacks once it is there. -/
theorem lacking_results (db : Database) :
    lacking resultColumns (db.withTables.resultTable.elim [] (·.columns))
      = db.resultTable.elim [] fun t => lacking resultColumns t.columns := by
  cases h : db.resultTable <;> simp [withTables, h, lacking_self]

/-- A table that has been added lacks nothing, so it is an older one that is turned down. -/
theorem incompatibility?_withTables :
    db.withTables.incompatibility? = some (table, columns) ↔ db.Lacks table columns := by
  unfold incompatibility?
  rw [lacking_sessions, lacking_results]
  dsimp only
  constructor
  · intro h
    split at h
    next hsessions =>
      cases ht : db.sessionTable with
      | none => simp [ht] at hsessions
      | some t =>
        simp only [ht, Option.elim_some, Option.some.injEq, Prod.mk.injEq] at h hsessions
        obtain ⟨rfl, rfl⟩ := h
        exact .sessions ht (by simpa using hsessions)
    next hsessions =>
      split at h
      next hresults =>
        cases ht : db.resultTable with
        | none => simp [ht] at hresults
        | some t =>
          simp only [ht, Option.elim_some, Option.some.injEq, Prod.mk.injEq] at h hresults
          obtain ⟨rfl, rfl⟩ := h
          refine .results (fun s hs => ?_) ht (by simpa using hresults)
          simpa [hs] using hsessions
      next => cases h
  · intro h
    cases h with
    | sessions isThere lacks => simp [isThere, lacks]
    | results fits isThere lacks =>
      cases hs : db.sessionTable with
      | none => simp [isThere, lacks]
      | some s => simp [isThere, lacks, fits s hs]

theorem withTables_withTables (db : Database) : db.withTables.withTables = db.withTables := rfl

end Database

/-! ## Readers -/

/-- Whatever is read from databases with the same sessions and results is the same. -/
theorem Store.answer_same {db db' : Database} (hsessions : db'.sessions = db.sessions)
    (hresults : db'.results = db.results) {r : Request} (hr : r.adds = false) (isOpen : Bool) (path : String) :
    ((⟨db', isOpen⟩ : Store).answer path r).2 = ((⟨db, isOpen⟩ : Store).answer path r).2 := by
  have hsession : db'.session? = db.session? := by
    funext id
    rw [Database.session?, hsessions, Database.session?]
  have hhas : db'.hasResult = db.hasResult := by
    funext session task
    rw [Database.hasResult, hresults, Database.hasResult]
  have hsummaries : db'.summaries = db.summaries := by
    have hsummary : db'.summaryOf = db.summaryOf := by
      funext s
      rw [Database.summaryOf, hresults, Database.summaryOf]
    rw [Database.summaries, hsessions, hsummary, Database.summaries]
  have hrows : db'.resultsOf = db.resultsOf := by
    funext session
    rw [Database.resultsOf, hresults, Database.resultsOf]
  cases r with
  | «begin» | record => cases hr
  | resume | get =>
    simp only [answer, resumeSessionWith, getSessionWith, bindFor, whenOpen, getSession, hsession]
  | has => simp only [answer, hasResultWith, bindFor, whenOpen, hasResult, hhas]
  | sessions => simp only [answer, listSessions, whenOpen, hsummaries]
  | results | status => simp only [answer, listResultsWith, bindFor, whenOpen, listResults, hrows]
  | path | close => rfl

/-- A database is turned down with a table and the columns that the table lacks. -/
def Store.incompatible (table : String) (columns : List String) : Failure :=
  .of .storage
    ("Incompatible result store: table " ++ table ++ " is missing column(s) " ++ ", ".intercalate columns)

namespace Connection

variable {files files' : FileTree} {base l : Location} {path : String} {db : Database}

/-! ## Reaching a database -/

/-- The directories that opening a path makes. -/
def makeParent (files : FileTree) (base : Location) (path : String) : Except FileFault FileTree :=
  files.makeDirectories base (Path.directory (Path.resolve (Path.ofParts base) path))

/-- A path that names no file. -/
def isUnnamed (path : String) : Bool := (trimBlanks path).isEmpty || trimBlanks path = ":memory:"

/-- Opening a path gets as far as a database: its directories can be made, the path as written leads to a
location below a directory, and there is a database or nothing. -/
structure Reaches (files : FileTree) (base : Location) (path : String) (files' : FileTree) (l : Location)
    (db : Database) : Prop where
  made : makeParent files base path = .ok files'
  named : isUnnamed path = false
  parent : (files'.find? base (Path.directory (trimBlanks path))).isSome
  located : files'.locate base (trimBlanks path) = .ok l
  opened : databaseAt files' l = .ok db

/-- A database that is reached gets the tables that it lacks, and is turned down just if one lacks columns. -/
theorem connect_of_reaches (h : Reaches files base path files' l db) :
    connect files base path = (files'.put l (.database db.withTables),
      match db.withTables.incompatibility? with
      | some (table, columns) => .error (Store.incompatible table columns)
      | none => .ok { path, place := .file l }) := by
  have hmade := h.made
  have hnamed := h.named
  have hparent := Option.isNone_eq_false_iff.mpr h.parent
  unfold makeParent at hmade
  unfold isUnnamed at hnamed
  unfold connect
  simp only [hmade, hnamed, hparent, h.located, h.opened, Store.prepare, Bool.false_eq_true, if_false]
  cases db.withTables.incompatibility? <;> rfl

/-- A path is refused with directories made at most, names no file, or reaches a database. -/
theorem connect_cases (files : FileTree) (base : Location) (path : String) :
    (∃ files' reason, files.GainsDirectories files'
        ∧ connect files base path = (files', .error (cannotOpen path reason)))
      ∨ (∃ files', makeParent files base path = .ok files' ∧ isUnnamed path = true)
      ∨ ∃ files' l db, Reaches files base path files' l db := by
  cases hmade : makeParent files base path with
  | error fault =>
    refine .inl ⟨files, fault.message, .refl files, ?_⟩
    unfold makeParent at hmade
    unfold connect
    simp only [hmade]
  | ok files' =>
    have hgains := FileTree.makeDirectories_gainsDirectories hmade
    cases hnamed : isUnnamed path with
    | true => exact .inr (.inl ⟨files', rfl, rfl⟩)
    | false =>
      have hmade' := hmade
      have hnamed' := hnamed
      unfold makeParent at hmade'
      unfold isUnnamed at hnamed'
      cases hparent : files'.find? base (Path.directory (trimBlanks path)) with
      | none =>
        refine .inl ⟨files', "Cannot open database because the directory does not exist", hgains, ?_⟩
        unfold connect
        simp [hmade', hnamed', hparent]
      | some node =>
        cases hlocated : files'.locate base (trimBlanks path) with
        | error code =>
          refine .inl ⟨files', "unable to open database file", hgains, ?_⟩
          unfold connect
          simp [hmade', hnamed', hparent, hlocated]
        | ok l =>
          cases hopened : databaseAt files' l with
          | error reason =>
            refine .inl ⟨files', reason, hgains, ?_⟩
            unfold connect
            simp [hmade', hnamed', hparent, hlocated, hopened]
          | ok db => exact .inr (.inr ⟨files', l, db, hmade, hnamed, by rw [hparent]; rfl, hlocated, hopened⟩)

theorem connect_of_isUnnamed (hmade : makeParent files base path = .ok files') (h : isUnnamed path = true) :
    connect files base path = (files', .ok { path, place := .unnamed (Database.withTables {}) }) := by
  unfold makeParent at hmade
  unfold isUnnamed at h
  unfold connect
  simp only [hmade, h, if_true]

/-! ## What is left of a database that was reached -/

/-- The tree is the same, except that directories may have been made and that the database at a location has
got the tables that it lacked. -/
def Completes (files files' : FileTree) (l : Location) : Prop :=
  files'.at? l = some (.database (Archive.databaseIn (files.at? l)).withTables)
    ∧ ∀ m, m ≠ l → files'.at? m = files.at? m ∨ files.at? m = none ∧ files'.at? m = some .directory

theorem Reaches.gains (h : Reaches files base path files' l db) : files.GainsDirectories files' :=
  FileTree.makeDirectories_gainsDirectories h.made

theorem Reaches.db_eq (h : Reaches files base path files' l db) : db = Archive.databaseIn (files.at? l) := by
  obtain ⟨-, -, -, rfl⟩ := Archive.databaseAt_eq_ok h.opened
  exact Archive.databaseIn_gainsDirectories h.gains l

theorem Reaches.completes (h : Reaches files base path files' l db) :
    Completes files (files'.put l (.database db.withTables)) l := by
  obtain ⟨hl, -, -, -⟩ := Archive.databaseAt_eq_ok h.opened
  refine ⟨?_, fun m hm => ?_⟩
  · rw [FileTree.at?_put hl, if_pos rfl, h.db_eq]
  · rw [FileTree.at?_put hl, if_neg hm]
    exact h.gains m

theorem Completes.databaseIn (h : Completes files files' l) (m : Location) :
    (Archive.databaseIn (files'.at? m)).sessions = (Archive.databaseIn (files.at? m)).sessions
      ∧ (Archive.databaseIn (files'.at? m)).results = (Archive.databaseIn (files.at? m)).results := by
  by_cases hm : m = l
  · subst hm
    rw [h.1]
    exact ⟨Database.sessions_withTables _, Database.results_withTables _⟩
  · rcases h.2 m hm with heq | ⟨hnone, hdir⟩
    · rw [heq]
      exact ⟨rfl, rfl⟩
    · rw [hnone, hdir]
      exact ⟨rfl, rfl⟩

/-- A database that was reached is reached again, with both tables. -/
theorem Reaches.again (h : Reaches files base path files' l db) :
    Reaches (files'.put l (.database db.withTables)) base path (files'.put l (.database db.withTables)) l
      db.withTables := by
  obtain ⟨hl, hdir, hlink, -⟩ := Archive.databaseAt_eq_ok h.opened
  have hways : files'.KeepsWays (files'.put l (.database db.withTables)) :=
    FileTree.keepsWays_put hl hdir hlink (by simp)
  refine ⟨FileTree.makeDirectories_of_keepsWays h.made hways, h.named, ?_,
    FileTree.locate_of_keepsWays hways h.located, ?_⟩
  · have hparent := h.parent
    unfold FileTree.find? at hparent ⊢
    cases hlocated : files'.locate base (Path.directory (trimBlanks path)) with
    | error code => simp [hlocated] at hparent
    | ok m =>
      rw [FileTree.locate_of_keepsWays hways hlocated]
      simp only [hlocated, FileTree.at?_put hl] at hparent ⊢
      split
      · rfl
      · exact hparent
  · simp [databaseAt, FileTree.at?_put hl]

/-! ## Opening a path -/

/-- To open a path once more after it has been opened changes nothing. -/
theorem connect_again {c : Connection} (h : connect files base path = (files', .ok c)) :
    connect files' base path = (files', .ok c) := by
  obtain ⟨_, reason, -, hrefused⟩ | ⟨made, hmade, hnamed⟩ | ⟨made, l, db, hreaches⟩ :=
    connect_cases files base path
  · rw [hrefused] at h
    cases h
  · rw [connect_of_isUnnamed hmade hnamed] at h
    cases h
    exact connect_of_isUnnamed (FileTree.makeDirectories_of_keepsWays hmade (.refl files')) hnamed
  · have hagain := connect_of_reaches hreaches.again
    rw [Database.withTables_withTables, FileTree.put_put, ← connect_of_reaches hreaches, h] at hagain
    rw [connect_of_reaches hreaches] at h
    obtain rfl := (Prod.mk.inj h).1
    exact hagain

/-- What opening a path comes to. -/
inductive Comes (files : FileTree) (base : Location) (path : String) :
    FileTree → Except Failure Connection → Prop where
  | refused {files' : FileTree} {reason : String} (gains : files.GainsDirectories files') :
      Comes files base path files' (.error (cannotOpen path reason))
  | unnamed {files' : FileTree} (gains : files.GainsDirectories files') :
      Comes files base path files' (.ok { path, place := .unnamed (Database.withTables {}) })
  | rejected {made files' : FileTree} {l : Location} {db : Database} {table : String} {columns : List String}
      (reaches : Reaches files base path made l db) (lacks : db.Lacks table columns)
      (completes : Completes files files' l) :
      Comes files base path files' (.error (Store.incompatible table columns))
  | accepted {files' : FileTree} {l : Location} (completes : Completes files files' l) :
      Comes files base path files' (.ok { path, place := .file l })

theorem comes_connect (files : FileTree) (base : Location) (path : String) :
    Comes files base path (connect files base path).1 (connect files base path).2 := by
  obtain ⟨made, reason, hgains, hrefused⟩ | ⟨made, hmade, hnamed⟩ | ⟨made, l, db, hreaches⟩ :=
    connect_cases files base path
  · rw [hrefused]
    exact .refused hgains
  · rw [connect_of_isUnnamed hmade hnamed]
    exact .unnamed (FileTree.makeDirectories_gainsDirectories hmade)
  · rw [connect_of_reaches hreaches]
    cases hfits : db.withTables.incompatibility? with
    | none => exact .accepted hreaches.completes
    | some lacking => exact .rejected hreaches (Database.incompatibility?_withTables.mp hfits) hreaches.completes

theorem connect_of_lacks {table : String} {columns : List String} (h : Reaches files base path files' l db)
    (hlacks : db.Lacks table columns) :
    ∃ left, connect files base path = (left, .error (Store.incompatible table columns)) := by
  rw [connect_of_reaches h, Database.incompatibility?_withTables.mpr hlacks]
  exact ⟨_, rfl⟩

theorem cannotOpen_ne_incompatible {reason table : String} {columns : List String} :
    cannotOpen path reason ≠ Store.incompatible table columns := by
  intro h
  have hcause : (cannotOpen path reason).cause?.isSome = (Store.incompatible table columns).cause?.isSome := by rw [h]
  cases hcause

/-- An opening that fails changes no database, or it has reached one and turned it down. -/
theorem connect_error {f : Failure} (h : connect files base path = (files', .error f)) :
    files.GainsDirectories files'
      ∨ ∃ l table columns, Completes files files' l ∧ (Archive.databaseIn (files.at? l)).Lacks table columns
          ∧ f = Store.incompatible table columns := by
  have hcomes := comes_connect files base path
  rw [h] at hcomes
  cases hcomes with
  | refused gains => exact .inl gains
  | rejected reaches lacks completes => exact .inr ⟨_, _, _, completes, reaches.db_eq ▸ lacks, rfl⟩

/-- An opening that succeeds adds tables at most. -/
theorem connect_ok {c : Connection} (h : connect files base path = (files', .ok c)) :
    files.GainsDirectories files' ∨ ∃ l, c.place = .file l ∧ Completes files files' l := by
  have hcomes := comes_connect files base path
  rw [h] at hcomes
  cases hcomes with
  | unnamed gains => exact .inl gains
  | @accepted _ l completes => exact .inr ⟨l, rfl, completes⟩

/-- What tables are added changes nothing for readers. -/
theorem answer_completed (h : files.GainsDirectories files' ∨ ∃ l, Completes files files' l) (m : Location)
    {r : Request} (hr : r.adds = false) (isOpen : Bool) (p : String) :
    ((⟨Archive.databaseIn (files'.at? m), isOpen⟩ : Store).answer p r).2
      = ((⟨Archive.databaseIn (files.at? m), isOpen⟩ : Store).answer p r).2 := by
  rcases h with hgains | ⟨l, hcompletes⟩
  · rw [Archive.databaseIn_gainsDirectories hgains]
  · obtain ⟨hsessions, hresults⟩ := hcompletes.databaseIn m
    exact Store.answer_same hsessions hresults hr isOpen p

theorem connect_incompatible_iff :
    (∃ left table columns, connect files base path = (left, .error (Store.incompatible table columns)))
      ↔ ∃ made l db table columns, Reaches files base path made l db ∧ db.Lacks table columns := by
  constructor
  · rintro ⟨left, table, columns, h⟩
    have hcomes := comes_connect files base path
    rw [h] at hcomes
    generalize hverdict : Store.incompatible table columns = f at hcomes
    cases hcomes with
    | refused => exact absurd hverdict.symm cannotOpen_ne_incompatible
    | rejected reaches lacks => exact ⟨_, _, _, _, _, reaches, lacks⟩
  · rintro ⟨made, l, db, table, columns, hreaches, hlacks⟩
    obtain ⟨left, h⟩ := connect_of_lacks hreaches hlacks
    exact ⟨left, table, columns, h⟩

/-- For databases whose tables of these names, if they are there, have ordinary columns, and in which nothing but
a table has these names. An opening that fails leaves every database as it is, unless an older table lacks columns;
then the database has got the table that it had not. One that succeeds leaves all that can be read as it was, and may
be repeated without effect. A database that is reached is turned down just if a table lacks columns: the first one
that does, with the columns that it lacks. -/
theorem connect_adds_tables_at_most (files : FileTree) (base : Location) (path : String) :
    (∀ left f, connect files base path = (left, .error f) →
        files.GainsDirectories left
          ∨ ∃ l table columns, Completes files left l ∧ (Archive.databaseIn (files.at? l)).Lacks table columns
              ∧ f = Store.incompatible table columns)
      ∧ (∀ left c, connect files base path = (left, .ok c) →
          (files.GainsDirectories left ∨ ∃ l, c.place = .file l ∧ Completes files left l)
            ∧ (∀ l r isOpen p, r.adds = false →
                ((⟨Archive.databaseIn (left.at? l), isOpen⟩ : Store).answer p r).2
                  = ((⟨Archive.databaseIn (files.at? l), isOpen⟩ : Store).answer p r).2)
            ∧ connect left base path = (left, .ok c))
      ∧ ((∃ left table columns, connect files base path = (left, .error (Store.incompatible table columns)))
          ↔ ∃ made l db table columns, Reaches files base path made l db ∧ db.Lacks table columns)
      ∧ ∀ made l db table columns, Reaches files base path made l db → db.Lacks table columns →
          ∃ left, connect files base path = (left, .error (Store.incompatible table columns)) := by
  refine ⟨fun left f => connect_error, ?_, connect_incompatible_iff,
    fun made l db table columns => connect_of_lacks⟩
  intro left c h
  have hadded := connect_ok h
  refine ⟨hadded, fun l r isOpen p hr => ?_, connect_again h⟩
  exact answer_completed (hadded.imp_right fun ⟨l, _, hcompletes⟩ => ⟨l, hcompletes⟩) l hr isOpen p

/-- A path that is a name leads to a database in the working directory. -/
theorem reaches_name (hdir : files.at? ["work"] = some .directory)
    (hopened : databaseAt files ["work", "db.sqlite3"] = .ok db) :
    Reaches files ["work"] "db.sqlite3" files ["work", "db.sqlite3"] db := by
  obtain ⟨-, -, hlink, -⟩ := Archive.databaseAt_eq_ok hopened
  have hparent : Path.directory (Path.resolve (Path.ofParts ["work"]) "db.sqlite3") = "/work" := by decide +kernel
  have hname : trimBlanks "db.sqlite3" = "db.sqlite3" := by decide +kernel
  have hhere : Path.directory "db.sqlite3" = "." := by decide +kernel
  have hparts : Path.parts "/work" = ["", "work"] := by decide +kernel
  have hdot : Path.parts "." = ["."] := by decide +kernel
  have hplain : Path.parts "db.sqlite3" = ["db.sqlite3"] := by decide +kernel
  constructor
  case made =>
    have hway : files.makeWay [] ["", "work"] = .ok files := by simp [FileTree.makeWay, hdir]
    unfold makeParent FileTree.makeDirectories
    rw [hparent, hparts, if_pos (by decide +kernel), hway]
    rfl
  case named => decide +kernel
  case parent =>
    unfold FileTree.find? FileTree.locate
    rw [hname, hhere, hdot, if_neg (by decide +kernel), if_neg (by decide +kernel)]
    rw [FileTree.walk, if_pos (.inr rfl), FileTree.walk]
    simp [hdir]
  case located =>
    unfold FileTree.locate
    rw [hname, hplain, if_neg (by decide +kernel), if_neg (by decide +kernel)]
    exact FileTree.walk_last (by decide) (by decide) hlink
  case opened => exact hopened

/-- A table of sessions whose columns are named in capitals, and no table of results. -/
def capitalSessions : Database :=
  { sessionTable := some { columns := ["ID", "VERSION", "START_TIME"], isForeign := true } }

theorem capitalSessions_lacks : capitalSessions.Lacks "sessions" ["id", "version", "start_time"] :=
  @Database.Lacks.sessions capitalSessions _ rfl (by decide)

/-- A working directory with a database. -/
def workWith (db : Database) : FileTree :=
  ⟨[(["work"], .directory), (["work", "db.sqlite3"], .database db)]⟩

theorem reaches_workWith (db : Database) :
    Reaches (workWith db) ["work"] "db.sqlite3" (workWith db) ["work", "db.sqlite3"] db :=
  reaches_name rfl rfl

theorem connect_adds_tables_at_most_to_capitals :
    (∃ left, connect (workWith capitalSessions) ["work"] "db.sqlite3"
        = (left, .error (Store.incompatible "sessions" ["id", "version", "start_time"])))
      ∧ connect (connect (workWith {}) ["work"] "db.sqlite3").1 ["work"] "db.sqlite3"
        = connect (workWith {}) ["work"] "db.sqlite3" := by
  obtain ⟨-, -, -, hrejects⟩ := connect_adds_tables_at_most (workWith capitalSessions) ["work"] "db.sqlite3"
  obtain ⟨-, hopens, -, -⟩ := connect_adds_tables_at_most (workWith {}) ["work"] "db.sqlite3"
  constructor
  · exact hrejects _ _ _ _ _ (reaches_workWith _) capitalSessions_lacks
  · have hopened := connect_of_reaches (reaches_workWith {})
    rw [hopened]
    exact (hopens _ _ hopened).2.2

/-- A store that is turned down for its sessions has a table of results afterwards that it had not before. -/
theorem failed_opening_adds_table :
    (connect (workWith capitalSessions) ["work"] "db.sqlite3").2
        = .error (Store.incompatible "sessions" ["id", "version", "start_time"])
      ∧ (workWith capitalSessions).at? ["work", "db.sqlite3"] = some (.database capitalSessions)
      ∧ (connect (workWith capitalSessions) ["work"] "db.sqlite3").1.at? ["work", "db.sqlite3"]
        = some (.database { capitalSessions with resultTable := some { columns := resultColumns } }) := by
  rw [connect_of_reaches (reaches_workWith _)]
  exact ⟨rfl, rfl, rfl⟩

end Connection

end Bailiff
