-- SUMMARY: Which database stands behind a connection, and what opening and asking connections does to all databases.
import Bailiff.Proofs.Files.Tree
import Bailiff.Proofs.Results.Store

/-!
# Databases of an archive

Connections to one file share its database, and a connection without a file has a database of its own:
a `Spot` is either. A request changes the database at the spot of its connection alone
(`Archive.perform_eq`), and opening a connection adds at most missing tables to one
(`Archive.database_connect`). Connections opened by one path stay at one file (`Archive.Linked`).
-/

namespace Bailiff

/-- Where a database is: in a file, or in one connection alone. -/
inductive Spot where
  | file (l : Location)
  | connection (number : Nat)
  deriving DecidableEq, Repr

namespace Archive

variable {a a' : Archive} {c : Connection} {number : Nat}

/-! ## Spots -/

/-- The spot of the database behind a connection. -/
def spotOf (number : Nat) (c : Connection) : Spot :=
  match c.place with
  | .file l => .file l
  | .unnamed _ => .connection number

/-- The database of an entry; without one, a database without tables. -/
def databaseIn : Option Node → Database
  | some (.database db) => db
  | _ => {}

@[simp] theorem databaseIn_database (db : Database) : databaseIn (some (.database db)) = db := rfl

/-- The database that a connection has of its own; without one, a database without tables. -/
def ownDatabase : Option Place → Database
  | some (.unnamed db) => db
  | _ => {}

/-- The database at a spot. -/
def database (a : Archive) : Spot → Database
  | .file l => databaseIn (a.files.at? l)
  | .connection number => ownDatabase (a.connections[number]?.map (·.place))

/-! ## Connections -/

/-- A connection to a file has a database there, and its path leads to it. -/
def Leads (files : FileTree) (base : Location) (c : Connection) : Prop :=
  ∀ l, c.place = .file l →
    l ≠ [] ∧ (∃ db, files.at? l = some (.database db)) ∧ files.locate base (trimBlanks c.path) = .ok l

/-- Every connection leads to its database. -/
def Linked (a : Archive) : Prop := ∀ c ∈ a.connections, Leads a.files a.base c

theorem place_eq_file_iff {l : Location} : c.place = .file l ↔ spotOf number c = .file l := by
  cases h : c.place <;> simp [spotOf, h]

/-- Ways and databases stay. -/
structure Preserves (files files' : FileTree) : Prop where
  ways : files.KeepsWays files'
  databases : ∀ l db, files.at? l = some (.database db) → ∃ db', files'.at? l = some (.database db')

theorem Preserves.trans {files files' files'' : FileTree} (h : Preserves files files')
    (h' : Preserves files' files'') : Preserves files files'' := by
  refine ⟨h.ways.trans h'.ways, fun l db hdb => ?_⟩
  obtain ⟨db', hdb'⟩ := h.databases l db hdb
  exact h'.databases l db' hdb'

theorem preserves_gainsDirectories {files files' : FileTree} (h : files.GainsDirectories files') :
    Preserves files files' := by
  refine ⟨h.keepsWays, fun l db hdb => ⟨db, ?_⟩⟩
  rcases h l with heq | ⟨hnone, -⟩
  · rw [heq, hdb]
  · simp [hnone] at hdb

theorem preserves_put {files : FileTree} {l : Location} {db : Database} (hl : l ≠ [])
    (hdir : files.at? l ≠ some .directory) (hlink : ∀ target, files.at? l ≠ some (.link target)) :
    Preserves files (files.put l (.database db)) := by
  refine ⟨FileTree.keepsWays_put hl hdir hlink (by simp), fun m db' hdb' => ?_⟩
  rw [FileTree.at?_put hl]
  split
  · exact ⟨db, rfl⟩
  · exact ⟨db', hdb'⟩

theorem Leads.preserves {files files' : FileTree} {base : Location} (h : Leads files base c)
    (hfiles : Preserves files files') : Leads files' base c := by
  intro l hplace
  obtain ⟨hl, ⟨db, hdb⟩, hlocated⟩ := h l hplace
  exact ⟨hl, hfiles.databases l db hdb, FileTree.locate_of_keepsWays hfiles.ways hlocated⟩

theorem db_store (hc : a.connections[number]? = some c) :
    (c.store a.files).db = a.database (spotOf number c) := by
  unfold Connection.store spotOf
  cases hplace : c.place with
  | unnamed db => simp [database, hc, hplace, ownDatabase]
  | file l =>
    simp only [database, databaseIn]
    split <;> simp_all

/-! ## Requests -/

theorem database_set (files : FileTree) (c' : Connection) (hn : number < a.connections.length)
    (τ : Spot) :
    database { a with files, connections := a.connections.set number c' } τ
      = if τ = .connection number then ownDatabase (some c'.place)
        else database { a with files } τ := by
  cases τ with
  | file l => rfl
  | connection n =>
    by_cases h : n = number
    · subst h
      simp [database, hn]
    · simp [database, h, List.getElem?_set_ne (Ne.symm h)]

/-- A request changes the database behind its connection alone, just as its store answers. -/
theorem perform_eq (hlinked : a.Linked) (hc : a.connections[number]? = some c) (r : Request) :
    ∃ a' c', a.perform number r = some (a', ((c.store a.files).answer c.path r).2)
      ∧ a'.connections = a.connections.set number c' ∧ c'.path = c.path
      ∧ (∀ n, spotOf n c' = spotOf n c)
      ∧ a'.base = a.base ∧ Preserves a.files a'.files
      ∧ ∀ τ, a'.database τ = if τ = spotOf number c then ((c.store a.files).answer c.path r).1.db
          else a.database τ := by
  obtain ⟨hn, -⟩ := List.getElem?_eq_some_iff.mp hc
  refine ⟨_, _, by simp only [perform, hc, Option.map_some]; rfl, rfl, ?_⟩
  generalize (c.store a.files).answer c.path r = answered
  unfold Connection.commit
  cases hplace : c.place with
  | unnamed db =>
    refine ⟨rfl, by simp [spotOf, hplace], rfl, preserves_gainsDirectories (.refl _), fun τ => ?_⟩
    rw [database_set _ _ hn]
    simp [spotOf, hplace, ownDatabase]
  | file l =>
    obtain ⟨hl, ⟨db, hdb⟩, -⟩ := hlinked c (List.mem_of_getElem? hc) l hplace
    refine ⟨rfl, by simp [spotOf, hplace], rfl, ?_, fun τ => ?_⟩
    · exact preserves_put hl (by simp [hdb]) (by simp [hdb])
    · rw [database_set _ _ hn]
      cases τ with
      | file m => by_cases h : m = l <;> simp [spotOf, hplace, database, FileTree.at?_put hl, h, databaseIn]
      | connection n =>
        by_cases h : n = number <;> simp [spotOf, hplace, database, h, ownDatabase, hc]

/-! ## Opening -/

/-- Where a database can be opened there is no directory and no link, and what is opened is the
database that is there. -/
theorem databaseAt_eq_ok {files : FileTree} {l : Location} {db : Database}
    (h : Connection.databaseAt files l = .ok db) :
    l ≠ [] ∧ files.at? l ≠ some .directory ∧ (∀ target, files.at? l ≠ some (.link target))
      ∧ db = databaseIn (files.at? l) := by
  have hroot : l ≠ [] := by
    rintro rfl
    simp [Connection.databaseAt, FileTree.at?] at h
  unfold Connection.databaseAt at h
  cases hentry : files.at? l with
  | none => simp_all [databaseIn]
  | some n => cases n <;> grind [databaseIn]

/-- What opening a connection can come to. -/
inductive Opened (files : FileTree) (base : Location) (path : String) :
    FileTree → Except Failure Connection → Prop where
  | refused {files' f} (gains : files.GainsDirectories files') :
      Opened files base path files' (.error f)
  | unnamed {files'} (gains : files.GainsDirectories files') :
      Opened files base path files'
        (.ok { path, place := .unnamed (Database.withTables {}) })
  | file {files' l verdict} (gains : files.GainsDirectories files') (hl : l ≠ [])
      (directory : files'.at? l ≠ some .directory)
      (link : ∀ target, files'.at? l ≠ some (.link target))
      (located : files'.locate base (trimBlanks path) = .ok l)
      (verdict_ok : ∀ c, verdict = .ok c → c = { path, place := .file l }) :
      Opened files base path
        (files'.put l (.database (databaseIn (files'.at? l)).withTables)) verdict

theorem Opened.of_connect (files : FileTree) (base : Location) (path : String) :
    Opened files base path (Connection.connect files base path).1
      (Connection.connect files base path).2 := by
  unfold Connection.connect
  dsimp only
  split
  next => exact .refused (.refl files)
  next files' hmade =>
    have hgains := FileTree.makeDirectories_gainsDirectories hmade
    split
    · exact .unnamed hgains
    split
    · exact .refused hgains
    split
    · exact .refused hgains
    next l hlocated =>
      split
      · exact .refused hgains
      next db hdb =>
        obtain ⟨hl, hdirectory, hlink, rfl⟩ := databaseAt_eq_ok hdb
        unfold Store.prepare
        dsimp only
        split
        · exact .file hgains hl hdirectory hlink hlocated (by simp [Except.map])
        · exact .file hgains hl hdirectory hlink hlocated (by simp [Except.map, eq_comm])

theorem databaseIn_gainsDirectories {files files' : FileTree} (h : files.GainsDirectories files')
    (l : Location) : databaseIn (files'.at? l) = databaseIn (files.at? l) := by
  rcases h l with heq | ⟨hnone, hdir⟩
  · rw [heq]
  · rw [hnone, hdir]
    rfl

/-- The archive after a connection has been opened, or has not. -/
def withConnection (a : Archive) (files : FileTree) (verdict : Except Failure Connection) :
    Archive :=
  { a with files, connections := a.connections ++ verdict.toOption.toList }

theorem connect_opened (a : Archive) (path : String) :
    ∃ files verdict, Opened a.files a.base path files verdict
      ∧ (a.connect path).1 = a.withConnection files verdict := by
  refine ⟨_, _, .of_connect a.files a.base path, ?_⟩
  unfold connect withConnection
  split <;> simp_all [Except.toOption]

theorem database_withConnection (files : FileTree) (verdict : Except Failure Connection) (τ : Spot) :
    (a.withConnection files verdict).database τ
      = if τ = .connection a.connections.length then
          ownDatabase (verdict.toOption.map (·.place))
        else database { a with files } τ := by
  cases τ with
  | file l => rfl
  | connection n =>
    rcases Nat.lt_trichotomy n a.connections.length with h | h | h
    · simp [withConnection, database, List.getElem?_append_left h, Nat.ne_of_lt h]
    · subst h
      cases verdict <;> simp [withConnection, database, Except.toOption]
    · have hlen : (a.connections ++ verdict.toOption.toList).length ≤ n := by
        cases verdict <;> simp [Except.toOption] <;> omega
      simp [withConnection, database, List.getElem?_eq_none hlen,
        List.getElem?_eq_none (Nat.le_of_lt h), Nat.ne_of_gt h]

theorem database_gainsDirectories {files : FileTree} (h : a.files.GainsDirectories files)
    (τ : Spot) : database { a with files } τ = a.database τ := by
  cases τ with
  | file l => exact databaseIn_gainsDirectories h l
  | connection n => rfl

/-- A connection that is not there yet has no database. -/
theorem database_connection_length :
    a.database (.connection a.connections.length) = {} := by
  simp [database, ownDatabase]

/-- Opening a connection adds at most missing tables to any database. -/
theorem database_connect (path : String) (τ : Spot) :
    (a.connect path).1.database τ = a.database τ
      ∨ (a.connect path).1.database τ = (a.database τ).withTables := by
  obtain ⟨files, verdict, hopened, heq⟩ := connect_opened a path
  rw [heq]
  rw [database_withConnection]
  by_cases hτ : τ = .connection a.connections.length
  · subst hτ
    rw [if_pos rfl, database_connection_length]
    cases hopened with
    | refused => exact .inl rfl
    | unnamed => exact .inr rfl
    | file _ _ _ _ _ hok =>
      cases verdict with
      | error f => exact .inl rfl
      | ok c => exact .inl (by simp [hok c rfl, Except.toOption, ownDatabase])
  · rw [if_neg hτ]
    cases hopened with
    | refused gains => exact .inl (database_gainsDirectories gains τ)
    | unnamed gains => exact .inl (database_gainsDirectories gains τ)
    | @file files' l _ gains hl =>
      cases τ with
      | connection n => exact .inl rfl
      | file m =>
        simp only [database, FileTree.at?_put hl]
        rw [← databaseIn_gainsDirectories gains m]
        by_cases h : m = l
        · subst h
          exact .inr (by simp [databaseIn])
        · exact .inl (by simp [h])

/-- A new connection stands behind the others, and its database has both tables. -/
theorem connections_connect (path : String) :
    (a.connect path).1.connections = a.connections
      ∨ ∃ c, (a.connect path).1.connections = a.connections ++ [c]
        ∧ (a.connect path).1.database (spotOf a.connections.length c)
            = (a.database (spotOf a.connections.length c)).withTables := by
  obtain ⟨files, verdict, hopened, heq⟩ := connect_opened a path
  rw [heq]
  cases hopened with
  | refused => exact .inl (by simp [withConnection, Except.toOption])
  | unnamed gains =>
    refine .inr ⟨_, rfl, ?_⟩
    simp [database_withConnection, spotOf, database_connection_length, Except.toOption, ownDatabase]
  | @file files' l verdict gains hl _ _ _ hok =>
    cases verdict with
    | error f => exact .inl (by simp [withConnection, Except.toOption])
    | ok c =>
      obtain rfl := hok c rfl
      refine .inr ⟨_, rfl, ?_⟩
      simp [spotOf, withConnection, database, FileTree.at?_put hl,
        ← databaseIn_gainsDirectories gains l]

/-! ## Shared files -/

theorem linked_connect (hlinked : a.Linked) (path : String) : (a.connect path).1.Linked := by
  obtain ⟨files, verdict, hopened, heq⟩ := connect_opened a path
  rw [heq]
  intro c hc
  rw [withConnection, List.mem_append] at hc
  cases hopened with
  | refused gains =>
    rcases hc with hc | hc
    · exact (hlinked c hc).preserves (preserves_gainsDirectories gains)
    · cases hc
  | unnamed gains =>
    rcases hc with hc | hc
    · exact (hlinked c hc).preserves (preserves_gainsDirectories gains)
    · obtain rfl : c = _ := by simpa [Except.toOption] using hc
      intro l hplace
      cases hplace
  | @file files' l verdict gains hl directory link located hok =>
    have hput : Preserves files' (files'.put l (.database (databaseIn (files'.at? l)).withTables)) :=
      preserves_put hl directory link
    rcases hc with hc | hc
    · exact (hlinked c hc).preserves ((preserves_gainsDirectories gains).trans hput)
    · cases verdict with
      | error f => cases hc
      | ok c' =>
        obtain rfl : c = c' := by simpa [Except.toOption] using hc
        obtain rfl := hok c rfl
        intro m hplace
        cases hplace
        exact ⟨hl, ⟨_, by rw [withConnection, FileTree.at?_put hl, if_pos rfl]⟩,
          FileTree.locate_of_keepsWays hput.ways located⟩

theorem linked_perform (hlinked : a.Linked) {c' : Connection}
    (hc : a.connections[number]? = some c) (hset : a'.connections = a.connections.set number c')
    (hpath : c'.path = c.path) (hspot : ∀ n, spotOf n c' = spotOf n c) (hbase : a'.base = a.base)
    (hfiles : Preserves a.files a'.files) : a'.Linked := by
  intro d hd
  rw [hset] at hd
  rw [hbase]
  rcases List.mem_or_eq_of_mem_set hd with hd | rfl
  · exact (hlinked d hd).preserves hfiles
  · intro l hplace
    rw [@place_eq_file_iff _ number, hspot, ← place_eq_file_iff] at hplace
    rw [hpath]
    exact (hlinked c (List.mem_of_getElem? hc)).preserves hfiles l hplace

/-- Connections opened by one path share one file. -/
theorem Linked.shared (hlinked : a.Linked) {d : Connection} {l m : Location}
    (hc : c ∈ a.connections) (hd : d ∈ a.connections) (hpath : c.path = d.path)
    (hl : c.place = .file l) (hm : d.place = .file m) : l = m := by
  obtain ⟨-, -, hlocated⟩ := hlinked c hc l hl
  obtain ⟨-, -, hlocated'⟩ := hlinked d hd m hm
  rw [hpath, hlocated'] at hlocated
  cases hlocated
  rfl

end Archive

end Bailiff
