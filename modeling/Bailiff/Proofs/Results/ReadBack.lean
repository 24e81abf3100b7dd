-- SUMMARY: What is recorded is what is read, from then on and over every connection to the same database.
import Bailiff.Proofs.Number.Notation
import Bailiff.Proofs.Results.Decision
import Bailiff.Proofs.Results.Numbering
import Bailiff.Proofs.Text.Utf8

/-!
# Reading back what was recorded

The text of an instant is never kept as a number (`Stamp.ofText_iso`), and a row of an outcome shows what was asked
to be recorded (`ResultRow.Tells.fields_eq`). Sessions and results stay where they are, so both are read back in
every later state of an archive (`Archive.recorded_is_read`).
-/

namespace Bailiff

/-! ## Start times -/

theorem zeroPadded_ne_nil {w n : Nat} : Instant.zeroPadded w n ≠ [] :=
  List.append_ne_nil_of_right_ne_nil _ Nat.toDigits_ne_nil

/-- Digits before a dash are no number. -/
theorem unsignedDecimal?_dash {digits : List Char} (hdigits : AreDigits digits) (more : List Char) :
    unsignedDecimal? (digits ++ '-' :: more) = none := by
  have hdash : StopsDigits ('-' :: more) := by
    intro c hc
    cases hc
    rfl
  obtain ⟨htake, hdrop⟩ := takeWhile_digits hdigits hdash
  unfold unsignedDecimal?
  rw [htake, hdrop]
  exact ite_self none

/-- A year before a dash is no number. -/
theorem signedDecimal?_yearText (year : Int) (more : List Char) :
    signedDecimal? (Instant.yearText year ++ '-' :: more) = none := by
  have hnone (w : Nat) : unsignedDecimal? (Instant.zeroPadded w year.natAbs ++ '-' :: more) = none :=
    unsignedDecimal?_dash (areDigits_padded _ _) more
  have hrest : ∃ w, (splitSign (Instant.yearText year ++ '-' :: more)).2
      = Instant.zeroPadded w year.natAbs ++ '-' :: more := by
    unfold Instant.yearText
    split
    · refine ⟨4, ?_⟩
      obtain ⟨c, rest, hyear⟩ := List.exists_cons_of_ne_nil (zeroPadded_ne_nil (w := 4) (n := year.natAbs))
      have hc : c ∈ Instant.zeroPadded 4 year.natAbs := hyear ▸ List.mem_cons_self
      rw [hyear, List.cons_append, splitSign_of_isDigit (areDigits_padded _ _ c hc)]
    · split <;> exact ⟨6, rfl⟩
  obtain ⟨w, hrest⟩ := hrest
  unfold signedDecimal?
  dsimp only
  rw [hrest, hnone, Option.map_none]

theorem isAsciiBlank_of_isDigit {c : Char} (hc : c.isDigit = true) : isAsciiBlank c = false := by
  obtain ⟨hlow, -⟩ := Char.isDigit_iff_toNat.mp hc
  have hspace : c ≠ ' ' := by
    rintro rfl
    cases hc
  have hreturn : ¬c ≤ '\r' := by
    rw [Char.le_def, UInt32.le_iff_toNat_le]
    exact Nat.not_le_of_lt (Nat.lt_of_lt_of_le (by decide) hlow)
  simp [isAsciiBlank, hspace, hreturn]

/-- A text whose first and last characters are no blanks is read as it is. -/
theorem columnNumber?_of_ends {s : String} {first last : Char} {middle : List Char}
    (hs : s.toList = first :: middle ++ [last]) (hfirst : isAsciiBlank first = false)
    (hlast : isAsciiBlank last = false) :
    columnNumber? s = (signedDecimal? s.toList).map fun (negative, d) => storedNumber (d.toBinary64 negative) := by
  have hfirst' : ¬isAsciiBlank first = true := by simp [hfirst]
  have hlast' : ¬isAsciiBlank last = true := by simp [hlast]
  have htrimmed : ((s.toList.dropWhile isAsciiBlank).reverse.dropWhile isAsciiBlank).reverse = s.toList := by
    rw [hs, List.cons_append, List.dropWhile_cons_of_neg hfirst', ← List.cons_append, List.reverse_append,
      List.reverse_singleton, List.singleton_append, List.dropWhile_cons_of_neg hlast', List.reverse_cons,
      List.reverse_reverse]
  unfold columnNumber?
  dsimp only
  rw [htrimmed]

theorem exists_yearText_eq (year : Int) :
    ∃ first rest, Instant.yearText year = first :: rest ∧ isAsciiBlank first = false := by
  unfold Instant.yearText
  split
  · obtain ⟨c, rest, hyear⟩ := List.exists_cons_of_ne_nil (zeroPadded_ne_nil (w := 4) (n := year.natAbs))
    have hc : c ∈ Instant.zeroPadded 4 year.natAbs := hyear ▸ List.mem_cons_self
    exact ⟨c, rest, hyear, isAsciiBlank_of_isDigit (areDigits_padded _ _ c hc)⟩
  · split <;> exact ⟨_, _, rfl, by decide⟩

/-- The text of an instant is kept as a text, for it is not written like a number in any year. -/
theorem Stamp.ofText_iso (t : Instant) : Stamp.ofText t.iso = .text t.iso := by
  have hparts (year month day time fraction : List Char) :
      ∃ before, year ++ '-' :: month ++ '-' :: day ++ 'T' :: time ++ '.' :: fraction ++ ['Z']
        = year ++ '-' :: (before ++ ['Z']) :=
    ⟨month ++ '-' :: day ++ 'T' :: time ++ '.' :: fraction, by simp⟩
  obtain ⟨year, before, hiso⟩ : ∃ year before, t.iso.toList = Instant.yearText year ++ '-' :: (before ++ ['Z']) := by
    obtain ⟨before, heq⟩ := hparts (Instant.yearText _) _ _ _ _
    exact ⟨_, before, String.toList_ofList.trans heq⟩
  obtain ⟨first, rest, hyear, hfirst⟩ := exists_yearText_eq year
  have hends : t.iso.toList = first :: (rest ++ '-' :: before) ++ ['Z'] := by
    rw [hiso, hyear]
    simp
  rw [Stamp.ofText, columnNumber?_of_ends hends hfirst (by decide), hiso, signedDecimal?_yearText]
  rfl

/-! ## Rows -/

theorem storedNumber_eq {x : Binary64} (h : x.isZero = true → x = 0) : storedNumber x = x := by
  unfold storedNumber
  split
  next hzero => exact (h hzero).symm
  next => rfl

variable {session duration returnCode : Binary64} {task : String} {t : Instant} {stdout stderr : Output}

/-- What a row of a completed run shows. -/
def completedFields (session : Int) (task start : String) (duration : Binary64) (stdout stderr : Output)
    (returnCode : Binary64) : List (String × Value) :=
  [("taskName", .text task), ("sessionId", .int session), ("startTime", .text start),
    ("durationSeconds", .number duration), ("killed", .bool false), ("stdout", .text stdout.decode),
    ("stderr", .text stderr.decode), ("returnCode", .number returnCode)]

/-- A row of a completed run shows what was asked to be recorded, if no number of it is a negative zero. -/
theorem ResultRow.Tells.fields_eq {row : ResultRow}
    (h : row.Tells session task t.iso duration (.completed stdout stderr returnCode))
    (hduration : duration.isZero = true → duration = 0) (hcode : returnCode.isZero = true → returnCode = 0) :
    row.fields = completedFields row.session task t.iso duration stdout stderr returnCode := by
  obtain ⟨hkilled, hstdout, hstderr, hreturn⟩ := h.outcome
  rw [ResultRow.fields, h.task, h.start, h.duration, hkilled, hstdout, hstderr, hreturn, Stamp.ofText_iso,
    storedNumber_eq hduration, storedNumber_eq hcode]
  rfl

/-! ## Stores -/

namespace Store

variable {s later : Store} {x : Session}

/-- A session is read back: when it is asked for by its id, and among all sessions. -/
structure ReadsSession (s : Store) (x : Session) : Prop where
  got : ∀ id : Binary64, id.toInt? = some x.id → s.getSession id = .ok (some x)
  listed : ∃ entries, s.listSessions = .ok entries ∧ ∃ entry ∈ entries, entry.session = x

/-- A result with the given fields is read back among those of a session. -/
def ReadsResult (s : Store) (session : Binary64) (fields : List (String × Value)) : Prop :=
  ∃ rows, s.listResults session = .ok rows ∧ ∃ row ∈ rows, row.fields = fields

theorem readsSession_of_mem (hopen : s.isOpen = true) (hsound : s.db.Sound) (hx : x ∈ s.db.sessions) :
    s.ReadsSession x := by
  constructor
  · intro id hid
    rw [getSession, whenOpen, if_pos hopen, hsound.session?_eq hx hid]
  · refine ⟨s.db.summaries, if_pos hopen, s.db.summaryOf x, ?_, rfl⟩
    exact List.mem_map_of_mem (List.mem_mergeSort.mpr hx)

theorem readsResult_of_mem {row : ResultRow} (hopen : s.isOpen = true) (hrow : row ∈ s.db.results)
    (hsession : session.toInt? = some row.session) : s.ReadsResult session row.fields := by
  refine ⟨s.db.resultsOf session, if_pos hopen, row, ?_, rfl⟩
  rw [(Database.resultsOf_perm s.db session).mem_iff, List.mem_filter]
  exact ⟨hrow, by simpa using hsession⟩

/-- A session that is begun with a text and an instant is put at the end. -/
theorem answer_begin (hopen : s.isOpen = true) (path version : String) {now : Binary64}
    (hnow : Instant.ofNumber? now = some t) :
    s.answer path (.begin (.text version) now)
      = ({ s with db := s.db.addSession version (.text t.iso) }, .ok (.int s.db.nextId)) := by
  have hbegin : s.beginSessionWith (.text version) now
      = .ok ({ s with db := s.db.addSession version (.text t.iso) }, s.db.nextId) := by
    simp [beginSessionWith, beginSession, whenOpen, hopen, hnow, Cell.ofValue?, Cell.toText?, Stamp.ofText_iso]
  rw [answer, hbegin]

end Store

/-! ## From now on -/

namespace Archive

variable {a : Archive} {σ : Spot} {deeds : List Deed} {c : Connection} {number : Nat} {r : Request}

/-- What holds of the store behind every open connection to a spot, now and whatever is done later. -/
def FromNowOn (a : Archive) (σ : Spot) (P : Store → Prop) : Prop :=
  ∀ more n c, (a.run more).1.connections[n]? = some c → spotOf n c = σ → c.isOpen = true →
    P (c.store (a.run more).1.files)

/-- A request is answered, and what its store holds then is there from now on. -/
theorem Kept.performs (hkept : Kept (spotOf number c) a deeds) (hlinked : a.Linked)
    (hc : a.connections[number]? = some c) {s' : Store} {answer : Except Failure Value}
    (hanswer : (c.store a.files).answer c.path r = (s', answer)) {P : Store → Prop}
    (hP : ∀ later : Store, later.isOpen = true → later.db.Sound → Grows s'.db later.db → P later) :
    ∃ a', a.perform number r = some (a', answer) ∧ a'.FromNowOn (spotOf number c) P := by
  obtain ⟨a', -, hperform, -, -, -, -, -, hdb⟩ := perform_eq hlinked hc r
  obtain ⟨_, _, hperform', hsteps⟩ := hkept.request hlinked hc r
  obtain ⟨rfl, rfl⟩ := Prod.mk.inj (Option.some.inj (hperform.symm.trans hperform'))
  have hspot := hdb (spotOf number c)
  rw [if_pos rfl, hanswer] at hspot
  refine ⟨a', by rw [hperform, hanswer], fun more n d hd hσ hopen => ?_⟩
  obtain ⟨-, hkept', hgrows⟩ := hsteps.kept.run hsteps.linked more
  have hstore := db_store hd
  rw [hσ] at hstore
  refine hP _ ((isOpen_store _ d).trans hopen) ?_ ?_
  · rw [hstore]
    exact hkept'.tells.sound
  · rwa [hstore, ← hspot]

/-- In every state that requests lead to from an empty database, a session that is begun and a result that is
recorded are read back as they were given, from then on and over every connection to the database: the start times
as the texts of their instants, the numbers unless one is a negative zero, and the outputs as texts. Octets are read
as the text that they encode, with a replacement character for each ill-formed part. -/
theorem recorded_is_read (files : FileTree) (base : Location) (acts : List Action) {number : Nat} {c : Connection}
    (hc : ((fresh files base).run acts).1.connections[number]? = some c)
    (hempty : ((fresh files base).database (spotOf number c)).IsEmpty) (hopen : c.isOpen = true) :
    let a := ((fresh files base).run acts).1
    let s := c.store a.files
    (∀ (version : String) (now : Binary64) (t : Instant), Instant.ofNumber? now = some t →
      ∃ a' id, a.perform number (.begin (.text version) now) = some (a', .ok (.int id))
        ∧ (acts.length + 1 < 2 ^ 53 → (Binary64.ofInt id).toInt? = some id)
        ∧ a'.FromNowOn (spotOf number c) (·.ReadsSession ⟨id, version, .text t.iso⟩))
    ∧ (∀ (session : Binary64) (known : Session) (task : String) (t : Instant) (duration returnCode : Binary64)
        (stdout stderr : Output), s.getSession session = .ok (some known) → s.hasResult session task = .ok false →
        duration.isNaN = false → (duration.isZero = true → duration = 0) →
        returnCode.isNaN = false → (returnCode.isZero = true → returnCode = 0) →
      ∃ a', a.perform number (.record (.number session) (.text task) (.text t.iso) (.number duration)
          (Outcome.completed stdout stderr returnCode).loose) = some (a', .ok .absent)
        ∧ a'.FromNowOn (spotOf number c)
          (·.ReadsResult session (completedFields known.id task t.iso duration stdout stderr returnCode)))
    ∧ (∀ text : String, (Output.octets (Utf8.encode text)).decode = (Output.text text).decode)
    ∧ ∀ bytes cs, Utf8.Shows bytes cs ↔ (Output.octets bytes).decode = String.ofList cs := by
  intro a s
  obtain ⟨hlinked, hkept, -⟩ := (kept_fresh hempty).run (linked_fresh files base) acts
  have hdb : s.db = a.database (spotOf number c) := db_store hc
  have hready := hkept.ready number c hc rfl
  rw [← hdb] at hready
  have hisOpen : s.isOpen = true := (isOpen_store a.files c).trans hopen
  refine ⟨fun version now t hnow => ?_, fun session known task t duration returnCode stdout stderr hknown hfresh
    hduration hduration0 hcode hcode0 => ?_, Utf8.decode_encode, fun bytes cs => Utf8.shows_iff⟩
  · have hbegin := Store.answer_begin hisOpen c.path version hnow
    have hlast : (⟨s.db.nextId, version, .text t.iso⟩ : Session)
        ∈ (s.db.addSession version (.text t.iso)).sessions := by
      rw [Database.sessions_addSession hready]
      exact List.mem_append_right _ List.mem_cons_self
    obtain ⟨a', hperform, hlater⟩ := hkept.performs hlinked hc hbegin
      (P := (·.ReadsSession ⟨s.db.nextId, version, .text t.iso⟩))
      fun later hopen hsound hgrows => Store.readsSession_of_mem hopen hsound (hgrows.1.subset hlast)
    refine ⟨a', s.db.nextId, hperform, fun hacts => ?_, hlater⟩
    obtain ⟨hnumbered, hlength⟩ := numbered_of_run files base acts hempty
    rw [← hdb] at hnumbered hlength
    rw [hnumbered.nextId_eq]
    exact Binary64.toInt?_ofInt (by omega) (by omega)
  · have hserves : s.Serves session (some known) := by
      refine ⟨hisOpen, hready, ?_⟩
      rw [Store.getSession, Store.whenOpen, if_pos hisOpen] at hknown
      exact Except.ok.inj hknown
    have hfresh' : s.db.hasResult session task = false := by
      rw [Store.hasResult, Store.whenOpen, if_pos hisOpen] at hfresh
      exact Except.ok.inj hfresh
    obtain ⟨row, htells, hrecord⟩ : ∃ row : ResultRow,
        row.Tells session task t.iso duration (.completed stdout stderr returnCode)
          ∧ s.recordResult session task t.iso duration (.completed stdout stderr returnCode)
            = .ok { s with db := s.db.append row } := by
      have houtcome : Outcome.IsRecordable (.completed stdout stderr returnCode) := hcode
      rcases hserves.recordResult_cases hserves.isNaN task t.iso hduration houtcome with
        ⟨hhas, -⟩ | ⟨-, hnone, -⟩ | hkept
      · rw [hfresh'] at hhas
        cases hhas
      · cases hnone
      · obtain ⟨_, row, -, -, htells, hrecord⟩ := hkept
        exact ⟨row, htells, hrecord⟩
    have hanswer : s.answer c.path (.record (.number session) (.text task) (.text t.iso) (.number duration)
        (Outcome.completed stdout stderr returnCode).loose) = ({ s with db := s.db.append row }, .ok .absent) := by
      rw [Store.answer, Store.recordResultWith_typed, hrecord]
    have hrow : row ∈ (s.db.append row).results := by
      rw [Database.results_append hready.resultTable]
      exact List.mem_append_right _ List.mem_cons_self
    have hid : row.session = known.id :=
      Option.some.inj (htells.session.symm.trans (Database.session?_eq_some hserves.known).2)
    rw [← hid, ← htells.fields_eq hduration0 hcode0]
    exact hkept.performs hlinked hc hanswer
      fun later hopen _ hgrows => Store.readsResult_of_mem hopen (hgrows.2.subset hrow) htells.session

/-- Opens the database of a directory and begins a session. -/
def oneSession : List Action := [.connect "db.sqlite3", .request 0 (.begin (.text "1.0.0") 0)]

theorem recorded_is_read_octets :
    let a := ((fresh (Connection.workWith {}) ["work"]).run oneSession).1
    let s := connection.store a.files
    let octets := Output.octets [0x68, 0xE2, 0x82, 0x69]
    a.connections[0]? = some connection
      ∧ ((fresh (Connection.workWith {}) ["work"]).database (spotOf 0 connection)).IsEmpty
      ∧ s.getSession 1 = .ok (some ⟨1, "1.0.0", .text (Instant.mk 0).iso⟩) ∧ s.hasResult 1 "tasks/a" = .ok false
      ∧ (∃ a' id, a.perform 0 (.begin (.text "1.1.0") 0) = some (a', .ok (.int id))
          ∧ (Binary64.ofInt id).toInt? = some id
          ∧ a'.FromNowOn (spotOf 0 connection) (·.ReadsSession ⟨id, "1.1.0", .text (Instant.mk 0).iso⟩))
      ∧ (∃ a', a.perform 0 (.record (.number 1) (.text "tasks/a") (.text (Instant.mk 0).iso) (.number 1)
            (Outcome.completed octets (.text "é") 3).loose) = some (a', .ok .absent)
          ∧ a'.FromNowOn (spotOf 0 connection) (·.ReadsResult 1
            (completedFields 1 "tasks/a" (Instant.mk 0).iso 1 octets (.text "é") 3))) := by
  intro a s octets
  have ha : a = (opened.run [.request 0 (.begin (.text "1.0.0") 0)]).1 := run_opened _
  have hc : a.connections[0]? = some connection := by
    rw [ha]
    decide +kernel
  have hisOpen : s.isOpen = true := isOpen_store a.files connection
  have hknown : s.getSession 1 = .ok (some ⟨1, "1.0.0", .text (Instant.mk 0).iso⟩) := by
    have hfound : s.db.session? 1 = some ⟨1, "1.0.0", .text (Instant.mk 0).iso⟩ := by
      simp only [s, ha]
      decide +kernel
    rw [Store.getSession, Store.whenOpen, if_pos hisOpen, hfound]
  have hfresh : s.hasResult 1 "tasks/a" = .ok false := by
    have hnone : s.db.hasResult 1 "tasks/a" = false := by
      simp only [s, ha]
      decide +kernel
    rw [Store.hasResult, Store.whenOpen, if_pos hisOpen, hnone]
  obtain ⟨hbegin, hrecord, -, -⟩ :=
    recorded_is_read (Connection.workWith {}) ["work"] oneSession hc isEmpty_workWith rfl
  obtain ⟨a', id, hperform, hid, hreads⟩ := hbegin "1.1.0" 0 ⟨0⟩ (by decide +kernel)
  refine ⟨hc, isEmpty_workWith, hknown, hfresh, ⟨a', id, hperform, hid (by decide), hreads⟩, ?_⟩
  exact hrecord 1 _ "tasks/a" ⟨0⟩ 1 3 octets (.text "é") hknown hfresh (by decide) (by decide) (by decide) (by decide)

end Archive

end Bailiff
