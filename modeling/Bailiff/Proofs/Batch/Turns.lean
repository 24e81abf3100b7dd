-- SUMMARY: A batch that takes turns on a store: what its turns add there, and what it can tell of others there.
import Bailiff.Proofs.Batch.Guarded
import Bailiff.Proofs.Batch.Resume

/-!
# Turns of a batch

A batch takes turns: it goes on, or it takes an answer of the judge. Whatever else uses its store does so between two
turns; that it goes on at once after an answer is not assumed. A turn offers at most the row of its attempt
(`Batch.results_turn`), which is refused if its task has got a result in the meantime (`Batch.turn_refused`). Batches
that differ in their times at most, on stores that tell the same of their session, take turns alike
(`Batch.Alike.turn`).
-/

namespace Bailiff

namespace Batch

variable {s s' : Store} {b b' : Batch} {known : Option Session}

/-! ## Turns -/

/-- What a batch does between two waits: it goes on, or takes the answer of the judge. -/
inductive Turn where
  | goOn (stopped : Bool) (now : Binary64)
  | answer (duration : Binary64) (answer : Except Failure Outcome)

/-- A batch takes a turn. It does nothing when it waits for something else. -/
def turn (s : Store) (b : Batch) : Turn → Store × Batch
  | .goOn stopped now =>
    match b.phase with
    | .ready => (s, b.advance stopped s now)
    | _ => (s, b)
  | .answer duration answer => b.reply s duration answer

/-- A batch takes turns alone. -/
def turns (s : Store) (b : Batch) (ts : List Turn) : Store × Batch := ts.foldl (fun p t => p.2.turn p.1 t) (s, b)

/-- The attempt that ends with a turn. -/
def attempt? (b : Batch) : Turn → Option Attempt
  | .goOn _ _ => none
  | .answer duration answer =>
    match b.phase with
    | .judging task start => some ⟨task, start, duration, answer⟩
    | _ => none

theorem turns_cons (s : Store) (b : Batch) (t : Turn) (ts : List Turn) :
    b.turns s (t :: ts) = (b.turn s t).2.turns (b.turn s t).1 ts := rfl

theorem plan_turn (s : Store) (b : Batch) (t : Turn) : (b.turn s t).2.plan = b.plan := by
  cases t with
  | goOn stopped now =>
    unfold turn
    dsimp only
    split
    · exact plan_advance ..
    · rfl
  | answer duration answer => exact plan_reply ..

/-- Whatever turn is taken on a store, it goes on to serve its sessions. -/
theorem serves_turn {session : Binary64} (h : s.Serves session known) (b : Batch) (t : Turn) :
    (b.turn s t).1.Serves session known := by
  cases t with
  | goOn stopped now =>
    unfold turn
    dsimp only
    split <;> exact h
  | answer duration answer =>
    change (b.reply s duration answer).1.Serves session known
    rcases reply_cases s b duration answer with hsame | ⟨task, start, outcome, s', -, -, hrecord, hreply⟩
    · rw [hsame]
      exact h
    · rw [hreply]
      exact h.recorded hrecord

/-! ## Rows -/

/-- The row of an attempt, if it has an outcome, lacks nothing and has a session. -/
def Attempt.row? (session : Binary64) (known : Option Session) (x : Attempt) : Option ResultRow :=
  match x.answer with
  | .error _ => none
  | .ok outcome =>
    match (Database.NewRow.ofOutcome session x.task x.start x.duration outcome).missing? with
    | some _ => none
    | none => known.map fun k => (Database.NewRow.ofOutcome session x.task x.start x.duration outcome).settle k.id

theorem Attempt.leaves_of_row? {session : Binary64} {x : Attempt} {r : ResultRow}
    (h : x.row? session known = some r) : ∃ k, known = some k ∧ Leaves session k.id r x := by
  unfold row? at h
  split at h
  · cases h
  next outcome hanswer =>
    split at h
    · cases h
    · obtain ⟨k, rfl, rfl⟩ := Option.map_eq_some_iff.mp h
      exact ⟨k, rfl, outcome, hanswer, rfl⟩

/-- A row is kept behind the others unless its task has one in its session. -/
def keepFirst (rows : List ResultRow) (r : ResultRow) : List ResultRow :=
  if r.key ∈ rows.map ResultRow.key then rows else rows ++ [r]

theorem nodup_keepFirst {rows : List ResultRow} (h : (rows.map ResultRow.key).Nodup) (r : ResultRow) :
    ((keepFirst rows r).map ResultRow.key).Nodup := by
  unfold keepFirst
  split
  · exact h
  next hfresh =>
    rw [List.map_append, List.map_singleton, ← List.concat_eq_append]
    exact h.concat hfresh

theorem nodup_foldl_keepFirst {rows : List ResultRow} (h : (rows.map ResultRow.key).Nodup)
    (offered : List ResultRow) : ((offered.foldl keepFirst rows).map ResultRow.key).Nodup := by
  induction offered generalizing rows with
  | nil => exact h
  | cons r rest ih => exact ih (nodup_keepFirst h r)

/-- Of the rows of one task, the first is kept. -/
theorem find?_keepFirst (rows : List ResultRow) (r : ResultRow) (key : String × Int) :
    (keepFirst rows r).find? (·.key = key) = (rows ++ [r]).find? (·.key = key) := by
  unfold keepFirst
  split
  next hkept =>
    rw [List.find?_append]
    by_cases hkey : r.key = key
    · obtain ⟨r', hr', hsame⟩ := List.mem_map.mp hkept
      have hfound : (rows.find? (·.key = key)).isSome := by
        rw [List.find?_isSome]
        exact ⟨r', hr', by simp [hsame, hkey]⟩
      rw [Option.or_of_isSome hfound]
    · simp [hkey]
  · rfl

theorem find?_foldl_keepFirst (rows offered : List ResultRow) (key : String × Int) :
    (offered.foldl keepFirst rows).find? (·.key = key) = (rows ++ offered).find? (·.key = key) := by
  induction offered generalizing rows with
  | nil => rw [List.foldl_nil, List.append_nil]
  | cons r rest ih =>
    rw [List.foldl_cons, ih, List.find?_append, find?_keepFirst, ← List.find?_append, List.append_assoc]
    rfl

theorem grows_foldl_keepFirst (rows offered : List ResultRow) :
    ∃ added, offered.foldl keepFirst rows = rows ++ added := by
  induction offered generalizing rows with
  | nil => exact ⟨[], (List.append_nil _).symm⟩
  | cons r rest ih =>
    obtain ⟨added, hadded⟩ := ih (keepFirst rows r)
    rw [List.foldl_cons, hadded]
    unfold keepFirst
    split
    · exact ⟨added, rfl⟩
    · exact ⟨r :: added, by rw [List.append_assoc, List.singleton_append]⟩

/-! ## Answers -/

/-- A batch that has recorded an outcome. -/
def recorded (b : Batch) (task : String) (duration : Binary64) (outcome : Outcome) : Batch :=
  { b.note (outcomeNotes task duration outcome) with
    phase := .ready
    summary :=
      { b.summary with
        executed := b.summary.executed ++ [task]
        killed := if outcome = .killed then b.summary.killed ++ [task] else b.summary.killed } }

theorem turn_threw {task start : String} (hphase : b.phase = .judging task start) (s : Store) (duration : Binary64)
    (f : Failure) : b.turn s (.answer duration (.error f)) = (s, b.fail f) := by
  unfold turn reply
  rw [hphase]

/-- What becomes of an outcome that the judge gives. -/
theorem turn_returned (h : s.Serves b.plan.session known) {task start : String}
    (hphase : b.phase = .judging task start) (duration : Binary64) (outcome : Outcome) :
    b.turn s (.answer duration (.ok outcome)) =
      match (Database.NewRow.ofOutcome b.plan.session task start duration outcome).missing? with
      | some column => (s, b.fail (Store.recordFailed task (Store.missingText "tests" column)))
      | none =>
        if s.db.hasResult b.plan.session task then (s, b.fail (Store.alreadyRecorded task b.plan.session.text))
        else known.elim (s, b.fail (Store.notPresent b.plan.session.text)) fun k =>
          ({ s with
            db := s.db.append
              ((Database.NewRow.ofOutcome b.plan.session task start duration outcome).settle k.id) },
            b.recorded task duration outcome) := by
  unfold turn reply
  rw [hphase]
  dsimp only
  rw [h.recordResult_eq]
  cases (Database.NewRow.ofOutcome b.plan.session task start duration outcome).missing? with
  | some column => rfl
  | none =>
    cases s.db.hasResult b.plan.session task with
    | true => rfl
    | false => cases known <;> rfl

/-- A turn offers the row of its attempt to the store, and does no more to the results. -/
theorem results_turn (h : s.Serves b.plan.session known) (t : Turn) :
    (b.turn s t).1.db.results
      = ((b.attempt? t).bind (·.row? b.plan.session known)).toList.foldl keepFirst s.db.results := by
  cases t with
  | goOn stopped now => cases hphase : b.phase <;> simp [turn, attempt?, hphase]
  | answer duration answer =>
    cases hphase : b.phase with
    | ready | done | failed => simp [turn, reply, attempt?, hphase]
    | judging task start =>
      cases answer with
      | error f =>
        rw [turn_threw hphase]
        simp [attempt?, hphase, Attempt.row?]
      | ok outcome =>
        rw [turn_returned h hphase]
        simp only [attempt?, hphase, Option.bind_some, Attempt.row?]
        -- The store refuses just the rows that are not offered and those that `keepFirst` drops.
        cases (Database.NewRow.ofOutcome b.plan.session task start duration outcome).missing? with
        | some column => rfl
        | none =>
          cases known with
          | none => cases s.db.hasResult b.plan.session task <;> rfl
          | some k =>
            have hleaves : Leaves b.plan.session k.id
                ((Database.NewRow.ofOutcome b.plan.session task start duration outcome).settle k.id)
                ⟨task, start, duration, .ok outcome⟩ := ⟨outcome, rfl, rfl⟩
            have hthere := @Database.hasResult_iff s.db _ _ (Database.session?_eq_some h.known).2 task
            dsimp only [Option.map, Option.toList, List.foldl]
            rw [keepFirst, hleaves.key]
            by_cases hhas : s.db.hasResult b.plan.session task = true
            · rw [if_pos hhas, if_pos (hthere.mp hhas)]
            · rw [if_neg hhas, if_neg (mt hthere.mpr hhas)]
              exact Database.results_append h.ready.resultTable _

/-- A batch that has been given an outcome for a task that has a result in the meantime fails, and keeps nothing. -/
theorem turn_refused (h : s.Serves b.plan.session known) {task start : String}
    (hphase : b.phase = .judging task start) (hhas : s.db.hasResult b.plan.session task = true)
    (duration : Binary64) (outcome : Outcome) :
    (b.turn s (.answer duration (.ok outcome))).1 = s
      ∧ ∃ f, (b.turn s (.answer duration (.ok outcome))).2.result? = some (.error f)
        ∧ (duration.isNaN = false → outcome.IsRecordable → f = Store.alreadyRecorded task b.plan.session.text) := by
  have hsession := Database.isNaN_of_hasResult hhas
  rw [turn_returned h hphase, hhas]
  cases hmissing : (Database.NewRow.ofOutcome b.plan.session task start duration outcome).missing? with
  | some column =>
    refine ⟨rfl, _, rfl, ?_⟩
    intro hduration houtcome
    rw [Database.NewRow.missing?_eq_none hsession task start hduration houtcome] at hmissing
    cases hmissing
  | none => exact ⟨rfl, _, rfl, fun _ _ => rfl⟩

/-! ## Batches that cannot tell -/

/-- What the rows of one session tell apart from their times. -/
def told (session : Binary64) (rows : List ResultRow) : List (String × Int × Bool × Output × Output × Binary64) :=
  (rows.filter fun r => session.toInt? = some r.session).map facts

theorem hasResult_iff_told (db : Database) (session : Binary64) (task : String) :
    db.hasResult session task = true ↔ task ∈ (told session db.results).map (·.1) := by
  simp [Database.hasResult, told, facts, and_assoc, and_comm]

theorem told_keepFirst_other {session : Binary64} {r : ResultRow} (hother : session.toInt? ≠ some r.session)
    (rows : List ResultRow) : told session (keepFirst rows r) = told session rows := by
  unfold keepFirst
  split
  · rfl
  · simp [told, hother]

theorem told_settle {session : Binary64} {id : Int} (hid : session.toInt? = some id) (rows : List ResultRow)
    (row : Database.NewRow) :
    told session (rows ++ [row.settle id]) = told session rows ++ [facts (row.settle id)] := by
  simp [told, Database.NewRow.settle, hid]

/-- Turns that differ in their times at most: both times can be told, or neither can. -/
inductive Turn.Alike : Turn → Turn → Prop where
  | goOn {now now' : Binary64} (stopped : Bool)
      (times : (Instant.ofNumber? now).isSome = (Instant.ofNumber? now').isSome) :
      Alike (.goOn stopped now) (.goOn stopped now')
  | answer {duration duration' : Binary64} (answer : Except Failure Outcome)
      (times : duration.isNaN = duration'.isNaN) : Alike (.answer duration answer) (.answer duration' answer)

inductive Phase.Alike : Phase → Phase → Prop where
  | ready : Alike .ready .ready
  | judging (task start start' : String) : Alike (.judging task start) (.judging task start')
  | done : Alike .done .done
  | failed (f : Failure) : Alike (.failed f) (.failed f)

/-- Batches that differ in their times at most. -/
structure Alike (b b' : Batch) : Prop where
  plan : b.plan = b'.plan
  pending : b.pending = b'.pending
  summary : b.summary = b'.summary
  phase : b.phase.Alike b'.phase

theorem Alike.result?_eq (h : Alike b b') : b.result? = b'.result? := by
  have hphase := h.phase
  unfold result?
  rw [h.summary]
  generalize b.phase = phase, b'.phase = phase' at hphase
  cases hphase <;> rfl

theorem Alike.fail (h : Alike b b') (f : Failure) : Alike (b.fail f) (b'.fail f) :=
  ⟨h.plan, h.pending, h.summary, .failed f⟩

theorem Alike.recorded (h : Alike b b') (task : String) (duration duration' : Binary64) (outcome : Outcome) :
    Alike (b.recorded task duration outcome) (b'.recorded task duration' outcome) := by
  refine ⟨h.plan, h.pending, ?_, .ready⟩
  simp only [Batch.recorded, h.summary]

/-- Batches alike that find the same tasks done go on alike. -/
theorem Alike.go (h : Alike b b') {stopped : Bool} {now now' : Binary64}
    (htimes : (Instant.ofNumber? now).isSome = (Instant.ofNumber? now').isSome) (tasks : List String)
    (hsame : ∀ task, s.hasResult b.plan.session task = s'.hasResult b.plan.session task) :
    Alike (advance.go stopped s now tasks b) (advance.go stopped s' now' tasks b') := by
  induction tasks generalizing b b' with
  | nil => exact ⟨h.plan, rfl, h.summary, .done⟩
  | cons task rest ih =>
    have hlook := hsame task
    rw [advance.go, advance.go, ← h.plan, ← hlook]
    cases stopped with
    | true => exact h.fail _
    | false =>
      rw [if_neg Bool.false_ne_true, if_neg Bool.false_ne_true]
      cases s.hasResult b.plan.session task with
      | error f => exact h.fail f
      | ok has =>
        cases has with
        | true =>
          apply ih
          · exact ⟨h.plan, rfl, by rw [h.summary], h.phase⟩
          · exact hsame
        | false =>
          dsimp only
          cases hnow : Instant.ofNumber? now with
          | none =>
            rw [hnow] at htimes
            rw [Option.not_isSome_iff_eq_none.mp (ne_true_of_eq_false htimes.symm)]
            exact h.fail _
          | some t =>
            rw [hnow] at htimes
            obtain ⟨t', ht'⟩ := Option.isSome_iff_exists.mp htimes.symm
            rw [ht']
            exact ⟨h.plan, rfl, h.summary, .judging task t.iso t'.iso⟩

theorem hasResult_eq {session : Binary64} (htold : told session s.db.results = told session s'.db.results)
    (task : String) : s.db.hasResult session task = s'.db.hasResult session task := by
  rw [Bool.eq_iff_iff, hasResult_iff_told, hasResult_iff_told, htold]

/-- Batches alike take outcomes alike. -/
theorem Alike.returned (h : Alike b b') (hserves : s.Serves b.plan.session known)
    (hserves' : s'.Serves b.plan.session known)
    (htold : told b.plan.session s.db.results = told b.plan.session s'.db.results)
    {task start start' : String} (hphase : b.phase = .judging task start) (hphase' : b'.phase = .judging task start')
    {duration duration' : Binary64} (htimes : duration.isNaN = duration'.isNaN) (outcome : Outcome) :
    Alike (b.turn s (.answer duration (.ok outcome))).2 (b'.turn s' (.answer duration' (.ok outcome))).2
      ∧ told b.plan.session (b.turn s (.answer duration (.ok outcome))).1.db.results
        = told b.plan.session (b'.turn s' (.answer duration' (.ok outcome))).1.db.results := by
  have hmissing := Database.NewRow.missing?_eq htimes b.plan.session task start start' outcome
  have hhas := hasResult_eq htold task
  rw [turn_returned hserves hphase, turn_returned (h.plan ▸ hserves') hphase', ← h.plan, ← hmissing, ← hhas]
  cases (Database.NewRow.ofOutcome b.plan.session task start duration outcome).missing? with
  | some column => exact ⟨h.fail _, htold⟩
  | none =>
    cases s.db.hasResult b.plan.session task with
    | true => exact ⟨h.fail _, htold⟩
    | false =>
      cases known with
      | none => exact ⟨h.fail _, htold⟩
      | some k =>
        have hid := (Database.session?_eq_some hserves.known).2
        have hrows := Database.results_append hserves.ready.resultTable
        have hrows' := Database.results_append hserves'.ready.resultTable
        refine ⟨h.recorded task duration duration' outcome, ?_⟩
        dsimp only [Option.elim]
        rw [if_neg Bool.false_ne_true, if_neg Bool.false_ne_true, hrows, hrows', told_settle hid, told_settle hid,
          htold, facts_settle, facts_settle task start']

/-- Batches alike on stores that tell the same of their session take turns alike. -/
theorem Alike.turn (h : Alike b b') (hserves : s.Serves b.plan.session known)
    (hserves' : s'.Serves b.plan.session known)
    (htold : told b.plan.session s.db.results = told b.plan.session s'.db.results)
    {t t' : Turn} (ht : t.Alike t') : Alike (b.turn s t).2 (b'.turn s' t').2
      ∧ told b.plan.session (b.turn s t).1.db.results = told b.plan.session (b'.turn s' t').1.db.results := by
  have hphase := h.phase
  generalize hb : b.phase = phase, hb' : b'.phase = phase' at hphase
  cases ht with
  | @goOn now now' stopped htimes =>
    unfold Batch.turn
    cases hphase with
    | ready =>
      rw [hb, hb']
      refine ⟨?_, htold⟩
      unfold advance
      rw [← h.pending]
      apply h.go htimes
      intro task
      have hhas := hasResult_eq htold task
      simp only [Store.hasResult, Store.whenOpen, hserves.isOpen, hserves'.isOpen, hhas]
    | judging | done | failed =>
      rw [hb, hb']
      exact ⟨h, htold⟩
  | @answer duration duration' answer htimes =>
    cases hphase with
    | judging task start start' =>
      cases answer with
      | error f =>
        rw [turn_threw hb, turn_threw hb']
        exact ⟨h.fail f, htold⟩
      | ok outcome => exact h.returned hserves hserves' htold hb hb' htimes outcome
    | ready | done | failed =>
      unfold Batch.turn reply
      rw [hb, hb']
      exact ⟨h, htold⟩

/-! ## Batches alone -/

/-- While a batch waits for the judge, its task has no result. -/
def Expects (s : Store) (b : Batch) : Prop :=
  ∀ task start, b.phase = .judging task start → s.db.hasResult b.plan.session task = false

/-- The failures of a batch whose task has a result already, or whose session is not there. -/
def IsConflict (f : Failure) : Prop :=
  f.name? = some Area.duplicateKey.name ∨ f.name? = some Area.notFound.name

theorem not_isConflict_of {f : Failure} {area : Area} (hname : f.name? = some area.name)
    (hduplicate : area ≠ .duplicateKey) (hmissing : area ≠ .notFound) : ¬IsConflict f := by
  unfold IsConflict
  rw [hname]
  cases area with
  | duplicateKey => exact absurd rfl hduplicate
  | notFound => exact absurd rfl hmissing
  | harness | config | storage | judgeSpawn | processSpawn | batchStopped => decide

theorem not_isConflict_storage {f : Failure} (hname : f.name? = some Area.storage.name) : ¬IsConflict f :=
  not_isConflict_of hname nofun nofun

theorem not_isConflict_stoppedBefore (task : String) : ¬IsConflict (stoppedBefore task) :=
  @not_isConflict_of _ .batchStopped rfl nofun nofun

theorem not_isConflict_of_hasResult {session : Binary64} {task : String} {f : Failure}
    (h : s.hasResult session task = .error f) : ¬IsConflict f := by
  unfold Store.hasResult Store.whenOpen at h
  split at h
  · cases h
  · cases h
    exact not_isConflict_storage rfl

/-- A new outcome of a session that is there is refused without a conflict. -/
theorem not_isConflict_of_recordResult {known : Session} {session : Binary64}
    (hknown : s.db.session? session = some known) {task start : String}
    (hfresh : s.db.hasResult session task = false) {duration : Binary64} {outcome : Outcome} {f : Failure}
    (h : s.recordResult session task start duration outcome = .error f) : ¬IsConflict f := by
  unfold Store.recordResult Store.insert at h
  split at h
  · split at h
    next refusal hrefused =>
      obtain ⟨column, rfl⟩ := Database.refusal_of_fresh hknown hfresh hrefused
      cases h
      exact not_isConflict_storage rfl
    · cases h
  · cases h
    exact not_isConflict_storage rfl

/-- A batch that goes on waits for a new task only, and fails without a conflict. -/
theorem go_spec {stopped : Bool} {now : Binary64} (tasks : List String) (hready : b.phase = .ready) :
    Expects s (advance.go stopped s now tasks b)
      ∧ ∀ f, (advance.go stopped s now tasks b).phase = .failed f → ¬IsConflict f := by
  have hfailed (b : Batch) {f : Failure} (hf : ¬IsConflict f) :
      Expects s (b.fail f) ∧ ∀ f', (b.fail f).phase = .failed f' → ¬IsConflict f' := by
    refine ⟨?_, ?_⟩
    · rintro _ _ ⟨⟩
    · rintro _ ⟨⟩
      exact hf
  fun_induction advance.go stopped s now tasks b with
  | case1 =>
    refine ⟨?_, ?_⟩
    · rintro _ _ ⟨⟩
    · rintro _ ⟨⟩
  | case2 task rest =>
    apply hfailed
    exact not_isConflict_stoppedBefore task
  | case3 task rest _ _ f hlook =>
    apply hfailed
    exact not_isConflict_of_hasResult hlook
  | case4 task rest _ _ hhas ih => exact ih hready
  | case5 =>
    apply hfailed
    unfold IsConflict
    decide
  | case6 task rest _ _ hhas t ht =>
    refine ⟨?_, ?_⟩
    · rintro _ _ ⟨⟩
      exact hasResult_eq_ok hhas
    · rintro _ ⟨⟩

/-- What a batch that is alone keeps: it waits for a new task only, and if it has failed with a conflict, the judge
had thrown that. -/
structure Unopposed (s : Store) (b : Batch) (known : Session) (ts : List Turn) : Prop where
  known : s.db.session? b.plan.session = some known
  expects : Expects s b
  failed : ∀ f, b.phase = .failed f → IsConflict f → ∃ duration, .answer duration (.error f) ∈ ts

theorem Unopposed.turn {known : Session} {ts : List Turn} (h : Unopposed s b known ts) (t : Turn) :
    Unopposed (b.turn s t).1 (b.turn s t).2 known (ts ++ [t]) := by
  have hsame : Unopposed s b known (ts ++ [t]) := by
    refine ⟨h.known, h.expects, ?_⟩
    intro f hfailed hconflict
    obtain ⟨duration, hthrown⟩ := h.failed f hfailed hconflict
    exact ⟨duration, List.mem_append_left _ hthrown⟩
  cases t with
  | goOn stopped now =>
    unfold Batch.turn
    cases hphase : b.phase with
    | judging | done | failed => exact hsame
    | ready =>
      obtain ⟨hexpects, hfailed⟩ := @go_spec s b stopped now b.pending hphase
      refine ⟨?_, hexpects, ?_⟩
      · dsimp only
        rw [plan_advance]
        exact h.known
      · intro f hf hconflict
        exact absurd hconflict (hfailed f hf)
  | answer duration answer =>
    unfold Batch.turn reply
    cases hphase : b.phase with
    | ready | done | failed => exact hsame
    | judging task start =>
      cases answer with
      | error f =>
        refine ⟨h.known, nofun, ?_⟩
        rintro _ ⟨⟩ -
        exact ⟨duration, List.mem_append_right _ List.mem_cons_self⟩
      | ok outcome =>
        dsimp only
        cases hrecord : s.recordResult b.plan.session task start duration outcome with
        | error f =>
          refine ⟨h.known, nofun, ?_⟩
          rintro _ ⟨⟩ hconflict
          exact absurd hconflict (not_isConflict_of_recordResult h.known (h.expects task start hphase) hrecord)
        | ok s' =>
          refine ⟨?_, nofun, nofun⟩
          rw [Database.session?, Store.sessions_recordResult hrecord]
          exact h.known

theorem Unopposed.turns {known : Session} {ts : List Turn} (h : Unopposed s b known ts) (more : List Turn) :
    Unopposed (b.turns s more).1 (b.turns s more).2 known (ts ++ more) := by
  induction more generalizing s b ts with
  | nil => rwa [List.append_nil]
  | cons t more ih =>
    have hlater := ih (h.turn t)
    rwa [List.append_assoc] at hlater

end Batch

end Bailiff
