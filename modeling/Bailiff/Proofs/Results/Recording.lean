-- SUMMARY: What becomes of the outcome of a judge run that is to be recorded, and what recording leaves alone.
import Bailiff.Proofs.Results.Store

/-!
# Recording outcomes

The row of an outcome is kept if it lacks nothing, is the first of its task in its session, and has a session
(`Store.Serves.recordResult_eq`). A row that is kept leaves the sessions alone and the database sound
(`Store.recordResult_keeps`).
-/

namespace Bailiff

/-- An outcome can be recorded: its return code is a number. -/
def Outcome.IsRecordable : Outcome → Prop
  | .completed _ _ returnCode => returnCode.isNaN = false
  | .killed => True

/-! ## Rows of outcomes -/

namespace Database

variable {db : Database} {session : Binary64} {task start : String} {duration : Binary64} {outcome : Outcome}

theorem NewRow.blank_ofOutcome (session : Binary64) (task start : String) (duration : Binary64) (outcome : Outcome) :
    (ofOutcome session task start duration outcome).Blank := by
  cases outcome with
  | completed =>
    intro hkilled
    cases hkilled
  | killed => exact fun _ => ⟨rfl, rfl, rfl⟩

theorem NewRow.session_ofOutcome (session : Binary64) (task start : String) (duration : Binary64) (outcome : Outcome) :
    (ofOutcome session task start duration outcome).session.getD .nan = session := by
  cases session <;> cases outcome <;> rfl

theorem NewRow.task_ofOutcome (session : Binary64) (task start : String) (duration : Binary64) (outcome : Outcome) :
    (ofOutcome session task start duration outcome).task.getD "" = task := by
  cases outcome <;> rfl

/-- The row of an outcome lacks nothing if its numbers are numbers. -/
theorem NewRow.missing?_eq_none (hsession : session.isNaN = false) (task start : String)
    (hduration : duration.isNaN = false) (houtcome : outcome.IsRecordable) :
    (ofOutcome session task start duration outcome).missing? = none := by
  cases outcome with
  | completed stdout stderr returnCode =>
    have hcode : returnCode.isNaN = false := houtcome
    simp [ofOutcome, missing?, ofOutcome.notNaN?, hsession, hduration, hcode]
  | killed => simp [ofOutcome, missing?, ofOutcome.notNaN?, hsession, hduration]

/-- What a row lacks does not depend on its times. -/
theorem NewRow.missing?_eq {duration' : Binary64} (htimes : duration.isNaN = duration'.isNaN) (session : Binary64)
    (task start start' : String) (outcome : Outcome) :
    (ofOutcome session task start duration outcome).missing?
      = (ofOutcome session task start' duration' outcome).missing? := by
  cases outcome <;> simp [ofOutcome, missing?, ofOutcome.notNaN?, htimes]

theorem isNaN_of_hasResult (h : db.hasResult session task = true) : session.isNaN = false := by
  cases session with
  | nan => simp [hasResult, Binary64.toInt?] at h
  | infinite | finite => rfl

/-- A new result of a session that is there is refused only for what it lacks. -/
theorem refusal_of_fresh {known : Session} {refusal : Refusal} (hknown : db.session? session = some known)
    (hfresh : db.hasResult session task = false)
    (h : db.insert (.ofOutcome session task start duration outcome) = .error refusal) :
    ∃ column, refusal = .missing column := by
  unfold insert at h
  rw [NewRow.session_ofOutcome, NewRow.task_ofOutcome] at h
  split at h
  · split at h
    next column _ =>
      cases h
      exact ⟨column, rfl⟩
    · dsimp only at h
      rw [hfresh, hknown] at h
      cases h
  · cases h

/-- Whatever is let through leaves the sessions alone. -/
theorem sessions_insert {db' : Database} {row : NewRow} (h : db.insert row = .ok db') : db'.sessions = db.sessions := by
  unfold insert at h
  split at h
  · split at h
    · cases h
    · dsimp only at h
      split at h
      · cases h
      · split at h
        · cases h
        · cases h
          rfl
  · cases h
    rfl

end Database

/-! ## Recording -/

namespace Store

variable {s s' : Store} {session : Binary64} {task start : String} {duration : Binary64} {outcome : Outcome}
  {known : Option Session}

theorem sessions_recordResult (h : s.recordResult session task start duration outcome = .ok s') :
    s'.db.sessions = s.db.sessions := by
  obtain ⟨db, hinsert, rfl⟩ := insert_eq_ok h
  exact Database.sessions_insert hinsert

/-- A result that has been recorded keeps the rules of the database. -/
theorem recordResult_keeps (hready : s.db.Ready) (hsound : s.db.Sound)
    (h : s.recordResult session task start duration outcome = .ok s') : s'.db.Ready ∧ s'.db.Sound := by
  obtain ⟨db, hinsert, rfl⟩ := insert_eq_ok h
  obtain ⟨known, hknown, hid, -, hfresh, rfl⟩ := Database.insert_eq_ok hready.guarded hinsert
  refine ⟨hready.append _, ?_⟩
  exact hsound.append hready hknown hid hfresh (Database.NewRow.blank_ofOutcome session task start duration outcome)

/-- An open store that keeps the rules of the database, and what it knows of a session. -/
structure Serves (s : Store) (session : Binary64) (known : Option Session) : Prop where
  isOpen : s.isOpen = true
  ready : s.db.Ready
  known : s.db.session? session = known

theorem Serves.isNaN {known : Session} (h : s.Serves session (some known)) : session.isNaN = false := by
  have hid := (Database.session?_eq_some h.known).2
  cases session with
  | nan => cases hid
  | infinite | finite => rfl

/-- What becomes of an outcome: its row is kept if it lacks nothing, is the first of its task, and has a session. -/
theorem Serves.recordResult_eq (h : s.Serves session known) (task start : String) (duration : Binary64)
    (outcome : Outcome) : s.recordResult session task start duration outcome =
      match (Database.NewRow.ofOutcome session task start duration outcome).missing? with
      | some column => .error (recordFailed task (missingText "tests" column))
      | none =>
        if s.db.hasResult session task then .error (alreadyRecorded task session.text)
        else known.elim (.error (notPresent session.text)) fun k => .ok { s with
          db := s.db.append ((Database.NewRow.ofOutcome session task start duration outcome).settle k.id) } := by
  unfold recordResult insert
  rw [if_pos h.isOpen, Database.insert, if_pos h.ready.guarded, Database.NewRow.session_ofOutcome,
    Database.NewRow.task_ofOutcome]
  cases hmissing : (Database.NewRow.ofOutcome session task start duration outcome).missing? with
  | some column => rfl
  | none =>
    dsimp only
    cases hhas : s.db.hasResult session task with
    | true => rfl
    | false =>
      rw [h.known]
      cases known <;> rfl

/-- A new result of a session that is there is let through. -/
theorem Serves.recordResult_ok {known : Session} (h : s.Serves session (some known))
    (hfresh : s.db.hasResult session task = false) (start : String) (hduration : duration.isNaN = false)
    (houtcome : outcome.IsRecordable) : ∃ s', s.recordResult session task start duration outcome = .ok s' := by
  rw [h.recordResult_eq, Database.NewRow.missing?_eq_none h.isNaN task start hduration houtcome, hfresh]
  exact ⟨_, rfl⟩

/-- A store serves a session still when a result of any session has been recorded. -/
theorem Serves.recorded (h : s.Serves session known) {other : Binary64}
    (hrecord : s.recordResult other task start duration outcome = .ok s') : s'.Serves session known := by
  obtain ⟨db, hinsert, rfl⟩ := insert_eq_ok hrecord
  obtain ⟨_, -, -, -, -, rfl⟩ := Database.insert_eq_ok h.ready.guarded hinsert
  exact ⟨h.isOpen, h.ready.append _, h.known⟩

end Store

end Bailiff
