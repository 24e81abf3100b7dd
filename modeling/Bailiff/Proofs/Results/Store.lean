-- SUMMARY: What a request does to a result store: it adds a session, it adds a result, it closes, or it changes nothing.
import Bailiff.Proofs.Results.Database
import Bailiff.Results.Archive

/-!
# Requests to a store

`Store.Answered` lists all that a request can come to where the rules of the database hold. A request
that fails is among those that change nothing.
-/

namespace Bailiff

/-- Whether a request is one that adds to the store. -/
def Request.adds : Request → Bool
  | .begin .. => true
  | .record .. => true
  | _ => false

namespace Store

variable {s s' : Store}

def LooseOutcome.isKilled : LooseOutcome → Bool
  | .killed => true
  | .completed .. => false

/-- The row tells what the request asked to record. -/
def RecordedAs (r : Request) (row : ResultRow) : Prop :=
  ∃ session task start duration outcome,
    r = .record session task start duration outcome
      ∧ (Cell.ofValue? task).bind (·.toText?) = some row.task
      ∧ (idOf session).toInt? = some row.session
      ∧ row.killed = LooseOutcome.isKilled outcome

/-- What a request comes to. -/
inductive Answered (s : Store) : Request → Store → Except Failure Value → Prop where
  | began {version : Value} {now : Binary64} (v : String) (start : Stamp) :
      Answered s (.begin version now) { s with db := s.db.addSession v start }
        (.ok (.int s.db.nextId))
  | recorded {r : Request} {row : Database.NewRow} {session : Session}
      (known : session ∈ s.db.sessions)
      (id : (row.session.getD .nan).toInt? = some session.id)
      (fresh : s.db.hasResult (row.session.getD .nan) (row.task.getD "") = false)
      (blank : row.Blank) (told : RecordedAs r (row.settle session.id)) :
      Answered s r { s with db := s.db.append (row.settle session.id) } (.ok .absent)
  | closed : Answered s .close s.close (.ok .absent)
  | kept {r : Request} {answer : Except Failure Value}
      (failed : r.adds = true → ∃ f, answer = .error f) : Answered s r s answer

/-- A request that fails changes nothing. -/
theorem Answered.of_error {r : Request} {f : Failure} (h : Answered s r s' (.error f)) : s' = s := by
  cases h
  rfl

/-! ## Adding a session -/

theorem beginSession_eq_ok {version : String} {now : Binary64} {id : Int}
    (h : s.beginSession version now = .ok (s', id)) :
    ∃ start, s' = { s with db := s.db.addSession version start } ∧ id = s.db.nextId := by
  unfold beginSession whenOpen at h
  split at h
  · split at h
    · cases h
    next t _ =>
      cases h
      exact ⟨.ofText t.iso, rfl, rfl⟩
  · cases h

theorem beginSessionWith_eq_ok {version : Value} {now : Binary64} {id : Int}
    (h : s.beginSessionWith version now = .ok (s', id)) :
    ∃ v start, s' = { s with db := s.db.addSession v start } ∧ id = s.db.nextId := by
  unfold beginSessionWith at h
  split at h
  · cases h
  · split at h
    · cases h
    · cases h
    · split at h
      · cases h
      next v _ => exact ⟨v, beginSession_eq_ok h⟩

/-! ## Adding a result -/

theorem insert_eq_ok {task session : String} {row : Database.NewRow}
    (h : s.insert task session row = .ok s') :
    ∃ db, s.db.insert row = .ok db ∧ s' = { s with db } := by
  unfold insert at h
  split at h
  · split at h
    · cases h
    next db hdb =>
      cases h
      exact ⟨db, hdb, rfl⟩
  · cases h

theorem map_ofValue?_of_bindAll {values : List Value} {cells : List Cell}
    (h : bindAll values = some cells) : values.map Cell.ofValue? = cells.map some := by
  induction values generalizing cells with
  | nil =>
    cases h
    rfl
  | cons v rest ih =>
    simp only [bindAll, Option.bind_eq_some_iff, Option.map_eq_some_iff] at h
    obtain ⟨c, hc, more, hmore, rfl⟩ := h
    rw [List.map_cons, List.map_cons, hc, ih hmore]

/-- The cells of a request to record become one row, which the database lets through. -/
theorem recordResultWith_eq_ok {session task start duration : Value} {outcome : LooseOutcome}
    (h : s.recordResultWith session task start duration outcome = .ok s') :
    ∃ row db, s.db.insert row = .ok db ∧ s' = { s with db }
      ∧ row.task = (Cell.ofValue? task).bind (·.toText?)
      ∧ row.session = (Cell.ofValue? session).bind (·.toNumber?)
      ∧ row.killed = LooseOutcome.isKilled outcome ∧ row.Blank := by
  unfold recordResultWith at h
  dsimp only at h
  split at h
  · cases h
  split at h
  next hbind =>
    have hcells := map_ofValue?_of_bindAll hbind
    simp only [List.map_cons, List.cons.injEq] at hcells
    obtain ⟨htask, hsession, -, -, hout, herr, hcode, -⟩ := hcells
    obtain ⟨db, hdb, rfl⟩ := insert_eq_ok h
    refine ⟨_, db, hdb, rfl, by simp [htask], by simp [hsession], ?_, ?_⟩
    · cases outcome <;> rfl
    · cases outcome with
      | completed => intro hkilled; cases hkilled
      | killed =>
        intro
        simp only [Cell.ofValue?, Option.some.injEq] at hout herr hcode
        subst hout herr hcode
        exact ⟨rfl, rfl, rfl⟩
  next => cases h

/-- A row that lacks nothing has a task. -/
theorem task_of_missing?_eq_none {row : Database.NewRow} (h : row.missing? = none) :
    row.task = some (row.task.getD "") := by
  cases htask : row.task with
  | none => simp [Database.NewRow.missing?, htask] at h
  | some t => rfl

theorem answered_record (hguarded : s.db.isGuarded = true)
    {session task start duration : Value} {outcome : LooseOutcome}
    (h : s.recordResultWith session task start duration outcome = .ok s') :
    Answered s (.record session task start duration outcome) s' (.ok .absent) := by
  obtain ⟨row, db, hdb, rfl, htask, hsession, hkilled, hblank⟩ := recordResultWith_eq_ok h
  obtain ⟨known, hknown, hid, hmissing, hfresh, rfl⟩ := Database.insert_eq_ok hguarded hdb
  refine .recorded hknown hid hfresh hblank ⟨_, _, _, _, _, rfl, ?_, ?_, hkilled⟩
  · rw [← htask]
    exact task_of_missing?_eq_none hmissing
  · change (idOf session).toInt? = some known.id
    rw [← hid, hsession]
    rfl

/-! ## Any request -/

/-- Whatever is asked of a store whose rules hold, it comes to one of the listed ends. -/
theorem answer_answered (hguarded : s.db.isGuarded = true) (path : String) (r : Request) :
    Answered s r (s.answer path r).1 (s.answer path r).2 := by
  cases r with
  | «begin» version now =>
    simp only [answer]
    split
    next s' id hok =>
      obtain ⟨v, start, rfl, rfl⟩ := beginSessionWith_eq_ok hok
      exact .began v start
    next f _ => exact .kept fun _ => ⟨f, rfl⟩
  | record session task start duration outcome =>
    simp only [answer]
    split
    next s' hok => exact answered_record hguarded hok
    next f _ => exact .kept fun _ => ⟨f, rfl⟩
  | close => exact .closed
  | resume | get | has | sessions | results | status | path =>
    exact .kept fun h => by cases h

end Store

end Bailiff
