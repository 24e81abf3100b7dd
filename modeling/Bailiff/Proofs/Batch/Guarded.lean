-- SUMMARY: Every run of a guarded batch: its scope runs as a scope, and after the first signal its store is closed.
import Bailiff.Proofs.Batch.Passage
import Bailiff.Proofs.Batch.Plan
import Bailiff.Proofs.Results.Recording
import Bailiff.Proofs.Scope.Record

/-!
# Runs of a guarded batch

A run of a guarded batch is a list of actions in any possible order. Its scope goes through a run of a scope
(`GuardedBatch.Run.follows`), so it exits as a scope does, and its store is closed as soon as the cleanup has
begun. Until then each answer of the judge adds at most its own row (`GuardedBatch.Run.kept`); a closed store
stays as it is (`GuardedBatch.Run.db_eq`).
-/

namespace Bailiff

/-! ## Exits -/

def Trail.exitCode? : Trail → Option Int
  | .exit code => some code
  | _ => none

/-- The codes of the exits on a trail. -/
def Trail.exits (trail : List Trail) : List Int := trail.filterMap Trail.exitCode?

namespace Scope

def Effect.exitCode? : Effect → Option Int
  | .exit code => some code
  | _ => none

variable {α : Type}

/-- What is done at a moment. -/
def Moment.effect? : Moment α → Option Effect
  | .does e => some e
  | _ => none

theorem filterMap_effect?_doing (effects : List Effect) :
    (doing effects : List (Moment α)).filterMap Moment.effect? = effects := by
  rw [doing, List.filterMap_map]
  exact List.filterMap_some

/-- The record of an exit comes with its effect. -/
theorem Record.exits_notes (r : Record α) (t : List (Moment α)) :
    (r.notes t).exits = r.exits ++ (t.filterMap Moment.effect?).filterMap Effect.exitCode? := by
  induction t generalizing r with
  | nil => simp
  | cons m rest ih =>
    rw [notes_cons, ih]
    cases m with
    | does e => cases e <;> simp [note, Moment.effect?, Effect.exitCode?, List.filterMap_cons]
    | signal heard named =>
      simp only [note, Moment.effect?, List.filterMap_cons]
      split <;> rfl
    | workEnds | cleanupEnds | settles => simp [note, Moment.effect?, List.filterMap_cons]

/-- The cleanup has begun when this has been done. -/
theorem Record.begun_notes (r : Record α) (t : List (Moment α)) (h : (r.notes t).begun ≠ 0) :
    r.begun ≠ 0 ∨ .beginCleanup ∈ t.filterMap Moment.effect? := by
  induction t generalizing r with
  | nil => exact .inl h
  | cons m rest ih =>
    rw [notes_cons] at h
    rcases ih _ h with hbegun | hlater
    · cases m with
      | does e =>
        cases e with
        | beginCleanup => exact .inr List.mem_cons_self
        | log | attach | detach | stop | exit => exact .inl hbegun
      | signal heard named =>
        refine .inl ?_
        simp only [note] at hbegun
        split at hbegun <;> exact hbegun
      | workEnds | cleanupEnds | settles => exact .inl hbegun
    · refine .inr ?_
      rw [List.filterMap_cons]
      split
      · exact hlater
      · exact List.mem_cons_of_mem _ hlater

theorem work_signal (s : Scope α) (heard named : String) : (s.signal heard named).1.work = s.work := by
  unfold signal startCleanup
  dsimp only
  split
  · split
    · rfl
    · split <;> rfl
  · rfl

theorem cleanup_startCleanup (s : Scope α) : s.startCleanup.1.cleanup ≠ .idle := by
  unfold startCleanup
  split
  next => nofun
  next hne => exact hne

theorem work_workEnds (s : Scope α) (result : Except Failure α) : (s.workEnds result).1.work = some result := by
  unfold workEnds startCleanup
  split <;> rfl

theorem work_settle (s : Scope α) : s.settle.1.work = s.work := by
  unfold settle
  split <;> rfl

end Scope

/-! ## Answers of the judge -/

namespace Batch

/-- An answer of the judge leaves the store alone or is recorded there. -/
theorem reply_cases (s : Store) (b : Batch) (duration : Binary64) (answer : Except Failure Outcome) :
    (b.reply s duration answer).1 = s ∨ ∃ task start outcome s', b.phase = .judging task start
      ∧ answer = .ok outcome ∧ s.recordResult b.plan.session task start duration outcome = .ok s'
      ∧ (b.reply s duration answer).1 = s' := by
  unfold reply
  split
  next task start hphase =>
    split
    · exact .inl rfl
    next outcome =>
      split
      · exact .inl rfl
      next s' hrecord => exact .inr ⟨task, start, outcome, s', hphase, rfl, hrecord, rfl⟩
  · exact .inl rfl

theorem isOpen_reply (s : Store) (b : Batch) (duration : Binary64) (answer : Except Failure Outcome) :
    (b.reply s duration answer).1.isOpen = s.isOpen := by
  rcases reply_cases s b duration answer with hsame | ⟨task, start, outcome, s', -, -, hrecord, hreply⟩
  · rw [hsame]
  · obtain ⟨db, -, rfl⟩ := Store.insert_eq_ok hrecord
    rw [hreply]

/-- Nothing is recorded in a closed store. -/
theorem reply_closed {s : Store} (hclosed : s.isOpen = false) (b : Batch) (duration : Binary64)
    (answer : Except Failure Outcome) : (b.reply s duration answer).1 = s := by
  rcases reply_cases s b duration answer with hsame | ⟨task, start, outcome, s', -, -, hrecord, -⟩
  · exact hsame
  · simp [Store.recordResult, Store.insert, hclosed] at hrecord

end Batch

namespace GuardedBatch

variable {g g' : GuardedBatch} {plan : BatchPlan} {store : Store}

/-! ## Runs -/

/-- What can happen to a guarded batch as it stands. The judge may answer at any time, whether it was asked to
stop or not. -/
def Possible (g : GuardedBatch) : Action → Prop
  | .listed _ => g.batch = none ∧ g.scope.work = none
  | .judged _ _ => ∃ b task start, g.batch = some b ∧ b.phase = .judging task start
  | .signal _ => True
  | .cleaned => g.scope.cleanup = .running
  | .exit => g.scope.exitDue = true
  | .settle => g.scope.settleDue = true

/-- What can happen to a guarded batch, in order. -/
inductive Run (g : GuardedBatch) : List Action → GuardedBatch → Prop where
  | rest : Run g [] g
  | step {t : List Action} {g' : GuardedBatch} (h : Run g t g') (now : Instant) (a : Action)
      (hpossible : g'.Possible a) : Run g (t ++ [a]) (g'.step now a)

/-! ## Effects -/

/-- What carrying out effects comes to. -/
structure Performs (effects : List Scope.Effect) (g g' : GuardedBatch) : Prop where
  plan : g'.plan = g.plan
  scope : g'.scope = g.scope
  batch : g'.batch = g.batch
  db : g'.store.db = g.store.db
  isOpen : g'.store.isOpen = false ↔ g.store.isOpen = false ∨ .beginCleanup ∈ effects
  exits : Trail.exits g'.trail = Trail.exits g.trail ++ effects.filterMap Scope.Effect.exitCode?

theorem performs_perform (now : Instant) (g : GuardedBatch) (e : Scope.Effect) :
    Performs [e] g (perform now g e) := by
  cases e <;> constructor <;>
    simp [perform, Store.close, Trail.exits, Trail.exitCode?, Scope.Effect.exitCode?, List.filterMap_cons]

theorem performs_foldl (now : Instant) (effects : List Scope.Effect) (g : GuardedBatch) :
    Performs effects g (effects.foldl (perform now) g) := by
  induction effects generalizing g with
  | nil => constructor <;> simp
  | cons e rest ih =>
    have hfirst := performs_perform now g e
    have hrest := ih (perform now g e)
    constructor
    case plan => exact hrest.plan.trans hfirst.plan
    case scope => exact hrest.scope.trans hfirst.scope
    case batch => exact hrest.batch.trans hfirst.batch
    case db => exact hrest.db.trans hfirst.db
    case isOpen =>
      rw [List.foldl_cons, hrest.isOpen, hfirst.isOpen, List.mem_singleton, List.mem_cons, or_assoc]
    case exits =>
      rw [List.foldl_cons, hrest.exits, hfirst.exits, List.append_assoc, ← List.filterMap_append]
      rfl

/-- A step of the scope, with its effects carried out. -/
theorem performs_inScope (now : Instant) (g : GuardedBatch)
    (f : Scope BatchSummary → Scope BatchSummary × List Scope.Effect) :
    Performs (f g.scope).2 { g with scope := (f g.scope).1 } (g.inScope now f) :=
  performs_foldl now _ _

/-! ## The scope of a run -/

/-- The scope has gone through the moments of a run of its own, its exits are on the trail, and the store has
been closed if the cleanup has begun. -/
structure Follows (g : GuardedBatch) (t : List (Scope.Moment BatchSummary)) : Prop where
  run : Scope.Run Scope.defaultCodes t g.scope
  exits : Trail.exits g.trail = (Scope.record t).exits
  closed : (Scope.record t).begun ≠ 0 → g.store.isOpen = false

theorem Performs.follows {effects : List Scope.Effect} {t ms : List (Scope.Moment BatchSummary)}
    (h : Performs effects g g') (hrun : Scope.Run Scope.defaultCodes (t ++ ms) g.scope)
    (hexits : Trail.exits g.trail = (Scope.record t).exits)
    (hclosed : (Scope.record t).begun ≠ 0 → g.store.isOpen = false)
    (heffects : ms.filterMap Scope.Moment.effect? = effects) : g'.Follows (t ++ ms) := by
  constructor
  case run =>
    rw [h.scope]
    exact hrun
  case exits => rw [h.exits, hexits, Scope.record_append, Scope.Record.exits_notes, heffects]
  case closed =>
    rw [Scope.record_append, h.isOpen]
    intro hbegun
    rw [← heffects]
    exact (Scope.Record.begun_notes _ ms hbegun).imp_left hclosed

/-- A step of the scope goes on with its run. -/
theorem Follows.inScope {t ms : List (Scope.Moment BatchSummary)} (h : g.Follows t) (now : Instant)
    (f : Scope BatchSummary → Scope BatchSummary × List Scope.Effect)
    (hrun : Scope.Run Scope.defaultCodes (t ++ ms) (f g.scope).1)
    (heffects : ms.filterMap Scope.Moment.effect? = (f g.scope).2) :
    (g.inScope now f).Follows (t ++ ms) :=
  (performs_inScope now g f).follows hrun h.exits h.closed heffects

theorem follows_enter (now : Instant) (plan : BatchPlan) (store : Store) :
    ∃ t, (enter now plan store).Follows t := by
  have hperforms := performs_inScope now { plan, store } Scope.enter
  have hrun : Scope.Run Scope.defaultCodes (Scope.doing (Scope.enter ({} : Scope BatchSummary)).2) _ := .enter
  have heffects := @Scope.filterMap_effect?_doing BatchSummary (Scope.enter ({} : Scope BatchSummary)).2
  exact ⟨_, @Performs.follows _ _ _ [] _ hperforms hrun rfl (fun h => absurd rfl h) heffects⟩

/-- What holds at every moment of a run: the scope runs as a scope, and while the batch waits for the judge its
work has not ended. -/
structure Watched (g : GuardedBatch) : Prop where
  follows : ∃ t, g.Follows t
  working : ∀ b task start, g.batch = some b → b.phase = .judging task start → g.scope.work = none

/-- The work ends when the batch waits for the judge no more. -/
theorem watched_workEnds {t : List (Scope.Moment BatchSummary)} (h : g.Follows t) (now : Instant)
    (hwork : g.scope.work = none) (result : Except Failure BatchSummary)
    (hended : ∀ b task start, g.batch = some b → b.phase ≠ .judging task start) :
    (g.inScope now (·.workEnds result)).Watched := by
  refine ⟨⟨_, h.inScope now (·.workEnds result) (h.run.workEnds hwork result) (Scope.filterMap_effect?_doing _)⟩, ?_⟩
  intro b task start hb hphase
  rw [(performs_inScope now g _).batch] at hb
  exact absurd hphase (hended b task start hb)

/-- What happens to the scope beside the end of the work. -/
theorem Watched.inScope {t ms : List (Scope.Moment BatchSummary)} (h : g.Watched) (hfollows : g.Follows t)
    (now : Instant) (f : Scope BatchSummary → Scope BatchSummary × List Scope.Effect)
    (hrun : Scope.Run Scope.defaultCodes (t ++ ms) (f g.scope).1)
    (heffects : ms.filterMap Scope.Moment.effect? = (f g.scope).2) (hwork : (f g.scope).1.work = g.scope.work) :
    (g.inScope now f).Watched := by
  refine ⟨⟨_, hfollows.inScope now f hrun heffects⟩, ?_⟩
  intro b task start hb hphase
  have hperforms := performs_inScope now g f
  rw [hperforms.batch] at hb
  rw [hperforms.scope, hwork]
  exact h.working b task start hb hphase

/-- A batch that has gone on waits for the judge, or has ended and its work with it. -/
theorem watched_proceed {t : List (Scope.Moment BatchSummary)} (h : g.Follows t) (hwork : g.scope.work = none)
    (now : Instant) (b : Batch) : (g.proceed now b).Watched := by
  have hseen (notes : List BatchNote) : Trail.exits (notes.map (seen now g.plan.session)) = [] := by
    induction notes with
    | nil => rfl
    | cons note rest ih => cases note <;> simpa [Trail.exits, seen, Trail.exitCode?, List.filterMap_cons] using ih
  have hshown (b : Batch) : Follows { g with
      batch := some { b with notes := [] }
      trail := g.trail ++ b.notes.map (seen now g.plan.session) } t := by
    refine ⟨h.run, ?_, h.closed⟩
    have hexits := hseen b.notes
    rw [Trail.exits] at hexits ⊢
    rw [List.filterMap_append, hexits, List.append_nil]
    exact h.exits
  unfold proceed
  dsimp only
  generalize b.advance g.stopped g.store (.ofInt now.ms) = b
  split
  next result hresult =>
    apply watched_workEnds (hshown b) now hwork result
    rintro _ task start ⟨⟩ hphase
    simp [Batch.result?, show b.phase = .judging task start from hphase] at hresult
  next => exact ⟨⟨t, hshown b⟩, fun _ _ _ _ _ => hwork⟩

theorem Watched.step (h : g.Watched) (now : Instant) {a : Action} (hpossible : g.Possible a) :
    (g.step now a).Watched := by
  obtain ⟨t, hfollows⟩ := h.follows
  cases a with
  | listed tasks =>
    obtain ⟨hbatch, hwork⟩ := hpossible
    cases tasks with
    | ok tasks => exact watched_proceed hfollows hwork now _
    | error fault => exact watched_workEnds hfollows now hwork _ (by simp [hbatch])
  | judged duration answer =>
    obtain ⟨b, task, start, hb, hphase⟩ := hpossible
    have hwork := h.working b task start hb hphase
    have hreplied : ∀ next, Follows { g with store := (b.reply g.store duration answer).1, batch := next } t :=
      fun next => ⟨hfollows.run, hfollows.exits, fun hbegun => (Batch.isOpen_reply ..).trans (hfollows.closed hbegun)⟩
    simp only [GuardedBatch.step, hb]
    split
    next => exact watched_proceed (hreplied _) hwork now _
    next f hfailed =>
      apply watched_workEnds (hreplied _) now hwork
      rintro _ task start ⟨⟩ hphase
      rw [hfailed] at hphase
      cases hphase
    next => exact ⟨⟨t, hreplied _⟩, fun _ _ _ _ _ => hwork⟩
  | signal name =>
    have hrun := hfollows.run.signal name name
    exact h.inScope hfollows now ((·.signal name name)) hrun (Scope.filterMap_effect?_doing _)
      (Scope.work_signal g.scope name name)
  | cleaned =>
    exact h.inScope hfollows now ((·.cleanupEnds none)) (hfollows.run.cleanupEnds hpossible none)
      (Scope.filterMap_effect?_doing _) rfl
  | exit =>
    exact h.inScope hfollows now (Scope.exit) (hfollows.run.exit hpossible)
      (Scope.filterMap_effect?_doing _) rfl
  | settle =>
    have hdue : g.scope.settleDue = true := hpossible
    have hended := hdue
    simp only [Scope.settleDue, Bool.and_eq_true] at hended
    obtain ⟨result, hresult⟩ := Option.isSome_iff_exists.mp hended.1.2
    have heffects : (Scope.doing g.scope.settle.2 ++ [Scope.Moment.settles result]).filterMap Scope.Moment.effect?
        = g.scope.settle.2 := by
      rw [List.filterMap_append, Scope.filterMap_effect?_doing]
      exact List.append_nil _
    exact h.inScope hfollows now (Scope.settle) (hfollows.run.settle hdue hresult) heffects
      (Scope.work_settle g.scope)

theorem watched_enter (now : Instant) (plan : BatchPlan) (store : Store) : (enter now plan store).Watched := by
  refine ⟨follows_enter now plan store, ?_⟩
  intro b task start hb
  rw [enter, (performs_inScope now _ _).batch] at hb
  cases hb

theorem Run.watched {t : List Action} (hrun : Run g t g') (h : g.Watched) : g'.Watched := by
  induction hrun with
  | rest => exact h
  | step _ now a hpossible ih => exact ih.step now hpossible

/-- What a run has exited with. -/
theorem Watched.exits (h : g.Watched) :
    Trail.exits g.trail = if g.scope.exited then (g.scope.reason.map g.scope.codeOf).toList else [] := by
  obtain ⟨t, hfollows⟩ := h.follows
  obtain ⟨heard, -, hrecord⟩ := hfollows.run.record_eq
  rw [hfollows.exits, hrecord]
  rfl

/-- The store is closed from the beginning of the cleanup on. -/
theorem Watched.closed (h : g.Watched) (hcleanup : g.scope.cleanup ≠ .idle) : g.store.isOpen = false := by
  obtain ⟨t, hfollows⟩ := h.follows
  obtain ⟨heard, -, hrecord⟩ := hfollows.run.record_eq
  apply hfollows.closed
  rw [hrecord, Scope.told, if_neg hcleanup]
  exact Nat.one_ne_zero

/-- What every step of a scope keeps is kept by the steps of a guarded batch. -/
theorem scope_step {P : Scope BatchSummary → Prop} (hwork : ∀ s r, P s → P (s.workEnds r).1)
    (hsignal : ∀ s name, P s → P (s.signal name name).1) (hcleanup : ∀ s, P s → P (s.cleanupEnds none).1)
    (hexit : ∀ s, P s → P s.exit.1) (hsettle : ∀ s, P s → P s.settle.1) (h : P g.scope) (now : Instant)
    (a : Action) : P (g.step now a).scope := by
  have hinScope (g : GuardedBatch) (f : Scope BatchSummary → Scope BatchSummary × List Scope.Effect)
      (hf : P (f g.scope).1) : P (g.inScope now f).scope := by
    rw [(performs_inScope now g f).scope]
    exact hf
  have hproceed (g : GuardedBatch) (b : Batch) (h : P g.scope) : P (g.proceed now b).scope := by
    unfold proceed
    dsimp only
    split
    · exact hinScope _ _ (hwork _ _ h)
    · exact h
  cases a with
  | listed tasks =>
    cases tasks with
    | ok tasks => exact hproceed g _ h
    | error fault => exact hinScope g _ (hwork _ _ h)
  | judged duration answer =>
    unfold GuardedBatch.step
    dsimp only
    split
    · exact h
    · split
      · exact hproceed _ _ h
      · exact hinScope _ _ (hwork _ _ h)
      · exact h
  | signal name => exact hinScope g _ (hsignal _ name h)
  | cleaned => exact hinScope g _ (hcleanup _ h)
  | exit => exact hinScope g _ (hexit _ h)
  | settle => exact hinScope g _ (hsettle _ h)

/-- The first signal stays the reason. -/
theorem reason_step {name : String} (h : g.scope.reason = some name) (now : Instant) (a : Action) :
    (g.step now a).scope.reason = some name := by
  apply @scope_step g fun s => s.reason = some name
  · intro s r hs
    exact (Scope.reason_startCleanup _).trans hs
  · intro s other hs
    simp only [Scope.signal, hs, Option.isSome_some, if_true]
    split <;> exact hs
  · exact fun s hs => hs
  · exact fun s hs => hs
  · intro s hs
    unfold Scope.settle
    split <;> exact hs
  · exact h

theorem Run.reason {t : List Action} (hrun : Run g t g') {name : String} (h : g.scope.reason = some name) :
    g'.scope.reason = some name := by
  induction hrun with
  | rest => exact h
  | step _ now a _ ih => exact reason_step ih now a

/-! ## The store of a run -/

/-- The store when an action has told it what there is to record. -/
def answered (g : GuardedBatch) : Action → Store
  | .judged duration answer => g.batch.elim g.store fun b => (b.reply g.store duration answer).1
  | _ => g.store

/-- The scope does nothing to a database, and what it has closed stays closed. -/
structure Rests (s s' : Store) : Prop where
  db : s'.db = s.db
  isOpen : s.isOpen = false → s'.isOpen = false

theorem Rests.refl (s : Store) : Rests s s := ⟨rfl, id⟩

theorem rests_inScope (now : Instant) {s : Store} (hs : g.store = s)
    (f : Scope BatchSummary → Scope BatchSummary × List Scope.Effect) : Rests s (g.inScope now f).store := by
  have hperforms := performs_inScope now g f
  subst hs
  exact ⟨hperforms.db, fun hclosed => hperforms.isOpen.mpr (.inl hclosed)⟩

theorem rests_proceed (now : Instant) {s : Store} (hs : g.store = s) (b : Batch) :
    Rests s (g.proceed now b).store := by
  unfold proceed
  dsimp only
  split
  · apply rests_inScope
    exact hs
  · exact hs ▸ .refl _

/-- A step records what the judge has answered, and does no more to the database. -/
theorem rests_step (now : Instant) (g : GuardedBatch) (a : Action) : Rests (g.answered a) (g.step now a).store := by
  cases a with
  | listed tasks =>
    cases tasks with
    | ok tasks => exact rests_proceed now rfl _
    | error fault => exact rests_inScope now rfl _
  | judged duration answer =>
    unfold GuardedBatch.step answered
    dsimp only
    split
    next hb =>
      rw [hb]
      exact .refl _
    next b hb =>
      rw [hb]
      dsimp only [Option.elim]
      split
      · apply rests_proceed
        rfl
      · apply rests_inScope
        rfl
      · exact .refl _
  | signal | cleaned | exit | settle => exact rests_inScope now rfl _

theorem step_closed (h : g.store.isOpen = false) (now : Instant) (a : Action) :
    (g.step now a).store.db = g.store.db ∧ (g.step now a).store.isOpen = false := by
  have hanswered : g.answered a = g.store := by
    cases a with
    | judged duration answer =>
      cases hb : g.batch with
      | none => simp [answered, hb]
      | some b => simpa [answered, hb] using Batch.reply_closed h b duration answer
    | listed | signal | cleaned | exit | settle => rfl
  have hrests := rests_step now g a
  rw [hanswered] at hrests
  exact ⟨hrests.db, hrests.isOpen h⟩

/-- Nothing is added to a closed store, whatever the judge answers. -/
theorem Run.db_eq {t : List Action} (hrun : Run g t g') (h : g.store.isOpen = false) :
    g'.store.db = g.store.db ∧ g'.store.isOpen = false := by
  induction hrun with
  | rest => exact ⟨rfl, h⟩
  | step _ now a _ ih =>
    obtain ⟨hdb, hclosed⟩ := ih
    obtain ⟨hdb', hclosed'⟩ := step_closed hclosed now a
    exact ⟨hdb'.trans hdb, hclosed'⟩

/-- The answers of the judge among some actions. -/
def answers (t : List Action) : List (Binary64 × Except Failure Outcome) :=
  t.filterMap fun a => match a with
    | .judged duration answer => some (duration, answer)
    | _ => none

/-- What a run has made of the store it began with: each row that is new is the whole row of an answer of the
judge, in the order of the answers. -/
structure Kept (session : Binary64) (id : Int) (store : Store) (t : List Action) (g : GuardedBatch) : Prop where
  ready : g.store.db.Ready
  sound : g.store.db.Sound
  sessions : g.store.db.sessions = store.db.sessions
  rows : ∃ (added : List ResultRow) (attempts : List Batch.Attempt), g.store.db.results = store.db.results ++ added
    ∧ List.Forall₂ (Batch.Leaves session id) added attempts
    ∧ (attempts.map fun x => (x.duration, x.answer)).Sublist (answers t)

theorem kept_enter (now : Instant) (hready : store.db.Ready) (hsound : store.db.Sound) (id : Int) :
    Kept plan.session id store [] (enter now plan store) := by
  have hdb : (enter now plan store).store.db = store.db := (performs_inScope now { plan, store } Scope.enter).db
  constructor
  case ready => exact hdb ▸ hready
  case sound => exact hdb ▸ hsound
  case sessions => rw [hdb]
  case rows => exact ⟨[], [], by rw [hdb, List.append_nil], .nil, List.Sublist.refl _⟩

theorem Kept.step {t : List Action} {id : Int} (h : Kept plan.session id store t g) (hplan : g.HasPlan plan)
    (hid : plan.session.toInt? = some id) (now : Instant) (a : Action) :
    Kept plan.session id store (t ++ [a]) (g.step now a) := by
  obtain ⟨added, attempts, hresults, hadded, hattempts⟩ := h.rows
  have hdb := (rests_step now g a).db
  have hanswers : (answers t).Sublist (answers (t ++ [a])) := by
    rw [answers, answers, List.filterMap_append]
    exact List.sublist_append_left ..
  -- Nothing is recorded, or the row of one answer.
  have hsame (hanswered : g.answered a = g.store) : Kept plan.session id store (t ++ [a]) (g.step now a) := by
    rw [hanswered] at hdb
    constructor
    case ready => exact hdb ▸ h.ready
    case sound => exact hdb ▸ h.sound
    case sessions => rw [hdb, h.sessions]
    case rows => exact ⟨added, attempts, by rw [hdb, hresults], hadded, hattempts.trans hanswers⟩
  cases a with
  | listed | signal | cleaned | exit | settle => exact hsame rfl
  | judged duration answer =>
    cases hb : g.batch with
    | none => exact hsame (by simp [answered, hb])
    | some b =>
      have hanswered : g.answered (.judged duration answer) = (b.reply g.store duration answer).1 := by
        simp [answered, hb]
      rcases Batch.reply_cases g.store b duration answer with
        hkept | ⟨task, start, outcome, s', hphase, rfl, hrecord, hreply⟩
      · exact hsame (hanswered.trans hkept)
      · rw [hanswered, hreply] at hdb
        rw [hplan.batch b hb] at hrecord
        obtain ⟨hready, hsound⟩ := Store.recordResult_keeps h.ready h.sound hrecord
        have hsessions := Store.sessions_recordResult hrecord
        obtain ⟨r, hrecorded⟩ := @Batch.recorded_of_eq_ok _ _ _ _ hid h.ready.resultTable
          ⟨task, start, duration, .ok outcome⟩ outcome rfl hrecord
        constructor
        case ready => exact hdb ▸ hready
        case sound => exact hdb ▸ hsound
        case sessions => rw [hdb, hsessions, h.sessions]
        case rows =>
          refine ⟨added ++ [r], attempts ++ [⟨task, start, duration, .ok outcome⟩], ?_, ?_, ?_⟩
          · rw [hdb, hrecorded.results, hresults, List.append_assoc]
          · exact List.rel_append hadded (.cons hrecorded.leaves .nil)
          · rw [List.map_append, answers, List.filterMap_append]
            exact hattempts.append (List.Sublist.refl _)

theorem HasPlan.run {t : List Action} (hrun : Run g t g') (h : g.HasPlan plan) : g'.HasPlan plan := by
  induction hrun with
  | rest => exact h
  | step _ now a _ ih => exact ih.step now a

/-- In a run, each row that is added is the whole row of an answer. -/
theorem Run.kept {t : List Action} {start : Instant} {id : Int} (hrun : Run (enter start plan store) t g)
    (hready : store.db.Ready) (hsound : store.db.Sound) (hid : plan.session.toInt? = some id) :
    Kept plan.session id store t g := by
  induction hrun with
  | rest => exact kept_enter start hready hsound id
  | step hrun now a _ ih => exact ih.step (.run hrun (hasPlan_enter start plan store)) hid now a

end GuardedBatch

end Bailiff
