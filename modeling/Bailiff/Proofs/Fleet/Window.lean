-- SUMMARY: With server and workers, a run settles in time with the result of the server, whatever the workers do.
import Bailiff.Proofs.Fleet.Server
import Bailiff.Proofs.Fleet.Workers
import Bailiff.Proofs.Judge.Timers
import Bailiff.Rehearsal.Waiting

/-!
# The window of the workers

When the server's part of a run has ended, the workers get a window of time to end too. A fleet with a clock notes
when that is and when the run settles. It settles before the window is over (`Clocked.InTime`), and together with
what is known of the server's part this bounds what the workers can do to a run
(`Clocked.Run.workers_cannot_interfere`).
-/

namespace Bailiff

namespace Fleet

variable {launcher : Launcher} {f g : Fleet} {effects : List Effect}

/-! ## Turns -/

/-- What a move means for the window: the server's part ends and opens it, the run settles, which only follows
the end of the server's part or a failure before there were workers, or there is no news of either. -/
inductive Turn (f g : Fleet) (effects : List Effect) : Prop where
  | ends (hbefore : f.outcome? = none) (r : RunResult) (hafter : g.phase = .joining r) (hopens : opens effects = true)
  | fails (hbefore : f.outcome? = none) (r : RunResult) (hafter : g.phase = .settled r)
      (hopens : opens effects = false) (hside : g.side = .idle)
  | settles (r : RunResult) (hbefore : f.phase = .joining r) (hafter : g.phase = .settled r)
      (hopens : opens effects = false)
  | goesOn (houtcome : g.outcome? = f.outcome?) (hresult : g.result? = f.result?) (hopens : opens effects = false)
      (hdone : f.side = .done → g.side = .done)
      (hidle : f.result?.isSome = true → f.side = .idle → g.side = .idle)

theorem outcome?_eq_some {r : RunResult} : f.outcome? = some r ↔ f.phase = .joining r ∨ f.phase = .settled r := by
  unfold outcome?
  cases f.phase <;> simp

theorem phase_eq_joining {r : RunResult} : f.phase = .joining r ↔ f.outcome? = some r ∧ f.result? = none := by
  unfold outcome? result?
  cases f.phase <;> simp

theorem result?_of_outcome? (h : f.outcome? = none) : f.result? = none := by
  unfold outcome? at h
  unfold result?
  cases hphase : f.phase <;> simp_all

/-- The run goes on before the server's part has ended. -/
theorem turn_before (hbefore : f.outcome? = none) (hafter : g.outcome? = none) (hopens : opens effects = false)
    (hdone : f.side = .done → g.side = .done) : f.Turn g effects := by
  refine .goesOn (hafter.trans hbefore.symm) ?_ hopens hdone fun hsettled => ?_
  · rw [result?_of_outcome? hbefore, result?_of_outcome? hafter]
  · simp [result?_of_outcome? hbefore] at hsettled

/-- A move that leaves the phase alone. -/
theorem turn_same (hphase : g.phase = f.phase) (hopens : opens effects = false)
    (hdone : f.side = .done → g.side = .done) (hidle : f.side = .idle → g.side = .idle) : f.Turn g effects :=
  .goesOn (by rw [outcome?, outcome?, hphase]) (by rw [result?, result?, hphase]) hopens hdone fun _ => hidle

theorem ServerMove.turn (hmove : f.ServerMove g effects) (h : f.phase.isPreparing = true → f.side = .idle) :
    f.Turn g effects := by
  cases hmove with
  | still => exact turn_same rfl rfl id id
  | prepares hfrom phase hto files stores hopens =>
    exact turn_before (outcome?_of_preparing hfrom) (outcome?_of_preparing hto) hopens id
  | fails hfrom => exact .fails (outcome?_of_preparing hfrom) _ rfl rfl (h hfrom)
  | enters hfrom files hopens =>
    exact turn_before (outcome?_of_preparing hfrom) rfl hopens (by simp [h hfrom])
  | makes hfrom => exact turn_before (by simp [outcome?, hfrom]) rfl rfl id
  | serves hfrom files starts temporaries hopens =>
    exact turn_before (by simp [outcome?, hfrom]) rfl hopens id
  | abandons hfrom files starts temporaries failure hopens =>
    exact .ends (by rcases hfrom with hfrom | hfrom <;> simp [outcome?, hfrom]) _ rfl hopens
  | concludes hfrom r hserver hopens => exact .ends (by simp [outcome?, hfrom]) r rfl hopens
  | ends => exact turn_same rfl rfl id id

theorem WorkersMove.turn (hmove : f.WorkersMove g effects) : f.Turn g effects := by
  cases hmove with
  | still | stops | ends => exact turn_same rfl rfl id id
  | cancels hside hopens => exact turn_same rfl hopens (by simp [hside]) (by simp [hside])
  | launches hside starts hopens => exact turn_same rfl hopens (by simp [hside]) (by simp [hside])
  | breaks hside count starts hcount hopens => exact turn_same rfl hopens (fun _ => rfl) (by simp [hside])
  | gives hside hfirst hopens => exact turn_same rfl hopens (fun _ => rfl) (by simp [hside])
  | gathers hside hexited hopens => exact turn_same rfl hopens (fun _ => rfl) (by simp [hside])
  | dismisses r hfrom hside hopens => exact .settles r hfrom rfl hopens
  | joins r hfrom => exact .settles r hfrom rfl rfl

theorem turn_run {plan : FleetPlan} (hmode : plan.mode = .serverAndWorkers) (files : FileTree)
    (launcher : Launcher) (hs : List Happening) (a : Action) :
    (Fleet.run launcher { plan, files } hs).Turn ((Fleet.run launcher { plan, files } hs).step launcher a).1
      ((Fleet.run launcher { plan, files } hs).step launcher a).2 := by
  have hpair := (isPair_start hmode files).run launcher hs
  refine (hpair.move_step launcher a).elim (fun hmove => hmove.turn fun hpreparing => ?_) (·.turn)
  have hopen := result?_of_outcome? (outcome?_of_preparing hpreparing)
  exact ((tended_start plan files).run (isPair_start hmode files) rfl hs hopen).preparing hpreparing

end Fleet

open Fleet
open Judge (wholeDelay)

/-! ## Clocks -/

/-- A fleet and the time. -/
structure Clocked where
  fleet : Fleet
  now : Nat := 0
  /-- When the window of the workers is over at the latest, once it is open. -/
  deadline : Option Nat := none
  /-- When the server's part of the run ended. -/
  endedAt : Option Nat := none
  settledAt : Option Nat := none

namespace Clocked

/-- What has happened after a step. The window lasts as long as a timer of its milliseconds. -/
def after (windowMs : Nat) (c : Clocked) (step : Fleet × List Effect) : Clocked :=
  { fleet := step.1
    now := c.now
    deadline := if opens step.2 then some (c.now + wholeDelay windowMs) else c.deadline
    endedAt := if opens step.2 then some c.now else c.endedAt
    settledAt := if c.fleet.result?.isNone && step.1.result?.isSome then some c.now else c.settledAt }

/-- What can happen to a fleet in time. Everything can happen at any time but the end of the window, which
comes when the window has opened, and before more than its time has passed. Time does not pass while server
and workers have ended and that is to be acted on. -/
inductive Run (launcher : Launcher) (windowMs : Nat) (start : Fleet) : List Happening → Clocked → Prop where
  | start : Run launcher windowMs start [] { fleet := start }
  | act {hs : List Happening} {c : Clocked} (h : Run launcher windowMs start hs c) (a : Action)
      (ha : a ≠ .windowOver) :
      Run launcher windowMs start (hs ++ [.act a]) (c.after windowMs (c.fleet.step launcher a))
  | windowOver {hs : List Happening} {c : Clocked} (h : Run launcher windowMs start hs c)
      (hopened : c.deadline.isSome = true) :
      Run launcher windowMs start (hs ++ [.act .windowOver])
        ({ c with deadline := none }.after windowMs (c.fleet.step launcher .windowOver))
  | files {hs : List Happening} {c : Clocked} (h : Run launcher windowMs start hs c) (t : FileTree) :
      Run launcher windowMs start (hs ++ [.files t]) { c with fleet := { c.fleet with files := t } }
  | pass {hs : List Happening} {c : Clocked} (h : Run launcher windowMs start hs c) (ms : Nat)
      (hwindow : ∀ t, c.deadline = some t → c.now + ms ≤ t) (hjoin : c.fleet.joinDue = false) :
      Run launcher windowMs start hs { c with now := c.now + ms }

variable {launcher : Launcher} {windowMs : Nat} {start : Fleet} {hs : List Happening} {c : Clocked}

theorem Run.fleet_eq (h : Run launcher windowMs start hs c) : c.fleet = start.run launcher hs := by
  induction h with
  | start => rfl
  | act _ a _ ih =>
    rw [run_append, ← ih]
    rfl
  | windowOver _ _ ih =>
    rw [run_append, ← ih]
    rfl
  | files _ t ih =>
    rw [run_append, ← ih]
    rfl
  | pass _ _ _ _ ih => exact ih

/-- What can happen at any time can happen next. -/
theorem Run.acts (h : Run launcher windowMs start hs c) (as : List Action) (has : ∀ a ∈ as, a ≠ .windowOver) :
    ∃ next, Run launcher windowMs start (hs ++ as.map .act) next := by
  induction as generalizing hs c with
  | nil => exact ⟨c, by simpa using h⟩
  | cons a rest ih =>
    rw [List.forall_mem_cons] at has
    obtain ⟨next, hnext⟩ := ih (h.act a has.1) has.2
    exact ⟨next, by simpa using hnext⟩

/-- What the times that have been noted say of a fleet. -/
structure InTime (windowMs : Nat) (c : Clocked) : Prop where
  before : c.fleet.outcome? = none → c.endedAt = none ∧ c.settledAt = none
  joining : ∀ r, c.fleet.phase = .joining r → ∃ t, c.endedAt = some t ∧ c.settledAt = none ∧ t ≤ c.now
    ∧ c.now ≤ t + wholeDelay windowMs ∧ (c.deadline = some (t + wholeDelay windowMs) ∨ c.fleet.side = .done)
  settled : ∀ r, c.fleet.phase = .settled r → c.endedAt = none ∧ c.fleet.side = .idle
    ∨ ∃ t t', c.endedAt = some t ∧ c.settledAt = some t' ∧ t ≤ t' ∧ t' ≤ t + wholeDelay windowMs

theorem inTime_settled {r : RunResult} {t t' : Nat} (hphase : c.fleet.phase = .settled r) (hended : c.endedAt = some t)
    (hsettled : c.settledAt = some t') (hfrom : t ≤ t') (hto : t' ≤ t + wholeDelay windowMs) :
    c.InTime windowMs where
  before hnone := by simp [outcome?, hphase] at hnone
  joining r hjoining := by simp [hphase] at hjoining
  settled _ _ := .inr ⟨t, t', hended, hsettled, hfrom, hto⟩

theorem InTime.after (h : c.InTime windowMs) {g : Fleet} {effects : List Effect}
    (hturn : c.fleet.Turn g effects) : (c.after windowMs (g, effects)).InTime windowMs := by
  cases hturn with
  | ends hbefore r hafter hopens =>
    have hsettled := (h.before hbefore).2
    have hended : g.outcome? = some r := outcome?_eq_some.mpr (.inl hafter)
    have hopen : g.result? = none := by simp [result?, hafter]
    constructor
    · simp [Clocked.after, hended]
    · intro r' _
      exact ⟨c.now, by simp [Clocked.after, hopens], by simp [Clocked.after, hopen, hsettled], Nat.le_refl _,
        Nat.le_add_right _ _, .inl (by simp [Clocked.after, hopens])⟩
    · simp [Clocked.after, hafter]
  | fails hbefore r hafter hopens hside =>
    have hended := (h.before hbefore).1
    constructor
    · simp [Clocked.after, outcome?, hafter]
    · simp [Clocked.after, hafter]
    · intro r' _
      exact .inl ⟨by simp [Clocked.after, hopens, hended], hside⟩
  | settles r hbefore hafter hopens =>
    obtain ⟨t, hended, -, hfrom, hto, -⟩ := h.joining r hbefore
    refine inTime_settled hafter ?_ ?_ hfrom hto
    · simp [Clocked.after, hopens, hended]
    · simp [Clocked.after, result?, hbefore, hafter]
  | goesOn houtcome hresult hopens hdone hidle =>
    have hsame : c.after windowMs (g, effects) = { c with fleet := g } := by
      cases hresult' : c.fleet.result? <;> simp [Clocked.after, hopens, hresult, hresult']
    rw [hsame]
    constructor
    · exact fun hnone => h.before (houtcome ▸ hnone)
    · intro r hjoining
      have hbefore : c.fleet.phase = .joining r := by
        rw [phase_eq_joining, ← houtcome, ← hresult, ← phase_eq_joining]
        exact hjoining
      obtain ⟨t, hended, hsettled, hfrom, hto, hdeadline⟩ := h.joining r hbefore
      exact ⟨t, hended, hsettled, hfrom, hto, hdeadline.imp_right hdone⟩
    · intro r hsettled
      have hbefore : c.fleet.result? = some r := hresult ▸ result?_eq_some.mpr hsettled
      rcases h.settled r (result?_eq_some.mp hbefore) with ⟨hended, hside⟩ | htimes
      · exact .inl ⟨hended, hidle (by simp [hbefore]) hside⟩
      · exact .inr htimes

/-- When the window is over, the run settles, unless the workers' side is over too. -/
theorem step_windowOver (launcher : Launcher) {f : Fleet} {r : RunResult} (hphase : f.phase = .joining r)
    (hside : f.side ≠ .done) :
    (f.step launcher .windowOver).1.phase = .settled r ∧ opens (f.step launcher .windowOver).2 = false := by
  simp only [step, hphase, hside, if_false, true_and]
  exact opens_dismissWorkers f

theorem InTime.windowOver (h : c.InTime windowMs) (launcher : Launcher) :
    ({ c with deadline := none }.after windowMs (c.fleet.step launcher .windowOver)).InTime windowMs := by
  by_cases hwaits : ∃ r, c.fleet.phase = .joining r ∧ c.fleet.side ≠ .done
  · obtain ⟨r, hphase, hside⟩ := hwaits
    obtain ⟨t, hended, -, hfrom, hto, -⟩ := h.joining r hphase
    obtain ⟨hsettles, hopens⟩ := step_windowOver launcher hphase hside
    refine inTime_settled hsettles ?_ ?_ hfrom hto
    · simp [Clocked.after, hopens, hended]
    · simp [Clocked.after, result?, hphase, hsettles]
  · have hsame : c.fleet.step launcher .windowOver = (c.fleet, []) := by
      simp only [step]
      split
      · rename_i r hphase
        rw [if_pos (not_not.mp fun hside => hwaits ⟨r, hphase, hside⟩)]
      · rfl
    have hafter : ({ c with deadline := none } : Clocked).after windowMs (c.fleet, [])
        = { c with deadline := none } := by
      cases hresult : c.fleet.result? <;> simp [Clocked.after, opens, hresult]
    rw [hsame, hafter]
    refine ⟨h.before, fun r hjoining => ?_, h.settled⟩
    obtain ⟨t, hended, hsettled, hfrom, hto, -⟩ := h.joining r hjoining
    exact ⟨t, hended, hsettled, hfrom, hto, .inr (not_not.mp fun hside => hwaits ⟨r, hjoining, hside⟩)⟩

theorem InTime.pass (h : c.InTime windowMs) {ms : Nat} (hwindow : ∀ t, c.deadline = some t → c.now + ms ≤ t)
    (hjoin : c.fleet.joinDue = false) : InTime windowMs { c with now := c.now + ms } := by
  constructor
  · exact h.before
  · intro r hphase
    obtain ⟨t, hended, hsettled, hfrom, -, hdeadline⟩ := h.joining r hphase
    have hopen : c.deadline = some (t + wholeDelay windowMs) := by
      refine hdeadline.resolve_right fun hdone => ?_
      have hphase : c.fleet.phase = .joining r := hphase
      simp [joinDue, hphase, hdone] at hjoin
    exact ⟨t, hended, hsettled, Nat.le_add_right_of_le hfrom, hwindow _ hopen, hdeadline⟩
  · exact h.settled

theorem Run.inTime {plan : FleetPlan} (hmode : plan.mode = .serverAndWorkers) {files : FileTree}
    (h : Run launcher windowMs { plan, files } hs c) : c.InTime windowMs := by
  induction h with
  | start => exact ⟨fun _ => ⟨rfl, rfl⟩, by simp, by simp⟩
  | @act hs c h a _ ih =>
    refine ih.after ?_
    rw [h.fleet_eq]
    exact turn_run hmode files launcher hs a
  | windowOver _ _ ih => exact ih.windowOver launcher
  | files _ t ih => exact ⟨ih.before, ih.joining, ih.settled⟩
  | pass _ ms hwindow hjoin ih => exact ih.pass hwindow hjoin

/-! ## Two runs -/

/-- A run settles with a result by a time: it has, or it is not too late, and then a step for which no worker
is needed can still settle it in time. -/
inductive SettlesBy (launcher : Launcher) (windowMs : Nat) (start : Fleet) (hs : List Happening) (c : Clocked)
    (r : RunResult) (limit : Nat) : Prop where
  | settled (t : Nat) (hsettled : c.settledAt = some t) (hresult : c.fleet.result? = some r) (htime : t ≤ limit)
  | pending (hnow : c.now ≤ limit) (a : Action) (ha : a = .join ∨ a = .windowOver) (next : Clocked) (t : Nat)
      (hnext : Run launcher windowMs start (hs ++ [.act a]) next) (hsettled : next.settledAt = some t)
      (hresult : next.fleet.result? = some r) (htime : t ≤ limit)

/-- Since when the workers' side is over, in milliseconds after a time. -/
def overSince (c : Clocked) (t : Nat) : Option Nat := if c.fleet.side = .done then some (c.now - t) else none

/-- A run that waits for its workers can go on to its end: it settles when the wait of at most the window is
over, at once if the workers' side is over already. -/
theorem Run.joins (h : Run launcher windowMs start hs c) (htime : c.InTime windowMs) {r : RunResult}
    (hphase : c.fleet.phase = .joining r) :
    ∃ t wait next, c.endedAt = some t ∧ c.now ≤ t + wait.time ∧ wait.time ≤ wholeDelay windowMs
      ∧ wait = Rehearsal.joinWithin (wholeDelay windowMs) (c.overSince t)
      ∧ Run launcher windowMs start (hs ++ [.act (if wait.outcome then .join else .windowOver)]) next
      ∧ next.settledAt = some (t + wait.time) ∧ next.fleet.result? = some r := by
  obtain ⟨t, hended, -, hfrom, hto, hdeadline⟩ := htime.joining r hphase
  by_cases hdone : c.fleet.side = .done
  · have hwithin : c.now - t ≤ wholeDelay windowMs := Nat.sub_le_iff_le_add'.mpr hto
    have hwait : Rehearsal.joinWithin (wholeDelay windowMs) (c.overSince t) = ⟨true, c.now - t⟩ := by
      rw [overSince, if_pos hdone]
      simp only [Rehearsal.joinWithin, Option.filter, hwithin, decide_true, if_true]
    have hjoin : c.fleet.step launcher .join = c.fleet.settle r := by simp only [step, hphase, hdone, if_true]
    have hnow : t + (c.now - t) = c.now := Nat.add_sub_cancel' hfrom
    refine ⟨t, _, _, hended, hnow.ge, hwithin, hwait.symm, h.act .join (by simp), ?_, ?_⟩
    · rw [hjoin, hnow]
      simp [Clocked.after, settle, result?, hphase]
    · rw [hjoin]
      rfl
  · -- the window is still open, so time can pass until it is over
    have hwait : Rehearsal.joinWithin (wholeDelay windowMs) (c.overSince t) = ⟨false, wholeDelay windowMs⟩ := by
      rw [overSince, if_neg hdone]
      rfl
    have hopen : c.deadline = some (t + wholeDelay windowMs) := hdeadline.resolve_right hdone
    have hlimit : c.now + (t + wholeDelay windowMs - c.now) = t + wholeDelay windowMs := Nat.add_sub_cancel' hto
    have hpassed := h.pass (t + wholeDelay windowMs - c.now) (by simp [hopen, hlimit])
      (by simp [joinDue, hphase, hdone])
    obtain ⟨hsettles, -⟩ := step_windowOver launcher hphase hdone
    refine ⟨t, _, _, hended, hto, Nat.le_refl _, hwait.symm, hpassed.windowOver (by simp [hopen]), ?_, ?_⟩
    · simp [Clocked.after, result?, hphase, hsettles, hlimit]
    · exact result?_eq_some.mpr hsettles

/-- A run whose server has ended settles before the window is over. -/
theorem Run.settlesBy (h : Run launcher windowMs start hs c) (htime : c.InTime windowMs) {r : RunResult}
    (houtcome : c.fleet.outcome? = some r) (hside : c.fleet.side ≠ .idle) :
    ∃ t, c.endedAt = some t ∧ SettlesBy launcher windowMs start hs c r (t + wholeDelay windowMs) := by
  rcases outcome?_eq_some.mp houtcome with hphase | hphase
  · obtain ⟨t, wait, next, hended, hnow, hwithin, -, hnext, hsettled, hresult⟩ := h.joins htime hphase
    have hlimit : t + wait.time ≤ t + wholeDelay windowMs := Nat.add_le_add_left hwithin t
    refine ⟨t, hended, .pending (hnow.trans hlimit) _ ?_ next _ hnext hsettled hresult hlimit⟩
    cases wait.outcome with
    | true => exact .inl rfl
    | false => exact .inr rfl
  · rcases htime.settled r hphase with ⟨-, hidle⟩ | ⟨t, t', hended, hsettled, -, hto⟩
    · exact absurd hidle hside
    · exact ⟨t, hended, .settled t' hsettled (result?_eq_some.mpr hphase) hto⟩

/-- It never shows that the server is ready, and the server ends. -/
def neverReady : List Happening :=
  List.replicate 6 (.act (.file none)) ++ [.act (.exited .server 0), .act .conclude]

/-- The workers have no influence on a run with server and workers. Whatever a run has come to, every other run
comes to as well in which the same happens to the server, and the launcher answers its start in the same way:
the exit code of the server, its failure, or the failure that kept it from starting. With its workers the plan
may have other arguments, and another policy to wait for the server. And once the workers' side has begun, that
run settles at most the window after the server's part has ended, with that result; a window of no time is one of a
millisecond, as is one that is too long for a timer. -/
theorem Run.workers_cannot_interfere {plan plan' : FleetPlan} (hmode : plan.mode = .serverAndWorkers)
    (hplan : plan'.ofServer = plan.ofServer) {answers : FileTree → CommandLine → Except Failure Unit}
    {launcher' : Launcher} (hstarts : StartsServer launcher answers) (hstarts' : StartsServer launcher' answers)
    {files : FileTree} {hs' : List Happening} {c' : Clocked}
    (h : Run launcher windowMs { plan, files } hs c) (h' : Run launcher' windowMs { plan := plan', files } hs' c')
    (hservers : hs.filter (·.isServers) <+: hs'.filter (·.isServers)) {r : RunResult}
    (houtcome : c.fleet.outcome? = some r) :
    c'.fleet.outcome? = some r ∧ c'.fleet.IsServers r
      ∧ (c'.fleet.side ≠ .idle → ∃ t, c'.endedAt = some t
        ∧ SettlesBy launcher' windowMs { plan := plan', files } hs' c' r (t + wholeDelay windowMs)) := by
  have hmode' : plan'.mode = .serverAndWorkers := (congrArg FleetPlan.mode hplan).trans hmode
  have hsame : c'.fleet.outcome? = some r := by
    -- to the server, both are runs of one plan under one launcher, and one of them goes on from the other
    obtain ⟨more, hmore⟩ := hservers
    have hpart : plan.ofServer.mode = .serverAndWorkers := hmode
    have hbefore :
        (Fleet.run launcher { plan := plan.ofServer, files } (hs.filter (·.isServers))).outcome? = some r := by
      rw [← outcome?_ofServer, ← ofServer_run hmode files hstarts hstarts hs, outcome?_ofServer, ← h.fleet_eq]
      exact houtcome
    rw [h'.fleet_eq, ← outcome?_ofServer, ofServer_run hmode' files hstarts' hstarts hs', outcome?_ofServer, hplan,
      ← hmore, run_append]
    exact ((isPair_start hpart files).run launcher _).outcome_run hbefore launcher more
  have hserved : c'.fleet.Served := by
    rw [h'.fleet_eq]
    exact (served_of_no_server rfl (by simp [outcome?])).run (isPair_start hmode' files) launcher' hs'
  exact ⟨hsame, hserved.outcome r hsame, h'.settlesBy (h'.inTime hmode') hsame⟩

/-- A worker that cannot be started, and workers that are never started. -/
theorem workers_cannot_interfere_by_silence :
    ∃ c c', Run (allBut 2) 50 { plan := twoWorkers, files := {} } secondMissing c
      ∧ Run (allBut 0) 50 { plan := twoWorkers, files := {} } neverReady c'
      ∧ c.fleet.outcome? = some (.ok (some 0)) ∧ c'.fleet.outcome? = some (.ok (some 0))
      ∧ ∃ t, c'.endedAt = some t
        ∧ SettlesBy (allBut 0) 50 { plan := twoWorkers, files := {} } neverReady c' (.ok (some 0)) (t + 50) := by
  have hfirst : ∃ c, Run (allBut 2) 50 { plan := twoWorkers, files := {} } secondMissing c :=
    Run.start.acts (.replicate 6 (.file none) ++ [.ready (.ok true), .exited .server 0, .conclude]) (by simp)
  have hsecond : ∃ c, Run (allBut 0) 50 { plan := twoWorkers, files := {} } neverReady c :=
    Run.start.acts (.replicate 6 (.file none) ++ [.exited .server 0, .conclude]) (by simp)
  obtain ⟨c, h⟩ := hfirst
  obtain ⟨c', h'⟩ := hsecond
  have houtcome : c.fleet.outcome? = some (.ok (some 0)) := by
    rw [h.fleet_eq, secondMissing, run_append, run_twoServing]
    rfl
  have hside : c'.fleet.side ≠ .idle := by
    rw [h'.fleet_eq, neverReady, run_append, run_twoServing]
    decide
  have hstarts : ∀ number, StartsServer (allBut number) fun _ _ => .ok () := fun _ _ _ _ => rfl
  obtain ⟨hsame, -, hsettles⟩ :=
    Run.workers_cannot_interfere rfl rfl (hstarts 2) (hstarts 0) h h' (List.prefix_refl _) houtcome
  exact ⟨c, c', h, h', houtcome, hsame, hsettles hside⟩

end Clocked

end Bailiff
