-- SUMMARY: Whether the first of end, timer and stop decides a judge run.
import Bailiff.Proofs.Judge.Timeout

/-!
# First events

The end of the process, its timer and the stop of the batch may come in any order, and the first of them
should decide what the run gives. It does, with three exceptions: a regular exit with code 0 counts as
completed whatever came before it, a timer counts even when the stop came before it, and a signal without a
known number is reported as a regular exit with code 0 (`JudgeRun.first_event_decides_iff`).
-/

namespace Bailiff

/-! ## Codes -/

/-- The number of a signal is that of its name, if the name is known, and never above 64. -/
def Signal.HasNumber (name : String) (n : Nat) : Prop :=
  1 ≤ n ∧ n ≤ 64 ∧ ∀ k, number? name = some k → n = k

theorem Signal.number?_bounds {name : String} {k : Nat} (h : number? name = some k) :
    1 ≤ k ∧ k ≤ 64 := by
  have hall : ∀ s ∈ numbers, 1 ≤ s.2 ∧ s.2 ≤ 64 := by decide
  obtain ⟨s, hs, rfl⟩ := Option.map_eq_some_iff.mp h
  exact hall s (List.mem_of_find?_eq_some hs)

namespace Ending

/-- The code that a process leaves: its exit code, or minus the number of the signal that ended it. -/
def Carries : Ending → Int → Prop
  | exited code, c => c = code
  | signalled name, c => ∃ n : Nat, Signal.HasNumber name n ∧ c = -n
  | notStarted _, _ => False

/-- Whether the code of the process is known. -/
def hasCode : Ending → Bool
  | signalled name => (Signal.number? name).isSome
  | _ => true

variable {ending : Ending}

/-- What has a known code is reported as it is. -/
theorem reported_of_hasCode (h : ending.hasCode = true) : ending.reported = ending := by
  cases ending with
  | exited | notStarted => rfl
  | signalled name => exact if_pos h

theorem reported_of_not_hasCode (h : ending.hasCode = false) : ending.reported = .exited 0 := by
  cases ending with
  | exited | notStarted => cases h
  | signalled name => exact if_neg (Bool.eq_false_iff.mp h)

/-- An exit with code 0 is reported just of such an exit and of an end without a known code. -/
theorem reported_ne_zero_iff : ending.reported ≠ .exited 0 ↔ ending.hasCode = true ∧ ending ≠ .exited 0 := by
  cases hcode : ending.hasCode with
  | false => simp [reported_of_not_hasCode hcode]
  | true => simp [reported_of_hasCode hcode]

end Ending

/-- The code of a signal is not 0. -/
theorem Signal.HasNumber.ofInt_ne_zero {name : String} {n : Nat} (h : HasNumber name n) :
    Binary64.ofInt (-n) ≠ 0 := by
  have hall : ∀ n : Fin 65, 1 ≤ n.val → Binary64.ofInt (-n.val) ≠ 0 := by decide +kernel
  exact hall ⟨n, Nat.lt_succ_of_le h.2.1⟩ h.1

namespace JudgeRun

/-! ## Runs -/

/-- What may come before the end of the process. -/
inductive Interruption where
  | timer
  | stop
  deriving DecidableEq, Repr

def Interruption.event : Interruption → Event
  | timer => .timer
  | stop => .stop

/-- A run in which some interruptions come before the end of the process, and anything after it. -/
def through (command : CommandLine) (before : List Interruption) (ending : Ending)
    (stdout stderr : Output) (after : List Event) : JudgeRun :=
  (before.map Interruption.event ++ .ended ending stdout stderr :: after).foldl step { command }

/-- What the first event of a run asks for: its own outcome if it is the end, to be killed if it is the
timer, and to be stopped if it is the stop. -/
def FirstDecides (ending : Ending) (stdout stderr : Output) (result : Except Failure Outcome) :
    List Interruption → Prop
  | [] => ∃ code, ending.Carries code ∧ result = .ok (.completed stdout stderr (.ofInt code))
  | .timer :: _ => result = .ok .killed
  | .stop :: _ => result = .error Judge.stoppedWhileRunning

variable {r : JudgeRun} {command : CommandLine} {before : List Interruption} {ending : Ending}
  {stdout stderr : Output} {after : List Event}

/-- After the end nothing changes any more. -/
theorem foldl_of_result (h : r.result.isSome = true) (events : List Event) :
    events.foldl step r = r := by
  induction events with
  | nil => rfl
  | cons e rest ih =>
    have hstep : r.step e = r := by simp [step, h]
    rw [List.foldl_cons, hstep]
    exact ih

theorem foldl_interruptions (h : r.result = none) (before : List Interruption) :
    (before.map Interruption.event).foldl step r
      = { r with
          timedOut := r.timedOut || before.contains .timer
          stopped := r.stopped || before.contains .stop } := by
  induction before generalizing r with
  | nil => simp
  | cons i rest ih =>
    cases i with
    | timer =>
      have hstep : r.step .timer = { r with timedOut := true } := by simp [step, h]
      rw [List.map_cons, List.foldl_cons, Interruption.event, hstep]
      refine (ih ?_).trans ?_
      · exact h
      · simp
    | stop =>
      have hstep : r.step .stop = { r with stopped := true } := by simp [step, h]
      rw [List.map_cons, List.foldl_cons, Interruption.event, hstep]
      refine (ih ?_).trans ?_
      · exact h
      · simp

/-- A run gives what its process asks for under the interruptions that came before its end. -/
theorem result_through (command : CommandLine) (before : List Interruption) (ending : Ending)
    (stdout stderr : Output) (after : List Event) :
    (through command before ending stdout stderr after).result
      = some (outcome { command, timedOut := before.contains .timer, stopped := before.contains .stop }
          stdout stderr ending) := by
  unfold through
  rw [List.foldl_append, foldl_interruptions rfl, List.foldl_cons, foldl_of_result]
  · simp [step, outcome]
  · simp [step]

/-! ## Outcomes -/

theorem outcome_zero (h : ending.reported = .exited 0) :
    r.outcome stdout stderr ending = .ok (.completed stdout stderr 0) := by
  rw [outcome, h]
  rfl

theorem outcome_of_timedOut (h : r.timedOut = true) (hending : ending.reported ≠ .exited 0) :
    r.outcome stdout stderr ending = .ok .killed := by
  unfold outcome
  split
  next hzero => exact absurd hzero hending
  · rw [if_pos h]

theorem outcome_of_stopped (htimer : r.timedOut = false) (h : r.stopped = true)
    (hending : ending.reported ≠ .exited 0) :
    r.outcome stdout stderr ending = .error Judge.stoppedWhileRunning := by
  unfold outcome
  split
  next hzero => exact absurd hzero hending
  · simp [htimer, h]

theorem outcome_exited (htimer : r.timedOut = false) (hstop : r.stopped = false) (code : Int) :
    r.outcome stdout stderr (.exited code) = .ok (.completed stdout stderr (.ofInt code)) := by
  by_cases hcode : code = 0
  · subst hcode
    rfl
  · simp [outcome, Ending.reported, htimer, hstop, hcode]

theorem outcome_signalled (htimer : r.timedOut = false) (hstop : r.stopped = false) {name : String} {k : Nat}
    (hk : Signal.number? name = some k) :
    r.outcome stdout stderr (.signalled name) = .ok (.completed stdout stderr (.ofInt (-k))) := by
  simp [outcome, Ending.reported, htimer, hstop, hk]

/-! ## First events -/

/-- The code 0 is that of no signal. -/
theorem not_carried_zero {name : String} :
    ¬FirstDecides (.signalled name) stdout stderr (.ok (.completed stdout stderr 0)) [] := by
  rintro ⟨code, ⟨n, hn, rfl⟩, hcode⟩
  injection hcode with hcode
  injection hcode with _ _ hcode
  exact absurd hcode.symm hn.ofInt_ne_zero

/-- A process that ends first gives its own outcome, unless a signal of no known number ended it. -/
theorem firstDecides_end (hown : ending.isOwn = true) :
    FirstDecides ending stdout stderr (outcome { command } stdout stderr ending) []
      ↔ ending.hasCode = true := by
  cases ending with
  | exited code =>
    rw [outcome_exited rfl rfl]
    exact iff_of_true ⟨code, rfl, rfl⟩ rfl
  | signalled name =>
    cases hnumber : Signal.number? name with
    | some k =>
      obtain ⟨hlow, hhigh⟩ := Signal.number?_bounds hnumber
      rw [outcome_signalled rfl rfl hnumber]
      refine iff_of_true ⟨-k, ⟨k, ⟨hlow, hhigh, fun j hj => ?_⟩, rfl⟩, rfl⟩ (by simp [Ending.hasCode, hnumber])
      exact Option.some.inj (hnumber.symm.trans hj)
    | none =>
      have hcode : (Ending.signalled name).hasCode = false := by simp [Ending.hasCode, hnumber]
      rw [outcome_zero (Ending.reported_of_not_hasCode hcode), hcode]
      exact iff_of_false not_carried_zero Bool.false_ne_true
  | notStarted fault => cases hown

/-- A timer that comes first is overruled just by what is reported as a regular exit with code 0. -/
theorem firstDecides_timer (h : r.timedOut = true) (rest : List Interruption) :
    FirstDecides ending stdout stderr (r.outcome stdout stderr ending) (.timer :: rest)
      ↔ ending.hasCode = true ∧ ending ≠ .exited 0 := by
  rw [← Ending.reported_ne_zero_iff]
  constructor
  · intro hkilled hzero
    rw [FirstDecides, outcome_zero hzero] at hkilled
    cases hkilled
  · exact outcome_of_timedOut h

/-- A stop that comes first is overruled by what is reported as a regular exit with code 0, and by a timer that
comes before the end. -/
theorem firstDecides_stop (h : r.stopped = true) (rest : List Interruption) :
    FirstDecides ending stdout stderr (r.outcome stdout stderr ending) (.stop :: rest)
      ↔ (ending.hasCode = true ∧ ending ≠ .exited 0) ∧ r.timedOut = false := by
  rw [← Ending.reported_ne_zero_iff]
  constructor
  · intro hstopped
    have hending : ending.reported ≠ .exited 0 := by
      intro hzero
      rw [FirstDecides, outcome_zero hzero] at hstopped
      cases hstopped
    refine ⟨hending, ?_⟩
    cases htimer : r.timedOut with
    | false => rfl
    | true =>
      rw [FirstDecides, outcome_of_timedOut htimer hending] at hstopped
      cases hstopped
  · rintro ⟨hending, htimer⟩
    exact outcome_of_stopped htimer h hending

/-- The first of end, timer and stop decides a run, whatever comes after it, except in three cases: the
process exits with code 0 although it was interrupted, the timer comes between the stop and the end, or
the process is ended by a signal without a known number. Such a signal passes for an exit with code 0, and
with that the run is completed with code 0, whatever came before; in the other case it is killed. -/
theorem first_event_decides_iff (hown : ending.isOwn = true) :
    ∃ result, (through command before ending stdout stderr after).result = some result
      ∧ (FirstDecides ending stdout stderr result before
          ↔ ending.hasCode = true
            ∧ (before ≠ [] → ending ≠ .exited 0)
            ∧ (before.head? = some .stop → .timer ∉ before))
      ∧ (ending = .exited 0 ∨ ending.hasCode = false → result = .ok (.completed stdout stderr 0))
      ∧ (.timer ∈ before → ending ≠ .exited 0 → ending.hasCode = true → result = .ok .killed) := by
  refine ⟨_, result_through .., ?_, ?_, ?_⟩
  · cases before with
    | nil => simpa using firstDecides_end hown
    | cons i rest =>
      cases i with
      | timer =>
        refine (firstDecides_timer ?_ rest).trans ?_
        · simp
        · simp
      | stop =>
        refine (firstDecides_stop ?_ rest).trans ?_
        · simp
        · simp [and_assoc]
  · rintro (rfl | hcode)
    · exact outcome_zero rfl
    · exact outcome_zero (Ending.reported_of_not_hasCode hcode)
  · intro htimer hending hcode
    exact outcome_of_timedOut (List.contains_iff_mem.mpr htimer) (Ending.reported_ne_zero_iff.mpr ⟨hcode, hending⟩)

/-- A judge that its timer kills stays killed when the batch is stopped meanwhile. -/
theorem first_event_decides_timer :
    (Ending.signalled "SIGKILL").isOwn = true
      ∧ (through ⟨"judge", []⟩ [.timer, .stop] (.signalled "SIGKILL") (.text "") (.text "") []).result
        = some (.ok .killed) := by
  obtain ⟨result, hresult, -, -, hkilled⟩ := @first_event_decides_iff ⟨"judge", []⟩ [.timer, .stop]
    (.signalled "SIGKILL") (.text "") (.text "") [] rfl
  exact ⟨rfl, by rw [hresult, hkilled (by decide) (by decide) (by decide)]⟩

/-- Each of the three exceptions happens: a process that is interrupted and still exits with code 0, a
timer between the stop and the end, and a signal without a known number, after which the timer does not
count either. -/
theorem first_event_overruled :
    (¬∃ result, (through ⟨"judge", []⟩ [.timer] (.exited 0) (.text "") (.text "") []).result = some result
        ∧ FirstDecides (.exited 0) (.text "") (.text "") result [.timer])
      ∧ (¬∃ result,
          (through ⟨"judge", []⟩ [.stop, .timer] (.signalled "SIGKILL") (.text "") (.text "") []).result
              = some result
            ∧ FirstDecides (.signalled "SIGKILL") (.text "") (.text "") result [.stop, .timer])
      ∧ (through ⟨"judge", []⟩ [] (.signalled "SIGRTMIN") (.text "done") (.text "") []).result
          = some (.ok (.completed (.text "done") (.text "") 0))
      ∧ ¬FirstDecides (.signalled "SIGRTMIN") (.text "done") (.text "")
          (.ok (.completed (.text "done") (.text "") 0)) []
      ∧ (through ⟨"judge", []⟩ [.timer] (.signalled "SIGRTMIN") (.text "done") (.text "") []).result
          = some (.ok (.completed (.text "done") (.text "") 0)) := by
  refine ⟨?_, ?_, rfl, not_carried_zero, rfl⟩
  · rintro ⟨result, hresult, hkilled⟩
    rw [hkilled] at hresult
    cases hresult
  · rintro ⟨result, hresult, hstopped⟩
    rw [hstopped] at hresult
    cases hresult

end JudgeRun

end Bailiff
