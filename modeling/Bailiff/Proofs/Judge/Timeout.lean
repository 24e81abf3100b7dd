-- SUMMARY: For which time limits a judge that ends in time is never killed.
import Bailiff.Proofs.Batch.Plan
import Bailiff.Proofs.Judge.Timers
import Bailiff.Proofs.Results.Store

/-!
# Time limits

A time limit of `S` seconds becomes a timer of `S * 1000` milliseconds. A judge that ends by itself within
`S` seconds is killed all the same when that timer comes too early, and it does when the product leaves the
range of timers or is rounded down (`JudgeRun.timeout_honoured_iff`).
-/

namespace Bailiff

open Binary64 (value)

/-! ## Courses -/

/-- Whether a process came to its end at all: it had started. -/
def Ending.isOwn : Ending → Bool
  | notStarted _ => false
  | _ => true

theorem Ending.isOwn_reported (ending : Ending) : ending.reported.isOwn = ending.isOwn := by
  cases ending with
  | exited | notStarted => rfl
  | signalled name =>
    unfold reported
    dsimp only
    split <;> rfl

namespace JudgeRun

/-- What can happen during a judge run that nobody stops, when the process ends by itself after `t`
milliseconds: it does so before the timer, or the timer comes before and the process ends after it,
killed as a rule. -/
inductive Course (timeoutMs : Binary64) (t : ℚ) (own : Event) : List Event → Prop where
  | punctual (h : t ≤ (Judge.timerDelay timeoutMs).value) : Course timeoutMs t own [own]
  | late {ending : Ending} {stdout stderr : Output}
      (h : (Judge.timerDelay timeoutMs).value ≤ t) :
      Course timeoutMs t own [.timer, .ended ending stdout stderr]

/-- A limit of some seconds is honoured: a judge that ends by itself before them is never killed, its
run is completed. -/
def Honours (seconds : Binary64) : Prop :=
  ∀ (command : CommandLine) (t : ℚ) (ending : Ending) (stdout stderr : Output) (events : List Event),
    0 ≤ t → t < 1000 * seconds.value → ending.isOwn = true →
    Course (seconds * 1000) t (.ended ending stdout stderr) events →
      ∃ code, (events.foldl step { command }).result = some (.ok (.completed stdout stderr code))

/-- The judges of a file tree take such courses: a lasting one ends after half a minute, and any other
one at once. -/
theorem runScript_course {files : FileTree} {base : Location} {i : Invocation} {script : Script}
    (environment : Value) (h : files.program? base i.command.file = .ok script) :
    ∃ stdout stderr events,
      Course i.timeoutMs (if script.lasting then 30000 else 2) (.ended script.ending stdout stderr)
          events
        ∧ (Judge.runScript files base environment i false).2
          = (events.foldl step { command := i.command }).result.getD
              (.error Judge.stoppedWhileRunning) := by
  have hlasting : (Judge.timerDelay i.timeoutMs).less
        (if script.lasting then Judge.lastingMs else Judge.startupMs) = true
      ↔ (Judge.timerDelay i.timeoutMs).value < if script.lasting then 30000 else 2 := by
    split
    · exact Judge.timerDelay_less_iff (n := 30000) (by norm_num) (by norm_num) i.timeoutMs
    · exact Judge.timerDelay_less_iff (n := 2) (by norm_num) (by norm_num) i.timeoutMs
  simp only [Judge.runScript, h, Bool.and_false, Bool.false_eq_true, if_false]
  by_cases hearly : (Judge.timerDelay i.timeoutMs).less
      (if script.lasting then Judge.lastingMs else Judge.startupMs) = true
  · rw [if_pos hearly]
    exact ⟨.text "", .text "", _, .late (hlasting.mp hearly).le, rfl⟩
  · rw [if_neg hearly]
    exact ⟨_, _, _, .punctual (not_lt.mp (mt hlasting.mpr hearly)), rfl⟩

theorem result_ended (command : CommandLine) {ending : Ending} (hown : ending.isOwn = true)
    (stdout stderr : Output) :
    ∃ code, ([Event.ended ending stdout stderr].foldl step { command }).result
      = some (.ok (.completed stdout stderr code)) := by
  rw [← ending.isOwn_reported] at hown
  simp only [List.foldl_cons, List.foldl_nil, step, outcome]
  generalize ending.reported = reported at hown
  cases reported with
  | exited code =>
    by_cases hcode : code = 0
    · subst hcode
      exact ⟨0, rfl⟩
    · refine ⟨.ofInt code, ?_⟩
      simp [hcode]
  | signalled name => exact ⟨_, rfl⟩
  | notStarted fault => cases hown

/-- A limit is honoured just when its timer does not come before it. -/
theorem honours_iff (seconds : Binary64) :
    Honours seconds ↔ 1000 * seconds.value ≤ (Judge.timerDelay (seconds * 1000)).value := by
  constructor
  · intro h
    by_contra hearly
    -- a judge that would end just when the timer fires is killed
    obtain ⟨code, hcode⟩ := h ⟨"", []⟩ _ (.exited 0) (.text "") (.text "") _
      (zero_le_one.trans (Judge.one_le_timerDelay _)) (not_le.mp hearly) rfl
      (Course.late le_rfl : Course _ _ _ [.timer, .ended (.signalled "SIGKILL") (.text "") (.text "")])
    cases hcode
  · intro hdelay command t ending stdout stderr events _ ht hown hcourse
    cases hcourse with
    | punctual => exact result_ended command hown stdout stderr
    | late hlate => exact absurd ht (not_lt.mpr (hdelay.trans hlate))

/-- A limit is honoured just when it is at most a millisecond, or the product is within the range of
timers and not rounded down. -/
theorem honours_iff_product (seconds : Binary64) :
    Honours seconds ↔ 1000 * seconds.value ≤ 1
      ∨ (Binary64.ofNat Judge.maxDelay).less (seconds * 1000) = false
        ∧ 1000 * seconds.value ≤ (seconds * 1000).value := by
  have hleast := Judge.one_le_timerDelay (seconds * 1000)
  rw [honours_iff]
  generalize seconds * 1000 = product at hleast ⊢
  constructor
  · intro h
    unfold Judge.timerDelay at h
    split at h
    · rw [Judge.value_one] at h
      exact .inl h
    next hrange =>
      simp only [Bool.or_eq_true, not_or, Bool.not_eq_true] at hrange
      exact .inr ⟨hrange.2, h⟩
  · rintro (hsmall | ⟨hrange, hproduct⟩)
    · exact hsmall.trans hleast
    · unfold Judge.timerDelay at hleast ⊢
      split
      next hout =>
        -- the product is below a millisecond, and the limit with it
        rw [hrange, Bool.or_false, Bool.or_eq_true] at hout
        rw [Judge.value_one]
        exact hproduct.trans (Judge.value_le_one hout)
      · exact hproduct

/-! ## Seconds -/

variable {text label : String} {seconds : Binary64}

theorem positive_of_parse (h : parsePositiveNumber text label = .ok seconds) :
    ∃ m q, seconds = .finite false m q ∧ 0 < seconds.value := by
  unfold parsePositiveNumber at h
  dsimp only at h
  split at h
  next hvalid =>
    cases h
    generalize Binary64.ofText text = x at hvalid
    rw [Bool.and_eq_true, Bool.not_eq_true'] at hvalid
    obtain ⟨hfinite, hpositive⟩ := hvalid
    cases x with
    | nan | infinite => cases hfinite
    | finite s m q =>
      have hzero : (0 : Binary64) = .finite false 0 Binary64.minExponent := rfl
      have hpos : 0 < (Binary64.finite s m q).value := by
        rw [hzero, Bool.eq_false_iff, ne_eq, Binary64.atMost_iff, not_le] at hpositive
        simpa [value, Binary64.signed] using hpositive
      cases s with
      | false => exact ⟨m, q, rfl, hpos⟩
      | true =>
        have hnonpos : (Binary64.finite true m q).value ≤ 0 := by
          simp only [value, Binary64.signed, if_true, Int.cast_neg, Int.cast_natCast, neg_mul]
          exact neg_nonpos.mpr (by positivity)
        exact absurd hpos (not_lt.mpr hnonpos)
  · cases h

/-- A product beyond the range of timers comes from more than a millisecond. -/
theorem one_lt_of_overflow {m : Nat} {q : Int} (hpos : 0 < (Binary64.finite false m q).value)
    (h : (Binary64.ofNat Judge.maxDelay).less (.finite false m q * 1000) = true) :
    1 < 1000 * (Binary64.finite false m q).value := by
  by_contra hle
  rw [not_lt, mul_comm] at hle
  obtain ⟨m', q', hmul, hvalue⟩ := Binary64.mul_ofNat_of_le (n := 1000) (by norm_num) (by norm_num)
    hpos (by exact_mod_cast hle)
  change Binary64.finite false m q * 1000 = _ at hmul
  rw [hmul, Binary64.ofNat_less_iff (by norm_num [Judge.maxDelay]) (by norm_num [Judge.maxDelay])] at h
  norm_num [Judge.maxDelay] at h
  linarith

/-- Whole milliseconds within the range of timers are the delay that is had. -/
theorem value_timerDelay_of_whole {m : Nat} {q : Int} {k : Nat}
    (hpos : 0 < (Binary64.finite false m q).value) (hk : k ≤ Judge.maxDelay)
    (h : 1000 * (Binary64.finite false m q).value = k) :
    (Judge.timerDelay (.finite false m q * 1000)).value = k := by
  have hk' : k < 2 ^ 53 := hk.trans_lt (by norm_num [Judge.maxDelay])
  have hk0 : 0 < k := by
    have : (0 : ℚ) < k := by rw [← h]; positivity
    exact_mod_cast this
  obtain ⟨m', q', hmul, hvalue⟩ := Binary64.mul_ofNat_of_natural (n := 1000) (by norm_num)
    (by norm_num) hk0 hk' (by rw [mul_comm]; exact_mod_cast h)
  change Binary64.finite false m q * 1000 = _ at hmul
  rw [hmul, Judge.timerDelay_of_range, hvalue]
  · rw [hvalue]
    exact_mod_cast hk0
  · rw [hvalue]
    exact_mod_cast hk

/-- What is recorded for a completed run is not killed. -/
theorem not_killed_of_completed (s : Store) (b : Batch) (duration code : Binary64)
    (stdout stderr : Output) :
    ∀ r ∈ (b.reply s duration (.ok (.completed stdout stderr code))).1.db.results,
      r ∈ s.db.results ∨ r.killed = false := by
  intro r hr
  unfold Batch.reply at hr
  split at hr
  · dsimp only at hr
    split at hr
    · exact .inl hr
    next s' hrecord =>
      obtain ⟨db, hinsert, rfl⟩ := Store.insert_eq_ok hrecord
      rcases Database.mem_results_insert hinsert hr with hold | ⟨id, rfl⟩
      · exact .inl hold
      · exact .inr rfl
  · exact .inl hr

/-- A time limit that the command line takes is honoured just when it is at most a millisecond, or its
product is within the range of timers and not rounded down. So no limit is honoured whose milliseconds
leave the range, and all whole milliseconds within it are. Every judge run of the batch command has the
timer of its limit, and what is recorded for a completed run is not killed. -/
theorem timeout_honoured_iff (h : parsePositiveNumber text label = .ok seconds) :
    (Honours seconds ↔ 1000 * seconds.value ≤ 1
        ∨ (Binary64.ofNat Judge.maxDelay).less (seconds * 1000) = false
          ∧ 1000 * seconds.value ≤ (seconds * 1000).value)
      ∧ ((Binary64.ofNat Judge.maxDelay).less (seconds * 1000) = true → ¬Honours seconds)
      ∧ (∀ k : ℕ, k ≤ Judge.maxDelay → 1000 * seconds.value = k → Honours seconds)
      ∧ (∀ host base input judgeDir s, input.timeout = seconds →
          ∀ i ∈ (BatchCommand.runBatch host base input judgeDir s).1.invocations,
            i ∈ s.invocations ∨ i.timeoutMs = seconds * 1000)
      ∧ (∀ (s : Store) (b : Batch) duration stdout stderr code,
          ∀ r ∈ (b.reply s duration (.ok (.completed stdout stderr code))).1.db.results,
            r ∈ s.db.results ∨ r.killed = false) := by
  obtain ⟨m, q, rfl, hpos⟩ := positive_of_parse h
  refine ⟨honours_iff_product _, ?_, ?_, ?_, ?_⟩
  · intro hoverflow hhonours
    rcases (honours_iff_product _).mp hhonours with hsmall | ⟨hrange, -⟩
    · exact absurd hsmall (not_le.mpr (one_lt_of_overflow hpos hoverflow))
    · rw [hrange] at hoverflow
      cases hoverflow
  · intro k hk hwhole
    rw [honours_iff, value_timerDelay_of_whole hpos hk hwhole, hwhole]
  · intro host base input judgeDir s hinput i hi
    rw [← hinput]
    exact BatchCommand.runBatch_timeoutMs host base input judgeDir s i hi
  · intro s b duration stdout stderr code
    exact not_killed_of_completed s b duration code stdout stderr

/-- A number that is read is that of its text. -/
theorem parse_of_toOption (h : (parsePositiveNumber text label).toOption = some seconds) :
    parsePositiveNumber text label = .ok seconds := by
  cases hparse : parsePositiveNumber text label with
  | error f => rw [hparse] at h; cases h
  | ok x => rw [hparse] at h; cases h; rfl

/-- Three minutes are honoured. -/
theorem timeout_honoured_three_minutes :
    ∃ seconds, parsePositiveNumber "180" "--timeout" = .ok seconds ∧ Honours seconds := by
  have h : parsePositiveNumber "180" "--timeout" = .ok (.ofNat 180) :=
    parse_of_toOption (by decide +kernel)
  refine ⟨_, h, (timeout_honoured_iff h).2.2.1 180000 (by decide) ?_⟩
  rw [Binary64.value_ofNat (by norm_num) (by norm_num)]
  norm_num

/-- Some twenty-five days are accepted and not honoured: the timer comes after one millisecond, and a
judge that would end with success after half a minute is killed. -/
theorem timeout_not_honoured :
    ∃ seconds, parsePositiveNumber "2147484" "--timeout" = .ok seconds ∧ 30000 < 1000 * seconds.value
      ∧ Course (seconds * 1000) 30000 (.ended (.exited 0) (.text "") (.text ""))
          [.timer, .ended (.signalled "SIGKILL") (.text "") (.text "")]
      ∧ (∀ command : CommandLine,
          ([Event.timer, .ended (.signalled "SIGKILL") (.text "") (.text "")].foldl step
            { command }).result = some (.ok .killed))
      ∧ ¬Honours seconds := by
  have h : parsePositiveNumber "2147484" "--timeout" = .ok (.ofNat 2147484) :=
    parse_of_toOption (by decide +kernel)
  have hdelay : Judge.timerDelay (.ofNat 2147484 * 1000) = 1 := by decide +kernel
  have hvalue : (Binary64.ofNat 2147484).value = 2147484 := by
    rw [Binary64.value_ofNat (by norm_num) (by norm_num)]
    norm_num
  refine ⟨_, h, ?_, .late ?_, fun _ => rfl, ?_⟩
  · rw [hvalue]
    norm_num
  · rw [hdelay, Judge.value_one]
    norm_num
  · rw [honours_iff, hdelay, Judge.value_one, hvalue]
    norm_num

end JudgeRun

end Bailiff
