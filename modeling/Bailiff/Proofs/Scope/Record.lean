-- SUMMARY: Every run of a cleanup scope: one cleanup, at most one exit, the result of the work, and no listener left.
import Bailiff.Scope

/-!
# Runs of a scope

A run of a scope is a list of moments: what happens to the scope and what the scope does. Its record is what
somebody outside can tell from the moments alone, without the state of the scope: who listens, which signals
were heard, how often the cleanup was begun. The state determines all of the record but the signals that came
after the first (`Scope.Run.record_eq`). From that, and from the order in which a run can go on
(`Scope.Run.allowsAll`), follows what a scope promises (`Scope.Run.keeps_promises`).
-/

namespace Bailiff

namespace Scope

variable {α : Type}

/-! ## Moments -/

/-- What is seen of a scope. -/
inductive Moment (α : Type) where
  /-- A signal is sent under one name and says that it is another, or the same. -/
  | signal (heard named : String)
  | workEnds (result : Except Failure α)
  | cleanupEnds (failure : Option Failure)
  | does (e : Effect)
  | settles (result : Except Failure α)

/-- The moments in which effects are carried out. -/
def doing (effects : List Effect) : List (Moment α) := effects.map .does

/-- What can happen to a scope, at any time and in any order: signals come, the work ends once, the cleanup
ends after it has begun, and the exit and the settling come when they are due. -/
inductive Run (codes : List (String × Int)) : List (Moment α) → Scope α → Prop where
  | enter : Run codes (doing (enter ({ codes } : Scope α)).2) (enter { codes }).1
  | signal {t : List (Moment α)} {s : Scope α} (h : Run codes t s) (heard named : String) :
      Run codes (t ++ .signal heard named :: doing (s.signal heard named).2) (s.signal heard named).1
  | workEnds {t : List (Moment α)} {s : Scope α} (h : Run codes t s) (hwork : s.work = none)
      (result : Except Failure α) :
      Run codes (t ++ .workEnds result :: doing (s.workEnds result).2) (s.workEnds result).1
  | cleanupEnds {t : List (Moment α)} {s : Scope α} (h : Run codes t s) (hrunning : s.cleanup = .running)
      (failure : Option Failure) :
      Run codes (t ++ .cleanupEnds failure :: doing (s.cleanupEnds failure).2) (s.cleanupEnds failure).1
  | exit {t : List (Moment α)} {s : Scope α} (h : Run codes t s) (hdue : s.exitDue = true) :
      Run codes (t ++ doing s.exit.2) s.exit.1
  | settle {t : List (Moment α)} {s : Scope α} (h : Run codes t s) (hdue : s.settleDue = true)
      {result : Except Failure α} (hwork : s.work = some result) :
      Run codes (t ++ (doing s.settle.2 ++ [.settles result])) s.settle.1

/-! ## Records -/

/-- What the moments of a run tell. -/
structure Record (α : Type) where
  /-- Who listens on the host, by signal. -/
  listeners : List String := []
  /-- The signals that a listener has heard, by the names that they gave. -/
  heard : List String := []
  /-- The reasons with which the work was asked to stop. -/
  stops : List String := []
  begun : Nat := 0
  ended : Nat := 0
  exits : List Int := []
  work : List (Except Failure α) := []
  settled : List (Except Failure α) := []

def Record.note (r : Record α) : Moment α → Record α
  | .signal heard named => if heard ∈ r.listeners then { r with heard := r.heard ++ [named] } else r
  | .workEnds result => { r with work := r.work ++ [result] }
  | .cleanupEnds _ => { r with ended := r.ended + 1 }
  | .does (.log _) => r
  | .does (.attach name) => { r with listeners := r.listeners ++ [name] }
  | .does (.detach name) => { r with listeners := r.listeners.erase name }
  | .does (.stop reason) => { r with stops := r.stops ++ [reason] }
  | .does .beginCleanup => { r with begun := r.begun + 1 }
  | .does (.exit code) => { r with exits := r.exits ++ [code] }
  | .settles result => { r with settled := r.settled ++ [result] }

/-- A record that goes on. -/
def Record.notes (r : Record α) (t : List (Moment α)) : Record α := t.foldl Record.note r

/-- The record of a run. -/
def record (t : List (Moment α)) : Record α := Record.notes {} t

namespace Record

variable {r : Record α}

@[simp] theorem notes_nil : r.notes [] = r := rfl

@[simp] theorem notes_cons (m : Moment α) (t : List (Moment α)) : r.notes (m :: t) = (r.note m).notes t :=
  rfl

theorem notes_append (t u : List (Moment α)) : r.notes (t ++ u) = (r.notes t).notes u := List.foldl_append

theorem notes_attach (names : List String) :
    r.notes (doing (names.map .attach)) = { r with listeners := r.listeners ++ names } := by
  induction names generalizing r with
  | nil => simp [doing]
  | cons name rest ih =>
    have hrest := ih (r := r.note (.does (.attach name)))
    simp only [doing, List.map_cons, notes_cons] at hrest ⊢
    rw [hrest]
    simp [note]

/-- Nobody listens any more when all who do are taken off. -/
theorem notes_detach {names : List String} (h : r.listeners = names) :
    r.notes (doing (names.map .detach)) = { r with listeners := [] } := by
  induction names generalizing r with
  | nil =>
    cases r
    cases h
    rfl
  | cons name rest ih =>
    have hrest := ih (r := r.note (.does (.detach name))) (by simp [note, h])
    simp only [doing, List.map_cons, notes_cons] at hrest ⊢
    rw [hrest]
    simp [note]

end Record

/-! ## States -/

variable {codes : List (String × Int)} {t : List (Moment α)} {s : Scope α} {heard : List String}

/-- How the parts of a scope hang together. -/
structure Sound (s : Scope α) : Prop where
  /-- The end of the work and the first signal start the cleanup, and nothing else does. -/
  idle : s.cleanup = .idle ↔ s.work = none ∧ s.reason = none
  exited : s.exited = true → s.cleanup = .finished ∧ s.reason.isSome = true
  settled : s.settled = true → s.cleanup = .finished ∧ s.work.isSome = true
  /-- Listening ends with the exit, or with the settling if there was no signal. -/
  attached : s.attached = false ↔ s.exited = true ∨ s.settled = true ∧ s.reason = none

theorem sound_enter : (enter ({ codes } : Scope α)).1.Sound := by
  constructor <;> simp [enter]

theorem not_exited (h : s.Sound) (hfinished : s.cleanup ≠ .finished ∨ s.reason = none) :
    s.exited = false := by
  rw [Bool.eq_false_iff]
  intro hexited
  obtain ⟨hcleanup, hreason⟩ := h.exited hexited
  rcases hfinished with hrunning | hnone
  · exact hrunning hcleanup
  · simp [hnone] at hreason

theorem not_settled (h : s.Sound) (hfinished : s.cleanup ≠ .finished ∨ s.work = none) :
    s.settled = false := by
  rw [Bool.eq_false_iff]
  intro hsettled
  obtain ⟨hcleanup, hwork⟩ := h.settled hsettled
  rcases hfinished with hrunning | hnone
  · exact hrunning hcleanup
  · simp [hnone] at hwork

/-- What the state of a scope tells of its record, beside the signals that were heard. -/
def told (s : Scope α) (heard : List String) : Record α where
  listeners := if s.attached then s.registered else []
  heard := heard
  stops := s.reason.toList
  begun := if s.cleanup = .idle then 0 else 1
  ended := if s.cleanup = .finished then 1 else 0
  exits := if s.exited then (s.reason.map s.codeOf).toList else []
  work := s.work.toList
  settled := if s.settled then s.work.toList else []

theorem mem_listeners (s : Scope α) (heard : List String) (name : String) :
    name ∈ (s.told heard).listeners ↔ (s.attached && s.registered.contains name) = true := by
  unfold told
  cases s.attached <;> simp

/-! ## Steps -/

theorem startCleanup_idle (h : s.cleanup = .idle) :
    s.startCleanup = ({ s with cleanup := .running }, [.beginCleanup]) := by
  simp [startCleanup, h]

theorem startCleanup_of_ne (h : s.cleanup ≠ .idle) : s.startCleanup = (s, []) := by
  unfold startCleanup
  split
  · exact absurd ‹_› h
  · rfl

/-- The cleanup is begun once, by whatever comes first. -/
theorem notes_startCleanup (s : Scope α) (heard : List String) :
    (s.told heard).notes (doing s.startCleanup.2) = s.startCleanup.1.told heard := by
  by_cases hidle : s.cleanup = .idle
  · rw [startCleanup_idle hidle]
    simp only [doing, List.map_cons, List.map_nil, Record.notes_cons, Record.notes_nil, Record.note, told,
      hidle]
    rfl
  · rw [startCleanup_of_ne hidle]
    rfl

/-- A signal without a listener does nothing. -/
theorem signal_unheard {heard : String} (h : (s.attached && s.registered.contains heard) = false)
    (named : String) : s.signal heard named = (s, []) := by
  simp only [signal, h, Bool.false_eq_true, if_false]

/-- What is logged of a signal after the first. -/
def ignored (named : String) : Event :=
  { type := "shutdown.signal.ignored", level := .known .debug, payload := [("signal", .text named)] }

theorem signal_again {heard : String} (h : (s.attached && s.registered.contains heard) = true)
    (hreason : s.reason.isSome = true) (named : String) :
    s.signal heard named = (s, [.log (ignored named)]) := by
  simp only [signal, h, hreason, if_true, ignored]

theorem signal_first {heard : String} (h : (s.attached && s.registered.contains heard) = true)
    (hreason : s.reason = none) (named : String) :
    ∃ e, s.signal heard named
      = (({ s with reason := some named } : Scope α).startCleanup.1,
          .log e :: .stop named :: ({ s with reason := some named } : Scope α).startCleanup.2) := by
  simp only [signal, h, hreason, if_true, Option.isSome_none, Bool.false_eq_true, if_false]
  exact ⟨_, rfl⟩

/-! ## Records of steps -/

/-- The record of a signal goes on as the state does. The first signal that is heard is the reason. -/
theorem notes_signal (h : s.Sound) (hheard : heard.head? = s.reason) (name named : String) :
    ∃ heard', heard'.head? = (s.signal name named).1.reason
      ∧ (s.told heard).notes (.signal name named :: doing (s.signal name named).2)
        = (s.signal name named).1.told heard' := by
  cases hlisten : s.attached && s.registered.contains name with
  | false =>
    have hmem : name ∉ (s.told heard).listeners := by rw [mem_listeners, hlisten]; exact Bool.false_ne_true
    rw [signal_unheard hlisten]
    refine ⟨heard, hheard, ?_⟩
    simp only [Record.notes_cons, Record.note, if_neg hmem]
    rfl
  | true =>
    have hmem : name ∈ (s.told heard).listeners := (mem_listeners ..).mpr hlisten
    have hnote : (s.told heard).note (.signal name named) = s.told (heard ++ [named]) := by
      simp only [Record.note, if_pos hmem]
      rfl
    cases hreason : s.reason with
    | some first =>
      rw [signal_again hlisten (by simp [hreason])]
      refine ⟨heard ++ [named], by simp [hheard, hreason], ?_⟩
      rw [Record.notes_cons, hnote]
      rfl
    | none =>
      obtain ⟨e, hsignal⟩ := signal_first hlisten hreason named
      have hnil : heard = [] := by simpa [hreason] using hheard
      have hstop : ((s.told (heard ++ [named])).note (.does (.log e))).note (.does (.stop named))
          = ({ s with reason := some named } : Scope α).told [named] := by
        simp [Record.note, told, hreason, hnil, not_exited h (.inr hreason), registered]
      rw [hsignal]
      refine ⟨[named], ?_, ?_⟩
      · unfold startCleanup
        split <;> rfl
      · rw [← notes_startCleanup, ← hstop, ← hnote]
        rfl

theorem notes_workEnds (h : s.Sound) (hwork : s.work = none) (result : Except Failure α) :
    (s.told heard).notes (.workEnds result :: doing (s.workEnds result).2)
      = (s.workEnds result).1.told heard := by
  have hnote : (s.told heard).note (.workEnds result)
      = ({ s with work := some result } : Scope α).told heard := by
    simp only [Record.note, told, hwork, not_settled h (.inr hwork)]
    rfl
  rw [Record.notes_cons, hnote]
  exact notes_startCleanup ..

theorem notes_cleanupEnds (hrunning : s.cleanup = .running) (failure : Option Failure) :
    (s.told heard).notes (.cleanupEnds failure :: doing (s.cleanupEnds failure).2)
      = (s.cleanupEnds failure).1.told heard := by
  have hnote : (s.told heard).note (.cleanupEnds failure)
      = ({ s with cleanup := .finished } : Scope α).told heard := by
    simp only [Record.note, told, hrunning]
    rfl
  rw [Record.notes_cons, hnote]
  cases failure <;> rfl

/-- Whoever listened is taken off. -/
theorem notes_detach_told (h : s.attached = true) :
    (s.told heard).notes (doing (s.registered.map .detach)) = { s.told heard with listeners := [] } :=
  Record.notes_detach (by simp only [told, h, if_true])

theorem attached_of_exitDue (h : s.Sound) (hdue : s.exitDue = true) : s.attached = true := by
  rw [← Bool.not_eq_false, h.attached]
  simp only [exitDue, Bool.and_eq_true, Bool.not_eq_true'] at hdue
  rintro (hexited | ⟨-, hreason⟩)
  · rw [hexited] at hdue
    exact absurd hdue.2 (by simp)
  · rw [hreason] at hdue
    exact absurd hdue.1.2 (by simp)

theorem notes_exit (h : s.Sound) (hdue : s.exitDue = true) :
    (s.told heard).notes (doing s.exit.2) = s.exit.1.told heard := by
  have hlisten := attached_of_exitDue h hdue
  simp only [exitDue, Bool.and_eq_true, Bool.not_eq_true', decide_eq_true_eq] at hdue
  obtain ⟨first, hfirst⟩ := Option.isSome_iff_exists.mp hdue.1.2
  simp only [exit, doing, List.map_append, Record.notes_append]
  rw [← doing, notes_detach_told hlisten]
  simp only [hfirst, told, hdue]
  rfl

/-- Settling leaves the listening to the exit if there was a signal. -/
theorem notes_doing_settle (h : s.Sound) (hdue : s.settleDue = true) :
    (s.told heard).notes (doing s.settle.2)
      = { s.told heard with listeners := (s.settle.1.told heard).listeners } := by
  simp only [settleDue, Bool.and_eq_true, Bool.not_eq_true', decide_eq_true_eq] at hdue
  unfold settle
  cases hreason : s.reason with
  | some first => rfl
  | none =>
    have hlisten : s.attached = true := by
      rw [← Bool.not_eq_false, h.attached, hdue.2]
      simp [not_exited h (.inr hreason)]
    exact notes_detach_told hlisten

theorem notes_settle (h : s.Sound) (hdue : s.settleDue = true) {result : Except Failure α}
    (hwork : s.work = some result) :
    (s.told heard).notes (doing s.settle.2 ++ [.settles result]) = s.settle.1.told heard := by
  rw [Record.notes_append, notes_doing_settle h hdue]
  simp only [settleDue, Bool.and_eq_true, Bool.not_eq_true', decide_eq_true_eq] at hdue
  unfold settle
  split <;>
  · simp only [Record.notes_cons, Record.notes_nil, Record.note, told, hdue, hwork]
    rfl

/-! ## States of runs -/

theorem Sound.workEnds (h : s.Sound) (hwork : s.work = none) (result : Except Failure α) :
    (s.workEnds result).1.Sound := by
  have hsettled := not_settled h (.inr hwork)
  obtain ⟨hidle, hexited, -, hattached⟩ := h
  unfold Scope.workEnds Scope.startCleanup
  cases hcleanup : s.cleanup <;> constructor <;> simp_all

theorem Sound.cleanupEnds (h : s.Sound) (hrunning : s.cleanup = .running) (failure : Option Failure) :
    (s.cleanupEnds failure).1.Sound := by
  obtain ⟨hidle, hexited, hsettled, hattached⟩ := h
  constructor <;> simp_all [Scope.cleanupEnds]

theorem Sound.signal (h : s.Sound) (heard named : String) : (s.signal heard named).1.Sound := by
  cases hlisten : s.attached && s.registered.contains heard with
  | false =>
    rw [signal_unheard hlisten]
    exact h
  | true =>
    cases hreason : s.reason with
    | some first =>
      rw [signal_again hlisten (by simp [hreason])]
      exact h
    | none =>
      obtain ⟨e, hsignal⟩ := signal_first hlisten hreason named
      have hattach : s.attached = true := by simp_all
      have hexited := not_exited h (.inr hreason)
      obtain ⟨hidle, -, hsettled, hattached⟩ := h
      rw [hsignal]
      unfold Scope.startCleanup
      cases hcleanup : s.cleanup <;> constructor <;> simp_all

theorem Sound.exit (h : s.Sound) (hdue : s.exitDue = true) : s.exit.1.Sound := by
  simp only [exitDue, Bool.and_eq_true, Bool.not_eq_true', decide_eq_true_eq] at hdue
  obtain ⟨hidle, hexited, hsettled, hattached⟩ := h
  constructor <;> simp_all [Scope.exit]

theorem Sound.settle (h : s.Sound) (hdue : s.settleDue = true) : s.settle.1.Sound := by
  simp only [settleDue, Bool.and_eq_true, Bool.not_eq_true', decide_eq_true_eq] at hdue
  obtain ⟨hidle, hexited, hsettled, hattached⟩ := h
  unfold Scope.settle
  cases hreason : s.reason <;> constructor <;> simp_all

theorem codeOf_eq {s' : Scope α} (h : s.codes = s'.codes) (name : String) : s.codeOf name = s'.codeOf name := by
  unfold codeOf
  rw [h]

theorem codes_startCleanup (s : Scope α) : s.startCleanup.1.codes = s.codes := by
  unfold startCleanup
  split <;> rfl

theorem reason_startCleanup (s : Scope α) : s.startCleanup.1.reason = s.reason := by
  unfold startCleanup
  split <;> rfl

theorem codes_signal (s : Scope α) (heard named : String) : (s.signal heard named).1.codes = s.codes := by
  unfold signal
  split
  · split
    · rfl
    · exact codes_startCleanup _
  · rfl

theorem Run.codes_eq (h : Run codes t s) : s.codes = codes := by
  induction h with
  | enter => rfl
  | signal _ heard named ih => exact (codes_signal ..).trans ih
  | workEnds _ _ _ ih => exact (codes_startCleanup _).trans ih
  | cleanupEnds _ _ _ ih => exact ih
  | exit _ _ ih => exact ih
  | settle _ _ _ ih =>
    rw [← ih]
    unfold Scope.settle
    split <;> rfl

theorem Run.sound (h : Run codes t s) : s.Sound := by
  induction h with
  | enter => exact sound_enter
  | signal _ heard named ih => exact ih.signal heard named
  | workEnds _ hwork result ih => exact ih.workEnds hwork result
  | cleanupEnds _ hrunning failure ih => exact ih.cleanupEnds hrunning failure
  | exit _ hdue ih => exact ih.exit hdue
  | settle _ hdue _ ih => exact ih.settle hdue

theorem record_append (t u : List (Moment α)) : record (t ++ u) = (record t).notes u :=
  Record.notes_append t u

/-- The record of a run is what its state tells, and the first signal that was heard is the reason. -/
theorem Run.record_eq (h : Run codes t s) :
    ∃ heard, heard.head? = s.reason ∧ record t = s.told heard := by
  induction h with
  | enter =>
    refine ⟨[], rfl, ?_⟩
    rw [record, Scope.enter, Record.notes_attach]
    rfl
  | signal h name named ih =>
    obtain ⟨heard, hheard, hrecord⟩ := ih
    obtain ⟨heard', hheard', hnotes⟩ := notes_signal h.sound hheard name named
    exact ⟨heard', hheard', by rw [record_append, hrecord, hnotes]⟩
  | @workEnds t s h hwork result ih =>
    obtain ⟨heard, hheard, hrecord⟩ := ih
    refine ⟨heard, hheard.trans (reason_startCleanup { s with work := some result }).symm, ?_⟩
    rw [record_append, hrecord, notes_workEnds h.sound hwork]
  | cleanupEnds h hrunning failure ih =>
    obtain ⟨heard, hheard, hrecord⟩ := ih
    exact ⟨heard, hheard, by rw [record_append, hrecord, notes_cleanupEnds hrunning]⟩
  | exit h hdue ih =>
    obtain ⟨heard, hheard, hrecord⟩ := ih
    exact ⟨heard, hheard, by rw [record_append, hrecord, notes_exit h.sound hdue]⟩
  | @settle t s h hdue _ hwork ih =>
    obtain ⟨heard, hheard, hrecord⟩ := ih
    have hreason : s.settle.1.reason = s.reason := by
      unfold Scope.settle
      split <;> rfl
    exact ⟨heard, hheard.trans hreason.symm, by rw [record_append, hrecord, notes_settle h.sound hdue hwork]⟩

/-! ## Order -/

/-- What must have happened before a moment: an exit comes when the cleanup has ended and nobody listens,
and the scope settles with what the work gave when both have ended. -/
def Record.Allows (r : Record α) : Moment α → Prop
  | .does (.exit _) => r.ended = 1 ∧ r.listeners = []
  | .settles result => r.ended = 1 ∧ r.work = [result]
  | _ => True

/-- Every moment is allowed by those before it. -/
def Record.AllowsAll (r : Record α) : List (Moment α) → Prop
  | [] => True
  | m :: rest => r.Allows m ∧ (r.note m).AllowsAll rest

theorem Record.allowsAll_append {r : Record α} {t u : List (Moment α)} :
    r.AllowsAll (t ++ u) ↔ r.AllowsAll t ∧ (r.notes t).AllowsAll u := by
  induction t generalizing r with
  | nil => simp [AllowsAll]
  | cons m rest ih => simp [AllowsAll, ih, and_assoc]

/-- Effects other than an exit are always allowed. -/
theorem Record.allowsAll_doing {effects : List Effect} (h : ∀ e ∈ effects, ∀ code, e ≠ .exit code)
    (r : Record α) : r.AllowsAll (doing effects) := by
  induction effects generalizing r with
  | nil => trivial
  | cons e rest ih =>
    refine ⟨?_, ih (fun e he => h e (List.mem_cons_of_mem _ he)) _⟩
    cases e with
    | exit code => exact absurd rfl (h _ List.mem_cons_self code)
    | log | attach | detach | stop | beginCleanup => trivial

theorem ne_exit_startCleanup (s : Scope α) : ∀ e ∈ s.startCleanup.2, ∀ code, e ≠ .exit code := by
  unfold startCleanup
  split <;> simp

theorem ne_exit_signal (s : Scope α) (heard named : String) :
    ∀ e ∈ (s.signal heard named).2, ∀ code, e ≠ .exit code := by
  unfold signal
  split
  · split
    · simp
    · simpa using ne_exit_startCleanup { s with reason := some named }
  · simp

theorem ne_exit_settle (s : Scope α) : ∀ e ∈ s.settle.2, ∀ code, e ≠ .exit code := by
  unfold settle
  split <;> simp

theorem Run.allowsAll (h : Run codes t s) : Record.AllowsAll {} t := by
  induction h with
  | enter => exact Record.allowsAll_doing (by simp [Scope.enter]) _
  | signal h heard named ih =>
    refine Record.allowsAll_append.mpr ⟨ih, trivial, ?_⟩
    exact Record.allowsAll_doing (ne_exit_signal _ heard named) _
  | workEnds h hwork result ih =>
    refine Record.allowsAll_append.mpr ⟨ih, trivial, ?_⟩
    exact Record.allowsAll_doing (ne_exit_startCleanup _) _
  | cleanupEnds h hrunning failure ih =>
    refine Record.allowsAll_append.mpr ⟨ih, trivial, ?_⟩
    exact Record.allowsAll_doing (by cases failure <;> simp [Scope.cleanupEnds]) _
  | @exit t s h hdue ih =>
    obtain ⟨heard, hheard, hrecord⟩ := h.record_eq
    have hlisten := attached_of_exitDue h.sound hdue
    simp only [exitDue, Bool.and_eq_true, Bool.not_eq_true', decide_eq_true_eq] at hdue
    obtain ⟨first, hfirst⟩ := Option.isSome_iff_exists.mp hdue.1.2
    refine Record.allowsAll_append.mpr ⟨ih, ?_⟩
    change (record t).AllowsAll _
    rw [hrecord]
    simp only [Scope.exit, doing, List.map_append, Record.allowsAll_append]
    rw [← doing, notes_detach_told hlisten]
    refine ⟨Record.allowsAll_doing (by simp) _, ?_⟩
    simp [Record.AllowsAll, Record.Allows, hfirst, told, hdue]
  | @settle t s h hdue result hwork ih =>
    obtain ⟨heard, hheard, hrecord⟩ := h.record_eq
    refine Record.allowsAll_append.mpr ⟨ih, ?_⟩
    refine Record.allowsAll_append.mpr ⟨Record.allowsAll_doing (ne_exit_settle _) _, ?_, trivial⟩
    change Record.Allows ((record t).notes _) _
    rw [hrecord, notes_doing_settle h.sound hdue]
    simp only [settleDue, Bool.and_eq_true, Bool.not_eq_true', decide_eq_true_eq] at hdue
    simp [Record.Allows, told, hdue, hwork]

theorem Record.AllowsAll.allows {r : Record α} {before after : List (Moment α)} {m : Moment α}
    (h : r.AllowsAll (before ++ m :: after)) : (r.notes before).Allows m :=
  (allowsAll_append.mp h).2.1

/-! ## Promises -/

/-- What a scope with these codes promises after a run. -/
structure Promises (codes : List (String × Int)) (t : List (Moment α)) (s : Scope α) : Prop where
  begun_le_one : (record t).begun ≤ 1
  begun_of_settled : (record t).settled ≠ [] → (record t).begun = 1
  /-- The end of the work and a signal always begin the cleanup. -/
  begun_of_event : (record t).work ≠ [] ∨ (record t).heard ≠ [] → (record t).begun = 1
  /-- There is an exit only after a signal was heard, and then one, with the code of the first. -/
  exits : (record t).exits = [] ∨ ∃ first later, (record t).heard = first :: later
    ∧ (record t).exits = [({ codes } : Scope α).codeOf first]
  /-- The exit comes after the end of the cleanup, when nobody listens any more. -/
  exit_last : ∀ before code after, t = before ++ .does (.exit code) :: after →
    (record before).ended = 1 ∧ (record before).listeners = []
  /-- The work is asked to stop just when a signal was heard, and the first is the reason. -/
  stops : (record t).stops = (record t).heard.head?.toList
  /-- A signal after the first is logged and changes nothing. -/
  later_signals : (record t).heard ≠ [] → ∀ name named, s.signal name named
    = (s, if name ∈ (record t).listeners then [.log (ignored named)] else [])
  /-- The scope settles at most once, and with what the work gave. -/
  settled : (record t).settled = [] ∨ ∃ result, (record t).work = [result] ∧ (record t).settled = [result]
  /-- Nobody listens when the scope has settled, and has exited if a signal was heard. -/
  listeners : (record t).settled ≠ [] → ((record t).heard ≠ [] → (record t).exits ≠ []) →
    (record t).listeners = []
  /-- After the end of the cleanup the exit is due until it has come, if a signal was heard. -/
  exits_of_ended : ∀ first later, (record t).heard = first :: later → (record t).ended = 1 →
    s.exitDue = false → (record t).exits = [({ codes } : Scope α).codeOf first]
  /-- After the end of the cleanup and of the work the settling is due until it has come. -/
  settled_of_ended : ∀ result, (record t).work = [result] → (record t).ended = 1 →
    s.settleDue = false → (record t).settled = [result]

/-- A scope keeps its promises in every run, however the work and the cleanup end and whichever signals come
at whichever moments. -/
theorem Run.keeps_promises (h : Run codes t s) : Promises codes t s := by
  obtain ⟨heard, hheard, hrecord⟩ := h.record_eq
  obtain ⟨hidle, hexited, hsettled, hattached⟩ := h.sound
  have hcode : ∀ name, s.codeOf name = ({ codes } : Scope α).codeOf name := codeOf_eq h.codes_eq
  have hreason : ∀ first later, heard = first :: later → s.reason = some first := by
    rintro first later rfl
    exact hheard.symm
  have hstarted : s.work.isSome = true ∨ s.reason.isSome = true → s.cleanup ≠ .idle := by
    rintro hevent hcleanup
    simp [hidle.mp hcleanup] at hevent
  constructor
  case exit_last =>
    rintro before code after rfl
    exact h.allowsAll.allows
  all_goals rw [hrecord]
  case begun_le_one =>
    simp only [told]
    split <;> simp
  case begun_of_settled =>
    intro hne
    have hfinished : s.cleanup = .finished := (hsettled (by simp_all [told])).1
    simp [told, hfinished]
  case begun_of_event =>
    rintro (hwork | hne)
    · refine if_neg (hstarted (.inl ?_))
      simpa [told, Option.isSome_iff_ne_none] using hwork
    · obtain ⟨first, later, hlater⟩ := List.exists_cons_of_ne_nil hne
      exact if_neg (hstarted (.inr (by simp [hreason first later hlater])))
  case exits =>
    cases hexit : s.exited with
    | false => exact .inl (by simp [told, hexit])
    | true =>
      obtain ⟨first, hfirst⟩ := Option.isSome_iff_exists.mp (hexited hexit).2
      obtain ⟨later, hlater⟩ := List.head?_eq_some_iff.mp (hheard.trans hfirst)
      exact .inr ⟨first, later, hlater, by simp [told, hexit, hfirst, hcode]⟩
  case stops => simp [told, hheard]
  case later_signals =>
    intro hne name named
    obtain ⟨first, later, hlater⟩ := List.exists_cons_of_ne_nil hne
    simp only [mem_listeners]
    cases hlisten : s.attached && s.registered.contains name with
    | false => exact signal_unheard hlisten named
    | true => exact signal_again hlisten (by simp [hreason first later hlater]) named
  case settled =>
    cases hsettle : s.settled with
    | false => exact .inl (by simp [told, hsettle])
    | true =>
      obtain ⟨result, hwork⟩ := Option.isSome_iff_exists.mp (hsettled hsettle).2
      exact .inr ⟨result, by simp [told, hwork], by simp [told, hsettle, hwork]⟩
  case listeners =>
    intro hne hexits
    have hsettle : s.settled = true := by simp_all [told]
    have hdetached : s.attached = false := by
      refine hattached.mpr ?_
      cases hfirst : s.reason with
      | none => exact .inr ⟨hsettle, rfl⟩
      | some first =>
        obtain ⟨later, hlater⟩ := List.head?_eq_some_iff.mp (hheard.trans hfirst)
        exact .inl (by simpa [told, hlater, hfirst] using hexits)
    simp [told, hdetached]
  case exits_of_ended =>
    intro first later hlater hended hdue
    have hfirst := hreason first later hlater
    have hfinished : s.cleanup = .finished := by simpa [told] using hended
    have hexit : s.exited = true := by simpa [exitDue, hfirst, hfinished] using hdue
    simp [told, hexit, hfirst, hcode]
  case settled_of_ended =>
    intro result hwork hended hdue
    have hresult : s.work = some result := by simpa [told, Option.toList_eq_singleton_iff] using hwork
    have hfinished : s.cleanup = .finished := by simpa [told] using hended
    have hsettle : s.settled = true := by simpa [settleDue, hresult, hfinished] using hdue
    simp [told, hsettle, hresult]

/-- Two signals come during the work, and the cleanup that the first has begun fails. -/
theorem keeps_promises_when_interrupted : ∃ (t : List (Moment Nat)) (s : Scope Nat),
    Run defaultCodes t s ∧ Promises defaultCodes t s
      ∧ (record t).heard = ["SIGTERM", "SIGINT"] ∧ (record t).begun = 1
      ∧ (record t).exits = [143] ∧ (record t).settled = [.ok 7] ∧ (record t).listeners = [] := by
  have hentered : Run (α := Nat) defaultCodes _ _ := .enter
  have hsignals := (hentered.signal "SIGTERM" "SIGTERM").signal "SIGINT" "SIGINT"
  have hended := (hsignals.workEnds rfl (.ok 7)).cleanupEnds rfl (some (.plain "no access"))
  have hrun := (hended.exit rfl).settle rfl rfl
  exact ⟨_, _, hrun, hrun.keeps_promises, rfl, rfl, rfl, rfl, rfl⟩

end Scope

end Bailiff
