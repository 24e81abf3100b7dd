-- SUMMARY: Virtual time: what is to happen at which millisecond, and waiting for it.

namespace Bailiff.Rehearsal

/-! ## Agendas -/

/-- What is still to happen, in the order in which it was arranged, and the time that has come. -/
structure Agenda (α : Type) where
  now : Nat := 0
  entries : List (Nat × α) := []
  deriving Repr

namespace Agenda

variable {α : Type}

/-- Arranges something for a later time. -/
def add (a : Agenda α) (delay : Nat) (x : α) : Agenda α :=
  { a with entries := a.entries ++ [(a.now + delay, x)] }

/-- Takes out the first entry of a time. -/
def takeAt (time : Nat) : List (Nat × α) → Option (α × List (Nat × α))
  | [] => none
  | e :: rest =>
    if e.1 = time then some (e.2, rest)
    else (takeAt time rest).map fun r => (r.1, e :: r.2)

/-- The earliest entry, and the agenda at its time. Of several at one time, the one that was arranged
first comes first. -/
def next? (a : Agenda α) : Option (α × Agenda α) :=
  match (a.entries.map (·.1)).min? with
  | none => none
  | some time => (takeAt time a.entries).map fun r => (r.1, ⟨max a.now time, r.2⟩)

end Agenda

/-! ## Waits -/

/-- How a wait turns out, and at which millisecond. -/
structure Waited where
  outcome : Bool
  time : Nat
  deriving DecidableEq, Repr

/-- Waits for something to settle, but not longer than a time. -/
def joinWithin (ms : Nat) (settlesAt : Option Nat) : Waited :=
  match settlesAt.filter (· ≤ ms) with
  | some time => ⟨true, time⟩
  | none => ⟨false, ms⟩

/-- Waits for a time; a call-off up to its end ends the wait in vain. -/
def waitFor (ms : Nat) (calledOffAt : Option Nat) : Waited :=
  let wait := joinWithin ms calledOffAt
  { wait with outcome := !wait.outcome }

end Bailiff.Rehearsal
