-- SUMMARY: Loggers that share the sink of a file add one line for each event that passes before the first close.
import Bailiff.Batch.Command
import Bailiff.Proofs.Files.ReadBack
import Bailiff.Proofs.Log.Lines

/-!
# Loggers on one file

A family is a logger on the sink of a file with the loggers that are made below it. Calls on its loggers, in any order,
add the lines of the enabled events that are issued before the first close (`Family.IsOpen.run`), and nothing after it
(`Family.IsClosed.run`). A line holds no line end, so the file has the lines that it had and those that were added, and
no others (`endedLines_append`).
-/

namespace Bailiff

/-- A call on one of some numbered loggers that share a sink. -/
inductive LogCall where
  | log (logger : Nat) (now : Instant) (e : Event)
  /-- An event of a level, with a type and a payload only. -/
  | note (logger : Nat) (now : Instant) (level : Level) (type : String) (payload : List (String × Value))
  /-- A new logger below one. -/
  | child (logger : Nat) (changes : DefaultChanges)
  | close

/-- The events of the call are sound. -/
def LogCall.IsSound : LogCall → Prop
  | .log _ _ e => e.IsSound
  | .note _ _ _ _ payload => Value.HasJson payload
  | _ => True

/-- Loggers, numbered from the root on, and the sink that they share. -/
structure Family where
  sink : Sink
  loggers : List Logger

namespace Family

def log (f : Family) (logger : Nat) (now : Instant) (e : Event) : Except Failure Family :=
  match f.loggers[logger]? with
  | some lg => (lg.log now e f.sink).map fun sink => { f with sink }
  | none => .ok f

def call (f : Family) : LogCall → Except Failure Family
  | .log logger now e => f.log logger now e
  | .note logger now level type payload => f.log logger now { type, level := .known level, payload }
  | .child logger changes =>
    .ok { f with loggers := f.loggers ++ (f.loggers[logger]?.map (·.child changes)).toList }
  | .close => .ok { f with sink := f.sink.close }

def run (f : Family) (calls : List LogCall) : Except Failure Family := calls.foldlM call f

end Family

/-- An event that is given to one of the loggers made by some chains of changes. -/
def heard (chains : List (List DefaultChanges)) (logger : Nat) (now : Instant) (e : Event) : List Issued :=
  (chains[logger]?.map (⟨now, e, ·⟩)).toList

/-- The events that are issued before the first close. -/
def issued (chains : List (List DefaultChanges)) : List LogCall → List Issued
  | [] => []
  | .log logger now e :: rest => heard chains logger now e ++ issued chains rest
  | .note logger now level type payload :: rest =>
    heard chains logger now { type, level := .known level, payload } ++ issued chains rest
  | .child logger changes :: rest => issued (chains ++ (chains[logger]?.map (changes :: ·)).toList) rest
  | .close :: _ => []

/-- The lines of a text that have an end. -/
def endedLines (text : String) : List String := (text.toList.splitOn '\n').dropLast.map String.ofList

/-- Some lines, each with its end. -/
def withEnds (lines : List String) : String := String.join (lines.map (· ++ "\n"))

variable {f f' : Family} {root : Logger} {path : String} {chains : List (List DefaultChanges)} {lines : List String}
  {c : LogCall} {calls : List LogCall} {e : Event} {now : Instant}

/-! ## Lines of a text -/

theorem toList_withEnds_cons (line : String) (lines : List String) :
    (withEnds (line :: lines)).toList = line.toList ++ '\n' :: (withEnds lines).toList := by
  simp [withEnds, String.join_cons]

theorem splitOn_withEnds (h : ∀ line ∈ lines, '\n' ∉ line.toList) :
    (withEnds lines).toList.splitOn '\n' = lines.map String.toList ++ [[]] := by
  induction lines with
  | nil => rfl
  | cons line lines ih =>
    obtain ⟨hline, hlines⟩ := List.forall_mem_cons.mp h
    rw [toList_withEnds_cons, List.splitOn_append_cons_self_of_not_mem hline, ih hlines]
    rfl

/-- Lines that are added to a text of ended lines are its last lines. -/
theorem endedLines_append {old : String} (hold : old = "" ∨ old.toList.getLast? = some '\n')
    (h : ∀ line ∈ lines, '\n' ∉ line.toList) : endedLines (old ++ withEnds lines) = endedLines old ++ lines := by
  have hmap : (lines.map String.toList).map String.ofList = lines := by simp [Function.comp_def]
  rcases hold with rfl | hlast
  · rw [String.empty_append, endedLines, splitOn_withEnds h, List.dropLast_concat, hmap]
    rfl
  · obtain ⟨before, hbefore⟩ : ∃ before, old.toList = before ++ ['\n'] :=
      ⟨_, (List.dropLast_append_getLast? _ hlast).symm⟩
    rw [endedLines, endedLines, String.toList_append, hbefore, List.append_assoc, List.singleton_append,
      List.splitOn_append_cons_self, List.splitOn_append_cons_self, splitOn_withEnds h, ← List.append_assoc,
      List.dropLast_concat, List.map_append, hmap, List.splitOn_nil, List.dropLast_concat]

/-! ## One call -/

theorem Event.isSound_note {payload : List (String × Value)} (h : Value.HasJson payload) (level : Level)
    (type : String) :
    Event.IsSound { type, level := .known level, payload } :=
  ⟨fun _ htime => (nomatch htime), h⟩

theorem Sink.write_open {s : Sink} (htarget : s.target = .file path none) (hopen : s.closed = false)
    (text : String) :
    s.write text = { s with marks := s.marks ++ [.line text] } := by
  simp [write, htarget, hopen]

theorem Sink.write_closed {s : Sink} (htarget : s.target = .file path none) (hclosed : s.closed = true)
    (text : String) :
    s.write text = s := by
  simp [write, htarget, hclosed]

theorem Sink.close_closed {s : Sink} (htarget : s.target = .file path none) (hclosed : s.closed = true) :
    s.close = s := by
  simp [close, htarget, hclosed]

theorem Sink.close_file {s : Sink} (htarget : s.target = .file path none) : s.close = { s with closed := true } := by
  obtain ⟨target, closed, marks, warnings⟩ := s
  obtain rfl : target = .file path none := htarget
  cases closed <;> rfl

namespace Family

/-- The loggers are those of some chains, and the file of their sink is open. -/
structure IsOpen (f : Family) (root : Logger) (path : String) (chains : List (List DefaultChanges)) : Prop where
  target : f.sink.target = .file path none
  isOpen : f.sink.closed = false
  loggers : f.loggers = chains.map root.descend

/-- The file of the sink is closed. -/
structure IsClosed (f : Family) (path : String) : Prop where
  target : f.sink.target = .file path none
  isClosed : f.sink.closed = true

/-- The sink has taken some more lines. -/
def gains (f : Family) (lines : List String) : Family :=
  { f with sink := { f.sink with marks := f.sink.marks ++ lines.map fun line => .line (line ++ "\n") } }

/-- The lines are those of the events that pass. -/
def AreLines (root : Logger) (events : List Issued) (lines : List String) : Prop :=
  List.Forall₂ (·.IsLine root.defaults ·) (events.filter fun x => root.enabled x.event.level) lines

theorem IsOpen.gains (h : f.IsOpen root path chains) (lines : List String) :
    (f.gains lines).IsOpen root path chains :=
  ⟨h.target, h.isOpen, h.loggers⟩

/-- An event that passes becomes a line. -/
theorem IsOpen.log (h : f.IsOpen root path chains) (he : e.IsSound) (logger : Nat) (now : Instant) :
    ∃ lines, f.log logger now e = .ok (f.gains lines) ∧ AreLines root (heard chains logger now e) lines := by
  have hlogger : f.loggers[logger]? = chains[logger]?.map root.descend := by rw [h.loggers, List.getElem?_map]
  unfold Family.log heard AreLines
  rw [hlogger]
  cases chains[logger]? with
  | none => exact ⟨[], by simp [Family.gains], .nil⟩
  | some chain =>
    obtain ⟨line, hline, hsaid⟩ := Issued.exists_line ⟨now, e, chain⟩ he root
    simp only [Option.map_some, Logger.log, Logger.descend_enabled]
    cases hpass : root.enabled e.level with
    | false => exact ⟨[], by simp [Family.gains, Except.map], by simp [hpass]⟩
    | true =>
      refine ⟨[line], ?_, by simpa [hpass] using hsaid⟩
      rw [if_pos rfl, hline]
      simp [Except.map, Family.gains, Sink.write_open h.target h.isOpen]

/-- A child is made by its changes and those of the logger that it is below. -/
theorem IsOpen.child (h : f.IsOpen root path chains) (logger : Nat) (changes : DefaultChanges) :
    IsOpen { f with loggers := f.loggers ++ (f.loggers[logger]?.map (·.child changes)).toList } root path
      (chains ++ (chains[logger]?.map (changes :: ·)).toList) := by
  refine ⟨h.target, h.isOpen, ?_⟩
  rw [h.loggers, List.getElem?_map, List.map_append]
  cases chains[logger]? <;> rfl

/-- An event that comes after the close is dropped. -/
theorem IsClosed.log (h : f.IsClosed path) (he : e.IsSound) (logger : Nat) (now : Instant) :
    f.log logger now e = .ok f := by
  unfold Family.log
  cases f.loggers[logger]? with
  | none => rfl
  | some lg =>
    obtain ⟨line, hline, -⟩ := Issued.exists_line ⟨now, e, []⟩ he lg
    change e.line lg.defaults now = .ok line at hline
    simp only [Logger.log, hline, Except.map, Sink.write_closed h.target h.isClosed, ite_self]

/-- Nothing is written to a closed file. -/
theorem IsClosed.call (h : f.IsClosed path) (hc : c.IsSound) : ∃ f', f.call c = .ok f' ∧ f'.sink = f.sink := by
  cases c with
  | log logger now e => exact ⟨f, h.log hc logger now, rfl⟩
  | note logger now level type payload => exact ⟨f, h.log (Event.isSound_note hc level type) logger now, rfl⟩
  | child logger changes => exact ⟨_, rfl, rfl⟩
  | close => exact ⟨_, rfl, Sink.close_closed h.target h.isClosed⟩

/-! ## Runs of calls -/

theorem run_cons (f : Family) (c : LogCall) (calls : List LogCall) :
    f.run (c :: calls) = (f.call c).bind (·.run calls) := rfl

theorem IsClosed.run (h : f.IsClosed path) (hcalls : ∀ c ∈ calls, c.IsSound) :
    ∃ f', f.run calls = .ok f' ∧ f'.sink = f.sink := by
  induction calls generalizing f with
  | nil => exact ⟨f, rfl, rfl⟩
  | cons c calls ih =>
    obtain ⟨hc, hcalls⟩ := List.forall_mem_cons.mp hcalls
    obtain ⟨f₁, hcall, hsink⟩ := h.call hc
    obtain ⟨f', hrun, hsink'⟩ := ih (f := f₁) ⟨hsink ▸ h.target, hsink ▸ h.isClosed⟩ hcalls
    exact ⟨f', by rw [run_cons, hcall]; exact hrun, hsink'.trans hsink⟩

theorem AreLines.append {before after : List Issued} {more : List String} (h : AreLines root before lines)
    (h' : AreLines root after more) : AreLines root (before ++ after) (lines ++ more) := by
  unfold AreLines
  rw [List.filter_append]
  exact List.rel_append h h'

/-- The events that pass before the first close become the lines that a run of calls adds. -/
def Writes (f : Family) (root : Logger) (chains : List (List DefaultChanges)) (calls : List LogCall) : Prop :=
  ∃ f' lines, f.run calls = .ok f' ∧ f'.sink.marks = (f.gains lines).sink.marks
    ∧ AreLines root (issued chains calls) lines

theorem IsOpen.log_run (h : f.IsOpen root path chains) (he : e.IsSound) (logger : Nat) (now : Instant)
    (hrest : ∀ lines, (f.gains lines).Writes root chains calls) :
    ∃ f' lines, (f.log logger now e).bind (·.run calls) = .ok f' ∧ f'.sink.marks = (f.gains lines).sink.marks
      ∧ AreLines root (heard chains logger now e ++ issued chains calls) lines := by
  obtain ⟨lines, hlogged, hlines⟩ := h.log he logger now
  obtain ⟨f', more, hrun, hmarks, hmore⟩ := hrest lines
  refine ⟨f', lines ++ more, by rw [hlogged]; exact hrun, ?_, hlines.append hmore⟩
  rw [hmarks]
  simp [Family.gains]

/-- A run of calls on loggers whose file is open writes the lines of its events. -/
theorem IsOpen.run (h : f.IsOpen root path chains) (hcalls : ∀ c ∈ calls, c.IsSound) : f.Writes root chains calls := by
  induction calls generalizing f chains with
  | nil => exact ⟨f, [], rfl, by simp [Family.gains], .nil⟩
  | cons c calls ih =>
    obtain ⟨hc, hrest⟩ := List.forall_mem_cons.mp hcalls
    cases c with
    | log logger now e => exact h.log_run hc logger now fun lines => ih (h.gains lines) hrest
    | note logger now level type payload =>
      exact h.log_run (Event.isSound_note hc level type) logger now fun lines => ih (h.gains lines) hrest
    | child logger changes => exact ih (h.child logger changes) hrest
    | close =>
      have hclose := Sink.close_file h.target
      have hclosed : IsClosed { f with sink := f.sink.close } path :=
        ⟨by rw [hclose]; exact h.target, by rw [hclose]⟩
      obtain ⟨f', hrun, hsink⟩ := hclosed.run hrest
      refine ⟨f', [], hrun, ?_, .nil⟩
      rw [hsink, hclose]
      simp [Family.gains]

/-! ## The file -/

/-- The sink of a named file that is there already, or is not there yet. -/
theorem ownSink_file {files files' : FileTree} {base l : Location} {sink : Sink} {old : String}
    (hopen : BatchCommand.ownSink files base (some path) = (files', .ok (sink, some l)))
    (hprior : files.at? l = some (.file old) ∨ files.at? l = none ∧ old = "") :
    sink = { target := .file path none } ∧ files'.locate base path = .ok l ∧ l ≠ []
      ∧ files'.at? l = some (.file old) := by
  unfold BatchCommand.ownSink at hopen
  dsimp only at hopen
  split at hopen
  · cases hopen
  split at hopen
  · cases hopen
  next hlog =>
    cases hopen
    obtain ⟨hlocated, hne, hfile⟩ := FileTree.openLog_file hlog hprior
    exact ⟨by rw [hfile], hlocated, hne, hfile⟩

/-- The lines of events are single. -/
theorem AreLines.single {events : List Issued} (h : AreLines root events lines) :
    ∀ line ∈ lines, '\n' ∉ line.toList := by
  unfold AreLines at h
  generalize events.filter (fun x => root.enabled x.event.level) = passed at h
  induction h with
  | nil => exact fun line hline => absurd hline List.not_mem_nil
  | cons hsaid _ ih => exact List.forall_mem_cons.mpr ⟨hsaid.single, ih⟩

/-- However the loggers on a file are called, no call fails, and the file gains one line for each event that passes and
is issued before the first close, in the order of the calls. Each line is an object of what its event says, and
whatever texts that holds, the file has no other lines but these and those that it had. -/
theorem logged_lines_intact {files files' : FileTree} {base l : Location} {sink : Sink} {old : String}
    (hopen : BatchCommand.ownSink files base (some path) = (files', .ok (sink, some l)))
    (hprior : files.at? l = some (.file old) ∨ files.at? l = none ∧ old = "")
    (hended : old = "" ∨ old.toList.getLast? = some '\n') (root : Logger) (hcalls : ∀ c ∈ calls, c.IsSound) :
    ∃ f lines, Family.run ⟨sink, [root]⟩ calls = .ok f
      ∧ (files'.append l f.sink.text).read? base path = some (old ++ withEnds lines)
      ∧ endedLines (old ++ withEnds lines) = endedLines old ++ lines
      ∧ List.Forall₂ (Issued.IsLine root.defaults) ((issued [[]] calls).filter fun x => root.enabled x.event.level)
        lines := by
  obtain ⟨rfl, hlocated, hne, hfile⟩ := ownSink_file hopen hprior
  have hstart : IsOpen ⟨{ target := .file path none }, [root]⟩ root path [[]] := ⟨rfl, rfl, rfl⟩
  obtain ⟨f, lines, hrun, hmarks, hlines⟩ := hstart.run hcalls
  have htext : f.sink.text = withEnds lines := by
    rw [Sink.text, hmarks, withEnds]
    simp [gains, Function.comp_def]
  refine ⟨f, lines, hrun, ?_, endedLines_append hended hlines.single, hlines⟩
  rw [htext]
  exact FileTree.read?_append hlocated hne hfile _

/-- A file with one line. -/
def lineFiles : FileTree := ⟨[(["log"], .file "old\n")]⟩

theorem ownSink_lineFiles : BatchCommand.ownSink lineFiles [] (some "log")
    = (lineFiles, .ok ({ target := .file "log" none }, some ["log"])) := by
  have hmade : lineFiles.makeDirectories [] (Path.directory "log") = .ok lineFiles := by rfl
  have hlocate : lineFiles.locate [] "log" = .ok ["log"] := by
    have hparts : Path.parts "log" = ["log"] := by decide +kernel
    have habsolute : Path.isAbsolute "log" = false := by decide
    simp only [FileTree.locate, hparts, habsolute]
    exact FileTree.walk_last (by decide) (by decide) (by simp [lineFiles, FileTree.at?])
  simp only [BatchCommand.ownSink, FileTree.openLog, hmade, FileTree.openFile, hlocate]
  rfl

/-- A message with a line end and a number that is none, an event of a child, and one that comes too late. -/
def lineCalls : List LogCall :=
  [.note 0 ⟨0⟩ .warn "cleanup.failed" [("message", .text "a\n\x22b"), ("ratio", .number .nan)],
    .child 0 { task := some (some "t") },
    .log 1 ⟨0⟩ { type := "task.done", session := some 4, time := .instant 5 },
    .close,
    .note 0 ⟨0⟩ .error "late" []]

theorem logged_lines_intact_late :
    ∃ f lines, Family.run ⟨{ target := .file "log" none }, [{}]⟩ lineCalls = .ok f
      ∧ (lineFiles.append ["log"] f.sink.text).read? [] "log" = some ("old\n" ++ withEnds lines)
      ∧ endedLines ("old\n" ++ withEnds lines) = "old" :: lines ∧ lines.length = 2 := by
  have htime : (Instant.ofNumber? 5).isSome := by decide
  have hcalls : ∀ c ∈ lineCalls, c.IsSound := by
    simp only [lineCalls, List.forall_mem_cons]
    refine ⟨⟨trivial, trivial, trivial⟩, trivial, ⟨?_, trivial⟩, trivial, trivial, ?_⟩
    · rintro ms heq
      cases heq
      exact htime
    · exact fun c hc => absurd hc List.not_mem_nil
  obtain ⟨f, lines, hrun, hread, hended, hlines⟩ :=
    logged_lines_intact ownSink_lineFiles (.inl rfl) (.inr (by decide)) {} hcalls
  refine ⟨f, lines, hrun, hread, ?_, ?_⟩
  · rw [hended, show endedLines "old\n" = ["old"] by decide]
    rfl
  · rw [← hlines.length_eq]
    decide

end Family

end Bailiff
