-- SUMMARY: What an issued event says, with its own fields before those of the nearest logger, and the line of that.
import Bailiff.Log.Sink
import Bailiff.Proofs.Json.Values

/-!
# Lines of events

An event that was given to a logger says its own session and task, or else those of the nearest logger that says any
(`Issued.said`). Its line is a JSON text of just that (`Issued.IsLine`), all on one line, whatever texts the event
holds (`Issued.exists_line`).
-/

namespace Bailiff

/-- An event that a logger was given, with what the loggers say about defaults, from that one up to the root. -/
structure Issued where
  now : Instant
  event : Event
  chain : List DefaultChanges

/-- An event with a time that can be written and with a payload of values that JSON knows. -/
structure Event.IsSound (e : Event) : Prop where
  time : ∀ ms, e.time = .instant ms → (Instant.ofNumber? ms).isSome
  payload : Value.HasJson e.payload

/-- The logger that some loggers below the root make, the nearest first. -/
def Logger.descend (root : Logger) (chain : List DefaultChanges) : Logger :=
  chain.foldr (fun changes lg => lg.child changes) root

/-! ## What is said -/

/-- What the nearest logger with a choice chooses, or else the root. -/
def nearest {α : Type} (choice : DefaultChanges → Option (Option α)) (chain : List DefaultChanges) (root : Option α) :
    Option α :=
  (chain.findSome? choice).getD root

namespace Issued

def session (x : Issued) (root : Defaults) : Option Binary64 :=
  x.event.session.or (nearest (·.session) x.chain root.session)

/-- The task, unless its name is empty. -/
def task (x : Issued) (root : Defaults) : Option String :=
  (x.event.task.or (nearest (·.task) x.chain root.task)).filter (!·.isEmpty)

def time (x : Issued) : String :=
  match x.event.time with
  | .now => x.now.iso
  | .instant ms => ((Instant.ofNumber? ms).map (·.iso)).getD ""
  | .text s => s

/-- All that an event says. An empty payload is not mentioned. -/
def said (x : Issued) (root : Defaults) : List (String × Value) :=
  [("ts", .text x.time), ("level", .text x.event.level.text), ("type", .text x.event.type)]
    ++ (x.session root).toList.map (("session_id", .number ·))
    ++ (x.task root).toList.map (("task", .text ·))
    ++ if x.event.payload.isEmpty then [] else [("payload", .record x.event.payload)]

/-- A text without line ends that is read as an object with all that the event says. -/
structure IsLine (root : Defaults) (x : Issued) (line : String) : Prop where
  single : '\n' ∉ line.toList
  reads : ∃ tree, Json.read? line = some tree ∧ (Value.record (x.said root)).Shows tree

end Issued

/-! ## Loggers and their children -/

theorem Logger.descend_level (root : Logger) (chain : List DefaultChanges) :
    (root.descend chain).level = root.level := by
  induction chain with
  | nil => rfl
  | cons changes chain ih => exact ih

theorem Logger.descend_enabled (root : Logger) (chain : List DefaultChanges) (l : LevelName) :
    (root.descend chain).enabled l = root.enabled l := by
  rw [enabled, enabled, descend_level]

theorem nearest_cons {α : Type} (choice : DefaultChanges → Option (Option α)) (changes : DefaultChanges)
    (chain : List DefaultChanges) (root : Option α) :
    nearest choice (changes :: chain) root = (choice changes).getD (nearest choice chain root) := by
  unfold nearest
  rw [List.findSome?_cons]
  cases choice changes <;> rfl

theorem Logger.descend_defaults (root : Logger) (chain : List DefaultChanges) :
    (root.descend chain).defaults
      = ⟨nearest (·.session) chain root.defaults.session, nearest (·.task) chain root.defaults.task⟩ := by
  induction chain with
  | nil => rfl
  | cons changes chain ih =>
    rw [nearest_cons, nearest_cons]
    show (((root.descend chain).child changes).defaults) = _
    rw [child, ih]

/-! ## Trees -/

theorem Value.hasJson_append {fields more : List (String × Value)} (h : HasJson fields) (hmore : HasJson more) :
    HasJson (fields ++ more) := by
  induction fields with
  | nil => exact hmore
  | cons field fields ih => exact ⟨h.1, ih h.2⟩

theorem Value.fieldsToJson_append (fields more : List (String × Value)) :
    fieldsToJson (fields ++ more) = fieldsToJson fields ++ fieldsToJson more := by
  induction fields with
  | nil => rfl
  | cons field fields ih =>
    obtain ⟨key, item⟩ := field
    rw [List.cons_append, fieldsToJson, fieldsToJson]
    cases item.toJson? with
    | none => exact ih
    | some j => exact congrArg (List.cons (key, j)) ih

namespace Issued

theorem hasJson_said (x : Issued) (hpayload : Value.HasJson x.event.payload) (root : Defaults) :
    Value.HasJson (x.said root) := by
  unfold said
  have hfirst : Value.HasJson
      [("ts", .text x.time), ("level", .text x.event.level.text), ("type", .text x.event.type)] :=
    ⟨trivial, trivial, trivial, trivial⟩
  refine Value.hasJson_append (Value.hasJson_append (Value.hasJson_append hfirst ?_) ?_) ?_
  · cases x.session root with
    | none => trivial
    | some n => exact ⟨trivial, trivial⟩
  · cases x.task root with
    | none => trivial
    | some task => exact ⟨trivial, trivial⟩
  · split
    next => trivial
    next => exact ⟨hpayload, trivial⟩

theorem sessionFields_eq (x : Issued) (root : Logger) : x.event.sessionFields (root.descend x.chain).defaults
    = Value.fieldsToJson ((x.session root.defaults).toList.map (("session_id", .number ·))) := by
  rw [Logger.descend_defaults, Event.sessionFields, session, Option.orElse_eq_or]
  cases x.event.session.or (nearest (·.session) x.chain root.defaults.session) <;> rfl

theorem taskFields_eq (x : Issued) (root : Logger) : x.event.taskFields (root.descend x.chain).defaults
    = Value.fieldsToJson ((x.task root.defaults).toList.map (("task", .text ·))) := by
  rw [Logger.descend_defaults, Event.taskFields, task, Option.orElse_eq_or]
  cases x.event.task.or (nearest (·.task) x.chain root.defaults.task) with
  | none => rfl
  | some task =>
    dsimp only
    rw [Option.filter_some]
    cases task.isEmpty <;> rfl

theorem payloadFields_eq (x : Issued) : x.event.payloadFields
    = Value.fieldsToJson (if x.event.payload.isEmpty then [] else [("payload", .record x.event.payload)]) := by
  unfold Event.payloadFields
  cases x.event.payload.isEmpty <;> rfl

/-- The tree of an event is that of what it says. -/
theorem toJson_eq (x : Issued) (root : Logger) :
    x.event.toJson (root.descend x.chain).defaults x.time = .object (Value.fieldsToJson (x.said root.defaults)) := by
  rw [said, Value.fieldsToJson_append, Value.fieldsToJson_append, Value.fieldsToJson_append, ← sessionFields_eq,
    ← taskFields_eq, ← payloadFields_eq]
  rfl

theorem render_eq (x : Issued) (hx : x.event.IsSound) : x.event.time.render x.now = .ok x.time := by
  have hsound := hx.time
  unfold time
  cases htime : x.event.time with
  | now | text s => rfl
  | instant ms =>
    obtain ⟨t, ht⟩ := Option.isSome_iff_exists.mp (hsound ms htime)
    simp only [EventTime.render, ht, Option.map_some, Option.getD_some]

/-- An event has a line. -/
theorem exists_line (x : Issued) (hx : x.event.IsSound) (root : Logger) :
    ∃ line, x.event.line (root.descend x.chain).defaults x.now = .ok line ∧ x.IsLine root.defaults line := by
  have hjson := x.hasJson_said hx.payload root.defaults
  have hproper : (Json.object (Value.fieldsToJson (x.said root.defaults))).IsProper := Value.hasProper_fieldsToJson _
  refine ⟨_, ?_, Json.newline_notMem_compact hproper, _, Json.read?_compact hproper,
    .record (Value.showsFields_fieldsToJson _ hjson)⟩
  rw [Event.line, x.render_eq hx, ← x.toJson_eq]
  rfl

end Issued

end Bailiff
