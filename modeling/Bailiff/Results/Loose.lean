-- SUMMARY: Store operations on values of any type, which may not fit the columns.
import Bailiff.Results.Store

/-!
# Loose values

What is put into a column or compared with one may be any value. A value without a cell of its own is
refused; the others are converted as the column says.
-/

namespace Bailiff

/-- A value as a column takes it. -/
inductive Cell where
  | null
  | number (x : Binary64)
  | text (s : String)
  | octets (bytes : List UInt8)
  deriving DecidableEq, Repr

namespace Cell

/-- The cell of a value, if it has one. Not-a-number is null. -/
def ofValue? : Value → Option Cell
  | .absent => some null
  | .null => some null
  | .number x => some (if x.isNaN then null else number x)
  | .text s => some (text s)
  | .octets bytes => some (octets bytes)
  | _ => none

/-- The cell in a column of texts. -/
def toText? : Cell → Option String
  | null => none
  | number x => some (columnText x)
  | text s => some s
  | octets bytes => some (Utf8.decode bytes)

/-- The cell in a column of numbers. What is no number compares with none. -/
def toNumber? : Cell → Option Binary64
  | null => none
  | number x => some x
  | text s => some ((columnNumber? s).getD .nan)
  | octets _ => some .nan

/-- The cell in a column of start times. -/
def toStamp? : Cell → Option Stamp
  | null => none
  | number x => some (.number (storedNumber x))
  | text s => some (.ofText s)
  | octets bytes => some (.text (Utf8.decode bytes))

/-- The cell in a column of captured output. -/
def toOutput? : Cell → Option Output
  | null => none
  | number x => some (.text (columnText x))
  | text s => some (.text s)
  | octets bytes => some (.octets bytes)

end Cell

namespace Store

/-- The cells of values, when all have one. -/
def bindAll : List Value → Option (List Cell)
  | [] => some []
  | v :: rest => (Cell.ofValue? v).bind fun c => (bindAll rest).map (c :: ·)

/-- The cells of the values of a statement, on an open connection. -/
def bindFor (s : Store) (action : String) (values : List Value) : Except Failure (List Cell) :=
  s.whenOpen action <|
    match bindAll values with
    | some cells => .ok cells
    | none => .error (failed action unbindableText)

/-- A session id that nothing has, for what is not a number. -/
def idOf (v : Value) : Binary64 := (((Cell.ofValue? v).bind (·.toNumber?))).getD .nan

def beginSessionWith (s : Store) (version : Value) (now : Binary64) :
    Except Failure (Store × Int) :=
  match s.whenOpen "create session" (.ok ()) with
  | .error e => .error e
  | .ok () =>
    match Instant.ofNumber? now, Cell.ofValue? version with
    | none, _ => .error (failed "create session" "Invalid time value")
    | _, none => .error (failed "create session" unbindableText)
    | some _, some c =>
      match c.toText? with
      | none => .error (failed "create session" (missingText "sessions" "version"))
      | some v => s.beginSession v now

def getSessionWith (s : Store) (id : Value) : Except Failure (Option Session) :=
  match s.bindFor "read session" [id] with
  | .error e => .error e
  | .ok _ => s.getSession (idOf id)

def resumeSessionWith (s : Store) (id : Value) : Except Failure Value :=
  match s.getSessionWith id with
  | .error e => .error e
  | .ok none => .error (notPresent id.describe)
  | .ok (some _) => .ok id

def hasResultWith (s : Store) (session task : Value) : Except Failure Bool :=
  match s.bindFor "read result" [task, session] with
  | .error e => .error e
  | .ok _ =>
    match (Cell.ofValue? task).bind (·.toText?) with
    | none => .ok false
    | some t => s.hasResult (idOf session) t

def listResultsWith (s : Store) (session : Value) : Except Failure (List ResultRow) :=
  match s.bindFor "list results" [session] with
  | .error e => .error e
  | .ok _ => s.listResults (idOf session)

/-- An outcome whose parts are any values. -/
inductive LooseOutcome where
  | completed (stdout stderr returnCode : Value)
  | killed
  deriving Repr

def recordResultWith (s : Store) (session task start duration : Value) (outcome : LooseOutcome) :
    Except Failure Store :=
  let name := task.describe
  let sessionName := session.describe
  let (killed, stdout, stderr, code) : Bool × Value × Value × Value := match outcome with
    | .killed => (true, .text "", .text "", .number killedReturnCode)
    | .completed o e c => (false, o, e, c)
  if !s.isOpen then .error (recordFailed name closedText)
  else match bindAll [task, session, start, duration, stdout, stderr, code] with
    | some [task, session, start, duration, stdout, stderr, code] =>
      s.insert name sessionName
        { task := task.toText?
          session := session.toNumber?
          start := start.toStamp?
          duration := duration.toNumber?
          killed
          stdout := stdout.toOutput?
          stderr := stderr.toOutput?
          returnCode := code.toNumber? }
    | _ => .error (recordFailed name unbindableText)

end Store

end Bailiff
