-- SUMMARY: What can go wrong: faults of the machine, troubles of the harness, reports for the user, and stray thrown values.
import Bailiff.Value

/-!
# Failures

Every operation that fails does so with a `Failure`. A fault comes from the system below (files,
database, bad numbers), a trouble belongs to one `Area` of the harness, a report is a trouble made
ready for the user, and any other value may be thrown as it is.
-/

namespace Bailiff

/-! ## Kinds -/

/-- The kinds of fault that the system below raises. -/
inductive FaultKind where
  | general
  | type
  | range
  | usage
  deriving DecidableEq, Repr

/-- The parts of the harness that troubles belong to. -/
inductive Area where
  | harness
  | config
  | storage
  | notFound
  | duplicateKey
  | judgeSpawn
  | processSpawn
  | batchStopped
  deriving DecidableEq, Repr

/-- The codes that reports show. -/
inductive ReportCode where
  | config
  | storage
  | notFound
  | judge
  | process
  | unknown
  | other (text : String)
  deriving DecidableEq, Repr

def FaultKind.name : FaultKind → String
  | general => "Error"
  | type => "TypeError"
  | range => "RangeError"
  | usage => "CommanderError"

def Area.name : Area → String
  | harness => "HarnessError"
  | config => "ConfigError"
  | storage => "StorageError"
  | notFound => "NotFoundError"
  | duplicateKey => "DuplicateKeyError"
  | judgeSpawn => "JudgeSpawnError"
  | processSpawn => "ProcessSpawnError"
  | batchStopped => "BatchStoppedError"

def ReportCode.text : ReportCode → String
  | config => "CONFIG_ERROR"
  | storage => "STORAGE_ERROR"
  | notFound => "NOT_FOUND"
  | judge => "JUDGE_ERROR"
  | process => "PROCESS_ERROR"
  | unknown => "UNKNOWN_ERROR"
  | other s => s

/-- The code of the reports on an area. -/
def Area.reportCode : Area → ReportCode
  | config => .config
  | notFound => .notFound
  | storage => .storage
  | duplicateKey => .storage
  | judgeSpawn => .judge
  | processSpawn => .process
  | harness => .unknown
  | batchStopped => .unknown

/-! ## Failures -/

/-- The calls that led to a failure: not known, or known as text. -/
inductive Trace where
  | unknown
  | text (calls : String)
  deriving DecidableEq, Repr, Inhabited

inductive Failure where
  | fault (kind : FaultKind) (message : String) (trace : Trace)
  | trouble (area : Area) (message : String) (cause : Option Failure) (code : Option String)
      (trace : Trace)
  | report (code : ReportCode) (title message : String) (hint next : Option String)
      (cause : Option Failure) (trace : Trace)
  | value (v : Value)
  deriving Repr, Inhabited

namespace Failure

/-! ## Building -/

/-- A fault of no special kind. -/
def plain (message : String) : Failure := fault .general message .unknown

/-- A trouble without a cause. -/
def of (area : Area) (message : String) : Failure := trouble area message none none .unknown

/-- A trouble that another failure led to. -/
def because (area : Area) (message : String) (cause : Failure) : Failure :=
  trouble area message (some cause) none .unknown

/-! ## Views -/

def message : Failure → String
  | fault _ m _ => m
  | trouble _ m _ _ _ => m
  | report _ _ m _ _ _ _ => m
  | value v => v.describe

/-- The name of the kind of failure; a stray value has none. -/
def name? : Failure → Option String
  | fault kind _ _ => some kind.name
  | trouble area _ _ _ _ => some area.name
  | report .. => some "UserFacingError"
  | value _ => none

def cause? : Failure → Option Failure
  | fault .. => none
  | trouble _ _ c _ _ => c
  | report _ _ _ _ _ c _ => c
  | value _ => none

def trace : Failure → Trace
  | fault _ _ t => t
  | trouble _ _ _ _ t => t
  | report _ _ _ _ _ _ t => t
  | value _ => .unknown

/-- The code under which a failure is reported. -/
def reportCode : Failure → ReportCode
  | report code .. => code
  | trouble area .. => area.reportCode
  | _ => .unknown

/-- Whether a program could not be started because there is no such file. -/
def isMissingExecutable : Failure → Bool
  | trouble .processSpawn _ _ code _ => code = some "ENOENT"
  | _ => false

/-- The same failure with another trace. -/
def withTrace (t : Trace) : Failure → Failure
  | fault k m _ => fault k m t
  | trouble a m c code _ => trouble a m c code t
  | report code title m hint next c _ => report code title m hint next c t
  | value v => value v

end Failure

/-! ## Reports for the user -/

/-- What a command says about any failure of its own. -/
structure ReportContext where
  title : String
  notFoundHint : Option String := none

namespace Failure

/-- Where to look when settings are refused. -/
def configHint : String :=
  "Check the SPAWN_SERVER, SPAWN_WORKERS, SERVER_ADDR and HARNESS_LOGLEVEL environment variables and the command options."

/-- How to go on after a stopped batch. -/
def stoppedHint : String := "Re-run with --session to continue where the batch stopped."

def hint? (context : ReportContext) : Failure → Option String
  | trouble .config .. => some configHint
  | trouble .notFound .. => context.notFoundHint
  | trouble .batchStopped .. => some stoppedHint
  | _ => none

/-- Whether a failure is a report already. -/
def isReport : Failure → Bool
  | report .. => true
  | _ => false

/-- The failure as a report with its own message. A report stays as it is. An absent value is no
cause. -/
def toReport (context : ReportContext) (f : Failure) : Failure :=
  match f with
  | report .. => f
  | value .absent =>
    report f.reportCode context.title f.message (f.hint? context) none none .unknown
  | _ => report f.reportCode context.title f.message (f.hint? context) none (some f) .unknown

end Failure

end Bailiff
