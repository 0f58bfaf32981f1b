import Verdict.Analysis
import Verdict.Options
import Verdict.Output
import Verdict.Statistics

/-! How attempts and batches end, and why an engine refuses a request. -/
namespace Verdict

/-- How the attempt to verify one implementation ends. -/
inductive Ending
  | completed (r : Result)
  | cancelled
  | fatal (reason : String)
  deriving DecidableEq, Repr

namespace Ending

def result? : Ending → Option Result
  | completed r => some r
  | _ => none

def fatal? : Ending → Option String
  | fatal reason => some reason
  | _ => none

def isFatal (e : Ending) : Bool := e.fatal?.isSome

end Ending

inductive BatchOutcome
  | completed
  | cancelled
  | fatal (reason : String)
  deriving DecidableEq, Repr

/-- The outcome of a batch: the first fatal ending decides, then any cancelled one. -/
def BatchOutcome.ofEndings (endings : List Ending) : BatchOutcome :=
  match endings.findSome? Ending.fatal? with
  | some reason => fatal reason
  | none => if .cancelled ∈ endings then cancelled else completed

structure BatchReport where
  requestId : String
  outcome : BatchOutcome
  /-- How each attempt ended, in the order of the batch. -/
  endings : List Ending
  statistics : Statistics
  deriving DecidableEq, Repr

namespace BatchReport

def results (r : BatchReport) : List Result := r.endings.filterMap Ending.result?

def summary (r : BatchReport) : String := r.statistics.summary

end BatchReport

/-- Why an engine cannot do what it is asked for. -/
inductive EngineError
  | invalidOptions (reason : Options.Invalid)
  | unknownDeclaration (id : DeclId)
  | notAnImplementation (id : DeclId) (name kind : String)
  | sink (e : SinkError)
  deriving DecidableEq, Repr

def EngineError.message (e : EngineError) : String :=
  "engine error: " ++
    match e with
    | invalidOptions reason => reason.message
    | unknownDeclaration id => "unknown declaration " ++ toString id
    | notAnImplementation id name kind =>
      "'" ++ name ++ "' (" ++ toString id ++ ") is a " ++ kind ++ ", not an implementation"
    | sink e => e.message

end Verdict
