import Verdict.Diagnostic
import Verdict.Options
import Verdict.Text.Seconds

/-! The report on a result.

It holds a diagnostic of the outcome, unless the outcome is that of errors or an unremarkable
success, and then one diagnostic for each error, ordered by location. In text they follow
a line with the outcome, which is written only where tracing is asked for. -/
namespace Verdict

def FailedCheck.concern : FailedCheck → Concern
  | assertion => .assertion
  | precondition _ => .precondition
  | postcondition _ => .postcondition
  | invariantEntry => .invariantEntry
  | invariantMaintenance => .invariantMaintenance

namespace Result

/-- A diagnostic of this result. -/
def diagnostic (r : Result) (concern : Concern) (location : Location) (message : String) :
    Diagnostic :=
  .make r.requestId r.implementation concern location message

/-- The checks that ran out of time on their own, ascending and each once. -/
def auxiliaryLocations (r : Result) : List Location :=
  (((r.counterexamples.filter (·.auxiliary)).map (·.location)).eraseDups).mergeSort Location.le

/-- The diagnostic of a run that ran out of time, which names the checks to blame. -/
def timeOutDiagnostic (r : Result) : Diagnostic :=
  let checks := r.auxiliaryLocations
  let n := checks.length
  let individually :=
    if n = 0 then ""
    else " with " ++ toString n ++ " check" ++ (if n = 1 then "" else "s") ++
      " that timed out individually"
  let message := "Verification of '" ++ r.implementation ++ "' timed out after " ++
    toString r.timeLimit ++ " seconds" ++ individually
  checks.foldl
    (fun d l => d.attach l "Unverified check due to timeout" (some Diagnostic.relatedLocation))
    (r.diagnostic .timeOut r.location message)

/-- The diagnostic of the outcome itself. -/
def outcomeDiagnostic? (r : Result) : Option Diagnostic :=
  let about := fun concern what =>
    some (r.diagnostic concern r.location ("Verification " ++ what ++ " (" ++ r.implementation ++ ")"))
  match r.outcome with
  | .correct =>
    r.verifiedMessage.map fun m => (r.diagnostic .verifier r.location m).withCategory "Info"
  | .reachedBound =>
    some ((r.diagnostic .verifier r.location "Stratified Inlining: Reached recursion bound").withCategory
      "Info")
  | .errors => none
  | .timedOut => some r.timeOutDiagnostic
  | .outOfResource => about .outOfResource "out of resource"
  | .outOfMemory => about .outOfMemory "out of memory"
  | .solverException => about .solverException "encountered solver exception"
  | .inconclusive => about .inconclusive "inconclusive"

/-- The clause of a contract that a counterexample is about, with what to say of it. -/
def clauseNote? : FailedCheck → Option (Location × String)
  | .precondition requires => some (requires, "This is the precondition that might not hold.")
  | .postcondition ensures => some (ensures, "This is the postcondition that might not hold.")
  | _ => none

/-- The diagnostic of one error: the clause it is about, then its related locations, then the
steps that lead to it. -/
def errorDiagnostic (r : Result) (c : Counterexample) : Diagnostic :=
  let d := r.diagnostic c.check.concern c.location c.describe
  let related := (clauseNote? c.check).toList ++ c.related
  let d := related.foldl (fun d n => d.attach n.1 n.2 (some Diagnostic.relatedLocation)) d
  c.trace.foldl (fun d s => d.attach s.location s.label (some Diagnostic.executionTrace)) d

/-- The diagnostics of the errors, by location; errors at one location keep their order. -/
def errorDiagnostics (r : Result) : List Diagnostic :=
  (r.errors.mergeSort fun a b => a.location.le b.location).map r.errorDiagnostic

/-- All diagnostics of the result, in the order in which they are reported. -/
def diagnostics (r : Result) : List Diagnostic :=
  r.outcomeDiagnostic?.toList ++ r.errorDiagnostics

/-- Effort and time, as far as they are to be traced. -/
def effort (r : Result) (o : Options) : String :=
  let obligations := toString r.proofObligations ++ " proof obligation" ++
    (if r.proofObligations = 1 then "" else "s") ++ "]  "
  if o.trace then
    "  [" ++ Text.seconds r.elapsed ++ " s, solver resource count: " ++ toString r.resourceCount ++
      ", " ++ obligations
  else if o.traceProofObligations then "  [" ++ obligations
  else ""

/-- The line with the outcome, where it is traced. -/
def outcomeLine (r : Result) (o : Options) : String :=
  if o.trace || o.traceProofObligations then
    r.effort o ++ r.outcome.indication r.errorCount ++ "\n"
  else ""

/-- The report in text. -/
def render (r : Result) (o : Options) : String :=
  r.outcomeLine o ++ String.join (r.diagnostics.map Diagnostic.render)

end Result

end Verdict
