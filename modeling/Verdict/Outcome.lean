import Verdict.Checksum
import Verdict.Location

/-! What verifying one implementation comes to.

A run ends with an outcome and with counterexamples, each a check that might not hold. A
check that only explains why time ran out is auxiliary and counts as no error. -/
namespace Verdict

inductive Outcome
  | correct
  | errors
  | timedOut
  | outOfResource
  | outOfMemory
  | inconclusive
  | solverException
  | reachedBound
  deriving DecidableEq, Repr

/-- The word for an outcome in the trace, where `n` errors were found. -/
def Outcome.indication (o : Outcome) (n : Nat) : String :=
  match o with
  | correct | reachedBound => "verified"
  | errors => if n = 1 then "error" else "errors"
  | timedOut => "timed out"
  | outOfResource => "out of resource"
  | outOfMemory => "out of memory"
  | inconclusive => "inconclusive"
  | solverException => "solver exception"

/-- The check that failed; a contract's clause comes with its own location. -/
inductive FailedCheck
  | assertion
  | precondition (requires : Location)
  | postcondition (ensures : Location)
  | invariantEntry
  | invariantMaintenance
  deriving DecidableEq, Repr

/-- What is said of a failed check that brings no message of its own. -/
def FailedCheck.describe : FailedCheck → String
  | assertion => "This assertion might not hold."
  | precondition _ => "A precondition for this call might not hold."
  | postcondition _ => "A postcondition might not hold on this return path."
  | invariantEntry => "This loop invariant might not hold on entry."
  | invariantMaintenance => "This loop invariant might not be maintained by the loop."

structure TraceStep where
  location : Location
  label : String
  deriving DecidableEq, Repr

structure Counterexample where
  check : FailedCheck
  location : Location
  message : Option String
  related : List (Location × String)
  trace : List TraceStep
  auxiliary : Bool
  deriving DecidableEq, Repr

def Counterexample.describe (c : Counterexample) : String :=
  c.message.getD c.check.describe

/-- The result of one implementation for one request. -/
structure Result where
  requestId : String
  implementation : String
  location : Location
  checksum : Option Checksum
  dependencyChecksum : Option Checksum
  outcome : Outcome
  counterexamples : List Counterexample
  /-- The time the run took, in nanoseconds. -/
  elapsed : Nat
  resourceCount : Nat
  proofObligations : Nat
  /-- The time limit in seconds that the run was given; 0 means none. -/
  timeLimit : Nat
  wasCached : Bool
  verifiedMessage : Option String
  deriving DecidableEq, Repr

namespace Result

/-- The counterexamples that count as errors. -/
def errors (r : Result) : List Counterexample :=
  r.counterexamples.filter fun c => !c.auxiliary

def errorCount (r : Result) : Nat := r.errors.length

theorem errorCount_eq (r : Result) : r.errorCount = r.counterexamples.countP (!·.auxiliary) :=
  List.countP_eq_length_filter.symm

end Result

end Verdict
