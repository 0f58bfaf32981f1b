/-! Why a verifier gives no answer. Only the loss of the solver ends a whole batch. -/
namespace Verdict

inductive Fault
  | solverDied (reason : String)
  | unexpectedOutput (text : String)
  | io (reason : String)
  | generation (reason : String)
  deriving DecidableEq, Repr

namespace Fault

def message : Fault → String
  | solverDied reason => "solver communication failed: " ++ reason
  | unexpectedOutput text => "unexpected prover output: " ++ text
  | io reason => "I/O error: " ++ reason
  | generation reason => reason

def isFatal : Fault → Bool
  | solverDied _ => true
  | _ => false

end Fault

end Verdict
