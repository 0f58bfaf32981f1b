import Verdict.Fault
import Verdict.Outcome
import Verdict.Program

/-! What a verifier is given, and what it may answer. -/
namespace Verdict

/-- An implementation that is to be verified. -/
structure Target where
  id : DeclId
  declaration : Declaration
  implementation : Implementation
  deriving Repr

/-- All that a verifier is told about a target. -/
structure Job where
  requestId : String
  program : Program
  implementation : DeclId
  name : String
  /-- The body without the where-clauses that it does not need. -/
  blocks : List Block
  /-- The declarations that the body needs. -/
  declarations : List DeclId
  /-- In seconds; 0 means none. -/
  timeLimit : Nat
  deriving Repr

/-- What a verifier found out. -/
structure Findings where
  outcome : Outcome
  counterexamples : List Counterexample
  resourceCount : Nat
  proofObligations : Nat
  deriving DecidableEq, Repr

/-- Nothing but an outcome. -/
def Findings.bare (outcome : Outcome) : Findings := ⟨outcome, [], 0, 0⟩

/-- What is known of a job without a solver: how many assertions it has. -/
def Job.unsolved (j : Job) : Findings :=
  { Findings.bare .inconclusive with
    proofObligations := ((Block.commands j.blocks).filter Cmd.isAssertion).length }

/-- How a verifier's work on a job ends. -/
inductive Answer
  | /-- With findings, after so many nanoseconds. -/ findings (f : Findings) (elapsed : Nat)
  | fault (f : Fault)
  | /-- Not at all: the verifier broke down. Nothing else that an attempt calls is taken to. -/
    crash (reason : String)
  deriving DecidableEq, Repr

end Verdict
