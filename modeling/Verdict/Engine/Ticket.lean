import Verdict.Engine.Phase
import Verdict.Engine.Shared

/-! An attempt and the batch that it is made for: what the verifier is asked, and what is made
of what it answers. -/
namespace Verdict

structure Attempt where
  target : Target
  /-- Its number among the runs of the engine, once it has begun. -/
  generation : Option Nat
  phase : Phase
  deriving Repr

namespace Attempt

def scheduled (t : Target) : Attempt := ⟨t, none, .scheduled⟩

def name (a : Attempt) : String := a.target.declaration.name

def moved (a : Attempt) (p : Phase) : Attempt := { a with phase := p }

end Attempt

/-- What the attempts of a batch have in common. -/
structure Ticket where
  requestId : String
  token : Nat
  analysis : Analysis
  deriving Repr

namespace Ticket

def isCancelled (k : Ticket) (s : Shared) (a : Attempt) : Bool :=
  a.generation.any (s.isCancelled k.token)

def key (k : Ticket) (a : Attempt) : CacheKey := k.analysis.key a.target.id a.name

/-- The time limit of an attempt: its own, or else that of the engine. -/
def timeLimit (o : Options) (a : Attempt) : Nat :=
  a.target.declaration.timeLimit?.getD o.timeLimit

def job (k : Ticket) (o : Options) (a : Attempt) : Job :=
  let (declarations, body) :=
    k.analysis.prune o.prune a.target.id (some a.target.implementation.blocks)
  { requestId := k.requestId
    program := k.analysis.program
    implementation := a.target.id
    name := a.name
    blocks := body.getD a.target.implementation.blocks
    declarations
    timeLimit := timeLimit o a }

def result (k : Ticket) (o : Options) (a : Attempt) (f : Findings) (elapsed : Nat) : Result :=
  let key := k.key a
  { requestId := k.requestId
    implementation := a.name
    location := a.target.declaration.location
    checksum := key.checksum
    dependencyChecksum := key.dependencyChecksum
    outcome := f.outcome
    counterexamples := f.counterexamples
    elapsed
    resourceCount := f.resourceCount
    proofObligations := f.proofObligations
    timeLimit := timeLimit o a
    wasCached := false
    verifiedMessage := a.target.declaration.verifiedMessage? }

/-- The line that announces an attempt, where it is traced. -/
def heading (o : Options) (a : Attempt) : String :=
  if o.trace then "Verifying " ++ a.name ++ " ...\n" else ""

/-- What is left to do with a result from the cache. -/
def served (k : Ticket) (o : Options) (a : Attempt) (r : Result) : Pending where
  result := { r with requestId := k.requestId }
  preface :=
    if o.trace then
      "Retrieving cached verification result for implementation " ++ a.name ++ "...\n"
    else ""
  diagnostics := []

/-- The diagnostic of a target for which no condition could be generated. -/
def generationDiagnostic (k : Ticket) (a : Attempt) (reason : String) : Diagnostic :=
  .make k.requestId a.name .verifier a.target.declaration.location
    (reason ++ " (encountered in implementation " ++ a.name ++ ").")

/-- What is left to do after a fault. The loss of the solver leaves no result; any other
fault is put down to an outcome, with a word on why. -/
def afterFault (k : Ticket) (o : Options) (a : Attempt) (f : Fault) : Phase :=
  let pending := fun outcome preface diagnostics =>
    Phase.reporting ⟨k.result o a (.bare outcome) 0, preface, diagnostics⟩ true
  match f with
  | .solverDied reason => .settled ⟨.fatal reason, heading o a⟩ true
  | .unexpectedOutput text =>
    pending .inconclusive
      ("Advisory: " ++ a.name ++ " SKIPPED because of internal error: unexpected prover output: " ++
        text ++ "\n") []
  | .io reason =>
    pending .solverException
      ("Advisory: " ++ a.name ++ " SKIPPED due to I/O exception: " ++ reason ++ "\n") []
  | .generation reason =>
    let d := k.generationDiagnostic a reason
    pending .inconclusive d.render [d]

end Ticket

end Verdict
