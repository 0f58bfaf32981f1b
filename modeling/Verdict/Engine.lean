import Verdict.Engine.Batch
import Verdict.Engine.RequestId
import Verdict.Engine.Selection

/-! An engine that verifies implementations, many at a time.

The engine is a machine of small steps. A `Move` names the next one: a batch is submitted, an
attempt goes on, a session has been opened, a verifier has answered, a batch is brought to
its end, a request is cancelled. Every order of moves that `step` allows is a run of the
engine; who makes the moves, and in which order, is left open here. -/
namespace Verdict

structure AttemptId where
  batch : Nat
  slot : Nat
  deriving DecidableEq, Repr

structure Engine where
  shared : Shared
  /-- All batches ever submitted, in order. -/
  batches : List Batch
  /-- How many request ids have been made up. -/
  requestIds : Nat
  deriving Repr

/-- A step of an engine. -/
inductive Move
  | /-- A batch begins. -/
    submit (requestId : String) (analysis : Analysis) (targets : List Target)
  | /-- An attempt takes a step of its own. -/ advance (attempt : AttemptId)
  | /-- The session that an attempt waits for has been opened, or not. -/
    opened (attempt : AttemptId) (outcome : Except Fault Unit)
  | /-- The verifier has answered. -/ answered (attempt : AttemptId) (answer : Answer)
  | /-- A batch awaits its next attempt. -/ await (batch : Nat)
  | conclude (batch : Nat)
  | finish (batch : Nat)
  | cancel (requestId : String)
  | clearCache
  | /-- The sink breaks, or works again. -/ breakSink (broken : Bool)
  deriving Repr

namespace Engine

/-- An engine with these options, if they are valid. -/
def create (o : Options) : Except EngineError Engine :=
  match o.invalid? with
  | some reason => .error (.invalidOptions reason)
  | none => .ok ⟨.fresh o, [], 0⟩

/-- Makes up a request id. -/
def freshRequestId (e : Engine) : String × Engine :=
  (RequestId.numbered (e.requestIds + 1), { e with requestIds := e.requestIds + 1 })

/-- The target with this id. -/
def target (a : Analysis) (id : DeclId) : Except EngineError Target :=
  match a.program.get? id with
  | none => .error (.unknownDeclaration id)
  | some d =>
    match d.implementation? with
    | some i => .ok ⟨id, d, i⟩
    | none => .error (.notAnImplementation id d.name d.kindName)

/-- The targets with these ids; the first id that is not one of an implementation is at
fault. -/
def targets (a : Analysis) (ids : List DeclId) : Except EngineError (List Target) :=
  ids.mapM (target a)

/-- The analysis that a batch works with: one with a dependency graph, if there is something
to prune. -/
def prepare (o : Options) (a : Analysis) : Analysis := if o.prune then a.ensureGraph.2 else a

/-- Lets a batch join its request and schedules its attempts. -/
def submit (e : Engine) (requestId : String) (a : Analysis) (targets : List Target) : Engine :=
  let (token, requests) := e.shared.requests.join requestId
  let ticket : Ticket := ⟨requestId, token, prepare e.shared.options a⟩
  { e with
    shared := { e.shared with requests }
    batches := e.batches ++ [.scheduled ticket targets] }

/-- Submits a batch of the implementations with these ids; if an id is not one of an
implementation, nothing is submitted. -/
def schedule (e : Engine) (requestId : String) (a : Analysis) (ids : List DeclId) :
    Except EngineError Unit × Engine :=
  match targets a ids with
  | .error reason => (.error reason, e)
  | .ok targets => (.ok (), e.submit requestId a targets)

/-- Submits a batch of all implementations of a program that are wanted, under a request id
that is made up for it. -/
def verify (e : Engine) (a : Analysis) : Except EngineError Unit × Engine :=
  let (requestId, numbered) := e.freshRequestId
  numbered.schedule requestId a (e.shared.select a)

/-- Takes a step of a batch. -/
def onBatch (e : Engine) (i : Nat) (step : Shared → Batch → BatchStep) : Option Engine := do
  let b ← e.batches[i]?
  let (shared, b) ← step e.shared b
  return { e with shared, batches := e.batches.set i b }

def attempt? (e : Engine) (id : AttemptId) : Option Attempt :=
  e.batches[id.batch]?.bind fun b => b.attempts[id.slot]?

/-- Takes a step of an attempt. -/
def onAttempt (e : Engine) (id : AttemptId)
    (step : Ticket → Shared → Tray → Attempt → AttemptStep) : Option Engine :=
  e.onBatch id.batch fun s b => do
    let a ← b.attempts[id.slot]?
    let (s, tray, a) ← step b.ticket s b.tray a
    return (s, { b with tray, attempts := b.attempts.set id.slot a })

/-- Cancels a request and says whether it was under way. -/
def cancel (e : Engine) (requestId : String) : Bool × Engine :=
  let (found, requests) := e.shared.requests.cancel requestId
  (found, { e with shared := { e.shared with requests } })

/-- Makes a move, if it is possible. -/
def step (e : Engine) : Move → Option Engine
  | .submit requestId a targets => some (e.submit requestId a targets)
  | .advance id => e.onAttempt id fun k => Attempt.advance k id.slot
  | .opened id outcome => e.onAttempt id fun k => Attempt.opened k outcome
  | .answered id answer => e.onAttempt id fun k => Attempt.answered k answer
  | .await i => e.onBatch i Batch.await
  | .conclude i => e.onBatch i Batch.conclude
  | .finish i => e.onBatch i Batch.finish
  | .cancel requestId => some (e.cancel requestId).2
  | .clearCache => some { e with shared := { e.shared with cache := e.shared.cache.clear } }
  | .breakSink broken =>
    some { e with shared := { e.shared with sink := { e.shared.sink with broken } } }

/-- Makes moves one after the other, if all are possible. -/
def run (e : Engine) : List Move → Option Engine
  | [] => some e
  | m :: rest => (e.step m).bind fun e => e.run rest

/-- Whether an attempt is to stop. -/
def isCancelled (e : Engine) (id : AttemptId) : Bool :=
  e.batches[id.batch]?.any fun b => b.attempts[id.slot]?.any (b.ticket.isCancelled e.shared)

/-- Writes the line that closes the verification of a whole program, unless that ended
fatally. -/
def signOff (e : Engine) (r : BatchReport) : Except EngineError BatchReport × Engine :=
  match r.outcome with
  | .fatal _ => (.ok r, e)
  | _ =>
    let (written, sink) := e.shared.sink.write ("\n" ++ r.summary ++ "\n")
    let e := { e with shared := { e.shared with sink } }
    match written with
    | .ok () => (.ok r, e)
    | .error reason => (.error (.sink reason), e)

end Engine

end Verdict
