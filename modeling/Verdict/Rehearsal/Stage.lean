import Verdict.Rehearsal.Script

/-! Engines that share a scripted verifier, a sink, and perhaps a cache.

The moves of the engines are made in a fixed order. In a round, each attempt of each batch
takes all the steps it can, one attempt after the other, and a batch is brought to its end
once its attempts have come to theirs. -/
namespace Verdict.Rehearsal

structure Stage where
  engines : List (Except EngineError Engine)
  programs : List Analysis
  sharesCache : Bool
  /-- The cache of all engines, where they share one. -/
  cache : Cache
  sink : Sink
  reported : List Diagnostic
  verifier : Verifier

namespace Stage

def create (options : List Options) (programs : List Program) (sharesCache : Bool)
    (script : Script) : Stage where
  engines := options.map Engine.create
  programs := programs.map .ofProgram
  sharesCache := sharesCache
  cache := .fresh
  sink := .empty
  reported := []
  verifier := .ofScript script

/-- An engine as it stands, with what it shares with the others. -/
def engine? (s : Stage) (k : Nat) : Option (Except EngineError Engine) :=
  s.engines[k]?.map fun found => found.map fun e =>
    { e with shared := { e.shared with
      sink := s.sink
      reported := s.reported
      cache := if s.sharesCache then s.cache else e.shared.cache } }

/-- Puts an engine back after it has moved. -/
def put (s : Stage) (k : Nat) (e : Engine) : Stage :=
  { s with
    engines := s.engines.set k (.ok e)
    sink := e.shared.sink
    reported := e.shared.reported
    cache := e.shared.cache }

/-- The next move of an attempt, as the verifier has it. -/
def move? (v : Verifier) (k : Nat) (e : Engine) (id : AttemptId) : Option (Move × Verifier) := do
  let a ← e.attempt? id
  match a.phase with
  | .opening =>
    let (outcome, v) := v.openSession
    return (.opened id outcome, v)
  | .verifying _ _ =>
    if e.isCancelled id then return (.advance id, v)
    else
      let call ← v.calls.find? fun c => c.engine = k && c.attempt = id
      let (answer, v) ← v.answer? call
      return (.answered id answer, v)
  | _ => return (.advance id, v)

/-- Tells the verifier of a call that an attempt has just begun. -/
def noteCall (v : Verifier) (k : Nat) (before after : Engine) (id : AttemptId) : Verifier :=
  match (before.attempt? id).map Attempt.phase, (after.attempt? id).map Attempt.phase with
  | some (.equipped _), some (.verifying _ job) => v.start k id job
  | _, _ => v

/-- Lets an attempt take at most so many steps. -/
def drive (v : Verifier) (k : Nat) (e : Engine) (id : AttemptId) : Nat → Verifier × Engine
  | 0 => (v, e)
  | steps + 1 =>
    match move? v k e id with
    | none => (v, e)
    | some (m, moved) =>
      match e.step m with
      | none => (v, e)
      | some after => drive (noteCall moved k e after id) k after id steps

/-- Lets the attempts of a batch take the steps they can, in order. -/
def driveBatch (v : Verifier) (k : Nat) (e : Engine) (i : Nat) : Verifier × Engine :=
  let slots := List.range ((e.batches[i]?.map (·.attempts.length)).getD 0)
  let (v, e) := slots.foldl (fun (v, e) slot =>
    let id := ⟨i, slot⟩
    drive v k e id (((e.attempt? id).map (·.phase.stepsLeft)).getD 0)) (v, e)
  let moves := slots.map (fun _ => Move.await i) ++ [.conclude i, .finish i]
  (v, moves.foldl (fun e m => (e.step m).getD e) e)

/-- Lets an engine take the steps it can. -/
def driveEngine (s : Stage) (k : Nat) : Stage :=
  match s.engine? k with
  | some (.ok e) =>
    let (v, e) := (List.range e.batches.length).foldl
      (fun (v, e) i => driveBatch v k e i) (s.verifier, e)
    { s.put k e with verifier := v }
  | _ => s

/-- A round of all engines. -/
def round (s : Stage) : Stage := (List.range s.engines.length).foldl driveEngine s

end Stage

end Verdict.Rehearsal
