import Verdict.Engine.Attempt

/-! The attempts that are made for one request at one time.

The endings of the attempts are awaited in the order of the batch, whatever the order in
which they come about. Once all are there the batch is concluded: what is left of its text is
written, a fatal ending is announced, and the report is made. The batch then leaves the
request. -/
namespace Verdict

/-- How far a batch has come. -/
inductive BatchStage
  | running
  | /-- The report, or why there is none, is known. -/
    concluded (r : Except EngineError BatchReport)
  | /-- It has left its request. -/ finished (r : Except EngineError BatchReport)
  deriving Repr

structure Batch where
  ticket : Ticket
  tray : Tray
  attempts : List Attempt
  /-- How the attempts that have been awaited ended, in the order of the batch. -/
  endings : List Ending
  stage : BatchStage
  deriving Repr

/-- A step of a batch, with what the engine's batches share. -/
abbrev BatchStep := Option (Shared × Batch)

namespace Batch

def scheduled (ticket : Ticket) (targets : List Target) : Batch where
  ticket := ticket
  tray := ⟨.zero, .withSlots targets.length⟩
  attempts := targets.map Attempt.scheduled
  endings := []
  stage := .running

/-- Adds the ending of the next attempt that is awaited. -/
def endWith (b : Batch) (e : Ending) : Batch := { b with endings := b.endings ++ [e] }

/-- Awaits the next attempt. One that broke down is noticed here: it counts as a fatal ending
without a text, and the request is to stop. -/
def await (s : Shared) (b : Batch) : BatchStep :=
  match b.stage, b.attempts[b.endings.length]? with
  | .running, some a =>
    match a.phase with
    | .ended e => some (s, b.endWith e)
    | .crashed reason =>
      let collector := b.tray.collector.add b.endings.length ""
      some ({ s with requests := s.requests.revoke b.ticket.token },
        { b with tray := { b.tray with collector } }.endWith
          (.fatal ("verification task failed: " ++ reason)))
    | _ => none
  | _, _ => none

def report (b : Batch) : BatchReport where
  requestId := b.ticket.requestId
  outcome := .ofEndings b.endings
  endings := b.endings
  statistics := b.tray.statistics

/-- What is written when a batch is over. -/
def closingLine : BatchOutcome → String
  | .fatal reason => "Fatal Error: ProverException: " ++ reason ++ "\n"
  | _ => ""

/-- The report, unless the sink refuses the rest of the text or the closing line. -/
def reported (b : Batch) (sink : Sink) : Except EngineError BatchReport × Collector × Sink :=
  match b.tray.collector.write sink with
  | (.error e, collector, sink) => (.error (.sink e), collector, sink)
  | (.ok _, collector, sink) =>
    match sink.write (closingLine b.report.outcome) with
    | (.error e, sink) => (.error (.sink e), collector, sink)
    | (.ok (), sink) => (.ok b.report, collector, sink)

/-- Concludes a batch whose attempts have all been awaited. -/
def conclude (s : Shared) (b : Batch) : BatchStep :=
  match b.stage with
  | .running =>
    if b.endings.length < b.attempts.length then none
    else
      let (r, collector, sink) := b.reported s.sink
      some ({ s with sink }, { b with tray := { b.tray with collector }, stage := .concluded r })
  | _ => none

/-- Drops the idle sessions when no batch is under way. -/
def releaseSessions (s : Shared) : Shared :=
  if s.requests.running = 0 then { s with pool := s.pool.clear.2 } else s

/-- Lets a concluded batch leave its request. -/
def finish (s : Shared) (b : Batch) : BatchStep :=
  match b.stage with
  | .concluded r =>
    some (releaseSessions
        { s with requests := s.requests.finish b.ticket.requestId b.ticket.token },
      { b with stage := .finished r })
  | _ => none

/-- The report of a batch that has finished. -/
def outcome? (b : Batch) : Option (Except EngineError BatchReport) :=
  match b.stage with
  | .finished r => some r
  | _ => none

end Batch

end Verdict
