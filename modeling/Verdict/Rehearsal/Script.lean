import Verdict.Engine

/-! A verifier that follows a script.

The script says, for each implementation, what the verifier does when it is called for the
first time, the second time, and so on; the last entry holds for all later calls. Before it
acts, a call may wait until so many calls have started and so many have finished, over all
engines. Sessions are scripted in the same way. -/
namespace Verdict.Rehearsal

/-- What a call of the verifier comes to. -/
inductive Act
  | findings (f : Findings)
  | fault (f : Fault)
  | /-- No answer until the call is cancelled. -/ hang
  | crash (reason : String)
  | /-- The answer that needs no solver. -/ unsolved
  deriving Repr

/-- An act, and what a call waits for before it. -/
structure Cue where
  started : Nat
  finished : Nat
  act : Act
  deriving Repr

namespace Cue

/-- What happens where nothing is scripted. -/
def correct : Cue := ⟨0, 0, .findings (.bare .correct)⟩

end Cue

structure Script where
  /-- The cues for each implementation. -/
  cues : List (String × List Cue)
  /-- The fault that comes of opening a session, if any does. -/
  openings : List (Option Fault)
  deriving Repr

/-- The entry at place `n`, counted from 0, of a list whose last entry is repeated. -/
def nthOrLast? {α : Type} (entries : List α) (n : Nat) : Option α := entries[n]?.or entries.getLast?

/-- A call of the verifier. -/
structure Call where
  engine : Nat
  attempt : AttemptId
  job : Job
  /-- Counted from 1 for each implementation. -/
  number : Nat
  deriving Repr

/-- The verifier, with what has happened so far. -/
structure Verifier where
  script : Script
  /-- How often a session was to be opened. -/
  openings : Nat
  /-- The calls that have started, in order. -/
  calls : List Call
  /-- How many calls have finished. -/
  finished : Nat
  deriving Repr

namespace Verifier

def ofScript (s : Script) : Verifier := ⟨s, 0, [], 0⟩

def started (v : Verifier) : Nat := v.calls.length

/-- Opens a session. -/
def openSession (v : Verifier) : Except Fault Unit × Verifier :=
  let outcome := match (nthOrLast? v.script.openings v.openings).join with
    | some f => .error f
    | none => .ok ()
  (outcome, { v with openings := v.openings + 1 })

/-- Starts a call. -/
def start (v : Verifier) (engine : Nat) (attempt : AttemptId) (job : Job) : Verifier :=
  let earlier := v.calls.countP (·.job.name = job.name)
  { v with calls := v.calls ++ [⟨engine, attempt, job, earlier + 1⟩] }

/-- The cue that a call follows. -/
def cue (v : Verifier) (c : Call) : Cue :=
  ((v.script.cues.lookup c.job.name).bind fun cues => nthOrLast? cues (c.number - 1)).getD .correct

/-- The answer to a call that is made, once it is there. A call that breaks down does not
finish. -/
def answer? (v : Verifier) (c : Call) : Option (Answer × Verifier) :=
  let cue := v.cue c
  if v.started < cue.started || v.finished < cue.finished then none
  else
    let done := { v with finished := v.finished + 1 }
    match cue.act with
    | .findings f => some (.findings f 0, done)
    | .fault f => some (.fault f, done)
    | .unsolved => some (.findings c.job.unsolved 0, done)
    | .crash reason => some (.crash reason, v)
    | .hang => none

end Verifier

end Verdict.Rehearsal
