import Verdict.Diagnostic
import Verdict.Engine.Ending
import Verdict.Engine.Job

/-! How far an attempt to verify one implementation has come.

An attempt goes through its phases in a fixed order. It enters the roster, looks for a
current result in the cache, and otherwise waits for a permit, gets hold of a session, has the
verifier work on its job, gives the session back, keeps the result, reports it and returns the
permit. It then leaves the roster, stops its siblings if it ended fatally, and hands in its
text. -/
namespace Verdict

/-- A result that is still to be reported, and what to say ahead of it. -/
structure Pending where
  result : Result
  preface : String
  diagnostics : List Diagnostic
  deriving DecidableEq, Repr

/-- How an attempt ended and the text that it leaves. -/
structure Closing where
  ending : Ending
  text : String
  deriving DecidableEq, Repr

namespace Closing

def cancelled : Closing := ⟨.cancelled, ""⟩

end Closing

/-- How far an attempt has come. -/
inductive Phase
  | scheduled
  | entered
  | /-- The cache does not serve it; it waits for a permit. -/ queued
  | /-- It has a permit and wants a session. -/ admitted
  | /-- No session was idle, so one is being opened. -/ opening
  | equipped (session : Nat)
  | verifying (session : Nat) (job : Job)
  | /-- It has its result; the session is back. -/ answered (r : Result)
  | reporting (p : Pending) (permit : Bool)
  | /-- All is said; a permit may still have to be returned. -/
    settled (c : Closing) (permit : Bool)
  | /-- It holds nothing any more. -/ idle (c : Closing)
  | /-- It has left the roster. -/ retired (c : Closing)
  | /-- It has stopped its siblings if need be. -/ announced (c : Closing)
  | /-- Its text is in its slot. -/ delivered (e : Ending)
  | ended (e : Ending)
  | /-- The verifier broke down under it. -/ crashed (reason : String)
  deriving Repr

namespace Phase

/-- The session that is checked out in this phase. -/
def session? : Phase → Option Nat
  | equipped s | verifying s _ => some s
  | _ => none

/-- Whether a session is being opened in this phase. -/
def isOpening : Phase → Bool
  | opening => true
  | _ => false

/-- Whether a permit is held in this phase. -/
def holdsPermit : Phase → Bool
  | admitted | opening | equipped _ | verifying .. | answered _ => true
  | reporting _ permit | settled _ permit => permit
  | _ => false

/-- A bound on the steps that are left. -/
def stepsLeft : Phase → Nat
  | scheduled => 14
  | entered => 13
  | queued => 12
  | admitted => 11
  | opening => 10
  | equipped _ => 9
  | verifying .. => 8
  | answered _ => 7
  | reporting .. => 6
  | settled .. => 5
  | idle _ => 4
  | retired _ => 3
  | announced _ => 2
  | delivered _ => 1
  | ended _ | crashed _ => 0

end Phase

end Verdict
