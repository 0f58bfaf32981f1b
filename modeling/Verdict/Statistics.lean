import Verdict.Outcome

/-! Counts of a batch, and the line that closes it.

A run with errors counts once for every error, any other run once. What was served from the
cache is counted a second time on its own. -/
namespace Verdict

/-- A count for each class of outcomes. -/
structure Tally where
  verified : Nat
  errors : Nat
  inconclusive : Nat
  timedOut : Nat
  outOfResource : Nat
  outOfMemory : Nat
  solverExceptions : Nat
  deriving DecidableEq, Repr

namespace Tally

def zero : Tally := ⟨0, 0, 0, 0, 0, 0, 0⟩

/-- Counts a run that ended with `outcome` and found this many errors. -/
def record (t : Tally) (outcome : Outcome) (errors : Nat) : Tally :=
  match outcome with
  | .correct | .reachedBound => { t with verified := t.verified + 1 }
  | .errors => { t with errors := t.errors + errors }
  | .timedOut => { t with timedOut := t.timedOut + 1 }
  | .outOfResource => { t with outOfResource := t.outOfResource + 1 }
  | .outOfMemory => { t with outOfMemory := t.outOfMemory + 1 }
  | .solverException => { t with solverExceptions := t.solverExceptions + 1 }
  | .inconclusive => { t with inconclusive := t.inconclusive + 1 }

/-- The counts, in the order in which they are shown. -/
def counts (t : Tally) : List Nat :=
  [t.verified, t.errors, t.inconclusive, t.timedOut, t.outOfResource, t.outOfMemory,
    t.solverExceptions]

def total (t : Tally) : Nat :=
  t.verified + t.errors + t.inconclusive + t.timedOut + t.outOfResource + t.outOfMemory +
    t.solverExceptions

/-- A count with its noun, which gets an s unless the count is one. -/
def plural (n : Nat) (noun : String) : String :=
  toString n ++ " " ++ noun ++ if n = 1 then "" else "s"

/-- A part of the summary that is left out when there is nothing to count. -/
def unlessZero (n : Nat) (part : String) : List String := if n = 0 then [] else [part]

/-- The counts in words. Verified implementations and errors are always named. -/
def words (t : Tally) : String :=
  ", ".intercalate <|
    [toString t.verified ++ " verified", plural t.errors "error"] ++
      unlessZero t.inconclusive (toString t.inconclusive ++ " inconclusive") ++
      unlessZero t.timedOut (plural t.timedOut "time out") ++
      unlessZero t.outOfResource (toString t.outOfResource ++ " out of resource") ++
      unlessZero t.outOfMemory (toString t.outOfMemory ++ " out of memory") ++
      unlessZero t.solverExceptions (plural t.solverExceptions "solver exception")

end Tally

/-- The counts of all runs, and of those served from the cache. -/
structure Statistics where
  all : Tally
  cached : Tally
  deriving DecidableEq, Repr

namespace Statistics

def zero : Statistics := ⟨.zero, .zero⟩

instance : Inhabited Statistics := ⟨zero⟩

def record (s : Statistics) (outcome : Outcome) (errors : Nat) (cached : Bool) : Statistics where
  all := s.all.record outcome errors
  cached := if cached then s.cached.record outcome errors else s.cached

/-- The line that closes a batch. -/
def summary (s : Statistics) : String :=
  "prova finished with " ++ s.all.words ++
    if s.cached.total = 0 then "" else " [cached: " ++ s.cached.words ++ "]"

end Statistics

end Verdict
