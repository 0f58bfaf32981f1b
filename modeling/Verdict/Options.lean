/-! The options of a verification engine, and what makes them valid. -/
namespace Verdict

/-- Which results the cache may serve. -/
inductive CacheMode
  | off
  | on
  | correctOnly
  deriving DecidableEq, Repr

structure Options where
  prune : Bool
  cacheMode : CacheMode
  maxThreads : Nat
  maxConcurrentUnits : Option Nat
  /-- The stack of a verification thread, in bytes. -/
  stackSize : Nat
  /-- The time limit of one implementation, in seconds; 0 means none. -/
  timeLimit : Nat
  trace : Bool
  traceProofObligations : Bool
  /-- Patterns of the implementations to verify; none stands for all. -/
  checkOnly : List String
  logFilter : String
  deriving DecidableEq, Repr

namespace Options

/-- The options where nothing is asked for, on a machine with this many threads. -/
def standard (threads : Nat) : Options where
  prune := true
  cacheMode := .off
  maxThreads := threads
  maxConcurrentUnits := none
  stackSize := 16 * 1024 * 1024
  timeLimit := 0
  trace := false
  traceProofObligations := false
  checkOnly := []
  logFilter := "info"

/-- The least stack that a thread may have. -/
def leastStack : Nat := 1024 * 1024

/-- Why options are refused. -/
inductive Invalid
  | noThreads
  | noUnits
  | stackTooSmall (size : Nat)
  deriving DecidableEq, Repr

def Invalid.message : Invalid → String
  | noThreads => "max_threads must be at least 1"
  | noUnits => "max_concurrent_units must be at least 1"
  | stackTooSmall size =>
    "stack_size must be at least " ++ toString leastStack ++ " bytes, got " ++ toString size

/-- The first reason to refuse the options. -/
def invalid? (o : Options) : Option Invalid :=
  if o.maxThreads = 0 then some .noThreads
  else if o.maxConcurrentUnits = some 0 then some .noUnits
  else if o.stackSize < leastStack then some (.stackTooSmall o.stackSize)
  else none

/-- How many units may run at a time: one at least, and as many as there are threads where
nothing else is said. -/
def unitLimit (o : Options) : Nat := max 1 (o.maxConcurrentUnits.getD o.maxThreads)

end Options

end Verdict
