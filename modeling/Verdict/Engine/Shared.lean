import Verdict.Cache
import Verdict.Engine.Ending
import Verdict.Engine.Requests
import Verdict.Engine.Roster
import Verdict.Report
import Verdict.SessionPool

/-! What the attempts of an engine share: its options, the results kept so far, idle
sessions, the permits to use one, who is running for whom, and where text and diagnostics
go. -/
namespace Verdict

structure Shared where
  options : Options
  cache : Cache
  /-- Idle sessions, each named by how many had been opened before it. -/
  pool : SessionPool Nat
  /-- How many more attempts may work at the moment. -/
  permits : Nat
  requests : RequestTable
  roster : Roster
  sink : Sink
  /-- The diagnostics reported so far, in order. -/
  reported : List Diagnostic
  deriving Repr

namespace Shared

/-- What an engine with these options starts with. -/
def fresh (o : Options) : Shared where
  options := o
  cache := .fresh
  pool := .empty
  permits := o.unitLimit
  requests := .empty
  roster := .empty
  sink := .empty
  reported := []

/-- Whether results are kept and served at all. -/
def usesCache (s : Shared) : Bool := s.options.cacheMode ≠ .off

/-- Whether the run of this generation, for the request with this token, is to stop. -/
def isCancelled (s : Shared) (token generation : Nat) : Bool :=
  s.requests.isRevoked token || s.roster.isSuperseded generation

end Shared

/-- Whether a mode lets a current result be served. -/
def CacheMode.serves (mode : CacheMode) (r : Result) : Bool :=
  match mode with
  | off => false
  | on => true
  | correctOnly => r.outcome = .correct

/-- How the cache knows the declaration `id` of a program, under the name it is given. -/
def Analysis.key (a : Analysis) (id : DeclId) (name : String) : CacheKey :=
  ⟨name, (a.checksum id).1, (a.dependencyChecksum id).1⟩

end Verdict
