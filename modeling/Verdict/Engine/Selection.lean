import Verdict.Engine.Shared
import Verdict.Wildcard

/-! Which implementations of a program to verify, and in what order.

An implementation is wanted unless it is marked as not to be verified or the patterns of the
options pass it over. A priority of its own comes first; without one the cache decides, if it
is in use. Equal priorities keep the order of declaration. -/
namespace Verdict

/-- Whether the options ask for a declaration of this kind and name. -/
def Options.wants (o : Options) (d : Declaration) : Bool :=
  d.implementation?.isSome && !d.isSkipped && Wildcard.acceptsAny o.checkOnly d.name

namespace Shared

/-- The priority of an implementation. That of 1 is the same as none. -/
def priority (s : Shared) (a : Analysis) (id : DeclId) (d : Declaration) : Int :=
  if d.priority ≠ 1 then d.priority
  else if s.usesCache then (s.cache.urgency (a.key id d.name)).weight
  else Urgency.unverified.weight

/-- The wanted implementations with their priorities, in the order of declaration. -/
def wanted (s : Shared) (a : Analysis) : List (DeclId × Int) :=
  a.program.ids.filterMap fun id =>
    ((a.program.get? id).filter s.options.wants).map fun d => (id, s.priority a id d)

/-- The implementations to verify, those of high priority first. -/
def select (s : Shared) (a : Analysis) : List DeclId :=
  ((s.wanted a).mergeSort fun x y => y.2 ≤ x.2).map Prod.fst

end Shared

end Verdict
