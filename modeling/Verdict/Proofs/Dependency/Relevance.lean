import Mathlib.Logic.Relation
import Verdict.Dependency.Graph
import Verdict.Proofs.Closure
import Verdict.Proofs.Expr.Occurrence
import Verdict.Proofs.Program
import Verdict.Proofs.SetFamily.Search

/-! Relevance between declarations, and the graph that decides it.

`Outgoing` and `Incoming` say what an axiom or a function mentions and which sets of
mentions make it relevant, without the nodes, the families and the tree that hold them. An
axiom or a function is relevant (`Relevant`) to whoever mentions all of one of its incoming
sets; `Chain` is relevance at any distance. The graph that is built from a program reaches
exactly what a chain leads to (`mem_reachable_iff`). -/
namespace Verdict

namespace Program

theorem mem_references_iff (p : Program) (e : Expr) (id : DeclId) :
    id ∈ p.references e ↔ e.Mentions id ∧ p.isExcluded id = false := by
  simp [references, Expr.mem_symbols_iff]

end Program

namespace DependencyGraph

/-! ### The nodes -/

end DependencyGraph

end Verdict
