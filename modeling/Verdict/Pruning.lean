import Verdict.Dependency.Graph
import Verdict.Pruning.WhereClauses

/-! What of a program a body needs.

The contract of the implemented procedure counts as part of the body. The body is first
trimmed of the where-clauses that it does not need; then an axiom or a function stays if the
trimmed body reaches it in the dependency graph, a constant if the body or something reached
mentions it, and a declaration of any other kind always. -/
namespace Verdict

namespace Program

/-- The contract that the body of `implementation` is verified against. -/
def ownContract (p : Program) (implementation : DeclId) : List Expr :=
  ((p.get? implementation).bind (·.implementation?)).elim [] fun i => p.contract i.procedure

end Program

namespace Pruning

/-- The variables that matter whatever where-clauses are kept. -/
def liveVariables (p : Program) (implementation : DeclId) (blocks : List Block) : List String :=
  WhereClauses.liveVariables blocks ++ (p.ownContract implementation).flatMap Expr.freeVariables

/-- The body without the where-clauses that it does not need. -/
def trimmed (p : Program) (implementation : DeclId) (blocks : List Block) : List Block :=
  (WhereClauses.trim blocks (liveVariables p implementation blocks)).2

/-- The where-clauses of a body. -/
def whereExprs (blocks : List Block) : List Expr :=
  ((Block.commands blocks).filter (·.proxy?.isSome)).flatMap Cmd.exprs

/-- All that the trimmed body and its contract mention. -/
def node (p : Program) (implementation : DeclId) (blocks : List Block) : Node :=
  ((p.bodyNode blocks).mention ((p.ownContract implementation).flatMap p.references)).mention
    ((whereExprs (trimmed p implementation blocks)).flatMap p.references)

/-- Whether a declaration stays, given what the body and what is reached from it. -/
def keeps (g : DependencyGraph) (body : Node) (reached : List DeclId) (id : DeclId)
    (d : Declaration) : Bool :=
  match d.subject with
  | .law _ | .function .. => id ∈ reached
  | .constant _ =>
    id ∈ body.outgoing || id ∈ reached ||
      reached.any fun r => (g.node? r).any fun n => id ∈ n.outgoing
  | _ => true

/-- The declarations that stay, in order. -/
def kept (p : Program) (g : DependencyGraph) (implementation : DeclId) (blocks : List Block) :
    List DeclId :=
  let body := node p implementation blocks
  let reached := g.reachable body
  p.ids.filter fun id => (p.get? id).any (keeps g body reached id)

end Pruning

/-- The declarations that a body needs, and the body trimmed. Everything stays as it is where
pruning is off, where there is no graph to go by, and where no body is given. -/
def prune (p : Program) (graph : Option DependencyGraph) (enabled : Bool) (implementation : DeclId)
    (body : Option (List Block)) : List DeclId × Option (List Block) :=
  match enabled, graph, body with
  | true, some g, some blocks =>
    (Pruning.kept p g implementation blocks, some (Pruning.trimmed p implementation blocks))
  | _, _, _ => (p.ids, body)

end Verdict
