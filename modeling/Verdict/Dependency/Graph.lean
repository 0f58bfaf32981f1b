import Verdict.Closure
import Verdict.Dependency.Node

/-! The dependency graph of a program.

Its nodes are those of the axioms, in the order of the program, and then those of the
functions. There is an edge from one node to another where the second is relevant to the
first, which the nodes themselves decide. -/
namespace Verdict

structure DependencyGraph where
  nodes : List (DeclId × Node)
  deriving Repr

namespace DependencyGraph

def build (p : Program) : DependencyGraph :=
  ⟨(p.laws.map fun id => (id, p.lawNode id)) ++ (p.functions.map fun id => (id, p.functionNode id))⟩

def size (g : DependencyGraph) : Nat := g.nodes.length

def ids (g : DependencyGraph) : List DeclId := g.nodes.map Prod.fst

def node? (g : DependencyGraph) (id : DeclId) : Option Node := g.nodes.lookup id

/-- The nodes that are relevant to `source`, in the order of the graph. -/
def hooks (g : DependencyGraph) (source : Node) : List DeclId :=
  (g.nodes.filter fun entry => source.dependsOn entry.2).map Prod.fst

/-- The declarations that `id` has an edge to. -/
def successors (g : DependencyGraph) (id : DeclId) : List DeclId :=
  (g.node? id).elim [] g.hooks

def edgeCount (g : DependencyGraph) : Nat :=
  (g.nodes.flatMap fun entry => g.hooks entry.2).length

/-- The declarations that `source` reaches along edges of the graph. -/
def reachable (g : DependencyGraph) (source : Node) : List DeclId :=
  Closure.reach g.successors g.ids (g.hooks source)

end DependencyGraph

end Verdict
