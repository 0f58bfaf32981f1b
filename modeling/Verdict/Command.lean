import Verdict.Attribute
import Verdict.Expr.Variables

/-! Commands and blocks of an implementation's body.

An `assume` with the attribute `where`, whose one parameter is a variable, states the
where-clause of that variable, its proxy. -/
namespace Verdict

inductive Cmd
  | assert (location : Location) (expr : Expr) (attributes : Attributes)
  | assume (expr : Expr) (attributes : Attributes)
  | assign (lhs : List String) (rhs : List Expr)
  | havoc (vars : List String)
  | call (location : Location) (procedure : DeclId) (args : List Expr) (outs : List String)
  deriving Inhabited, Repr

namespace Cmd

/-- The assumption of a where-clause for a proxy. -/
def whereAssume (proxy : String) (expr : Expr) : Cmd :=
  .assume expr [⟨"where", [.expr (.var proxy)]⟩]

/-- The proxy, where the command is the assumption of a where-clause. Only the first
`where` with one parameter counts, whatever that parameter is. -/
def proxy? : Cmd → Option String
  | assume _ attributes =>
    match attributes.withArity? "where" 1 with
    | some ⟨_, [.expr (.var name)]⟩ => some name
    | _ => none
  | _ => none

/-- The expressions that the command reads. -/
def exprs : Cmd → List Expr
  | assert _ e _ | assume e _ => [e]
  | assign _ rhs => rhs
  | havoc _ => []
  | call _ _ args _ => args

/-- The variables that the command writes. -/
def targets : Cmd → List String
  | assign lhs _ => lhs
  | havoc vars => vars
  | call _ _ _ outs => outs
  | assert .. | assume .. => []

/-- Every variable that the command writes or reads, an occurrence at a time. -/
def mentioned (c : Cmd) : List String :=
  c.targets ++ c.exprs.flatMap Expr.freeVariables

def isAssertion : Cmd → Bool
  | assert .. => true
  | _ => false

/-- The procedure that the command calls. -/
def callee? : Cmd → Option DeclId
  | call _ procedure _ _ => some procedure
  | _ => none

end Cmd

/-- How control leaves a block. -/
inductive Transfer
  | goto (labels : List String)
  | return
  deriving DecidableEq, Repr

structure Block where
  label : String
  cmds : List Cmd
  transfer : Transfer
  deriving Repr

namespace Block

/-- The commands of a list of blocks, in order. -/
def commands (blocks : List Block) : List Cmd := blocks.flatMap Block.cmds

end Block

end Verdict
