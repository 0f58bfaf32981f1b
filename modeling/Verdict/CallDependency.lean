import Verdict.Closure
import Verdict.Expr.Descent
import Verdict.Program

/-! What a declaration calls.

The functions are those that its expressions call anywhere, triggers included; the
procedures are the one that an implementation implements and those that its commands
call. -/
namespace Verdict

/-- The functions and the procedures that one declaration calls, each list ascending. -/
structure CallDependency where
  functions : List DeclId
  procedures : List DeclId
  deriving DecidableEq, Repr

namespace Expr

/-- The functions called in an expression, an occurrence at a time. -/
def callees (e : Expr) : List DeclId :=
  e.walk.filterMap fun
    | call f _ => some f
    | _ => none

end Expr

namespace Declaration

/-- The expressions whose calls make the declaration depend on functions. -/
def callingExprs (d : Declaration) : List Expr :=
  match d.subject with
  | .law formula => [formula]
  | .function _ body => body.toList
  | .procedure p => p.contract
  | .implementation i => (Block.commands i.blocks).flatMap Cmd.exprs
  | .constant _ | .global | .sort => []

/-- The procedures whose contracts the declaration is verified against or relies on. -/
def calledProcedures (d : Declaration) : List DeclId :=
  match d.subject with
  | .implementation i => i.procedure :: (Block.commands i.blocks).filterMap Cmd.callee?
  | _ => []

def callDependency (d : Declaration) : CallDependency where
  functions := DeclId.ascending (d.callingExprs.flatMap Expr.callees)
  procedures := DeclId.ascending d.calledProcedures

end Declaration

/-- The call dependencies of every declaration of a program, by place. -/
structure CallDependencies where
  entries : Array CallDependency
  deriving DecidableEq, Repr

namespace CallDependencies

def collect (p : Program) : CallDependencies := ⟨p.decls.map Declaration.callDependency⟩

def get? (deps : CallDependencies) (id : DeclId) : Option CallDependency :=
  deps.entries[id.index]?

/-- The functions that `id` calls, none where it is unknown. -/
def functions (deps : CallDependencies) (id : DeclId) : List DeclId :=
  (deps.get? id).elim [] (·.functions)

def procedures (deps : CallDependencies) (id : DeclId) : List DeclId :=
  (deps.get? id).elim [] (·.procedures)

/-- Every function that some declaration calls. -/
def called (deps : CallDependencies) : List DeclId :=
  (deps.entries.toList.flatMap (·.functions)).eraseDups

/-- The functions that `id` calls itself, and those that its procedures call. -/
def directFunctions (deps : CallDependencies) (id : DeclId) : List DeclId :=
  deps.functions id ++ (deps.procedures id).flatMap deps.functions

/-- The functions called from `id` at any distance, the nearer first. -/
def functionClosure (deps : CallDependencies) (id : DeclId) : List DeclId :=
  Closure.reach deps.functions deps.called (deps.directFunctions id)

end CallDependencies

end Verdict
