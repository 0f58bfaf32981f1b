import Verdict.Declaration

/-! A program: its declarations, each known by its place.

Names need not be distinct; a name stands for the first declaration that bears it. -/
namespace Verdict

structure Program where
  decls : Array Declaration
  deriving Repr

namespace Program

instance : EmptyCollection Program := ⟨⟨#[]⟩⟩
instance : Inhabited Program := ⟨∅⟩

def size (p : Program) : Nat := p.decls.size

def get? (p : Program) (id : DeclId) : Option Declaration := p.decls[id.index]?

/-- Adds a declaration behind the others and gives its id. -/
def push (p : Program) (d : Declaration) : DeclId × Program :=
  (.ofNat p.size, ⟨p.decls.push d⟩)

/-- Puts `d` in the place of the declaration `id`; a program without `id` stays as it
is. -/
def replace (p : Program) (id : DeclId) (d : Declaration) : Program :=
  ⟨p.decls.setIfInBounds id.index d⟩

/-- The ids of a program with this many declarations. -/
def ids (p : Program) : List DeclId := (List.range p.size).map DeclId.mk

/-- The ids of the declarations that satisfy `wanted`, in order. -/
def idsWhere (p : Program) (wanted : Declaration → Bool) : List DeclId :=
  p.ids.filter fun id => (p.get? id).any wanted

def find? (p : Program) (name : String) : Option DeclId :=
  p.ids.find? fun id => (p.get? id).any (·.name = name)

def laws (p : Program) : List DeclId := p.idsWhere (·.isLaw)

def functions (p : Program) : List DeclId := p.idsWhere (·.isFunction)

def implementations (p : Program) : List (DeclId × Implementation) :=
  p.ids.filterMap fun id => ((p.get? id).bind (·.implementation?)).map fun i => (id, i)

/-- Whether the declaration `id` is kept out of dependencies; an unknown id is not. -/
def isExcluded (p : Program) (id : DeclId) : Bool := (p.get? id).any (·.isExcluded)

/-- The contract of `id`, empty unless it is a procedure. -/
def contract (p : Program) (id : DeclId) : List Expr :=
  ((p.get? id).bind (·.procedure?)).elim [] Procedure.contract

end Program

end Verdict
