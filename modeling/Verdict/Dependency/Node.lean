import Verdict.Expr.Descent
import Verdict.Program
import Verdict.SetFamily

/-! What a part of a program refers to, and what makes it relevant to others.

The outgoing set of a node holds the constants and functions that it mentions. Its incoming
sets say when another part has to do with it: as soon as that part mentions all members of
one of them. A function is relevant to whoever mentions it. For an axiom it depends on where
a symbol stands: a trigger asks for all symbols of the trigger together, and a quantifier
whose triggers speak for it (or which can be instantiated at will) contributes nothing else
from its body. -/
namespace Verdict

namespace Expr

/-- The constant or function that stands at the top of an expression. -/
def symbol? : Expr → Option DeclId
  | const id => some id
  | call function _ => some function
  | _ => none

/-- The constants and functions mentioned anywhere in an expression, triggers included. -/
def symbols (e : Expr) : List DeclId := e.walk.filterMap symbol?

end Expr

/-- The place of a subexpression relative to the top of an axiom. -/
inductive Polarity
  | positive
  | negative
  | neither
  deriving DecidableEq, Repr

def Polarity.flip : Polarity → Polarity
  | positive => negative
  | negative => positive
  | neither => neither

/-- The polarity of a subexpression, and whether what it mentions counts as incoming. -/
structure Stance where
  polarity : Polarity
  counts : Bool
  deriving DecidableEq, Repr

namespace Stance

/-- The top of an axiom holds. -/
def top : Stance := ⟨.positive, true⟩

def flip (s : Stance) : Stance := { s with polarity := s.polarity.flip }

def neither (s : Stance) : Stance := { s with polarity := .neither }

/-- Whether a quantifier stands where its body is left to its triggers, or to no one. -/
def dropsBody (s : Stance) (kind : Quantifier) (triggers : List (List Expr)) : Bool :=
  match kind with
  | .all => s.polarity = .positive && !triggers.isEmpty
  | .some => s.polarity = .negative

/-- The stances of the operands of a binary operator. -/
def operands (s : Stance) : BinaryOp → Stance × Stance
  | .and | .or => (s, s)
  | .implies => (s.flip, s)
  | _ => (s.neither, s.neither)

/-- Every child is entered but those in triggers, which are read as a whole. -/
def descent : Descent Stance where
  enter s e :=
    match e with
    | .unary _ arg => [(arg, s.flip)]
    | .binary op lhs rhs => [(lhs, (s.operands op).1), (rhs, (s.operands op).2)]
    | .quantified kind _ triggers body =>
      [(body, ⟨.neither, s.counts && !s.dropsBody kind triggers⟩)]
    | _ => e.children.map fun c => (c, s.neither)
  sublist_children s e := by
    split <;> simp [Function.comp_def, Expr.children]

end Stance

/-- Outgoing references and incoming sets of a part of a program. -/
structure Node where
  outgoing : List DeclId
  incoming : SetFamily DeclId
  deriving Repr

namespace Node

instance : EmptyCollection Node := ⟨⟨[], ∅⟩⟩

/-- A part that mentions these symbols and is relevant to no one. -/
def mentioning (symbols : List DeclId) : Node := ⟨symbols.eraseDups, ∅⟩

/-- Whether `target` is relevant to `source`. -/
def dependsOn (source target : Node) : Bool := target.incoming.hasSubsetOf source.outgoing

/-- Also mentions these symbols. -/
def mention (n : Node) (symbols : List DeclId) : Node :=
  { n with outgoing := (n.outgoing ++ symbols).eraseDups }

end Node

namespace Program

/-- The symbols of an expression that take part in dependencies. -/
def references (p : Program) (e : Expr) : List DeclId :=
  e.symbols.filter fun id => !p.isExcluded id

/-- What a trigger asks for: all its symbols that take part in dependencies. -/
def triggerSet (p : Program) (trigger : List Expr) : List DeclId :=
  (trigger.flatMap p.references).eraseDups

/-- The incoming sets that one subexpression of the axiom `owner` contributes. An excluded
symbol contributes nothing, unless it is the axiom itself. -/
def incomingSets (p : Program) (owner : DeclId) : Expr × Stance → List (List DeclId)
  | (e, s) =>
    if !s.counts then []
    else match e with
      | .const id | .call id _ => if id = owner || !p.isExcluded id then [[id]] else []
      | .quantified _ _ triggers _ => triggers.map p.triggerSet
      | _ => []

/-- The node of an axiom; of anything else, the empty node. -/
def lawNode (p : Program) (id : DeclId) : Node :=
  match (p.get? id).bind (·.formula?) with
  | none => ∅
  | some formula =>
    let visited := Stance.descent.visit [(formula, .top)]
    let symbols := visited.filterMap fun entry => entry.1.symbol?
    { outgoing := (symbols.filter fun s => !p.isExcluded s).eraseDups
      incoming := (visited.flatMap (p.incomingSets id)).foldl SetFamily.add ∅ }

/-- The node of a function: whoever mentions it needs it, and it needs what its body
mentions. -/
def functionNode (p : Program) (id : DeclId) : Node where
  outgoing := (((p.get? id).bind (·.functionBody?)).elim [] p.references).eraseDups
  incoming := SetFamily.addSingleton ∅ id

/-- What a command mentions: its expressions, and the contract of the procedure it
calls. -/
def commandReferences (p : Program) (c : Cmd) : List DeclId :=
  c.exprs.flatMap p.references ++ (c.callee?.elim [] p.contract).flatMap p.references

/-- The node of a body. The assumptions of where-clauses are left out: whether they matter
is not known before the body has been trimmed. -/
def bodyNode (p : Program) (blocks : List Block) : Node :=
  .mentioning (((Block.commands blocks).filter (·.proxy?.isNone)).flatMap p.commandReferences)

end Program

end Verdict
