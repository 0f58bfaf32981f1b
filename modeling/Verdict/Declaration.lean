import Verdict.Command

/-! Top-level declarations, and what their attributes say about verifying them. -/
namespace Verdict

/-- A procedure's contract is its requires clauses followed by its ensures clauses. -/
structure Procedure where
  params : List String
  requires : List Expr
  ensures : List Expr
  modifies : List String
  deriving Repr

def Procedure.contract (p : Procedure) : List Expr := p.requires ++ p.ensures

/-- A body that is to be verified against the contract of its procedure. -/
structure Implementation where
  procedure : DeclId
  params : List String
  locals : List String
  blocks : List Block
  deriving Repr

/-- What is declared. A function without a body is uninterpreted. -/
inductive Subject
  | law (formula : Expr)
  | function (params : List String) (body : Option Expr)
  | constant (unique : Bool)
  | global
  | procedure (procedure : Procedure)
  | implementation (implementation : Implementation)
  | sort
  deriving Repr

structure Declaration where
  name : String
  location : Location
  attributes : Attributes
  subject : Subject
  deriving Repr

namespace Declaration

def kindName (d : Declaration) : String :=
  match d.subject with
  | .law _ => "axiom"
  | .function .. => "function"
  | .constant _ => "constant"
  | .global => "variable"
  | .procedure _ => "procedure"
  | .implementation _ => "implementation"
  | .sort => "type"

/-- Only axioms, functions and constants may be left out of what a verifier sees. -/
def isPrunable (d : Declaration) : Bool :=
  match d.subject with
  | .law _ | .function .. | .constant _ => true
  | _ => false

def formula? (d : Declaration) : Option Expr :=
  match d.subject with
  | .law formula => some formula
  | _ => none

def isLaw (d : Declaration) : Bool := d.formula?.isSome

def isFunction (d : Declaration) : Bool :=
  match d.subject with
  | .function .. => true
  | _ => false

/-- The body of a function that has one. -/
def functionBody? (d : Declaration) : Option Expr :=
  match d.subject with
  | .function _ body => body
  | _ => none

def procedure? (d : Declaration) : Option Procedure :=
  match d.subject with
  | .procedure p => some p
  | _ => none

def implementation? (d : Declaration) : Option Implementation :=
  match d.subject with
  | .implementation i => some i
  | _ => none

/-- Kept out of the dependencies of other declarations. -/
def isExcluded (d : Declaration) : Bool :=
  (d.attributes.flag? "exclude_dep").getD false

/-- The text that stands for the declaration's content when it is checksummed. -/
def checksumSource? (d : Declaration) : Option String :=
  d.attributes.text? "checksum"

def withChecksum (d : Declaration) (source : String) : Declaration :=
  { d with attributes := d.attributes.set ⟨"checksum", [.text source]⟩ }

def priority (d : Declaration) : Int :=
  (d.attributes.int? "priority").getD 1

/-- Marked as not to be verified. -/
def isSkipped (d : Declaration) : Bool :=
  d.attributes.flag? "verify" = some false

/-- The declaration's own time limit in seconds; a negative one counts as absent. -/
def timeLimit? (d : Declaration) : Option Nat :=
  (d.attributes.int? "timeLimit").bind Int.toNat?

/-- What to say when the declaration verifies. -/
def verifiedMessage? (d : Declaration) : Option String :=
  d.attributes.text? "msg_if_verifies"

end Declaration

end Verdict
