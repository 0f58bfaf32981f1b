import Verdict.Checksum
import Verdict.Expr.Descent
import Verdict.Program
import Verdict.Text.Quoted

/-! Fingerprints of declarations by their structure.

A declaration is written as a list of tokens, each closed by a NUL, and the fingerprint is
the checksum of what is written. Locations and the attribute `checksum` are left out, and
other declarations are referred to by name, so that the fingerprint depends neither on where
things stand nor on their order. Expressions are written in the order of their walk, each
token with the number of its children, which makes the tree readable from the tokens. -/
namespace Verdict

namespace Literal

/-- A literal with its type. -/
def describe : Literal → String
  | bool b => "Bool(" ++ toString b ++ ")"
  | int n => "Int(" ++ toString n ++ ")"
  | bitVector value width =>
    "BitVector \x7b value: " ++ toString value ++ ", width: " ++ toString width ++ " \x7d"

end Literal

def UnaryOp.label : UnaryOp → String
  | not => "Not"
  | neg => "Neg"

def BinaryOp.label : BinaryOp → String
  | and => "And"
  | or => "Or"
  | implies => "Implies"
  | iff => "Iff"
  | eq => "Eq"
  | neq => "Neq"
  | lt => "Lt"
  | le => "Le"
  | gt => "Gt"
  | ge => "Ge"
  | add => "Add"
  | sub => "Sub"
  | mul => "Mul"
  | div => "Div"
  | mod => "Mod"

def Quantifier.label : Quantifier → String
  | all => "Forall"
  | some => "Exists"

/-- The name that stands for a declaration; an unknown one is shown by its id. -/
def Program.nameOf (p : Program) (id : DeclId) : String :=
  (p.get? id).elim (toString id) (·.name)

namespace Fingerprint

/-- Names one after the other, with commas between them. -/
def commaList (names : List String) : String := ",".intercalate names

/-- What an expression is, apart from its children. -/
def exprHead (p : Program) : Expr → String
  | .literal value => "lit:" ++ value.describe
  | .var name => "var:" ++ name
  | .const id => "const:" ++ p.nameOf id
  | .call function _ => "call:" ++ p.nameOf function
  | .unary op _ => "un:" ++ op.label
  | .binary op _ _ => "bin:" ++ op.label
  | .builtin op _ => "builtin:" ++ op
  | .quantified kind bound triggers _ =>
    "q:" ++ kind.label ++ ":" ++ commaList bound ++ ":" ++
      commaList (triggers.map fun t => toString t.length)
  | .lambda bound _ => "lambda:" ++ commaList bound
  | .letIn bindings _ => "let:" ++ commaList (bindings.map Prod.fst)
  | .old _ => "old"
  | .extract _ start stop => "extract:" ++ toString start ++ ":" ++ toString stop
  | .concat _ _ => "concat"

/-- A count behind what it counts. -/
def counted (head : String) (n : Nat) : String := head ++ "/" ++ toString n

def exprTokens (p : Program) (e : Expr) : List String :=
  e.walk.map fun sub => counted (exprHead p sub) sub.children.length

def exprsTokens (p : Program) (es : List Expr) : List String := es.flatMap (exprTokens p)

def paramTokens (p : Program) : Param → List String
  | .bool b => ["Bool(" ++ toString b ++ ")"]
  | .int n => ["Int(" ++ toString n ++ ")"]
  | .text s => ["Str(" ++ Text.quote s ++ ")"]
  | .expr e => exprTokens p e

def attributeTokens (p : Program) (a : Attribute) : List String :=
  counted ("attr:" ++ a.key) a.params.length :: a.params.flatMap (paramTokens p)

/-- What a command is, apart from its expressions. -/
def cmdHead (p : Program) (c : Cmd) : String :=
  match c with
  | .assert .. => "assert"
  | .assume _ attributes =>
    match c.proxy? with
    | some proxy => "assume:where:" ++ proxy
    | none => counted "assume" attributes.length
  | .assign lhs _ => "assign:" ++ commaList lhs
  | .havoc vars => "havoc:" ++ commaList vars
  | .call _ procedure _ outs => "call:" ++ p.nameOf procedure ++ ":" ++ commaList outs

def cmdTokens (p : Program) (c : Cmd) : List String := cmdHead p c :: exprsTokens p c.exprs

def transferToken : Transfer → String
  | .goto labels => "goto:" ++ commaList labels
  | .return => "return"

def blockTokens (p : Program) (b : Block) : List String :=
  counted ("block:" ++ b.label) b.cmds.length ::
    (b.cmds.flatMap (cmdTokens p) ++ [transferToken b.transfer])

def subjectTokens (p : Program) : Subject → List String
  | .law formula => exprTokens p formula
  | .function params body => commaList params :: exprsTokens p body.toList
  | .procedure c =>
    [commaList c.params, counted "requires" c.requires.length] ++ exprsTokens p c.requires ++
      [counted "ensures" c.ensures.length] ++ exprsTokens p c.ensures ++ [commaList c.modifies]
  | .implementation i =>
    [p.nameOf i.procedure, commaList i.params, commaList i.locals] ++
      i.blocks.flatMap (blockTokens p)
  | .constant unique => [if unique then "unique" else "plain"]
  | .global | .sort => []

/-- All that the fingerprint of a declaration depends on. -/
def tokens (p : Program) (d : Declaration) : List String :=
  [d.kindName, d.name] ++
    (d.attributes.filter (·.key ≠ "checksum")).flatMap (attributeTokens p) ++
    subjectTokens p d.subject

/-- Tokens as one text. -/
def written (tokens : List String) : String := String.join (tokens.map (· ++ "\x00"))

end Fingerprint

/-- The fingerprint of a declaration, in hexadecimal digits; other declarations are looked up
in `p`. -/
def Program.fingerprint (p : Program) (d : Declaration) : String :=
  (Checksum.ofText (Fingerprint.written (Fingerprint.tokens p d))).hex

/-- The declarations without a checksum source, each with its fingerprint in the program. -/
def Program.unsummed (p : Program) : List (DeclId × String) :=
  p.ids.filterMap fun id =>
    ((p.get? id).filter (·.checksumSource?.isNone)).map fun d => (id, p.fingerprint d)

/-- Gives the declaration `id` a checksum source. -/
def Program.setChecksum (p : Program) (id : DeclId) (source : String) : Program :=
  (p.get? id).elim p fun d => p.replace id (d.withChecksum source)

/-- Gives these declarations their checksum sources, one after the other. -/
def Program.setChecksums (p : Program) (sources : List (DeclId × String)) : Program :=
  sources.foldl (fun q (id, source) => q.setChecksum id source) p

/-- Gives every declaration without a checksum source its fingerprint, and says how many there were.
All fingerprints are taken before the first is given. -/
def Program.assignFingerprints (p : Program) : Nat × Program :=
  let missing := p.unsummed
  (missing.length, p.setChecksums missing)

end Verdict
