import Verdict.Checksum.Table
import Verdict.Pruning

/-! A program with everything that has been derived from it so far.

Call dependencies, checksums and the dependency graph are derived when first asked for and
remembered. A change of the program forgets them all; an attempt that fails changes
nothing. -/
namespace Verdict

/-- Why a request about a program cannot be met. -/
inductive ProgramError
  | unknownDeclaration (id : DeclId)
  | nothingToReplace (id : DeclId)
  | graphOfOtherSize (nodes expected : Nat)
  | graphAlreadyAttached
  deriving DecidableEq, Repr

def ProgramError.message (e : ProgramError) : String :=
  "program error: " ++
    match e with
    | unknownDeclaration id => "unknown declaration " ++ toString id
    | nothingToReplace id => "cannot replace unknown declaration " ++ toString id
    | graphOfOtherSize nodes expected =>
      "dependency graph has " ++ toString nodes ++ " nodes, program has " ++ toString expected ++
        " axioms and functions"
    | graphAlreadyAttached => "a dependency graph is already attached"

structure Analysis where
  program : Program
  calls : Option CallDependencies
  checksums : ChecksumTable
  graph : Option DependencyGraph
  deriving Repr

namespace Analysis

/-- Nothing derived yet. -/
def ofProgram (p : Program) : Analysis := ⟨p, none, .blank p.size, none⟩

def declaration (a : Analysis) (id : DeclId) : Except ProgramError Declaration :=
  match a.program.get? id with
  | some d => .ok d
  | none => .error (.unknownDeclaration id)

def callDependencies (a : Analysis) : CallDependencies × Analysis :=
  match a.calls with
  | some known => (known, a)
  | none =>
    let collected := CallDependencies.collect a.program
    (collected, { a with calls := some collected })

def checksum (a : Analysis) (id : DeclId) : Option Checksum × Analysis :=
  let (sum, table) := a.checksums.checksum a.program id
  (sum, { a with checksums := table })

def dependencyChecksum (a : Analysis) (id : DeclId) : Option Checksum × Analysis :=
  let (calls, a) := a.callDependencies
  let (sum, table) := a.checksums.dependencyChecksum a.program calls id
  (sum, { a with checksums := table })

/-- Adds a declaration and gives its id. -/
def add (a : Analysis) (d : Declaration) : DeclId × Analysis :=
  let (id, p) := a.program.push d
  (id, ofProgram p)

/-- Puts `d` in the place of the declaration `id`, which is given back. -/
def replace (a : Analysis) (id : DeclId) (d : Declaration) :
    Except ProgramError Declaration × Analysis :=
  match a.program.get? id with
  | some old => (.ok old, ofProgram (a.program.replace id d))
  | none => (.error (.nothingToReplace id), a)

def ensureGraph (a : Analysis) : DependencyGraph × Analysis :=
  match a.graph with
  | some g => (g, a)
  | none =>
    let g := DependencyGraph.build a.program
    (g, { a with graph := some g })

/-- Attaches a graph that was made elsewhere. Only its size is checked. -/
def attachGraph (a : Analysis) (g : DependencyGraph) : Except ProgramError Unit × Analysis :=
  let expected := a.program.laws.length + a.program.functions.length
  if g.size ≠ expected then (.error (.graphOfOtherSize g.size expected), a)
  else if a.graph.isSome then (.error .graphAlreadyAttached, a)
  else (.ok (), { a with graph := some g })

def prune (a : Analysis) (enabled : Bool) (implementation : DeclId) (body : Option (List Block)) :
    List DeclId × Option (List Block) :=
  Verdict.prune a.program a.graph enabled implementation body

end Analysis

end Verdict
