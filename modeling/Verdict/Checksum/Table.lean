import Verdict.CallDependency
import Verdict.Checksum

/-! Checksums of declarations, each computed at most once.

A declaration's own checksum is that of its checksum source. Its dependency checksum is the
unordered sum of its own checksum, the own checksums of its procedures, and those of all
functions called at any distance; it is undefined as soon as one of them is. The table
remembers every answer, an undefined one too, and stops asking at the first undefined
summand. -/
namespace Verdict

/-- The own checksum of a declaration, as its program gives it. -/
def Program.checksum? (p : Program) (id : DeclId) : Option Checksum :=
  ((p.get? id).bind (·.checksumSource?)).map Checksum.ofText

/-- The answers remembered for each place. -/
structure ChecksumTable where
  own : Array (Option (Option Checksum))
  dependency : Array (Option (Option Checksum))
  deriving Repr

namespace ChecksumTable

/-- A table with this many places and nothing in it. -/
def blank (places : Nat) : ChecksumTable :=
  ⟨Array.replicate places none, Array.replicate places none⟩

/-- The own checksum of `id`: what is remembered, or else what the program gives, which is
remembered from now on. An id beyond the table has none. -/
def checksum (t : ChecksumTable) (p : Program) (id : DeclId) : Option Checksum × ChecksumTable :=
  match t.own[id.index]? with
  | none => (none, t)
  | some (some known) => (known, t)
  | some none =>
    (p.checksum? id, { t with own := t.own.setIfInBounds id.index (some (p.checksum? id)) })

/-- Adds the own checksums of `ids` to `sum`, up to the first that is undefined. -/
def addAll (t : ChecksumTable) (p : Program) (sum : Checksum) :
    List DeclId → Option Checksum × ChecksumTable
  | [] => (some sum, t)
  | id :: rest =>
    match t.checksum p id with
    | (none, t) => (none, t)
    | (some part, t) => t.addAll p (sum + part) rest

/-- The dependency checksum of `id` where it is not remembered. -/
def sumDependencies (t : ChecksumTable) (p : Program) (deps : CallDependencies) (id : DeclId) :
    Option Checksum × ChecksumTable :=
  match t.checksum p id with
  | (none, t) => (none, t)
  | (some own, t) => t.addAll p own (deps.procedures id ++ deps.functionClosure id)

def dependencyChecksum (t : ChecksumTable) (p : Program) (deps : CallDependencies) (id : DeclId) :
    Option Checksum × ChecksumTable :=
  match t.dependency[id.index]? with
  | none => (none, t)
  | some (some known) => (known, t)
  | some none =>
    let (sum, t) := t.sumDependencies p deps id
    (sum, { t with dependency := t.dependency.setIfInBounds id.index (some sum) })

end ChecksumTable

end Verdict
