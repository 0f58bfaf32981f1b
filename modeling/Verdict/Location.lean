/-! Where a construct stands in its source, and what names a declaration.

A `Location` is a file, a line, a column and sometimes a span of the text. Reports are
listed by location, so locations are ordered: by file, then line, then column, and a
location without a span before one with. A `DeclId` is the place of a declaration in its
program; it is 32 bits wide. -/
namespace Verdict

/-- The place of a declaration in its program. -/
structure DeclId where
  index : Nat
  deriving DecidableEq, Repr, Hashable

namespace DeclId

/-- The id made from a number of any size: only its low 32 bits count. -/
def ofNat (n : Nat) : DeclId := ⟨n % 4294967296⟩

/-- Ids are ordered as their places are. -/
def le (a b : DeclId) : Bool := a.index ≤ b.index

instance : ToString DeclId := ⟨fun id => "#" ++ toString id.index⟩

/-- The members of a list of ids, ascending and each once. -/
def ascending (ids : List DeclId) : List DeclId :=
  ids.eraseDups.mergeSort le

end DeclId

/-- A stretch of the source text. -/
structure Span where
  start : Nat
  length : Nat
  deriving DecidableEq, Repr

/-- A position in a source file. -/
structure Location where
  file : String
  line : Nat
  column : Nat
  span : Option Span := none
  deriving DecidableEq, Repr

namespace Location

/-- The location of a declaration that has no source. -/
def unknown : Location := ⟨"<unknown>", 0, 0, none⟩

instance : Inhabited Location := ⟨unknown⟩

/-- No span comes first; spans go by start and then by length. -/
def compareSpan : Option Span → Option Span → Ordering
  | none, none => .eq
  | none, some _ => .lt
  | some _, none => .gt
  | some a, some b => (compare a.start b.start).then (compare a.length b.length)

/-- File, line, column, span, the first that differs deciding. Files are compared
character by character, which for well-formed text is also the order of their bytes. -/
protected def compare (a b : Location) : Ordering :=
  ((compare a.file b.file).then (compare a.line b.line)).then
    ((compare a.column b.column).then (compareSpan a.span b.span))

instance : Ord Location := ⟨Location.compare⟩

/-- `a` stands at `b` or before it. -/
def le (a b : Location) : Bool := (a.compare b).isLE

/-- A location as messages show it; the span is not shown. -/
def render (l : Location) : String :=
  l.file ++ "(" ++ toString l.line ++ "," ++ toString l.column ++ ")"

end Location

end Verdict
