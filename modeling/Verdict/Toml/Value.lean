/-! The values of a TOML document, and how a document builds its tables.

A table may be written down in parts, but only in certain ways, so every table remembers how
it came about: written inline, opened by a header of its own, implied by the header of a
table inside it, or begun by a dotted key. An array of tables grows by headers in double
brackets, and whatever speaks of it means its last table. -/
namespace Verdict.Toml

/-- How a table came about. -/
inductive Origin
  | inline
  | header
  | implied
  | dotted
  deriving DecidableEq, Repr

/-- A value. Of a fractional number and of a date only the kind is kept. -/
inductive Value
  | text (value : String)
  | integer (value : Int)
  | boolean (value : Bool)
  | float
  | date
  | array (items : List Value)
  | table (origin : Origin) (entries : List (String × Value))
  | tables (before : List Value) (last : List (String × Value))
  deriving Repr, Inhabited

/-- The entries of a table, in the order in which they were written. -/
abbrev Entries := List (String × Value)

namespace Entries

/-- Puts a value in the place of the one under `key`. -/
def put (es : Entries) (key : String) (v : Value) : Entries :=
  es.map fun e => if e.1 = key then (key, v) else e

/-- Changes the table at `path`, which `change` is told the origin of. Tables that do not
exist yet are made on the way. Dotted keys enter no table that has a header of its own, and
nothing enters an inline table or a value that is no table. -/
def changeAt (made : Origin) (change : Origin → Entries → Option Entries) (origin : Origin)
    (es : Entries) : List String → Option Entries
  | [] => change origin es
  | key :: path =>
    match es.lookup key with
    | none => do
      let inner ← changeAt made change made [] path
      some (es ++ [(key, .table made inner)])
    | some (.table o inner) =>
      if o = .inline || (made = .dotted && o = .header) then none
      else do
        let inner ← changeAt made change o inner path
        some (es.put key (.table o inner))
    | some (.tables before last) => do
      let last ← changeAt made change .header last path
      some (es.put key (.tables before last))
    | some _ => none

/-- Adds a value under a key that is new. Below a dotted path the table must be one that
dotted keys have begun. -/
def add (es : Entries) (path : List String) (key : String) (v : Value) : Option Entries :=
  changeAt .dotted
    (fun origin inner =>
      if (origin = .dotted || path.isEmpty) && (inner.lookup key).isNone then
        some (inner ++ [(key, v)])
      else none)
    .header es path

/-- Opens the table `key`, which must be new or only implied so far. -/
def openTable (key : String) (es : Entries) : Option Entries :=
  match es.lookup key with
  | none => some (es ++ [(key, .table .header [])])
  | some (.table .implied inner) => some (es.put key (.table .header inner))
  | some _ => none

/-- Adds a table to the array of tables `key`. -/
def openElement (key : String) (es : Entries) : Option Entries :=
  match es.lookup key with
  | none => some (es ++ [(key, .tables [] [])])
  | some (.tables before last) => some (es.put key (.tables (before ++ [.table .header last]) []))
  | some _ => none

/-- Opens a table, or the next table of an array, at a path that is not empty. -/
def openAt (es : Entries) (element : Bool) (path : List String) : Option Entries :=
  match path.getLast? with
  | none => none
  | some key =>
    changeAt .implied (fun _ inner => if element then inner.openElement key else inner.openTable key)
      .header es path.dropLast

/-- Adds a value inside the table that was opened last, at `current`. -/
def addUnder (es : Entries) (current path : List String) (key : String) (v : Value) :
    Option Entries :=
  changeAt .implied (fun _ inner => inner.add path key v) .header es current

end Entries

end Verdict.Toml
