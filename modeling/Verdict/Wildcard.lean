/-! Patterns of names.

An asterisk in a pattern stands for any run of characters without a line feed, the empty one
too, and every other character for itself. A pattern speaks of the whole name. -/
namespace Verdict.Wildcard

/-- What may be left of a text after an asterisk. -/
def afterAsterisk : List Char → List (List Char)
  | [] => [[]]
  | c :: rest => (c :: rest) :: if c = '\n' then [] else afterAsterisk rest

/-- What may be left of the name after one more character of the pattern. -/
def advance (lefts : List (List Char)) (p : Char) : List (List Char) :=
  if p = '*' then (lefts.flatMap afterAsterisk).eraseDups
  else lefts.filterMap fun
    | c :: rest => if c = p then some rest else none
    | [] => none

/-- Whether a pattern matches a name. -/
def accepts (pattern name : String) : Bool :=
  (pattern.toList.foldl advance [name.toList]).any List.isEmpty

/-- Whether one of the patterns matches; no pattern at all accepts every name. -/
def acceptsAny (patterns : List String) (name : String) : Bool :=
  patterns.isEmpty || patterns.any fun p => accepts p name

end Verdict.Wildcard
