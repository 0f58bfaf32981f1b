/-! Which run of an implementation counts.

Implementations are told apart by name. A run that begins supersedes the one of the same name
that counted so far, whatever request that belongs to. Runs are numbered in the order in which
they begin; the numbers are their generations. -/
namespace Verdict

structure Roster where
  /-- The run that counts for each name that has one. -/
  current : List (String × Nat)
  /-- How many runs have begun. -/
  generation : Nat
  /-- The runs that newer ones have taken the place of. -/
  superseded : List Nat
  deriving Repr

namespace Roster

def empty : Roster := ⟨[], 0, []⟩

instance : Inhabited Roster := ⟨empty⟩

def current? (r : Roster) (name : String) : Option Nat := r.current.lookup name

def others (r : Roster) (name : String) : List (String × Nat) := r.current.filter (·.1 ≠ name)

/-- Begins a run of `name` and gives its generation. -/
def enter (r : Roster) (name : String) : Nat × Roster :=
  let generation := r.generation + 1
  (generation,
    { current := (name, generation) :: r.others name
      generation
      superseded := (r.current? name).toList ++ r.superseded })

/-- Ends a run of `name`. A run that has been superseded has no place to give up. -/
def leave (r : Roster) (name : String) (generation : Nat) : Roster :=
  if r.current? name = some generation then { r with current := r.others name } else r

def isSuperseded (r : Roster) (generation : Nat) : Bool := r.superseded.contains generation

end Roster

end Verdict
