/-! Families of sets that answer whether a member is contained in a candidate.

Elements are ranked by when they were first seen. A member is kept as the path of its
ranks, ascending, in a prefix tree. A search goes through the ranks of the candidate, ascending
too: below a place that it came to by one rank it tries only the ranks behind that one. What a
family means is the list of its members, `sets`. -/
namespace Verdict

/-- The branches below one path of a prefix tree: siblings by ascending rank, each with a
mark if a path ends there and with the branches below it. -/
inductive Branches
  | nil
  | cons (rank : Nat) (ends : Bool) (below next : Branches)
  deriving Repr, DecidableEq

namespace Branches

/-- Adds a path, given by its ranks from here on. -/
def insert : List Nat → Branches → Branches
  | [], t => t
  | r :: rest, nil => cons r rest.isEmpty (insert rest nil) nil
  | r :: rest, cons q ends below next =>
    if r < q then cons r rest.isEmpty (insert rest nil) (cons q ends below next)
    else if r = q then cons q (ends || rest.isEmpty) (insert rest below) next
    else cons q ends below (insert (r :: rest) next)
termination_by path t => path.length + sizeOf t
decreasing_by
  all_goals
    simp only [List.length_cons, nil.sizeOf_spec, cons.sizeOf_spec]
    omega

/-- Whether a path ends in the tree. -/
def holds : List Nat → Branches → Bool
  | _, nil => false
  | [], cons .. => false
  | r :: rest, cons q ends below next =>
    if r = q then if rest.isEmpty then ends else below.holds rest
    else next.holds (r :: rest)

/-- The paths: those of the highest rank first, and a path before those that go on from
it. -/
def paths : Branches → List (List Nat)
  | nil => []
  | cons rank ends below next =>
    next.paths ++ (if ends then [[rank]] else []) ++ below.paths.map (rank :: ·)

end Branches

/-! ### The search -/

/-- A place in a prefix tree. -/
structure Place where
  /-- Whether a path ends here. -/
  ends : Bool
  below : Branches
  deriving Repr, DecidableEq

/-- The place that a rank leads to. -/
def Branches.child? (r : Nat) : Branches → Option Place
  | nil => none
  | cons q ends below next => if r = q then some ⟨ends, below⟩ else next.child? r

namespace Place

/-- Where the ranks from number `start` on lead to, each place with the number of ranks that are
used up then. -/
def onward (ranks : List Nat) (p : Place) (start : Nat) : List (Place × Nat) :=
  ((ranks.drop start).zipIdx start).filterMap fun (r, i) => (p.below.child? r).map (·, i + 1)

/-- A bound on the rounds of a search: below a place there is one at most for each choice of
ranks that are left. -/
def rounds (ranks : List Nat) : List (Place × Nat) → Nat
  | [] => 0
  | (_, start) :: stack => Nat.pow 2 (ranks.length - start) + rounds ranks stack

theorem rounds_cons (ranks : List Nat) (x : Place × Nat) (stack : List (Place × Nat)) :
    rounds ranks (x :: stack) = Nat.pow 2 (ranks.length - x.2) + rounds ranks stack := rfl

theorem onward_of_lt {ranks : List Nat} {start : Nat} (h : start < ranks.length) (p : Place) :
    p.onward ranks start =
      ((p.below.child? ranks[start]).map (·, start + 1)).toList ++ p.onward ranks (start + 1) := by
  rw [onward, List.drop_eq_getElem_cons h, List.zipIdx_cons, List.filterMap_cons]
  cases hchild : p.below.child? ranks[start] <;> simp [hchild, onward]

theorem rounds_reverse_append (ranks : List Nat) (l stack : List (Place × Nat)) :
    rounds ranks (l.reverse ++ stack) = rounds ranks l + rounds ranks stack := by
  induction l generalizing stack with
  | nil => exact (Nat.zero_add _).symm
  | cons x l ih =>
    rw [List.reverse_cons, List.append_assoc, List.singleton_append, ih, rounds_cons, rounds_cons,
      Nat.add_left_comm, Nat.add_assoc]

theorem rounds_onward_lt (ranks : List Nat) (p : Place) (start : Nat) :
    rounds ranks (p.onward ranks start) < Nat.pow 2 (ranks.length - start) := by
  by_cases h : start < ranks.length
  · have hrest := rounds_onward_lt ranks p (start + 1)
    have hdouble : Nat.pow 2 (ranks.length - start) =
        Nat.pow 2 (ranks.length - (start + 1)) * 2 := by
      have hsucc : ranks.length - start = ranks.length - (start + 1) + 1 := by omega
      rw [hsucc]
      rfl
    rw [onward_of_lt h]
    cases p.below.child? ranks[start] with
    | none =>
      show rounds ranks (p.onward ranks (start + 1)) < _
      omega
    | some child =>
      show Nat.pow 2 (ranks.length - (start + 1)) + rounds ranks (p.onward ranks (start + 1)) < _
      omega
  · have hnone : p.onward ranks start = [] := by
      rw [onward, List.drop_eq_nil_of_le (Nat.le_of_not_lt h)]
      rfl
    rw [hnone]
    exact Nat.pos_of_ne_zero (by simp)
termination_by ranks.length - start

/-- Whether a path from one of the places on the stack runs through `ranks` only, and not
through the first of them, as many as have been used up. The place that was pushed last, which is
that of the highest rank, is the next to be tried. -/
def search (ranks : List Nat) : List (Place × Nat) → Bool
  | [] => false
  | (p, start) :: stack =>
    if p.ends then true else search ranks ((p.onward ranks start).reverse ++ stack)
termination_by stack => rounds ranks stack
decreasing_by
  rw [rounds_reverse_append, rounds_cons]
  exact Nat.add_lt_add_right (rounds_onward_lt ranks p start) _

end Place

/-- A family of sets. -/
structure SetFamily (α : Type) where
  /-- The elements ever added; the place of an element is its rank. -/
  elements : List α
  /-- Whether the empty set is a member. -/
  holdsEmpty : Bool
  branches : Branches
  /-- How many members there are; a set added twice counts once. -/
  size : Nat
  deriving Repr

namespace SetFamily
variable {α : Type}

instance : EmptyCollection (SetFamily α) := ⟨⟨[], false, .nil, 0⟩⟩
instance : Inhabited (SetFamily α) := ⟨∅⟩

/-- The members, each by ascending rank. -/
def sets (f : SetFamily α) : List (List α) :=
  (if f.holdsEmpty then [[]] else []) ++ f.branches.paths.map fun path => path.filterMap (f.elements[·]?)

def isEmpty (f : SetFamily α) : Bool := f.size = 0

variable [DecidableEq α]

/-- The elements seen so far with those of `set` that are new behind them. -/
def rankAll (elements set : List α) : List α :=
  set.foldl (fun seen e => if e ∈ seen then seen else seen ++ [e]) elements

/-- Takes out what is equal to what comes next. -/
def eraseRepeats : List Nat → List Nat
  | r :: q :: rest => if r = q then eraseRepeats (q :: rest) else r :: eraseRepeats (q :: rest)
  | short => short

/-- The ranks of those elements of `set` that have one, ascending and each once. -/
def ranks (elements set : List α) : List Nat :=
  eraseRepeats ((set.filterMap fun e => elements.idxOf? e).mergeSort)

/-- Whether the set of these ranks is a member. -/
def holds (f : SetFamily α) (path : List Nat) : Bool :=
  if path.isEmpty then f.holdsEmpty else f.branches.holds path

/-- Adds a set, given by its elements in any order and any number. -/
def add (f : SetFamily α) (set : List α) : SetFamily α :=
  let elements := rankAll f.elements set
  let path := ranks elements set
  { elements
    holdsEmpty := f.holdsEmpty || set.isEmpty
    branches := f.branches.insert path
    size := if f.holds path then f.size else f.size + 1 }

def addSingleton (f : SetFamily α) (e : α) : SetFamily α := f.add [e]

/-- Whether some member is contained in `candidate`. -/
def hasSubsetOf (f : SetFamily α) (candidate : List α) : Bool :=
  if f.size = 0 then false
  else Place.search (ranks f.elements candidate) [(⟨f.holdsEmpty, f.branches⟩, 0)]

end SetFamily

end Verdict
