import Verdict.Expr

/-! The free variables of an expression.

A quantifier binds its names in its triggers and its body, a `lambda` in its body, and a
`letIn` in its body alone: the right-hand sides stand outside the new names. The search keeps
what is still to be visited in a list, each expression with the scope that it stands in, and
takes the one that was added last. Scopes are numbered as they are opened, and each knows the
one around it; `freeOccurrences` says the same by recursion and without them. -/
namespace Verdict.Expr

/-- Some names that are bound together, and the scope that this happens in. -/
structure Scope where
  names : List String
  around : Option Nat

/-- The scopes opened so far, each known by its number. A scope is younger than the one around
it. -/
structure Scopes where
  opened : Array Scope
  around_lt : ∀ (i : Nat) (h : i < opened.size), ∀ j ∈ opened[i].around, j < i

namespace Scopes

/-- No scope at all. -/
def empty : Scopes := ⟨#[], nofun⟩

/-- Opens a scope in another one, or in none. -/
def enclose (s : Scopes) (around : Option Nat) (names : List String) : Scopes where
  opened := s.opened.push ⟨names, around.filter (· < s.opened.size)⟩
  around_lt i h j hj := by
    rw [Array.getElem_push] at hj
    split at hj
    case isTrue hi => exact s.around_lt i hi j hj
    case isFalse hi =>
      have hj : j < s.opened.size := by simpa using (Option.mem_filter_iff.mp hj).2
      omega

/-- Whether a name is bound in a scope, by the scope itself or by one that it stands in. -/
def binds (s : Scopes) (name : String) : Option Nat → Bool
  | none => false
  | some i =>
    if h : i < s.opened.size then
      decide (name ∈ s.opened[i].names) || s.binds name s.opened[i].around
    else false
termination_by scope => scope.elim 0 (· + 1)
decreasing_by
  cases hj : s.opened[i].around with
  | none => simp
  | some j => simpa using s.around_lt i h j hj

/-- Goes into an expression: the scopes after that, and its children, each with the scope that
it stands in. -/
def enter (s : Scopes) (scope : Option Nat) (e : Expr) : Scopes × List (Expr × Option Nat) :=
  match e with
  | quantified _ names _ _ | lambda names _ =>
    (s.enclose scope names, e.children.map fun c => (c, some s.opened.size))
  | letIn bindings body =>
    (s.enclose scope (bindings.map Prod.fst),
      (bindings.map fun b => (b.2, scope)) ++ [(body, some s.opened.size)])
  | _ => (s, e.children.map fun c => (c, scope))

theorem map_fst_enter (s : Scopes) (scope : Option Nat) (e : Expr) :
    (s.enter scope e).2.map Prod.fst = e.children := by
  cases e <;> simp [enter, children, Function.comp_def]

/-- The free variables of the expressions still pending, the first of the list first; what an
expression leads to comes before the rest. -/
def free (s : Scopes) (pending : List (Expr × Option Nat)) : List String :=
  match pending with
  | [] => []
  | (var name, scope) :: rest =>
    if s.binds name scope then s.free rest else name :: s.free rest
  | (e, scope) :: rest => (s.enter scope e).1.free ((s.enter scope e).2.reverse ++ rest)
termination_by totalSize (pending.map Prod.fst)
decreasing_by
  · simp only [List.map_cons, totalSize_cons, var.sizeOf_spec]
    omega
  · simp only [List.map_cons, totalSize_cons, var.sizeOf_spec]
    omega
  · have := totalSize_children_lt e
    simp only [List.map_append, List.map_reverse, List.map_cons, map_fst_enter, totalSize_append,
      totalSize_reverse, totalSize_cons]
    omega

end Scopes

/-- The names that occur free, an occurrence at a time, in the order in which they are found. -/
def freeVariables (e : Expr) : List String := Scopes.empty.free [(e, none)]

/-- The free occurrences by recursion on the expression, from the last to the first: what a
binder binds is taken out where it binds it. -/
def freeOccurrences (e : Expr) : List String :=
  match e with
  | var name => [name]
  | literal _ | const _ => []
  | call _ args | builtin _ args => args.reverse.attach.flatMap fun ⟨a, _⟩ => a.freeOccurrences
  | unary _ inner | old inner | extract inner _ _ => inner.freeOccurrences
  | binary _ lhs rhs | concat lhs rhs => rhs.freeOccurrences ++ lhs.freeOccurrences
  | quantified _ names triggers body =>
    (body.freeOccurrences ++
      triggers.flatten.reverse.attach.flatMap fun ⟨t, _⟩ => t.freeOccurrences).filter (· ∉ names)
  | lambda names body => body.freeOccurrences.filter (· ∉ names)
  | letIn bindings body =>
    (body.freeOccurrences.filter (· ∉ bindings.map Prod.fst)) ++
      (bindings.map Prod.snd).reverse.attach.flatMap fun ⟨r, _⟩ => r.freeOccurrences
termination_by sizeOf e
decreasing_by
  all_goals
    apply sizeOf_lt_of_mem_children
    simp_all [children]

end Verdict.Expr
