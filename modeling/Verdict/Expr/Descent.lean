import Verdict.Expr

/-! Walking through an expression.

A `Descent` says which children of an expression are entered and what each of them
inherits from above: the names bound around it, its polarity, or nothing at all. The walk
keeps the entries still to be visited in a list and takes the one that was added last, so
children are visited from the last to the first. `preorder` is the same order said by
recursion on the expression, and `visit_eq_flatMap` says that the two agree. -/
namespace Verdict

/-- Which children are entered, and what each inherits. -/
structure Descent (κ : Type) where
  enter : κ → Expr → List (Expr × κ)
  /-- Only children are entered, each at most once and in the order of the text. -/
  sublist_children : ∀ k e, ((enter k e).map Prod.fst).Sublist e.children

namespace Descent
variable {κ : Type}

theorem totalSize_enter_lt (d : Descent κ) (k : κ) (e : Expr) :
    Expr.totalSize ((d.enter k e).map Prod.fst) < sizeOf e :=
  Nat.lt_of_le_of_lt (Expr.totalSize_le_of_sublist (d.sublist_children k e))
    (Expr.totalSize_children_lt e)

/-- Visits the entries still pending, the first of the list first; what an entry leads to
comes before the rest. -/
def visit (d : Descent κ) : List (Expr × κ) → List (Expr × κ)
  | [] => []
  | (e, k) :: pending => (e, k) :: d.visit ((d.enter k e).reverse ++ pending)
termination_by pending => Expr.totalSize (pending.map Prod.fst)
decreasing_by
  have := d.totalSize_enter_lt k e
  simp [List.map_reverse]
  omega

/-- An expression, and then all that is entered below it, from the last child to the
first. -/
def preorder (d : Descent κ) (k : κ) (e : Expr) : List (Expr × κ) :=
  (e, k) :: (d.enter k e).reverse.attach.flatMap fun ⟨(c, k'), _⟩ => d.preorder k' c
termination_by sizeOf e
decreasing_by
  rename_i h
  exact Expr.sizeOf_lt_of_mem_children
    ((d.sublist_children k e).subset (List.mem_map_of_mem (List.mem_reverse.mp h)))

/-- The recursive order without the bookkeeping of the recursion. -/
theorem preorder_eq (d : Descent κ) (k : κ) (e : Expr) :
    d.preorder k e = (e, k) :: (d.enter k e).reverse.flatMap fun p => d.preorder p.2 p.1 := by
  rw [preorder]
  congr 1
  simp only [List.flatMap_subtype, List.unattach_attach]

/-- The pending entries are done one after the other, each with all that is below it. -/
theorem visit_eq_flatMap (d : Descent κ) (pending : List (Expr × κ)) :
    d.visit pending = pending.flatMap fun p => d.preorder p.2 p.1 := by
  fun_induction d.visit pending with
  | case1 => rfl
  | case2 e k pending ih =>
    rw [List.unattach_reverse, List.unattach_attach] at ih
    rw [ih, List.flatMap_cons, preorder_eq]
    simp

end Descent

namespace Expr

/-- Every child is entered and nothing is inherited. -/
def everywhere : Descent Unit where
  enter _ e := e.children.map fun c => (c, ())
  sublist_children _ e := by simp [Function.comp_def]

/-- An expression and all its subexpressions, each before those inside it. -/
def walk (e : Expr) : List Expr :=
  (everywhere.visit [(e, ())]).map Prod.fst

end Expr

end Verdict
