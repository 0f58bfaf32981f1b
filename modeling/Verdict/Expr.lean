import Verdict.Location

/-! Expressions of a resolved program.

Functions and constants are named by the id of their declaration, everything else by its
name. An expression is seen through its `children`: the expressions directly inside it, in
the order of the text. Whatever walks through expressions rests on the one fact that the
children together are smaller than the whole (`totalSize_children_lt`). -/
namespace Verdict

inductive Literal
  | bool (value : Bool)
  | int (value : Int)
  | bitVector (value width : Nat)
  deriving DecidableEq, Repr

inductive UnaryOp
  | not
  | neg
  deriving DecidableEq, Repr

inductive BinaryOp
  | and | or | implies | iff
  | eq | neq | lt | le | gt | ge
  | add | sub | mul | div | mod
  deriving DecidableEq, Repr

inductive Quantifier
  | all
  | some
  deriving DecidableEq, Repr

/-- An expression. A trigger of a quantifier is a list of expressions that must all match
together; the right-hand sides of a `letIn` stand outside the names that it binds. -/
inductive Expr
  | literal (value : Literal)
  | var (name : String)
  | const (id : DeclId)
  | call (function : DeclId) (args : List Expr)
  | unary (op : UnaryOp) (arg : Expr)
  | binary (op : BinaryOp) (lhs rhs : Expr)
  | builtin (op : String) (args : List Expr)
  | quantified (kind : Quantifier) (bound : List String) (triggers : List (List Expr)) (body : Expr)
  | lambda (bound : List String) (body : Expr)
  | letIn (bindings : List (String × Expr)) (body : Expr)
  | old (inner : Expr)
  | extract (bits : Expr) (start stop : Nat)
  | concat (lhs rhs : Expr)
  deriving Inhabited, Repr

namespace Expr

/-- The expressions directly inside an expression, those of its triggers included. -/
def children : Expr → List Expr
  | literal _ | var _ | const _ => []
  | call _ args | builtin _ args => args
  | unary _ arg => [arg]
  | binary _ lhs rhs | concat lhs rhs => [lhs, rhs]
  | quantified _ _ triggers body => triggers.flatten ++ [body]
  | lambda _ body => [body]
  | letIn bindings body => bindings.map Prod.snd ++ [body]
  | old inner => [inner]
  | extract bits _ _ => [bits]

/-- How large the expressions of a list are together. -/
noncomputable def totalSize : List Expr → Nat
  | [] => 0
  | e :: es => sizeOf e + totalSize es

@[simp] theorem totalSize_nil : totalSize [] = 0 := rfl

@[simp] theorem totalSize_cons (e : Expr) (es : List Expr) :
    totalSize (e :: es) = sizeOf e + totalSize es := rfl

@[simp] theorem totalSize_append (es fs : List Expr) :
    totalSize (es ++ fs) = totalSize es + totalSize fs := by
  induction es with
  | nil => simp
  | cons e es ih => simp [ih, Nat.add_assoc]

@[simp] theorem totalSize_reverse (es : List Expr) : totalSize es.reverse = totalSize es := by
  induction es with
  | nil => rfl
  | cons e es ih => simp [ih, Nat.add_comm]

theorem totalSize_le_of_sublist {es fs : List Expr} (h : es.Sublist fs) :
    totalSize es ≤ totalSize fs := by
  induction h with
  | slnil => exact Nat.le_refl _
  | cons e _ ih => exact Nat.le_trans ih (Nat.le_add_left _ _)
  | cons_cons e _ ih => simpa using ih

theorem totalSize_lt (es : List Expr) : totalSize es < sizeOf es := by
  induction es with
  | nil => simp
  | cons e es ih => simp; omega

theorem totalSize_flatten_lt (ts : List (List Expr)) : totalSize ts.flatten < sizeOf ts := by
  induction ts with
  | nil => simp
  | cons t ts ih => have := totalSize_lt t; simp; omega

theorem totalSize_bindings_lt (bs : List (String × Expr)) :
    totalSize (bs.map Prod.snd) < sizeOf bs := by
  induction bs with
  | nil => simp
  | cons b bs ih => obtain ⟨name, e⟩ := b; simp; omega

/-- The children of an expression are together smaller than the expression. -/
theorem totalSize_children_lt (e : Expr) : totalSize e.children < sizeOf e := by
  cases e with
  | call _ args => have := totalSize_lt args; simp [children]; omega
  | builtin _ args => have := totalSize_lt args; simp [children]; omega
  | quantified _ _ triggers body => have := totalSize_flatten_lt triggers; simp [children]; omega
  | letIn bindings body => have := totalSize_bindings_lt bindings; simp [children]; omega
  | _ => simp [children] <;> omega

theorem sizeOf_lt_of_mem_children {c e : Expr} (h : c ∈ e.children) : sizeOf c < sizeOf e := by
  have hsub : [c].Sublist e.children := List.singleton_sublist.mpr h
  have := totalSize_le_of_sublist hsub
  have := totalSize_children_lt e
  simp at *
  omega

end Expr

end Verdict
