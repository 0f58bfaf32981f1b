import Mathlib.Data.List.Basic
import Verdict.Dependency.Node

/-! Which occurrences a walk comes to.

`Descent.Below` is the relation that a walk explores: an entry leads to itself and to
whatever is below an entry that it enters. `mem_visit_iff` says that the walk lists exactly
those, so that what is mentioned in an expression can be stated without the order in which
it is looked for: an expression mentions a declaration (`Expr.Mentions`) if the declaration
stands at the top of one of its subexpressions. -/
namespace Verdict

namespace Descent
variable {κ : Type}

/-- The second entry is the first, or is entered from it at some depth. -/
inductive Below (d : Descent κ) : Expr × κ → Expr × κ → Prop
  | here (p : Expr × κ) : Below d p p
  | enter {p q r : Expr × κ} : q ∈ d.enter p.2 p.1 → Below d q r → Below d p r

theorem Below.mem_preorder {d : Descent κ} {p r : Expr × κ} (h : Below d p r) :
    r ∈ d.preorder p.2 p.1 := by
  induction h with
  | here => rw [preorder_eq]; exact List.mem_cons_self
  | enter hq _ ih =>
    rw [preorder_eq]
    exact List.mem_cons_of_mem _ (List.mem_flatMap.mpr ⟨_, List.mem_reverse.mpr hq, ih⟩)

theorem below_of_mem_preorder (d : Descent κ) (k : κ) (e : Expr) (r : Expr × κ)
    (h : r ∈ d.preorder k e) : Below d (e, k) r := by
  rw [preorder_eq, List.mem_cons, List.mem_flatMap] at h
  rcases h with rfl | ⟨⟨c, k'⟩, hc, hr⟩
  · exact .here _
  · have hc := List.mem_reverse.mp hc
    have hsub := (d.sublist_children k e).subset (List.mem_map_of_mem hc)
    have := Expr.sizeOf_lt_of_mem_children hsub
    exact .enter hc (below_of_mem_preorder d k' c r hr)
termination_by sizeOf e

theorem mem_preorder_iff (d : Descent κ) (k : κ) (e : Expr) (r : Expr × κ) :
    r ∈ d.preorder k e ↔ Below d (e, k) r :=
  ⟨below_of_mem_preorder d k e r, fun h => h.mem_preorder⟩

/-- A walk lists what is below one of the entries that it starts from, and nothing else. -/
theorem mem_visit_iff (d : Descent κ) (pending : List (Expr × κ)) (r : Expr × κ) :
    r ∈ d.visit pending ↔ ∃ p ∈ pending, Below d p r := by
  rw [visit_eq_flatMap, List.mem_flatMap]
  exact exists_congr fun p => and_congr_right fun _ => mem_preorder_iff d p.2 p.1 r

theorem mem_visit_singleton_iff (d : Descent κ) (p r : Expr × κ) :
    r ∈ d.visit [p] ↔ Below d p r := by
  simp [mem_visit_iff]

end Descent

namespace Expr

/-- The first expression is the second or stands inside it, in a trigger perhaps. -/
inductive Within : Expr → Expr → Prop
  | refl (e : Expr) : Within e e
  | child {s c e : Expr} : c ∈ e.children → Within s c → Within s e

theorem Within.of_below {p r : Expr × Unit} (h : Descent.Below everywhere p r) :
    Within r.1 p.1 := by
  induction h with
  | here => exact .refl _
  | enter hq _ ih =>
    obtain ⟨c, hc, rfl⟩ := List.mem_map.mp hq
    exact .child hc ih

theorem Within.entered {s e : Expr} (h : Within s e) : Descent.Below everywhere (e, ()) (s, ()) := by
  induction h with
  | refl => exact .here _
  | child hc _ ih => exact .enter (List.mem_map.mpr ⟨_, hc, rfl⟩) ih

/-- A walk visits an expression and then, from the last child to the first, what is inside it. -/
theorem walk_eq (e : Expr) : e.walk = e :: e.children.reverse.flatMap walk := by
  have hwalk : ∀ e : Expr, e.walk = (everywhere.preorder () e).map Prod.fst := by
    intro e
    rw [walk, Descent.visit_eq_flatMap, List.flatMap_singleton]
  rw [hwalk, Descent.preorder_eq, List.map_cons]
  congr 1
  rw [everywhere, List.map_flatMap, ← List.map_reverse, List.flatMap_map]
  exact List.flatMap_congr fun c _ => (hwalk c).symm

theorem totalSize_pending_lt (e : Expr) (es : List Expr) :
    totalSize (e.children.reverse ++ es) < totalSize (e :: es) := by
  rw [totalSize_append, totalSize_reverse, totalSize_cons]
  exact Nat.add_lt_add_right e.totalSize_children_lt _

theorem mem_walk_iff (s e : Expr) : s ∈ e.walk ↔ Within s e := by
  simp only [walk, List.mem_map, Descent.mem_visit_singleton_iff]
  exact ⟨fun ⟨_, h, hr⟩ => hr ▸ .of_below h, fun h => ⟨(s, ()), h.entered, rfl⟩⟩

/-- The declaration stands somewhere in the expression as a constant or as the function of a
call, in a trigger perhaps. -/
def Mentions (e : Expr) (id : DeclId) : Prop := ∃ s, Within s e ∧ s.symbol? = some id

theorem mem_symbols_iff (e : Expr) (id : DeclId) : id ∈ e.symbols ↔ e.Mentions id := by
  simp [symbols, Mentions, mem_walk_iff]

end Expr

end Verdict
