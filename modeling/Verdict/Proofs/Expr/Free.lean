import Mathlib.Data.List.Basic
import Verdict.Expr.Variables

/-! Which names occur free in an expression.

`Free` says it along the expression and without scopes: an occurrence is free if no expression that
it stands in the scope of binds its name. The search finds the free occurrences, each as often as it
is there and from the last to the first (`freeVariables_eq`): at every moment the scope that a
pending expression is kept with binds exactly the names that the expressions around it bind there,
whatever scopes have been opened for others in the meantime (`Scopes.free_eq`). -/
namespace Verdict.Expr

/-- The names that an expression binds. -/
def binders : Expr → List String
  | quantified _ names _ _ | lambda names _ => names
  | letIn bindings _ => bindings.map Prod.fst
  | _ => []

/-- The children in the scope of these names. -/
def scope : Expr → List Expr
  | letIn _ body => [body]
  | e => e.children

/-- The children that stand outside of it. -/
def outside : Expr → List Expr
  | letIn bindings _ => bindings.map Prod.snd
  | _ => []

/-- The name has an occurrence in the expression that nothing around it binds. -/
inductive Free (name : String) : Expr → Prop
  | here : Free name (var name)
  | scope {c e : Expr} : c ∈ e.scope → name ∉ e.binders → Free name c → Free name e
  | outside {c e : Expr} : c ∈ e.outside → Free name c → Free name e

variable {name : String} {c e : Expr}

theorem children_eq (e : Expr) : e.children = e.outside ++ e.scope := by
  cases e <;> rfl

theorem sizeOf_lt_of_mem_scope (h : c ∈ e.scope) : sizeOf c < sizeOf e := by
  apply sizeOf_lt_of_mem_children
  rw [children_eq]
  exact List.mem_append_right _ h

theorem sizeOf_lt_of_mem_outside (h : c ∈ e.outside) : sizeOf c < sizeOf e := by
  apply sizeOf_lt_of_mem_children
  rw [children_eq]
  exact List.mem_append_left _ h

/-! ### The recursion -/

/-- What occurs free in an expression occurs free in one of its children, and where the child
stands in its scope the expression does not bind it. -/
theorem freeOccurrences_eq (hvar : ∀ name, e ≠ var name) : e.freeOccurrences =
    (e.scope.reverse.flatMap freeOccurrences).filter (· ∉ e.binders) ++
      e.outside.reverse.flatMap freeOccurrences := by
  have hnone : ∀ names : List String, names.filter (· ∉ ([] : List String)) = names := fun names =>
    List.filter_eq_self.mpr fun _ _ => decide_eq_true List.not_mem_nil
  cases e with
  | var name => exact absurd rfl (hvar name)
  | quantified | lambda | letIn =>
    rw [freeOccurrences]
    simp only [List.flatMap_subtype, List.unattach_attach, scope, outside, children,
      List.reverse_append, List.reverse_singleton, List.flatMap_append, List.flatMap_singleton,
      List.reverse_nil, List.flatMap_nil, List.append_nil]
    rfl
  | call | builtin =>
    rw [freeOccurrences]
    simp only [List.flatMap_subtype, List.unattach_attach]
    exact ((List.append_nil _).trans (hnone _)).symm
  | _ =>
    refine .trans ?_ ((List.append_nil _).trans (hnone _)).symm
    rw [freeOccurrences]
    simp [scope, children]

theorem free_var_iff {x : String} : Free name (var x) ↔ x = name := by
  constructor
  · intro h
    cases h with
    | here => rfl
    | scope hc => cases hc
    | outside hc => cases hc
  · intro h
    subst h
    exact .here

theorem free_iff (hvar : ∀ x, e ≠ var x) : e.Free name ↔
    (name ∉ e.binders ∧ ∃ c ∈ e.scope, c.Free name) ∨ ∃ c ∈ e.outside, c.Free name := by
  constructor
  · intro h
    cases h with
    | here => exact absurd rfl (hvar name)
    | scope hc hbinders hfree => exact .inl ⟨hbinders, _, hc, hfree⟩
    | outside hc hfree => exact .inr ⟨_, hc, hfree⟩
  · intro h
    rcases h with ⟨hbinders, c, hc, hfree⟩ | ⟨c, hc, hfree⟩
    · exact .scope hc hbinders hfree
    · exact .outside hc hfree

theorem mem_freeOccurrences_iff (e : Expr) (name : String) :
    name ∈ e.freeOccurrences ↔ e.Free name := by
  by_cases hvar : ∀ x, e ≠ var x
  · have hscope : ∀ c ∈ e.scope, name ∈ c.freeOccurrences ↔ c.Free name := fun c hc =>
      have := sizeOf_lt_of_mem_scope hc
      mem_freeOccurrences_iff c name
    have houtside : ∀ c ∈ e.outside, name ∈ c.freeOccurrences ↔ c.Free name := fun c hc =>
      have := sizeOf_lt_of_mem_outside hc
      mem_freeOccurrences_iff c name
    simp only [freeOccurrences_eq hvar, free_iff hvar, List.mem_append, List.mem_filter,
      List.mem_flatMap, List.mem_reverse, decide_eq_true_eq]
    rw [and_comm, exists_congr fun c => and_congr_right (hscope c),
      exists_congr fun c => and_congr_right (houtside c)]
  · obtain ⟨x, rfl⟩ : ∃ x, e = var x := by simpa using hvar
    rw [freeOccurrences, List.mem_singleton, free_var_iff, eq_comm]
termination_by sizeOf e

/-! ### The search -/

namespace Scopes
variable {s s' : Scopes} {around scope : Option Nat} {names : List String}

/-- The scope is one of these, if it is one at all. -/
def Holds (s : Scopes) (scope : Option Nat) : Prop := ∀ i ∈ scope, i < s.opened.size

/-- Scopes have been opened; those that there were bind what they bound. -/
structure Grows (s s' : Scopes) : Prop where
  holds : ∀ {scope}, s.Holds scope → s'.Holds scope
  binds : ∀ {scope} name, s.Holds scope → s'.binds name scope = s.binds name scope

theorem Grows.refl (s : Scopes) : s.Grows s := ⟨id, fun _ _ => rfl⟩

theorem binds_some {i : Nat} (hi : i < s.opened.size) : s.binds name (some i) =
    (decide (name ∈ s.opened[i].names) || s.binds name s.opened[i].around) := by
  rw [binds, dif_pos hi]

theorem binds_enclose_of_lt {i : Nat} (hi : i < s.opened.size) :
    (s.enclose around names).binds name (some i) = s.binds name (some i) := by
  induction i using Nat.strongRecOn with
  | ind i ih =>
    have hi' : i < (s.enclose around names).opened.size := by
      rw [enclose, Array.size_push]
      omega
    have hsame : (s.enclose around names).opened[i] = s.opened[i] := Array.getElem_push_lt hi
    rw [binds_some hi', binds_some hi, hsame]
    -- The scope around it is older, so that the chain is the same from there on.
    cases hj : s.opened[i].around with
    | none => simp [binds]
    | some j =>
      have hlt := s.around_lt i hi j hj
      rw [ih j hlt (Nat.lt_trans hlt hi)]

theorem grows_enclose (s : Scopes) (around : Option Nat) (names : List String) :
    s.Grows (s.enclose around names) where
  holds h i hi := by
    rw [enclose, Array.size_push]
    exact Nat.lt_succ_of_lt (h i hi)
  binds {scope} name h := by
    cases scope with
    | none => simp [binds]
    | some i => exact binds_enclose_of_lt (h i rfl)

/-- The new scope binds its names, and what is bound around it. -/
theorem binds_enclose_self (h : s.Holds around) :
    (s.enclose around names).binds name (some s.opened.size) =
      (decide (name ∈ names) || s.binds name around) := by
  have hsize : s.opened.size < (s.enclose around names).opened.size := by
    rw [enclose, Array.size_push]
    omega
  have hnew : (s.enclose around names).opened[s.opened.size] = ⟨names, around⟩ := by
    have hthere : around.filter (· < s.opened.size) = around := by
      cases around with
      | none => rfl
      | some i => simpa using h i rfl
    simp [enclose, hthere]
  rw [binds_some hsize, hnew, (grows_enclose s around names).binds name h]

theorem holds_enclose_self : (s.enclose around names).Holds (some s.opened.size) := by
  intro i hi
  cases hi
  rw [enclose, Array.size_push]
  omega

/-- The children of an expression that stand in its scope are kept with one that binds its names
and what is bound around it, the others with the scope that it has itself. -/
theorem enter_spec (h : s.Holds scope) (e : Expr) : ∃ inner,
    (s.enter scope e).2 = e.outside.map (·, scope) ++ e.scope.map (·, inner) ∧
      s.Grows (s.enter scope e).1 ∧ (s.enter scope e).1.Holds inner ∧
      ∀ name, (s.enter scope e).1.binds name inner =
        (decide (name ∈ e.binders) || s.binds name scope) := by
  cases e with
  | quantified _ names _ _ | lambda names _ =>
    exact ⟨some s.opened.size, rfl, grows_enclose s scope names, holds_enclose_self,
      fun _ => binds_enclose_self h⟩
  | letIn bindings body =>
    exact ⟨some s.opened.size, by simp [enter, outside, Expr.scope, Function.comp_def],
      grows_enclose s scope _, holds_enclose_self, fun _ => binds_enclose_self h⟩
  | _ => exact ⟨scope, rfl, .refl s, h, fun _ => by simp [enter, binders]⟩

/-- **What the search finds in an expression that is pending** are its free occurrences, less the
names that the scope binds which the expression is kept with. -/
theorem free_eq {pending : List (Expr × Option Nat)} (h : ∀ p ∈ pending, s.Holds p.2) :
    s.free pending =
      pending.flatMap fun p => p.1.freeOccurrences.filter fun name => !s.binds name p.2 := by
  fun_induction s.free pending with
  | case1 => rfl
  | case2 s name scope rest hbound ih =>
    obtain ⟨-, hrest⟩ := List.forall_mem_cons.mp h
    rw [List.flatMap_cons, ih hrest, freeOccurrences]
    simp [hbound]
  | case3 s name scope rest hfree ih =>
    obtain ⟨-, hrest⟩ := List.forall_mem_cons.mp h
    rw [List.flatMap_cons, ih hrest, freeOccurrences]
    simp [hfree]
  | case4 s e scope rest hvar ih =>
    obtain ⟨hscope, hrest⟩ := List.forall_mem_cons.mp h
    obtain ⟨inner, hentered, hgrows, hinner, hbinds⟩ := enter_spec hscope e
    rw [hentered] at ih
    have hholds : ∀ p ∈ (e.outside.map (·, scope) ++ e.scope.map (·, inner)).reverse ++ rest,
        (s.enter scope e).1.Holds p.2 := by
      intro p hp
      simp only [List.mem_append, List.mem_reverse, List.mem_map] at hp
      rcases hp with (⟨c, -, rfl⟩ | ⟨c, -, rfl⟩) | hp
      · exact hgrows.holds hscope
      · exact hinner
      · exact hgrows.holds (hrest p hp)
    -- What was pending before is looked up among more scopes now, and found as before.
    have hbefore : ∀ p ∈ rest,
        (p.1.freeOccurrences.filter fun name => !(s.enter scope e).1.binds name p.2) =
          p.1.freeOccurrences.filter fun name => !s.binds name p.2 := by
      intro p hp
      simp only [hgrows.binds _ (hrest p hp)]
    rw [hentered, ih hholds, List.flatMap_append, List.flatMap_congr hbefore, List.flatMap_cons]
    congr 1
    rw [freeOccurrences_eq hvar, List.filter_append, List.filter_filter, List.filter_flatMap,
      List.filter_flatMap, List.reverse_append, List.flatMap_append, ← List.map_reverse,
      ← List.map_reverse, List.flatMap_map, List.flatMap_map]
    simp only [hbinds, hgrows.binds _ hscope, Bool.not_or, decide_not, Bool.and_comm]

end Scopes

theorem freeVariables_eq (e : Expr) : e.freeVariables = e.freeOccurrences := by
  rw [freeVariables, Scopes.free_eq]
  · simp [Scopes.binds]
  · simp [Scopes.Holds]

theorem mem_freeVariables_iff (e : Expr) (name : String) :
    name ∈ e.freeVariables ↔ e.Free name := by
  rw [freeVariables_eq, mem_freeOccurrences_iff]

/-- **The search finds the free variables.** It lists the free occurrences of an expression, each as
often as it is there, in the order of the recursion from the last to the first; so it lists a name
just if the name has an occurrence that is not in the scope of a binder of this name. -/
theorem freeVariables_are_free_occurrences (e : Expr) :
    e.freeVariables = e.freeOccurrences ∧ ∀ name, name ∈ e.freeVariables ↔ e.Free name :=
  ⟨freeVariables_eq e, mem_freeVariables_iff e⟩

/-- The right-hand side is no part of the scope, and the `x` in the `lambda` is bound twice. -/
example : freeVariables (letIn [("x", var "x")]
    (binary .and (lambda ["x"] (var "x")) (binary .eq (var "x") (var "y")))) = ["y", "x"] := by cbv

end Verdict.Expr
