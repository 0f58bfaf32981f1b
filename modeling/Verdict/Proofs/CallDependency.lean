import Verdict.CallDependency
import Verdict.Proofs.Closure
import Verdict.Proofs.Expr.Occurrence
import Verdict.Proofs.Program

/-! Which functions are called from a declaration.

`Calls` is the least relation that holds of the functions a declaration calls itself, of those
its procedures call, and of whatever functions these call. The closure lists exactly these
functions (`mem_functionClosure_iff`). When what one declaration calls is changed, only those
are concerned who call it (`Calls.transfer`).

`Program.Calls`, `Program.RestsOn` and `Program.CalledFrom` say the same of a program, by what
stands in its expressions and without the tables that are collected from it. -/
namespace Verdict

namespace CallDependencies
variable {deps deps' : CallDependencies} {id d f : DeclId}

/-- The functions called from `id` at any distance. -/
inductive Calls (deps : CallDependencies) (id : DeclId) : DeclId → Prop
  | own {f : DeclId} : f ∈ deps.functions id → Calls deps id f
  | contract {q f : DeclId} : q ∈ deps.procedures id → f ∈ deps.functions q → Calls deps id f
  | onward {f g : DeclId} : Calls deps id f → g ∈ deps.functions f → Calls deps id g

theorem mem_called (h : f ∈ deps.functions id) : f ∈ deps.called := by
  unfold functions get? at h
  cases he : deps.entries[id.index]? with
  | none =>
    rw [he] at h
    cases h
  | some entry =>
    rw [he] at h
    refine List.mem_eraseDups.mpr (List.mem_flatMap.mpr ⟨entry, ?_, h⟩)
    exact Array.mem_toList_iff.mpr (Array.mem_of_getElem? he)

theorem mem_functionClosure_iff (deps : CallDependencies) (id f : DeclId) :
    f ∈ deps.functionClosure id ↔ deps.Calls id f := by
  rw [functionClosure, Closure.mem_reach_iff]
  constructor
  · intro h
    induction h with
    | seed hs _ =>
      rcases List.mem_append.mp hs with hs | hs
      · exact .own hs
      · obtain ⟨q, hq, hs⟩ := List.mem_flatMap.mp hs
        exact .contract hq hs
    | step _ hg _ ih => exact .onward ih hg
  · intro h
    induction h with
    | own hf => exact .seed (List.mem_append_left _ hf) (mem_called hf)
    | contract hq hf =>
      exact .seed (List.mem_append_right _ (List.mem_flatMap.mpr ⟨_, hq, hf⟩)) (mem_called hf)
    | onward _ hg ih => exact .step ih hg (mem_called hg)

theorem nodup_eraseDups {α : Type} [DecidableEq α] (l : List α) : l.eraseDups.Nodup := by
  match l with
  | [] => exact .nil
  | a :: rest =>
    rw [List.eraseDups_cons]
    refine List.nodup_cons.mpr ⟨fun hmem => ?_, nodup_eraseDups _⟩
    have := (List.mem_filter.mp (List.mem_eraseDups.mp hmem)).2
    simp at this
termination_by l.length
decreasing_by exact Nat.lt_succ_of_le (List.length_filter_le _ _)

theorem nodup_functionClosure (deps : CallDependencies) (id : DeclId) :
    (deps.functionClosure id).Nodup :=
  Closure.nodup_reach _ _ _ (nodup_eraseDups _)

theorem get?_collect (p : Program) (id : DeclId) :
    (collect p).get? id = (p.get? id).map (·.callDependency) := by
  unfold get? collect Program.get?
  rw [Array.getElem?_map]

theorem functions_congr (h : deps'.get? id = deps.get? id) : deps'.functions id = deps.functions id := by
  rw [functions, functions, h]

theorem procedures_congr (h : deps'.get? id = deps.get? id) :
    deps'.procedures id = deps.procedures id := by
  rw [procedures, procedures, h]

/-- Where only what `d` calls has changed, what is called still is, unless by way of `d`. -/
theorem Calls.transfer (same : ∀ x, x ≠ d → deps'.get? x = deps.get? x) (hne : id ≠ d)
    (hd : d ∉ deps.procedures id) (h : deps.Calls id f) : deps'.Calls id f ∨ deps'.Calls id d := by
  induction h with
  | own hf => exact .inl (.own (functions_congr (same id hne) ▸ hf))
  | @contract q f hq hf =>
    have hqd : q ≠ d := fun h => hd (h ▸ hq)
    refine .inl (.contract (q := q) ?_ (functions_congr (same q hqd) ▸ hf))
    rwa [procedures_congr (same id hne)]
  | @onward f g _ hg ih =>
    by_cases hfd : f = d
    · subst hfd
      exact .inr (ih.elim (fun h => h) fun h => h)
    · exact ih.imp_left fun h => .onward h (functions_congr (same f hfd) ▸ hg)

end CallDependencies

/-! ### What a program says -/

namespace DeclId

theorem ascending_perm (ids : List DeclId) : (ascending ids).Perm ids.eraseDups :=
  List.mergeSort_perm _ _

theorem mem_ascending_iff {ids : List DeclId} {id : DeclId} : id ∈ ascending ids ↔ id ∈ ids := by
  rw [(ascending_perm ids).mem_iff, List.mem_eraseDups]

theorem nodup_ascending (ids : List DeclId) : (ascending ids).Nodup :=
  (ascending_perm ids).nodup_iff.mpr (CallDependencies.nodup_eraseDups ids)

end DeclId

/-- A call of the function stands in the expression, in a trigger perhaps. -/
def Expr.CallsTo (e : Expr) (f : DeclId) : Prop := ∃ args, Within (.call f args) e

theorem Expr.mem_callees_iff (e : Expr) (f : DeclId) : f ∈ e.callees ↔ e.CallsTo f := by
  simp only [callees, List.mem_filterMap, mem_walk_iff]
  constructor
  · intro h
    obtain ⟨s, hs, hf⟩ := h
    split at hf
    · obtain rfl := Option.some.inj hf
      exact ⟨_, hs⟩
    · cases hf
  · intro h
    obtain ⟨args, hs⟩ := h
    exact ⟨_, hs, rfl⟩

namespace Declaration

/-- What a declaration calls itself: a function in its body, an axiom in its formula, a
procedure in its contract, an implementation in its commands. -/
inductive Calls (d : Declaration) (f : DeclId) : Prop
  | body {body : Expr} : d.functionBody? = some body → body.CallsTo f → Calls d f
  | formula {formula : Expr} : d.formula? = some formula → formula.CallsTo f → Calls d f
  | contract {q : Procedure} {e : Expr} : d.procedure? = some q → e ∈ q.requires ∨ e ∈ q.ensures →
      e.CallsTo f → Calls d f
  | command {i : Implementation} {c : Cmd} {e : Expr} : d.implementation? = some i →
      c ∈ Block.commands i.blocks → e ∈ c.exprs → e.CallsTo f → Calls d f

/-- The procedures that a declaration depends on: an implementation on the one that it
implements, and on those that its commands call. -/
inductive RestsOn (d : Declaration) (q : DeclId) : Prop
  | implemented {i : Implementation} : d.implementation? = some i → i.procedure = q → RestsOn d q
  | called {i : Implementation} {c : Cmd} : d.implementation? = some i →
      c ∈ Block.commands i.blocks → c.callee? = some q → RestsOn d q

theorem exists_callingExprs_iff (d : Declaration) (f : DeclId) :
    (∃ e ∈ d.callingExprs, e.CallsTo f) ↔ d.Calls f := by
  obtain ⟨name, location, attributes, subject⟩ := d
  constructor
  · intro h
    obtain ⟨e, he, hf⟩ := h
    cases subject with
    | law formula => exact .formula rfl (List.mem_singleton.mp he ▸ hf)
    | function params body => exact .body (Option.mem_toList.mp he) hf
    | procedure q => exact .contract rfl (List.mem_append.mp he) hf
    | implementation i =>
      obtain ⟨c, hc, he⟩ := List.mem_flatMap.mp he
      exact .command rfl hc he hf
    | constant _ => cases he
    | global => cases he
    | sort => cases he
  · intro h
    cases h with
    | body hd hf =>
      cases subject <;> cases hd
      exact ⟨_, List.mem_singleton_self _, hf⟩
    | formula hd hf =>
      cases subject <;> cases hd
      exact ⟨_, List.mem_singleton_self _, hf⟩
    | contract hd he hf =>
      cases subject <;> cases hd
      exact ⟨_, List.mem_append.mpr he, hf⟩
    | command hd hc he hf =>
      cases subject <;> cases hd
      exact ⟨_, List.mem_flatMap.mpr ⟨_, hc, he⟩, hf⟩

theorem mem_calledProcedures_iff (d : Declaration) (q : DeclId) :
    q ∈ d.calledProcedures ↔ d.RestsOn q := by
  obtain ⟨name, location, attributes, subject⟩ := d
  constructor
  · intro h
    cases subject with
    | implementation i =>
      rcases List.mem_cons.mp h with rfl | h
      · exact .implemented rfl rfl
      · obtain ⟨c, hc, hq⟩ := List.mem_filterMap.mp h
        exact .called rfl hc hq
    | _ => cases h
  · intro h
    cases h with
    | implemented hd hq =>
      cases subject <;> cases hd
      exact hq ▸ List.mem_cons_self
    | called hd hc hq =>
      cases subject <;> cases hd
      exact List.mem_cons_of_mem _ (List.mem_filterMap.mpr ⟨_, hc, hq⟩)

end Declaration

namespace Program

/-- The declaration `caller` calls the function itself; an unknown one calls nothing. -/
def Calls (p : Program) (caller f : DeclId) : Prop := ∃ d, p.get? caller = some d ∧ d.Calls f

def RestsOn (p : Program) (id q : DeclId) : Prop := ∃ d, p.get? id = some d ∧ d.RestsOn q

/-- The least set that holds what `id` calls and what its procedures call and, with every member,
what that calls: for a function, the calls of its body. -/
inductive CalledFrom (p : Program) (id : DeclId) : DeclId → Prop
  | own {f : DeclId} : p.Calls id f → CalledFrom p id f
  | contract {q f : DeclId} : p.RestsOn id q → p.Calls q f → CalledFrom p id f
  | onward {f g : DeclId} : CalledFrom p id f → p.Calls f g → CalledFrom p id g

end Program

namespace CallDependencies
variable (p : Program) (id : DeclId)

theorem mem_functions_collect_iff (f : DeclId) : f ∈ (collect p).functions id ↔ p.Calls id f := by
  rw [functions, get?_collect, Program.Calls]
  cases p.get? id with
  | none => simp
  | some d =>
    rw [Option.map_some, Option.elim_some, Declaration.callDependency, DeclId.mem_ascending_iff,
      List.mem_flatMap]
    simp only [Expr.mem_callees_iff, Declaration.exists_callingExprs_iff, Option.some.injEq,
      exists_eq_left']

theorem mem_procedures_collect_iff (q : DeclId) :
    q ∈ (collect p).procedures id ↔ p.RestsOn id q := by
  rw [procedures, get?_collect, Program.RestsOn]
  cases p.get? id with
  | none => simp
  | some d =>
    rw [Option.map_some, Option.elim_some, Declaration.callDependency, DeclId.mem_ascending_iff]
    simp only [Declaration.mem_calledProcedures_iff, Option.some.injEq, exists_eq_left']

theorem nodup_procedures_collect : ((collect p).procedures id).Nodup := by
  rw [procedures, get?_collect]
  cases p.get? id with
  | none => exact .nil
  | some d => exact DeclId.nodup_ascending _

/-- What the tables list as called from a declaration is what the program says. -/
theorem calls_collect_iff (f : DeclId) : (collect p).Calls id f ↔ p.CalledFrom id f := by
  constructor
  · intro h
    induction h with
    | own hf => exact .own ((mem_functions_collect_iff ..).mp hf)
    | contract hq hf =>
      exact .contract ((mem_procedures_collect_iff ..).mp hq) ((mem_functions_collect_iff ..).mp hf)
    | onward _ hg ih => exact .onward ih ((mem_functions_collect_iff ..).mp hg)
  · intro h
    induction h with
    | own hf => exact .own ((mem_functions_collect_iff ..).mpr hf)
    | contract hq hf =>
      exact .contract ((mem_procedures_collect_iff ..).mpr hq) ((mem_functions_collect_iff ..).mpr hf)
    | onward _ hg ih => exact .onward ih ((mem_functions_collect_iff ..).mpr hg)

end CallDependencies

end Verdict
