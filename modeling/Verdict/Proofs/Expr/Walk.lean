import Mathlib.Data.List.Nodup
import Mathlib.Logic.Function.Iterate
import Verdict.Proofs.Expr.Occurrence

/-! Where the parts of an expression stand, and in what order a walk comes to them.

A child stands in a slot of the expression that it is directly inside, and any other part at the end
of a path of slots (`at?`). `occurrences` lists all that stands somewhere, each place once and before
those below it. The walk keeps the expressions still to be visited on a stack; whatever else is on
it, the one on top is visited with all that is inside it before the others are (`rounds_walk`). So
it visits what the list has, in the order of the list. -/
namespace Verdict.Expr

/-- Where a child stands in the expression that it is directly inside. -/
inductive Slot
  | argument (i : Nat)
  | operand
  | left
  | right
  | /-- The `j`th expression of the `i`th trigger. -/ trigger (i j : Nat)
  | /-- The right-hand side of the `i`th name. -/ binding (i : Nat)
  | body
  deriving DecidableEq, Repr

/-- What stands in a slot. -/
def part? : Expr → Slot → Option Expr
  | call _ args, .argument i | builtin _ args, .argument i => args[i]?
  | unary _ inner, .operand | old inner, .operand | extract inner _ _, .operand => some inner
  | binary _ lhs _, .left | concat lhs _, .left => some lhs
  | binary _ _ rhs, .right | concat _ rhs, .right => some rhs
  | quantified _ _ triggers _, .trigger i j => triggers[i]?.bind (·[j]?)
  | letIn bindings _, .binding i => bindings[i]?.map Prod.snd
  | quantified _ _ _ body, .body | lambda _ body, .body | letIn _ body, .body => some body
  | _, _ => none

/-- What stands at the end of a path; a path without slots leads to the expression itself. -/
def at? (e : Expr) : List Slot → Option Expr
  | [] => some e
  | s :: path => (e.part? s).bind (·.at? path)

/-- Expressions of a list, each in the slot of its number. -/
def numbered (slot : Nat → Slot) (es : List Expr) : List (Slot × Expr) :=
  es.zipIdx.map fun (e, i) => (slot i, e)

/-- The slots of an expression with what stands in them, in the order of the text. -/
def parts : Expr → List (Slot × Expr)
  | literal _ | var _ | const _ => []
  | call _ args | builtin _ args => numbered .argument args
  | unary _ inner | old inner | extract inner _ _ => [(.operand, inner)]
  | binary _ lhs rhs | concat lhs rhs => [(.left, lhs), (.right, rhs)]
  | quantified _ _ triggers body =>
    (triggers.zipIdx.flatMap fun (t, i) => numbered (.trigger i) t) ++ [(.body, body)]
  | lambda _ body => [(.body, body)]
  | letIn bindings body => numbered .binding (bindings.map Prod.snd) ++ [(.body, body)]

variable {slot : Nat → Slot} {es : List Expr} {s : Slot} {c e : Expr}

theorem mem_numbered_iff : (s, c) ∈ numbered slot es ↔ ∃ i, slot i = s ∧ es[i]? = some c := by
  simp [numbered, List.mk_mem_zipIdx_iff_getElem?, and_comm]

theorem map_snd_numbered (slot : Nat → Slot) (es : List Expr) :
    (numbered slot es).map Prod.snd = es := by
  rw [numbered, List.map_map]
  exact List.zipIdx_map_fst 0 es

theorem map_fst_numbered (slot : Nat → Slot) (es : List Expr) :
    (numbered slot es).map Prod.fst = (List.range es.length).map slot := by
  rw [numbered, List.map_map, List.range_eq_range', ← List.zipIdx_map_snd, List.map_map]
  rfl

theorem nodup_map_fst_numbered (hslot : slot.Injective) :
    ((numbered slot es).map Prod.fst).Nodup := by
  rw [map_fst_numbered]
  exact List.nodup_range.map hslot

theorem mem_parts_iff (e : Expr) (s : Slot) (c : Expr) :
    (s, c) ∈ e.parts ↔ e.part? s = some c := by
  cases e <;> cases s <;>
    simp [parts, part?, mem_numbered_iff, List.mk_mem_zipIdx_iff_getElem?,
      Option.bind_eq_some_iff, eq_comm (a := c)]

/-- In the slots of an expression stand its children. -/
theorem map_snd_parts (e : Expr) : e.parts.map Prod.snd = e.children := by
  cases e with
  | quantified _ _ triggers body =>
    rw [parts, List.map_append, List.map_flatMap]
    simp only [map_snd_numbered]
    rw [List.flatMap, List.zipIdx_map_fst]
    rfl
  | _ => simp [parts, children, map_snd_numbered]

/-- No slot is listed twice. -/
theorem nodup_map_fst_parts (e : Expr) : (e.parts.map Prod.fst).Nodup := by
  cases e with
  | call _ args | builtin _ args => exact nodup_map_fst_numbered fun _ _ => Slot.argument.inj
  | quantified _ _ triggers body =>
    have hplaces : (triggers.zipIdx.map Prod.snd).Nodup := by
      rw [List.zipIdx_map_snd]
      exact List.nodup_range'
    rw [parts, List.map_append, List.map_flatMap, List.nodup_append, List.nodup_flatMap]
    refine ⟨⟨fun t _ => ?_, ?_⟩, by simp, ?_⟩
    · exact nodup_map_fst_numbered fun _ _ h => (Slot.trigger.inj h).2
    · refine (List.pairwise_map.mp hplaces).imp fun {t u} hne => ?_
      simp [Function.onFun, map_fst_numbered, List.Disjoint, hne.symm]
    · intro s hs t ht
      obtain ⟨u, -, hs⟩ := List.mem_flatMap.mp hs
      rw [map_fst_numbered, List.mem_map] at hs
      obtain ⟨j, -, rfl⟩ := hs
      rw [List.mem_singleton.mp ht]
      exact Slot.noConfusion
  | letIn bindings body =>
    rw [parts, List.map_append, List.nodup_append]
    refine ⟨nodup_map_fst_numbered fun _ _ => Slot.binding.inj, by simp, ?_⟩
    simp [map_fst_numbered]
  | _ => simp [parts]

theorem sizeOf_lt_of_mem_parts {e : Expr} {p : Slot × Expr} (h : p ∈ e.parts) :
    sizeOf p.2 < sizeOf e := by
  apply sizeOf_lt_of_mem_children
  rw [← map_snd_parts]
  exact List.mem_map_of_mem h

/-- All that stands somewhere in an expression, with the path that leads there, the expression first
and then what is below it, from the last slot to the first. -/
def occurrences (e : Expr) : List (List Slot × Expr) :=
  ([], e) :: e.parts.reverse.attach.flatMap fun ⟨p, _⟩ =>
    p.2.occurrences.map fun (path, part) => (p.1 :: path, part)
termination_by sizeOf e
decreasing_by
  rename_i h
  exact sizeOf_lt_of_mem_parts (List.mem_reverse.mp h)

/-- The order of the recursion: an expression, and then what its children come to, from the last
child to the first. -/
def preorder (e : Expr) : List Expr :=
  e :: e.children.reverse.attach.flatMap fun ⟨c, _⟩ => c.preorder
termination_by sizeOf e
decreasing_by
  rename_i h
  exact sizeOf_lt_of_mem_children (List.mem_reverse.mp h)

theorem occurrences_eq (e : Expr) : e.occurrences = ([], e) :: e.parts.reverse.flatMap fun p =>
    p.2.occurrences.map fun o => (p.1 :: o.1, o.2) := by
  rw [occurrences]
  simp only [List.flatMap_subtype, List.unattach_attach]

theorem preorder_eq (e : Expr) : e.preorder = e :: e.children.reverse.flatMap preorder := by
  rw [preorder]
  simp only [List.flatMap_subtype, List.unattach_attach]

theorem mem_occurrences_iff (e : Expr) (path : List Slot) (part : Expr) :
    (path, part) ∈ e.occurrences ↔ e.at? path = some part := by
  induction path generalizing e with
  | nil =>
    rw [occurrences_eq]
    simp [at?, eq_comm (a := part)]
  | cons s path ih =>
    rw [occurrences_eq]
    simp [at?, ih, ← mem_parts_iff, Option.bind_eq_some_iff]

/-- A place is listed before those that its path leads through. -/
theorem pairwise_occurrences (e : Expr) :
    e.occurrences.Pairwise fun first later => ¬ later.1 <+: first.1 := by
  rw [occurrences_eq, List.pairwise_cons, List.pairwise_flatMap]
  refine ⟨?_, fun p hp => ?_, ?_⟩
  · intro o ho
    rw [List.mem_flatMap] at ho
    obtain ⟨p, -, ho⟩ := ho
    obtain ⟨o, -, rfl⟩ := List.mem_map.mp ho
    simp
  · have := sizeOf_lt_of_mem_parts (List.mem_reverse.mp hp)
    rw [List.pairwise_map]
    exact (pairwise_occurrences p.2).imp fun h => by simpa using h
  · have hslots := List.pairwise_map.mp (nodup_map_fst_parts e)
    rw [List.pairwise_reverse]
    refine hslots.imp fun {p q} hne => ?_
    simp only [List.mem_map]
    rintro _ ⟨o, -, rfl⟩ _ ⟨o', -, rfl⟩ hprefix
    exact hne (List.cons_prefix_cons.mp hprefix).1
termination_by sizeOf e

theorem walk_eq_map_occurrences (e : Expr) : e.walk = e.occurrences.map Prod.snd := by
  have hparts : ∀ p ∈ e.parts.reverse, p.2.walk = p.2.occurrences.map Prod.snd := fun p hp =>
    have := sizeOf_lt_of_mem_parts (List.mem_reverse.mp hp)
    walk_eq_map_occurrences p.2
  rw [walk_eq, occurrences_eq, ← map_snd_parts, ← List.map_reverse, List.flatMap_map,
    List.flatMap_congr hparts, List.map_cons, List.map_flatMap]
  simp only [List.map_map, Function.comp_def]
termination_by sizeOf e

theorem walk_eq_preorder (e : Expr) : e.walk = e.preorder := by
  have hchildren : ∀ c ∈ e.children.reverse, c.walk = c.preorder := fun c hc =>
    have := sizeOf_lt_of_mem_children (List.mem_reverse.mp hc)
    walk_eq_preorder c
  rw [walk_eq, preorder_eq, List.flatMap_congr hchildren]
termination_by sizeOf e

/-! ### The stack -/

/-- A round of the walk, from what has been visited and the stack to what they are afterwards: the
expression that was pushed last is visited, and its children are pushed in the order of the text. -/
def round : List Expr × List Expr → List Expr × List Expr
  | (visited, stack) =>
    match stack.getLast? with
    | none => (visited, stack)
    | some e => (visited ++ [e], stack.dropLast ++ e.children)

theorem round_concat (visited stack : List Expr) (e : Expr) :
    round (visited, stack ++ [e]) = (visited ++ [e], stack ++ e.children) := by
  simp [round]

/-- What is on the stack is visited from the top, each with all that is inside it. -/
theorem rounds_walk (visited pending : List Expr) :
    round^[(pending.flatMap walk).length] (visited, pending.reverse) =
      (visited ++ pending.flatMap walk, []) := by
  match pending with
  | [] => simp
  | e :: rest =>
    have hrest := rounds_walk (visited ++ [e]) (e.children.reverse ++ rest)
    rw [List.reverse_append, List.reverse_reverse, List.flatMap_append] at hrest
    rw [List.flatMap_cons, walk_eq, List.cons_append, List.length_cons, Function.iterate_succ_apply,
      List.reverse_cons, round_concat, hrest, List.append_assoc, List.singleton_append]
termination_by totalSize pending
decreasing_by exact totalSize_pending_lt e rest

/-- **A walk visits every part of an expression once, in the order of the recursion.** The stack is
empty after as many rounds as there are parts. What has been visited by then is what stands at the
ends of paths, in triggers and on right-hand sides too, no path twice and none before one that it
goes on from. -/
theorem walk_visits_every_part_once (e : Expr) :
    round^[e.occurrences.length] ([], [e]) = (e.walk, []) ∧
    e.walk = e.occurrences.map Prod.snd ∧
    (∀ path part, (path, part) ∈ e.occurrences ↔ e.at? path = some part) ∧
    (e.occurrences.map Prod.fst).Nodup ∧
    (e.occurrences.Pairwise fun first later => ¬ later.1 <+: first.1) ∧
    e.walk = e.preorder := by
  refine ⟨?_, walk_eq_map_occurrences e, mem_occurrences_iff e, ?_, pairwise_occurrences e,
    walk_eq_preorder e⟩
  · have hrounds := rounds_walk [] [e]
    rw [List.flatMap_singleton, List.nil_append, List.reverse_singleton] at hrounds
    rw [← hrounds, walk_eq_map_occurrences, List.length_map]
  · rw [List.Nodup, List.pairwise_map]
    refine (pairwise_occurrences e).imp ?_
    intro first later hbefore heq
    exact hbefore (heq ▸ List.prefix_refl _)

/-- The body is visited before the triggers, and the right-hand side last. -/
example : walk (letIn [("y", var "z")] (quantified .all ["x"] [[var "x"], [var "y"]] (const ⟨0⟩))) =
    [letIn [("y", var "z")] (quantified .all ["x"] [[var "x"], [var "y"]] (const ⟨0⟩)),
      quantified .all ["x"] [[var "x"], [var "y"]] (const ⟨0⟩), const ⟨0⟩, var "y", var "x",
      var "z"] := by cbv

end Verdict.Expr
