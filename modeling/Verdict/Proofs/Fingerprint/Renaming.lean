import Verdict.CallDependency
import Verdict.Dependency.Node
import Verdict.Proofs.Fingerprint.Expr

/-! Declarations under other ids.

`rename r` puts `r id` in the place of every id that a declaration refers to and leaves the rest
as it is. An expression keeps its shape, so its walk is renamed expression by expression
(`walk_rename`), and with it what is called. In tokens a declaration appears under its name; hence
they stay as they are if the names do (`tokens_rename`). -/
namespace Verdict

/-! ### Renaming -/

namespace Expr

def rename (r : DeclId → DeclId) : Expr → Expr
  | literal value => literal value
  | var name => var name
  | const id => const (r id)
  | call function args => call (r function) (args.map fun e => e.rename r)
  | unary op arg => unary op (arg.rename r)
  | binary op lhs rhs => binary op (lhs.rename r) (rhs.rename r)
  | builtin op args => builtin op (args.map fun e => e.rename r)
  | quantified kind bound triggers body =>
    quantified kind bound (triggers.map fun t => t.map fun e => e.rename r) (body.rename r)
  | lambda bound body => lambda bound (body.rename r)
  | letIn bindings body => letIn (bindings.map fun b => (b.1, b.2.rename r)) (body.rename r)
  | old inner => old (inner.rename r)
  | extract bits start stop => extract (bits.rename r) start stop
  | concat lhs rhs => concat (lhs.rename r) (rhs.rename r)
termination_by e => sizeOf e
decreasing_by
  all_goals apply sizeOf_lt_of_mem_children
  all_goals simp only [children, List.mem_append, List.mem_flatten, List.mem_map, List.mem_cons,
    List.not_mem_nil, or_false, or_true, true_or, Prod.exists, exists_eq_right]
  · assumption
  · assumption
  · exact .inl ⟨_, ‹_ ∈ triggers›, ‹_›⟩
  · exact .inl ⟨_, ‹_ ∈ bindings›⟩

end Expr

def Param.rename (r : DeclId → DeclId) : Param → Param
  | .expr value => .expr (value.rename r)
  | x => x

def Attribute.rename (r : DeclId → DeclId) (a : Attribute) : Attribute :=
  { a with params := a.params.map (Param.rename r) }

def Cmd.rename (r : DeclId → DeclId) : Cmd → Cmd
  | .assert location e attributes =>
    .assert location (e.rename r) (attributes.map (Attribute.rename r))
  | .assume e attributes => .assume (e.rename r) (attributes.map (Attribute.rename r))
  | .assign lhs rhs => .assign lhs (rhs.map (Expr.rename r))
  | .havoc vars => .havoc vars
  | .call location procedure args outs =>
    .call location (r procedure) (args.map (Expr.rename r)) outs

def Block.rename (r : DeclId → DeclId) (b : Block) : Block :=
  { b with cmds := b.cmds.map (Cmd.rename r) }

def Procedure.rename (r : DeclId → DeclId) (q : Procedure) : Procedure :=
  { q with requires := q.requires.map (Expr.rename r), ensures := q.ensures.map (Expr.rename r) }

def Implementation.rename (r : DeclId → DeclId) (i : Implementation) : Implementation :=
  { i with procedure := r i.procedure, blocks := i.blocks.map (Block.rename r) }

def Subject.rename (r : DeclId → DeclId) : Subject → Subject
  | .law formula => .law (formula.rename r)
  | .function params body => .function params (body.map (Expr.rename r))
  | .procedure q => .procedure (q.rename r)
  | .implementation i => .implementation (i.rename r)
  | .constant unique => .constant unique
  | .global => .global
  | .sort => .sort

def Declaration.rename (r : DeclId → DeclId) (d : Declaration) : Declaration :=
  { d with attributes := d.attributes.map (Attribute.rename r), subject := d.subject.rename r }

variable {r : DeclId → DeclId}

/-! ### Expressions -/

namespace Expr

theorem children_rename (r : DeclId → DeclId) (e : Expr) :
    (e.rename r).children = e.children.map (rename r) := by
  cases e <;> simp [rename, children, List.map_flatten, Function.comp_def]

theorem walk_rename (r : DeclId → DeclId) (e : Expr) :
    (e.rename r).walk = e.walk.map (rename r) := by
  rw [walk_eq, walk_eq, children_rename, List.map_cons, List.map_flatMap, ← List.map_reverse,
    List.flatMap_map]
  congr 1
  refine List.flatMap_congr fun c hc => ?_
  have := sizeOf_lt_of_mem_children (List.mem_reverse.mp hc)
  exact walk_rename r c
termination_by sizeOf e

theorem callees_rename (r : DeclId → DeclId) (e : Expr) :
    (e.rename r).callees = e.callees.map r := by
  rw [callees, callees, walk_rename, List.filterMap_map, List.map_filterMap]
  refine List.filterMap_congr fun s _ => ?_
  cases s <;> simp [rename]

end Expr

/-! ### Attributes and commands -/

namespace Attributes

theorem named_rename (r : DeclId → DeclId) (attrs : Attributes) (key : String) :
    named (attrs.map (Attribute.rename r)) key = (attrs.named key).map (Attribute.rename r) := by
  rw [named, named, List.filter_map]
  rfl

/-- A text is read off the attributes as before. -/
theorem text?_rename (r : DeclId → DeclId) (attrs : Attributes) (key : String) :
    text? (attrs.map (Attribute.rename r)) key = attrs.text? key := by
  rw [text?, text?, named_rename, List.findSome?_map]
  congr 1
  funext a
  obtain ⟨key, params⟩ := a
  match params with
  | [] => rfl
  | [x] | x :: _ :: _ => cases x <;> rfl

theorem withArity?_rename (r : DeclId → DeclId) (attrs : Attributes) (key : String) (arity : Nat) :
    withArity? (attrs.map (Attribute.rename r)) key arity =
      (attrs.withArity? key arity).map (Attribute.rename r) := by
  rw [withArity?, withArity?, named_rename, List.find?_map]
  congr 2
  funext a
  simp [Attribute.rename]

end Attributes

namespace Cmd

theorem exprs_rename (r : DeclId → DeclId) (c : Cmd) :
    (c.rename r).exprs = c.exprs.map (Expr.rename r) := by
  cases c <;> rfl

theorem callee?_rename (r : DeclId → DeclId) (c : Cmd) :
    (c.rename r).callee? = c.callee?.map r := by
  cases c <;> rfl

theorem proxy?_rename (r : DeclId → DeclId) (c : Cmd) : (c.rename r).proxy? = c.proxy? := by
  cases c with
  | assume e attributes =>
    simp only [rename, proxy?, Attributes.withArity?_rename]
    match attributes.withArity? "where" 1 with
    | none => rfl
    | some ⟨_, params⟩ =>
      match params with
      | [] | [.bool _] | [.int _] | [.text _] => rfl
      | [.expr value] => cases value <;> simp [Attribute.rename, Param.rename, Expr.rename]
      | x :: _ :: _ => cases x with
        | expr value => cases value <;> simp [Attribute.rename, Param.rename, Expr.rename]
        | _ => rfl
  | _ => rfl

end Cmd

/-! ### Declarations -/

namespace Declaration

theorem callingExprs_rename (r : DeclId → DeclId) (d : Declaration) :
    (d.rename r).callingExprs = d.callingExprs.map (Expr.rename r) := by
  obtain ⟨name, location, attributes, subject⟩ := d
  cases subject with
  | function params body => cases body <;> rfl
  | procedure q =>
    exact List.map_append.symm
  | implementation i =>
    simp [rename, callingExprs, Subject.rename, Implementation.rename, Block.commands, Block.rename,
      List.flatMap_map, List.map_flatMap, Cmd.exprs_rename, List.flatMap_assoc]
  | _ => rfl

theorem calledProcedures_rename (r : DeclId → DeclId) (d : Declaration) :
    (d.rename r).calledProcedures = d.calledProcedures.map r := by
  obtain ⟨name, location, attributes, subject⟩ := d
  cases subject with
  | implementation i =>
    simp [rename, calledProcedures, Subject.rename, Implementation.rename, Block.commands,
      Block.rename, List.flatMap_map, List.map_flatMap, List.filterMap_flatMap, Cmd.callee?_rename,
      List.filterMap_map, List.map_filterMap]
  | _ => rfl

theorem checksumSource?_rename (r : DeclId → DeclId) (d : Declaration) :
    (d.rename r).checksumSource? = d.checksumSource? :=
  Attributes.text?_rename r d.attributes "checksum"

theorem kindName_rename (r : DeclId → DeclId) (d : Declaration) :
    (d.rename r).kindName = d.kindName := by
  obtain ⟨name, location, attributes, subject⟩ := d
  cases subject <;> rfl

end Declaration

/-! ### Tokens -/

/-- The constants and functions that a parameter mentions. -/
def Param.symbols : Param → List DeclId
  | .expr value => value.symbols
  | _ => []

/-- What a declaration refers to: what its attributes and expressions mention, and the procedures
that it names. Attributes of commands do not count. -/
def Declaration.references (d : Declaration) : List DeclId :=
  (d.attributes.flatMap fun a => a.params.flatMap Param.symbols) ++
    (d.callingExprs.flatMap Expr.symbols ++ d.calledProcedures)

namespace Fingerprint
variable {p p' : Program}

theorem exprHead_rename {e : Expr} (h : ∀ id ∈ e.symbol?, p'.nameOf (r id) = p.nameOf id) :
    exprHead p' (e.rename r) = exprHead p e := by
  cases e with
  | const id | call id args => simp only [Expr.rename, exprHead, h id rfl]
  | quantified kind bound triggers body => simp [Expr.rename, exprHead, Function.comp_def]
  | letIn bindings body => simp [Expr.rename, exprHead, Function.comp_def]
  | _ => simp only [Expr.rename, exprHead]

theorem exprTokens_rename {e : Expr} (h : ∀ id ∈ e.symbols, p'.nameOf (r id) = p.nameOf id) :
    exprTokens p' (e.rename r) = exprTokens p e := by
  rw [exprTokens, exprTokens, Expr.walk_rename, List.map_map]
  refine List.map_congr_left fun s hs => ?_
  have hhead : exprHead p' (s.rename r) = exprHead p s := exprHead_rename fun id hid =>
    h id (List.mem_filterMap.mpr ⟨s, hs, hid⟩)
  rw [Function.comp_apply, hhead, Expr.children_rename, List.length_map]

theorem exprsTokens_rename {es : List Expr}
    (h : ∀ e ∈ es, ∀ id ∈ e.symbols, p'.nameOf (r id) = p.nameOf id) :
    exprsTokens p' (es.map (Expr.rename r)) = exprsTokens p es := by
  rw [exprsTokens, exprsTokens, List.flatMap_map]
  exact List.flatMap_congr fun e he => exprTokens_rename (h e he)

theorem attributeTokens_rename {a : Attribute}
    (h : ∀ id ∈ a.params.flatMap Param.symbols, p'.nameOf (r id) = p.nameOf id) :
    attributeTokens p' (a.rename r) = attributeTokens p a := by
  rw [attributeTokens, attributeTokens, Attribute.rename, List.flatMap_map, List.length_map]
  congr 1
  refine List.flatMap_congr fun x hx => ?_
  cases x with
  | expr value => exact exprTokens_rename fun id hid => h id (List.mem_flatMap.mpr ⟨_, hx, hid⟩)
  | _ => rfl

theorem cmdTokens_rename {c : Cmd}
    (h : ∀ e ∈ c.exprs, ∀ id ∈ e.symbols, p'.nameOf (r id) = p.nameOf id)
    (hcallee : ∀ id ∈ c.callee?, p'.nameOf (r id) = p.nameOf id) :
    cmdTokens p' (c.rename r) = cmdTokens p c := by
  have hhead : cmdHead p' (c.rename r) = cmdHead p c := by
    cases c with
    | assume e attributes =>
      have hproxy := Cmd.proxy?_rename r (.assume e attributes)
      simp only [Cmd.rename] at hproxy
      simp only [Cmd.rename, cmdHead, hproxy, List.length_map]
    | call location procedure args outs => simp only [Cmd.rename, cmdHead, hcallee procedure rfl]
    | _ => rfl
  rw [cmdTokens, cmdTokens, hhead, Cmd.exprs_rename, exprsTokens_rename h]

theorem subjectTokens_rename {d : Declaration}
    (h : ∀ id ∈ d.references, p'.nameOf (r id) = p.nameOf id) :
    subjectTokens p' (d.subject.rename r) = subjectTokens p d.subject := by
  have hexprs : ∀ e ∈ d.callingExprs, ∀ id ∈ e.symbols, p'.nameOf (r id) = p.nameOf id :=
    fun e he id hid => h id (List.mem_append_right _
      (List.mem_append_left _ (List.mem_flatMap.mpr ⟨e, he, hid⟩)))
  have hprocedures : ∀ id ∈ d.calledProcedures, p'.nameOf (r id) = p.nameOf id :=
    fun id hid => h id (List.mem_append_right _ (List.mem_append_right _ hid))
  obtain ⟨name, location, attributes, subject⟩ := d
  cases subject with
  | law formula => exact exprTokens_rename (hexprs formula List.mem_cons_self)
  | function params body =>
    have hbody : (body.map (Expr.rename r)).toList = body.toList.map (Expr.rename r) := by
      cases body <;> rfl
    simp only [Subject.rename, subjectTokens, hbody]
    exact congrArg _ (exprsTokens_rename hexprs)
  | procedure q =>
    have hrequires : exprsTokens p' (q.requires.map (Expr.rename r)) = exprsTokens p q.requires :=
      exprsTokens_rename fun e he => hexprs e (List.mem_append_left _ he)
    have hensures : exprsTokens p' (q.ensures.map (Expr.rename r)) = exprsTokens p q.ensures :=
      exprsTokens_rename fun e he => hexprs e (List.mem_append_right _ he)
    simp only [Subject.rename, Procedure.rename, subjectTokens, hrequires, hensures,
      List.length_map]
  | implementation i =>
    simp only [Subject.rename, Implementation.rename, subjectTokens, List.flatMap_map]
    rw [hprocedures i.procedure List.mem_cons_self]
    congr 1
    refine List.flatMap_congr fun b hb => ?_
    rw [blockTokens, blockTokens, Block.rename, List.flatMap_map, List.length_map]
    congr 2
    refine List.flatMap_congr fun c hc => ?_
    have hmem : c ∈ Block.commands i.blocks := List.mem_flatMap.mpr ⟨b, hb, hc⟩
    refine cmdTokens_rename (fun e he => hexprs e (List.mem_flatMap.mpr ⟨c, hmem, he⟩)) ?_
    exact fun id hid => hprocedures id
      (List.mem_cons_of_mem _ (List.mem_filterMap.mpr ⟨c, hmem, hid⟩))
  | _ => rfl

/-- The tokens of a declaration stay the same if what it refers to keeps its name. -/
theorem tokens_rename {d : Declaration} (h : ∀ id ∈ d.references, p'.nameOf (r id) = p.nameOf id) :
    tokens p' (d.rename r) = tokens p d := by
  have hattributes :
      ((d.rename r).attributes.filter (·.key ≠ "checksum")).flatMap (attributeTokens p') =
      (d.attributes.filter (·.key ≠ "checksum")).flatMap (attributeTokens p) := by
    show ((d.attributes.map (Attribute.rename r)).filter (·.key ≠ "checksum")).flatMap _ = _
    rw [List.filter_map, List.flatMap_map]
    refine List.flatMap_congr fun a ha => attributeTokens_rename fun id hid => h id ?_
    exact List.mem_append_left _ (List.mem_flatMap.mpr ⟨a, List.mem_of_mem_filter ha, hid⟩)
  rw [tokens, tokens, Declaration.kindName_rename, hattributes]
  congr 1
  exact subjectTokens_rename h

end Fingerprint

end Verdict
