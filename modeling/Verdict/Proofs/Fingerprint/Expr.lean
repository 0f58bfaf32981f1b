import Verdict.Proofs.Expr.Free
import Verdict.Proofs.Expr.Occurrence
import Verdict.Proofs.Text.Separated

/-! The tokens of an expression determine it.

Two expressions are alike (`Expr.Alike`) if they differ in nothing but the ids of declarations that
have one name. Every token says what an expression is, apart from its children, and how many
children there are; so the tokens of alike expressions are the same, and as many trees as are expected
can be read off the front of a list of tokens, whatever follows them (`exprTokens_readsBack`). -/
namespace Verdict

namespace Expr

/-- The same but for ids that stand for one name. -/
inductive Alike (p : Program) : Expr → Expr → Prop
  | literal (value : Literal) : Alike p (.literal value) (.literal value)
  | var (name : String) : Alike p (.var name) (.var name)
  | const {id id' : DeclId} : p.nameOf id = p.nameOf id' → Alike p (.const id) (.const id')
  | call {f f' : DeclId} {args args' : List Expr} : p.nameOf f = p.nameOf f' →
      List.Forall₂ (Alike p) args args' → Alike p (.call f args) (.call f' args')
  | unary (op : UnaryOp) {arg arg' : Expr} : Alike p arg arg' →
      Alike p (.unary op arg) (.unary op arg')
  | binary (op : BinaryOp) {lhs lhs' rhs rhs' : Expr} : Alike p lhs lhs' → Alike p rhs rhs' →
      Alike p (.binary op lhs rhs) (.binary op lhs' rhs')
  | builtin (op : String) {args args' : List Expr} : List.Forall₂ (Alike p) args args' →
      Alike p (.builtin op args) (.builtin op args')
  | quantified (kind : Quantifier) (bound : List String) {triggers triggers' : List (List Expr)}
      {body body' : Expr} : List.Forall₂ (List.Forall₂ (Alike p)) triggers triggers' →
      Alike p body body' →
      Alike p (.quantified kind bound triggers body) (.quantified kind bound triggers' body')
  | lambda (bound : List String) {body body' : Expr} : Alike p body body' →
      Alike p (.lambda bound body) (.lambda bound body')
  | letIn {bindings bindings' : List (String × Expr)} {body body' : Expr} :
      bindings.map Prod.fst = bindings'.map Prod.fst →
      List.Forall₂ (Alike p) (bindings.map Prod.snd) (bindings'.map Prod.snd) →
      Alike p body body' → Alike p (.letIn bindings body) (.letIn bindings' body')
  | old {inner inner' : Expr} : Alike p inner inner' → Alike p (.old inner) (.old inner')
  | extract {bits bits' : Expr} (start stop : Nat) : Alike p bits bits' →
      Alike p (.extract bits start stop) (.extract bits' start stop)
  | concat {lhs lhs' rhs rhs' : Expr} : Alike p lhs lhs' → Alike p rhs rhs' →
      Alike p (.concat lhs rhs) (.concat lhs' rhs')

/-- The names that are written for an expression, those of its children apart. -/
def namesHere (p : Program) : Expr → List String
  | .var name => [name]
  | .const id => [p.nameOf id]
  | .call f _ => [p.nameOf f]
  | .builtin op _ => [op]
  | e => e.binders

/-- The names that are bound somewhere in the expression can stand in a list. -/
def Legible (e : Expr) : Prop := ∀ s ∈ e.walk, ∀ name ∈ s.binders, Fingerprint.IsEntry name

variable {e e' : Expr}

theorem Legible.here (h : e.Legible) : ∀ name ∈ e.binders, Fingerprint.IsEntry name :=
  h e ((mem_walk_iff e e).mpr (.refl e))

theorem Legible.child (h : e.Legible) {c : Expr} (hc : c ∈ e.children) : c.Legible := by
  intro s hs
  exact h s ((mem_walk_iff s e).mpr (.child hc ((mem_walk_iff s c).mp hs)))

/-- What kind of expression it is. -/
def tag : Expr → String
  | .literal _ => "lit"
  | .var _ => "var"
  | .const _ => "const"
  | .call .. => "call"
  | .unary .. => "un"
  | .binary .. => "bin"
  | .builtin .. => "builtin"
  | .quantified .. => "q"
  | .lambda .. => "lambda"
  | .letIn .. => "let"
  | .old _ => "old"
  | .extract .. => "extract"
  | .concat .. => "concat"

theorem isWord_tag (e : Expr) : Text.IsWord e.tag := by
  apply Text.isWord_of_all
  cases e <;> simp only [tag] <;> rfl

end Expr

namespace Literal
open Text

theorem describe_bool (b : Bool) : (bool b).describe = "Bool(" ++ toString b ++ ")" := rfl

theorem describe_int (n : Int) : (int n).describe = "Int(" ++ toString n ++ ")" := rfl

theorem describe_bitVector (value width : Nat) : (bitVector value width).describe =
    "BitVector \x7b value: " ++ toString value ++ ", width: " ++ toString width ++ " \x7d" := rfl

/-- What kind of literal it is. -/
def tag : Literal → String
  | .bool _ => "Bool"
  | .int _ => "Int"
  | .bitVector .. => "BitVector"

theorem isWord_tag (v : Literal) : IsWord v.tag := by
  apply isWord_of_all
  cases v <;> simp only [tag] <;> rfl

theorem firstWord_describe (v : Literal) : FirstWord v.tag v.describe := by
  cases v with
  | bool b =>
    rw [describe_bool, String.append_assoc]
    exact firstWord_append (isWord_tag (bool b)) "(" _ (by decide) rfl
  | int n =>
    rw [describe_int, String.append_assoc]
    exact firstWord_append (isWord_tag (int n)) "(" _ (by decide) rfl
  | bitVector value width =>
    simp only [describe_bitVector, String.append_assoc]
    exact firstWord_append (isWord_tag (bitVector value width)) " \x7b value: " _ (by decide) rfl

theorem bitVector_inj {value width value' width' : Nat}
    (h : (bitVector value width).describe = (bitVector value' width').describe) :
    value = value' ∧ width = width' := by
  have hcomma : ∀ a b : String, a ++ ", width: " ++ b = a ++ "," ++ (" width: " ++ b) := by
    intro a b
    rw [String.append_assoc, String.append_assoc]
    rfl
  rw [describe_bitVector, describe_bitVector] at h
  have h := (String.append_left_inj _).mp h
  rw [hcomma, hcomma] at h
  have hnone : ∀ n : Nat, ',' ∉ ("BitVector \x7b value: " ++ toString n).toList := by
    intro n
    exact notMem_append (by decide) (notMem_toString n rfl)
  obtain ⟨hvalue, hwidth⟩ := eq_of_first rfl (hnone value) (hnone value') h
  exact ⟨toString_inj ((String.append_right_inj _).mp hvalue),
    toString_inj ((String.append_right_inj _).mp hwidth)⟩

theorem describe_inj {v v' : Literal} (h : v.describe = v'.describe) : v = v' := by
  have htag : v.tag = v'.tag := v.firstWord_describe.eq (h ▸ v'.firstWord_describe)
  cases v with
  | bool b =>
    cases v' with
    | bool b' =>
      rw [describe_bool, describe_bool, String.append_left_inj, String.append_right_inj] at h
      rw [toString_bool_inj h]
    | _ => simp [tag] at htag
  | int n =>
    cases v' with
    | int n' =>
      rw [describe_int, describe_int, String.append_left_inj, String.append_right_inj] at h
      rw [toString_int_inj h]
    | _ => simp [tag] at htag
  | bitVector value width =>
    cases v' with
    | bitVector value' width' =>
      obtain ⟨rfl, rfl⟩ := bitVector_inj h
      rfl
    | _ => simp [tag] at htag

end Literal

theorem UnaryOp.label_inj {op op' : UnaryOp} (h : op.label = op'.label) : op = op' := by
  cases op <;> cases op' <;> first | rfl | exact absurd h (by decide)

theorem BinaryOp.label_inj {op op' : BinaryOp} (h : op.label = op'.label) : op = op' := by
  cases op <;> cases op' <;> first | rfl | exact absurd h (by decide)

theorem Quantifier.label_inj {kind kind' : Quantifier} (h : kind.label = kind'.label) :
    kind = kind' := by
  cases kind <;> cases kind' <;> first | rfl | exact absurd h (by decide)

namespace Fingerprint
open Text

variable {p : Program} {e e' : Expr}

theorem firstWord_exprHead (p : Program) (e : Expr) : FirstWord e.tag (exprHead p e) := by
  have hcolon : ∀ rest, FirstWord e.tag (e.tag ++ ":" ++ rest) := fun rest =>
    firstWord_append e.isWord_tag ":" rest (by decide) rfl
  cases e with
  | old inner => exact firstWord_self (Expr.isWord_tag inner.old)
  | concat lhs rhs => exact firstWord_self (Expr.isWord_tag (lhs.concat rhs))
  | quantified | extract =>
    simp only [exprHead, String.append_assoc]
    exact hcolon _
  | _ => exact hcolon _

/-! ### Trees from heads -/

theorem forall₂_append_inv {α : Type} {R : α → α → Prop} {l l' r r' : List α}
    (h : List.Forall₂ R (l ++ r) (l' ++ r')) (hlength : l.length = l'.length) :
    List.Forall₂ R l l' ∧ List.Forall₂ R r r' := by
  have htake := List.forall₂_take_append _ _ _ h
  have hdrop := List.forall₂_drop_append _ _ _ h
  rw [← hlength, List.take_left] at htake
  rw [← hlength, List.drop_left] at hdrop
  exact ⟨htake, hdrop⟩

theorem forall₂_of_flatten {α : Type} {R : α → α → Prop} {ls ls' : List (List α)}
    (hlengths : ls.map List.length = ls'.map List.length)
    (h : List.Forall₂ R ls.flatten ls'.flatten) : List.Forall₂ (List.Forall₂ R) ls ls' := by
  induction ls generalizing ls' with
  | nil =>
    rw [List.map_eq_nil_iff.mp hlengths.symm]
    exact .nil
  | cons l ls ih =>
    cases ls' with
    | nil => cases hlengths
    | cons l' ls' =>
      obtain ⟨hfirst, hrest⟩ := List.cons.inj hlengths
      obtain ⟨hhead, htail⟩ := forall₂_append_inv h hfirst
      exact .cons hhead (ih hrest htail)

theorem lengths_eq_of_forall₂ {α : Type} {R : α → α → Prop} {ls ls' : List (List α)}
    (h : List.Forall₂ (List.Forall₂ R) ls ls') : ls.map List.length = ls'.map List.length := by
  induction h with
  | nil => rfl
  | cons hfirst _ ih => rw [List.map_cons, List.map_cons, hfirst.length_eq, ih]

theorem flatten_of_forall₂ {α : Type} {R : α → α → Prop} {ls ls' : List (List α)}
    (h : List.Forall₂ (List.Forall₂ R) ls ls') : List.Forall₂ R ls.flatten ls'.flatten := by
  induction h with
  | nil => exact .nil
  | cons hfirst _ ih => exact List.rel_append hfirst ih

theorem lengths_inj {ls ls' : List (List Expr)}
    (h : commaList (ls.map fun t => toString t.length) =
      commaList (ls'.map fun t => toString t.length)) : ls.map List.length = ls'.map List.length := by
  have entry : ∀ ls : List (List Expr), ∀ name ∈ ls.map fun t => toString t.length, IsEntry name := by
    intro ls name hname
    obtain ⟨t, -, rfl⟩ := List.mem_map.mp hname
    exact ⟨toString_ne_empty _, notMem_toString _ rfl⟩
  have hnames := commaList_inj (entry ls) (entry ls') h
  have hcomp : ∀ ls : List (List Expr), (ls.map fun t => toString t.length) =
      (ls.map List.length).map toString := fun ls => by rw [List.map_map]; rfl
  rw [hcomp, hcomp] at hnames
  exact (List.map_injective_iff.mpr fun _ _ => toString_inj) hnames

theorem quantified_inj {kind kind' : Quantifier} {bound bound' : List String}
    {triggers triggers' : List (List Expr)} {body body' : Expr} (h : ∀ name ∈ bound, IsEntry name)
    (h' : ∀ name ∈ bound', IsEntry name)
    (hhead : exprHead p (.quantified kind bound triggers body) =
      exprHead p (.quantified kind' bound' triggers' body')) :
    kind = kind' ∧ bound = bound' ∧ triggers.map List.length = triggers'.map List.length := by
  have hlengths : ∀ ls : List (List Expr),
      ':' ∉ (commaList (ls.map fun t => toString t.length)).toList := by
    intro ls
    apply notMem_commaList (by decide)
    intro name hname
    obtain ⟨t, -, rfl⟩ := List.mem_map.mp hname
    exact notMem_toString t.length rfl
  have hlabel : ∀ kind : Quantifier, ':' ∉ kind.label.toList := by
    intro kind
    cases kind <;> decide
  -- Bound names may hold colons, so the lengths are read from behind and the label from the front.
  obtain ⟨hfront, hshape⟩ := eq_of_last rfl (hlengths triggers) (hlengths triggers') hhead
  rw [String.append_assoc, String.append_assoc, String.append_assoc, String.append_assoc,
    String.append_right_inj, ← String.append_assoc, ← String.append_assoc] at hfront
  obtain ⟨hkind, hbound⟩ := eq_of_first rfl (hlabel kind) (hlabel kind') hfront
  exact ⟨Quantifier.label_inj hkind, commaList_inj h h' hbound, lengths_inj hshape⟩

/-- The head and the children of an expression are all there is to it. -/
theorem alike_of_head (hlegible : ∀ name ∈ e.binders, IsEntry name)
    (hlegible' : ∀ name ∈ e'.binders, IsEntry name) (hhead : exprHead p e = exprHead p e')
    (h : List.Forall₂ (Expr.Alike p) e.children e'.children) : Expr.Alike p e e' := by
  have htag : e.tag = e'.tag := (firstWord_exprHead p e).eq (hhead ▸ firstWord_exprHead p e')
  cases e with
  | literal v =>
    cases e' with
    | literal v' =>
      rw [Literal.describe_inj ((String.append_right_inj _).mp hhead)]
      exact .literal v'
    | _ => simp [Expr.tag] at htag
  | var name =>
    cases e' with
    | var name' =>
      rw [(String.append_right_inj _).mp hhead]
      exact .var name'
    | _ => simp [Expr.tag] at htag
  | const id =>
    cases e' with
    | const id' => exact .const ((String.append_right_inj _).mp hhead)
    | _ => simp [Expr.tag] at htag
  | call f args =>
    cases e' with
    | call f' args' => exact .call ((String.append_right_inj _).mp hhead) h
    | _ => simp [Expr.tag] at htag
  | unary op arg =>
    cases e' with
    | unary op' arg' =>
      rw [UnaryOp.label_inj ((String.append_right_inj _).mp hhead)]
      cases h with
      | cons harg _ => exact .unary op' harg
    | _ => simp [Expr.tag] at htag
  | binary op lhs rhs =>
    cases e' with
    | binary op' lhs' rhs' =>
      rw [BinaryOp.label_inj ((String.append_right_inj _).mp hhead)]
      cases h with
      | cons hlhs h =>
        cases h with
        | cons hrhs _ => exact .binary op' hlhs hrhs
    | _ => simp [Expr.tag] at htag
  | builtin op args =>
    cases e' with
    | builtin op' args' =>
      rw [(String.append_right_inj _).mp hhead]
      exact .builtin op' h
    | _ => simp [Expr.tag] at htag
  | quantified kind bound triggers body =>
    cases e' with
    | quantified kind' bound' triggers' body' =>
      obtain ⟨rfl, rfl, hlengths⟩ := quantified_inj hlegible hlegible' hhead
      have hlength : triggers.flatten.length = triggers'.flatten.length := by
        rw [List.length_flatten, List.length_flatten, hlengths]
      obtain ⟨htriggers, hbody⟩ := forall₂_append_inv h hlength
      cases hbody with
      | cons hbody _ =>
        exact .quantified kind bound (forall₂_of_flatten hlengths htriggers) hbody
    | _ => simp [Expr.tag] at htag
  | lambda bound body =>
    cases e' with
    | lambda bound' body' =>
      obtain rfl : bound = bound' :=
        commaList_inj hlegible hlegible' ((String.append_right_inj _).mp hhead)
      cases h with
      | cons hbody _ => exact .lambda bound hbody
    | _ => simp [Expr.tag] at htag
  | letIn bindings body =>
    cases e' with
    | letIn bindings' body' =>
      have hnames : bindings.map Prod.fst = bindings'.map Prod.fst :=
        commaList_inj hlegible hlegible' ((String.append_right_inj _).mp hhead)
      have hlength : (bindings.map Prod.snd).length = (bindings'.map Prod.snd).length := by
        have := congrArg List.length hnames
        rwa [List.length_map, List.length_map] at this ⊢
      obtain ⟨hvalues, hbody⟩ := forall₂_append_inv h hlength
      cases hbody with
      | cons hbody _ => exact .letIn hnames hvalues hbody
    | _ => simp [Expr.tag] at htag
  | old inner =>
    cases e' with
    | old inner' =>
      cases h with
      | cons hinner _ => exact .old hinner
    | _ => simp [Expr.tag] at htag
  | extract bits start stop =>
    cases e' with
    | extract bits' start' stop' =>
      obtain ⟨hstart, hstop⟩ := eq_of_last rfl (notMem_toString stop rfl)
        (notMem_toString stop' rfl) hhead
      rw [toString_inj hstop, toString_inj ((String.append_right_inj _).mp hstart)]
      cases h with
      | cons hbits _ => exact .extract start' stop' hbits
    | _ => simp [Expr.tag] at htag
  | concat lhs rhs =>
    cases e' with
    | concat lhs' rhs' =>
      cases h with
      | cons hlhs h =>
        cases h with
        | cons hrhs _ => exact .concat hlhs hrhs
    | _ => simp [Expr.tag] at htag

theorem exprHead_eq_of_alike (h : Expr.Alike p e e') : exprHead p e = exprHead p e' := by
  cases h with
  | const hname => rw [exprHead, exprHead, hname]
  | call hname => rw [exprHead, exprHead, hname]
  | quantified kind bound htriggers =>
    have hlengths := congrArg (List.map toString) (lengths_eq_of_forall₂ htriggers)
    rw [List.map_map, List.map_map] at hlengths
    exact congrArg (fun shape => _ ++ commaList shape) hlengths
  | letIn hnames => rw [exprHead, exprHead, hnames]
  | _ => rfl

theorem children_of_alike (h : Expr.Alike p e e') :
    List.Forall₂ (Expr.Alike p) e.children e'.children := by
  cases h with
  | literal | var | const => exact .nil
  | call _ hargs | builtin _ hargs => exact hargs
  | unary _ hinner | lambda _ hinner | old hinner | extract _ _ hinner => exact .cons hinner .nil
  | binary _ hlhs hrhs | concat hlhs hrhs => exact .cons hlhs (.cons hrhs .nil)
  | quantified _ _ htriggers hbody =>
    exact List.rel_append (flatten_of_forall₂ htriggers) (.cons hbody .nil)
  | letIn _ hvalues hbody => exact List.rel_append hvalues (.cons hbody .nil)

/-! ### Trees from tokens -/

/-- The first token of an expression. -/
def exprToken (p : Program) (e : Expr) : String := counted (exprHead p e) e.children.length

theorem exprTokens_eq (p : Program) (e : Expr) :
    exprTokens p e = exprToken p e :: e.children.reverse.flatMap (exprTokens p) := by
  rw [exprTokens, Expr.walk_eq, List.map_cons, List.map_flatMap]
  rfl

theorem counted_inj {head head' : String} {n n' : Nat} (h : counted head n = counted head' n') :
    head = head' ∧ n = n' := by
  obtain ⟨hhead, hcount⟩ := eq_of_last rfl (notMem_toString n rfl) (notMem_toString n' rfl) h
  exact ⟨hhead, toString_inj hcount⟩

theorem slash_mem_counted (head : String) (n : Nat) : '/' ∈ (counted head n).toList := by
  rw [counted, String.toList_append, String.toList_append]
  exact List.mem_append_left _ (List.mem_append_right _ (List.mem_singleton_self '/'))

theorem legible_pending {es : List Expr} (h : ∀ s ∈ e :: es, s.Legible) :
    ∀ s ∈ e.children.reverse ++ es, s.Legible := by
  intro s hs
  rcases List.mem_append.mp hs with hs | hs
  · exact (h e List.mem_cons_self).child (List.mem_reverse.mp hs)
  · exact h s (List.mem_cons_of_mem e hs)

/-- As many expressions as there should be are read off the front, and what follows is left. The
induction is along the walk: the children of the first expression are pending before the rest. -/
theorem alike_of_pending : ∀ (es es' : List Expr) {rest rest' : List String},
    (∀ e ∈ es, e.Legible) → (∀ e ∈ es', e.Legible) → es.length = es'.length →
    es.flatMap (exprTokens p) ++ rest = es'.flatMap (exprTokens p) ++ rest' →
    List.Forall₂ (Expr.Alike p) es es' ∧ rest = rest'
  | [], [], _, _, _, _, _, h => ⟨.nil, h⟩
  | [], _ :: _, _, _, _, _, hlength, _ => by cases hlength
  | _ :: _, [], _, _, _, _, hlength, _ => by cases hlength
  | e :: es, e' :: es', rest, rest', hlegible, hlegible', hlength, h => by
    rw [List.flatMap_cons, List.flatMap_cons, exprTokens_eq, exprTokens_eq] at h
    obtain ⟨htoken, htail⟩ := List.cons.inj h
    obtain ⟨hhead, hcount⟩ := counted_inj htoken
    have hpending : (e.children.reverse ++ es).flatMap (exprTokens p) ++ rest =
        (e'.children.reverse ++ es').flatMap (exprTokens p) ++ rest' := by
      rw [List.flatMap_append, List.flatMap_append]
      exact htail
    have hchildren : e.children.reverse.length = e'.children.reverse.length := by
      rw [List.length_reverse, List.length_reverse, hcount]
    have hlengths : (e.children.reverse ++ es).length = (e'.children.reverse ++ es').length := by
      rw [List.length_append, List.length_append, hchildren, Nat.succ.inj hlength]
    obtain ⟨hall, hrest⟩ := alike_of_pending (e.children.reverse ++ es)
      (e'.children.reverse ++ es') (legible_pending hlegible) (legible_pending hlegible')
      hlengths hpending
    obtain ⟨hbelow, hothers⟩ := forall₂_append_inv hall hchildren
    have halike : Expr.Alike p e e' := alike_of_head (hlegible e List.mem_cons_self).here
      (hlegible' e' List.mem_cons_self).here hhead (List.forall₂_reverse_iff.mp hbelow)
    exact ⟨.cons halike hothers, hrest⟩
termination_by es => Expr.totalSize es
decreasing_by exact Expr.totalSize_pending_lt e es

/-- **The tokens of an expression determine it**, and where they end. -/
theorem exprTokens_readsBack :
    ReadsBack Expr.Legible (fun _ => True) (Expr.Alike p) (exprTokens p) := by
  intro e e' rest rest' hlegible hlegible' _ _ h
  have single : ∀ {e : Expr}, e.Legible → ∀ s ∈ [e], s.Legible := by
    intro e hlegible s hs
    rw [List.mem_singleton.mp hs]
    exact hlegible
  rw [← List.flatMap_singleton (exprTokens p) e, ← List.flatMap_singleton (exprTokens p) e'] at h
  obtain ⟨hall, hrest⟩ :=
    alike_of_pending [e] [e'] (single hlegible) (single hlegible') rfl h
  cases hall with
  | cons halike _ => exact ⟨halike, hrest⟩

/-- Alike expressions have the same tokens. -/
theorem exprsTokens_eq_of_alike : ∀ {es es' : List Expr}, List.Forall₂ (Expr.Alike p) es es' →
    exprsTokens p es = exprsTokens p es'
  | [], _, h => by
    cases h
    rfl
  | e :: es, _, h => by
    obtain ⟨e', es', hfirst, hothers, rfl⟩ := List.forall₂_cons_left_iff.mp h
    have hpending : exprsTokens p (e.children.reverse ++ es) =
        exprsTokens p (e'.children.reverse ++ es') :=
      exprsTokens_eq_of_alike (List.rel_append (List.rel_reverse (children_of_alike hfirst)) hothers)
    have htoken : exprToken p e = exprToken p e' := by
      rw [exprToken, exprToken, exprHead_eq_of_alike hfirst,
        (children_of_alike hfirst).length_eq]
    rw [exprsTokens, exprsTokens, List.flatMap_append, List.flatMap_append] at hpending
    rw [exprsTokens, exprsTokens, List.flatMap_cons, List.flatMap_cons, exprTokens_eq, exprTokens_eq,
      List.cons_append, List.cons_append, hpending, htoken]
termination_by es => Expr.totalSize es
decreasing_by exact Expr.totalSize_pending_lt e es
end Fingerprint

end Verdict
