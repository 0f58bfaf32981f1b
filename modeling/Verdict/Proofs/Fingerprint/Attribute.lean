import Verdict.Proofs.Fingerprint.Command
import Verdict.Proofs.Text.Quoted

/-! The tokens of an attribute determine it.

The number of parameters is written, and a parameter that is no expression is one token, with a
word in front that no expression begins with. -/
namespace Verdict

namespace Param

/-- The names that are written for a parameter. -/
def identifiers (p : Program) : Param → List String
  | .expr e => e.identifiers p
  | _ => []

/-- The same but for ids that stand for one name. -/
inductive Alike (p : Program) : Param → Param → Prop
  | bool (value : Bool) : Alike p (.bool value) (.bool value)
  | int (value : Int) : Alike p (.int value) (.int value)
  | text (value : String) : Alike p (.text value) (.text value)
  | expr {e e' : Expr} : Expr.Alike p e e' → Alike p (.expr e) (.expr e')

/-- What kind of parameter it is, and of what kind its expression. -/
def tag : Param → String
  | .bool _ => "Bool"
  | .int _ => "Int"
  | .text _ => "Str"
  | .expr e => e.tag

theorem isWord_tag (x : Param) : Text.IsWord x.tag := by
  cases x with
  | expr e => exact e.isWord_tag
  | _ =>
    apply Text.isWord_of_all
    simp only [tag]
    rfl

end Param

namespace Attribute

/-- The names that are written for an attribute. -/
def identifiers (p : Program) (a : Attribute) : List String :=
  a.key :: a.params.flatMap (Param.identifiers p)

/-- The same but for ids that stand for one name. -/
structure Alike (p : Program) (a a' : Attribute) : Prop where
  key : a.key = a'.key
  params : List.Forall₂ (Param.Alike p) a.params a'.params

end Attribute

namespace Fingerprint
open Text

variable {p : Program}

theorem firstWord_paramTokens (p : Program) (x : Param) :
    ∃ token tokens, paramTokens p x = token :: tokens ∧ FirstWord x.tag token := by
  have hparen : ∀ inner, FirstWord x.tag (x.tag ++ "(" ++ inner ++ ")") := by
    intro inner
    rw [String.append_assoc]
    exact firstWord_append x.isWord_tag "(" _ (by decide) rfl
  cases x with
  | expr e =>
    rw [paramTokens, exprTokens_eq]
    exact ⟨_, _, rfl, firstWord_exprToken p e⟩
  | _ => exact ⟨_, [], rfl, hparen _⟩

theorem paramTokens_readsBack : ReadsBack (fun x => Plain (x.identifiers p)) (fun _ => True)
    (Param.Alike p) (paramTokens p) := by
  intro x x' rest rest' hids hids' _ _ h
  have htag : x.tag = x'.tag := by
    obtain ⟨token, tokens, heq, hword⟩ := firstWord_paramTokens p x
    obtain ⟨token', tokens', heq', hword'⟩ := firstWord_paramTokens p x'
    rw [heq, heq'] at h
    obtain ⟨rfl, -⟩ := List.cons.inj h
    exact hword.eq hword'
  have inner : ∀ {w a a' : String}, [w ++ "(" ++ a ++ ")"] ++ rest = [w ++ "(" ++ a' ++ ")"] ++ rest' →
      a = a' ∧ rest = rest' := by
    intro w a a' h
    obtain ⟨htoken, hrest⟩ := List.cons.inj h
    rw [String.append_left_inj, String.append_right_inj] at htoken
    exact ⟨htoken, hrest⟩
  have noExpr : ∀ e : Expr, e.tag ≠ "Bool" ∧ e.tag ≠ "Int" ∧ e.tag ≠ "Str" := by
    intro e
    cases e <;> simp [Expr.tag]
  cases x with
  | bool b =>
    cases x' with
    | bool b' =>
      obtain ⟨hvalue, hrest⟩ := inner (w := "Bool") h
      rw [toString_bool_inj hvalue]
      exact ⟨.bool b', hrest⟩
    | expr e' => exact absurd htag.symm (noExpr e').1
    | _ => simp [Param.tag] at htag
  | int n =>
    cases x' with
    | int n' =>
      obtain ⟨hvalue, hrest⟩ := inner (w := "Int") h
      rw [toString_int_inj hvalue]
      exact ⟨.int n', hrest⟩
    | expr e' => exact absurd htag.symm (noExpr e').2.1
    | _ => simp [Param.tag] at htag
  | text s =>
    cases x' with
    | text s' =>
      obtain ⟨hvalue, hrest⟩ := inner (w := "Str") h
      rw [quote_inj hvalue]
      exact ⟨.text s', hrest⟩
    | expr e' => exact absurd htag.symm (noExpr e').2.2
    | _ => simp [Param.tag] at htag
  | expr e =>
    cases x' with
    | expr e' =>
      obtain ⟨halike, hrest⟩ := exprTokens_readsBack (Expr.legible_of_identifiers hids)
        (Expr.legible_of_identifiers hids') trivial trivial h
      exact ⟨.expr halike, hrest⟩
    | bool => exact absurd htag (noExpr e).1
    | int => exact absurd htag (noExpr e).2.1
    | text => exact absurd htag (noExpr e).2.2

/-- **The tokens of an attribute determine it**, and where they end. -/
theorem attributeTokens_readsBack : ReadsBack (fun a => Plain (a.identifiers p)) (fun _ => True)
    (Attribute.Alike p) (attributeTokens p) := by
  intro a a' rest rest' hids hids' _ _ h
  have params : ∀ {a : Attribute}, Plain (a.identifiers p) →
      ∀ x ∈ a.params, Plain (x.identifiers p) := fun hids x hx name hname =>
    hids name (List.mem_cons_of_mem _ (List.mem_flatMap.mpr ⟨x, hx, hname⟩))
  obtain ⟨hhead, htail⟩ := List.cons.inj h
  obtain ⟨hkey, hlength⟩ := counted_inj hhead
  obtain ⟨hparams, hrest⟩ := paramTokens_readsBack.of_length (fun _ _ _ => trivial) (params hids)
    (params hids') trivial trivial hlength htail
  exact ⟨⟨(String.append_right_inj _).mp hkey, hparams⟩, hrest⟩

/-- What follows the attributes begins with a name, and no attribute begins so. -/
def BeginsWithName (rest : List String) : Prop := ∀ token ∈ rest.head?, ':' ∉ token.toList

theorem not_beginsWithName_attributeTokens (a : Attribute) (rest : List String) :
    ¬BeginsWithName (attributeTokens p a ++ rest) := by
  intro h
  have hcolon := h _ rfl
  rw [counted, String.append_assoc, String.append_assoc, String.toList_append] at hcolon
  exact hcolon (List.mem_append_left _ (by decide))

theorem paramTokens_eq_of_alike {x x' : Param} (h : Param.Alike p x x') :
    paramTokens p x = paramTokens p x' := by
  cases h with
  | @expr e e' halike =>
    have hexprs := exprsTokens_eq_of_alike (.cons halike .nil)
    rwa [exprsTokens, exprsTokens, List.flatMap_singleton, List.flatMap_singleton] at hexprs
  | _ => rfl

theorem attributeTokens_eq_of_alike {a a' : Attribute} (h : Attribute.Alike p a a') :
    attributeTokens p a = attributeTokens p a' := by
  rw [attributeTokens, attributeTokens, h.key, h.params.length_eq,
    flatMap_eq_of_forall₂ (paramTokens p) paramTokens_eq_of_alike h.params]

end Fingerprint

end Verdict
