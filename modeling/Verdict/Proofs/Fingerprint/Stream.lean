import Verdict.Proofs.Fingerprint.Written
import Verdict.Proofs.Text.Utf8

/-! The bytes of an expression determine it, and where they end.

A token is written in UTF-8, and the byte 0 behind it is no part of it, since only a NUL is
written with that byte. So the tokens are read off the bytes one by one, and the expression off the
tokens. Nothing need be known of what follows: if the tokens of one expression were
the beginning of those of another, both would be read off the longer ones, and nothing be left
(`Text.ReadsBack.flatMap`). -/
namespace Verdict.Fingerprint
open Text

variable {p : Program} {e e' : Expr}

/-- What is digested for an expression: its tokens in UTF-8, each with a 0 behind it. -/
def exprBytes (p : Program) (e : Expr) : ByteArray := (written (exprTokens p e)).toUTF8

/-- A token with the byte that closes it. -/
def tokenBytes (token : String) : List UInt8 := token.toUTF8.data.toList ++ [0]

theorem zero_eq_ofNat_iff (n : Nat) : (0 : UInt8) = UInt8.ofNat n ↔ n % 256 = 0 := by
  rw [← UInt8.toNat_inj, UInt8.toNat_ofNat', UInt8.toNat_zero, eq_comm]

/-- Only a NUL is written with the byte 0. -/
theorem eq_nul_of_zero_mem {c : Char} (h : 0 ∈ String.utf8EncodeChar c) : c = '\x00' := by
  have hcode : c.val.toNat = 0 := by
    simp only [String.utf8EncodeChar] at h
    -- Every byte of a longer sequence has its highest bit set.
    split_ifs at h <;>
      simp only [List.mem_cons, List.not_mem_nil, or_false, zero_eq_ofNat_iff] at h <;> omega
  exact Char.ext (UInt32.toNat_inj.mp hcode)

theorem zero_notMem_toUTF8 {token : String} (h : '\x00' ∉ token.toList) :
    0 ∉ token.toUTF8.data.toList := by
  rw [toUTF8_toList, List.mem_flatMap]
  rintro ⟨c, hc, hzero⟩
  exact h (eq_nul_of_zero_mem hzero ▸ hc)

theorem tokenBytes_readsBack :
    ReadsBack (fun t => '\x00' ∉ t.toList) (fun _ => True) Eq tokenBytes := by
  intro t t' r r' ht ht' _ _ heq
  rw [tokenBytes, tokenBytes, List.append_assoc, List.append_assoc] at heq
  obtain ⟨htoken, hrest⟩ :=
    append_cons_inj_of_first (zero_notMem_toUTF8 ht) (zero_notMem_toUTF8 ht') heq
  exact ⟨toUTF8_inj htoken, hrest⟩

theorem exprBytes_toList (p : Program) (e : Expr) :
    (exprBytes p e).data.toList = (exprTokens p e).flatMap tokenBytes := by
  rw [exprBytes, toUTF8_toList, toList_written, List.flatMap_assoc]
  apply List.flatMap_congr
  intro token _
  rw [List.flatMap_append, tokenBytes, toUTF8_toList]
  rfl

theorem exprBytes_eq_of_alike (h : Expr.Alike p e e') : exprBytes p e = exprBytes p e' := by
  have htokens := exprsTokens_eq_of_alike (.cons h .nil)
  rw [exprsTokens, exprsTokens, List.flatMap_singleton, List.flatMap_singleton] at htokens
  rw [exprBytes, exprBytes, htokens]

theorem alike_of_exprBytes_append (hnames : Closed (e.identifiers p))
    (hnames' : Closed (e'.identifiers p)) (hbound : e.Legible) (hbound' : e'.Legible)
    {s s' : ByteArray} (h : exprBytes p e ++ s = exprBytes p e' ++ s') :
    Expr.Alike p e e' ∧ s = s' := by
  have hlist := congrArg (·.data.toList) h
  simp only [ByteArray.data_append, Array.toList_append, exprBytes_toList] at hlist
  obtain ⟨halike, hrest⟩ := tokenBytes_readsBack.flatMap exprTokens_readsBack
    ⟨hbound, closed_exprTokens hnames⟩ ⟨hbound', closed_exprTokens hnames'⟩ trivial trivial hlist
  exact ⟨halike, ByteArray.ext (Array.toList_inj.mp hrest)⟩

/-- **The bytes of an expression determine it**, up to the ids of declarations of one name, and they
determine where they end. No name may have a NUL inside; the names that are bound are written in
lists, so they may be neither empty nor have commas. -/
theorem exprBytes_determine (hnames : Closed (e.identifiers p)) (hnames' : Closed (e'.identifiers p))
    (hbound : e.Legible) (hbound' : e'.Legible) :
    (exprBytes p e = exprBytes p e' ↔ Expr.Alike p e e') ∧
      ∀ s s' : ByteArray, exprBytes p e ++ s = exprBytes p e' ++ s' ↔
        Expr.Alike p e e' ∧ s = s' := by
  have split : ∀ s s' : ByteArray, exprBytes p e ++ s = exprBytes p e' ++ s' ↔
      Expr.Alike p e e' ∧ s = s' := by
    intro s s'
    constructor
    · exact alike_of_exprBytes_append hnames hnames' hbound hbound'
    · rintro ⟨halike, rfl⟩
      rw [exprBytes_eq_of_alike halike]
  refine ⟨⟨fun h => ?_, exprBytes_eq_of_alike⟩, split⟩
  exact ((split .empty .empty).mp (by rw [h])).1

/-! ### Triggers apart and together -/

/-- A program with two constants of one name. -/
def namesakes : Program :=
  ⟨#[⟨"c", .unknown, [], .constant false⟩, ⟨"c", .unknown, [], .constant true⟩]⟩

/-- That all there is is the constant, and what should trigger this. -/
def allEqual (id : DeclId) (triggers : List (List Expr)) : Expr :=
  .quantified .all ["x"] triggers (.binary .eq (.var "x") (.const id))

/-- Either side is a trigger. -/
def either (id : DeclId) : Expr := allEqual id [[.var "x"], [.const id]]

/-- Both sides are one trigger. -/
def both (id : DeclId) : Expr := allEqual id [[.var "x", .const id]]

theorem walk_allEqual {id : DeclId} {triggers : List (List Expr)}
    (h : triggers.flatten = [.var "x", .const id]) : (allEqual id triggers).walk =
      [allEqual id triggers, .binary .eq (.var "x") (.const id), .const id, .var "x", .const id,
        .var "x"] := by
  have hchildren : (allEqual id triggers).children =
      [.var "x", .const id, .binary .eq (.var "x") (.const id)] := by
    rw [allEqual, Expr.children, h]
    rfl
  rw [Expr.walk_eq, hchildren]
  simp [Expr.walk_eq, Expr.children]

theorem closed_allEqual {id : DeclId} {triggers : List (List Expr)}
    (h : triggers.flatten = [.var "x", .const id]) (hname : p.nameOf id = "c") :
    Closed ((allEqual id triggers).identifiers p) := by
  rw [Expr.identifiers, walk_allEqual h]
  simp [allEqual, Expr.namesHere, Expr.binders, hname, Closed]

theorem legible_allEqual {id : DeclId} {triggers : List (List Expr)}
    (h : triggers.flatten = [.var "x", .const id]) : (allEqual id triggers).Legible := by
  rw [Expr.Legible, walk_allEqual h]
  simp [allEqual, Expr.binders, IsEntry]

/-- Which of the constants it is about makes no difference, and how the triggers are grouped does,
whatever follows. -/
theorem exprBytes_triggers :
    (Closed ((either ⟨0⟩).identifiers namesakes) ∧ (either ⟨0⟩).Legible) ∧
      (Closed ((either ⟨1⟩).identifiers namesakes) ∧ (either ⟨1⟩).Legible) ∧
      (Closed ((both ⟨1⟩).identifiers namesakes) ∧ (both ⟨1⟩).Legible) ∧
      exprBytes namesakes (either ⟨0⟩) = exprBytes namesakes (either ⟨1⟩) ∧
      ∀ s s' : ByteArray,
        exprBytes namesakes (either ⟨0⟩) ++ s ≠ exprBytes namesakes (both ⟨1⟩) ++ s' := by
  have hfirst : Closed ((either ⟨0⟩).identifiers namesakes) := closed_allEqual rfl rfl
  have hsecond : Closed ((either ⟨1⟩).identifiers namesakes) := closed_allEqual rfl rfl
  have htogether : Closed ((both ⟨1⟩).identifiers namesakes) := closed_allEqual rfl rfl
  have heither : ∀ id, (either id).Legible := fun id => legible_allEqual rfl
  have hboth : (both ⟨1⟩).Legible := legible_allEqual rfl
  have hvar : Expr.Alike namesakes (.var "x") (.var "x") := .var "x"
  have hconst : Expr.Alike namesakes (.const ⟨0⟩) (.const ⟨1⟩) := .const rfl
  refine ⟨⟨hfirst, heither _⟩, ⟨hsecond, heither _⟩, ⟨htogether, hboth⟩, ?_, fun s s' h => ?_⟩
  · apply (exprBytes_determine hfirst hsecond (heither _) (heither _)).1.mpr
    exact .quantified .all ["x"] (.cons (.cons hvar .nil) (.cons (.cons hconst .nil) .nil))
      (.binary .eq hvar hconst)
  · have halike := (((exprBytes_determine hfirst htogether (heither _) hboth).2 s s').mp h).1
    cases halike with
    | quantified _ _ htriggers _ => exact absurd htriggers.length_eq (by decide)

end Verdict.Fingerprint
