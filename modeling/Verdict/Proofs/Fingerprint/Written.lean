import Verdict.Proofs.Fingerprint.Attribute

/-! What is written determines the tokens.

Each token is closed by a NUL, and none has one inside: the words in front do not, numerals and
quoted texts do not, and identifiers may not. -/
namespace Verdict.Fingerprint
open Text

variable {p : Program}

/-- No token, or no name, has a NUL inside. -/
def Closed (tokens : List String) : Prop := ∀ token ∈ tokens, '\x00' ∉ token.toList

theorem toList_written (tokens : List String) :
    (written tokens).toList = tokens.flatMap fun token => token.toList ++ ['\x00'] := by
  rw [written, String.toList_join, List.flatMap_map]
  apply List.flatMap_congr
  intro token _
  exact String.toList_append

theorem written_inj {tokens tokens' : List String} (h : Closed tokens) (h' : Closed tokens')
    (heq : written tokens = written tokens') : tokens = tokens' := by
  have token : ReadsBack (fun t : String => '\x00' ∉ t.toList) (fun _ => True) Eq
      (fun t : String => t.toList ++ ['\x00']) := by
    intro t t' r r' ht ht' _ _ heq
    rw [List.append_assoc, List.append_assoc] at heq
    obtain ⟨htoken, hrest⟩ := append_cons_inj_of_first ht ht' heq
    exact ⟨String.ext htoken, hrest⟩
  have hlist := congrArg String.toList heq
  rw [toList_written, toList_written, ← List.append_nil (List.flatMap _ tokens),
    ← List.append_nil (List.flatMap _ tokens')] at hlist
  have hall := (token.of_ends (· = []) (by simp) h h' rfl rfl hlist).1
  rwa [List.forall₂_eq_eq_eq] at hall

/-! ### Tokens of closed form -/

theorem closed_cons {token : String} {tokens : List String} (h : '\x00' ∉ token.toList)
    (hs : Closed tokens) : Closed (token :: tokens) := List.forall_mem_cons.mpr ⟨h, hs⟩

theorem closed_append {tokens tokens' : List String} (h : Closed tokens) (h' : Closed tokens') :
    Closed (tokens ++ tokens') := List.forall_mem_append.mpr ⟨h, h'⟩

theorem closed_flatMap {α : Type} {l : List α} {f : α → List String} (h : ∀ a ∈ l, Closed (f a)) :
    Closed (l.flatMap f) := by
  intro token htoken
  obtain ⟨a, ha, htoken⟩ := List.mem_flatMap.mp htoken
  exact h a ha token htoken

theorem notMem_nul_counted {head : String} (h : '\x00' ∉ head.toList) (n : Nat) :
    '\x00' ∉ (counted head n).toList :=
  notMem_append (notMem_append h (by decide)) (notMem_toString n rfl)

theorem closed_of_plain {names : List String} (h : Plain names) : Closed names :=
  fun name hname => (h name hname).notMem_nul

theorem notMem_nul_commaList {names : List String} (h : Closed names) :
    '\x00' ∉ (commaList names).toList := notMem_commaList (by decide) h

theorem notMem_nul_describe (v : Literal) : '\x00' ∉ v.describe.toList := by
  cases v with
  | bool b =>
    rw [Literal.describe_bool]
    exact notMem_append (notMem_append (by decide) (notMem_toString_bool b rfl)) (by decide)
  | int n =>
    rw [Literal.describe_int]
    exact notMem_append (notMem_append (by decide) (notMem_toString_int n rfl (by decide))) (by decide)
  | bitVector value width =>
    rw [Literal.describe_bitVector]
    exact notMem_append (notMem_append (notMem_append (notMem_append (by decide)
      (notMem_toString value rfl)) (by decide)) (notMem_toString width rfl)) (by decide)

theorem notMem_nul_exprHead {e : Expr} (h : Closed (e.namesHere p)) :
    '\x00' ∉ (exprHead p e).toList := by
  cases e with
  | literal v => exact notMem_append (by decide) (notMem_nul_describe v)
  | var | const | call | builtin =>
    exact notMem_append (by decide) (h _ (List.mem_singleton_self _))
  | unary op => exact notMem_append (by decide) (by cases op <;> decide)
  | binary op => exact notMem_append (by decide) (by cases op <;> decide)
  | quantified kind bound triggers =>
    have hkind : '\x00' ∉ kind.label.toList := by cases kind <;> decide
    have hshape : '\x00' ∉ (commaList (triggers.map fun t => toString t.length)).toList := by
      apply notMem_commaList (by decide)
      intro name hname
      obtain ⟨t, -, rfl⟩ := List.mem_map.mp hname
      exact notMem_toString t.length rfl
    exact notMem_append (notMem_append (notMem_append (notMem_append (notMem_append (by decide)
      hkind) (by decide)) (notMem_nul_commaList h)) (by decide)) hshape
  | lambda | letIn => exact notMem_append (by decide) (notMem_nul_commaList h)
  | old | concat =>
    simp only [exprHead]
    decide
  | extract _ start stop =>
    exact notMem_append (notMem_append (notMem_append (by decide) (notMem_toString start rfl))
      (by decide)) (notMem_toString stop rfl)

theorem closed_exprTokens {e : Expr} (h : Closed (e.identifiers p)) : Closed (exprTokens p e) := by
  intro token htoken
  obtain ⟨s, hs, rfl⟩ := List.mem_map.mp htoken
  apply notMem_nul_counted
  exact notMem_nul_exprHead fun name hname => h name (List.mem_flatMap.mpr ⟨s, hs, hname⟩)

theorem closed_paramTokens {x : Param} (h : Plain (x.identifiers p)) :
    Closed (paramTokens p x) := by
  have single : ∀ {head value : String}, '\x00' ∉ head.toList → '\x00' ∉ value.toList →
      Closed [head ++ value ++ ")"] := fun hhead hvalue =>
    closed_cons (notMem_append (notMem_append hhead hvalue) (by decide)) nofun
  cases x with
  | bool b => exact single (by decide) (notMem_toString_bool b rfl)
  | int n => exact single (by decide) (notMem_toString_int n rfl (by decide))
  | text s => exact single (by decide) (notMem_nul_quote s)
  | expr e => exact closed_exprTokens (closed_of_plain h)

theorem closed_attributeTokens {a : Attribute} (h : Plain (a.identifiers p)) :
    Closed (attributeTokens p a) := by
  obtain ⟨hkey, hparams⟩ := List.forall_mem_cons.mp h
  refine closed_cons (notMem_nul_counted (notMem_append (by decide) hkey.notMem_nul) _) ?_
  apply closed_flatMap
  intro x hx
  exact closed_paramTokens fun name hname => hparams name (List.mem_flatMap.mpr ⟨x, hx, hname⟩)

theorem notMem_nul_cmdHead {c : Cmd} (h : Plain (c.identifiers p)) :
    '\x00' ∉ (cmdHead p c).toList := by
  have htargets : Closed c.targets := fun name hname =>
    (h name (Cmd.mem_identifiers_of_target hname)).notMem_nul
  cases c with
  | assert =>
    simp only [cmdHead]
    decide
  | assume e attributes =>
    cases hproxy : (Cmd.assume e attributes).proxy? with
    | some proxy =>
      simp only [cmdHead, hproxy]
      exact notMem_append (by decide) (h proxy (Cmd.mem_identifiers_of_proxy hproxy)).notMem_nul
    | none =>
      simp only [cmdHead, hproxy]
      exact notMem_nul_counted (by decide) _
  | assign | havoc => exact notMem_append (by decide) (notMem_nul_commaList htargets)
  | call location f args outs =>
    have hname := (h _ (Cmd.mem_identifiers_of_callee rfl)).notMem_nul
    exact notMem_append (notMem_append (notMem_append (by decide) hname) (by decide))
      (notMem_nul_commaList htargets)

theorem closed_cmdTokens {c : Cmd} (h : Plain (c.identifiers p)) : Closed (cmdTokens p c) := by
  refine closed_cons (notMem_nul_cmdHead h) (closed_flatMap fun e he => ?_)
  exact closed_exprTokens fun name hname => (h name (Cmd.mem_identifiers_of_expr he hname)).notMem_nul

theorem closed_blockTokens {b : Block} (h : Plain (b.identifiers p)) :
    Closed (blockTokens p b) := by
  obtain ⟨hlabel, hrest⟩ := List.forall_mem_cons.mp h
  obtain ⟨hcmds, hlabels⟩ := List.forall_mem_append.mp hrest
  refine closed_cons (notMem_nul_counted (notMem_append (by decide) hlabel.notMem_nul) _)
    (closed_append (closed_flatMap fun c hc => ?_) (closed_cons ?_ nofun))
  · exact closed_cmdTokens fun name hname => hcmds name (List.mem_flatMap.mpr ⟨c, hc, hname⟩)
  · cases htransfer : b.transfer with
    | goto labels =>
      rw [htransfer] at hlabels
      exact notMem_append (by decide) (notMem_nul_commaList (closed_of_plain hlabels))
    | _ =>
      simp only [transferToken]
      decide

end Verdict.Fingerprint

namespace Verdict.Checksum
open Text

/-- Hexadecimal digits determine the checksum that they show. -/
theorem hex_inj {c c' : Checksum} (h : c.hex = c'.hex) : c = c' := by
  have toList_hexByte : ∀ b : UInt8, (hexByte b).toList =
      [Nat.digitChar (b.toNat / 16), Nat.digitChar (b.toNat % 16)] := by
    intro b
    simp [hexByte, Char.toString]
  have byte : ReadsBack (fun _ => True) (fun _ => True) Eq fun b : UInt8 => (hexByte b).toList := by
    intro b b' r r' _ _ _ _ h
    simp only [toList_hexByte] at h
    obtain ⟨hhigh, h⟩ := List.cons.inj h
    obtain ⟨hlow, hrest⟩ := List.cons.inj h
    have hlt := b.toNat_lt
    have hlt' := b'.toNat_lt
    have hquotient := digitChar_inj _ (by omega) _ (by omega) hhigh
    have hremainder := digitChar_inj _ (Nat.mod_lt _ (by decide)) _ (Nat.mod_lt _ (by decide)) hlow
    exact ⟨UInt8.toNat_inj.mp (by omega), hrest⟩
  have hlist := congrArg String.toList h
  rw [hex, hex, String.toList_join, String.toList_join, List.flatMap_map, List.flatMap_map,
    ← List.append_nil (List.flatMap _ c.bytes.toList),
    ← List.append_nil (List.flatMap _ c'.bytes.toList)] at hlist
  have hall := (byte.of_length (fun _ _ _ => trivial) (fun _ _ => trivial) (fun _ _ => trivial)
    trivial trivial (by simp) hlist).1
  rw [List.forall₂_eq_eq_eq] at hall
  obtain ⟨bytes⟩ := c
  obtain ⟨bytes'⟩ := c'
  exact congrArg Checksum.mk (Vector.toList_inj.mp hall)

end Verdict.Checksum
