import Verdict.Proofs.Fingerprint.Expr

/-! The tokens of a command, and of a block, determine what is written of it.

How many expressions a command has is not written, so they are read for as long as an expression can
begin (`Stops`). No command begins like an expression: their first words differ, but for the
`call` of a procedure and that of a function, and there only the latter has a count. The number of a
block's commands is written.

Of the attributes of a command hardly anything is. Those of an assertion are left out, and of an
assumption's only the proxy is written, or how many they are where there is none; `Cmd.Alike`
says the same of two commands. -/
namespace Verdict

/-- The name can be written in any place. -/
def IsIdentifier (name : String) : Prop :=
  name ≠ "" ∧ ∀ c ∈ ['\x00', ',', ':', '/'], c ∉ name.toList

instance (name : String) : Decidable (IsIdentifier name) :=
  inferInstanceAs (Decidable (name ≠ "" ∧ ∀ c ∈ ['\x00', ',', ':', '/'], c ∉ name.toList))

/-- All of them can. -/
def Plain (names : List String) : Prop := ∀ name ∈ names, IsIdentifier name

instance (names : List String) : Decidable (Plain names) :=
  inferInstanceAs (Decidable (∀ name ∈ names, IsIdentifier name))

namespace IsIdentifier
variable {name : String}

theorem entry (h : IsIdentifier name) : Fingerprint.IsEntry name := ⟨h.1, h.2 ',' (by decide)⟩

theorem notMem_colon (h : IsIdentifier name) : ':' ∉ name.toList := h.2 ':' (by decide)

theorem notMem_slash (h : IsIdentifier name) : '/' ∉ name.toList := h.2 '/' (by decide)

theorem notMem_nul (h : IsIdentifier name) : '\x00' ∉ name.toList := h.2 '\x00' (by decide)

end IsIdentifier

/-! ### What is written of a command -/

/-- The names that are written for an expression, as often as they are. -/
def Expr.identifiers (p : Program) (e : Expr) : List String := e.walk.flatMap (Expr.namesHere p)

namespace Cmd

/-- The names that are written for a command. -/
def identifiers (p : Program) (c : Cmd) : List String :=
  (c.callee?.map p.nameOf).toList ++ c.proxy?.toList ++ c.targets ++
    c.exprs.flatMap (Expr.identifiers p)

/-- The same in what is written of them. -/
inductive Alike (p : Program) : Cmd → Cmd → Prop
  | assert {location location' : Location} {e e' : Expr} {attributes attributes' : Attributes} :
      Expr.Alike p e e' → Alike p (.assert location e attributes) (.assert location' e' attributes')
  | assume {e e' : Expr} {attributes attributes' : Attributes} : Expr.Alike p e e' →
      (assume e attributes).proxy? = (assume e' attributes').proxy? →
      ((assume e attributes).proxy? = none → attributes.length = attributes'.length) →
      Alike p (.assume e attributes) (.assume e' attributes')
  | assign (lhs : List String) {rhs rhs' : List Expr} : List.Forall₂ (Expr.Alike p) rhs rhs' →
      Alike p (.assign lhs rhs) (.assign lhs rhs')
  | havoc (vars : List String) : Alike p (.havoc vars) (.havoc vars)
  | call {location location' : Location} {f f' : DeclId} {args args' : List Expr}
      (outs : List String) : p.nameOf f = p.nameOf f' → List.Forall₂ (Expr.Alike p) args args' →
      Alike p (.call location f args outs) (.call location' f' args' outs)

/-- What kind of command it is. -/
def tag : Cmd → String
  | assert .. => "assert"
  | assume .. => "assume"
  | assign .. => "assign"
  | havoc _ => "havoc"
  | call .. => "call"

theorem isWord_tag (c : Cmd) : Text.IsWord c.tag := by
  apply Text.isWord_of_all
  cases c <;> simp only [tag] <;> rfl

variable {p : Program} {c : Cmd}

theorem mem_identifiers_of_proxy {proxy : String} (h : c.proxy? = some proxy) :
    proxy ∈ c.identifiers p := by
  simp [identifiers, h]

theorem mem_identifiers_of_callee {id : DeclId} (h : c.callee? = some id) :
    p.nameOf id ∈ c.identifiers p := by
  simp [identifiers, h]

theorem mem_identifiers_of_target {name : String} (h : name ∈ c.targets) :
    name ∈ c.identifiers p := by
  simp [identifiers, h]

theorem mem_identifiers_of_expr {e : Expr} (he : e ∈ c.exprs) {name : String}
    (h : name ∈ e.identifiers p) : name ∈ c.identifiers p :=
  List.mem_append_right _ (List.mem_flatMap.mpr ⟨e, he, h⟩)

end Cmd

namespace Transfer

/-- The blocks that may be next. -/
def labels : Transfer → List String
  | .goto labels => labels
  | .return => []

end Transfer

namespace Block

/-- The names that are written for a block. -/
def identifiers (p : Program) (b : Block) : List String :=
  b.label :: (b.cmds.flatMap (Cmd.identifiers p) ++ b.transfer.labels)

/-- The same in what is written of them. -/
structure Alike (p : Program) (b b' : Block) : Prop where
  label : b.label = b'.label
  cmds : List.Forall₂ (Cmd.Alike p) b.cmds b'.cmds
  transfer : b.transfer = b'.transfer

end Block

theorem Expr.legible_of_identifiers {p : Program} {e : Expr}
    (h : Plain (e.identifiers p)) : e.Legible := by
  intro s hs name hname
  have hhere : name ∈ s.namesHere p := by
    cases s with
    | var | const | call | builtin => cases hname
    | _ => exact hname
  exact (h name (List.mem_flatMap.mpr ⟨s, hs, hhere⟩)).entry

namespace Fingerprint
open Text

variable {p : Program} {rest : List String}

/-! ### Where expressions end -/

/-- No expression begins here. -/
def Stops (p : Program) (rest : List String) : Prop :=
  ∀ token ∈ rest.head?, ∀ e, token ≠ exprToken p e

theorem firstWord_exprToken (p : Program) (e : Expr) : FirstWord e.tag (exprToken p e) := by
  rw [exprToken, counted, String.append_assoc]
  exact (firstWord_exprHead p e).append (endsWord_append (by decide) rfl)

theorem ne_exprToken_of_firstWord {w s : String} (h : FirstWord w s) (hne : ∀ e : Expr, w ≠ e.tag)
    (e : Expr) : s ≠ exprToken p e := by
  rintro rfl
  exact hne e (h.eq (firstWord_exprToken p e))

theorem not_stops_exprTokens (e : Expr) (rest : List String) : ¬Stops p (exprTokens p e ++ rest) := by
  intro h
  rw [exprTokens_eq] at h
  exact h (exprToken p e) rfl e rfl

/-! ### Commands -/

theorem firstWord_cmdHead (p : Program) (c : Cmd) : FirstWord c.tag (cmdHead p c) := by
  have hword := c.isWord_tag
  cases c with
  | assert => exact firstWord_self hword
  | assume e attributes =>
    cases hproxy : (Cmd.assume e attributes).proxy? with
    | some proxy =>
      simp only [cmdHead, hproxy]
      exact firstWord_append hword ":where:" proxy (by decide) rfl
    | none =>
      simp only [cmdHead, hproxy]
      exact firstWord_append hword "/" _ (by decide) rfl
  | assign | havoc => exact firstWord_append hword ":" _ (by decide) rfl
  | call location f args outs =>
    simp only [cmdHead, String.append_assoc]
    exact firstWord_append hword ":" _ (by decide) rfl

theorem cmdHead_ne_exprToken {c : Cmd} (h : Plain (c.identifiers p)) (e : Expr) :
    cmdHead p c ≠ exprToken p e := by
  have byTag : (∀ e : Expr, c.tag ≠ e.tag) → cmdHead p c ≠ exprToken p e := fun hne =>
    ne_exprToken_of_firstWord (firstWord_cmdHead p c) hne e
  cases c with
  | call location f args outs =>
    -- Calls of procedures and of functions begin alike, but only the latter are counted.
    have hslash : '/' ∉ (cmdHead p (.call location f args outs)).toList := by
      have hname := (h _ (Cmd.mem_identifiers_of_callee rfl)).notMem_slash
      have houts : ∀ name ∈ outs, '/' ∉ name.toList := fun name hname =>
        (h name (Cmd.mem_identifiers_of_target hname)).notMem_slash
      exact notMem_append (notMem_append (notMem_append (by decide) hname) (by decide))
        (notMem_commaList (by decide) houts)
    intro heq
    rw [heq] at hslash
    exact hslash (slash_mem_counted _ _)
  | _ => exact byTag (by rintro (_ | _) <;> simp [Cmd.tag, Expr.tag])

theorem where_ne_counted (proxy : String) (n : Nat) :
    "assume:where:" ++ proxy ≠ counted "assume" n := by
  have hwhere : "assume:where:" = "assume" ++ ":where:" := rfl
  rw [hwhere, counted, String.append_assoc, String.append_assoc, Ne, String.append_right_inj]
  intro h
  have hlist := congrArg String.toList h
  rw [String.toList_append, String.toList_append] at hlist
  exact absurd (List.cons.inj hlist).1 (by decide)

theorem proxy_eq_of_cmdHead {e e' : Expr} {attributes attributes' : Attributes}
    (h : cmdHead p (.assume e attributes) = cmdHead p (.assume e' attributes')) :
    (Cmd.assume e attributes).proxy? = (Cmd.assume e' attributes').proxy? ∧
      ((Cmd.assume e attributes).proxy? = none → attributes.length = attributes'.length) := by
  cases hproxy : (Cmd.assume e attributes).proxy? with
  | some proxy =>
    cases hproxy' : (Cmd.assume e' attributes').proxy? with
    | some proxy' =>
      simp only [cmdHead, hproxy, hproxy', String.append_right_inj] at h
      rw [h]
      exact ⟨rfl, nofun⟩
    | none =>
      simp only [cmdHead, hproxy, hproxy'] at h
      exact absurd h (where_ne_counted proxy _)
  | none =>
    cases hproxy' : (Cmd.assume e' attributes').proxy? with
    | some proxy' =>
      simp only [cmdHead, hproxy, hproxy'] at h
      exact absurd h.symm (where_ne_counted proxy' _)
    | none =>
      simp only [cmdHead, hproxy, hproxy'] at h
      exact ⟨rfl, fun _ => (counted_inj h).2⟩

/-- What a command is, apart from its expressions, and these are all that is written of it. -/
theorem alike_of_cmdHead {c c' : Cmd} (hids : Plain (c.identifiers p))
    (hids' : Plain (c'.identifiers p)) (hhead : cmdHead p c = cmdHead p c')
    (h : List.Forall₂ (Expr.Alike p) c.exprs c'.exprs) : Cmd.Alike p c c' := by
  have htag : c.tag = c'.tag := (firstWord_cmdHead p c).eq (hhead ▸ firstWord_cmdHead p c')
  have targets : ∀ {c : Cmd}, (Plain (c.identifiers p)) →
      ∀ name ∈ c.targets, IsEntry name := fun hids name hname =>
    (hids name (Cmd.mem_identifiers_of_target hname)).entry
  cases c with
  | assert location e attributes =>
    cases c' with
    | assert location' e' attributes' =>
      cases h with
      | cons he _ => exact .assert he
    | _ => simp [Cmd.tag] at htag
  | assume e attributes =>
    cases c' with
    | assume e' attributes' =>
      cases h with
      | cons he _ =>
        obtain ⟨hproxy, hcount⟩ := proxy_eq_of_cmdHead hhead
        exact .assume he hproxy hcount
    | _ => simp [Cmd.tag] at htag
  | assign lhs rhs =>
    cases c' with
    | assign lhs' rhs' =>
      obtain rfl : lhs = lhs' :=
        commaList_inj (targets hids) (targets hids') ((String.append_right_inj _).mp hhead)
      exact .assign lhs h
    | _ => simp [Cmd.tag] at htag
  | havoc vars =>
    cases c' with
    | havoc vars' =>
      obtain rfl : vars = vars' :=
        commaList_inj (targets hids) (targets hids') ((String.append_right_inj _).mp hhead)
      exact .havoc vars
    | _ => simp [Cmd.tag] at htag
  | call location f args outs =>
    cases c' with
    | call location' f' args' outs' =>
      have hnames : p.nameOf f ++ ":" ++ commaList outs = p.nameOf f' ++ ":" ++ commaList outs' := by
        simp only [cmdHead, String.append_assoc, String.append_right_inj] at hhead
        simpa only [String.append_assoc] using hhead
      obtain ⟨hname, houts⟩ := eq_of_first rfl
        (hids _ (Cmd.mem_identifiers_of_callee rfl)).notMem_colon
        (hids' _ (Cmd.mem_identifiers_of_callee rfl)).notMem_colon hnames
      obtain rfl : outs = outs' := commaList_inj (targets hids) (targets hids') houts
      exact .call outs hname h
    | _ => simp [Cmd.tag] at htag

theorem stops_cmdTokens (c : Cmd) (rest : List String) (h : Plain (c.identifiers p)) :
    Stops p (cmdTokens p c ++ rest) := by
  intro token htoken e
  obtain rfl : cmdHead p c = token := Option.some.inj htoken
  exact cmdHead_ne_exprToken h e

theorem legible_exprs {c : Cmd} (h : Plain (c.identifiers p)) : ∀ e ∈ c.exprs, e.Legible := fun _ he =>
  Expr.legible_of_identifiers fun name hname => h name (Cmd.mem_identifiers_of_expr he hname)

/-- **The tokens of a command determine what is written of it**, and where they end. -/
theorem cmdTokens_readsBack :
    ReadsBack (fun c => Plain (c.identifiers p)) (Stops p) (Cmd.Alike p) (cmdTokens p) := by
  intro c c' rest rest' hids hids' hstops hstops' h
  obtain ⟨hhead, htail⟩ := List.cons.inj h
  obtain ⟨hexprs, hrest⟩ := exprTokens_readsBack.of_ends (Stops p) not_stops_exprTokens
    (legible_exprs hids) (legible_exprs hids') hstops hstops' htail
  exact ⟨alike_of_cmdHead hids hids' hhead hexprs, hrest⟩

theorem cmdHead_eq_of_alike {c c' : Cmd} (h : Cmd.Alike p c c') : cmdHead p c = cmdHead p c' := by
  cases h with
  | @assume e e' attributes attributes' _ hproxy hcount =>
    cases hnone : (Cmd.assume e attributes).proxy? with
    | some proxy =>
      rw [hnone] at hproxy
      simp only [cmdHead, hnone, ← hproxy]
    | none =>
      have hlength := hcount hnone
      rw [hnone] at hproxy
      simp only [cmdHead, hnone, ← hproxy, hlength]
  | call outs hname => rw [cmdHead, cmdHead, hname]
  | _ => rfl

theorem exprs_of_alike {c c' : Cmd} (h : Cmd.Alike p c c') :
    List.Forall₂ (Expr.Alike p) c.exprs c'.exprs := by
  cases h with
  | assert he | assume he => exact .cons he .nil
  | assign _ hrhs => exact hrhs
  | havoc => exact .nil
  | call _ _ hargs => exact hargs

theorem cmdTokens_eq_of_alike {c c' : Cmd} (h : Cmd.Alike p c c') :
    cmdTokens p c = cmdTokens p c' := by
  rw [cmdTokens, cmdTokens, cmdHead_eq_of_alike h, exprsTokens_eq_of_alike (exprs_of_alike h)]

/-! ### Blocks -/

theorem firstWord_transferToken (t : Transfer) :
    ∃ w, FirstWord w (transferToken t) ∧ ∀ e : Expr, w ≠ e.tag := by
  cases t with
  | goto labels =>
    have hword : IsWord "goto" := isWord_of_all rfl
    refine ⟨"goto", firstWord_append hword ":" (commaList labels) (by decide) rfl, ?_⟩
    rintro (_ | _) <;> simp [Expr.tag]
  | _ =>
    have hword : IsWord "return" := isWord_of_all rfl
    refine ⟨"return", firstWord_self hword, ?_⟩
    rintro (_ | _) <;> simp [Expr.tag]

theorem stops_transferToken (t : Transfer) : Stops p (transferToken t :: rest) := by
  intro token htoken e
  obtain rfl : transferToken t = token := Option.some.inj htoken
  obtain ⟨w, hword, hne⟩ := firstWord_transferToken t
  exact ne_exprToken_of_firstWord hword hne e

theorem transferToken_inj {t t' : Transfer} (h : ∀ name ∈ t.labels, IsEntry name)
    (h' : ∀ name ∈ t'.labels, IsEntry name) (heq : transferToken t = transferToken t') : t = t' := by
  have hreturn : ∀ labels, "goto:" ++ commaList labels ≠ "return" := by
    intro labels heq
    have hlist := congrArg String.toList heq
    rw [String.toList_append] at hlist
    exact absurd (List.cons.inj hlist).1 (by decide)
  cases t with
  | goto labels =>
    cases t' with
    | goto labels' =>
      obtain rfl : labels = labels' := commaList_inj h h' ((String.append_right_inj _).mp heq)
      rfl
    | _ => exact absurd heq (hreturn labels)
  | _ =>
    cases t' with
    | goto labels' => exact absurd heq.symm (hreturn labels')
    | _ => rfl

/-- **The tokens of a block determine what is written of it**, and where they end. -/
theorem blockTokens_readsBack : ReadsBack (fun b => Plain (b.identifiers p)) (fun _ => True)
    (Block.Alike p) (blockTokens p) := by
  intro b b' rest rest' hids hids' _ _ h
  have cmds : ∀ {b : Block}, Plain (b.identifiers p) → ∀ c ∈ b.cmds, Plain (c.identifiers p) :=
    fun hids c hc name hname => hids name
      (List.mem_cons_of_mem _ (List.mem_append_left _ (List.mem_flatMap.mpr ⟨c, hc, hname⟩)))
  have labels : ∀ {b : Block}, Plain (b.identifiers p) → ∀ name ∈ b.transfer.labels, IsEntry name :=
    fun hids name hname => (hids name (List.mem_cons_of_mem _ (List.mem_append_right _ hname))).entry
  rw [blockTokens, blockTokens, List.cons_append, List.cons_append, List.append_assoc,
    List.append_assoc] at h
  obtain ⟨hhead, htail⟩ := List.cons.inj h
  obtain ⟨hlabel, hlength⟩ := counted_inj hhead
  obtain ⟨hcmds, htail⟩ := cmdTokens_readsBack.of_length stops_cmdTokens (cmds hids) (cmds hids')
    (stops_transferToken b.transfer) (stops_transferToken b'.transfer) hlength htail
  obtain ⟨htransfer, hrest⟩ := List.cons.inj htail
  exact ⟨⟨(String.append_right_inj _).mp hlabel, hcmds,
    transferToken_inj (labels hids) (labels hids') htransfer⟩, hrest⟩

theorem blockTokens_eq_of_alike {b b' : Block} (h : Block.Alike p b b') :
    blockTokens p b = blockTokens p b' := by
  rw [blockTokens, blockTokens, h.label, h.transfer, h.cmds.length_eq,
    flatMap_eq_of_forall₂ (cmdTokens p) cmdTokens_eq_of_alike h.cmds]

end Fingerprint

end Verdict
