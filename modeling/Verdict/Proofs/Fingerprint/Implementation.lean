import Verdict.Proofs.Fingerprint.Written

/-! What the fingerprint of an implementation tells.

`written_eq_iff_alike`: where the identifiers are plain, the bytes that are digested are the same for
two implementations if and only if these are alike. Nothing in the list of tokens is
ambiguous, so that fingerprints that agree on implementations that are not alike are a collision of the
digest. Alike is not the same, though: no attribute of an assertion is digested, and of an
assumption's only the proxy, or how many there are. -/
namespace Verdict

namespace Implementation

/-- The names that are written for an implementation. -/
def identifiers (p : Program) (i : Implementation) : List String :=
  p.nameOf i.procedure :: (i.params ++ i.locals ++ i.blocks.flatMap (Block.identifiers p))

/-- The same in what is written of them. -/
structure Alike (p : Program) (i i' : Implementation) : Prop where
  procedure : p.nameOf i.procedure = p.nameOf i'.procedure
  params : i.params = i'.params
  locals : i.locals = i'.locals
  blocks : List.Forall₂ (Block.Alike p) i.blocks i'.blocks

end Implementation

namespace Cmd

def attributes : Cmd → Attributes
  | assert _ _ attributes | assume _ attributes => attributes
  | _ => []

end Cmd

namespace Declaration
variable {d : Declaration} {i : Implementation}

/-- All attributes but the checksum. -/
def writtenAttributes (d : Declaration) : Attributes := d.attributes.filter (·.key ≠ "checksum")

/-- The names that are written for an implementation's declaration. -/
def identifiers (p : Program) (d : Declaration) : List String :=
  d.name :: (d.writtenAttributes.flatMap (Attribute.identifiers p) ++
    d.implementation?.toList.flatMap (Implementation.identifiers p))

/-- Declarations of implementations that are the same in what is written of them. -/
structure Alike (p : Program) (d d' : Declaration) : Prop where
  name : d.name = d'.name
  attributes : List.Forall₂ (Attribute.Alike p) d.writtenAttributes d'.writtenAttributes
  implementation : Option.Rel (Implementation.Alike p) d.implementation? d'.implementation?

/-- The keys of the attributes of its commands, command by command. -/
def remarks (d : Declaration) : List (List String) :=
  (Block.commands (d.implementation?.toList.flatMap (·.blocks))).map fun c =>
    c.attributes.map (·.key)

theorem subject_of_implementation? (h : d.implementation? = some i) :
    d.subject = .implementation i := by
  unfold implementation? at h
  split at h
  · rename_i heq
    rw [heq, Option.some.inj h]
  · cases h

end Declaration

namespace Fingerprint
open Text

variable {p : Program} {d d' : Declaration} {i i' : Implementation}

theorem tokens_eq (h : d.implementation? = some i) : tokens p d =
    "implementation" :: d.name :: (d.writtenAttributes.flatMap (attributeTokens p) ++
      p.nameOf i.procedure :: commaList i.params :: commaList i.locals ::
        i.blocks.flatMap (blockTokens p)) := by
  have hsubject := Declaration.subject_of_implementation? h
  rw [tokens, Declaration.kindName, hsubject]
  rfl

theorem plain_attributes (h : Plain (d.identifiers p)) :
    ∀ a ∈ d.writtenAttributes, Plain (a.identifiers p) := by
  intro a ha name hname
  apply h
  exact List.mem_cons_of_mem _ (List.mem_append_left _ (List.mem_flatMap.mpr ⟨a, ha, hname⟩))

theorem plain_implementation (hi : d.implementation? = some i) (h : Plain (d.identifiers p)) :
    Plain (i.identifiers p) := by
  intro name hname
  apply h
  rw [Declaration.identifiers, hi]
  exact List.mem_cons_of_mem _ (List.mem_append_right _ (List.mem_flatMap.mpr
    ⟨i, List.mem_singleton_self i, hname⟩))

theorem plain_blocks (h : Plain (i.identifiers p)) : ∀ b ∈ i.blocks, Plain (b.identifiers p) := by
  intro b hb name hname
  apply h
  exact List.mem_cons_of_mem _ (List.mem_append_right _ (List.mem_flatMap.mpr ⟨b, hb, hname⟩))

theorem closed_tokens (hi : d.implementation? = some i) (h : Plain (d.identifiers p)) :
    Closed (tokens p d) := by
  have himplementation := plain_implementation hi h
  obtain ⟨hprocedure, hrest⟩ := List.forall_mem_cons.mp himplementation
  obtain ⟨hvariables, -⟩ := List.forall_mem_append.mp hrest
  obtain ⟨hparams, hlocals⟩ := List.forall_mem_append.mp (closed_of_plain hvariables)
  have hblocks : Closed (i.blocks.flatMap (blockTokens p)) :=
    closed_flatMap fun b hb => closed_blockTokens (plain_blocks himplementation b hb)
  have hattributes : Closed (d.writtenAttributes.flatMap (attributeTokens p)) :=
    closed_flatMap fun a ha => closed_attributeTokens (plain_attributes h a ha)
  rw [tokens_eq hi]
  refine closed_cons (by decide) (closed_cons (h d.name List.mem_cons_self).notMem_nul ?_)
  exact closed_append hattributes (closed_cons hprocedure.notMem_nul
    (closed_cons (notMem_nul_commaList hparams) (closed_cons (notMem_nul_commaList hlocals) hblocks)))

theorem alike_of_tokens (hi : d.implementation? = some i) (hi' : d'.implementation? = some i')
    (hids : Plain (d.identifiers p)) (hids' : Plain (d'.identifiers p))
    (h : tokens p d = tokens p d') : Declaration.Alike p d d' := by
  have hplain := plain_implementation hi hids
  have hplain' := plain_implementation hi' hids'
  have starts : ∀ {i : Implementation} (rest : List String), Plain (i.identifiers p) →
      BeginsWithName (p.nameOf i.procedure :: rest) := by
    intro i rest hplain token htoken
    obtain rfl : p.nameOf i.procedure = token := Option.some.inj htoken
    exact (hplain _ List.mem_cons_self).notMem_colon
  have entries : ∀ {i : Implementation}, Plain (i.identifiers p) →
      (∀ name ∈ i.params, IsEntry name) ∧ ∀ name ∈ i.locals, IsEntry name := by
    intro i hplain
    refine ⟨fun name hname => (hplain name ?_).entry, fun name hname => (hplain name ?_).entry⟩
    · simp [Implementation.identifiers, hname]
    · simp [Implementation.identifiers, hname]
  rw [tokens_eq hi, tokens_eq hi'] at h
  obtain ⟨-, h⟩ := List.cons.inj h
  obtain ⟨hname, h⟩ := List.cons.inj h
  obtain ⟨hattributes, h⟩ := attributeTokens_readsBack.of_ends BeginsWithName
    not_beginsWithName_attributeTokens (plain_attributes hids) (plain_attributes hids')
    (starts _ hplain) (starts _ hplain') h
  obtain ⟨hprocedure, h⟩ := List.cons.inj h
  obtain ⟨hparams, h⟩ := List.cons.inj h
  obtain ⟨hlocals, h⟩ := List.cons.inj h
  -- The blocks go on to the end of the list.
  rw [← List.append_nil (List.flatMap _ i.blocks), ← List.append_nil (List.flatMap _ i'.blocks)] at h
  obtain ⟨hblocks, -⟩ := blockTokens_readsBack.of_ends (· = []) (fun _ _ => nofun)
    (plain_blocks hplain) (plain_blocks hplain') rfl rfl h
  have himplementation : Implementation.Alike p i i' :=
    ⟨hprocedure, commaList_inj (entries hplain).1 (entries hplain').1 hparams,
      commaList_inj (entries hplain).2 (entries hplain').2 hlocals, hblocks⟩
  refine ⟨hname, hattributes, ?_⟩
  rw [hi, hi']
  exact .some himplementation

theorem tokens_eq_of_alike (hi : d.implementation? = some i) (h : Declaration.Alike p d d') :
    tokens p d = tokens p d' := by
  have hrel := h.implementation
  rw [hi] at hrel
  cases hi' : d'.implementation? with
  | none =>
    rw [hi'] at hrel
    cases hrel
  | some i' =>
    rw [hi'] at hrel
    cases hrel with
    | some himplementation =>
      rw [tokens_eq hi, tokens_eq hi', h.name, himplementation.procedure, himplementation.params,
        himplementation.locals, flatMap_eq_of_forall₂ (attributeTokens p) attributeTokens_eq_of_alike
          h.attributes, flatMap_eq_of_forall₂ (blockTokens p) blockTokens_eq_of_alike
          himplementation.blocks]

theorem alike_of_written (hd : d.implementation?.isSome) (hd' : d'.implementation?.isSome)
    (hids : Plain (d.identifiers p)) (hids' : Plain (d'.identifiers p))
    (h : (written (tokens p d)).toUTF8 = (written (tokens p d')).toUTF8) :
    Declaration.Alike p d d' := by
  obtain ⟨i, hi⟩ := Option.isSome_iff_exists.mp hd
  obtain ⟨i', hi'⟩ := Option.isSome_iff_exists.mp hd'
  have htokens := written_inj (closed_tokens hi hids) (closed_tokens hi' hids')
    (String.toByteArray_inj.mp h)
  exact alike_of_tokens hi hi' hids hids' htokens

/-- Fingerprints that agree on implementations that are not alike are a collision. -/
theorem alike_or_collision (hd : d.implementation?.isSome) (hd' : d'.implementation?.isSome)
    (hids : Plain (d.identifiers p)) (hids' : Plain (d'.identifiers p))
    (h : p.fingerprint d = p.fingerprint d') : Declaration.Alike p d d' ∨
      ∃ content content', content ≠ content' ∧ Checksum.ofBytes content = Checksum.ofBytes content' := by
  by_cases hsame : (written (tokens p d)).toUTF8 = (written (tokens p d')).toUTF8
  · exact .inl (alike_of_written hd hd' hids hids' hsame)
  · exact .inr ⟨_, _, hsame, Checksum.hex_inj h⟩

/-- **What is digested determines an implementation** up to what `Declaration.Alike` leaves out, and
nothing of that is digested. -/
theorem written_eq_iff_alike (hd : d.implementation?.isSome) (hd' : d'.implementation?.isSome)
    (hids : Plain (d.identifiers p)) (hids' : Plain (d'.identifiers p)) :
    (written (tokens p d)).toUTF8 = (written (tokens p d')).toUTF8 ↔ Declaration.Alike p d d' := by
  constructor
  · exact alike_of_written hd hd' hids hids'
  · intro h
    obtain ⟨i, hi⟩ := Option.isSome_iff_exists.mp hd
    rw [tokens_eq_of_alike hi h]

/-! ### Two bodies -/

/-- An implementation that asserts a truth value. -/
def asserting (value : Bool) (attributes : Attributes) : Declaration where
  name := "Main"
  location := .unknown
  attributes := []
  subject := .implementation ⟨⟨0⟩, [], [], [⟨"entry",
    [.assert .unknown (.literal (.bool value)) attributes], .return⟩]⟩

/-- A program with a procedure for it. -/
def contracted : Program := ⟨#[⟨"P", .unknown, [], .procedure ⟨[], [], [], []⟩⟩]⟩

theorem plain_asserting (value : Bool) (attributes : Attributes) :
    Plain ((asserting value attributes).identifiers contracted) := by
  have hexpr : ∀ p, (Expr.literal (.bool value)).identifiers p = [] := by
    intro p
    rw [Expr.identifiers, Expr.walk_eq]
    rfl
  have hnames : (asserting value attributes).identifiers contracted = ["Main", "P", "entry"] := by
    simp [asserting, contracted, Declaration.identifiers, Declaration.writtenAttributes,
      Declaration.implementation?, Implementation.identifiers, Program.nameOf, Program.get?,
      Block.identifiers, Cmd.identifiers, Cmd.callee?, Cmd.proxy?, Cmd.targets, Cmd.exprs,
      Transfer.labels, hexpr]
  rw [hnames]
  simp [Plain, IsIdentifier]

theorem alike_asserting_iff (value value' : Bool) (attributes attributes' : Attributes) :
    Declaration.Alike contracted (asserting value attributes) (asserting value' attributes') ↔
      value = value' := by
  constructor
  · intro h
    cases h.implementation with
    | some h =>
      cases h.blocks with
      | cons hblock _ =>
        cases hblock.cmds with
        | cons hcmd _ =>
          cases hcmd with
          | assert hexpr =>
            cases hexpr
            rfl
  · rintro rfl
    have hcmd : Cmd.Alike contracted (.assert .unknown (.literal (.bool value)) attributes)
        (.assert .unknown (.literal (.bool value)) attributes') := .assert (.literal _)
    exact ⟨rfl, .nil, .some ⟨rfl, rfl, rfl, .cons ⟨rfl, .cons hcmd .nil, rfl⟩ .nil⟩⟩

/-- Bodies that assert different things are digested differently. -/
theorem written_asserting_ne :
    (asserting true []).implementation?.isSome ∧ (asserting false []).implementation?.isSome ∧
      Plain ((asserting true []).identifiers contracted) ∧
      Plain ((asserting false []).identifiers contracted) ∧
      (written (tokens contracted (asserting true []))).toUTF8 ≠
        (written (tokens contracted (asserting false []))).toUTF8 := by
  refine ⟨rfl, rfl, plain_asserting true [], plain_asserting false [], fun h => ?_⟩
  have halike := (written_eq_iff_alike rfl rfl (plain_asserting true [])
    (plain_asserting false [])).mp h
  exact absurd ((alike_asserting_iff true false [] []).mp halike) (by decide)

/-- Bodies that assert the same are not, though one of them has a remark on it. -/
theorem written_remarked_eq :
    (asserting true []).implementation?.isSome ∧
      (asserting true [⟨"msg", [.text "odd"]⟩]).implementation?.isSome ∧
      Plain ((asserting true []).identifiers contracted) ∧
      Plain ((asserting true [⟨"msg", [.text "odd"]⟩]).identifiers contracted) ∧
      (written (tokens contracted (asserting true []))).toUTF8 =
        (written (tokens contracted (asserting true [⟨"msg", [.text "odd"]⟩]))).toUTF8 ∧
      (asserting true []).remarks ≠ (asserting true [⟨"msg", [.text "odd"]⟩]).remarks := by
  refine ⟨rfl, rfl, plain_asserting true [], plain_asserting true _, ?_, by decide⟩
  rw [tokens_eq_of_alike rfl ((alike_asserting_iff true true _ _).mpr rfl)]

end Fingerprint

end Verdict
