import Verdict.Fingerprint
import Verdict.Proofs.Checksum.Dependency

/-! Giving declarations the checksum that they lack.

Fingerprints are assigned to one declaration after the other, but all of them are taken before the
first is assigned. It would make no difference if they were taken later: a fingerprint depends on
neither the checksum of its declaration nor on those of others (`fingerprint_assigned`). So the
program becomes what it would be if every declaration were completed on its own
(`get?_assignFingerprints`), and there is nothing left to complete. -/
namespace Verdict

namespace Attributes
variable {attrs : Attributes} {a : Attribute}

theorem filter_set (attrs : Attributes) (a : Attribute) :
    (attrs.set a).filter (·.key ≠ a.key) = attrs.filter (·.key ≠ a.key) := by
  simp [set, List.filter_filter]

theorem named_set_self (attrs : Attributes) (a : Attribute) : (attrs.set a).named a.key = [a] := by
  simp [set, named, List.filter_filter]

end Attributes

/-- A checksum source that has been given is the one that is read. -/
theorem Declaration.checksumSource?_withChecksum (d : Declaration) (source : String) :
    (d.withChecksum source).checksumSource? = some source := by
  have hnamed := Attributes.named_set_self d.attributes ⟨"checksum", [.text source]⟩
  rw [checksumSource?, withChecksum, Attributes.text?, hnamed]
  rfl

namespace Fingerprint
variable {p p' : Program}

/-- The program shows in tokens by the names that it gives to ids. -/
theorem tokens_congr (h : p'.nameOf = p.nameOf) (d : Declaration) : tokens p' d = tokens p d := by
  have hhead : exprHead p' = exprHead p := by
    funext e
    cases e <;> simp only [exprHead, h]
  have hexpr : exprTokens p' = exprTokens p := by
    funext e
    rw [exprTokens, exprTokens, hhead]
  have hexprs : exprsTokens p' = exprsTokens p := by
    funext es
    rw [exprsTokens, exprsTokens, hexpr]
  have hattribute : attributeTokens p' = attributeTokens p := by
    have hparam : paramTokens p' = paramTokens p := by
      funext x
      cases x <;> simp only [paramTokens, hexpr]
    funext a
    rw [attributeTokens, attributeTokens, hparam]
  have hcmd : cmdTokens p' = cmdTokens p := by
    have hhead : cmdHead p' = cmdHead p := by
      funext c
      cases c <;> simp only [cmdHead, h]
    funext c
    rw [cmdTokens, cmdTokens, hhead, hexprs]
  have hblock : blockTokens p' = blockTokens p := by
    funext b
    rw [blockTokens, blockTokens, hcmd]
  have hsubject : subjectTokens p' = subjectTokens p := by
    funext s
    cases s <;> simp only [subjectTokens, h, hexpr, hexprs, hblock]
  rw [tokens, tokens, hattribute, hsubject]

/-- The attribute `checksum` does not show in tokens. -/
theorem tokens_withChecksum (p : Program) (d : Declaration) (source : String) :
    tokens p (d.withChecksum source) = tokens p d := by
  have hattributes := Attributes.filter_set d.attributes ⟨"checksum", [.text source]⟩
  simp only [tokens, Declaration.withChecksum, hattributes]
  rfl

end Fingerprint

namespace Program
variable {p q : Program} {id : DeclId} {d : Declaration} {source : String}

/-! ### One declaration after the other -/

theorem get?_setChecksum (p : Program) (id : DeclId) (source : String) (other : DeclId) :
    (p.setChecksum id source).get? other =
      if other = id then (p.get? id).map (·.withChecksum source) else p.get? other := by
  rw [setChecksum]
  cases hd : p.get? id with
  | none =>
    split
    · rename_i heq
      rw [heq]
      exact hd
    · rfl
  | some d =>
    show (p.replace id _).get? other = _
    rw [get?_replace, hd]
    rfl

theorem size_setChecksum (p : Program) (id : DeclId) (source : String) :
    (p.setChecksum id source).size = p.size := by
  rw [setChecksum]
  cases p.get? id with
  | none => rfl
  | some d => exact Array.size_setIfInBounds

theorem size_setChecksums (p : Program) (sources : List (DeclId × String)) :
    (p.setChecksums sources).size = p.size := by
  induction sources generalizing p with
  | nil => rfl
  | cons first rest ih => exact (ih _).trans (size_setChecksum p _ _)

theorem get?_setChecksums_of_notMem {sources : List (DeclId × String)}
    (h : id ∉ sources.map Prod.fst) : (p.setChecksums sources).get? id = p.get? id := by
  induction sources generalizing p with
  | nil => rfl
  | cons first rest ih =>
    obtain ⟨hne, hrest⟩ := not_or.mp (mt List.mem_cons.mpr h)
    refine (ih hrest).trans ?_
    rw [get?_setChecksum, if_neg hne]

/-- No declaration gets two sources, so that it keeps the one it gets. -/
theorem get?_setChecksums_of_mem {sources : List (DeclId × String)}
    (hnodup : (sources.map Prod.fst).Nodup) (h : (id, source) ∈ sources) :
    (p.setChecksums sources).get? id = (p.get? id).map (·.withChecksum source) := by
  induction sources generalizing p with
  | nil => cases h
  | cons first rest ih =>
    obtain ⟨hnew, hnodup⟩ := List.nodup_cons.mp hnodup
    rcases List.mem_cons.mp h with rfl | h
    · refine (get?_setChecksums_of_notMem hnew).trans ?_
      rw [get?_setChecksum, if_pos rfl]
    · have hne : id ≠ first.1 := fun heq => hnew (heq ▸ List.mem_map_of_mem h)
      refine (ih hnodup h).trans ?_
      rw [get?_setChecksum, if_neg hne]

/-! ### All that lack one -/

theorem mem_unsummed_iff : (id, source) ∈ p.unsummed ↔
    ∃ d, p.get? id = some d ∧ d.checksumSource? = none ∧ p.fingerprint d = source := by
  rw [unsummed, mem_filterMap_ids_iff]
  simp only [Option.isNone_iff_eq_none]

theorem map_fst_unsummed (p : Program) :
    p.unsummed.map Prod.fst = p.idsWhere (·.checksumSource?.isNone) :=
  p.map_fst_filterMap_ids _ _

theorem nodup_map_fst_unsummed (p : Program) : (p.unsummed.map Prod.fst).Nodup := by
  rw [map_fst_unsummed]
  exact p.nodup_idsWhere _

theorem length_unsummed (p : Program) :
    p.unsummed.length = p.decls.toList.countP (·.checksumSource?.isNone) := by
  rw [← List.length_map (f := Prod.fst), map_fst_unsummed, length_idsWhere]

/-- The declaration with its fingerprint in `p` as checksum source, if it has none. -/
def completeChecksum (p : Program) (d : Declaration) : Declaration :=
  if d.checksumSource?.isNone then d.withChecksum (p.fingerprint d) else d

/-- Every declaration is completed, and by what it is in the program as it was. -/
theorem get?_assignFingerprints (p : Program) (id : DeclId) :
    p.assignFingerprints.2.get? id = (p.get? id).map p.completeChecksum := by
  show (p.setChecksums p.unsummed).get? id = _
  by_cases h : ∃ d, p.get? id = some d ∧ d.checksumSource? = none
  · obtain ⟨d, hd, hnone⟩ := h
    have hmem : (id, p.fingerprint d) ∈ p.unsummed := mem_unsummed_iff.mpr ⟨d, hd, hnone, rfl⟩
    rw [get?_setChecksums_of_mem (nodup_map_fst_unsummed p) hmem, hd, Option.map_some,
      Option.map_some, completeChecksum, hnone]
    rfl
  · have hmem : id ∉ p.unsummed.map Prod.fst := by
      intro hmem
      obtain ⟨⟨_, source⟩, hpair, rfl⟩ := List.mem_map.mp hmem
      obtain ⟨d, hd, hnone, -⟩ := mem_unsummed_iff.mp hpair
      exact h ⟨d, hd, hnone⟩
    rw [get?_setChecksums_of_notMem hmem]
    cases hd : p.get? id with
    | none => rfl
    | some d =>
      have hsome : ¬ d.checksumSource?.isNone = true := fun hnone =>
        h ⟨d, hd, Option.isNone_iff_eq_none.mp hnone⟩
      rw [Option.map_some, completeChecksum, if_neg hsome]

/-- What becomes of a declaration of a program that is completed. -/
structure Completion (p : Program) (d d' : Declaration) : Prop where
  name : d'.name = d.name
  location : d'.location = d.location
  subject : d'.subject = d.subject
  /-- Attributes of other keys are there still, in their order. -/
  others : d'.attributes.filter (·.key ≠ "checksum") = d.attributes.filter (·.key ≠ "checksum")
  missing : d.checksumSource? = none → d'.checksumSource? = some (p.fingerprint d)
  given : d.checksumSource? ≠ none → d' = d

theorem completion_completeChecksum (p : Program) (d : Declaration) :
    Completion p d (p.completeChecksum d) := by
  rw [completeChecksum]
  split
  · rename_i hnone
    exact ⟨rfl, rfl, rfl, Attributes.filter_set d.attributes ⟨"checksum", _⟩,
      fun _ => d.checksumSource?_withChecksum _,
      fun hsome => absurd (Option.isNone_iff_eq_none.mp hnone) hsome⟩
  · rename_i hsome
    exact ⟨rfl, rfl, rfl, rfl, fun hnone => absurd (Option.isNone_iff_eq_none.mpr hnone) hsome,
      fun _ => rfl⟩

theorem Completion.checksumSource?_isSome {d' : Declaration} (h : Completion p d d') :
    d'.checksumSource?.isSome := by
  cases hd : d.checksumSource? with
  | none => rw [h.missing hd, Option.isSome_some]
  | some source =>
    rw [h.given (by rw [hd]; exact Option.some_ne_none source), hd, Option.isSome_some]

/-! ### What does not change -/

theorem nameOf_assigned (p : Program) : p.assignFingerprints.2.nameOf = p.nameOf := by
  funext id
  rw [nameOf, nameOf, get?_assignFingerprints]
  cases p.get? id with
  | none => rfl
  | some d => exact (completion_completeChecksum p d).name

/-- Neither the checksum sources that have been assigned to others nor its own show in the
fingerprint of a declaration. -/
theorem fingerprint_assigned (p : Program) (d : Declaration) :
    p.assignFingerprints.2.fingerprint (p.completeChecksum d) = p.fingerprint d := by
  rw [fingerprint, fingerprint, Fingerprint.tokens_congr (nameOf_assigned p), completeChecksum]
  split
  · rw [Fingerprint.tokens_withChecksum]
  · rfl

theorem size_assigned (p : Program) : p.assignFingerprints.2.size = p.size :=
  size_setChecksums p _

/-- Declarations call what they called. -/
theorem collect_assigned (p : Program) :
    CallDependencies.collect p.assignFingerprints.2 = CallDependencies.collect p := by
  refine congrArg CallDependencies.mk (Array.ext_getElem? fun i => ?_)
  have hget := get?_assignFingerprints p ⟨i⟩
  simp only [get?] at hget
  rw [Array.getElem?_map, Array.getElem?_map, hget, Option.map_map]
  congr 1
  funext d
  have hsubject := (completion_completeChecksum p d).subject
  simp only [Function.comp_apply, Declaration.callDependency, Declaration.callingExprs,
    Declaration.calledProcedures, hsubject]

/-- Every declaration has a checksum now. -/
theorem checksum?_assigned_isSome_iff (p : Program) (id : DeclId) :
    (p.assignFingerprints.2.checksum? id).isSome ↔ id.index < p.size := by
  rw [checksum?, Option.isSome_map, get?_assignFingerprints, get?]
  by_cases hlt : id.index < p.size
  · rw [Array.getElem?_eq_getElem hlt]
    exact iff_of_true (completion_completeChecksum p _).checksumSource?_isSome hlt
  · rw [Array.getElem?_eq_none (Nat.le_of_not_lt hlt)]
    exact iff_of_false Bool.false_ne_true hlt

/-- A dependency checksum is defined where everything that it counts is there. -/
theorem dependencyChecksum_assigned_isSome_iff (p : Program) (id : DeclId) :
    ((ChecksumTable.blank p.assignFingerprints.2.size).dependencyChecksum p.assignFingerprints.2
        (.collect p.assignFingerprints.2) id).1.isSome ↔
      id.index < p.size ∧ (∀ q, p.RestsOn id q → q.index < p.size) ∧
        ∀ f, p.CalledFrom id f → f.index < p.size := by
  rw [ChecksumTable.dependencyChecksum_blank, collect_assigned, isSome_total?_iff]
  simp only [checksum?_assigned_isSome_iff, CallDependencies.summands, List.forall_mem_cons,
    List.forall_mem_append, CallDependencies.mem_procedures_collect_iff,
    CallDependencies.mem_functionClosure_iff, CallDependencies.calls_collect_iff]

theorem unsummed_assigned (p : Program) : p.assignFingerprints.2.unsummed = [] := by
  refine List.eq_nil_iff_forall_not_mem.mpr fun ⟨id, source⟩ hmem => ?_
  obtain ⟨d', hd', hnone, -⟩ := mem_unsummed_iff.mp hmem
  rw [get?_assignFingerprints] at hd'
  obtain ⟨d, hd, rfl⟩ := Option.map_eq_some_iff.mp hd'
  have hsome := (completion_completeChecksum p d).checksumSource?_isSome
  rw [hnone] at hsome
  cases hsome

/-- **Fingerprints are assigned where a checksum is missing, and nowhere else.** As many are
assigned as there are declarations without a checksum source. Each of these gets the fingerprint
that it had before any was assigned; nothing else about it changes, a declaration that had a source
does not change at all, and every fingerprint stays what it was. A second assignment finds nothing
to do. The dependency checksum of a declaration is defined from now on, if it and all that it
depends on are there. -/
theorem assignFingerprints_completes (p : Program) : ∃ n q, p.assignFingerprints = (n, q) ∧
    n = p.decls.toList.countP (·.checksumSource?.isNone) ∧ q.size = p.size ∧
    (∀ id d, p.get? id = some d → ∃ d', q.get? id = some d' ∧ Completion p d d' ∧
      q.fingerprint d' = p.fingerprint d) ∧
    q.assignFingerprints = (0, q) ∧
    ∀ id, ((ChecksumTable.blank q.size).dependencyChecksum q (.collect q) id).1.isSome ↔
      id.index < p.size ∧ (∀ r, p.RestsOn id r → r.index < p.size) ∧
        ∀ f, p.CalledFrom id f → f.index < p.size := by
  refine ⟨p.assignFingerprints.1, p.assignFingerprints.2, rfl, length_unsummed p, size_assigned p,
    fun id d hd => ?_, ?_, dependencyChecksum_assigned_isSome_iff p⟩
  · refine ⟨p.completeChecksum d, ?_, completion_completeChecksum p d, fingerprint_assigned p d⟩
    rw [get?_assignFingerprints, hd, Option.map_some]
  · rw [assignFingerprints, unsummed_assigned]
    rfl

end Program

/-- A constant whose attribute `checksum` is no text, a function with a checksum source, and an
implementation that calls the function and has none. -/
def partlySummed : Program where
  decls := #[
    ⟨"limit", .unknown, [⟨"checksum", [.int 5]⟩, ⟨"exclude_dep", []⟩], .constant true⟩,
    ⟨"f", .unknown, [⟨"checksum", [.text "given"]⟩], .function [] (some (.const ⟨0⟩))⟩,
    ⟨"Main", .unknown, [], .procedure ⟨[], [], [], []⟩⟩,
    ⟨"Main", .unknown, [], .implementation ⟨⟨2⟩, [], [],
      [⟨"entry", [.assert .unknown (.call ⟨1⟩ []) []], .return⟩]⟩⟩]

/-- The number is no checksum source, and gives way to one. Once all have one, the implementation
has a dependency checksum too. -/
theorem partlySummed_is_completed : ∃ q d d', partlySummed.assignFingerprints = (3, q) ∧
    partlySummed.get? ⟨0⟩ = some d ∧ d.checksumSource? = none ∧ q.get? ⟨0⟩ = some d' ∧
    d'.checksumSource? = some (partlySummed.fingerprint d) ∧
    q.fingerprint d' = partlySummed.fingerprint d ∧ q.assignFingerprints = (0, q) ∧
    ((ChecksumTable.blank q.size).dependencyChecksum q (.collect q) ⟨3⟩).1.isSome := by
  obtain ⟨n, q, hq, hn, -, hcompleted, hagain, hdefined⟩ :=
    Program.assignFingerprints_completes partlySummed
  obtain ⟨d, hd, hnone⟩ : ∃ d, partlySummed.get? ⟨0⟩ = some d ∧ d.checksumSource? = none :=
    ⟨_, rfl, by cbv⟩
  obtain ⟨d', hd', hcompletion, hfingerprint⟩ := hcompleted ⟨0⟩ d hd
  have hcount : n = 3 := hn.trans (by decide +kernel)
  have hprocedures : (CallDependencies.collect partlySummed).procedures ⟨3⟩ = [⟨2⟩] := by cbv
  have hfunctions : (CallDependencies.collect partlySummed).functionClosure ⟨3⟩ = [⟨1⟩] := by cbv
  refine ⟨q, d, d', hcount ▸ hq, hd, hnone, hd', hcompletion.missing hnone, hfingerprint, hagain,
    (hdefined ⟨3⟩).mpr ⟨by decide, fun r hr => ?_, fun f hf => ?_⟩⟩
  · rw [← CallDependencies.mem_procedures_collect_iff, hprocedures, List.mem_singleton] at hr
    subst hr
    decide
  · rw [← CallDependencies.calls_collect_iff, ← CallDependencies.mem_functionClosure_iff,
      hfunctions, List.mem_singleton] at hf
    subst hf
    decide

end Verdict
