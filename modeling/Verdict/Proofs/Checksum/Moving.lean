import Verdict.Proofs.Analysis
import Verdict.Proofs.Checksum.Closure
import Verdict.Proofs.Checksum.Replacement
import Verdict.Proofs.Fingerprint.Assignment
import Verdict.Proofs.Fingerprint.Renaming

/-! That it does not matter where declarations stand.

A program is moved into another one (`Program.Moved`) if its declarations stand there as they
were, at other places perhaps and among others, and refer to one another at the new places. Then
a declaration is written as before, has the checksum it had, and calls from its new place what it
called, at the new places of these. A dependency checksum counts the same declarations, and an
unordered sum does not tell in which order. So the cache takes no notice. -/
namespace Verdict

namespace Program
variable {p p' : Program} {r : DeclId → DeclId} {id x : DeclId} {d : Declaration}

/-- The second program has what the first has at `id` at `r id`, renamed accordingly. Everything
that the first program refers to is in it. -/
structure Moved (r : DeclId → DeclId) (p p' : Program) : Prop where
  get? : ∀ id d, p.get? id = some d → p'.get? (r id) = some (d.rename r)
  closed : ∀ id d, p.get? id = some d → ∀ x ∈ d.references, (p.get? x).isSome
  injective : ∀ id id', (p.get? id).isSome → (p.get? id').isSome → r id = r id' → id = id'

theorem Moved.nameOf (h : Moved r p p') (hx : (p.get? x).isSome) :
    p'.nameOf (r x) = p.nameOf x := by
  obtain ⟨d, hd⟩ := Option.isSome_iff_exists.mp hx
  rw [Program.nameOf, Program.nameOf, hd, h.get? x d hd]
  rfl

theorem Moved.fingerprint (h : Moved r p p') (hd : p.get? id = some d) :
    p'.fingerprint (d.rename r) = p.fingerprint d := by
  rw [Program.fingerprint, Program.fingerprint,
    Fingerprint.tokens_rename fun x hx => h.nameOf (h.closed id d hd x hx)]

theorem Moved.checksum? (h : Moved r p p') (hx : (p.get? x).isSome) :
    p'.checksum? (r x) = p.checksum? x := by
  obtain ⟨d, hd⟩ := Option.isSome_iff_exists.mp hx
  rw [Program.checksum?, Program.checksum?, hd, h.get? x d hd, Option.bind_some, Option.bind_some,
    Declaration.checksumSource?_rename]

theorem rename_withChecksum (r : DeclId → DeclId) (d : Declaration) (source : String) :
    (d.withChecksum source).rename r = (d.rename r).withChecksum source := by
  simp [Declaration.rename, Declaration.withChecksum, Attributes.set, List.filter_map,
    Attribute.rename, Param.rename, Function.comp_def]
  rfl

theorem references_withChecksum {source : String} (hx : x ∈ (d.withChecksum source).references) :
    x ∈ d.references := by
  rcases List.mem_append.mp hx with hx | hx
  · obtain ⟨a, ha, hx⟩ := List.mem_flatMap.mp hx
    rcases List.mem_append.mp ha with ha | ha
    · exact List.mem_append_left _ (List.mem_flatMap.mpr ⟨a, List.mem_of_mem_filter ha, hx⟩)
    · cases List.mem_singleton.mp ha
      cases hx
  · exact List.mem_append_right _ hx

/-- Fingerprints that are given to declarations without a checksum move along. -/
theorem Moved.assignFingerprints (h : Moved r p p') :
    Moved r p.assignFingerprints.2 p'.assignFingerprints.2 := by
  have hsome : ∀ x, (p.assignFingerprints.2.get? x).isSome = (p.get? x).isSome := fun x => by
    rw [get?_assignFingerprints, Option.isSome_map]
  refine ⟨fun id d hd => ?_, fun id d hd x hx => ?_, fun id id' hid hid' => ?_⟩
  · rw [get?_assignFingerprints] at hd ⊢
    obtain ⟨old, hold, rfl⟩ := Option.map_eq_some_iff.mp hd
    rw [h.get? id old hold, Option.map_some, completeChecksum, completeChecksum, h.fingerprint hold,
      Declaration.checksumSource?_rename]
    split
    · rw [rename_withChecksum]
    · rfl
  · rw [hsome]
    rw [get?_assignFingerprints] at hd
    obtain ⟨old, hold, rfl⟩ := Option.map_eq_some_iff.mp hd
    refine h.closed id old hold x ?_
    rw [completeChecksum] at hx
    split at hx
    · exact references_withChecksum hx
    · exact hx
  · rw [hsome] at hid hid'
    exact h.injective id id' hid hid'

/-- A sum may be taken at the new places. -/
theorem total?_map {ids : List DeclId} (h : ∀ x ∈ ids, p'.checksum? (r x) = p.checksum? x) :
    p'.total? (ids.map r) = p.total? ids := by
  induction ids with
  | nil => rfl
  | cons x rest ih =>
    rw [List.map_cons, total?, total?, h x List.mem_cons_self,
      ih fun y hy => h y (List.mem_cons_of_mem _ hy)]

end Program

namespace CallDependencies
variable {p p' : Program} {r : DeclId → DeclId} {id x f g : DeclId} {d : Declaration}

open Program

theorem mem_functions_iff_of_get? (hd : p.get? id = some d) :
    f ∈ (collect p).functions id ↔ f ∈ d.callingExprs.flatMap Expr.callees := by
  rw [functions, get?_collect, hd, Option.map_some, Option.elim_some, Declaration.callDependency,
    DeclId.mem_ascending_iff]

theorem mem_procedures_iff_of_get? (hd : p.get? id = some d) :
    f ∈ (collect p).procedures id ↔ f ∈ d.calledProcedures := by
  rw [procedures, get?_collect, hd, Option.map_some, Option.elim_some, Declaration.callDependency,
    DeclId.mem_ascending_iff]

theorem mem_symbols_of_mem_callees {e : Expr} (h : f ∈ e.callees) : f ∈ e.symbols := by
  obtain ⟨s, hs, hf⟩ := List.mem_filterMap.mp h
  refine List.mem_filterMap.mpr ⟨s, hs, ?_⟩
  split at hf
  · exact hf
  · cases hf

theorem isSome_of_mem_functions (h : Moved r p p') (hf : f ∈ (collect p).functions id) :
    (p.get? f).isSome := by
  obtain ⟨d, hd, -⟩ := (mem_functions_collect_iff p id f).mp hf
  obtain ⟨e, he, hf⟩ := List.mem_flatMap.mp ((mem_functions_iff_of_get? hd).mp hf)
  exact h.closed id d hd f (List.mem_append_right _ (List.mem_append_left _
    (List.mem_flatMap.mpr ⟨e, he, mem_symbols_of_mem_callees hf⟩)))

theorem isSome_of_mem_procedures (h : Moved r p p') (hf : f ∈ (collect p).procedures id) :
    (p.get? f).isSome := by
  obtain ⟨d, hd, -⟩ := (mem_procedures_collect_iff p id f).mp hf
  exact h.closed id d hd f (List.mem_append_right _ (List.mem_append_right _
    ((mem_procedures_iff_of_get? hd).mp hf)))

theorem mem_functions_moved_iff (h : Moved r p p') (hx : (p.get? x).isSome) :
    g ∈ (collect p').functions (r x) ↔ ∃ f ∈ (collect p).functions x, r f = g := by
  obtain ⟨d, hd⟩ := Option.isSome_iff_exists.mp hx
  rw [mem_functions_iff_of_get? (h.get? x d hd), Declaration.callingExprs_rename, List.flatMap_map]
  simp only [mem_functions_iff_of_get? hd, List.mem_flatMap, Expr.callees_rename, List.mem_map]
  constructor
  · rintro ⟨e, he, f, hf, rfl⟩
    exact ⟨f, ⟨e, he, hf⟩, rfl⟩
  · rintro ⟨f, ⟨e, he, hf⟩, rfl⟩
    exact ⟨e, he, f, hf, rfl⟩

theorem mem_procedures_moved_iff (h : Moved r p p') (hx : (p.get? x).isSome) :
    g ∈ (collect p').procedures (r x) ↔ ∃ q ∈ (collect p).procedures x, r q = g := by
  obtain ⟨d, hd⟩ := Option.isSome_iff_exists.mp hx
  rw [mem_procedures_iff_of_get? (h.get? x d hd), Declaration.calledProcedures_rename, List.mem_map]
  simp only [mem_procedures_iff_of_get? hd]

theorem isSome_of_calls (h : Moved r p p') (hf : (collect p).Calls id f) : (p.get? f).isSome := by
  cases hf with
  | own hf => exact isSome_of_mem_functions h hf
  | contract _ hf => exact isSome_of_mem_functions h hf
  | onward _ hf => exact isSome_of_mem_functions h hf

/-- What is called from the new place is what was called from the old one. -/
theorem calls_moved_iff (h : Moved r p p') (hid : (p.get? id).isSome) :
    (collect p').Calls (r id) g ↔ ∃ f, (collect p).Calls id f ∧ r f = g := by
  constructor
  · intro hg
    induction hg with
    | own hg =>
      obtain ⟨f, hf, rfl⟩ := (mem_functions_moved_iff h hid).mp hg
      exact ⟨f, .own hf, rfl⟩
    | contract hq hg =>
      obtain ⟨q, hown, rfl⟩ := (mem_procedures_moved_iff h hid).mp hq
      obtain ⟨f, hf, rfl⟩ := (mem_functions_moved_iff h (isSome_of_mem_procedures h hown)).mp hg
      exact ⟨f, .contract hown hf, rfl⟩
    | onward _ hg ih =>
      obtain ⟨f, hf, rfl⟩ := ih
      obtain ⟨f', hf', rfl⟩ := (mem_functions_moved_iff h (isSome_of_calls h hf)).mp hg
      exact ⟨f', .onward hf hf', rfl⟩
  · rintro ⟨f, hf, rfl⟩
    induction hf with
    | own hf => exact .own ((mem_functions_moved_iff h hid).mpr ⟨_, hf, rfl⟩)
    | contract hq hf =>
      exact .contract ((mem_procedures_moved_iff h hid).mpr ⟨_, hq, rfl⟩)
        ((mem_functions_moved_iff h (isSome_of_mem_procedures h hq)).mpr ⟨_, hf, rfl⟩)
    | onward hf hg ih =>
      exact .onward ih ((mem_functions_moved_iff h (isSome_of_calls h hf)).mpr ⟨_, hg, rfl⟩)

/-- Lists without repetitions that have the same members, up to the move. -/
theorem perm_map_of_moved {l l' : List DeclId} (h : Moved r p p') (hl : l.Nodup) (hl' : l'.Nodup)
    (hsome : ∀ x ∈ l, (p.get? x).isSome) (hmem : ∀ g, g ∈ l' ↔ ∃ f ∈ l, r f = g) :
    l'.Perm (l.map r) := by
  have hnodup : (l.map r).Nodup :=
    hl.map_on fun x hx y hy => h.injective x y (hsome x hx) (hsome y hy)
  refine (List.perm_ext_iff_of_nodup hl' hnodup).mpr fun g => ?_
  rw [hmem, List.mem_map]

theorem isSome_of_mem_summands (h : Moved r p p') (hid : (p.get? id).isSome)
    (hx : x ∈ (collect p).summands id) : (p.get? x).isSome := by
  rcases mem_summands_iff.mp hx with rfl | hq | hf
  · exact hid
  · exact isSome_of_mem_procedures h hq
  · exact isSome_of_calls h hf

theorem summands_moved_perm (h : Moved r p p') (hid : (p.get? id).isSome) :
    ((collect p').summands (r id)).Perm (((collect p).summands id).map r) := by
  have hprocedures : ((collect p').procedures (r id)).Perm (((collect p).procedures id).map r) :=
    perm_map_of_moved h (nodup_procedures_collect p id) (nodup_procedures_collect p' (r id))
      (fun _ hx => isSome_of_mem_procedures h hx) fun _ => mem_procedures_moved_iff h hid
  have hclosure : ((collect p').functionClosure (r id)).Perm
      (((collect p).functionClosure id).map r) := by
    refine perm_map_of_moved h (nodup_functionClosure _ _) (nodup_functionClosure _ _)
      (fun x hx => isSome_of_calls h ((mem_functionClosure_iff ..).mp hx)) fun g => ?_
    simp only [mem_functionClosure_iff]
    exact calls_moved_iff h hid
  rw [summands, summands, List.map_cons, List.map_append]
  exact (hprocedures.append hclosure).cons (r id)

theorem total?_moved (h : Moved r p p') (hid : (p.get? id).isSome) :
    p'.total? ((collect p').summands (r id)) = p.total? ((collect p).summands id) := by
  rw [total?_congr (summands_moved_perm h hid) fun _ _ => rfl]
  exact total?_map fun x hx => h.checksum? (isSome_of_mem_summands h hid hx)

end CallDependencies

namespace Analysis
variable {a a' : Analysis} {r : DeclId → DeclId} {id : DeclId} {d : Declaration}

/-- Where a declaration stands does not matter, nor where those stand that it refers to, nor what
else there is. Let a program be moved into another one, and let either have been analysed as far as
may be. Then a declaration has the fingerprint and the two checksums at its new place that it has
at its old one, defined or undefined; so the cache knows it by the same key, and answers alike. -/
theorem checksums_of_moved (h : a.Current) (h' : a'.Current)
    (moved : Program.Moved r a.program a'.program) (hd : a.program.get? id = some d) :
    ∃ d', a'.program.get? (r id) = some d' ∧ d'.name = d.name ∧
      a'.program.fingerprint d' = a.program.fingerprint d ∧
      (a'.checksum (r id)).1 = (a.checksum id).1 ∧
      (a'.dependencyChecksum (r id)).1 = (a.dependencyChecksum id).1 ∧
      a'.key (r id) d'.name = a.key id d.name ∧
      ∀ (cache : Cache) (accept : Result → Bool),
        cache.lookup (a'.key (r id) d'.name) accept = cache.lookup (a.key id d.name) accept ∧
        cache.urgency (a'.key (r id) d'.name) = cache.urgency (a.key id d.name) := by
  have hsome : (a.program.get? id).isSome := by rw [hd, Option.isSome_some]
  have hchecksum : (a'.checksum (r id)).1 = (a.checksum id).1 := by
    rw [h'.checksum_fst, h.checksum_fst, moved.checksum? hsome]
  have hdependency : (a'.dependencyChecksum (r id)).1 = (a.dependencyChecksum id).1 := by
    rw [h'.dependencyChecksum_fst, h.dependencyChecksum_fst,
      CallDependencies.total?_moved moved hsome]
  have hkey : a'.key (r id) d.name = a.key id d.name := by
    rw [key, key, hchecksum, hdependency]
  refine ⟨d.rename r, moved.get? id d hd, rfl, moved.fingerprint hd, hchecksum, hdependency, hkey,
    fun cache accept => ?_⟩
  show cache.lookup (a'.key (r id) d.name) accept = _ ∧ cache.urgency (a'.key (r id) d.name) = _
  rw [hkey]
  exact ⟨rfl, rfl⟩

end Analysis

open ChecksumTable

/-- The declarations of `alternating` from the last to the first, with another one between. -/
def rearranged : Program where
  decls := #[
    ⟨"Main", .unknown, [⟨"checksum", [.text "body"]⟩],
      .implementation ⟨⟨1⟩, ["n"], [], [⟨"entry", [], .return⟩]⟩⟩,
    ⟨"Main", .unknown, [⟨"checksum", [.text "contract"]⟩],
      .procedure ⟨["n"], [], [.call ⟨4⟩ [.var "n"]], []⟩⟩,
    ⟨"limit", .unknown, [], .constant true⟩,
    ⟨"odd", .unknown, [⟨"checksum", [.text "odd"]⟩],
      .function ["n"] (some (.call ⟨4⟩ [.var "n"]))⟩,
    ⟨"even", .unknown, [⟨"checksum", [.text "even"]⟩],
      .function ["n"] (some (.call ⟨3⟩ [.var "n"]))⟩]

/-- Where the declarations of `alternating` stand in `rearranged`. -/
def newPlace (id : DeclId) : DeclId := ⟨[4, 3, 1, 0].getD id.index 5⟩

theorem moved_rearranged : Program.Moved newPlace alternating rearranged := by
  have hplace : ∀ id d, alternating.get? id = some d →
      id = ⟨0⟩ ∨ id = ⟨1⟩ ∨ id = ⟨2⟩ ∨ id = ⟨3⟩ := by
    rintro ⟨i⟩ d hd
    have hi : i < 4 := (Array.getElem?_eq_some_iff.mp hd).1
    simp only [DeclId.mk.injEq]
    omega
  refine ⟨fun id d hd => ?_, fun id d hd => ?_, fun id id' h h' => ?_⟩
  · rcases hplace id d hd with rfl | rfl | rfl | rfl <;> cases hd <;> cbv
  · have hreferences : d.references = [⟨1⟩] ∨ d.references = [⟨0⟩] ∨ d.references = [⟨2⟩] := by
      rcases hplace id d hd with rfl | rfl | rfl | rfl <;> cases hd
      · exact .inl (by cbv)
      · exact .inr (.inl (by cbv))
      · exact .inr (.inl (by cbv))
      · exact .inr (.inr (by cbv))
    intro x hx
    rcases hreferences with h | h | h <;> rw [h] at hx <;> cases List.mem_singleton.mp hx <;> rfl
  · obtain ⟨d, hd⟩ := Option.isSome_iff_exists.mp h
    obtain ⟨d', hd'⟩ := Option.isSome_iff_exists.mp h'
    rcases hplace id d hd with rfl | rfl | rfl | rfl <;>
      rcases hplace id' d' hd' with rfl | rfl | rfl | rfl <;> decide

open Analysis in
theorem rearranged_keeps_checksums :
    ((ofProgram rearranged).dependencyChecksum ⟨0⟩).1 =
        ((ofProgram alternating).dependencyChecksum ⟨3⟩).1 ∧
      (ofProgram rearranged).key ⟨0⟩ "Main" = (ofProgram alternating).key ⟨3⟩ "Main" := by
  obtain ⟨d, hd, hname⟩ : ∃ d, alternating.get? ⟨3⟩ = some d ∧ d.name = "Main" := ⟨_, rfl, rfl⟩
  obtain ⟨d', -, hname', -, -, hdependency, hkey, -⟩ := checksums_of_moved
    (current_ofProgram alternating) (current_ofProgram rearranged) moved_rearranged hd
  rw [hname', hname] at hkey
  exact ⟨hdependency, hkey⟩

end Verdict
