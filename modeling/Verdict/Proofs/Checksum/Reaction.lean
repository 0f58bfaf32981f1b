import Verdict.Proofs.Checksum.Replacement

/-! To which changes a dependency checksum reacts.

In a resolved program what is called is a function and what is implemented or called by a command is a
procedure, so the three groups that a dependency checksum of an implementation counts do not overlap:
itself, its procedures, and the functions called from it (`nodup_summands`). Everything counts once,
and a summand that changes changes the sum, since it can be taken out again. Where a declaration that
is counted loses its checksum, the sum loses its value. A declaration that is not counted is not even
read. -/
namespace Verdict

namespace Declaration
variable {d d' : Declaration}

theorem not_isFunction_of_procedure? (h : d.procedure?.isSome) : d.isFunction = false := by
  obtain ⟨name, location, attributes, subject⟩ := d
  cases subject <;> first | rfl | cases h

theorem of_implementation? (h : d.implementation?.isSome) :
    d.isFunction = false ∧ d.procedure? = none := by
  obtain ⟨name, location, attributes, subject⟩ := d
  cases subject <;> first | exact ⟨rfl, rfl⟩ | cases h

theorem callDependency_congr (h : d.subject = d'.subject) : d.callDependency = d'.callDependency := by
  simp only [callDependency, callingExprs, calledProcedures, h]

end Declaration

namespace Program
variable {p : Program} {i d x : DeclId}

/-- What is called is a function, and what is implemented or called by a command is a procedure. -/
structure Resolved (p : Program) : Prop where
  function : ∀ id f, p.Calls id f → ∃ d, p.get? f = some d ∧ d.isFunction = true
  procedure : ∀ id q, p.RestsOn id q → ∃ d, p.get? q = some d ∧ d.procedure?.isSome = true

/-- The declaration is `i`, a procedure that `i` depends on, or a function called from it. -/
def Counts (p : Program) (i d : DeclId) : Prop := d = i ∨ p.RestsOn i d ∨ p.CalledFrom i d

theorem Resolved.isFunction (h : p.Resolved) (hx : p.CalledFrom i x) :
    ∃ d, p.get? x = some d ∧ d.isFunction = true := by
  cases hx with
  | own hx => exact h.function i x hx
  | contract _ hx => exact h.function _ x hx
  | onward _ hx => exact h.function _ x hx

theorem mem_summands_collect_iff :
    x ∈ (CallDependencies.collect p).summands i ↔ p.Counts i x := by
  rw [CallDependencies.mem_summands_iff, CallDependencies.mem_procedures_collect_iff,
    CallDependencies.calls_collect_iff, Counts]

/-- Nothing counts twice for an implementation. -/
theorem Resolved.nodup_summands (h : p.Resolved)
    (hi : ((p.get? i).bind (·.implementation?)).isSome) :
    ((CallDependencies.collect p).summands i).Nodup := by
  obtain ⟨body, hbody⟩ := Option.isSome_iff_exists.mp hi
  obtain ⟨di, hdi, hbody⟩ := Option.bind_eq_some_iff.mp hbody
  obtain ⟨hnofunction, hnoprocedure⟩ :=
    Declaration.of_implementation? (Option.isSome_iff_exists.mpr ⟨body, hbody⟩)
  have hprocedures : i ∉ (CallDependencies.collect p).procedures i := by
    intro hmem
    obtain ⟨d, hd, hq⟩ := h.procedure i i ((CallDependencies.mem_procedures_collect_iff ..).mp hmem)
    obtain rfl := Option.some.inj (hdi.symm.trans hd)
    rw [hnoprocedure] at hq
    cases hq
  have functions : ∀ {x}, x ∈ (CallDependencies.collect p).functionClosure i →
      ∃ d, p.get? x = some d ∧ d.isFunction = true := by
    intro x hx
    rw [CallDependencies.mem_functionClosure_iff, CallDependencies.calls_collect_iff] at hx
    exact h.isFunction hx
  have hfunctions : i ∉ (CallDependencies.collect p).functionClosure i := by
    intro hmem
    obtain ⟨d, hd, hf⟩ := functions hmem
    obtain rfl := Option.some.inj (hdi.symm.trans hd)
    rw [hnofunction] at hf
    cases hf
  have hdisjoint : ((CallDependencies.collect p).procedures i).Disjoint
      ((CallDependencies.collect p).functionClosure i) := by
    intro x hq hf
    obtain ⟨d, hd, hfunction⟩ := functions hf
    obtain ⟨d', hd', hprocedure⟩ :=
      h.procedure i x ((CallDependencies.mem_procedures_collect_iff ..).mp hq)
    obtain rfl := Option.some.inj (hd.symm.trans hd')
    rw [Declaration.not_isFunction_of_procedure? hprocedure] at hfunction
    cases hfunction
  refine List.nodup_cons.mpr ⟨fun hmem => ?_, ?_⟩
  · exact (List.mem_append.mp hmem).elim hprocedures hfunctions
  · exact List.nodup_append'.mpr ⟨CallDependencies.nodup_procedures_collect p i,
      CallDependencies.nodup_functionClosure _ i, hdisjoint⟩

/-! ### One declaration is changed -/

variable {old new : Declaration}

theorem checksum?_eq (hd : p.get? d = some old) :
    p.checksum? d = old.checksumSource?.map Checksum.ofText := by
  rw [checksum?, hd, Option.bind_some]

theorem checksum?_replace_self (hd : p.get? d = some old) :
    (p.replace d new).checksum? d = new.checksumSource?.map Checksum.ofText :=
  checksum?_eq (get?_replace_self new hd)

theorem sumOf_besides_replace (p : Program) (d : DeclId) (new : Declaration) (ids : List DeclId) :
    (p.replace d new).sumOf (besides d ids) = p.sumOf (besides d ids) :=
  congrArg Multiset.sum
    (Multiset.map_congr rfl fun _ hx => digest_replace_of_ne new (Multiset.mem_filter.mp hx).2)

variable {ids : List DeclId} {s : Checksum}

/-- Where nothing counts twice, a sum differs just if a summand does. -/
theorem sum_replace_ne_iff (hnodup : ids.Nodup)
    (hdigest : d ∈ ids → (p.replace d new).digest d ≠ p.digest d) :
    (ids.map (p.replace d new).digest).sum ≠ (ids.map p.digest).sum ↔ d ∈ ids := by
  rw [sum_eq_count_add _ d, sum_eq_count_add p d, sumOf_besides_replace, Ne, add_left_inj]
  by_cases hmem : d ∈ ids
  · rw [List.count_eq_one_of_mem hnodup hmem, one_nsmul, one_nsmul]
    exact iff_of_true (hdigest hmem) hmem
  · rw [List.count_eq_zero.mpr hmem, zero_nsmul, zero_nsmul]
    exact iff_of_false (not_not_intro rfl) hmem

theorem total?_replace_of_notMem (new : Declaration) (hmem : d ∉ ids) :
    (p.replace d new).total? ids = p.total? ids := by
  refine total?_congr (List.Perm.refl ids) fun x hx => checksum?_replace_of_ne new ?_
  rintro rfl
  exact hmem hx

/-- Where one summand alone has lost its checksum, the sum has lost its value with it. -/
theorem total?_replace_eq_none_iff (hs : p.total? ids = some s)
    (hnone : (p.replace d new).checksum? d = none) :
    (p.replace d new).total? ids = none ↔ d ∈ ids := by
  constructor
  · intro h
    by_contra hmem
    rw [total?_replace_of_notMem new hmem, hs] at h
    cases h
  · exact fun hmem => total?_eq_none_iff.mpr ⟨d, hmem, hnone⟩

theorem exists_total?_replace {c : Checksum} (hs : p.total? ids = some s)
    (hc : (p.replace d new).checksum? d = some c) : ∃ s', (p.replace d new).total? ids = some s' := by
  refine ⟨_, total?_eq_some_iff.mpr ⟨fun x hx => ?_, rfl⟩⟩
  by_cases hxd : x = d
  · rw [hxd, hc, Option.isSome_some]
  · rw [checksum?_replace_of_ne new hxd]
    exact (total?_eq_some_iff.mp hs).1 x hx

end Program

open Analysis in
/-- **A dependency checksum reacts to exactly what it counts.** In a resolved program, let the
dependency checksum of an implementation be defined, and let a declaration get another checksum but
keep its content. If its digest is another one, the dependency checksum stays defined, and differs
just if the declaration is the implementation, a procedure that it depends on, or a function called
from it, at whatever distance. If it has none any more, the dependency checksum is undefined in
these cases, and the same as before in all others. -/
theorem dependencyChecksum_reacts {p : Program} (resolved : p.Resolved) {i d : DeclId}
    {old new : Declaration} {s : Checksum}
    (hi : ((p.get? i).bind (·.implementation?)).isSome)
    (hs : ((ofProgram p).dependencyChecksum i).1 = some s)
    (hd : p.get? d = some old) (hcontent : new.subject = old.subject) :
    (∀ source, new.checksumSource? = some source →
        old.checksumSource?.map Checksum.ofText ≠ some (.ofText source) →
      ∃ s', ((ofProgram (p.replace d new)).dependencyChecksum i).1 = some s' ∧
        (s' ≠ s ↔ p.Counts i d)) ∧
    (new.checksumSource? = none →
      (((ofProgram (p.replace d new)).dependencyChecksum i).1 = none ↔ p.Counts i d) ∧
        (¬p.Counts i d → ((ofProgram (p.replace d new)).dependencyChecksum i).1 = some s)) := by
  have hcollect : CallDependencies.collect (p.replace d new) = CallDependencies.collect p :=
    CallDependencies.collect_replace hd (Declaration.callDependency_congr hcontent)
  rw [dependencyChecksum_ofProgram] at hs
  rw [dependencyChecksum_ofProgram, hcollect, ← Program.mem_summands_collect_iff]
  have hown := Program.checksum?_eq hd
  have hown' : (p.replace d new).checksum? d = new.checksumSource?.map Checksum.ofText :=
    Program.checksum?_replace_self hd
  constructor
  · intro source hsource hdiffer
    rw [hsource, Option.map_some] at hown'
    obtain ⟨s', hs'⟩ := Program.exists_total?_replace hs hown'
    refine ⟨s', hs', ?_⟩
    obtain ⟨hdefined, rfl⟩ := Program.total?_eq_some_iff.mp hs
    obtain ⟨-, rfl⟩ := Program.total?_eq_some_iff.mp hs'
    refine Program.sum_replace_ne_iff (resolved.nodup_summands hi) fun hmem => ?_
    obtain ⟨c, hc⟩ := Option.isSome_iff_exists.mp (hdefined d hmem)
    rw [Program.digest, Program.digest, hown', hc, Option.getD_some, Option.getD_some]
    rintro rfl
    exact hdiffer (hown.symm.trans hc)
  · intro hnone
    rw [hnone, Option.map_none] at hown'
    refine ⟨Program.total?_replace_eq_none_iff hs hown', fun hmem => ?_⟩
    rw [Program.total?_replace_of_notMem new hmem, hs]

theorem resolved_guarded : guarded.Resolved := by
  have hcollect : CallDependencies.collect guarded =
      ⟨#[⟨[], []⟩, ⟨[⟨0⟩], []⟩, ⟨[], []⟩, ⟨[⟨0⟩], [⟨2⟩]⟩]⟩ := by
    cbv
  have hfunctions : ∀ id, (CallDependencies.collect guarded).functions id ⊆ [⟨0⟩] := by
    rintro ⟨_ | _ | _ | _ | i⟩ <;> simp [CallDependencies.functions, CallDependencies.get?, hcollect]
  have hprocedures : ∀ id, (CallDependencies.collect guarded).procedures id ⊆ [⟨2⟩] := by
    rintro ⟨_ | _ | _ | _ | i⟩ <;> simp [CallDependencies.procedures, CallDependencies.get?, hcollect]
  refine ⟨fun id f hf => ?_, fun id q hq => ?_⟩
  · have hmem := hfunctions id ((CallDependencies.mem_functions_collect_iff ..).mpr hf)
    obtain rfl := List.mem_singleton.mp hmem
    exact ⟨_, rfl, rfl⟩
  · have hmem := hprocedures id ((CallDependencies.mem_procedures_collect_iff ..).mpr hq)
    obtain rfl := List.mem_singleton.mp hmem
    exact ⟨_, rfl, rfl⟩

open Analysis in
/-- What the body calls shows when it changes, and is missed when it has no checksum; the axiom is
not. -/
theorem guarded_reacts :
    guarded.Resolved ∧ ∃ s, ((ofProgram guarded).dependencyChecksum ⟨3⟩).1 = some s ∧
      (∃ s', ((ofProgram (guarded.replace ⟨0⟩ (callee "g"))).dependencyChecksum ⟨3⟩).1 = some s' ∧
        s' ≠ s) ∧
      ((ofProgram (guarded.replace ⟨0⟩ { callee "f" with attributes := [] })).dependencyChecksum
        ⟨3⟩).1 = none ∧
      ((ofProgram (guarded.replace ⟨1⟩ { bounded .gt "above" with attributes := [] })).dependencyChecksum
        ⟨3⟩).1 = some s := by
  have hs : ((ofProgram guarded).dependencyChecksum ⟨3⟩).1 =
      some (.ofText "body" + (.ofText "contract" + (.ofText "f" + 0))) := by
    rw [dependencyChecksum_ofProgram, summands_guarded]
    rfl
  have hcallee : guarded.Counts ⟨3⟩ ⟨0⟩ := by
    rw [← Program.mem_summands_collect_iff, summands_guarded]
    decide
  have hlaw : ¬guarded.Counts ⟨3⟩ ⟨1⟩ := by
    rw [← Program.mem_summands_collect_iff, summands_guarded]
    decide
  have hdigest : (some (Checksum.ofText "f") : Option Checksum) ≠ some (.ofText "g") := by
    decide +kernel
  obtain ⟨s', hs', hdiffers⟩ := (@dependencyChecksum_reacts guarded resolved_guarded ⟨3⟩ ⟨0⟩
    (callee "f") (callee "g") _ rfl hs rfl rfl).1 "g" rfl hdigest
  have hmissed := (@dependencyChecksum_reacts guarded resolved_guarded ⟨3⟩ ⟨0⟩
    (callee "f") { callee "f" with attributes := [] } _ rfl hs rfl rfl).2 rfl
  have hunread := (@dependencyChecksum_reacts guarded resolved_guarded ⟨3⟩ ⟨1⟩ (bounded .gt "above")
    { bounded .gt "above" with attributes := [] } _ rfl hs rfl rfl).2 rfl
  exact ⟨resolved_guarded, _, hs, ⟨s', hs', hdiffers.mpr hcallee⟩, hmissed.1.mpr hcallee,
    hunread.2 hlaw⟩

end Verdict
