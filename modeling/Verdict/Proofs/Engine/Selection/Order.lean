import Verdict.Proofs.Cache.History
import Verdict.Proofs.Engine.Selection
import Verdict.Proofs.Sorting

/-! In what order implementations are selected.

The priorities of what is wanted are settled before it is sorted, and what is wanted is listed in
the order of declaration (`pairwise_wanted`). The sort is stable, so this is also the order among
equal priorities (`pairwise_select`). -/
namespace Verdict

namespace Shared
variable {s : Shared} {a : Analysis} {id : DeclId} {k : Int}

/-- What an implementation counts for in the order of selection: the priority it has been given,
unless that is 1, or else what a lookup of it in the cache would say. -/
def effectivePriority (s : Shared) (a : Analysis) (id : DeclId) (d : Declaration) : Int :=
  let given := (d.attributes.int? "priority").getD 1
  if given ≠ 1 then given
  else if s.options.cacheMode = .off then 1
  else (s.cache.lookup (a.key id d.name) fun _ => true).2.1.weight

theorem priority_eq (s : Shared) (a : Analysis) (id : DeclId) (d : Declaration) :
    s.priority a id d = s.effectivePriority a id d := by
  have hclass := (s.cache.urgency_eq (a.key id d.name)).trans
    (s.cache.lookup_urgency (a.key id d.name) fun _ => true).symm
  simp only [priority, effectivePriority, Declaration.priority, usesCache, hclass,
    decide_eq_true_eq, ne_eq, ite_not, Urgency.weight]

theorem mem_wanted_iff : (id, k) ∈ s.wanted a ↔
    ∃ d, a.program.get? id = some d ∧ s.options.wants d = true ∧ s.priority a id d = k :=
  Program.mem_filterMap_ids_iff

theorem pairwise_wanted (s : Shared) (a : Analysis) :
    (s.wanted a).Pairwise fun x y => x.1.index < y.1.index := by
  rw [← List.pairwise_map (R := fun i j : DeclId => i.index < j.index), map_fst_wanted]
  exact a.program.pairwise_ids.filter _

/-- What is selected is in the order of descending priority, and of declaration where priorities
are equal. -/
theorem pairwise_select (s : Shared) (a : Analysis) : (s.select a).Pairwise fun i j =>
    ∀ d d', a.program.get? i = some d → a.program.get? j = some d' →
      s.priority a j d' < s.priority a i d ∨
        s.priority a i d = s.priority a j d' ∧ i.index < j.index := by
  have htrans : ∀ x y z : DeclId × Int, decide (y.2 ≤ x.2) = true → decide (z.2 ≤ y.2) = true →
      decide (z.2 ≤ x.2) = true := fun x y z hxy hyz =>
    decide_eq_true (Int.le_trans (of_decide_eq_true hyz) (of_decide_eq_true hxy))
  have htotal : ∀ x y : DeclId × Int, (decide (y.2 ≤ x.2) || decide (x.2 ≤ y.2)) = true :=
    fun x y => by simpa using Int.le_total y.2 x.2
  rw [select, List.pairwise_map]
  refine (pairwise_mergeSort_stable htrans htotal (s.pairwise_wanted a)).imp_of_mem ?_
  rintro ⟨i, k⟩ ⟨j, l⟩ hi hj ⟨hle, htie⟩ d d' hd hd'
  rw [List.mem_mergeSort, mem_wanted_iff] at hi hj
  obtain ⟨_, hdi, -, rfl⟩ := hi
  obtain ⟨_, hdj, -, rfl⟩ := hj
  obtain rfl := Option.some.inj (hd.symm.trans hdi)
  obtain rfl := Option.some.inj (hd'.symm.trans hdj)
  rcases Int.lt_or_eq_of_le (of_decide_eq_true hle) with hlt | heq
  · exact .inl hlt
  · exact .inr ⟨heq.symm, htie (decide_eq_true (Int.le_of_eq heq.symm))⟩

end Shared

namespace Engine

/-- **What is selected are the implementations that are wanted, each once, in the order of
descending priority and then of declaration.** The cache is left as it is, and what it is asked for
does not depend on what the analysis remembers. -/
theorem select_by_priority (e : Engine) (a : Analysis) :
    (e.shared.select a).Nodup ∧
    (∀ id, id ∈ e.shared.select a ↔ ∃ d, a.program.get? id = some d ∧
      d.implementation?.isSome ∧ d.attributes.flag? "verify" ≠ some false ∧
        Wildcard.acceptsAny e.shared.options.checkOnly d.name = true) ∧
    ((e.shared.select a).Pairwise fun i j => ∀ d d', a.program.get? i = some d →
      a.program.get? j = some d' →
        e.shared.effectivePriority a j d' < e.shared.effectivePriority a i d ∨
          e.shared.effectivePriority a i d = e.shared.effectivePriority a j d' ∧
            i.index < j.index) ∧
    (e.verify a).2.shared.cache = e.shared.cache ∧
    (Analysis.Current { a with graph := none } →
      ∀ id name, a.key id name = (Analysis.ofProgram a.program).key id name) := by
  refine ⟨e.shared.nodup_select a, fun id => ?_, ?_, ?_, fun current id name => ?_⟩
  · simp only [Shared.mem_select_iff, Options.wants_iff]
  · simp only [← Shared.priority_eq]
    exact e.shared.pairwise_select a
  · obtain ⟨ts, -, hverify⟩ := e.verify_eq a
    rw [hverify]
    rfl
  · rw [Analysis.key_of_current current,
      Analysis.key_of_current (Analysis.current_ofProgram a.program).withoutGraph]
    rfl

end Engine

/-- One implementation has a priority, that of another is no number. One is not to be verified,
one has not the right name, and one has a checksum. -/
def ranked : Program where
  decls := #[
    ⟨"P", .unknown, [], .procedure ⟨[], [], [], []⟩⟩,
    ⟨"A.worded", .unknown, [⟨"priority", [.text "7"]⟩], .implementation ⟨⟨0⟩, [], [], []⟩⟩,
    ⟨"A.skipped", .unknown, [⟨"priority", [.int 9]⟩, ⟨"verify", [.bool false]⟩],
      .implementation ⟨⟨0⟩, [], [], []⟩⟩,
    ⟨"A.modified", .unknown, [⟨"checksum", [.text "v2"]⟩], .implementation ⟨⟨0⟩, [], [], []⟩⟩,
    ⟨"A.pressing", .unknown, [⟨"priority", [.int 7]⟩], .implementation ⟨⟨0⟩, [], [], []⟩⟩,
    ⟨"B", .unknown, [], .implementation ⟨⟨0⟩, [], [], []⟩⟩,
    ⟨"A.plain", .unknown, [], .implementation ⟨⟨0⟩, [], [], []⟩⟩]

/-- Its checksums have been asked for. -/
def rankedAnalysis : Analysis := ((Analysis.ofProgram ranked).dependencyChecksum ⟨3⟩).2

/-- An engine that has had a result for the implementation with the checksum, under another one. -/
def rankedEngine : Engine where
  shared := { Shared.fresh { Options.standard 1 with cacheMode := .on, checkOnly := ["A.*"] } with
    cache := Cache.fresh.insert ⟨"A.modified", some ⟨.replicate 32 1⟩, none⟩
      ⟨"1", "A.modified", default, none, none, .correct, [], 0, 0, 0, 0, false, none⟩ }
  batches := []
  requestIds := 0

theorem ranked_selected : rankedEngine.shared.select rankedAnalysis = [⟨4⟩, ⟨3⟩, ⟨1⟩, ⟨6⟩] ∧
    ⟨2⟩ ∉ rankedEngine.shared.select rankedAnalysis ∧
    (rankedEngine.verify rankedAnalysis).2.shared.cache.seen = ["A.modified"] ∧
    rankedAnalysis.key ⟨3⟩ "A.modified" = (Analysis.ofProgram ranked).key ⟨3⟩ "A.modified" := by
  obtain ⟨-, hmem, -, hcache, hkey⟩ := Engine.select_by_priority rankedEngine rankedAnalysis
  have hwanted : rankedEngine.shared.wanted rankedAnalysis =
      [(⟨1⟩, 1), (⟨3⟩, 2), (⟨4⟩, 7), (⟨6⟩, 1)] := by decide +kernel
  have hcurrent : rankedAnalysis.Current :=
    (Analysis.current_ofProgram ranked).dependencyChecksum ⟨3⟩
  have hprogram : rankedAnalysis.program = ranked := by
    rw [rankedAnalysis, Analysis.dependencyChecksum_eq]
    exact Analysis.program_callDependencies _
  refine ⟨?_, fun h => ?_, by rw [hcache]; rfl, ?_⟩
  · rw [Shared.select, hwanted]
    simp [List.mergeSort, List.MergeSort.Internal.splitInTwo]
  · obtain ⟨d, hd, -, hverify, -⟩ := (hmem ⟨2⟩).mp h
    rw [hprogram] at hd
    cases hd
    exact hverify (by cbv)
  · rw [hkey hcurrent.withoutGraph, hprogram]

end Verdict
