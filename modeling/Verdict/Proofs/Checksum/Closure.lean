import Mathlib.Algebra.BigOperators.Group.Finset.Basic
import Mathlib.Algebra.GroupWithZero.Nat
import Verdict.Proofs.Checksum.Dependency

/-! The dependency checksum counts the closure of the calls, byte by byte.

The summands of a dependency checksum come in three groups: the declaration itself, the
procedures that it depends on, and the functions called from it at any distance, cycles or not.
Within a group nothing is counted twice, whatever the order in which the search comes to it, but
the groups may overlap: a function that calls itself counts as itself and as called. A single
undefined checksum leaves the whole undefined. -/
namespace Verdict

/-- Each byte of a sum is the sum of the bytes at its place, modulo 256. -/
theorem Checksum.toNat_getElem_sum (cs : List Checksum) {i : Nat} (hi : i < 32) :
    (cs.sum.bytes[i]).toNat = (cs.map fun c => c.bytes[i].toNat).sum % 256 := by
  induction cs with
  | nil => simp
  | cons c cs ih =>
    rw [List.sum_cons, getElem_add, UInt8.toNat_add, ih, List.map_cons, List.sum_cons,
      Nat.add_mod_mod]

/-- The byte at place `i` of the own checksum of `id`. -/
def Program.byte (p : Program) (i : Fin 32) (id : DeclId) : Nat := (p.digest id).bytes[i].toNat

/-- The bytes of a total are the totals of the bytes. -/
theorem Program.toNat_of_total? {p : Program} {ids : List DeclId} {s : Checksum}
    (h : p.total? ids = some s) (i : Fin 32) :
    s.bytes[i].toNat = (ids.map (p.byte i)).sum % 256 := by
  obtain ⟨-, rfl⟩ := total?_eq_some_iff.mp h
  exact (Checksum.toNat_getElem_sum (ids.map p.digest) i.isLt).trans (by rw [List.map_map]; rfl)

namespace ChecksumTable

/-- **The dependency checksum is that of the transitive closure.** Of the procedures that `id`
depends on and the functions called from it, both finite in number, each counts once, beside
`id` itself: the answer is undefined exactly if one of these checksums is, and otherwise each of
its bytes is the sum of theirs modulo 256. A declaration that does not exist has no checksum. -/
theorem dependencyChecksum_closure (p : Program) (id : DeclId) :
    ∃ procedures functions : Finset DeclId,
      (∀ q, q ∈ procedures ↔ p.RestsOn id q) ∧ (∀ f, f ∈ functions ↔ p.CalledFrom id f) ∧
      (((blank p.size).dependencyChecksum p (.collect p) id).1 = none ↔
        p.checksum? id = none ∨ (∃ q ∈ procedures, p.checksum? q = none) ∨
          ∃ f ∈ functions, p.checksum? f = none) ∧
      (∀ s, ((blank p.size).dependencyChecksum p (.collect p) id).1 = some s → ∀ i : Fin 32,
        s.bytes[i].toNat =
          (p.byte i id + ∑ q ∈ procedures, p.byte i q + ∑ f ∈ functions, p.byte i f) % 256) ∧
      ∀ x : DeclId, p.size ≤ x.index → p.checksum? x = none := by
  have hsum := dependencyChecksum_blank p (.collect p) id
  have hprocedures := CallDependencies.nodup_procedures_collect p id
  have hfunctions := CallDependencies.nodup_functionClosure (.collect p) id
  refine ⟨((CallDependencies.collect p).procedures id).toFinset,
    ((CallDependencies.collect p).functionClosure id).toFinset, fun q => ?_, fun f => ?_, ?_,
    fun s hs i => ?_, fun x hx => ?_⟩
  · rw [List.mem_toFinset, CallDependencies.mem_procedures_collect_iff]
  · rw [List.mem_toFinset, CallDependencies.mem_functionClosure_iff,
      CallDependencies.calls_collect_iff]
  · rw [hsum, Program.total?_eq_none_iff, CallDependencies.summands, List.exists_mem_cons_iff]
    simp only [List.mem_append, or_and_right, exists_or, List.mem_toFinset]
  · rw [List.sum_toFinset _ hprocedures, List.sum_toFinset _ hfunctions,
      Program.toNat_of_total? (hsum.symm.trans hs), CallDependencies.summands, List.map_cons,
      List.map_append, List.sum_cons, List.sum_append, Nat.add_assoc]
  · exact Program.checksum?_of_get?_none (Array.getElem?_eq_none hx)

/-- Two functions that call each other; only the contract of the implemented procedure calls one
of them. -/
def alternating : Program where
  decls := #[
    ⟨"even", .unknown, [⟨"checksum", [.text "even"]⟩],
      .function ["n"] (some (.call ⟨1⟩ [.var "n"]))⟩,
    ⟨"odd", .unknown, [⟨"checksum", [.text "odd"]⟩],
      .function ["n"] (some (.call ⟨0⟩ [.var "n"]))⟩,
    ⟨"Main", .unknown, [⟨"checksum", [.text "contract"]⟩],
      .procedure ⟨["n"], [], [.call ⟨0⟩ [.var "n"]], []⟩⟩,
    ⟨"Main", .unknown, [⟨"checksum", [.text "body"]⟩],
      .implementation ⟨⟨2⟩, ["n"], [], [⟨"entry", [], .return⟩]⟩⟩]

/-- Both functions count once, although the search comes back to the first. -/
theorem dependencyChecksum_alternating :
    ∃ s, ((blank alternating.size).dependencyChecksum alternating (.collect alternating) ⟨3⟩).1 =
        some s ∧
      ∀ i : Fin 32, s.bytes[i].toNat = (alternating.byte i ⟨3⟩ + alternating.byte i ⟨2⟩ +
        (alternating.byte i ⟨0⟩ + alternating.byte i ⟨1⟩)) % 256 := by
  have hlists : (CallDependencies.collect alternating).procedures ⟨3⟩ = [⟨2⟩] ∧
      (CallDependencies.collect alternating).functionClosure ⟨3⟩ = [⟨0⟩, ⟨1⟩] := by
    constructor <;> cbv
  obtain ⟨s, hs⟩ : ∃ s, ((blank alternating.size).dependencyChecksum alternating
      (.collect alternating) ⟨3⟩).1 = some s := by
    rw [dependencyChecksum_blank, CallDependencies.summands, hlists.1, hlists.2]
    exact ⟨_, rfl⟩
  obtain ⟨procedures, functions, hprocedures, hfunctions, -, hbytes, -⟩ :=
    dependencyChecksum_closure alternating ⟨3⟩
  have hq : procedures = {⟨2⟩} := by
    ext q
    rw [hprocedures, ← CallDependencies.mem_procedures_collect_iff, hlists.1, List.mem_singleton,
      Finset.mem_singleton]
  have hf : functions = {⟨0⟩, ⟨1⟩} := by
    ext f
    rw [hfunctions, ← CallDependencies.calls_collect_iff, ← CallDependencies.mem_functionClosure_iff,
      hlists.2]
    simp
  refine ⟨s, hs, fun i => ?_⟩
  have hbyte := hbytes s hs i
  rwa [hq, hf, Finset.sum_singleton, Finset.sum_pair (by decide)] at hbyte

end ChecksumTable

end Verdict
