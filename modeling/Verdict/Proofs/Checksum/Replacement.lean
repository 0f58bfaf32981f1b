import Mathlib.Algebra.BigOperators.Group.Multiset.Basic
import Mathlib.Data.List.Nodup
import Verdict.Engine.Shared
import Verdict.Proofs.Cache
import Verdict.Proofs.Checksum.Dependency

/-! What a change of one declaration does to a dependency checksum.

A dependency checksum heeds what is called, and nothing else. A declaration that is not called
may change as it likes: axioms and constants, and functions that only axioms bring in, are in
nobody's dependency checksum, although pruning hands them to the verifier. A function that is
called shows every change of its own checksum as long as it calls what it called before. Where
it does not, the checksums of what it no longer calls and of what it newly calls enter the sum
as well, and `dependencyChecksum_replace` says exactly when they make up for the change. -/
namespace Verdict

namespace CallDependencies
variable {p : Program} {i d : DeclId}

theorem mem_summands_iff {deps : CallDependencies} {x : DeclId} :
    x ∈ deps.summands i ↔ x = i ∨ x ∈ deps.procedures i ∨ deps.Calls i x := by
  rw [summands, List.mem_cons, List.mem_append, mem_functionClosure_iff]

theorem get?_collect_replace (new : Declaration) (x : DeclId) (hx : x ≠ d) :
    (collect (p.replace d new)).get? x = (collect p).get? x := by
  rw [get?_collect, get?_collect, Program.get?_replace_of_ne new hx]

theorem collect_replace {old new : Declaration} (hd : p.get? d = some old)
    (h : new.callDependency = old.callDependency) : collect (p.replace d new) = collect p := by
  have hget : ∀ x, (collect (p.replace d new)).get? x = (collect p).get? x := by
    intro x
    by_cases hx : x = d
    · rw [hx, get?_collect, get?_collect, Program.get?_replace_self new hd, hd, Option.map_some,
        Option.map_some, h]
    · exact get?_collect_replace new x hx
  have hentries : (collect (p.replace d new)).entries = (collect p).entries :=
    Array.ext_getElem? fun n => hget ⟨n⟩
  exact congrArg mk hentries

end CallDependencies

namespace Program
variable {p : Program} {d : DeclId}

theorem checksum?_replace_of_ne (new : Declaration) {x : DeclId} (hx : x ≠ d) :
    (p.replace d new).checksum? x = p.checksum? x := by
  rw [checksum?, checksum?, get?_replace_of_ne new hx]

theorem digest_replace_of_ne (new : Declaration) {x : DeclId} (hx : x ≠ d) :
    (p.replace d new).digest x = p.digest x := by
  rw [digest, digest, checksum?_replace_of_ne new hx]

theorem total?_congr {p' : Program} {ids ids' : List DeclId} (hperm : ids'.Perm ids)
    (h : ∀ x ∈ ids, p'.checksum? x = p.checksum? x) : p'.total? ids' = p.total? ids := by
  have hdigest : (ids'.map p'.digest).sum = (ids.map p.digest).sum := by
    rw [(hperm.map p'.digest).sum_eq]
    congr 1
    exact List.map_congr_left fun x hx => by rw [digest, digest, h x hx]
  ext s
  rw [total?_eq_some_iff, total?_eq_some_iff, hdigest]
  refine and_congr_left fun _ => ⟨fun hall x hx => ?_, fun hall x hx => ?_⟩
  · rw [← h x hx]
    exact hall x (hperm.mem_iff.mpr hx)
  · rw [h x (hperm.mem_iff.mp hx)]
    exact hall x (hperm.mem_iff.mp hx)

/-- The checksums of these ids added up. -/
def sumOf (p : Program) (ids : Multiset DeclId) : Checksum := (ids.map p.digest).sum

/-- The ids counted, but for `d`. -/
def besides (d : DeclId) (ids : List DeclId) : Multiset DeclId :=
  (ids : Multiset DeclId).filter (· ≠ d)

theorem sum_eq_count_add (p : Program) (d : DeclId) (ids : List DeclId) :
    (ids.map p.digest).sum = ids.count d • p.digest d + p.sumOf (besides d ids) := by
  have hsplit := Multiset.filter_add_not (· = d) (ids : Multiset DeclId)
  have hsum : (ids.map p.digest).sum = p.sumOf (ids : Multiset DeclId) := by
    rw [sumOf, Multiset.map_coe, Multiset.sum_coe]
  rw [hsum, ← hsplit, sumOf, Multiset.map_add, Multiset.sum_add, Multiset.filter_eq',
    Multiset.map_replicate, Multiset.sum_replicate, Multiset.coe_count]
  rfl

/-- What else contributes to the dependency checksum of `i` in `p`, but does not in `p'`. -/
def lost (p p' : Program) (i d : DeclId) : Checksum :=
  p.sumOf (besides d ((CallDependencies.collect p).summands i) -
    besides d ((CallDependencies.collect p').summands i))

end Program

namespace Analysis
variable {p : Program} {i d : DeclId}

/-- An analysis of a program with its graph attached. -/
def attached (p : Program) : Analysis := (ofProgram p).ensureGraph.2

end Analysis

/-- The axiom that everywhere `f` compares to 0 in this way. -/
def bounded (op : BinaryOp) (checksum : String) : Declaration where
  name := "bound"
  location := .unknown
  attributes := [⟨"checksum", [.text checksum]⟩]
  subject := .law (.quantified .all ["x"] [[.call ⟨0⟩ [.var "x"]]]
    (.binary op (.call ⟨0⟩ [.var "x"]) (.literal (.int 0))))

def callingBlocks : List Block :=
  [⟨"entry", [.assert .unknown (.binary .gt (.call ⟨0⟩ [.literal (.int 1)]) (.literal (.int 0))) []],
    .return⟩]

/-- A body that is correct only because of an axiom, which the function it calls brings in. -/
def guarded : Program where
  decls := #[
    ⟨"f", .unknown, [⟨"checksum", [.text "f"]⟩], .function ["x"] none⟩,
    bounded .gt "above",
    ⟨"Main", .unknown, [⟨"checksum", [.text "contract"]⟩], .procedure ⟨[], [], [], []⟩⟩,
    ⟨"Main", .unknown, [⟨"checksum", [.text "body"]⟩],
      .implementation ⟨⟨2⟩, [], [], callingBlocks⟩⟩]

theorem summands_guarded : (CallDependencies.collect guarded).summands ⟨3⟩ = [⟨3⟩, ⟨2⟩, ⟨0⟩] := by
  decide +kernel

/-- The function that the body calls, with this checksum. -/
def callee (checksum : String) : Declaration :=
  ⟨"f", .unknown, [⟨"checksum", [.text checksum]⟩], .function ["x"] none⟩

end Verdict
