import Verdict.Analysis
import Verdict.Proofs.CallDependency
import Verdict.Proofs.Checksum

/-! The dependency checksum as a sum.

A table remembers nothing but what its program gives (`Faithful`), so what it answers does not
depend on what was asked before. The dependency checksum of a declaration is the sum of the own
checksums of its `summands`: itself, its procedures and all functions called from it; it is
defined just if all of these are. -/
namespace Verdict

/-- What the dependency checksum of `id` counts. -/
def CallDependencies.summands (deps : CallDependencies) (id : DeclId) : List DeclId :=
  id :: (deps.procedures id ++ deps.functionClosure id)

namespace Program

/-- The sum of the own checksums of these ids, if all are defined. -/
def total? (p : Program) : List DeclId → Option Checksum
  | [] => some 0
  | id :: rest => (p.checksum? id).bind fun c => (p.total? rest).map (c + ·)

/-- The own checksum of a declaration; one without counts nothing. -/
def digest (p : Program) (id : DeclId) : Checksum := (p.checksum? id).getD 0

theorem total?_eq_some_iff {p : Program} {ids : List DeclId} {s : Checksum} :
    p.total? ids = some s ↔
      (∀ id ∈ ids, (p.checksum? id).isSome) ∧ s = (ids.map p.digest).sum := by
  induction ids generalizing s with
  | nil =>
    simp only [total?, List.not_mem_nil, List.map_nil, List.sum_nil, Option.some.injEq]
    exact ⟨fun h => ⟨nofun, h.symm⟩, fun h => h.2.symm⟩
  | cons id rest ih =>
    simp only [total?, List.map_cons, List.sum_cons, List.forall_mem_cons]
    cases hc : p.checksum? id with
    | none => simp
    | some c =>
      have hdigest : p.digest id = c := by rw [digest, hc, Option.getD_some]
      rw [Option.bind_some, hdigest, Option.map_eq_some_iff]
      constructor
      · intro h
        obtain ⟨s', hs', rfl⟩ := h
        obtain ⟨hall, rfl⟩ := ih.mp hs'
        exact ⟨⟨rfl, hall⟩, rfl⟩
      · intro h
        obtain ⟨⟨-, hall⟩, rfl⟩ := h
        exact ⟨_, ih.mpr ⟨hall, rfl⟩, rfl⟩

theorem total?_eq_none_iff {p : Program} {ids : List DeclId} :
    p.total? ids = none ↔ ∃ id ∈ ids, p.checksum? id = none := by
  induction ids with
  | nil => simp [total?]
  | cons id rest ih =>
    rw [total?, List.exists_mem_cons_iff, ← ih]
    cases p.checksum? id <;> simp

theorem isSome_total?_iff {p : Program} {ids : List DeclId} :
    (p.total? ids).isSome ↔ ∀ id ∈ ids, (p.checksum? id).isSome := by
  simp only [Option.isSome_iff_ne_none, ne_eq, total?_eq_none_iff, not_exists, not_and]

theorem checksum?_of_get?_none {p : Program} {id : DeclId} (h : p.get? id = none) :
    p.checksum? id = none := by
  rw [checksum?, h]
  rfl

end Program

namespace ChecksumTable

/-- A table of the program's size that remembers only what the program gives. -/
structure Faithful (t : ChecksumTable) (p : Program) : Prop where
  size : t.own.size = p.size
  own : ∀ (id : DeclId) known, t.own[id.index]? = some (some known) → known = p.checksum? id

theorem faithful_blank (p : Program) : (blank p.size).Faithful p := by
  refine ⟨Array.size_replicate, fun id known h => ?_⟩
  have h : (Array.replicate p.size none)[id.index]? = some (some known) := h
  rw [Array.getElem?_replicate] at h
  split at h <;> cases h

variable {t : ChecksumTable} {p : Program}

theorem Faithful.checksum (h : t.Faithful p) (id : DeclId) :
    (t.checksum p id).1 = p.checksum? id ∧ (t.checksum p id).2.Faithful p := by
  unfold ChecksumTable.checksum
  split
  · rename_i hslot
    refine ⟨(Program.checksum?_of_get?_none (Array.getElem?_eq_none ?_)).symm, h⟩
    have := Array.getElem?_eq_none_iff.mp hslot
    rwa [h.size] at this
  · rename_i known hslot
    exact ⟨h.own id known hslot, h⟩
  · rename_i hslot
    refine ⟨rfl, ⟨by rw [← h.size]; exact Array.size_setIfInBounds, fun other known hother => ?_⟩⟩
    have hother : (t.own.setIfInBounds id.index (some (p.checksum? id)))[other.index]? =
        some (some known) := hother
    rw [Array.getElem?_setIfInBounds] at hother
    by_cases hi : id.index = other.index
    · obtain ⟨i⟩ := id
      obtain ⟨j⟩ := other
      cases hi
      rw [if_pos rfl] at hother
      split at hother <;> cases hother
      rfl
    · rw [if_neg hi] at hother
      exact h.own other known hother

theorem Faithful.addAll (ids : List DeclId) (h : t.Faithful p) (sum : Checksum) :
    (t.addAll p sum ids).1 = (p.total? ids).map (sum + ·) := by
  induction ids generalizing t sum with
  | nil => simp [ChecksumTable.addAll, Program.total?]
  | cons id rest ih =>
    obtain ⟨hvalue, hfaithful⟩ := h.checksum id
    rw [ChecksumTable.addAll, Program.total?]
    rcases heq : t.checksum p id with ⟨value, t'⟩
    rw [heq] at hvalue hfaithful
    simp only at hvalue hfaithful ⊢
    rw [← hvalue]
    cases value with
    | none => rfl
    | some c =>
      simp only [Option.bind_some, Option.map_map]
      rw [ih hfaithful]
      exact congrArg (Option.map · _) (funext fun s => add_assoc sum c s)

theorem Faithful.sumDependencies (h : t.Faithful p) (deps : CallDependencies) (id : DeclId) :
    (t.sumDependencies p deps id).1 = p.total? (deps.summands id) := by
  obtain ⟨hvalue, hfaithful⟩ := h.checksum id
  rw [ChecksumTable.sumDependencies, CallDependencies.summands, Program.total?]
  rcases heq : t.checksum p id with ⟨value, t'⟩
  rw [heq] at hvalue hfaithful
  simp only at hvalue hfaithful ⊢
  rw [← hvalue]
  cases value with
  | none => rfl
  | some own => exact hfaithful.addAll _ own

theorem dependencyChecksum_blank (p : Program) (deps : CallDependencies) (id : DeclId) :
    ((blank p.size).dependencyChecksum p deps id).1 = p.total? (deps.summands id) := by
  unfold dependencyChecksum
  have hslot : (blank p.size).dependency[id.index]? = if id.index < p.size then some none else none :=
    Array.getElem?_replicate
  rw [hslot]
  by_cases hlt : id.index < p.size
  · rw [if_pos hlt]
    exact (faithful_blank p).sumDependencies deps id
  · rw [if_neg hlt, CallDependencies.summands, Program.total?,
      Program.checksum?_of_get?_none (Array.getElem?_eq_none (Nat.le_of_not_lt hlt))]
    rfl

end ChecksumTable

namespace Analysis

/-- **The dependency checksum is the sum of its summands.** -/
theorem dependencyChecksum_ofProgram (p : Program) (id : DeclId) :
    ((ofProgram p).dependencyChecksum id).1 =
      p.total? ((CallDependencies.collect p).summands id) :=
  ChecksumTable.dependencyChecksum_blank p _ id

theorem checksum_ofProgram (p : Program) (id : DeclId) :
    ((ofProgram p).checksum id).1 = p.checksum? id :=
  ((ChecksumTable.faithful_blank p).checksum id).1

end Analysis

end Verdict
