import Verdict.Proofs.Checksum.Dependency

/-! What a table of checksums remembers.

Own checksums are remembered while dependency checksums are computed, also on the way to one that
turns out to be undefined. None of this shows: a table that is up to date with its program
(`Current`) answers what the program gives, and is up to date afterwards. -/
namespace Verdict

namespace ChecksumTable

/-- A table that remembers only what the program gives, sums included. -/
structure Current (t : ChecksumTable) (p : Program) : Prop extends t.Faithful p where
  places : t.dependency.size = p.size
  sums : ∀ (id : DeclId) known, t.dependency[id.index]? = some (some known) →
    known = p.total? ((CallDependencies.collect p).summands id)

theorem current_blank (p : Program) : (blank p.size).Current p := by
  refine ⟨faithful_blank p, Array.size_replicate, fun id known h => ?_⟩
  have h : (Array.replicate p.size none)[id.index]? = some (some known) := h
  rw [Array.getElem?_replicate] at h
  split at h <;> cases h

variable {t : ChecksumTable} {p : Program}

/-! ### Sums leave own checksums behind, and nothing else -/

@[simp] theorem dependency_checksum (t : ChecksumTable) (p : Program) (id : DeclId) :
    (t.checksum p id).2.dependency = t.dependency := by
  unfold checksum
  split <;> rfl

@[simp] theorem dependency_addAll (t : ChecksumTable) (p : Program) (sum : Checksum)
    (ids : List DeclId) : (t.addAll p sum ids).2.dependency = t.dependency := by
  induction ids generalizing t sum with
  | nil => rfl
  | cons id rest ih =>
    have hfirst := dependency_checksum t p id
    rw [addAll]
    rcases heq : t.checksum p id with ⟨value, t'⟩
    rw [heq] at hfirst
    cases value with
    | none => exact hfirst
    | some part => exact (ih t' (sum + part)).trans hfirst

@[simp] theorem dependency_sumDependencies (t : ChecksumTable) (p : Program)
    (deps : CallDependencies) (id : DeclId) :
    (t.sumDependencies p deps id).2.dependency = t.dependency := by
  have hfirst := dependency_checksum t p id
  rw [sumDependencies]
  rcases heq : t.checksum p id with ⟨value, t'⟩
  rw [heq] at hfirst
  cases value with
  | none => exact hfirst
  | some own => exact (dependency_addAll t' p own _).trans hfirst

theorem Faithful.after_addAll (h : t.Faithful p) (sum : Checksum) (ids : List DeclId) :
    (t.addAll p sum ids).2.Faithful p := by
  induction ids generalizing t sum with
  | nil => exact h
  | cons id rest ih =>
    have hfirst := (h.checksum id).2
    rw [ChecksumTable.addAll]
    rcases heq : t.checksum p id with ⟨value, t'⟩
    rw [heq] at hfirst
    cases value with
    | none => exact hfirst
    | some part => exact ih hfirst (sum + part)

theorem Faithful.after_sumDependencies (h : t.Faithful p) (deps : CallDependencies) (id : DeclId) :
    (t.sumDependencies p deps id).2.Faithful p := by
  have hfirst := (h.checksum id).2
  rw [ChecksumTable.sumDependencies]
  rcases heq : t.checksum p id with ⟨value, t'⟩
  rw [heq] at hfirst
  cases value with
  | none => exact hfirst
  | some own => exact hfirst.after_addAll own _

/-! ### Answers -/

theorem Current.checksum (h : t.Current p) (id : DeclId) : (t.checksum p id).2.Current p := by
  refine ⟨(h.toFaithful.checksum id).2, ?_, ?_⟩
  · rw [dependency_checksum]
    exact h.places
  · rw [dependency_checksum]
    exact h.sums

theorem total?_of_size_le {id : DeclId} (hle : p.size ≤ id.index) (deps : CallDependencies) :
    p.total? (deps.summands id) = none := by
  rw [CallDependencies.summands, Program.total?,
    Program.checksum?_of_get?_none (Array.getElem?_eq_none hle)]
  rfl

/-- What has been remembered already is what would be computed now. -/
theorem Current.dependencyChecksum (h : t.Current p) (id : DeclId) :
    (t.dependencyChecksum p (.collect p) id).1 =
        p.total? ((CallDependencies.collect p).summands id) ∧
      (t.dependencyChecksum p (.collect p) id).2.Current p := by
  unfold ChecksumTable.dependencyChecksum
  split
  · rename_i hslot
    have hle : p.size ≤ id.index := by
      rw [← h.places]
      exact Array.getElem?_eq_none_iff.mp hslot
    exact ⟨(total?_of_size_le hle _).symm, h⟩
  · rename_i known hslot
    exact ⟨h.sums id known hslot, h⟩
  · have hvalue := h.toFaithful.sumDependencies (.collect p) id
    have hdependency := dependency_sumDependencies t p (.collect p) id
    have hfaithful := h.toFaithful.after_sumDependencies (.collect p) id
    rcases heq : t.sumDependencies p (.collect p) id with ⟨sum, t'⟩
    rw [heq] at hvalue hdependency hfaithful
    simp only at hvalue hdependency hfaithful ⊢
    refine ⟨hvalue, ⟨hfaithful.size, hfaithful.own⟩, ?_, fun other known hother => ?_⟩
    · rw [← h.places, ← hdependency]
      exact Array.size_setIfInBounds
    · rw [Array.getElem?_setIfInBounds] at hother
      by_cases hi : id.index = other.index
      · obtain ⟨i⟩ := id
        obtain ⟨j⟩ := other
        cases hi
        rw [if_pos rfl] at hother
        split at hother <;> cases hother
        exact hvalue
      · rw [if_neg hi, hdependency] at hother
        exact h.sums other known hother

end ChecksumTable

end Verdict
