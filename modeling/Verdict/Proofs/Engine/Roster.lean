import Verdict.Engine.Roster
import Verdict.Proofs.Cache

/-! Who counts after a run has begun or ended. -/
namespace Verdict.Roster
variable {r : Roster} {name other : String} {g g' : Nat}

/-- A run that begins counts from then on for its name, and for no other. -/
theorem current?_enter : (r.enter name).2.current? other =
    if other = name then some (r.generation + 1) else r.current? other := by
  show ((name, r.generation + 1) :: r.others name).lookup other = _
  rw [List.lookup_cons]
  by_cases h : other = name
  · rw [beq_iff_eq.mpr h, if_pos h]
  · rw [beq_eq_false_iff_ne.mpr h, if_neg h]
    show (r.current.filter (·.1 ≠ name)).lookup other = _
    rw [lookup_filter_ne, if_neg h]
    rfl

/-- Who counts after a run has ended has counted before. -/
theorem current?_of_leave (h : (r.leave name g).current? other = some g') :
    r.current? other = some g' := by
  unfold leave at h
  split at h
  · have h : (r.current.filter (·.1 ≠ name)).lookup other = some g' := h
    rw [lookup_filter_ne] at h
    split at h
    · cases h
    · exact h
  · exact h

@[simp] theorem superseded_leave : (r.leave name g).superseded = r.superseded := by
  unfold leave
  split <;> rfl

@[simp] theorem generation_leave : (r.leave name g).generation = r.generation := by
  unfold leave
  split <;> rfl

end Verdict.Roster
