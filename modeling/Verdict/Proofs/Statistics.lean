import Mathlib.Algebra.BigOperators.Group.List.Basic
import Mathlib.Algebra.GroupWithZero.Nat
import Verdict.Statistics

/-! Counts add up, in whatever order.

To record a run is to add what that run alone counts for (`record_eq_add`). Addition is
commutative, so the counts of a batch are the sum over its runs and do not tell in which order
the runs ended. -/
namespace Verdict

namespace Tally

instance : Zero Tally := ⟨zero⟩

instance : Add Tally := ⟨fun a b =>
  ⟨a.verified + b.verified, a.errors + b.errors, a.inconclusive + b.inconclusive,
    a.timedOut + b.timedOut, a.outOfResource + b.outOfResource, a.outOfMemory + b.outOfMemory,
    a.solverExceptions + b.solverExceptions⟩⟩

theorem add_def (a b : Tally) : a + b =
    ⟨a.verified + b.verified, a.errors + b.errors, a.inconclusive + b.inconclusive,
      a.timedOut + b.timedOut, a.outOfResource + b.outOfResource, a.outOfMemory + b.outOfMemory,
      a.solverExceptions + b.solverExceptions⟩ := rfl

theorem zero_def : (0 : Tally) = ⟨0, 0, 0, 0, 0, 0, 0⟩ := rfl

instance : AddCancelCommMonoid Tally where
  add_assoc a b c := by simp only [add_def, Nat.add_assoc]
  zero_add a := by simp only [add_def, zero_def, Nat.zero_add]
  add_zero a := by simp only [add_def, zero_def, Nat.add_zero]
  add_comm a b := by simp only [add_def, Nat.add_comm]
  add_left_cancel a b c h := by
    obtain ⟨_, _, _, _, _, _, _⟩ := b
    obtain ⟨_, _, _, _, _, _, _⟩ := c
    simpa only [add_def, mk.injEq, Nat.add_left_cancel_iff] using h
  nsmul := nsmulRec

theorem record_eq_add (t : Tally) (outcome : Outcome) (errors : Nat) :
    t.record outcome errors = t + record 0 outcome errors := by
  cases outcome <;> simp [record, add_def, zero_def]

/-- Nothing but verified implementations is counted. -/
def Unfailed (t : Tally) : Prop :=
  t.errors = 0 ∧ t.inconclusive = 0 ∧ t.timedOut = 0 ∧ t.outOfResource = 0 ∧ t.outOfMemory = 0 ∧
    t.solverExceptions = 0

theorem unfailed_add_iff {s t : Tally} : (s + t).Unfailed ↔ s.Unfailed ∧ t.Unfailed := by
  simp only [Unfailed, add_def]
  omega

/-- Of the outcomes that are no success, only that of errors may count for nothing. -/
theorem unfailed_record_iff {outcome : Outcome} {errors : Nat} :
    (record 0 outcome errors).Unfailed ↔
      outcome = .correct ∨ outcome = .reachedBound ∨ (outcome = .errors ∧ errors = 0) := by
  cases outcome <;> simp [Unfailed, record, zero_def]

end Tally

namespace Statistics

instance : Zero Statistics := ⟨zero⟩

instance : Add Statistics := ⟨fun a b => ⟨a.all + b.all, a.cached + b.cached⟩⟩

theorem add_def (a b : Statistics) : a + b = ⟨a.all + b.all, a.cached + b.cached⟩ := rfl

theorem zero_def : (0 : Statistics) = ⟨0, 0⟩ := rfl

instance : AddCancelCommMonoid Statistics where
  add_assoc a b c := by simp only [add_def, add_assoc]
  zero_add a := by simp only [add_def, zero_def, zero_add]
  add_zero a := by simp only [add_def, zero_def, add_zero]
  add_comm a b := by simp only [add_def, add_comm]
  add_left_cancel a b c h := by
    obtain ⟨_, _⟩ := b
    obtain ⟨_, _⟩ := c
    simpa only [add_def, mk.injEq, add_right_inj] using h
  nsmul := nsmulRec

/-- What one run counts for. -/
def ofRun (r : Result) : Statistics := record 0 r.outcome r.errorCount r.wasCached

theorem record_eq_add (s : Statistics) (r : Result) :
    s.record r.outcome r.errorCount r.wasCached = s + ofRun r := by
  unfold ofRun record
  rw [add_def, Tally.record_eq_add s.all]
  cases r.wasCached with
  | true =>
    rw [if_pos rfl, if_pos rfl, Tally.record_eq_add s.cached]
    rfl
  | false =>
    show (⟨_, s.cached⟩ : Statistics) = ⟨_, s.cached + 0⟩
    rw [add_zero]
    rfl

theorem unfailed_sum_iff (rs : List Result) :
    (rs.map ofRun).sum.all.Unfailed ↔ ∀ r ∈ rs, (ofRun r).all.Unfailed := by
  induction rs with
  | nil => exact ⟨nofun, fun _ => ⟨rfl, rfl, rfl, rfl, rfl, rfl⟩⟩
  | cons r rest ih =>
    rw [List.map_cons, List.sum_cons, List.forall_mem_cons, ← ih]
    exact Tally.unfailed_add_iff

/-- Where all is served from the cache, all is counted as cached. -/
theorem cached_sum {rs : List Result} (h : ∀ r ∈ rs, r.wasCached = true) :
    (rs.map ofRun).sum.cached = (rs.map ofRun).sum.all := by
  induction rs with
  | nil => rfl
  | cons r rest ih =>
    have hown : (ofRun r).cached = (ofRun r).all := by
      rw [ofRun, record, if_pos (h r List.mem_cons_self)]
      rfl
    rw [List.map_cons, List.sum_cons, add_def, hown, ih fun q hq => h q (List.mem_cons_of_mem _ hq)]

end Statistics

theorem Result.errorCount_eq_zero_iff {r : Result} :
    r.errorCount = 0 ↔ ∀ c ∈ r.counterexamples, c.auxiliary = true := by
  simp [errorCount, errors, List.filter_eq_nil_iff]

theorem sum_map_eq_zero {α M : Type} [AddCommMonoid M] {f : α → M} {l : List α}
    (h : ∀ (i : Nat) a, l[i]? = some a → f a = 0) : (l.map f).sum = 0 := by
  apply List.sum_eq_zero
  intro m hm
  obtain ⟨a, ha, rfl⟩ := List.mem_map.mp hm
  obtain ⟨i, hi⟩ := List.mem_iff_getElem?.mp ha
  exact h i a hi

/-- A sum after one of its summands has changed. -/
theorem sum_map_set {α M : Type} [AddCommMonoid M] (f : α → M) {l : List α} {i : Nat} {a : α}
    (h : l[i]? = some a) (b : α) : ((l.set i b).map f).sum + f a = (l.map f).sum + f b := by
  induction l generalizing i with
  | nil => cases h
  | cons c rest ih =>
    cases i with
    | zero =>
      cases h
      simp only [List.set_cons_zero, List.map_cons, List.sum_cons]
      rw [add_right_comm, add_comm (f b), add_right_comm]
    | succ i =>
      simp only [List.set_cons_succ, List.map_cons, List.sum_cons]
      rw [add_assoc, ih h, add_assoc]

end Verdict
