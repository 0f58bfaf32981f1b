import Mathlib.Data.List.Sort
import Verdict.SetFamily

/-! The ranks of elements.

An element is ranked when it is first met (`rankAll`), and keeps its rank. The ranks of a set are
looked up, sorted and taken once each, so that they ascend strictly, in whatever order and however
often its elements are given (`pairwise_ranks`, `mem_ranks_iff`). -/
namespace Verdict.SetFamily

/-! ### Ascending ranks -/

variable {l l' : List Nat}

theorem mem_eraseRepeats (r : Nat) (l : List Nat) : r ∈ eraseRepeats l ↔ r ∈ l := by
  fun_induction eraseRepeats l with
  | case1 q rest ih => rw [ih, List.mem_cons (a := r) (b := q) (l := q :: rest), List.mem_cons, or_self_left]
  | case2 q p rest hne ih => rw [List.mem_cons, ih, List.mem_cons (b := q)]
  | case3 => rfl

theorem pairwise_eraseRepeats (h : l.Pairwise (· ≤ ·)) : (eraseRepeats l).Pairwise (· < ·) := by
  fun_induction eraseRepeats l with
  | case1 q rest ih => exact ih h.of_cons
  | case2 q p rest hne ih =>
    refine List.pairwise_cons.mpr ⟨fun r hr => ?_, ih h.of_cons⟩
    obtain ⟨hfirst, hrest⟩ := List.pairwise_cons.mp h
    have hle : p ≤ r := by
      rcases List.mem_cons.mp ((mem_eraseRepeats r _).mp hr) with rfl | hr
      · exact Nat.le_refl _
      · exact List.rel_of_pairwise_cons hrest hr
    exact Nat.lt_of_lt_of_le (Nat.lt_of_le_of_ne (hfirst p List.mem_cons_self) hne) hle
  | case3 short hshort =>
    cases short with
    | nil => exact .nil
    | cons r rest =>
      cases rest with
      | nil => exact List.pairwise_singleton _ r
      | cons q rest => exact absurd rfl (hshort r q rest)

/-- What ascends has an order of its own: it is a sublist as soon as it is a part. -/
theorem sublist_of_ascending (h : l.Pairwise (· < ·)) (h' : l'.Pairwise (· < ·)) (hsub : l ⊆ l') :
    l.Sublist l' :=
  List.sublist_of_subperm_of_pairwise (List.subperm_of_subset (h.imp Nat.ne_of_lt) hsub) h h'

theorem eq_of_ascending (h : l.Pairwise (· < ·)) (h' : l'.Pairwise (· < ·))
    (hsame : ∀ r, r ∈ l ↔ r ∈ l') : l = l' :=
  (sublist_of_ascending h h' fun r hr => (hsame r).mp hr).antisymm
    (sublist_of_ascending h' h fun r hr => (hsame r).mpr hr)

/-! ### Elements and their ranks -/

variable {α : Type} [DecidableEq α] {elements set : List α}

theorem rankAll_cons (elements set : List α) (x : α) : rankAll elements (x :: set) =
    rankAll (if x ∈ elements then elements else elements ++ [x]) set := rfl

theorem rankAll_eq_append (elements set : List α) : ∃ new, rankAll elements set = elements ++ new := by
  induction set generalizing elements with
  | nil => exact ⟨[], by simp [rankAll]⟩
  | cons x set ih =>
    obtain ⟨new, h⟩ := ih (if x ∈ elements then elements else elements ++ [x])
    rw [rankAll_cons, h]
    split
    · exact ⟨new, rfl⟩
    · exact ⟨x :: new, by simp⟩

/-- Elements that were there keep their ranks. -/
theorem getElem?_rankAll (elements set : List α) {r : Nat} (h : r < elements.length) :
    (rankAll elements set)[r]? = elements[r]? := by
  obtain ⟨new, hnew⟩ := rankAll_eq_append elements set
  rw [hnew, List.getElem?_append_left h]

theorem mem_rankAll_iff (elements set : List α) (x : α) :
    x ∈ rankAll elements set ↔ x ∈ elements ∨ x ∈ set := by
  induction set generalizing elements with
  | nil => simp [rankAll]
  | cons y set ih =>
    rw [rankAll_cons, ih]
    split
    · grind
    · grind

theorem nodup_rankAll (h : elements.Nodup) (set : List α) : (rankAll elements set).Nodup := by
  induction set generalizing elements with
  | nil => exact h
  | cons x set ih =>
    rw [rankAll_cons]
    apply ih
    split
    · exact h
    · rename_i hx
      exact List.nodup_append'.mpr ⟨h, List.nodup_singleton x, by simpa using hx⟩

theorem getElem?_of_idxOf? {x : α} {r : Nat} (h : elements.idxOf? x = some r) :
    elements[r]? = some x := by
  obtain ⟨hr, heq, -⟩ := List.idxOf?_eq_some_iff.mp h
  rw [List.getElem?_eq_getElem hr, heq]

theorem exists_idxOf? {x : α} (h : x ∈ elements) : ∃ r, elements.idxOf? x = some r :=
  Option.isSome_iff_exists.mp (List.isSome_idxOf?.mpr h)

theorem pairwise_ranks (elements set : List α) : (ranks elements set).Pairwise (· < ·) := by
  refine pairwise_eraseRepeats ((List.pairwise_mergeSort ?_ ?_ _).imp of_decide_eq_true)
  · intro a b c hab hbc
    exact decide_eq_true (Nat.le_trans (of_decide_eq_true hab) (of_decide_eq_true hbc))
  · intro a b
    simp [Nat.le_total]

theorem mem_ranks_iff (elements set : List α) (r : Nat) :
    r ∈ ranks elements set ↔ ∃ x ∈ set, elements.idxOf? x = some r := by
  rw [ranks, mem_eraseRepeats, List.mem_mergeSort, List.mem_filterMap]

theorem ranks_nil (elements : List α) : ranks elements [] = [] :=
  List.eq_nil_iff_forall_not_mem.mpr fun r hr => by simp [mem_ranks_iff] at hr

theorem ranks_ne_nil (elements : List α) (h : set ≠ []) :
    ranks (rankAll elements set) set ≠ [] := by
  obtain ⟨x, hx⟩ := List.exists_mem_of_ne_nil set h
  obtain ⟨r, hr⟩ := exists_idxOf? ((mem_rankAll_iff elements set x).mpr (.inr hx))
  exact List.ne_nil_of_mem ((mem_ranks_iff ..).mpr ⟨x, hx, hr⟩)

/-- Where no element is listed twice, the rank of an element is its only place. -/
theorem idxOf?_eq_some_of_nodup (h : elements.Nodup) {x : α} {r : Nat}
    (hx : elements[r]? = some x) : elements.idxOf? x = some r := by
  obtain ⟨q, hq⟩ := exists_idxOf? (List.mem_of_getElem? hx)
  have hget := getElem?_of_idxOf? hq
  have hsame : q = r :=
    (List.getElem?_inj (List.getElem?_eq_some_iff.mp hget).1 h).mp (hget.trans hx.symm)
  rw [hq, hsame]

/-- The ranks of a set are the places at which its elements are listed. -/
theorem ranks_eq_filter (h : elements.Nodup) (set : List α) : ranks elements set =
    (List.range elements.length).filter fun r => (elements[r]?).any (· ∈ set) := by
  refine eq_of_ascending (pairwise_ranks elements set) (List.pairwise_lt_range.filter _) fun r => ?_
  rw [mem_ranks_iff, List.mem_filter, List.mem_range, Option.any_eq_true]
  constructor
  · rintro ⟨x, hx, hr⟩
    have hget := getElem?_of_idxOf? hr
    exact ⟨(List.getElem?_eq_some_iff.mp hget).1, x, hget, decide_eq_true hx⟩
  · rintro ⟨-, x, hget, hx⟩
    exact ⟨x, of_decide_eq_true hx, idxOf?_eq_some_of_nodup h hget⟩

end Verdict.SetFamily
