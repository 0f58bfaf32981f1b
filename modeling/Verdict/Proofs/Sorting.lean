import Mathlib.Data.List.Nodup

/-! What sorting keeps.

`mergeSort` is stable: of two elements that may stand in either order the one that stood first
stands first. So a list that was in some order is afterwards in the new order and, where that does
not decide, in the old one (`pairwise_mergeSort_stable`). -/
namespace Verdict

/-- The places ascend. -/
theorem pairwise_zipIdx {α : Type} (l : List α) : l.zipIdx.Pairwise fun x y => x.2 < y.2 := by
  rw [← List.pairwise_map (R := fun i j : Nat => i < j), List.zipIdx_map_snd]
  exact List.pairwise_lt_range'

theorem nodup_zipIdx {α : Type} (l : List α) : l.zipIdx.Nodup := by
  refine (pairwise_zipIdx l).imp ?_
  rintro x _ hlt rfl
  exact Nat.lt_irrefl _ hlt

/-- After sorting, the old order decides between elements that the new one does not tell apart. -/
theorem pairwise_mergeSort_stable {α : Type} {le : α → α → Bool} {before : α → α → Prop}
    (trans : ∀ a b c, le a b = true → le b c = true → le a c = true)
    (total : ∀ a b, (le a b || le b a) = true) {l : List α} (h : l.Pairwise before) :
    (l.mergeSort le).Pairwise fun a b => le a b = true ∧ (le b a = true → before a b) := by
  -- The sort may as well be of pairs with their places, which are all different.
  rw [← List.mergeSort_zipIdx, List.pairwise_map]
  have hsorted := List.pairwise_mergeSort (List.zipIdxLE_trans trans) (List.zipIdxLE_total total)
    l.zipIdx
  have hnodup : (l.zipIdx.mergeSort (List.zipIdxLE le)).Nodup :=
    (List.mergeSort_perm _ _).nodup_iff.mpr (nodup_zipIdx l)
  refine (hsorted.and hnodup).imp_of_mem ?_
  rintro ⟨a, i⟩ ⟨b, j⟩ ha hb ⟨hle, hne⟩
  rw [List.mem_mergeSort, List.mk_mem_zipIdx_iff_getElem?] at ha hb
  rw [List.zipIdxLE] at hle
  by_cases hab : le a b = true
  case neg => rw [if_neg hab] at hle; cases hle
  rw [if_pos hab] at hle
  refine ⟨hab, fun hba => ?_⟩
  rw [if_pos hba, decide_eq_true_iff] at hle
  have hplaces : i ≠ j := by
    rintro rfl
    exact hne (Prod.ext (Option.some.inj (ha.symm.trans hb)) rfl)
  obtain ⟨hi, rfl⟩ := List.getElem?_eq_some_iff.mp ha
  obtain ⟨hj, rfl⟩ := List.getElem?_eq_some_iff.mp hb
  exact List.pairwise_iff_getElem.mp h i j hi hj (Nat.lt_of_le_of_ne hle hplaces)

end Verdict
