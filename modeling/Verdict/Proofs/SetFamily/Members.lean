import Mathlib.Data.Set.Insert
import Verdict.Proofs.SetFamily.Ranks
import Verdict.Proofs.SetFamily.Tree

/-! Which sets a family has.

`members` reads the list of a family's sets as sets. Adding a set makes it one more of them
(`members_add`): the new path spells the set, and the paths that were there spell what they
spelled before, because an element keeps its rank. -/
namespace Verdict.SetFamily
variable {α : Type}

/-- Every rank on a path has an element. -/
def Ranked (f : SetFamily α) : Prop :=
  ∀ path ∈ f.branches.paths, ∀ r ∈ path, r < f.elements.length

theorem ranked_empty : (∅ : SetFamily α).Ranked := by
  intro path h
  cases h

/-- The sets of a family, as sets. -/
def members (f : SetFamily α) : Set (Set α) := {s | ∃ set ∈ f.sets, s = {x | x ∈ set}}

theorem members_empty : (∅ : SetFamily α).members = ∅ := by
  ext s
  simp [members, sets, EmptyCollection.emptyCollection, Branches.paths]

/-- A member is empty, or is what one of the paths spells. -/
theorem mem_members_iff (f : SetFamily α) (s : Set α) :
    s ∈ f.members ↔ (f.holdsEmpty = true ∧ s = ∅) ∨
      ∃ path ∈ f.branches.paths, s = {x | ∃ r ∈ path, f.elements[r]? = some x} := by
  cases hholds : f.holdsEmpty <;> simp [members, sets, hholds, List.mem_filterMap]

variable [DecidableEq α]

theorem mem_paths_add_iff (f : SetFamily α) (set : List α) (path : List Nat) :
    path ∈ (f.add set).branches.paths ↔
      (set ≠ [] ∧ path = ranks (rankAll f.elements set) set) ∨ path ∈ f.branches.paths := by
  by_cases h : set = []
  · subst h
    simp [add, ranks_nil, Branches.insert_nil]
  · simp only [add]
    rw [Branches.mem_paths_insert_iff _ _ (ranks_ne_nil _ h)]
    simp [h]

theorem Ranked.add {f : SetFamily α} (hf : f.Ranked) (set : List α) : (f.add set).Ranked := by
  intro path hpath r hr
  show r < (rankAll f.elements set).length
  rcases (mem_paths_add_iff f set path).mp hpath with ⟨_, rfl⟩ | hpath
  · obtain ⟨x, _, hx⟩ := (mem_ranks_iff ..).mp hr
    exact (List.getElem?_eq_some_iff.mp (getElem?_of_idxOf? hx)).1
  · obtain ⟨new, hnew⟩ := rankAll_eq_append f.elements set
    have := hf path hpath r hr
    rw [hnew, List.length_append]
    omega

/-- What was spelled before is spelled as before. -/
theorem spelled_rankAll {f : SetFamily α} (hf : f.Ranked) (set : List α) {path : List Nat}
    (hpath : path ∈ f.branches.paths) :
    {x | ∃ r ∈ path, (rankAll f.elements set)[r]? = some x} =
      {x | ∃ r ∈ path, f.elements[r]? = some x} := by
  ext x
  refine exists_congr fun r => and_congr_right fun hr => ?_
  rw [getElem?_rankAll _ _ (hf path hpath r hr)]

/-- The ranks of a set spell it. -/
theorem spelled_ranks (elements set : List α) :
    {x | ∃ r ∈ ranks (rankAll elements set) set, (rankAll elements set)[r]? = some x} =
      {x | x ∈ set} := by
  ext x
  constructor
  · intro h
    obtain ⟨r, hr, hx⟩ := h
    obtain ⟨y, hy, hget⟩ := (mem_ranks_iff ..).mp hr
    obtain rfl := Option.some.inj ((getElem?_of_idxOf? hget).symm.trans hx)
    exact hy
  · intro hx
    obtain ⟨r, hr⟩ := exists_idxOf? ((mem_rankAll_iff elements set x).mpr (.inr hx))
    exact ⟨r, (mem_ranks_iff ..).mpr ⟨x, hx, hr⟩, getElem?_of_idxOf? hr⟩

theorem members_add {f : SetFamily α} (hf : f.Ranked) (set : List α) :
    (f.add set).members = insert {x | x ∈ set} f.members := by
  ext s
  have hholds : (f.add set).holdsEmpty = (f.holdsEmpty || set.isEmpty) := rfl
  have helements : (f.add set).elements = rankAll f.elements set := rfl
  rw [mem_members_iff, Set.mem_insert_iff, mem_members_iff, hholds, helements]
  constructor
  · intro h
    rcases h with ⟨hempty, rfl⟩ | ⟨path, hpath, rfl⟩
    · rcases (Bool.or_eq_true ..).mp hempty with hempty | hempty
      · exact .inr (.inl ⟨hempty, rfl⟩)
      · rw [List.isEmpty_iff.mp hempty]
        exact .inl (by simp)
    · rcases (mem_paths_add_iff f set path).mp hpath with ⟨_, rfl⟩ | hpath
      · exact .inl (spelled_ranks f.elements set)
      · exact .inr (.inr ⟨path, hpath, spelled_rankAll hf set hpath⟩)
  · intro h
    rcases h with rfl | ⟨hempty, rfl⟩ | ⟨path, hpath, rfl⟩
    · by_cases hset : set = []
      · exact .inl ⟨by simp [hset], by simp [hset]⟩
      · exact .inr ⟨_, (mem_paths_add_iff f set _).mpr (.inl ⟨hset, rfl⟩),
          (spelled_ranks f.elements set).symm⟩
    · exact .inl ⟨by rw [hempty, Bool.true_or], rfl⟩
    · exact .inr ⟨path, (mem_paths_add_iff f set path).mpr (.inr hpath),
        (spelled_rankAll hf set hpath).symm⟩

/-- The family of some sets. -/
def ofSets (sets : List (List α)) : SetFamily α := sets.foldl add ∅

theorem members_foldl_add {f : SetFamily α} (hf : f.Ranked) (sets : List (List α)) :
    (sets.foldl add f).members = {s | ∃ set ∈ sets, s = {x | x ∈ set}} ∪ f.members := by
  induction sets generalizing f with
  | nil => simp
  | cons set sets ih =>
    rw [List.foldl_cons, ih (hf.add set), members_add hf]
    ext s
    simp only [Set.mem_union, Set.mem_ofPred_eq, Set.mem_insert_iff, List.mem_cons,
      exists_eq_or_imp]
    exact or_left_comm.trans or_assoc.symm

/-- **The members of a family are the sets that it was made of.** -/
theorem members_ofSets (sets : List (List α)) :
    (ofSets sets).members = {s | ∃ set ∈ sets, s = {x | x ∈ set}} := by
  rw [ofSets, members_foldl_add ranked_empty, members_empty, Set.union_empty]

end Verdict.SetFamily
