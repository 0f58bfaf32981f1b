import Verdict.Proofs.SetFamily.Listing

/-! What a family of sets answers.

A search goes through the ranks of a candidate from the lowest on, and from a place in the tree it
goes on with the ranks that are left. So it finds the paths that are sublists of these ranks
(`search_iff`), and it finds nothing else. What is wanted are the paths that run through wanted
ranks only (`hasPathWithin`), in whatever order. The ranks along a path ascend, and those of a
candidate as well, so that one is the other (`hasSubsetOf_eq_hasPathWithin`): neither the ranks
that are passed over nor those that come before them are missed. A family therefore contains a
subset of a candidate exactly if one of the sets that were added is one (`hasSubsetOf_after`). -/
namespace Verdict

namespace Branches

/-- Whether some path runs through wanted ranks only. -/
def hasPathWithin (wanted : Nat → Bool) : Branches → Bool
  | nil => false
  | cons rank ends below next =>
    (wanted rank && (ends || below.hasPathWithin wanted)) || next.hasPathWithin wanted

theorem hasPathWithin_iff (wanted : Nat → Bool) (t : Branches) :
    t.hasPathWithin wanted = true ↔ ∃ path ∈ t.paths, ∀ r ∈ path, wanted r = true := by
  induction t with
  | nil => simp [hasPathWithin, paths]
  | cons rank ends below next ihBelow ihNext =>
    simp only [hasPathWithin, paths, Bool.or_eq_true, Bool.and_eq_true, ihBelow, ihNext,
      List.mem_append, List.mem_map, or_and_right, exists_or]
    constructor
    · intro h
      rcases h with ⟨hr, he | ⟨path, hp, hw⟩⟩ | h
      · exact .inl (.inr ⟨[rank], by simp [he], by simpa using hr⟩)
      · exact .inr ⟨rank :: path, ⟨path, hp, rfl⟩, by simpa using ⟨hr, hw⟩⟩
      · exact .inl (.inl h)
    · intro h
      rcases h with (h | ⟨path, hp, hw⟩) | ⟨_, ⟨path, hp, rfl⟩, hw⟩
      · exact .inr h
      · cases ends with
        | false => simp at hp
        | true =>
          obtain rfl : path = [rank] := by simpa using hp
          exact .inl ⟨hw rank List.mem_cons_self, .inl rfl⟩
      · obtain ⟨hr, hw⟩ := List.forall_mem_cons.mp hw
        exact .inl ⟨hr, .inr ⟨path, hp, hw⟩⟩

end Branches

namespace Place
variable {p child : Place} {ranks path : List Nat} {start n r : Nat} {stack : List (Place × Nat)}

/-- Whether a path that begins here ends in the tree. -/
def holds (p : Place) (path : List Nat) : Bool := if path.isEmpty then p.ends else p.below.holds path

theorem holds_cons (p : Place) (r : Nat) (path : List Nat) :
    p.holds (r :: path) = (p.below.child? r).any (·.holds path) := by
  show p.below.holds (r :: path) = _
  induction p.below with
  | nil => rfl
  | cons q ends below next _ ih =>
    rw [Branches.holds, Branches.child?]
    split
    · rfl
    · exact ih

theorem mem_onward_iff : (child, n) ∈ p.onward ranks start ↔
    ∃ i r, start ≤ i ∧ ranks[i]? = some r ∧ p.below.child? r = some child ∧ n = i + 1 := by
  have hmem : ∀ i r, (r, i) ∈ (ranks.drop start).zipIdx start ↔ start ≤ i ∧ ranks[i]? = some r := by
    intro i r
    rw [List.mk_mem_zipIdx_iff_le_and_getElem?_sub]
    refine and_congr_right fun hle => ?_
    rw [List.getElem?_drop, Nat.add_sub_cancel' hle]
  simp only [onward, List.mem_filterMap, Prod.exists, hmem, Option.map_eq_some_iff, Prod.mk.injEq]
  constructor
  · rintro ⟨r, i, ⟨hle, hr⟩, _, hchild, rfl, rfl⟩
    exact ⟨i, r, hle, hr, hchild, rfl⟩
  · rintro ⟨i, r, hle, hr, hchild, rfl⟩
    exact ⟨r, i, ⟨hle, hr⟩, child, hchild, rfl, rfl⟩

/-- What a sublist begins with stands somewhere, and the others behind it. -/
theorem cons_sublist_iff_exists {l : List Nat} : (r :: path).Sublist l ↔
    ∃ i, l[i]? = some r ∧ path.Sublist (l.drop (i + 1)) := by
  induction l with
  | nil => simp
  | cons q l ih =>
    rw [List.cons_sublist_cons', ih]
    constructor
    · rintro (⟨i, hr, hsub⟩ | ⟨rfl, hsub⟩)
      · exact ⟨i + 1, hr, hsub⟩
      · exact ⟨0, rfl, hsub⟩
    · rintro ⟨i, hr, hsub⟩
      cases i with
      | zero => exact .inr ⟨(Option.some.inj hr).symm, hsub⟩
      | succ i => exact .inl ⟨i, hr, hsub⟩

theorem cons_sublist_drop_iff : (r :: path).Sublist (ranks.drop start) ↔
    ∃ i, start ≤ i ∧ ranks[i]? = some r ∧ path.Sublist (ranks.drop (i + 1)) := by
  rw [cons_sublist_iff_exists]
  simp only [List.getElem?_drop, List.drop_drop]
  constructor
  · rintro ⟨i, hr, hsub⟩
    exact ⟨start + i, Nat.le_add_right _ _, hr, hsub⟩
  · rintro ⟨i, hle, hr, hsub⟩
    obtain ⟨j, rfl⟩ := Nat.exists_eq_add_of_le hle
    exact ⟨j, hr, hsub⟩

/-- From a place on, a path is found by the first of its ranks. -/
theorem exists_holds_iff : (∃ path, path.Sublist (ranks.drop start) ∧ p.holds path = true) ↔
    p.ends = true ∨ ∃ x ∈ p.onward ranks start,
      ∃ path, path.Sublist (ranks.drop x.2) ∧ x.1.holds path = true := by
  constructor
  · rintro ⟨path, hsub, hholds⟩
    cases path with
    | nil => exact .inl hholds
    | cons r path =>
      obtain ⟨i, hle, hr, hsub⟩ := cons_sublist_drop_iff.mp hsub
      rw [holds_cons] at hholds
      obtain ⟨child, hchild, hholds⟩ := (Option.any_eq_true ..).mp hholds
      exact .inr ⟨_, mem_onward_iff.mpr ⟨i, r, hle, hr, hchild, rfl⟩, path, hsub, hholds⟩
  · rintro (hends | ⟨⟨child, n⟩, hx, path, hsub, hholds⟩)
    · exact ⟨[], List.nil_sublist _, hends⟩
    · obtain ⟨i, r, hle, hr, hchild, rfl⟩ := mem_onward_iff.mp hx
      refine ⟨r :: path, cons_sublist_drop_iff.mpr ⟨i, hle, hr, hsub⟩, ?_⟩
      rw [holds_cons]
      exact (Option.any_eq_true ..).mpr ⟨child, hchild, hholds⟩

/-- A search finds the paths that are sublists of the ranks that are left. -/
theorem search_iff : search ranks stack = true ↔
    ∃ x ∈ stack, ∃ path, path.Sublist (ranks.drop x.2) ∧ x.1.holds path = true := by
  fun_induction search ranks stack with
  | case1 => simp
  | case2 p start stack hends =>
    refine iff_of_true rfl ⟨(p, start), List.mem_cons_self, exists_holds_iff.mpr (.inl hends)⟩
  | case3 p start stack hends ih =>
    rw [ih]
    simp only [List.mem_cons, List.mem_append, List.mem_reverse, or_and_right, exists_or,
      exists_eq_left]
    rw [exists_holds_iff, or_iff_right hends]

end Place

namespace SetFamily
variable {α : Type} [DecidableEq α] {f : SetFamily α} {candidate candidate' : List α}

theorem hasSubsetOf_iff_exists_sublist : f.hasSubsetOf candidate = true ↔
    f.size ≠ 0 ∧ ∃ path, path.Sublist (ranks f.elements candidate) ∧ f.holds path = true := by
  rw [hasSubsetOf]
  split
  · rename_i hsize
    exact iff_of_false Bool.false_ne_true fun h => h.1 hsize
  · rename_i hsize
    rw [Place.search_iff, and_iff_right hsize]
    simp only [List.mem_singleton, exists_eq_left]
    rfl

/-- What is contained in a candidate is contained in a larger one, whatever the tree is like. -/
theorem hasSubsetOf_mono (hsub : candidate ⊆ candidate') (h : f.hasSubsetOf candidate = true) :
    f.hasSubsetOf candidate' = true := by
  obtain ⟨hsize, path, hpath, hholds⟩ := hasSubsetOf_iff_exists_sublist.mp h
  have hranks : (ranks f.elements candidate).Sublist (ranks f.elements candidate') := by
    refine sublist_of_ascending (pairwise_ranks ..) (pairwise_ranks ..) fun r hr => ?_
    obtain ⟨x, hx, hr⟩ := (mem_ranks_iff ..).mp hr
    exact (mem_ranks_iff ..).mpr ⟨x, hsub hx, hr⟩
  exact hasSubsetOf_iff_exists_sublist.mpr ⟨hsize, path, hpath.trans hranks, hholds⟩

theorem Formed.holds_iff (h : f.Formed) (path : List Nat) :
    f.holds path = true ↔ (f.holdsEmpty = true ∧ path = []) ∨ path ∈ f.branches.paths := by
  cases path with
  | nil => simp [holds, Branches.nil_notMem_paths]
  | cons r path => simp [holds, h.ascending.holds_iff]

theorem Formed.size_ne_zero (h : f.Formed) {path : List Nat} (hholds : f.holds path = true) :
    f.size ≠ 0 := by
  rw [h.size, length_sets]
  rcases (h.holds_iff path).mp hholds with ⟨hempty, -⟩ | hpath
  · rw [hempty, if_pos rfl]
    omega
  · have hlength := List.length_pos_of_mem hpath
    omega

/-- The search along the ranks of a candidate finds whatever runs through them. -/
theorem Formed.hasSubsetOf_eq_hasPathWithin (h : f.Formed) (candidate : List α) :
    f.hasSubsetOf candidate = (f.holdsEmpty ||
      f.branches.hasPathWithin fun r => r ∈ ranks f.elements candidate) := by
  rw [Bool.eq_iff_iff, hasSubsetOf_iff_exists_sublist, Bool.or_eq_true, Branches.hasPathWithin_iff]
  constructor
  · rintro ⟨-, path, hsub, hholds⟩
    rcases (h.holds_iff path).mp hholds with ⟨hempty, -⟩ | hpath
    · exact .inl hempty
    · exact .inr ⟨path, hpath, fun r hr => decide_eq_true (hsub.subset hr)⟩
  · -- Both ascend, so that the ranks of the path come in their turn.
    have hfound : ∀ path, f.holds path = true → path.Sublist (ranks f.elements candidate) →
        f.size ≠ 0 ∧ ∃ path, path.Sublist (ranks f.elements candidate) ∧ f.holds path = true :=
      fun path hholds hsub => ⟨h.size_ne_zero hholds, path, hsub, hholds⟩
    rintro (hempty | ⟨path, hpath, hwithin⟩)
    · exact hfound [] ((h.holds_iff []).mpr (.inl ⟨hempty, rfl⟩)) (List.nil_sublist _)
    · exact hfound path ((h.holds_iff path).mpr (.inr hpath)) (sublist_of_ascending
        (h.climbing path hpath) (pairwise_ranks ..) fun r hr => of_decide_eq_true (hwithin r hr))

/-- Asking for the ranks on a path is asking for the elements that it spells. -/
theorem Formed.forall_mem_ranks_iff (h : f.Formed) {path : List Nat}
    (hpath : path ∈ f.branches.paths) : (∀ r ∈ path, r ∈ ranks f.elements candidate) ↔
      ∀ x, (∃ r ∈ path, f.elements[r]? = some x) → x ∈ candidate := by
  constructor
  · rintro hranks x ⟨r, hr, hx⟩
    obtain ⟨y, hy, hrank⟩ := (mem_ranks_iff ..).mp (hranks r hr)
    exact Option.some.inj ((getElem?_of_idxOf? hrank).symm.trans hx) ▸ hy
  · intro hspelled r hr
    have hx : f.elements[r]? = some _ := List.getElem?_eq_getElem (h.ranked path hpath r hr)
    exact (mem_ranks_iff ..).mpr ⟨_, hspelled _ ⟨r, hr, hx⟩, idxOf?_eq_some_of_nodup h.nodup hx⟩

theorem Formed.hasSubsetOf_iff (h : f.Formed) (candidate : List α) :
    f.hasSubsetOf candidate = true ↔ ∃ s ∈ f.members, s ⊆ {x | x ∈ candidate} := by
  rw [h.hasSubsetOf_eq_hasPathWithin, Bool.or_eq_true, Branches.hasPathWithin_iff]
  simp only [mem_members_iff, decide_eq_true_eq]
  constructor
  · rintro (hempty | ⟨path, hpath, hranks⟩)
    · exact ⟨∅, .inl ⟨hempty, rfl⟩, Set.empty_subset _⟩
    · exact ⟨_, .inr ⟨path, hpath, rfl⟩, (h.forall_mem_ranks_iff hpath).mp hranks⟩
  · rintro ⟨s, ⟨hempty, -⟩ | ⟨path, hpath, rfl⟩, hsub⟩
    · exact .inl hempty
    · exact .inr ⟨path, hpath, (h.forall_mem_ranks_iff hpath).mpr hsub⟩

/-- A family contains a subset of a candidate exactly if one of its sets is one. -/
theorem hasSubsetOf_ofSets_iff (sets : List (List α)) (candidate : List α) :
    (ofSets sets).hasSubsetOf candidate = true ↔ ∃ set ∈ sets, ∀ x ∈ set, x ∈ candidate := by
  rw [ofSets, (formed_empty.foldl_add sets).hasSubsetOf_iff, ← ofSets, members_ofSets]
  constructor
  · rintro ⟨_, ⟨set, hset, rfl⟩, hsub⟩
    exact ⟨set, hset, fun x hx => hsub hx⟩
  · rintro ⟨set, hset, hsub⟩
    exact ⟨_, ⟨set, hset, rfl⟩, hsub⟩

theorem hasSubsetOf_after_iff (additions : List (Addition α)) (candidate : List α) :
    (after additions).hasSubsetOf candidate = true ↔
      ∃ set ∈ added additions, set ⊆ {x | x ∈ candidate} := by
  rw [after_eq_ofSets, hasSubsetOf_ofSets_iff]
  constructor
  · intro h
    obtain ⟨elements, hmem, hsub⟩ := h
    obtain ⟨addition, haddition, rfl⟩ := List.mem_map.mp hmem
    exact ⟨_, ⟨addition, haddition, rfl⟩, hsub⟩
  · intro h
    obtain ⟨_, ⟨addition, haddition, rfl⟩, hsub⟩ := h
    exact ⟨_, List.mem_map_of_mem haddition, hsub⟩

/-- **A family answers as the sets that were added to it**: it contains a subset of a candidate
exactly if one of these sets is one. So two histories that add the same sets, in whatever order
and written however, answer alike. -/
theorem hasSubsetOf_after (additions : List (Addition α)) (candidate : List α) :
    ((after additions).hasSubsetOf candidate = true ↔
      ∃ set ∈ added additions, set ⊆ {x | x ∈ candidate}) ∧
    ∀ (additions' : List (Addition α)) (candidate' : List α), added additions' = added additions →
      (∀ x, x ∈ candidate' ↔ x ∈ candidate) →
      (after additions').hasSubsetOf candidate' = (after additions).hasSubsetOf candidate := by
  refine ⟨hasSubsetOf_after_iff additions candidate, fun additions' candidate' hadded hcandidate => ?_⟩
  rw [Bool.eq_iff_iff, hasSubsetOf_after_iff, hasSubsetOf_after_iff, hadded,
    show {x | x ∈ candidate'} = {x | x ∈ candidate} from Set.ext hcandidate]

/-- The same two sets in another order, one of them with an element written twice. -/
theorem hasSubsetOf_after_reordered :
    added [.single "C", .set ["B", "A", "A"]] = added [.set ["A", "B"], .single "C"] ∧
      (∀ x, x ∈ ["D", "A", "B", "D"] ↔ x ∈ ["A", "B", "D"]) ∧
      (after [.single "C", .set ["B", "A", "A"]]).hasSubsetOf ["D", "A", "B", "D"] =
        (after [.set ["A", "B"], .single "C"]).hasSubsetOf ["A", "B", "D"] ∧
      (after [.set ["A", "B"], .single "C"]).hasSubsetOf ["A", "B", "D"] = true ∧
      (after [.set ["A", "B"], .single "C"]).hasSubsetOf ["A", "D"] = false := by
  have hadded : added [.single "C", .set ["B", "A", "A"]] = added [.set ["A", "B"], .single "C"] := by
    ext set
    simp [added, Addition.elements, or_comm]
  have hcandidate : ∀ x, x ∈ ["D", "A", "B", "D"] ↔ x ∈ ["A", "B", "D"] := by
    intro x
    simp [or_comm, or_left_comm]
  exact ⟨hadded, hcandidate, (hasSubsetOf_after _ _).2 _ _ hadded hcandidate, by cbv, by cbv⟩

end SetFamily

end Verdict
