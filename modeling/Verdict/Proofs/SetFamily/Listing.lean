import Mathlib.Data.List.Permutation
import Verdict.Proofs.SetFamily.Members

/-! How a family lists its sets.

A path is listed once, and whether it is there can be looked up; that is what the size of a family
is counted by. An element keeps its rank and a rank its element, so that a listing is determined by
the set that it is of: it holds the members in the order in which they were first seen
(`Formed.listed`). -/
namespace Verdict.SetFamily
variable {α : Type}

theorem sets_eq (f : SetFamily α) : f.sets = (if f.holdsEmpty then [[]] else []) ++
    f.branches.paths.map fun path => path.filterMap (f.elements[·]?) := rfl

theorem length_sets (f : SetFamily α) :
    f.sets.length = (if f.holdsEmpty then 1 else 0) + f.branches.paths.length := by
  rw [sets_eq, List.length_append, List.length_map]
  cases f.holdsEmpty <;> rfl

/-! ### Paths and what they spell -/

/-- The ranks of the elements that satisfy `p` spell these elements. -/
theorem filterMap_filter_range (elements : List α) (p : α → Bool) :
    ((List.range elements.length).filter fun r => (elements[r]?).any p).filterMap (elements[·]?) =
      elements.filter p := by
  induction elements with
  | nil => rfl
  | cons x rest ih =>
    rw [List.length_cons, List.range_succ_eq_map, List.filter_cons, List.filter_map,
      List.filter_cons]
    by_cases hx : p x = true <;> simp [hx, List.filterMap_map, Function.comp_def, ih]

/-- A listing is empty, or is what a path spells. -/
theorem mem_sets_iff {f : SetFamily α} {l : List α} :
    l ∈ f.sets ↔ (f.holdsEmpty = true ∧ l = []) ∨
      ∃ path ∈ f.branches.paths, path.filterMap (f.elements[·]?) = l := by
  rw [sets_eq, List.mem_append, List.mem_map]
  cases f.holdsEmpty <;> simp

variable [DecidableEq α]

/-- A path can be told from what it spells. -/
theorem map_idxOf_filterMap {elements : List α} (h : elements.Nodup) {path : List Nat}
    (hpath : ∀ r ∈ path, r < elements.length) :
    (path.filterMap (elements[·]?)).map (elements.idxOf ·) = path := by
  induction path with
  | nil => rfl
  | cons r rest ih =>
    obtain ⟨hr, hrest⟩ := List.forall_mem_cons.mp hpath
    rw [List.filterMap_cons_some (List.getElem?_eq_getElem hr), List.map_cons, ih hrest,
      h.idxOf_getElem r hr]

/-- What was spelled before is spelled as before, element by element. -/
theorem filterMap_rankAll {f : SetFamily α} (hf : f.Ranked) (set : List α) {path : List Nat}
    (hpath : path ∈ f.branches.paths) :
    path.filterMap ((rankAll f.elements set)[·]?) = path.filterMap (f.elements[·]?) :=
  List.filterMap_congr fun r hr => getElem?_rankAll _ _ (hf path hpath r hr)

/-! ### The order of the elements -/

theorem eraseDups_concat (l : List α) (x : α) :
    (l ++ [x]).eraseDups = if x ∈ l then l.eraseDups else l.eraseDups ++ [x] := by
  rw [List.eraseDups_append]
  by_cases hx : x ∈ l <;> simp [List.removeAll, hx, List.eraseDups_cons]

/-- Elements are ranked as they are first met. -/
theorem rankAll_eraseDups (l set : List α) : rankAll l.eraseDups set = (l ++ set).eraseDups := by
  induction set generalizing l with
  | nil => simp [rankAll]
  | cons x set ih =>
    have hcons : l ++ x :: set = l ++ [x] ++ set := by simp
    rw [rankAll_cons, hcons, ← ih, eraseDups_concat]
    simp only [List.mem_eraseDups]

theorem elements_foldl_add {f : SetFamily α} {l : List α} (h : f.elements = l.eraseDups)
    (sets : List (List α)) : (sets.foldl add f).elements = (l ++ sets.flatten).eraseDups := by
  induction sets generalizing f l with
  | nil => simpa using h
  | cons set sets ih =>
    rw [List.foldl_cons, List.flatten_cons, ← List.append_assoc]
    apply ih
    show rankAll f.elements set = _
    rw [h, rankAll_eraseDups]

/-! ### One more set -/

/-- What is listed after a set has been added: the set, in the order of the elements, and what was
listed before. -/
theorem mem_sets_add_iff {f : SetFamily α} (hnodup : f.elements.Nodup) (hf : f.Ranked)
    (set l : List α) :
    l ∈ (f.add set).sets ↔ l = (rankAll f.elements set).filter (· ∈ set) ∨ l ∈ f.sets := by
  have hholds : (f.add set).holdsEmpty = true ↔ f.holdsEmpty = true ∨ set = [] := by
    rw [← List.isEmpty_iff]
    exact iff_of_eq (Bool.or_eq_true ..)
  have helements : (f.add set).elements = rankAll f.elements set := rfl
  have hnew : (ranks (rankAll f.elements set) set).filterMap ((rankAll f.elements set)[·]?) =
      (rankAll f.elements set).filter (· ∈ set) := by
    rw [ranks_eq_filter (nodup_rankAll hnodup set), filterMap_filter_range]
  rw [mem_sets_iff, mem_sets_iff, hholds, helements]
  constructor
  · intro h
    rcases h with ⟨hempty | rfl, rfl⟩ | ⟨path, hpath, rfl⟩
    · exact .inr (.inl ⟨hempty, rfl⟩)
    · exact .inl (by simp)
    · rcases (mem_paths_add_iff f set path).mp hpath with ⟨-, rfl⟩ | hpath
      · exact .inl hnew
      · exact .inr (.inr ⟨path, hpath, (filterMap_rankAll hf set hpath).symm⟩)
  · intro h
    rcases h with rfl | ⟨hempty, rfl⟩ | ⟨path, hpath, rfl⟩
    · by_cases hset : set = []
      · exact .inl ⟨.inr hset, by simp [hset]⟩
      · exact .inr ⟨_, (mem_paths_add_iff f set _).mpr (.inl ⟨hset, rfl⟩), hnew⟩
    · exact .inl ⟨.inl hempty, rfl⟩
    · exact .inr ⟨path, (mem_paths_add_iff f set path).mpr (.inr hpath),
        filterMap_rankAll hf set hpath⟩

/-- Nothing that was listed is listed otherwise, or elsewhere. -/
theorem sublist_sets_add {f : SetFamily α} (hf : f.Ranked) (set : List α) :
    f.sets.Sublist (f.add set).sets := by
  have hsame : (f.branches.paths.map fun path => path.filterMap (f.elements[·]?)) =
      f.branches.paths.map fun path => path.filterMap ((rankAll f.elements set)[·]?) :=
    List.map_congr_left fun path hpath => (filterMap_rankAll hf set hpath).symm
  rw [sets_eq, sets_eq, hsame]
  refine List.Sublist.append ?_ ((Branches.sublist_paths_insert _ f.branches).map _)
  show (if f.holdsEmpty then [[]] else []).Sublist
    (if f.holdsEmpty || set.isEmpty then [[]] else [])
  cases f.holdsEmpty with
  | false => exact List.nil_sublist _
  | true => exact .refl _

/-- How a family stands after any additions. -/
structure Formed (f : SetFamily α) : Prop where
  nodup : f.elements.Nodup
  ranked : f.Ranked
  ascending : f.branches.Ascending
  /-- The ranks along a path ascend, too. -/
  climbing : ∀ path ∈ f.branches.paths, path.Pairwise (· < ·)
  /-- A listed set holds its members in the order of the elements. -/
  listed : ∀ l ∈ f.sets, f.elements.filter (· ∈ l) = l
  size : f.size = f.sets.length

theorem formed_empty : (∅ : SetFamily α).Formed where
  nodup := .nil
  ranked := ranked_empty
  ascending := .nil
  climbing := nofun
  listed := nofun
  size := rfl

theorem Formed.add {f : SetFamily α} (h : f.Formed) (set : List α) : (f.add set).Formed where
  nodup := nodup_rankAll h.nodup set
  ranked := h.ranked.add set
  ascending := h.ascending.insert _
  climbing path hpath := by
    rcases (mem_paths_add_iff f set path).mp hpath with ⟨-, rfl⟩ | hpath
    · exact pairwise_ranks _ set
    · exact h.climbing path hpath
  listed l hl := by
    show (rankAll f.elements set).filter (· ∈ l) = l
    rcases (mem_sets_add_iff h.nodup h.ranked set l).mp hl with rfl | hl
    · refine List.filter_congr fun x hx => decide_eq_decide.mpr ?_
      rw [List.mem_filter, decide_eq_true_eq]
      exact and_iff_right hx
    · -- An element that is new is in no set that was listed before.
      obtain ⟨new, hnew⟩ := rankAll_eq_append f.elements set
      have hnodup := nodup_rankAll h.nodup set
      rw [hnew] at hnodup ⊢
      have hnone : new.filter (· ∈ l) = [] := by
        refine List.filter_eq_nil_iff.mpr fun x hx hxl => ?_
        rw [decide_eq_true_eq, ← h.listed l hl] at hxl
        exact (List.nodup_append'.mp hnodup).2.2 (List.mem_of_mem_filter hxl) hx
      rw [List.filter_append, hnone, List.append_nil, h.listed l hl]
  size := by
    have hsize := h.size
    rw [length_sets] at hsize ⊢
    show (if f.holds (ranks (rankAll f.elements set) set) then f.size else f.size + 1) =
      (if f.holdsEmpty || set.isEmpty then 1 else 0) +
        (f.branches.insert (ranks (rankAll f.elements set) set)).paths.length
    by_cases hset : set = []
    · subst hset
      rw [ranks_nil, Branches.insert_nil, holds, hsize]
      cases f.holdsEmpty with
      | false => simp; omega
      | true => simp
    · have hne := ranks_ne_nil f.elements hset
      have hset : set.isEmpty = false := List.isEmpty_eq_false_iff.mpr hset
      rw [h.ascending.length_paths_insert hne, holds, List.isEmpty_eq_false_iff.mpr hne, hset,
        hsize, Bool.or_false, if_neg Bool.false_ne_true]
      split <;> omega

theorem Formed.foldl_add {f : SetFamily α} (h : f.Formed) (sets : List (List α)) :
    (sets.foldl SetFamily.add f).Formed := by
  induction sets generalizing f with
  | nil => exact h
  | cons set sets ih => exact ih (h.add set)

theorem Formed.eq_of_mem_iff {f : SetFamily α} (h : f.Formed) {l l' : List α} (hl : l ∈ f.sets)
    (hl' : l' ∈ f.sets) (hsame : ∀ x, x ∈ l ↔ x ∈ l') : l = l' := by
  rw [← h.listed l hl, ← h.listed l' hl']
  exact List.filter_congr fun x _ => decide_eq_decide.mpr (hsame x)

/-- What two paths spell is different. -/
theorem Formed.filterMap_inj {f : SetFamily α} (h : f.Formed) {path path' : List Nat}
    (hpath : ∀ r ∈ path, r < f.elements.length) (hpath' : ∀ r ∈ path', r < f.elements.length)
    (heq : path.filterMap (f.elements[·]?) = path'.filterMap (f.elements[·]?)) : path = path' := by
  rw [← map_idxOf_filterMap h.nodup hpath, heq, map_idxOf_filterMap h.nodup hpath']

theorem Formed.nodup_sets {f : SetFamily α} (h : f.Formed) : f.sets.Nodup := by
  rw [sets_eq]
  refine List.nodup_append'.mpr ⟨?_, ?_, ?_⟩
  · cases f.holdsEmpty <;> simp
  · exact h.ascending.nodup_paths.map_on fun path hpath path' hpath' =>
      h.filterMap_inj (h.ranked path hpath) (h.ranked path' hpath')
  · intro l hl hmem
    have hnil : l = [] := by
      cases hholds : f.holdsEmpty <;> simp_all
    obtain ⟨path, hpath, rfl⟩ := List.mem_map.mp hmem
    obtain rfl : path = [] := h.filterMap_inj (h.ranked path hpath) nofun hnil
    exact Branches.nil_notMem_paths _ hpath

/-! ### A history of additions -/

/-- One addition to a family: of a set, given by its elements in any order and any number, or
of a single element. -/
inductive Addition (α : Type)
  | set (elements : List α)
  | single (element : α)

/-- The elements of what is added. -/
def Addition.elements : Addition α → List α
  | set elements => elements
  | single element => [element]

def Addition.apply (f : SetFamily α) : Addition α → SetFamily α
  | set elements => f.add elements
  | single element => f.addSingleton element

/-- What a new family has become after these additions. -/
def after (additions : List (Addition α)) : SetFamily α := additions.foldl Addition.apply ∅

/-- The sets that these additions add, as sets. -/
def added (additions : List (Addition α)) : Set (Set α) :=
  {set | ∃ addition ∈ additions, set = {x | x ∈ addition.elements}}

theorem after_eq_ofSets (additions : List (Addition α)) :
    after additions = ofSets (additions.map Addition.elements) := by
  rw [ofSets, List.foldl_map]
  refine congrArg (fun apply => additions.foldl apply ∅) (funext fun f => funext fun addition => ?_)
  cases addition <;> rfl

theorem formed_after (additions : List (Addition α)) : (after additions).Formed := by
  rw [after_eq_ofSets]
  exact formed_empty.foldl_add _

/-- The elements that are added, in the order in which they are added for the first time. -/
def firstAdded (additions : List (Addition α)) : List α :=
  (additions.flatMap Addition.elements).eraseDups

theorem elements_after (additions : List (Addition α)) :
    (after additions).elements = firstAdded additions := by
  rw [after_eq_ofSets, ofSets, elements_foldl_add (l := []) rfl, List.nil_append, firstAdded,
    List.flatMap_def]

theorem sublist_sets_foldl_add {f : SetFamily α} (hf : f.Ranked) (sets : List (List α)) :
    f.sets.Sublist (sets.foldl add f).sets := by
  induction sets generalizing f with
  | nil => exact .refl _
  | cons set sets ih => exact (sublist_sets_add hf set).trans (ih (hf.add set))

/-- What was listed is listed still, in the same order. -/
theorem sublist_sets_after (additions later : List (Addition α)) :
    (after additions).sets.Sublist (after (additions ++ later)).sets := by
  have hranked := (formed_after additions).ranked
  rw [after_eq_ofSets, ofSets] at hranked
  rw [after_eq_ofSets, after_eq_ofSets, ofSets, ofSets, List.map_append, List.foldl_append]
  exact sublist_sets_foldl_add hranked _

/-- The listed sets are those that were added. -/
theorem mem_map_sets_after_iff (additions : List (Addition α)) (s : Set α) :
    s ∈ (after additions).sets.map (fun l => {x | x ∈ l}) ↔ s ∈ added additions := by
  have hmembers : s ∈ (after additions).sets.map (fun l => {x | x ∈ l}) ↔
      s ∈ (after additions).members := by
    rw [List.mem_map]
    exact exists_congr fun l => and_congr_right fun _ => eq_comm
  rw [hmembers, after_eq_ofSets, members_ofSets]
  simp [added]

omit [DecidableEq α] in
/-- Nothing is added only if there is no addition; that of the empty set adds one. -/
theorem forall_notMem_added_iff (additions : List (Addition α)) :
    (∀ s, s ∉ added additions) ↔ additions = [] := by
  constructor
  · intro h
    exact List.eq_nil_iff_forall_not_mem.mpr fun addition hmem => h _ ⟨addition, hmem, rfl⟩
  · intro h s hs
    obtain ⟨addition, hmem, -⟩ := hs
    rw [h] at hmem
    cases hmem

theorem nodup_map_sets_after (additions : List (Addition α)) :
    ((after additions).sets.map fun l => {x | x ∈ l}).Nodup :=
  (formed_after additions).nodup_sets.map_on fun _ hl _ hl' heq =>
    (formed_after additions).eq_of_mem_iff hl hl' (Set.ext_iff.mp heq)

/-- **A family lists each set that was added to it once**, and no others, however often and in
whatever form it was added. A listing holds each member once, in the order in which the elements
were added for the first time, and is not changed by what is added later. How many sets there are
is counted along, and a family is empty only if nothing at all was added, not even the empty set. -/
theorem sets_after (additions : List (Addition α)) :
    ((after additions).sets.map fun l => {x | x ∈ l}).Nodup ∧
    (∀ s, s ∈ (after additions).sets.map (fun l => {x | x ∈ l}) ↔ s ∈ added additions) ∧
    (∀ l ∈ (after additions).sets, l.Nodup ∧ l.Sublist (firstAdded additions)) ∧
    (after additions).size = (after additions).sets.length ∧
    ((after additions).isEmpty = true ↔ additions = []) ∧
    ∀ later, (after additions).sets.Sublist (after (additions ++ later)).sets ∧
      ∀ l ∈ (after (additions ++ later)).sets, {x | x ∈ l} ∈ added additions →
        l ∈ (after additions).sets := by
  have hformed := formed_after additions
  refine ⟨nodup_map_sets_after additions, mem_map_sets_after_iff additions, fun l hl => ?_,
    hformed.size, ?_, fun later => ⟨sublist_sets_after additions later, fun l hl hadded => ?_⟩⟩
  · rw [← elements_after, ← hformed.listed l hl]
    exact ⟨hformed.nodup.filter _, List.filter_sublist⟩
  · rw [isEmpty, hformed.size, decide_eq_true_eq, List.length_eq_zero_iff,
      ← List.map_eq_nil_iff (f := fun l => {x | x ∈ l}), List.eq_nil_iff_forall_not_mem]
    simp only [mem_map_sets_after_iff]
    exact forall_notMem_added_iff additions
  · obtain ⟨l', hl', heq⟩ := List.mem_map.mp ((mem_map_sets_after_iff additions _).mpr hadded)
    have hthere := (sublist_sets_after additions later).subset hl'
    have hsame := (formed_after (additions ++ later)).eq_of_mem_iff hthere hl (Set.ext_iff.mp heq)
    rwa [← hsame]

/-- The first set is added once more, written otherwise, and one that has an element in common with
it; it is listed as it was. -/
theorem sets_after_overlapping :
    (after ([.set ["B", "A", "A"], .single "C"] ++ [.set ["A", "B"], .set ["C", "B"]])).sets =
        [["C"], ["B", "C"], ["B", "A"]] ∧
      {x | x ∈ ["B", "A"]} ∈ added [.set ["B", "A", "A"], .single "C"] ∧
      ["B", "A"] ∈ (after [.set ["B", "A", "A"], .single "C"]).sets ∧
      ["B", "A"].Nodup ∧ ["B", "A"].Sublist (firstAdded [.set ["B", "A", "A"], .single "C"]) ∧
      (after [.set ["B", "A", "A"], .single "C"]).size = 2 := by
  have hsets : (after ([.set ["B", "A", "A"], .single "C"] ++
      [.set ["A", "B"], .set ["C", "B"]])).sets = [["C"], ["B", "C"], ["B", "A"]] := by cbv
  have hadded : {x | x ∈ ["B", "A"]} ∈ added [.set ["B", "A", "A"], .single "C"] := by
    refine ⟨.set ["B", "A", "A"], List.mem_cons_self, ?_⟩
    ext x
    simp [Addition.elements]
  obtain ⟨-, -, hlisted, -, -, hlater⟩ := sets_after [.set ["B", "A", "A"], .single "C"]
  have hmem : ["B", "A"] ∈ (after [.set ["B", "A", "A"], .single "C"]).sets :=
    (hlater _).2 _ (by rw [hsets]; decide) hadded
  exact ⟨hsets, hadded, hmem, (hlisted _ hmem).1, (hlisted _ hmem).2, by cbv⟩

end Verdict.SetFamily
