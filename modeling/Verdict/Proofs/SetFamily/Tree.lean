import Mathlib.Data.List.Nodup
import Verdict.SetFamily

/-! Prefix trees.

A tree means its list of paths, and adding a path adds just that one (`mem_paths_insert_iff`). The
branches below a path stand by ascending rank (`Branches.Ascending`), and an insertion looks for the
place of a rank among them. So a path has one place in the tree, it is listed once, and whether it
is there can be looked up (`Ascending.holds_iff`). -/
namespace Verdict.Branches

theorem insert_nil (t : Branches) : insert [] t = t := by
  rw [insert]

/-- The paths are those that there were and the one that is added. -/
theorem mem_paths_insert_iff (path : List Nat) (t : Branches) (hne : path ≠ []) (q : List Nat) :
    q ∈ (insert path t).paths ↔ q = path ∨ q ∈ t.paths := by
  fun_induction insert path t generalizing q with
  | case1 => exact absurd rfl hne
  | case2 r rest ih =>
    cases rest with
    | nil => simp [insert_nil, paths]
    | cons r' rest => grind [paths]
  | case3 r rest q' ends below next hlt ih =>
    cases rest with
    | nil => grind [insert_nil, paths]
    | cons r' rest => grind [paths]
  | case4 rest q' ends below next hlt ih =>
    cases rest with
    | nil => grind [insert_nil, paths]
    | cons r' rest => grind [paths]
  | case5 r rest q' ends below next hlt heq ih => grind [paths]

/-- The ranks of the siblings. -/
def ranks : Branches → List Nat
  | nil => []
  | cons rank _ _ next => rank :: next.ranks

/-- Siblings stand by ascending rank, at every depth. -/
inductive Ascending : Branches → Prop
  | nil : Ascending nil
  | cons {rank : Nat} {ends : Bool} {below next : Branches} : (∀ q ∈ next.ranks, rank < q) →
      below.Ascending → next.Ascending → Ascending (cons rank ends below next)

variable {t : Branches} {path rest : List Nat} {r : Nat}

theorem exists_of_mem_paths (h : path ∈ t.paths) : ∃ r rest, path = r :: rest ∧ r ∈ t.ranks := by
  induction t with
  | nil => cases h
  | cons rank ends below next _ ihNext =>
    rw [paths, List.mem_append, List.mem_append, List.mem_map] at h
    rcases h with (h | h) | ⟨rest, -, rfl⟩
    · obtain ⟨r, rest, rfl, hr⟩ := ihNext h
      exact ⟨r, rest, rfl, List.mem_cons_of_mem _ hr⟩
    · cases ends with
      | false => cases h
      | true => exact ⟨rank, [], List.mem_singleton.mp h, List.mem_cons_self⟩
    · exact ⟨rank, rest, rfl, List.mem_cons_self⟩

/-- A path is listed once. -/
theorem Ascending.nodup_paths (h : t.Ascending) : t.paths.Nodup := by
  induction h with
  | nil => exact .nil
  | @cons rank ends below next hranks _ _ ihBelow ihNext =>
    have hbelow : (below.paths.map (rank :: ·)).Nodup :=
      ihBelow.map fun _ _ heq => (List.cons.inj heq).2
    have hends : ((if ends then [[rank]] else []) ++ below.paths.map (rank :: ·)).Nodup := by
      cases ends with
      | false => exact hbelow
      | true =>
        refine List.nodup_cons.mpr ⟨fun hmem => ?_, hbelow⟩
        obtain ⟨path, hpath, heq⟩ := List.mem_map.mp hmem
        obtain ⟨r, rest, rfl, -⟩ := exists_of_mem_paths hpath
        cases heq
    rw [paths, List.append_assoc]
    refine List.nodup_append'.mpr ⟨ihNext, hends, fun path hpath hmem => ?_⟩
    -- What is listed for the siblings begins with a higher rank.
    obtain ⟨r, rest, rfl, hr⟩ := exists_of_mem_paths hpath
    have hlt := hranks r hr
    obtain rfl : r = rank := by
      rcases List.mem_append.mp hmem with hmem | hmem
      · cases ends with
        | false => cases hmem
        | true => exact (List.cons.inj (List.mem_singleton.mp hmem)).1
      · obtain ⟨path, -, heq⟩ := List.mem_map.mp hmem
        exact (List.cons.inj heq).1.symm
    exact Nat.lt_irrefl _ hlt

theorem mem_ranks_insert_iff (r : Nat) (rest : List Nat) (t : Branches) (q : Nat) :
    q ∈ (insert (r :: rest) t).ranks ↔ q = r ∨ q ∈ t.ranks := by
  induction t with
  | nil => simp [insert, ranks]
  | cons rank ends below next _ ihNext =>
    rw [insert]
    split
    · simp [ranks]
    · split
      · rename_i heq
        simp [ranks, heq]
      · simp only [ranks, List.mem_cons, ihNext]
        exact or_left_comm

theorem Ascending.insert (h : t.Ascending) (path : List Nat) : (t.insert path).Ascending := by
  fun_induction Branches.insert path t with
  | case1 => exact h
  | case2 r rest ih => exact .cons (fun q hq => absurd hq List.not_mem_nil) (ih .nil) .nil
  | case3 r rest q ends below next hlt ih =>
    cases h with
    | cons hranks hbelow hnext =>
      refine .cons (fun p hp => ?_) (ih .nil) (.cons hranks hbelow hnext)
      rcases List.mem_cons.mp hp with rfl | hp
      · exact hlt
      · exact Nat.lt_trans hlt (hranks p hp)
  | case4 rest q ends below next hlt ih =>
    cases h with
    | cons hranks hbelow hnext => exact .cons hranks (ih hbelow) hnext
  | case5 r rest q ends below next hlt hne ih =>
    cases h with
    | cons hranks hbelow hnext =>
      refine .cons (fun p hp => ?_) hbelow (ih hnext)
      rcases (mem_ranks_insert_iff r rest next p).mp hp with rfl | hp
      · omega
      · exact hranks p hp

theorem nil_notMem_paths (t : Branches) : [] ∉ t.paths := by
  intro h
  obtain ⟨r, rest, heq, -⟩ := exists_of_mem_paths h
  cases heq

theorem mem_paths_cons_iff {rank : Nat} {ends : Bool} {below next : Branches} :
    r :: rest ∈ (cons rank ends below next).paths ↔
      r :: rest ∈ next.paths ∨ r = rank ∧ (ends = true ∧ rest = [] ∨ rest ∈ below.paths) := by
  cases ends with
  | false => simp [paths, eq_comm, and_comm]
  | true =>
    simp only [paths, List.mem_append, List.mem_map, List.cons.injEq, if_true, List.mem_singleton]
    grind

/-- Looking up a path tells whether it is in the tree. -/
theorem Ascending.holds_iff (h : t.Ascending) (path : List Nat) :
    t.holds path = true ↔ path ∈ t.paths := by
  induction h generalizing path with
  | nil => simp [holds, paths]
  | @cons rank ends below next hranks _ _ ihBelow ihNext =>
    cases path with
    | nil => simp [holds, nil_notMem_paths]
    | cons r rest =>
      rw [holds, mem_paths_cons_iff]
      by_cases heq : r = rank
      · subst heq
        have hnext : r :: rest ∉ next.paths := by
          intro hmem
          obtain ⟨q, _, heq, hq⟩ := exists_of_mem_paths hmem
          cases heq
          exact Nat.lt_irrefl _ (hranks r hq)
        cases rest with
        | nil => simp [hnext, nil_notMem_paths]
        | cons q rest => simp [hnext, ihBelow]
      · simp [heq, ihNext]

/-- An insertion leaves the paths that there were in their order. -/
theorem sublist_paths_insert (path : List Nat) (t : Branches) :
    t.paths.Sublist (t.insert path).paths := by
  fun_induction Branches.insert path t with
  | case1 => exact .refl _
  | case2 => exact List.nil_sublist _
  | case3 r rest q ends below next hlt ih =>
    show (cons q ends below next).paths.Sublist ((cons q ends below next).paths ++ _ ++ _)
    exact (List.sublist_append_left _ _).trans (List.sublist_append_left _ _)
  | case4 rest q ends below next hlt ih =>
    refine ((List.Sublist.refl _).append ?_).append (ih.map _)
    cases ends with
    | false => exact List.nil_sublist _
    | true => exact .refl _
  | case5 r rest q ends below next hlt hne ih => exact (ih.append (.refl _)).append (.refl _)

/-- One path more is listed, unless it was there. -/
theorem Ascending.length_paths_insert (h : t.Ascending) (hne : path ≠ []) :
    (t.insert path).paths.length = if t.holds path then t.paths.length else t.paths.length + 1 := by
  have hmem := mem_paths_insert_iff path t hne
  split
  · rename_i hholds
    have hthere := (h.holds_iff path).mp hholds
    have hperm : (t.insert path).paths.Perm t.paths :=
      (List.perm_ext_iff_of_nodup (h.insert path).nodup_paths h.nodup_paths).mpr fun q => by
        rw [hmem]
        exact or_iff_right_of_imp fun heq => heq ▸ hthere
    exact hperm.length_eq
  · rename_i hholds
    have hnew : path ∉ t.paths := mt (h.holds_iff path).mpr hholds
    have hperm : (t.insert path).paths.Perm (path :: t.paths) :=
      (List.perm_ext_iff_of_nodup (h.insert path).nodup_paths
        (List.nodup_cons.mpr ⟨hnew, h.nodup_paths⟩)).mpr fun q => by rw [hmem, List.mem_cons]
    rw [hperm.length_eq, List.length_cons]

end Verdict.Branches
