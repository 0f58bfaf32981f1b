import Verdict.Program

/-! The ids of a program, and what replacing a declaration leaves as it was. -/
namespace Verdict.Program

theorem mem_ids_iff (p : Program) (id : DeclId) : id ∈ p.ids ↔ ∃ d, p.get? id = some d := by
  obtain ⟨i⟩ := id
  simp only [ids, List.mem_map, List.mem_range, DeclId.mk.injEq, exists_eq_right, get?, size]
  exact ⟨fun h => ⟨_, Array.getElem?_eq_getElem h⟩,
    fun ⟨_, h⟩ => (Array.getElem?_eq_some_iff.mp h).1⟩

/-- Ids are listed by their places, each once. -/
theorem pairwise_ids (p : Program) : p.ids.Pairwise fun i j => i.index < j.index := by
  rw [ids, List.pairwise_map]
  exact List.pairwise_lt_range

theorem mem_idsWhere_iff (p : Program) (wanted : Declaration → Bool) (id : DeclId) :
    id ∈ p.idsWhere wanted ↔ ∃ d, p.get? id = some d ∧ wanted d = true := by
  rw [idsWhere, List.mem_filter, mem_ids_iff, Option.any_eq_true]
  exact ⟨fun h => h.2, fun ⟨d, hd, hw⟩ => ⟨⟨d, hd⟩, d, hd, hw⟩⟩

theorem nodup_idsWhere (p : Program) (wanted : Declaration → Bool) : (p.idsWhere wanted).Nodup :=
  (p.pairwise_ids.imp fun hlt heq => Nat.ne_of_lt hlt (congrArg _ heq)).filter _

/-- What is gathered from the declarations that satisfy `wanted` is gathered in their order. -/
theorem map_fst_filterMap_ids {β : Type} (p : Program) (wanted : Declaration → Bool)
    (f : DeclId → Declaration → β) :
    (p.ids.filterMap fun id => ((p.get? id).filter wanted).map fun d => (id, f id d)).map Prod.fst =
      p.idsWhere wanted := by
  rw [List.map_filterMap, idsWhere, ← List.filterMap_eq_filter]
  congr 1
  funext id
  cases hd : p.get? id with
  | none => simp [hd, Option.guard]
  | some d => by_cases hw : wanted d = true <;> simp [hd, hw, Option.guard, Option.filter]

theorem mem_filterMap_ids_iff {β : Type} {p : Program} {wanted : Declaration → Bool}
    {f : DeclId → Declaration → β} {id : DeclId} {b : β} :
    (id, b) ∈ p.ids.filterMap (fun id => ((p.get? id).filter wanted).map fun d => (id, f id d)) ↔
      ∃ d, p.get? id = some d ∧ wanted d = true ∧ f id d = b := by
  simp only [List.mem_filterMap, Option.map_eq_some_iff, Option.filter_eq_some_iff, Prod.mk.injEq]
  constructor
  · intro h
    obtain ⟨_, -, d, ⟨hd, hwanted⟩, rfl, hb⟩ := h
    exact ⟨d, hd, hwanted, hb⟩
  · intro h
    obtain ⟨d, hd, hwanted, hb⟩ := h
    exact ⟨id, (p.mem_ids_iff id).mpr ⟨d, hd⟩, d, ⟨hd, hwanted⟩, rfl, hb⟩

theorem countP_range_getElem? {α : Type} (l : List α) (wanted : α → Bool) :
    (List.range l.length).countP (fun i => (l[i]?).any wanted) = l.countP wanted := by
  induction l with
  | nil => rfl
  | cons a rest ih =>
    simp [List.range_succ_eq_map, List.countP_cons, List.countP_map, Function.comp_def, ih]

theorem length_idsWhere (p : Program) (wanted : Declaration → Bool) :
    (p.idsWhere wanted).length = p.decls.toList.countP wanted := by
  rw [idsWhere, ids, ← List.countP_eq_length_filter, List.countP_map,
    ← countP_range_getElem? p.decls.toList, Array.length_toList, size]
  simp only [Function.comp_def, get?, Array.getElem?_toList]

/-- Replacing a declaration changes this one alone, and adds none. -/
theorem get?_replace (p : Program) (id : DeclId) (new : Declaration) (other : DeclId) :
    (p.replace id new).get? other =
      if other = id then (p.get? id).map fun _ => new else p.get? other := by
  obtain ⟨i⟩ := id
  obtain ⟨j⟩ := other
  simp only [replace, get?, Array.getElem?_setIfInBounds, DeclId.mk.injEq]
  by_cases hij : j = i
  · subst hij
    rw [if_pos rfl, if_pos rfl]
    by_cases hlt : j < p.decls.size
    · rw [if_pos hlt, Array.getElem?_eq_getElem hlt]
      rfl
    · rw [if_neg hlt, Array.getElem?_eq_none (by omega)]
      rfl
  · rw [if_neg (Ne.symm hij), if_neg hij]

theorem get?_replace_of_ne {p : Program} {id other : DeclId} (new : Declaration)
    (h : other ≠ id) : (p.replace id new).get? other = p.get? other := by
  rw [get?_replace, if_neg h]

theorem get?_replace_self {p : Program} {id : DeclId} {old : Declaration} (new : Declaration)
    (h : p.get? id = some old) : (p.replace id new).get? id = some new := by
  rw [get?_replace, if_pos rfl, h]
  rfl

end Verdict.Program
