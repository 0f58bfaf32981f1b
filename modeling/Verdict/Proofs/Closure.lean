import Verdict.Closure

/-! What a search finds.

`mem_reach_iff` says that `reach` finds exactly the least set that holds the seeds and what
they lead to, whatever cycles there are: each find leaves the domain, and what could be
reached through it can be reached from what it leads to. `nodup_reach` says that nothing is
found twice. -/
namespace Verdict.Closure
variable {α : Type} {next : α → List α} {domain rest seeds : List α} {a b : α}

theorem Reached.mem_domain (h : Reached next domain seeds b) : b ∈ domain := by
  cases h <;> assumption

theorem Reached.mono {seeds' : List α} (hseeds : seeds ⊆ seeds')
    (h : Reached next domain seeds b) : Reached next domain seeds' b := by
  induction h with
  | seed hs hd => exact .seed (hseeds hs) hd
  | step _ hb hd ih => exact .step ih hb hd

variable [DecidableEq α]

/-- What is reached once `a` has been taken out was reached through `a` or past it. -/
theorem Reached.of_erase (ha : a ∈ domain)
    (h : Reached next (domain.erase a) (rest ++ next a) b) : Reached next domain (a :: rest) b := by
  induction h with
  | seed hs hd =>
    have hd := List.mem_of_mem_erase hd
    rcases List.mem_append.mp hs with hs | hs
    · exact .seed (List.mem_cons_of_mem a hs) hd
    · exact .step (.seed List.mem_cons_self ha) hs hd
  | step _ hb hd ih => exact .step ih hb (List.mem_of_mem_erase hd)

/-- What is reached and is not `a` can be reached without coming back to `a`. -/
theorem Reached.erase (h : Reached next domain (a :: rest) b) :
    b = a ∨ Reached next (domain.erase a) (rest ++ next a) b := by
  induction h with
  | @seed b hs hd =>
    by_cases hba : b = a
    · exact .inl hba
    · have hs := List.mem_of_ne_of_mem hba hs
      exact .inr (.seed (List.mem_append_left _ hs) ((List.mem_erase_of_ne hba).mpr hd))
  | @step b c _ hc hd ih =>
    by_cases hca : c = a
    · exact .inl hca
    · have hd := (List.mem_erase_of_ne hca).mpr hd
      rcases ih with rfl | ih
      · exact .inr (.seed (List.mem_append_right _ hc) hd)
      · exact .inr (.step ih hc hd)

omit [DecidableEq α] in
/-- A seed outside the domain leads nowhere. -/
theorem Reached.cons_iff_of_notMem (ha : a ∉ domain) :
    Reached next domain (a :: rest) b ↔ Reached next domain rest b := by
  constructor
  · intro h
    induction h with
    | seed hs hd =>
      refine .seed (List.mem_of_ne_of_mem ?_ hs) hd
      intro h
      subst h
      exact ha hd
    | step _ hb hd ih => exact .step ih hb hd
  · intro h
    induction h with
    | seed hs hd => exact .seed (List.mem_cons_of_mem a hs) hd
    | step _ hb hd ih => exact .step ih hb hd

/-- **A search finds exactly what is reached.** -/
theorem mem_reach_iff (next : α → List α) (domain pending : List α) (b : α) :
    b ∈ reach next domain pending ↔ Reached next domain pending b := by
  fun_induction reach next domain pending with
  | case1 domain =>
    constructor
    · intro h; cases h
    · intro h
      induction h with
      | seed hs _ => cases hs
      | step _ _ _ ih => cases ih
  | case2 domain a rest ha ih =>
    rw [List.mem_cons, ih]
    constructor
    · intro h
      rcases h with rfl | h
      · exact .seed List.mem_cons_self ha
      · exact h.of_erase ha
    · exact Reached.erase
  | case3 domain a rest ha ih => rw [ih, Reached.cons_iff_of_notMem ha]

theorem nodup_reach (next : α → List α) (domain pending : List α) (h : domain.Nodup) :
    (reach next domain pending).Nodup := by
  fun_induction reach next domain pending with
  | case1 => exact .nil
  | case2 domain a rest ha ih =>
    refine List.nodup_cons.mpr ⟨fun hmem => ?_, ih (h.erase a)⟩
    have := ((mem_reach_iff ..).mp hmem).mem_domain
    exact h.not_mem_erase this
  | case3 domain a rest ha ih => exact ih h

end Verdict.Closure
