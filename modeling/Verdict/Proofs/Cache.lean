import Verdict.Cache

/-! What the cache holds and what it serves.

A result that is served is the one kept under the checksum asked for, of the implementation of
the same name, with dependencies that are known and agree. An insertion takes the place of what
was kept under its checksum and leaves the rest alone. -/
namespace Verdict

theorem lookup_filter_ne {α β : Type} [DecidableEq α] (x y : α) (l : List (α × β)) :
    (l.filter (·.1 ≠ x)).lookup y = if y = x then none else l.lookup y := by
  induction l with
  | nil => split <;> rfl
  | cons p rest ih =>
    obtain ⟨z, v⟩ := p
    by_cases hzx : z = x
    · subst hzx
      rw [List.filter_cons_of_neg (by simp), ih]
      by_cases hyz : y = z
      · rw [if_pos hyz, if_pos hyz]
      · rw [if_neg hyz, if_neg hyz, List.lookup_cons, beq_eq_false_iff_ne.mpr hyz]
    · rw [List.filter_cons_of_pos (by simpa using hzx), List.lookup_cons, List.lookup_cons, ih]
      by_cases hyz : y = z
      · subst hyz
        simp only [beq_self_eq_true, if_neg hzx]
      · rw [beq_eq_false_iff_ne.mpr hyz]

namespace Cache
variable {c : Cache} {key : CacheKey} {checksum : Checksum} {r : Result} {accept : Result → Bool}

/-- A kept result as `insert` stores it. -/
def entry (key : CacheKey) (r : Result) : CacheEntry :=
  ⟨key.name, { r with
    checksum := key.checksum, dependencyChecksum := key.dependencyChecksum, wasCached := false }⟩

theorem lookup_insert (h : key.checksum = some checksum) (other : Checksum) :
    (c.insert key r).entries.lookup other =
      if other = checksum then some (entry key r) else c.entries.lookup other := by
  unfold insert entry
  simp only [h]
  rw [List.lookup_cons]
  by_cases heq : other = checksum
  · rw [beq_iff_eq.mpr heq, if_pos heq]
  · rw [beq_eq_false_iff_ne.mpr heq, if_neg heq, lookup_filter_ne, if_neg heq]

theorem insert_of_undefined (h : key.checksum = none) : c.insert key r = c := by
  unfold insert
  rw [h]

/-- The answer of a lookup is that of the classification, as far as it is acceptable. -/
theorem lookup_fst : (c.lookup key accept).1 =
    ((c.classify key).2.filter accept).map fun r => { r with wasCached := true } := by
  unfold lookup
  obtain ⟨u, current⟩ := c.classify key
  cases h : current.filter accept <;> simp [h]

/-- A lookup forgets nothing and keeps nothing. -/
theorem lookup_entries (c : Cache) (key : CacheKey) (accept : Result → Bool) :
    (c.lookup key accept).2.2.entries = c.entries := by
  unfold lookup
  obtain ⟨u, current⟩ := c.classify key
  cases h : current.filter accept with
  | some r => simp [h]
  | none => simp only [h]; split <;> rfl

theorem lookup_seen (c : Cache) (key : CacheKey) (accept : Result → Bool) :
    (c.lookup key accept).2.2.seen = c.seen := by
  unfold lookup
  split
  split
  · rfl
  · split <;> rfl

theorem agree_iff {a b : Option Checksum} : agree a b = true ↔ a.isSome ∧ a = b := by
  simp [agree]

theorem find?_eq_some_iff {name : String} {e : CacheEntry} :
    c.find? name checksum = some e ↔ c.entries.lookup checksum = some e ∧ e.name = name := by
  simp [find?, Option.filter_eq_some_iff]

theorem classify_snd_eq_some_iff : (c.classify key).2 = some r ↔
    ∃ checksum e, key.checksum = some checksum ∧ c.entries.lookup checksum = some e ∧
      e.name = key.name ∧ agree e.result.dependencyChecksum key.dependencyChecksum = true ∧
      r = e.result := by
  unfold classify
  cases hc : key.checksum with
  | none => simp
  | some checksum =>
    cases he : c.find? key.name checksum with
    | none =>
      simp only [he, reduceCtorEq, false_iff]
      intro h
      obtain ⟨_, e, hcs, hl, hn, -⟩ := h
      cases hcs
      rw [find?_eq_some_iff.mpr ⟨hl, hn⟩] at he
      cases he
    | some e =>
      have hfound := find?_eq_some_iff.mp he
      have huniq : ∀ e', c.entries.lookup checksum = some e' → e' = e := fun e' he' =>
        Option.some.inj (he'.symm.trans hfound.1)
      by_cases hd : agree e.result.dependencyChecksum key.dependencyChecksum = true
      · simp only [he, hd, if_true, Option.some.injEq]
        constructor
        · intro h
          subst h
          exact ⟨checksum, e, rfl, hfound.1, hfound.2, hd, rfl⟩
        · intro h
          obtain ⟨_, e', rfl, hl, -, -, rfl⟩ := h
          rw [huniq e' hl]
      · simp only [he, hd, if_false, reduceCtorEq, false_iff]
        intro h
        obtain ⟨_, e', hcs, hl, -, hd', -⟩ := h
        cases hcs
        exact hd (huniq e' hl ▸ hd')

/-- What is served has been kept for this name, under this checksum, with these
dependencies. -/
theorem of_served (h : (c.lookup key accept).1 = some r) :
    ∃ checksum dependencies kept, key = ⟨key.name, some checksum, some dependencies⟩ ∧
      c.entries.lookup checksum = some ⟨key.name, kept⟩ ∧
      kept.dependencyChecksum = some dependencies ∧ accept kept = true ∧
      r = { kept with wasCached := true } := by
  rw [lookup_fst] at h
  obtain ⟨kept, hkept, rfl⟩ := Option.map_eq_some_iff.mp h
  obtain ⟨hkept, haccept⟩ := Option.filter_eq_some_iff.mp hkept
  obtain ⟨checksum, e, hc, hl, hname, hagree, rfl⟩ := classify_snd_eq_some_iff.mp hkept
  obtain ⟨hsome, hd⟩ := agree_iff.mp hagree
  obtain ⟨dependencies, hdep⟩ := Option.isSome_iff_exists.mp hsome
  refine ⟨checksum, dependencies, e.result, ?_, by rw [hl, ← hname], hdep, haccept, rfl⟩
  rw [← hc, ← hdep, hd]

/-- The answer depends on nothing but what is kept under the checksum asked for. -/
theorem lookup_fst_congr {c' : Cache} (h : ∀ checksum, key.checksum = some checksum →
    c'.entries.lookup checksum = c.entries.lookup checksum) :
    (c'.lookup key accept).1 = (c.lookup key accept).1 := by
  have hclassify : (c'.classify key).2 = (c.classify key).2 := by
    ext r
    rw [classify_snd_eq_some_iff, classify_snd_eq_some_iff]
    apply exists_congr
    intro checksum
    apply exists_congr
    intro e
    apply and_congr_right
    intro hc
    rw [h checksum hc]
  rw [lookup_fst, lookup_fst, hclassify]

end Cache

end Verdict
