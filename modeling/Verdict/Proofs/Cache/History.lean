import Mathlib.Data.List.Induction
import Verdict.Proofs.Cache

/-! What a cache says, read off from all that has been asked of it.

Two things count, both since the cache was last cleared: which insertion was the last under a
checksum (`LastUnder`), and whether any was of an implementation (`HasKept`). The entries and
the names of a cache are these two (`lookup_after`, `mem_seen_after`), and from them follows
how a key is judged (`Judged`) and what is served for it. Questions leave both as they are. -/
namespace Verdict.Cache

/-- What may be asked of a cache. -/
inductive Request
  | lookup (key : CacheKey) (accept : Result → Bool)
  | urgency (key : CacheKey)
  | insert (key : CacheKey) (r : Result)
  | clear

namespace Request

/-- Whether a request is to change what is kept. -/
def changes : Request → Bool
  | insert .. | clear => true
  | lookup .. | urgency _ => false

/-- Whether a request looks for something: a lookup with a checksum to look for. -/
def looks : Request → Bool
  | lookup key _ => key.checksum.isSome
  | _ => false

end Request

/-- The cache once a request has been met. -/
def serve (c : Cache) : Request → Cache
  | .lookup key accept => (c.lookup key accept).2.2
  | .urgency _ => c
  | .insert key r => c.insert key r
  | .clear => c.clear

/-- A new cache once requests have been met, one after the other. -/
def after (rs : List Request) : Cache := rs.foldl serve fresh

theorem after_concat (rs : List Request) (q : Request) :
    after (rs ++ [q]) = (after rs).serve q := by
  rw [after, List.foldl_append, List.foldl_cons, List.foldl_nil, after]

/-! ### What stands -/

/-- An insertion that has not been cleared away, and what was asked since. -/
def Stands (rs : List Request) (kept : CacheKey) (r : Result) (later : List Request) : Prop :=
  (∃ earlier, rs = earlier ++ .insert kept r :: later) ∧ .clear ∉ later

/-- The insertion is the last under a checksum since the cache was last cleared. -/
def LastUnder (rs : List Request) (checksum : Checksum) (kept : CacheKey) (r : Result) : Prop :=
  kept.checksum = some checksum ∧ ∃ later, Stands rs kept r later ∧
    ∀ key' r', .insert key' r' ∈ later → key'.checksum ≠ some checksum

/-- A result of the implementation of this name has been kept, under whatever checksum, since
the cache was last cleared. -/
def HasKept (rs : List Request) (name : String) : Prop :=
  ∃ kept r later, Stands rs kept r later ∧ kept.name = name ∧ kept.checksum.isSome

section
variable {rs : List Request} {q : Request} {checksum : Checksum} {kept key : CacheKey}
  {r r' : Result} {later : List Request} {name : String}

theorem not_stands_nil : ¬ Stands [] kept r later := by
  rintro ⟨⟨earlier, h⟩, -⟩
  cases earlier <;> cases h

theorem stands_concat_iff : Stands (rs ++ [q]) kept r later ↔
    (q = .insert kept r ∧ later = []) ∨
      ∃ before, later = before ++ [q] ∧ q ≠ .clear ∧ Stands rs kept r before := by
  constructor
  · rintro ⟨⟨earlier, h⟩, hclear⟩
    rcases List.eq_nil_or_concat later with rfl | ⟨before, last, rfl⟩
    · exact .inl ⟨(List.append_inj' h rfl).2 |> List.singleton_inj.mp, rfl⟩
    · rw [List.concat_eq_append] at h hclear ⊢
      rw [← List.cons_append, ← List.append_assoc] at h
      obtain ⟨hrs, hq⟩ := List.append_inj' h rfl
      obtain rfl := List.singleton_inj.mp hq
      refine .inr ⟨before, rfl, ?_, ⟨earlier, hrs⟩, fun hmem => ?_⟩
      · rintro rfl
        exact hclear (by simp)
      · exact hclear (List.mem_append_left _ hmem)
  · rintro (⟨rfl, rfl⟩ | ⟨before, rfl, hq, ⟨earlier, rfl⟩, hclear⟩)
    · exact ⟨⟨rs, rfl⟩, List.not_mem_nil⟩
    · refine ⟨⟨earlier, by simp⟩, fun hmem => ?_⟩
      rcases List.mem_append.mp hmem with hbefore | hlast
      · exact hclear hbefore
      · exact hq (List.mem_singleton.mp hlast).symm

theorem not_lastUnder_clear : ¬ LastUnder (rs ++ [.clear]) checksum kept r := by
  rintro ⟨-, later, hstands, -⟩
  rcases stands_concat_iff.mp hstands with ⟨h, -⟩ | ⟨before, -, hne, -⟩
  · cases h
  · exact hne rfl

theorem lastUnder_insert_iff : LastUnder (rs ++ [.insert key r']) checksum kept r ↔
    if key.checksum = some checksum then kept = key ∧ r = r'
    else LastUnder rs checksum kept r := by
  constructor
  · rintro ⟨hkept, later, hstands, hlast⟩
    rcases stands_concat_iff.mp hstands with ⟨h, rfl⟩ | ⟨before, rfl, -, hbefore⟩
    · cases h
      rw [if_pos hkept]
      exact ⟨rfl, rfl⟩
    · rw [if_neg (hlast key r' (by simp))]
      exact ⟨hkept, before, hbefore, fun key' r'' hmem =>
        hlast key' r'' (List.mem_append_left _ hmem)⟩
  · split
    · rename_i hkey
      rintro ⟨rfl, rfl⟩
      exact ⟨hkey, [], stands_concat_iff.mpr (.inl ⟨rfl, rfl⟩), fun _ _ hmem =>
        absurd hmem List.not_mem_nil⟩
    · rename_i hkey
      rintro ⟨hkept, before, hbefore, hlast⟩
      refine ⟨hkept, before ++ [.insert key r'],
        stands_concat_iff.mpr (.inr ⟨before, rfl, nofun, hbefore⟩), fun key' r'' hmem => ?_⟩
      rcases List.mem_append.mp hmem with hmem | hmem
      · exact hlast key' r'' hmem
      · cases List.mem_singleton.mp hmem
        exact hkey

theorem lastUnder_question_iff (hq : q.changes = false) :
    LastUnder (rs ++ [q]) checksum kept r ↔ LastUnder rs checksum kept r := by
  constructor
  · rintro ⟨hkept, later, hstands, hlast⟩
    rcases stands_concat_iff.mp hstands with ⟨rfl, -⟩ | ⟨before, rfl, -, hbefore⟩
    · cases hq
    · exact ⟨hkept, before, hbefore, fun key' r' hmem =>
        hlast key' r' (List.mem_append_left _ hmem)⟩
  · rintro ⟨hkept, before, hbefore, hlast⟩
    refine ⟨hkept, before ++ [q], stands_concat_iff.mpr (.inr ⟨before, rfl, ?_, hbefore⟩),
      fun key' r' hmem => ?_⟩
    · rintro rfl
      cases hq
    · rcases List.mem_append.mp hmem with hmem | hmem
      · exact hlast key' r' hmem
      · rw [← List.mem_singleton.mp hmem] at hq
        cases hq

theorem not_hasKept_clear : ¬ HasKept (rs ++ [.clear]) name := by
  rintro ⟨kept, r, later, hstands, -, -⟩
  rcases stands_concat_iff.mp hstands with ⟨h, -⟩ | ⟨before, -, hne, -⟩
  · cases h
  · exact hne rfl

theorem hasKept_concat_iff (hq : q ≠ .clear) : HasKept (rs ++ [q]) name ↔
    (∃ kept r, q = .insert kept r ∧ kept.name = name ∧ kept.checksum.isSome) ∨
      HasKept rs name := by
  constructor
  · rintro ⟨kept, r, later, hstands, hname, hsome⟩
    rcases stands_concat_iff.mp hstands with ⟨h, -⟩ | ⟨before, -, -, hbefore⟩
    · exact .inl ⟨kept, r, h, hname, hsome⟩
    · exact .inr ⟨kept, r, before, hbefore, hname, hsome⟩
  · rintro (⟨kept, r, h, hname, hsome⟩ | ⟨kept, r, before, hbefore, hname, hsome⟩)
    · exact ⟨kept, r, [], stands_concat_iff.mpr (.inl ⟨h, rfl⟩), hname, hsome⟩
    · exact ⟨kept, r, before ++ [q],
        stands_concat_iff.mpr (.inr ⟨before, rfl, hq, hbefore⟩), hname, hsome⟩

theorem hasKept_question_iff (hq : q.changes = false) :
    HasKept (rs ++ [q]) name ↔ HasKept rs name := by
  have hclear : q ≠ .clear := by
    rintro rfl
    cases hq
  rw [hasKept_concat_iff hclear]
  constructor
  · rintro (⟨kept, r, rfl, -⟩ | h)
    · cases hq
    · exact h
  · exact .inr

/-! ### What is in the cache -/

theorem mem_seen_insert_iff {c : Cache} : name ∈ (c.insert key r).seen ↔
    (key.name = name ∧ key.checksum.isSome) ∨ name ∈ c.seen := by
  unfold insert
  cases key.checksum with
  | none => simp
  | some checksum =>
    by_cases hmem : key.name ∈ c.seen
    · simp only [hmem, if_true, Option.isSome_some, and_true]
      exact ⟨.inr, fun h => h.elim (fun heq => heq ▸ hmem) id⟩
    · simp only [hmem, if_false, List.mem_cons, Option.isSome_some, and_true, eq_comm]

/-- The entry under a checksum is of the last insertion under it. -/
theorem lookup_after {e : CacheEntry} : (after rs).entries.lookup checksum = some e ↔
    ∃ kept r, LastUnder rs checksum kept r ∧ e = entry kept r := by
  induction rs using List.reverseRecOn with
  | nil =>
    constructor
    · exact nofun
    · rintro ⟨kept, r, ⟨-, later, hstands, -⟩, -⟩
      exact absurd hstands not_stands_nil
  | append_singleton rs q ih =>
    rw [after_concat]
    cases q with
    | lookup key accept =>
      rw [serve, lookup_entries, ih]
      simp only [lastUnder_question_iff (q := .lookup key accept) rfl]
    | urgency key =>
      rw [serve, ih]
      simp only [lastUnder_question_iff (q := .urgency key) rfl]
    | insert key r' =>
      simp only [serve, lastUnder_insert_iff]
      cases hkey : key.checksum with
      | none => simp only [insert_of_undefined hkey, ih, reduceCtorEq, if_false]
      | some other =>
        rw [lookup_insert hkey]
        by_cases heq : checksum = other
        · simp only [heq, if_true, Option.some.injEq]
          constructor
          · rintro rfl
            exact ⟨key, r', ⟨rfl, rfl⟩, rfl⟩
          · rintro ⟨_, _, ⟨rfl, rfl⟩, rfl⟩
            rfl
        · rw [if_neg heq, ih]
          simp only [Option.some.injEq, Ne.symm heq, if_false]
    | clear =>
      constructor
      · exact nofun
      · rintro ⟨kept, r, h, -⟩
        exact absurd h not_lastUnder_clear

/-- The cache has seen the implementations that something has been kept of. -/
theorem mem_seen_after : name ∈ (after rs).seen ↔ HasKept rs name := by
  induction rs using List.reverseRecOn with
  | nil =>
    constructor
    · exact fun h => absurd h List.not_mem_nil
    · rintro ⟨kept, r, later, hstands, -⟩
      exact absurd hstands not_stands_nil
  | append_singleton rs q ih =>
    rw [after_concat]
    cases q with
    | lookup key accept =>
      rw [serve, lookup_seen, ih, hasKept_question_iff (q := .lookup key accept) rfl]
    | urgency key => rw [serve, ih, hasKept_question_iff (q := .urgency key) rfl]
    | insert key r =>
      rw [serve, mem_seen_insert_iff, ih, hasKept_concat_iff (by rintro ⟨⟩)]
      apply or_congr_left
      constructor
      · rintro ⟨hname, hsome⟩
        exact ⟨key, r, rfl, hname, hsome⟩
      · rintro ⟨_, _, ⟨⟩, hname, hsome⟩
        exact ⟨hname, hsome⟩
    | clear =>
      constructor
      · exact fun h => absurd h List.not_mem_nil
      · exact fun h => absurd h not_hasKept_clear

/-! ### How a key is judged -/

/-- How a key is judged after a history. -/
inductive Judged (rs : List Request) (key : CacheKey) : Urgency → Prop
  | undefined : key.checksum = none → Judged rs key .unverified
  | current {checksum : Checksum} {kept : CacheKey} {r : Result} :
      key.checksum = some checksum → LastUnder rs checksum kept r →
      kept.name = key.name → kept.dependencyChecksum.isSome →
      kept.dependencyChecksum = key.dependencyChecksum → Judged rs key .skip
  | outdated {checksum : Checksum} {kept : CacheKey} {r : Result} :
      key.checksum = some checksum → LastUnder rs checksum kept r → kept.name = key.name →
      ¬ (kept.dependencyChecksum.isSome ∧ kept.dependencyChecksum = key.dependencyChecksum) →
      Judged rs key .dependenciesChanged
  | modified {checksum : Checksum} : key.checksum = some checksum →
      (∀ kept r, LastUnder rs checksum kept r → kept.name ≠ key.name) →
      HasKept rs key.name → Judged rs key .modified
  | unseen {checksum : Checksum} : key.checksum = some checksum →
      (∀ kept r, LastUnder rs checksum kept r → kept.name ≠ key.name) →
      ¬ HasKept rs key.name → Judged rs key .unverified

/-- The entry found for a key is of the last insertion under its checksum, if that was of the
same implementation. -/
theorem find?_after {e : CacheEntry} : (after rs).find? name checksum = some e ↔
    ∃ kept r, LastUnder rs checksum kept r ∧ kept.name = name ∧ e = entry kept r := by
  rw [find?_eq_some_iff, lookup_after]
  constructor
  · rintro ⟨⟨kept, r, hlast, rfl⟩, hname⟩
    exact ⟨kept, r, hlast, hname, rfl⟩
  · rintro ⟨kept, r, hlast, hname, rfl⟩
    exact ⟨⟨kept, r, hlast, rfl⟩, hname⟩

theorem find?_after_eq_none : (after rs).find? name checksum = none ↔
    ∀ kept r, LastUnder rs checksum kept r → kept.name ≠ name := by
  rw [Option.eq_none_iff_forall_ne_some]
  constructor
  · intro h kept r hlast hname
    exact h _ (find?_after.mpr ⟨kept, r, hlast, hname, rfl⟩)
  · intro h e he
    obtain ⟨kept, r, hlast, hname, -⟩ := find?_after.mp he
    exact h kept r hlast hname

theorem judged_classify (rs : List Request) (key : CacheKey) :
    Judged rs key ((after rs).classify key).1 := by
  unfold classify
  cases hkey : key.checksum with
  | none => exact .undefined hkey
  | some checksum =>
    cases hfound : (after rs).find? key.name checksum with
    | none =>
      simp only [hfound, unmatched]
      split
      · rename_i hseen
        exact .modified hkey (find?_after_eq_none.mp hfound) (mem_seen_after.mp hseen)
      · rename_i hseen
        exact .unseen hkey (find?_after_eq_none.mp hfound) (hseen ∘ mem_seen_after.mpr)
    | some e =>
      obtain ⟨kept, r, hlast, hname, rfl⟩ := find?_after.mp hfound
      simp only [hfound]
      split
      · rename_i hagree
        obtain ⟨hsome, hsame⟩ := agree_iff.mp hagree
        exact .current hkey hlast hname hsome hsame
      · rename_i hagree
        exact .outdated hkey hlast hname fun h => hagree (agree_iff.mpr h)

theorem classify_of_judged {u : Urgency} (h : Judged rs key u) :
    ((after rs).classify key).1 = u := by
  unfold classify
  cases h with
  | undefined hkey => simp only [hkey]
  | @current _ kept r hkey hlast hname hsome hsame =>
    have hfound := find?_after.mpr ⟨kept, r, hlast, hname, rfl⟩
    have hagree : agree (entry kept r).result.dependencyChecksum key.dependencyChecksum = true :=
      agree_iff.mpr ⟨hsome, hsame⟩
    simp only [hkey, hfound]
    rw [if_pos hagree]
  | @outdated _ kept r hkey hlast hname hnot =>
    have hfound := find?_after.mpr ⟨kept, r, hlast, hname, rfl⟩
    have hagree : ¬ agree (entry kept r).result.dependencyChecksum key.dependencyChecksum = true :=
      fun h => hnot (agree_iff.mp h)
    simp only [hkey, hfound]
    rw [if_neg hagree]
  | modified hkey hother hkept =>
    simp only [hkey, find?_after_eq_none.mpr hother, unmatched]
    rw [if_pos (mem_seen_after.mpr hkept)]
  | unseen hkey hother hnever =>
    simp only [hkey, find?_after_eq_none.mpr hother, unmatched]
    rw [if_neg (hnever ∘ mem_seen_after.mp)]

theorem classify_after_iff {u : Urgency} : ((after rs).classify key).1 = u ↔ Judged rs key u :=
  ⟨fun h => h ▸ judged_classify rs key, classify_of_judged⟩

/-! ### Answers -/

theorem lookup_urgency (c : Cache) (key : CacheKey) (accept : Result → Bool) :
    (c.lookup key accept).2.1 = (c.classify key).1 := by
  unfold lookup
  obtain ⟨u, current⟩ := c.classify key
  cases h : current.filter accept <;> simp only [h]

/-- The urgency alone is that of the classification. -/
theorem urgency_eq (c : Cache) (key : CacheKey) : c.urgency key = (c.classify key).1 := by
  unfold urgency classify
  split
  · rfl
  · split
    · rfl
    · rename_i e _
      cases e.result.dependencyChecksum <;> cases key.dependencyChecksum <;> simp [agree]
      split <;> rfl

/-- What is served is the current result, where that is acceptable. -/
theorem lookup_after_eq_some_iff {accept : Result → Bool} {served : Result} :
    ((after rs).lookup key accept).1 = some served ↔
      Judged rs key .skip ∧ ∃ checksum kept r, key.checksum = some checksum ∧
        LastUnder rs checksum kept r ∧ accept (entry kept r).result = true ∧
        served = { (entry kept r).result with wasCached := true } := by
  constructor
  · intro h
    rw [lookup_fst] at h
    obtain ⟨stored, hstored, rfl⟩ := Option.map_eq_some_iff.mp h
    obtain ⟨hcurrent, haccept⟩ := Option.filter_eq_some_iff.mp hstored
    obtain ⟨checksum, e, hkey, hl, hname, hagree, rfl⟩ := classify_snd_eq_some_iff.mp hcurrent
    obtain ⟨kept, r, hlast, rfl⟩ := lookup_after.mp hl
    obtain ⟨hsome, hsame⟩ := agree_iff.mp hagree
    exact ⟨.current hkey hlast hname hsome hsame, checksum, kept, r, hkey, hlast, haccept, rfl⟩
  · rintro ⟨hskip, checksum, kept, r, hkey, hlast, haccept, rfl⟩
    cases hskip with
    | current hkey' hlast' hname hsome hsame =>
      obtain rfl := Option.some.inj (hkey.symm.trans hkey')
      have hl := lookup_after.mpr ⟨kept, r, hlast, rfl⟩
      have hl' := lookup_after.mpr ⟨_, _, hlast', rfl⟩
      have hentry := Option.some.inj (hl'.symm.trans hl)
      have hcurrent := classify_snd_eq_some_iff.mpr ⟨checksum, entry kept r, hkey, hl,
        hentry ▸ hname, hentry ▸ agree_iff.mpr ⟨hsome, hsame⟩, rfl⟩
      rw [lookup_fst, hcurrent, Option.filter_some_pos haccept, Option.map_some]

/-- The answers depend on nothing but the entries and the names. -/
theorem classify_congr {c c' : Cache} (hentries : c'.entries = c.entries)
    (hseen : c'.seen = c.seen) (key : CacheKey) : c'.classify key = c.classify key := by
  unfold classify find? unmatched
  rw [hentries, hseen]

theorem serve_congr {c c' : Cache} (hentries : c'.entries = c.entries) (hseen : c'.seen = c.seen)
    (q : Request) :
    (c'.serve q).entries = (c.serve q).entries ∧ (c'.serve q).seen = (c.serve q).seen := by
  cases q with
  | lookup key accept =>
    simp only [serve, lookup_entries, lookup_seen]
    exact ⟨hentries, hseen⟩
  | urgency key => exact ⟨hentries, hseen⟩
  | insert key r =>
    simp only [serve, insert]
    split
    · exact ⟨hentries, hseen⟩
    · rw [hentries, hseen]
      exact ⟨rfl, rfl⟩
  | clear => exact ⟨rfl, rfl⟩

theorem serve_question {c : Cache} (hq : q.changes = false) :
    (c.serve q).entries = c.entries ∧ (c.serve q).seen = c.seen := by
  cases q with
  | lookup key accept => exact ⟨lookup_entries c key accept, lookup_seen c key accept⟩
  | urgency key => exact ⟨rfl, rfl⟩
  | insert | clear => cases hq

/-- Without the questions in it, a history leaves the same behind. -/
theorem after_filter (rs : List Request) :
    (after rs).entries = (after (rs.filter Request.changes)).entries ∧
      (after rs).seen = (after (rs.filter Request.changes)).seen := by
  induction rs using List.reverseRecOn with
  | nil => exact ⟨rfl, rfl⟩
  | append_singleton rs q ih =>
    rw [List.filter_append, after_concat]
    cases hq : q.changes with
    | true =>
      rw [List.filter_cons_of_pos hq, List.filter_nil, after_concat]
      exact serve_congr ih.1 ih.2 q
    | false =>
      rw [List.filter_cons_of_neg (by simp [hq]), List.filter_nil, List.append_nil,
        (serve_question hq).1, (serve_question hq).2]
      exact ih

theorem lookup_counts (c : Cache) (key : CacheKey) (accept : Result → Bool) :
    (c.lookup key accept).2.2.hits + (c.lookup key accept).2.2.misses =
      c.hits + c.misses + if key.checksum.isSome then 1 else 0 := by
  have hdefined : (c.classify key).2.isSome → key.checksum.isSome := fun h => by
    obtain ⟨r, hr⟩ := Option.isSome_iff_exists.mp h
    obtain ⟨checksum, e, hkey, -⟩ := classify_snd_eq_some_iff.mp hr
    rw [hkey, Option.isSome_some]
  unfold lookup
  revert hdefined
  obtain ⟨u, current⟩ := c.classify key
  intro hdefined
  cases h : current.filter accept with
  | some r =>
    obtain ⟨rfl, -⟩ := Option.filter_eq_some_iff.mp h
    simp only [h]
    rw [if_pos (hdefined rfl)]
    omega
  | none =>
    simp only [h]
    split <;> rfl

/-- Every lookup with a checksum to look for is a hit or a miss, and nothing else is. -/
theorem counts_after (rs : List Request) :
    (after rs).hits + (after rs).misses = rs.countP Request.looks := by
  induction rs using List.reverseRecOn with
  | nil => rfl
  | append_singleton rs q ih =>
    rw [after_concat, List.countP_append, List.countP_singleton, ← ih]
    cases q with
    | lookup key accept => exact lookup_counts _ _ _
    | urgency | clear => rfl
    | insert key r =>
      rw [serve, insert]
      split <;> rfl

/-- What a cache answers after any history: how a key is judged and what is served for it,
that the urgency alone agrees with the lookup, that no question changes a later answer, and
that hits and misses add up. -/
theorem answers_after (rs : List Request) (key : CacheKey) (accept : Result → Bool) :
    (key.checksum = none → ((after rs).lookup key accept).1 = none ∧
      ((after rs).lookup key accept).2.1 = .unverified) ∧
    (∀ u, ((after rs).lookup key accept).2.1 = u ↔ Judged rs key u) ∧
    (∀ served, ((after rs).lookup key accept).1 = some served ↔
      Judged rs key .skip ∧ ∃ checksum kept r, key.checksum = some checksum ∧
        LastUnder rs checksum kept r ∧ accept (entry kept r).result = true ∧
        served = { (entry kept r).result with wasCached := true }) ∧
    (after rs).urgency key = ((after rs).lookup key accept).2.1 ∧
    (∀ rs', rs'.filter Request.changes = rs.filter Request.changes →
      ((after rs').lookup key accept).1 = ((after rs).lookup key accept).1 ∧
      ((after rs').lookup key accept).2.1 = ((after rs).lookup key accept).2.1 ∧
      (after rs').urgency key = (after rs).urgency key) ∧
    (after rs).hits + (after rs).misses = rs.countP Request.looks := by
  refine ⟨fun hkey => ?_, fun u => ?_, fun served => lookup_after_eq_some_iff, ?_, ?_,
    counts_after rs⟩
  · have hclassify : (after rs).classify key = (.unverified, none) := by
      unfold classify
      rw [hkey]
    rw [lookup_fst, lookup_urgency, hclassify]
    exact ⟨rfl, rfl⟩
  · rw [lookup_urgency]
    exact classify_after_iff
  · rw [urgency_eq, lookup_urgency]
  · intro rs' hsame
    have hentries : (after rs').entries = (after rs).entries := by
      rw [(after_filter rs').1, (after_filter rs).1, hsame]
    have hseen : (after rs').seen = (after rs).seen := by
      rw [(after_filter rs').2, (after_filter rs).2, hsame]
    have hclassify := classify_congr hentries hseen key
    rw [lookup_fst, lookup_fst, lookup_urgency, lookup_urgency, urgency_eq, urgency_eq, hclassify]
    exact ⟨rfl, rfl, rfl⟩

end

/-- An implementation as it is kept in the history below. -/
def takenOverKey : CacheKey := ⟨"Main", some ⟨.replicate 32 1⟩, some ⟨.replicate 32 2⟩⟩

/-- A result is kept and asked for, and then another implementation of the same contents takes
its place. -/
def takenOver : List Request :=
  [.insert takenOverKey ⟨"1", "Main", default, none, none, .correct, [], 0, 0, 0, 0, false, none⟩,
    .lookup takenOverKey fun _ => true,
    .insert { takenOverKey with name := "Other" }
      ⟨"1", "Other", default, none, none, .correct, [], 0, 0, 0, 0, false, none⟩]

theorem takenOver_answers :
    ((after takenOver).lookup { takenOverKey with checksum := none } fun _ => true).2.1 =
        .unverified ∧
      Judged takenOver takenOverKey .modified ∧
      (after (takenOver.filter Request.changes)).urgency takenOverKey =
        (after takenOver).urgency takenOverKey ∧
      (after takenOver).hits + (after takenOver).misses = takenOver.countP Request.looks := by
  obtain ⟨hundefined, -⟩ :=
    answers_after takenOver { takenOverKey with checksum := none } fun _ => true
  obtain ⟨-, hjudged, -, -, hsame, hcounts⟩ := answers_after takenOver takenOverKey fun _ => true
  have hmodified : ((after takenOver).lookup takenOverKey fun _ => true).2.1 = .modified := by
    decide
  have hchanges : (takenOver.filter Request.changes).filter Request.changes =
      takenOver.filter Request.changes := by rw [List.filter_filter]; rfl
  obtain ⟨-, -, hurgency⟩ := hsame (takenOver.filter Request.changes) hchanges
  obtain ⟨-, hunverified⟩ := hundefined rfl
  exact ⟨hunverified, (hjudged .modified).mp hmodified, hurgency, hcounts⟩

end Verdict.Cache
