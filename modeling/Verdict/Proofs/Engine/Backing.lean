import Verdict.Proofs.Engine.Reports
import Verdict.Proofs.Engine.Selection
import Verdict.Proofs.Engine.Undisturbed

/-! What is reported is in the cache.

While results are kept and no fault is reported, an attempt reports what the cache serves or what
it has just kept itself. If no other attempt of its batch keeps anything under the same checksum,
and no other batch does, the cache still has it when the batch is over (`Backed`). -/
namespace Verdict

namespace Cache
variable {c c' : Cache} {key : CacheKey} {r r' : Result} {accept : Result → Bool}

/-- What is known of a result is kept under this key. -/
def Backs (c : Cache) (key : CacheKey) (r : Result) : Prop :=
  ∃ checksum kept, key.checksum = some checksum ∧
    c.entries.lookup checksum = some ⟨key.name, kept⟩ ∧
    kept.dependencyChecksum = key.dependencyChecksum ∧
    kept.outcome = r.outcome ∧ kept.counterexamples = r.counterexamples

theorem backs_of_served (h : (c.lookup key accept).1 = some r) : c.Backs key r := by
  obtain ⟨checksum, dependencies, kept, hkey, hl, hd, -, rfl⟩ := of_served h
  refine ⟨checksum, kept, by rw [hkey], hl, by rw [hd, hkey], rfl, rfl⟩

theorem backs_insert (h : key.checksum.isSome) : (c.insert key r).Backs key r := by
  obtain ⟨checksum, hc⟩ := Option.isSome_iff_exists.mp h
  have hl : (c.insert key r).entries.lookup checksum = some (entry key r) := by
    rw [lookup_insert hc, if_pos rfl]
  exact ⟨checksum, (entry key r).result, hc, hl, rfl, rfl, rfl⟩

theorem Backs.congr (h : c.Backs key r) (hsame : ∀ checksum, key.checksum = some checksum →
    c'.entries.lookup checksum = c.entries.lookup checksum) : c'.Backs key r := by
  obtain ⟨checksum, kept, hc, hl, hknown⟩ := h
  exact ⟨checksum, kept, hc, (hsame checksum hc).trans hl, hknown⟩

/-- Two results that are kept under one key do not differ in what they found. -/
theorem Backs.agree (h : c.Backs key r) (h' : c.Backs key r') :
    r'.outcome = r.outcome ∧ r'.counterexamples = r.counterexamples := by
  obtain ⟨checksum, kept, hc, hl, -, hout, hcex⟩ := h
  obtain ⟨checksum', kept', hc', hl', -, hout', hcex'⟩ := h'
  cases hc.symm.trans hc'
  cases hl.symm.trans hl'
  exact ⟨hout'.symm.trans hout, hcex'.symm.trans hcex⟩

/-- What is kept under a key is served for it, if its dependencies are known. -/
theorem Backs.served (h : c.Backs key r) (hdep : key.dependencyChecksum.isSome)
    (accept : Result → Bool) (haccept : ∀ kept, accept kept = true) :
    ∃ served, (c.lookup key accept).1 = some served := by
  obtain ⟨checksum, kept, hc, hl, hd, -, -⟩ := h
  have hcurrent : (c.classify key).2 = some kept :=
    classify_snd_eq_some_iff.mpr
      ⟨checksum, ⟨key.name, kept⟩, hc, hl, rfl, agree_iff.mpr ⟨by rw [hd]; exact hdep, hd⟩, rfl⟩
  rw [lookup_fst, hcurrent, Option.filter_some_pos (haccept kept)]
  exact ⟨_, rfl⟩

end Cache

/-- An attempt that no fault is reported to has what it reports from the cache, unless it has
just been answered. -/
theorem Attempt.Turn.source_of_faultless {k : Ticket} {slot : Nat} {s s' : Shared}
    {tray tray' : Tray} {a a' : Attempt} {q : Prompt} {r : Result}
    (h : Turn k slot s tray a q s' tray' a') (faultless : q.fault? = none)
    (hr : a'.phase.result? = some r) (hnot : ∀ r', a'.phase ≠ .answered r') :
    a.phase.result? = some r ∨ a.phase = .entered ∧
      ∃ served, (s.cache.lookup (k.key a) s.options.cacheMode.serves).1 = some served ∧
        r = { served with requestId := k.requestId } := by
  cases h with
  | @hit served u cache hp _ _ hl =>
    cases hr
    exact .inr ⟨hp, served, by rw [hl], rfl⟩
  | refuse | fault => cases faultless
  | find => exact absurd rfl (hnot _)
  | keep hp | report hp | settle hp | leave hp | announce hp | deliver hp | write hp =>
    rw [hp]
    exact .inl hr
  | _ => cases hr

namespace Setting
variable {x : Setting} {ts : List Target} {c c' : Cache} {s s' : Shared} {b : Batch} {slot : Nat}
  {tray' : Tray} {a a' : Attempt} {q : Prompt}

/-- The cache has all that the attempts of a batch for these targets report. -/
structure Backed (x : Setting) (ts : List Target) (c : Cache) (b : Batch) : Prop where
  ticket : b.ticket = x.ticket
  targets : b.attempts.map (·.target) = ts
  backs : ∀ (i : Nat) a r, b.attempts[i]? = some a → a.phase.result? = some r →
    (∀ r', a.phase ≠ .answered r') → c.Backs (x.key a.target) r

theorem backed_scheduled (x : Setting) (ts : List Target) (c : Cache) :
    x.Backed ts c (.scheduled x.ticket ts) := by
  refine ⟨rfl, ?_, fun i a r ha hr => ?_⟩
  · show (ts.map Attempt.scheduled).map (·.target) = ts
    rw [List.map_map]
    exact List.map_id ts
  · obtain ⟨t, -, rfl⟩ := List.mem_map.mp (List.mem_of_getElem? ha)
    cases hr

theorem Backed.congr (h : x.Backed ts c b) (hsame : c'.entries = c.entries) :
    x.Backed ts c' b :=
  ⟨h.ticket, h.targets, fun i a r ha hr hnot =>
    (h.backs i a r ha hr hnot).congr fun _ _ => by rw [hsame]⟩

/-- What an attempt reports is in the cache after its turn. -/
theorem Backed.own (h : x.Backed ts s.cache b) (keeps : s.usesCache = true)
    (defined : (x.key a.target).checksum.isSome) (ha : b.attempts[slot]? = some a)
    (faultless : q.fault? = none) (hturn : Attempt.Turn x.ticket slot s b.tray a q s' tray' a')
    {r : Result} (hr : a'.phase.result? = some r) (hnot : ∀ r', a'.phase ≠ .answered r') :
    s'.cache.Backs (x.key a.target) r := by
  rcases hturn.source_of_faultless faultless hr hnot with hold | ⟨hp, served, hl, rfl⟩
  · by_cases hp : ∃ r₀, a.phase = .answered r₀
    · obtain ⟨r₀, hp⟩ := hp
      rw [hp] at hold
      cases hold
      rw [(hturn.of_phase_answered hp).2, if_pos keeps]
      exact Cache.backs_insert defined
    · have hearlier : ∀ r₀, a.phase ≠ .answered r₀ := fun r₀ hr₀ => hp ⟨r₀, hr₀⟩
      have hentries := hturn.entries hearlier
      exact (h.backs slot a r ha hold hearlier).congr fun _ _ => by rw [hentries]
  · have hentries := hturn.entries fun r₀ hr₀ => by
      rw [hp] at hr₀
      cases hr₀
    obtain ⟨checksum, kept, hc, hlookup, hknown⟩ := Cache.backs_of_served hl
    exact ⟨checksum, kept, hc, by rw [hentries]; exact hlookup, hknown⟩

theorem Backed.turn (h : x.Backed ts s.cache b) (apart : x.Apart ts) (keeps : s.usesCache = true)
    (defined : ∀ t ∈ ts, (x.key t).checksum.isSome) (ha : b.attempts[slot]? = some a)
    (faultless : q.fault? = none) (hturn : Attempt.Turn b.ticket slot s b.tray a q s' tray' a') :
    x.Backed ts s'.cache (b.withAttempt slot tray' a') := by
  rw [h.ticket] at hturn
  have hmem : a.target ∈ ts := by
    rw [← h.targets]
    exact List.mem_map_of_mem (List.mem_of_getElem? ha)
  refine ⟨h.ticket, ?_, fun i d r hd hr hnot => ?_⟩
  · show (b.attempts.set slot a').map (·.target) = ts
    rw [map_set_of_eq ha hturn.target, h.targets]
  · rcases getElem?_set_cases hd with ⟨-, rfl⟩ | ⟨hne, hd⟩
    · rw [hturn.target]
      exact h.own keeps (defined _ hmem) ha faultless hturn hr hnot
    · exact (h.backs i d r hd hr hnot).congr fun checksum hc =>
        lookup_turn_of_ne hturn (apart.checksum_ne h.targets hd ha hne hc)

end Setting

namespace Engine
variable {e e₁ : Engine} {ms : List Move} {n : Nat} {ts : List Target} {b : Batch} {x : Setting}

/-- No step but those of this batch changes what is kept. -/
def Untouched (e : Engine) (n : Nat) (ms : List Move) : Prop :=
  ∀ t ∈ e.steps ms, t.move.batch? ≠ some n →
    t.after.shared.cache.entries = t.before.shared.cache.entries

theorem untouched_of_own (ran : e.run ms = some e₁) (own : ∀ m ∈ ms, m.batch? = some n) :
    e.Untouched n ms := by
  intro t ht hother
  obtain ⟨past, later, rfl, -⟩ := exists_of_mem_steps ran ht
  exact absurd (own t.move (by simp)) hother

theorem backed_of_run (hb : e.batches[n]? = some b) (h : x.Backed ts e.shared.cache b)
    (apart : x.Apart ts) (keeps : e.shared.usesCache = true)
    (defined : ∀ t ∈ ts, (x.key t).checksum.isSome) (ran : e.run ms = some e₁)
    (faultless : ∀ i f, ¬Receives ms ⟨n, i⟩ f) (untouched : e.Untouched n ms) :
    ∃ b, e₁.batches[n]? = some b ∧ x.Backed ts e₁.shared.cache b := by
  refine run_induction (P := fun ms e₁ => (∀ i f, ¬Receives ms ⟨n, i⟩ f) → e.Untouched n ms →
    ∃ b, e₁.batches[n]? = some b ∧ x.Backed ts e₁.shared.cache b) ?_ ?_ ran faultless untouched
  · exact fun _ _ => ⟨b, hb, h⟩
  · intro ms m e₁ e₂ hrun ih hstep htransition faultless untouched
    have hsteps := steps_concat hrun hstep
    obtain ⟨b, hb, h⟩ := ih (fun i f hf => faultless i f (receives_concat.mpr (.inl hf)))
      fun t ht => untouched t (by rw [hsteps]; exact List.mem_append_left _ ht)
    rcases htransition.batch_cases hb with ⟨slot, q, a, tray', a', hm, ha, hturn, hb'⟩ |
      ⟨c, b', -, hturn, hb'⟩ | ⟨hm, hb'⟩
    · have hkeeps : e₁.shared.usesCache = true := by
        rw [Shared.usesCache, (grows_of_run hrun).options]
        exact keeps
      have hquiet : q.fault? = none := by
        refine Option.eq_none_iff_forall_ne_some.mpr fun f hf => ?_
        refine faultless slot f (receives_concat.mpr (.inr ?_))
        rw [Move.fault?_of_prompt? hm, hf]
        rfl
      exact ⟨_, hb', h.turn apart hkeeps defined ha hquiet hturn⟩
    · refine ⟨b', hb', hturn.ticket.trans h.ticket, ?_, ?_⟩
      · rw [hturn.attempts]
        exact h.targets
      · rw [hturn.attempts, hturn.cache]
        exact h.backs
    · refine ⟨b, hb', h.congr (untouched ⟨e₁, m, e₂⟩ ?_ hm)⟩
      rw [hsteps]
      exact List.mem_append_right _ List.mem_cons_self

end Engine

end Verdict
