import Verdict.Proofs.Cache
import Verdict.Proofs.Engine.Growth

/-! What the moves of an engine do to its cache.

Of all the steps of an attempt, only the one after a verifier's answer changes what is kept, and
it does so under the checksum of its own target; a lookup merely counts. `Keeping` says for one
checksum what a move leaves of the result kept under it. -/
namespace Verdict

namespace Attempt
variable {k : Ticket} {slot : Nat} {s s' : Shared} {tray tray' : Tray} {a a' : Attempt} {q : Prompt}

/-- An attempt that has just got its result keeps it next. -/
theorem Turn.of_phase_answered (h : Turn k slot s tray a q s' tray' a') {r : Result}
    (hp : a.phase = .answered r) : q = .advance ∧
    s'.cache = if s.usesCache then s.cache.insert (k.key a) r else s.cache := by
  cases h with
  | keep hp' =>
    cases hp'.symm.trans hp
    exact ⟨rfl, rfl⟩
  | stopEarly hp' =>
    rw [hp] at hp'
    rcases hp' with hp' | hp' <;> cases hp'
  | stopLate hp' =>
    rw [hp] at hp'
    cases hp'
  | _ => simp_all

/-- No other attempt changes what is kept. -/
theorem Turn.entries (h : Turn k slot s tray a q s' tray' a')
    (hp : ∀ r, a.phase ≠ .answered r) : s'.cache.entries = s.cache.entries := by
  cases h with
  | hit _ _ _ hl | miss _ _ _ hl => rw [← Cache.lookup_entries s.cache (k.key a), hl]
  | keep hp' => exact absurd hp' (hp _)
  | _ => rfl

/-- Where a result comes from: the cache, the verifier's findings, or a fault. -/
theorem Turn.result_source (h : Turn k slot s tray a q s' tray' a') {r : Result}
    (hr : a'.phase.result? = some r) :
    a.phase.result? = some r ∨
      (∃ r', a.phase = .entered ∧ q = .advance ∧ r = { r' with requestId := k.requestId } ∧
        (s.cache.lookup (k.key a) s.options.cacheMode.serves).1 = some r') ∨
      ∃ f elapsed, r = k.result s.options a f elapsed := by
  have hfault : ∀ f, (k.afterFault s.options a f).result? = some r →
      ∃ f elapsed, r = k.result s.options a f elapsed := by
    intro f hf
    cases f <;> cases hf <;> exact ⟨_, _, rfl⟩
  cases h with
  | @hit r' _ _ hp _ _ hl =>
    cases hr
    exact .inr (.inl ⟨r', hp, rfl, rfl, by rw [hl]⟩)
  | refuse | fault => exact .inr (.inr (hfault _ hr))
  | @find _ _ f elapsed =>
    cases hr
    exact .inr (.inr ⟨f, elapsed, rfl⟩)
  | keep hp | report hp | settle hp | leave hp | announce hp | deliver hp | write hp =>
    rw [hp]
    exact .inl hr
  | _ => cases hr

/-- An attempt has an answer to keep because the verifier has just found something. -/
theorem Turn.of_answered (h : Turn k slot s tray a q s' tray' a') {r : Result}
    (hp : a'.phase = .answered r) :
    ∃ f elapsed, q = .answered (.findings f elapsed) ∧ r = k.result s.options a f elapsed := by
  cases h with
  | @find session job f elapsed =>
    cases hp
    exact ⟨f, elapsed, rfl, rfl⟩
  | @refuse f => cases f <;> cases hp
  | @fault session job f => cases f <;> cases hp
  | _ => cases hp

end Attempt

namespace Engine

/-- The checksum under which a move keeps a result, where it keeps one. -/
def keepsUnder? (e : Engine) : Move → Option Checksum
  | .advance id => do
    let (k, a) ← e.assigned? id
    match a.phase with
    | .answered _ => if e.shared.usesCache then (k.key a).checksum else none
    | _ => none
  | _ => none

theorem keepsUnder?_advance {e : Engine} {id : AttemptId} {k : Ticket} {a : Attempt} {r : Result}
    (ha : e.assigned? id = some (k, a)) (hp : a.phase = .answered r)
    (hu : e.shared.usesCache = true) : e.keepsUnder? (.advance id) = (k.key a).checksum := by
  simp [keepsUnder?, ha, hp, hu]

theorem keepsUnder?_eq_none {e : Engine} {m : Move}
    (h : ∀ id k a r, m = .advance id → e.assigned? id = some (k, a) → a.phase = .answered r →
      e.shared.usesCache = false) : e.keepsUnder? m = none := by
  unfold keepsUnder?
  split
  · rename_i id
    cases ha : e.assigned? id with
    | none => rfl
    | some p =>
      obtain ⟨k, a⟩ := p
      cases hp : a.phase with
      | answered r => simp [hp, h id k a r rfl ha hp]
      | _ => simp [hp]
  · rfl

/-- What a move leaves of the results kept under a checksum. -/
inductive Keeping (e : Engine) (m : Move) (checksum : Checksum) (e' : Engine) : Prop
  | spared : m ≠ .clearCache → e.keepsUnder? m ≠ some checksum →
      e'.shared.cache.entries.lookup checksum = e.shared.cache.entries.lookup checksum →
      Keeping e m checksum e'
  | cleared : e'.shared.cache.entries = [] → Keeping e m checksum e'
  | kept {id : AttemptId} {k : Ticket} {a : Attempt} {r : Result} : m = .advance id →
      e.assigned? id = some (k, a) → a.phase = .answered r →
      (k.key a).checksum = some checksum → e.keepsUnder? m = some checksum →
      e'.shared.cache.entries.lookup checksum = some (Cache.entry (k.key a) r) →
      Keeping e m checksum e'

variable {e e' : Engine} {m : Move} {checksum : Checksum}

theorem Keeping.of_nothing_kept (hclear : m ≠ .clearCache) (hnone : e.keepsUnder? m = none)
    (hentries : e'.shared.cache.entries = e.shared.cache.entries) : Keeping e m checksum e' :=
  .spared hclear (by rw [hnone]; exact nofun) (by rw [hentries])

/-- An attempt that has just got its result keeps it, as far as results are kept. -/
theorem Keeping.of_answered {id : AttemptId} {k : Ticket} {a : Attempt} {r : Result}
    (hassigned : e.assigned? id = some (k, a)) (hp : a.phase = .answered r)
    (hcache : e'.shared.cache =
      if e.shared.usesCache then e.shared.cache.insert (k.key a) r else e.shared.cache) :
    Keeping e (.advance id) checksum e' := by
  have hclear : Move.advance id ≠ .clearCache := nofun
  cases hu : e.shared.usesCache with
  | false =>
    rw [hu] at hcache
    exact .of_nothing_kept hclear (keepsUnder?_eq_none fun _ _ _ _ _ _ _ => hu)
      (congrArg Cache.entries hcache)
  | true =>
    have hkeeps := keepsUnder?_advance hassigned hp hu
    rw [hu, if_pos rfl] at hcache
    cases hc : (k.key a).checksum with
    | none =>
      apply Keeping.of_nothing_kept hclear (hkeeps.trans hc)
      rw [hcache, Cache.insert_of_undefined hc]
    | some under =>
      rw [hc] at hkeeps
      by_cases heq : checksum = under
      · subst heq
        apply Keeping.kept rfl hassigned hp hc hkeeps
        rw [hcache, Cache.lookup_insert hc, if_pos rfl]
      · refine .spared hclear ?_ ?_
        · rw [hkeeps]
          exact fun h => heq (Option.some.inj h).symm
        · rw [hcache, Cache.lookup_insert hc, if_neg heq]

theorem Transition.keeping (h : Transition e m e') (checksum : Checksum) :
    Keeping e m checksum e' := by
  cases h with
  | submit | cancel | breakSink => exact .of_nothing_kept nofun rfl rfl
  | clearCache => exact .cleared rfl
  | @batch m i c b b' s' hm hb hturn =>
    have hentries := congrArg Cache.entries hturn.cache
    cases m <;> cases hm <;> exact .of_nothing_kept nofun rfl hentries
  | @attempt m id q b a a' s' tray' hm hb ha hturn =>
    have hassigned := assigned?_eq_some_iff.mpr ⟨b, hb, rfl, ha⟩
    by_cases hp : ∃ r, a.phase = .answered r
    · obtain ⟨r, hp⟩ := hp
      obtain ⟨rfl, hcache⟩ := hturn.of_phase_answered hp
      obtain rfl : m = .advance id := by
        cases m <;> cases hm
        rfl
      exact .of_answered hassigned hp hcache
    · have hnot : ∀ r, a.phase ≠ .answered r := fun r hr => hp ⟨r, hr⟩
      have hclear : m ≠ .clearCache := by
        intro h
        subst h
        cases hm
      refine .of_nothing_kept hclear (keepsUnder?_eq_none ?_) (hturn.entries hnot)
      intro id' k a'' r h ha' hp'
      subst h
      cases hm
      cases hassigned.symm.trans ha'
      exact absurd hp' (hnot r)

end Engine

end Verdict
