import Verdict.Proofs.Engine.Accounts
import Verdict.Proofs.Engine.Expectation
import Verdict.Proofs.Engine.Roster
import Verdict.Proofs.Engine.Transition
import Verdict.Proofs.Output

/-! A batch on its own.

`Setting.OnWay` says how far a batch may have come that nothing disturbs: no attempt is
cancelled, the permits are free or held by its attempts, the cache is as at the beginning but
for what the attempts have kept, each under a checksum of its own, the counts are those of the
attempts that have reported, and the text is that of the attempts that have handed theirs in.
Every turn of an attempt and every turn of the batch keeps it, in whatever order they come. -/
namespace Verdict

namespace Setting

/-- No attempt of the batch is to stop, and none will be. The runs of the batch come after the
first `g₀`. -/
structure Quiet (x : Setting) (g₀ : Nat) (s : Shared) (as : List Attempt) : Prop where
  token : s.requests.isRevoked x.ticket.token = false
  superseded : ∀ g ∈ s.roster.superseded, g ≤ g₀
  begun : g₀ ≤ s.roster.generation
  later : ∀ (i : Nat) (a : Attempt) (g : Nat), as[i]? = some a → a.generation = some g → g₀ < g
  current : ∀ name g, s.roster.current? name = some g → g ≤ g₀ ∨
    ∃ (i : Nat) (a : Attempt), as[i]? = some a ∧ a.name = name ∧ a.generation = some g

/-- Whether what comes of a target is kept. -/
def keeps (x : Setting) (t : Target) : Bool :=
  x.options.cacheMode ≠ .off && (x.found? t).isNone && (x.verifier (x.job t)).isOk

/-- What the cache holds under the checksum of an attempt. -/
def held? (x : Setting) (a : Attempt) (checksum : Checksum) : Option CacheEntry :=
  if a.phase.stepsLeft ≤ 6 ∧ x.keeps a.target = true then
    a.phase.result?.map (Cache.entry (x.key a.target))
  else x.cache.entries.lookup checksum

def Stored (x : Setting) (cache : Cache) (a : Attempt) : Prop :=
  ∀ checksum, (x.key a.target).checksum = some checksum →
    cache.entries.lookup checksum = x.held? a checksum

/-- The text that an attempt has handed in, if it has. -/
def HandedIn (x : Setting) (a : Attempt) (given : Option String) : Prop :=
  if a.phase.stepsLeft ≤ 1 then
    ∃ p, x.Comes a.target p ∧ a.phase.result? = some p.result ∧ given = some (x.text a.target p)
  else given = none

/-- A collector has what these attempts have handed in, and writes it behind `base`. -/
def Collects (x : Setting) (base : String) (c : Collector) (sink : Sink) (as : List Attempt) :
    Prop :=
  ∃ given, c.Tracks given base sink ∧ given.length = as.length ∧
    ∀ (i : Nat) a, as[i]? = some a → ∃ text, given[i]? = some text ∧ x.HandedIn a text

/-- How far a batch for these targets may have come. -/
structure OnWay (x : Setting) (ts : List Target) (base : String) (g₀ : Nat) (s : Shared)
    (b : Batch) : Prop where
  options : s.options = x.options
  ticket : b.ticket = x.ticket
  targets : b.attempts.map (·.target) = ts
  expected : ∀ (i : Nat) a, b.attempts[i]? = some a → x.Expected a
  quiet : x.Quiet g₀ s b.attempts
  permits : s.permits + b.permits = x.options.unitLimit
  stored : ∀ (i : Nat) a, b.attempts[i]? = some a → x.Stored s.cache a
  others : ∀ checksum, (∀ t ∈ ts, (x.key t).checksum ≠ some checksum) →
    s.cache.entries.lookup checksum = x.cache.entries.lookup checksum
  statistics : b.tray.statistics = (b.attempts.map Attempt.counted).sum
  working : s.sink.broken = false
  collected : x.Collects base b.tray.collector s.sink b.attempts
  endings : ∀ (i : Nat) e, b.endings[i]? = some e → ∃ a, b.attempts[i]? = some a ∧ a.phase = .ended e
  closed : ∀ r, b.stage = .concluded r ∨ b.stage = .finished r →
    b.attempts.length ≤ b.endings.length ∧ b.tray.collector.flushed = b.attempts.length ∧
      r = .ok b.report

/-- No two of the targets have the same name or share a defined checksum. -/
structure Apart (x : Setting) (ts : List Target) : Prop where
  names : (ts.map (·.declaration.name)).Nodup
  checksums : ts.Pairwise fun t u => ∀ checksum, (x.key t).checksum = some checksum →
    (x.key u).checksum ≠ some checksum

theorem Apart.name_inj {x : Setting} {ts : List Target} (h : x.Apart ts) {as : List Attempt}
    (hts : as.map (·.target) = ts) {i j : Nat} {a b : Attempt} (ha : as[i]? = some a)
    (hb : as[j]? = some b) (hname : a.name = b.name) : i = j := by
  have hnames : (as.map (·.name)).Nodup := by
    have := h.names
    rwa [← hts, List.map_map] at this
  have hi : (as.map (·.name))[i]? = some a.name := by rw [List.getElem?_map, ha]; rfl
  have hj : (as.map (·.name))[j]? = some a.name := by rw [List.getElem?_map, hb, hname]; rfl
  have hlt : i < (as.map (·.name)).length := (List.getElem?_eq_some_iff.mp hi).1
  exact (List.getElem?_inj hlt hnames).mp (hi.trans hj.symm)

theorem Apart.checksum_ne {x : Setting} {ts : List Target} (h : x.Apart ts) {as : List Attempt}
    (hts : as.map (·.target) = ts) {i j : Nat} {a b : Attempt} (ha : as[i]? = some a)
    (hb : as[j]? = some b) (hij : i ≠ j) {checksum : Checksum}
    (hc : (x.key a.target).checksum = some checksum) : (x.key b.target).checksum ≠ some checksum := by
  have hpair := h.checksums
  rw [← hts, List.pairwise_map] at hpair
  intro hc'
  obtain ⟨hi, rfl⟩ := List.getElem?_eq_some_iff.mp ha
  obtain ⟨hj, rfl⟩ := List.getElem?_eq_some_iff.mp hb
  rcases Nat.lt_or_gt_of_ne hij with hlt | hlt
  · exact List.pairwise_iff_getElem.mp hpair i j hi hj hlt checksum hc hc'
  · exact List.pairwise_iff_getElem.mp hpair j i hj hi hlt checksum hc' hc

section Turn
variable {x : Setting} {ts : List Target} {base : String} {g₀ slot : Nat} {s s' : Shared}
  {tray tray' : Tray} {a a' : Attempt} {q : Prompt} {as : List Attempt} {b : Batch}

/-! ### One attempt takes a turn -/

theorem Quiet.not_cancelled (h : x.Quiet g₀ s as) {i : Nat} (ha : as[i]? = some a) :
    x.ticket.isCancelled s a = false := by
  unfold Ticket.isCancelled Shared.isCancelled
  cases hg : a.generation with
  | none => rfl
  | some g =>
    have hlater := h.later i a g ha hg
    have hnot : g ∉ s.roster.superseded := fun hmem => by
      have := h.superseded g hmem
      omega
    rw [Option.any_some, h.token, Bool.false_or]
    exact Bool.eq_false_iff.mpr fun hc => hnot (List.contains_iff_mem.mp hc)

/-- Who counts is still there when one attempt has changed and stays the run it is. -/
theorem counts_set {name : String} {g : Nat} (ha : as[slot]? = some a) (hname : a'.name = a.name)
    (hgen : ∀ g', a.generation = some g' → a'.generation = some g')
    (h : ∃ (i : Nat) (b : Attempt), as[i]? = some b ∧ b.name = name ∧ b.generation = some g) :
    ∃ (i : Nat) (b : Attempt), (as.set slot a')[i]? = some b ∧ b.name = name ∧
      b.generation = some g := by
  obtain ⟨i, b, hb, rfl, hg⟩ := h
  by_cases hi : i = slot
  · subst hi
    cases ha.symm.trans hb
    have hlt : i < as.length := (List.getElem?_eq_some_iff.mp ha).1
    exact ⟨i, a', List.getElem?_set_self hlt, hname, hgen g hg⟩
  · exact ⟨i, b, by rw [List.getElem?_set_ne (Ne.symm hi), hb], rfl, hg⟩

/-- An attempt begins. Its name is its own, so that whoever counted for it came before. -/
theorem Quiet.enter (h : x.Quiet g₀ s as) (apart : x.Apart ts) (hts : as.map (·.target) = ts)
    (ha : as[slot]? = some a) (hnone : a.generation = none) (hname : a'.name = a.name)
    (hgen : a'.generation = some (s.roster.generation + 1)) (hrequests : s'.requests = s.requests)
    (hroster : s'.roster = (s.roster.enter a.name).2) : x.Quiet g₀ s' (as.set slot a') := by
  have hlt : slot < as.length := (List.getElem?_eq_some_iff.mp ha).1
  have hold : ∀ g, s.roster.current? a.name = some g → g ≤ g₀ := by
    intro g hg
    rcases h.current a.name g hg with hle | ⟨i, b, hb, hbname, hbgen⟩
    · exact hle
    · cases apart.name_inj hts hb ha hbname
      cases hb.symm.trans ha
      rw [hnone] at hbgen
      cases hbgen
  refine ⟨by rw [hrequests]; exact h.token, ?_, ?_, ?_, ?_⟩
  · intro g hg
    rw [hroster] at hg
    rcases List.mem_append.mp hg with hg | hg
    · exact hold g (Option.mem_toList.mp hg)
    · exact h.superseded g hg
  · rw [hroster]
    exact Nat.le_succ_of_le h.begun
  · intro i b g hb hg
    rcases getElem?_set_cases hb with ⟨rfl, rfl⟩ | ⟨-, hb⟩
    · cases hgen.symm.trans hg
      exact Nat.lt_succ_of_le h.begun
    · exact h.later i b g hb hg
  · intro name g hg
    rw [hroster, Roster.current?_enter] at hg
    split at hg
    · rename_i hcase
      cases hg
      exact .inr ⟨slot, a', List.getElem?_set_self hlt, hname.trans hcase.symm, hgen⟩
    · refine (h.current name g hg).imp_right (counts_set ha hname fun g' hg' => ?_)
      rw [hnone] at hg'
      cases hg'

/-- An attempt goes on as the run it is, or leaves. -/
theorem Quiet.stay (h : x.Quiet g₀ s as) (ha : as[slot]? = some a) (hname : a'.name = a.name)
    (hgen : a'.generation = a.generation) (hrequests : s'.requests = s.requests)
    (hroster : s'.roster = s.roster ∨ ∃ g, s'.roster = s.roster.leave a.name g) :
    x.Quiet g₀ s' (as.set slot a') := by
  have hgeneration : s'.roster.generation = s.roster.generation := by
    rcases hroster with hr | ⟨g, hr⟩ <;> rw [hr]
    exact Roster.generation_leave
  have hsuperseded : s'.roster.superseded = s.roster.superseded := by
    rcases hroster with hr | ⟨g, hr⟩ <;> rw [hr]
    exact Roster.superseded_leave
  refine ⟨by rw [hrequests]; exact h.token, by rw [hsuperseded]; exact h.superseded,
    by rw [hgeneration]; exact h.begun, ?_, ?_⟩
  · intro i b g hb hg
    rcases getElem?_set_cases hb with ⟨rfl, rfl⟩ | ⟨-, hb⟩
    · exact h.later i a g ha (hgen.symm.trans hg)
    · exact h.later i b g hb hg
  · intro name g hg
    have hbefore : s.roster.current? name = some g := by
      rcases hroster with hr | ⟨g', hr⟩ <;> rw [hr] at hg
      · exact hg
      · exact Roster.current?_of_leave hg
    exact (h.current name g hbefore).imp_right
      (counts_set ha hname fun g' hg' => hgen.trans hg')

theorem Quiet.turn (h : x.Quiet g₀ s as) (apart : x.Apart ts) (hts : as.map (·.target) = ts)
    (ha : as[slot]? = some a) (he : x.Expected a)
    (hturn : Attempt.Turn x.ticket slot s tray a q s' tray' a') :
    x.Quiet g₀ s' (as.set slot a') := by
  have hname : a'.name = a.name := congrArg (·.declaration.name) hturn.target
  have hfatal : ∀ c, a.phase = .retired c → c.ending.isFatal = false := by
    intro c hp
    unfold Expected at he
    rw [hp] at he
    obtain ⟨p, -, rfl⟩ := he
    rfl
  have hrequests := hturn.requests hfatal
  rcases hturn.roster with ⟨hp, hgen, hroster⟩ | ⟨hgen, hroster⟩
  · have hnone : a.generation = none := by
      unfold Expected at he
      rwa [hp] at he
    exact h.enter apart hts ha hnone hname hgen hrequests hroster
  · exact h.stay ha hname hgen hrequests hroster

theorem held?_of_early {checksum : Checksum} (h : 7 ≤ a.phase.stepsLeft) :
    x.held? a checksum = x.cache.entries.lookup checksum :=
  if_neg fun hle => by omega

theorem held?_of_not_kept {checksum : Checksum} (h : x.keeps a.target = false) :
    x.held? a checksum = x.cache.entries.lookup checksum := by
  apply if_neg
  intro hle
  rw [h] at hle
  cases hle.2

/-- At its lookup an attempt finds what it would have found at the beginning. -/
theorem Stored.found? (h : x.Stored s.cache a) (options : s.options = x.options)
    (hp : a.phase = .entered) (hu : s.usesCache = true) :
    x.found? a.target = (s.cache.lookup (x.key a.target) s.options.cacheMode.serves).1 := by
  have hmode : x.options.cacheMode ≠ .off := by
    rw [← options]
    exact of_decide_eq_true hu
  rw [Setting.found?, if_pos hmode, options]
  refine (Cache.lookup_fst_congr fun checksum hc => ?_).symm
  rw [h checksum hc, held?_of_early (by rw [hp]; decide)]

/-- Only what the verifier has found is kept. -/
theorem held?_turn (he : x.Expected a) (h : x.Stored s.cache a) (allowed : x.Allows a q)
    (options : s.options = x.options) (live : x.ticket.isCancelled s a = false)
    (hp : ∀ r, a.phase ≠ .answered r)
    (hturn : Attempt.Turn x.ticket slot s tray a q s' tray' a') (checksum : Checksum) :
    x.held? a' checksum = x.held? a checksum := by
  have htarget := hturn.target
  have hleft := hturn.stepsLeft
  by_cases hlate : a.phase.stepsLeft ≤ 6
  · obtain ⟨p, -, hr⟩ := he.result hlate
    rw [held?, held?, hturn.result hr, hr, htarget]
    have hlate' : a'.phase.stepsLeft ≤ 6 := by omega
    simp only [hlate, hlate']
  by_cases hlate' : a'.phase.stepsLeft ≤ 6
  · have hnot : x.keeps a.target = false := by
      cases hturn with
      | @hit r u cache hphase _ hu hl =>
        have hfound : x.found? a.target = some r := by
          rw [h.found? options hphase hu]
          exact congrArg Prod.fst hl
        simp [keeps, hfound]
      | @fault session job f hphase =>
        unfold Expected at he
        rw [hphase] at he
        cases allowed with
        | answered hphase' hgives =>
          cases hphase.symm.trans hphase'
          cases hgives with
          | fault herror =>
            obtain ⟨-, rfl⟩ := he
            simp [keeps, herror, Except.isOk, Except.toBool]
      | crash =>
        cases allowed with
        | answered _ hgives => cases hgives
      | refuse => cases allowed
      | stopEarly _ hc | stopLate _ hc => cases live.symm.trans hc
      | keep hphase => exact absurd hphase (hp _)
      | report hphase | settle hphase | leave hphase | announce hphase | deliver hphase
      | write hphase => simp [hphase, Phase.stepsLeft] at hlate
      | _ => simp [Attempt.moved, Phase.stepsLeft] at hlate'
    rw [held?_of_not_kept hnot, held?_of_not_kept (by rw [htarget]; exact hnot)]
  · rw [held?_of_early (by omega), held?_of_early (by omega)]

/-- What an attempt leaves under its own checksum. -/
theorem Stored.turn (h : x.Stored s.cache a) (he : x.Expected a) (allowed : x.Allows a q)
    (options : s.options = x.options) (live : x.ticket.isCancelled s a = false)
    (hturn : Attempt.Turn x.ticket slot s tray a q s' tray' a') : x.Stored s'.cache a' := by
  intro checksum hc
  rw [hturn.target] at hc
  by_cases hp : ∃ r, a.phase = .answered r
  · obtain ⟨r, hp⟩ := hp
    have hexpected := he
    unfold Expected at hexpected
    rw [hp] at hexpected
    obtain ⟨hnone, f, elapsed, hok, -⟩ := hexpected
    have hearly := h checksum hc
    rw [held?_of_early (by rw [hp]; exact Nat.le_refl 7)] at hearly
    have hkeeps : x.keeps a.target = s.usesCache := by
      simp [keeps, hnone, hok, Except.isOk, Except.toBool, Shared.usesCache, options]
    have hcache := (hturn.of_phase_answered hp).2
    cases hu : s.usesCache with
    | true =>
      rw [hu, if_pos rfl] at hcache
      have hkey : x.ticket.key a = x.key a.target := rfl
      have hresult : a'.phase.result? = some r := hturn.result (by rw [hp]; rfl)
      have hleft := hturn.stepsLeft
      rw [hp] at hleft
      rw [hcache, hkey, Cache.lookup_insert hc, if_pos rfl, held?, hturn.target, if_pos, hresult]
      · rfl
      · exact ⟨Nat.le_of_lt_succ hleft, hkeeps.trans hu⟩
    | false =>
      rw [hu] at hcache
      rw [held?_of_not_kept (by rw [hturn.target, hkeeps, hu]), ← hearly, hcache]
      rfl
  · have hnot : ∀ r, a.phase ≠ .answered r := fun r hr => hp ⟨r, hr⟩
    rw [hturn.entries hnot, h checksum hc, held?_turn he h allowed options live hnot hturn]

/-- Under the checksum of another attempt nothing changes. -/
theorem lookup_turn_of_ne (hturn : Attempt.Turn x.ticket slot s tray a q s' tray' a')
    {checksum : Checksum} (hc : (x.key a.target).checksum ≠ some checksum) :
    s'.cache.entries.lookup checksum = s.cache.entries.lookup checksum := by
  by_cases hp : ∃ r, a.phase = .answered r
  · obtain ⟨r, hp⟩ := hp
    rw [(hturn.of_phase_answered hp).2]
    split
    · have hkey : x.ticket.key a = x.key a.target := rfl
      cases hown : (x.key a.target).checksum with
      | none => rw [Cache.insert_of_undefined (hkey ▸ hown)]
      | some own =>
        rw [Cache.lookup_insert (hkey ▸ hown), if_neg]
        intro h
        subst h
        exact hc hown
    · rfl
  · rw [hturn.entries fun r hr => hp ⟨r, hr⟩]

/-- Texts are handed in and written in the order of the slots. -/
theorem Collects.turn (he : x.Expected a) (he' : x.Expected a') (ha : as[slot]? = some a)
    (hturn : Attempt.Turn x.ticket slot s tray a q s' tray' a') (working : s.sink.broken = false)
    (h : x.Collects base tray.collector s.sink as) :
    s'.sink.broken = false ∧ x.Collects base tray'.collector s'.sink (as.set slot a') := by
  obtain ⟨given, htracks, hlength, hgiven⟩ := h
  have hlt : slot < as.length := (List.getElem?_eq_some_iff.mp ha).1
  have hleft := hturn.stepsLeft
  obtain ⟨own, hown, hin⟩ := hgiven slot a ha
  rcases hturn.output with ⟨hearly, hcollector, hsink⟩ | ⟨c, hp, hp', hcollector, hsink⟩ |
    ⟨e, hp, hp', hcollector, hsink⟩ | ⟨reason, hp'⟩
  · rw [hsink, hcollector]
    refine ⟨working, given, htracks, by rw [List.length_set]; exact hlength, fun i b hb => ?_⟩
    rcases getElem?_set_cases hb with ⟨rfl, rfl⟩ | ⟨-, hb⟩
    · rw [HandedIn, if_neg (by omega)] at hin
      exact ⟨own, hown, by rw [HandedIn, if_neg (by omega)]; exact hin⟩
    · exact hgiven i b hb
  · rw [HandedIn, if_neg (by rw [hp]; exact Nat.not_succ_le_self 1)] at hin
    subst hin
    rw [hsink, hcollector]
    refine ⟨working, given.set slot (some c.text), htracks.add hown,
      by rw [List.length_set, List.length_set]; exact hlength, fun i b hb => ?_⟩
    rcases getElem?_set_cases hb with ⟨rfl, rfl⟩ | ⟨hi, hb⟩
    · refine ⟨some c.text, List.getElem?_set_self (by omega), ?_⟩
      unfold Expected at he
      rw [hp] at he
      obtain ⟨p, hcomes, rfl⟩ := he
      rw [HandedIn, if_pos (by rw [hp']; exact Nat.le_refl 1), hturn.target, hp']
      exact ⟨p, hcomes, rfl, rfl⟩
    · rw [List.getElem?_set_ne (Ne.symm hi)]
      exact hgiven i b hb
  · obtain ⟨n, c', sink', hwrite, htracks', hworking, -⟩ := htracks.write working
    rw [hsink, hcollector, hwrite]
    refine ⟨hworking, given, htracks', by rw [List.length_set]; exact hlength, fun i b hb => ?_⟩
    rcases getElem?_set_cases hb with ⟨rfl, rfl⟩ | ⟨-, hb⟩
    · rw [HandedIn, if_pos (by rw [hp]; exact Nat.le_refl 1)] at hin
      obtain ⟨p, hcomes, hresult, htext⟩ := hin
      refine ⟨own, hown, ?_⟩
      rw [HandedIn, if_pos (by rw [hp']; exact Nat.zero_le 1), hturn.target]
      exact ⟨p, hcomes, hturn.result hresult, htext⟩
    · exact hgiven i b hb
  · unfold Expected at he'
    rw [hp'] at he'
    exact he'.elim

/-- Nothing is left to do for an attempt that has been awaited. -/
theorem OnWay.not_awaited (h : x.OnWay ts base g₀ s b) (ha : b.attempts[slot]? = some a)
    (hleft : 0 < a.phase.stepsLeft) : b.endings.length ≤ slot := by
  by_contra hlt
  obtain ⟨a', ha', hp⟩ := h.endings slot _ (List.getElem?_eq_getElem (by omega))
  cases ha.symm.trans ha'
  rw [hp] at hleft
  exact Nat.lt_irrefl 0 hleft

/-- **The turn of an attempt keeps a batch on its way.** -/
theorem OnWay.turn (h : x.OnWay ts base g₀ s b) (apart : x.Apart ts) (lasting : x.verifier.Lasting)
    (ha : b.attempts[slot]? = some a) (allowed : x.Allows a q)
    (hturn : Attempt.Turn b.ticket slot s b.tray a q s' tray' a') :
    x.OnWay ts base g₀ s' (b.withAttempt slot tray' a') := by
  rw [h.ticket] at hturn
  have hlt : slot < b.attempts.length := (List.getElem?_eq_some_iff.mp ha).1
  have he := h.expected slot a ha
  have live := h.quiet.not_cancelled ha
  have hstored := h.stored slot a ha
  have he' : x.Expected a' :=
    he.turn hturn lasting allowed h.options live (hstored.found? h.options)
  have hunawaited : b.endings.length ≤ slot :=
    h.not_awaited ha (Nat.lt_of_le_of_lt (Nat.zero_le _) hturn.stepsLeft)
  obtain ⟨hworking, hcollected⟩ := h.collected.turn he he' ha hturn h.working
  refine ⟨hturn.options.trans h.options, h.ticket, ?_, ?_, h.quiet.turn apart h.targets ha he hturn,
    ?_, ?_, ?_, ?_, hworking, hcollected, ?_, ?_⟩
  · show (b.attempts.set slot a').map (·.target) = ts
    rw [map_set_of_eq ha hturn.target, h.targets]
  · intro i c hc
    rcases getElem?_set_cases hc with ⟨-, rfl⟩ | ⟨-, hc⟩
    · exact he'
    · exact h.expected i c hc
  · rw [hturn.permits_withAttempt ha]
    exact h.permits
  · intro i c hc
    rcases getElem?_set_cases hc with ⟨-, rfl⟩ | ⟨hi, hc⟩
    · exact hstored.turn he allowed h.options live hturn
    · intro checksum hchecksum
      rw [lookup_turn_of_ne hturn (apart.checksum_ne h.targets hc ha hi hchecksum)]
      exact h.stored i c hc checksum hchecksum
  · intro checksum hnone
    have hmem : a.target ∈ ts := by
      rw [← h.targets]
      exact List.mem_map_of_mem (List.mem_of_getElem? ha)
    rw [lookup_turn_of_ne hturn (hnone _ hmem)]
    exact h.others checksum hnone
  · have hsum := sum_map_set Attempt.counted ha a'
    have hstatistics := hturn.statistics
    rw [h.statistics] at hstatistics
    exact add_right_cancel (hstatistics.trans hsum.symm)
  · intro i e hi
    obtain ⟨c, hc, hp⟩ := h.endings i e hi
    have hi' : i < b.endings.length := (List.getElem?_eq_some_iff.mp hi).1
    have hne : slot ≠ i := by omega
    exact ⟨c, (List.getElem?_set_ne hne).trans hc, hp⟩
  · intro r hr
    have := (h.closed r hr).1
    omega

/-! ### The batch takes a turn -/

theorem ofEndings_of_completed {es : List Ending} (h : ∀ e ∈ es, ∃ r, e = .completed r) :
    BatchOutcome.ofEndings es = .completed := by
  have hfatal : es.findSome? Ending.fatal? = none := by
    refine List.findSome?_eq_none_iff.mpr fun e he => ?_
    obtain ⟨r, rfl⟩ := h e he
    rfl
  have hcancelled : Ending.cancelled ∉ es := fun hmem => by
    obtain ⟨r, hr⟩ := h _ hmem
    cases hr
  rw [BatchOutcome.ofEndings, hfatal]
  exact if_neg hcancelled

theorem OnWay.outcome (h : x.OnWay ts base g₀ s b) : b.report.outcome = .completed := by
  apply ofEndings_of_completed
  intro e he
  obtain ⟨i, hi⟩ := List.mem_iff_getElem?.mp he
  obtain ⟨a, ha, hp⟩ := h.endings i e hi
  have hexpected := h.expected i a ha
  unfold Expected at hexpected
  rw [hp] at hexpected
  obtain ⟨p, -, rfl⟩ := hexpected
  exact ⟨p.result, rfl⟩

theorem OnWay.ended (h : x.OnWay ts base g₀ s b) (hall : b.attempts.length ≤ b.endings.length)
    {i : Nat} (ha : b.attempts[i]? = some a) :
    ∃ e, b.endings[i]? = some e ∧ a.phase = .ended e := by
  have hlt : i < b.attempts.length := (List.getElem?_eq_some_iff.mp ha).1
  have he : b.endings[i]? = some b.endings[i] := List.getElem?_eq_getElem (by omega)
  obtain ⟨a', ha', hp⟩ := h.endings i _ he
  cases ha.symm.trans ha'
  exact ⟨_, he, hp⟩

/-- Once all attempts have been awaited there is a report, and all of the text is written. -/
theorem OnWay.reported (h : x.OnWay ts base g₀ s b)
    (hall : b.attempts.length ≤ b.endings.length) :
    ∃ c sink, b.reported s.sink = (.ok b.report, c, sink) ∧ sink.broken = false ∧
      c.flushed = b.attempts.length ∧ x.Collects base c sink b.attempts := by
  obtain ⟨given, htracks, hlength, hgiven⟩ := h.collected
  obtain ⟨n, c, sink, hwrite, htracks', hworking, hend⟩ := htracks.write h.working
  have hflushed : c.flushed = b.attempts.length := by
    rcases hend with hend | hend
    · exact hend.trans hlength
    have hlt : c.flushed < b.attempts.length := by
      rw [← hlength]
      exact (List.getElem?_eq_some_iff.mp hend).1
    have ha := List.getElem?_eq_getElem hlt
    obtain ⟨e, -, hp⟩ := h.ended hall ha
    obtain ⟨text, htext, hin⟩ := hgiven _ _ ha
    cases hend.symm.trans htext
    rw [HandedIn, if_pos (by rw [hp]; exact Nat.zero_le 1)] at hin
    obtain ⟨p, -, -, hnone⟩ := hin
    cases hnone
  refine ⟨c, sink, ?_, hworking, hflushed, given, htracks', hlength, hgiven⟩
  have hclosing : Batch.closingLine b.report.outcome = "" := by
    rw [h.outcome]
    rfl
  unfold Batch.reported
  simp only [hwrite, hclosing, Sink.write_nothing]

/-- **The turn of a batch keeps it on its way.** -/
theorem OnWay.batchTurn {c : Call} {b' : Batch} (h : x.OnWay ts base g₀ s b)
    (hturn : Batch.Turn s b c s' b') : x.OnWay ts base g₀ s' b' := by
  cases hturn with
  | @gather a e hstage ha hp =>
    refine ⟨h.options, h.ticket, h.targets, h.expected, h.quiet, h.permits, h.stored, h.others,
      h.statistics, h.working, h.collected, ?_, ?_⟩
    · intro i e' hi
      have hi : (b.endings ++ [e])[i]? = some e' := hi
      rcases Nat.lt_trichotomy i b.endings.length with hlt | rfl | hlt
      · rw [List.getElem?_append_left hlt] at hi
        exact h.endings i e' hi
      · rw [List.getElem?_concat_length] at hi
        cases hi
        exact ⟨a, ha, hp⟩
      · rw [List.getElem?_eq_none (by rw [List.length_append]; exact hlt)] at hi
        cases hi
    · intro r hr
      rcases hr with hr | hr <;> cases hstage.symm.trans hr
  | @miss a reason hstage ha hp =>
    have he := h.expected _ a ha
    unfold Expected at he
    rw [hp] at he
    exact he.elim
  | close hstage hall =>
    obtain ⟨c, sink, hreported, hworking, hflushed, hcollected⟩ := h.reported hall
    unfold Batch.close
    rw [hreported]
    have hq := h.quiet
    refine ⟨h.options, h.ticket, h.targets, h.expected,
      ⟨hq.token, hq.superseded, hq.begun, hq.later, hq.current⟩, h.permits, h.stored, h.others,
      h.statistics, hworking, hcollected, h.endings, ?_⟩
    intro r hr
    refine ⟨hall, hflushed, ?_⟩
    rcases hr with hr | hr
    · cases hr
      rfl
    · cases hr
  | @part r hstage =>
    have hclosed := h.closed r (.inl hstage)
    have hq := h.quiet
    refine ⟨h.options, h.ticket, h.targets, h.expected,
      ⟨hq.token, hq.superseded, hq.begun, hq.later, hq.current⟩, h.permits, h.stored, h.others,
      h.statistics, h.working, h.collected, h.endings, ?_⟩
    intro r' hr'
    rcases hr' with hr' | hr'
    · cases hr'
    · cases hr'
      exact hclosed

end Turn

end Setting

end Verdict
