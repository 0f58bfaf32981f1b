import Verdict.Proofs.Engine.Rest
import Verdict.Proofs.Engine.Schedule

/-! The attempts of a batch may be interleaved.

Where no other batch is under way, nothing is cancelled, the sink works and the verifier's
answer depends on the job alone, every schedule of a batch leads to the same report, the same
text and the same kept results (`Leaves`), up to what the clock says, and so to those of the
attempts made one after the other. -/
namespace Verdict

def Ending.untimed : Ending → Ending
  | .completed r => .completed r.untimed
  | e => e

def CacheEntry.untimed (e : CacheEntry) : CacheEntry := { e with result := e.result.untimed }

/-- The time that was taken is told only where tracing is asked for. -/
theorem Result.render_untimed {o : Options} (h : o.trace = false) (r : Result) :
    r.untimed.render o = r.render o := by
  have hline : r.untimed.outcomeLine o = r.outcomeLine o := by
    simp only [outcomeLine, effort, h, Bool.false_eq_true, if_false]
    rfl
  rw [render, hline]
  rfl

theorem Statistics.ofRun_untimed (r : Result) : ofRun r.untimed = ofRun r := rfl

theorem untimed_entry (key : CacheKey) (r : Result) :
    (Cache.entry key r).untimed = Cache.entry key r.untimed := rfl

theorem map_eq_map_of_forall₂ {α β γ : Type} {R : α → β → Prop} {f : α → γ} {g : β → γ}
    {l : List α} {m : List β} (h : List.Forall₂ R l m) (hfg : ∀ a b, R a b → f a = g b) :
    l.map f = m.map g := by
  induction h with
  | nil => rfl
  | cons hab _ ih => rw [List.map_cons, List.map_cons, hfg _ _ hab, ih]

theorem getElem?_forall₂ {α β : Type} {R : α → β → Prop} {l : List α} {m : List β}
    (h : List.Forall₂ R l m) {i : Nat} {a : α} {b : β} (ha : l[i]? = some a) (hb : m[i]? = some b) :
    R a b := by
  obtain ⟨hi, rfl⟩ := List.getElem?_eq_some_iff.mp ha
  obtain ⟨hj, rfl⟩ := List.getElem?_eq_some_iff.mp hb
  exact h.get hi hj

/-- What two batches leave, the same but for what the clock says. Behind `base` the text has the
same words ahead of the report on each result; the reports differ at most in the time that
was taken, and not even there if it is not traced. -/
structure Alike (o : Options) (base : String) (r r' : BatchReport) (s s' : Shared) : Prop where
  requestId : r.requestId = r'.requestId
  outcome : r.outcome = .completed ∧ r'.outcome = .completed
  endings : r.endings.map Ending.untimed = r'.endings.map Ending.untimed
  statistics : r.statistics = r'.statistics
  text : ∃ heads : List String, heads.length = r.results.length ∧
    s.sink.contents =
      base ++ String.join (List.zipWith (· ++ ·) heads (r.results.map (·.render o))) ∧
    s'.sink.contents =
      base ++ String.join (List.zipWith (· ++ ·) heads (r'.results.map (·.render o)))
  untraced : o.trace = false → s.sink.contents = s'.sink.contents
  entries : ∀ checksum, (s.cache.entries.lookup checksum).map CacheEntry.untimed =
    (s'.cache.entries.lookup checksum).map CacheEntry.untimed

namespace Setting
open Engine

variable {x : Setting} {ts : List Target} {base : String} {g₀ : Nat} {s s' : Shared} {b : Batch}

/-- An attempt that has ended with this reported. -/
def Left (x : Setting) (a : Attempt) (p : Pending) : Prop :=
  x.Comes a.target p ∧ a.phase = .ended (.completed p.result)

/-- What a batch for these targets leaves when this has been reported of them. -/
structure Leaves (x : Setting) (ts : List Target) (base : String) (ps : List Pending) (s : Shared)
    (r : BatchReport) : Prop where
  comes : List.Forall₂ x.Comes ts ps
  requestId : r.requestId = x.ticket.requestId
  outcome : r.outcome = .completed
  endings : r.endings = ps.map fun p => .completed p.result
  statistics : r.statistics = (ps.map fun p => Statistics.ofRun p.result).sum
  text : s.sink.contents = base ++ String.join (List.zipWith x.text ts ps)
  kept : ∀ (i : Nat) t p checksum, ts[i]? = some t → ps[i]? = some p →
    (x.key t).checksum = some checksum → s.cache.entries.lookup checksum =
      if x.keeps t = true then some (Cache.entry (x.key t) p.result)
      else x.cache.entries.lookup checksum
  others : ∀ checksum, (∀ t ∈ ts, (x.key t).checksum ≠ some checksum) →
    s.cache.entries.lookup checksum = x.cache.entries.lookup checksum

/-- Attempts that have ended have handed in the texts of what they reported. -/
theorem exists_left {as : List Attempt} {given : List (Option String)}
    (h : List.Forall₂ x.HandedIn as given) (hexpected : ∀ a ∈ as, x.Expected a)
    (hended : ∀ a ∈ as, ∃ e, a.phase = .ended e) :
    ∃ ps, List.Forall₂ x.Left as ps ∧
      given = (List.zipWith x.text (as.map (·.target)) ps).map some := by
  induction h with
  | nil => exact ⟨[], .nil, rfl⟩
  | @cons a text as given hin _ ih =>
    obtain ⟨ps, hps, hgiven⟩ := ih (fun c hc => hexpected c (List.mem_cons_of_mem _ hc))
      (fun c hc => hended c (List.mem_cons_of_mem _ hc))
    obtain ⟨e, hp⟩ := hended a List.mem_cons_self
    rw [HandedIn, if_pos (by rw [hp]; exact Nat.zero_le 1)] at hin
    obtain ⟨p, hcomes, hresult, rfl⟩ := hin
    have he := hexpected a List.mem_cons_self
    unfold Expected at he
    rw [hp] at he hresult
    obtain ⟨p', -, rfl⟩ := he
    have hresult : p'.result = p.result := Option.some.inj hresult
    refine ⟨p :: ps, .cons ⟨hcomes, by rw [hp, hresult]⟩ hps, ?_⟩
    rw [hgiven]
    rfl

theorem Collects.forall₂ {c : Collector} {sink : Sink} {as : List Attempt}
    (h : x.Collects base c sink as) :
    ∃ given, c.Tracks given base sink ∧ List.Forall₂ x.HandedIn as given := by
  obtain ⟨given, htracks, hlength, hgiven⟩ := h
  refine ⟨given, htracks, List.forall₂_iff_get.mpr ⟨hlength.symm, fun i hi hi' => ?_⟩⟩
  obtain ⟨text, htext, hin⟩ := hgiven i _ (List.getElem?_eq_getElem hi)
  rw [List.getElem?_eq_getElem hi'] at htext
  cases htext
  exact hin

/-- Once all attempts have been awaited, they have ended as noted. -/
theorem OnWay.phases (h : x.OnWay ts base g₀ s b) (hall : b.attempts.length ≤ b.endings.length) :
    b.attempts.map (·.phase) = b.endings.map .ended := by
  refine List.ext_getElem? fun i => ?_
  rw [List.getElem?_map, List.getElem?_map]
  cases he : b.endings[i]? with
  | some e =>
    obtain ⟨a, ha, hp⟩ := h.endings i e he
    rw [ha]
    exact congrArg some hp
  | none =>
    have hle : b.endings.length ≤ i := List.getElem?_eq_none_iff.mp he
    rw [List.getElem?_eq_none (by omega)]
    rfl

/-- **What a batch leaves that has finished undisturbed.** -/
theorem OnWay.leaves (h : x.OnWay ts base g₀ s b) (hdone : b.outcome?.isSome = true) :
    ∃ r ps, b.outcome? = some (.ok r) ∧ x.Leaves ts base ps s r := by
  obtain ⟨r, hstage⟩ : ∃ r, b.stage = .finished r := by
    cases hstage : b.stage with
    | finished r => exact ⟨r, rfl⟩
    | _ =>
      rw [Batch.outcome?, hstage] at hdone
      cases hdone
  obtain ⟨hall, hflushed, rfl⟩ := h.closed r (.inr hstage)
  have hended : ∀ a ∈ b.attempts, ∃ e, a.phase = .ended e := by
    intro a ha
    obtain ⟨i, hi⟩ := List.mem_iff_getElem?.mp ha
    obtain ⟨e, -, hp⟩ := h.ended hall hi
    exact ⟨e, hp⟩
  have hexpected : ∀ a ∈ b.attempts, x.Expected a := by
    intro a ha
    obtain ⟨i, hi⟩ := List.mem_iff_getElem?.mp ha
    exact h.expected i a hi
  obtain ⟨given, htracks, hgiven⟩ := h.collected.forall₂
  obtain ⟨ps, hps, rfl⟩ := exists_left hgiven hexpected hended
  have hlength := hps.length_eq
  refine ⟨b.report, ps, by rw [Batch.outcome?, hstage], ?_,
    congrArg Ticket.requestId h.ticket, h.outcome, ?_, ?_, ?_, ?_, h.others⟩
  · rw [← h.targets, List.forall₂_map_left_iff]
    exact hps.imp fun _ _ hleft => hleft.1
  · have hphases : b.attempts.map (·.phase) = (ps.map fun p => Ending.completed p.result).map .ended := by
      rw [List.map_map]
      exact map_eq_map_of_forall₂ hps fun _ _ hleft => hleft.2
    refine (List.map_inj_right fun _ _ => Phase.ended.inj).mp (h.phases hall |>.symm.trans hphases)
  · have hcounted : b.attempts.map Attempt.counted = ps.map fun p => Statistics.ofRun p.result := by
      apply map_eq_map_of_forall₂ hps
      intro a p hleft
      refine Attempt.counted_of_late ?_ ?_
      · rw [hleft.2]
        exact Nat.zero_le 5
      · rw [hleft.2]
        rfl
    show b.tray.statistics = _
    rw [h.statistics, hcounted]
  · rw [h.targets] at htracks
    apply htracks.contents_of_full
    rw [hflushed, hgiven.length_eq, h.targets]
  · intro i t p checksum ht hp hc
    rw [← h.targets, List.getElem?_map] at ht
    obtain ⟨a, ha, rfl⟩ := Option.map_eq_some_iff.mp ht
    have hphase := (getElem?_forall₂ hps ha hp).2
    rw [h.stored i a ha checksum hc, held?, hphase]
    by_cases hkeeps : x.keeps a.target = true
    · rw [if_pos ⟨Nat.zero_le 6, hkeeps⟩, if_pos hkeeps]
      rfl
    · rw [if_neg fun hand => hkeeps hand.2, if_neg hkeeps]

/-! ### Two schedules -/

variable {ps ps' : List Pending} {r r' : BatchReport}

theorem agree_of_comes (h : List.Forall₂ x.Comes ts ps) (h' : List.Forall₂ x.Comes ts ps') :
    List.Forall₂ (fun p p' => p.preface = p'.preface ∧ p.result.untimed = p'.result.untimed)
      ps ps' := by
  induction h generalizing ps' with
  | nil =>
    cases h'
    exact .nil
  | cons hcomes _ ih =>
    cases h' with
    | cons hcomes' hrest' => exact .cons (hcomes.agree hcomes') (ih hrest')

/-- What the text says ahead of the report on each result. -/
def heads (x : Setting) (ts : List Target) (ps : List Pending) : List String :=
  List.zipWith (fun t preface => Ticket.heading x.options (.scheduled t) ++ preface) ts
    (ps.map (·.preface))

theorem zipWith_text (x : Setting) (ts : List Target) (ps : List Pending) :
    List.zipWith x.text ts ps =
      List.zipWith (· ++ ·) (x.heads ts ps) (ps.map fun p => p.result.render x.options) := by
  induction ts generalizing ps with
  | nil => rfl
  | cons t ts ih =>
    cases ps with
    | nil => rfl
    | cons p ps =>
      rw [List.zipWith_cons_cons, ih ps]
      rfl

theorem Leaves.results (h : x.Leaves ts base ps s r) : r.results = ps.map (·.result) := by
  rw [BatchReport.results, h.endings, List.filterMap_map]
  exact congrFun List.filterMap_eq_map ps

theorem Leaves.contents (h : x.Leaves ts base ps s r) : s.sink.contents = base ++ String.join
    (List.zipWith (· ++ ·) (x.heads ts ps) (r.results.map (·.render x.options))) := by
  rw [h.text, zipWith_text, h.results, List.map_map]
  rfl

/-- **Whatever the schedule, a batch leaves the same.** -/
theorem Leaves.alike (h : x.Leaves ts base ps s r) (h' : x.Leaves ts base ps' s' r') :
    Alike x.options base r r' s s' := by
  have hagree := agree_of_comes h.comes h'.comes
  have hheads : x.heads ts ps = x.heads ts ps' := by
    rw [heads, heads, map_eq_map_of_forall₂ hagree fun _ _ hpair => hpair.1]
  refine ⟨h.requestId.trans h'.requestId.symm, ⟨h.outcome, h'.outcome⟩, ?_, ?_,
    ⟨x.heads ts ps, ?_, h.contents, by rw [hheads]; exact h'.contents⟩, fun htrace => ?_,
    fun checksum => ?_⟩
  · rw [h.endings, h'.endings, List.map_map, List.map_map]
    exact map_eq_map_of_forall₂ hagree fun _ _ hpair => congrArg Ending.completed hpair.2
  · rw [h.statistics, h'.statistics]
    refine congrArg List.sum (map_eq_map_of_forall₂ hagree fun p p' hpair => ?_)
    rw [← Statistics.ofRun_untimed, hpair.2, Statistics.ofRun_untimed]
  · rw [heads, List.length_zipWith, h.results, List.length_map, List.length_map,
      h.comes.length_eq, Nat.min_self]
  · have hrender : (ps.map fun p => p.result.render x.options) =
        ps'.map fun p => p.result.render x.options := by
      apply map_eq_map_of_forall₂ hagree
      intro p p' hpair
      rw [← Result.render_untimed htrace p.result, hpair.2, Result.render_untimed htrace]
    rw [h.text, h'.text, zipWith_text, zipWith_text, hheads, hrender]
  · by_cases hown : ∃ t ∈ ts, (x.key t).checksum = some checksum
    · obtain ⟨t, ht, hc⟩ := hown
      obtain ⟨i, hi⟩ := List.mem_iff_getElem?.mp ht
      have hlt : i < ts.length := (List.getElem?_eq_some_iff.mp hi).1
      have hp := List.getElem?_eq_getElem (h.comes.length_eq ▸ hlt)
      have hp' := List.getElem?_eq_getElem (h'.comes.length_eq ▸ hlt)
      rw [h.kept i t _ checksum hi hp hc, h'.kept i t _ checksum hi hp' hc]
      have huntimed := (getElem?_forall₂ hagree hp hp').2
      split
      · rw [Option.map_some, Option.map_some, untimed_entry, huntimed, untimed_entry]
      · rfl
    · have hnone : ∀ t ∈ ts, (x.key t).checksum ≠ some checksum := fun t ht hc => hown ⟨t, ht, hc⟩
      rw [h.others checksum hnone, h'.others checksum hnone]

/-! ### The beginning -/

/-- The setting of a batch that is submitted now. -/
def ofSubmit (v : Verifier) (e : Engine) (requestId : String) (a : Analysis) : Setting :=
  ⟨v, e.shared.options, e.ticketFor requestId a, e.shared.cache⟩

/-- A batch that is submitted to an engine at rest is on its way. -/
theorem onWay_submit {e : Engine} (v : Verifier) (requestId : String) (a : Analysis)
    (ts : List Target) (orderly : e.Orderly) (rest : ∀ b ∈ e.batches, b.outcome?.isSome = true)
    (working : e.shared.sink.broken = false) :
    (ofSubmit v e requestId a).OnWay ts e.shared.sink.contents e.shared.roster.generation
      (e.submit requestId a ts).shared (.scheduled (e.ticketFor requestId a) ts) := by
  have hnew : ∀ (i : Nat) b, (ts.map Attempt.scheduled)[i]? = some b → ∃ t, b = .scheduled t := by
    intro i b hb
    obtain ⟨t, -, rfl⟩ := List.mem_map.mp (List.mem_of_getElem? hb)
    exact ⟨t, rfl⟩
  have hfirst := orderly.requests.find?_eq_none rest requestId
  refine
    { options := rfl
      ticket := rfl
      targets := ?_
      expected := fun i b hb => ?_
      quiet := ⟨orderly.requests.isRevoked_join hfirst, orderly.roster.superseded, Nat.le_refl _,
        fun i b g hb hg => ?_, fun name g hg => .inl (orderly.roster.current name g hg)⟩
      permits := ?_
      stored := fun i b hb checksum _ => ?_
      others := fun _ _ => rfl
      statistics := ?_
      working := working
      collected := ⟨List.replicate ts.length none, Collector.tracks_withSlots _ rfl, ?_,
        fun i b hb => ?_⟩
      endings := fun i b hb => ?_
      closed := fun r hr => ?_ }
  · show (ts.map Attempt.scheduled).map (·.target) = ts
    rw [List.map_map]
    exact List.map_id ts
  · obtain ⟨t, rfl⟩ := hnew i b hb
    rfl
  · obtain ⟨t, rfl⟩ := hnew i b hb
    cases hg
  · have hfree : e.shared.permits = e.shared.options.unitLimit := orderly.permits_of_rest rest
    have hnone := Batch.permits_scheduled (e.ticketFor requestId a) ts
    show e.shared.permits + (Batch.scheduled (e.ticketFor requestId a) ts).permits =
      e.shared.options.unitLimit
    omega
  · obtain ⟨t, rfl⟩ := hnew i b hb
    have hearly : 7 ≤ (Attempt.scheduled t).phase.stepsLeft := by
      show 7 ≤ 14
      omega
    rw [held?_of_early hearly]
    rfl
  · refine (sum_map_eq_zero fun i b hb => ?_).symm
    obtain ⟨t, rfl⟩ := hnew i b hb
    rfl
  · rw [List.length_replicate]
    exact (List.length_map _).symm
  · have hlt : i < (ts.map Attempt.scheduled).length := (List.getElem?_eq_some_iff.mp hb).1
    obtain ⟨t, rfl⟩ := hnew i b hb
    rw [List.length_map] at hlt
    exact ⟨none, List.getElem?_replicate_of_lt hlt, rfl⟩
  · cases hb
  · rcases hr with hr | hr <;> cases hr

end Setting

namespace Engine

/-- The report of the batch with this number, or why it has none, once it has finished. -/
def outcome? (e : Engine) (n : Nat) : Option (Except EngineError BatchReport) :=
  e.batches[n]?.bind Batch.outcome?

/-- **The attempts of a batch may be interleaved.** On an engine that began with any cache and has
come to rest by any run, let a batch be submitted, for any targets no two of which have a name
or a defined checksum in common, and let the verifier answer each job in one way and not lose
the solver. Then one schedule makes the attempts one after the other. And any schedule is
bounded, goes on until the batch has finished, and then leaves what any other leaves that
makes the attempts one after the other: the same endings in the order of the targets, all of
them with results, the same counts, the same text and the same entries of the cache. -/
theorem interleaved_as_inOrder {o : Options} {c : Cache} {e₀ e : Engine} {past : List Move}
    {v : Verifier} {ts : List Target} (requestId : String) (a : Analysis)
    (created : create o = .ok e₀) (ran : (e₀.withCache c).run past = some e)
    (rest : ∀ b ∈ e.batches, b.outcome?.isSome = true) (working : e.shared.sink.broken = false)
    (apart : (Setting.ofSubmit v e requestId a).Apart ts) (lasting : v.Lasting) :
    let n := e.batches.length
    let start := e.submit requestId a ts
    (∃ ms e₂, Schedule v n start ms e₂ ∧ InOrder ms ∧ (e₂.outcome? n).isSome = true) ∧
    ∀ ms e₁, Schedule v n start ms e₁ →
      ms.length ≤ 15 * ts.length + 2 ∧
      (e₁.outcome? n = none → ∃ m e', Conforms v n e₁ m ∧ e₁.step m = some e') ∧
      ∀ ms' e₂, Schedule v n start ms' e₂ → InOrder ms' →
        (e₁.outcome? n).isSome = true → (e₂.outcome? n).isSome = true →
        ∃ r₁ r₂, e₁.outcome? n = some (.ok r₁) ∧ e₂.outcome? n = some (.ok r₂) ∧
          r₁.results.length = ts.length ∧
          Alike e.shared.options e.shared.sink.contents r₁ r₂ e₁.shared e₂.shared := by
  intro n start
  let x := Setting.ofSubmit v e requestId a
  let first := Batch.scheduled (e.ticketFor requestId a) ts
  have horderly : e.Orderly := orderly_of_run (orderly_of_create created c) ran
  have hstart := Setting.onWay_submit v requestId a ts horderly rest working
  have hfirst : start.batches[n]? = some first := List.getElem?_concat_length
  have hreached : ∀ ms e₁, Schedule v n start ms e₁ → ∃ b, e₁.batches[n]? = some b ∧
      x.OnWay ts e.shared.sink.contents e.shared.roster.generation e₁.shared b ∧
      ms.length + b.remaining ≤ first.remaining := fun ms e₁ hs =>
    hstart.schedule apart lasting hfirst hs
  have hfinished : ∀ ms e₁, Schedule v n start ms e₁ → (e₁.outcome? n).isSome = true →
      ∃ r ps, e₁.outcome? n = some (.ok r) ∧
        x.Leaves ts e.shared.sink.contents ps e₁.shared r := by
    intro ms e₁ hs hdone
    obtain ⟨b, hb, hway, -⟩ := hreached ms e₁ hs
    rw [outcome?, hb, Option.bind_some] at hdone ⊢
    exact hway.leaves hdone
  refine ⟨?_, fun ms e₁ hs => ⟨?_, fun hopen => ?_, fun ms' e₂ hs' _ hdone₁ hdone₂ => ?_⟩⟩
  · have hnew : ∀ (i : Nat) b, first.attempts[i]? = some b → b.phase = .scheduled := by
      intro i b hb
      obtain ⟨t, -, rfl⟩ := List.mem_map.mp (List.mem_of_getElem? hb)
      rfl
    obtain ⟨ms, e₂, b, hs, hinOrder, hb, hdone⟩ := hstart.exists_inOrder apart lasting hfirst hnew
    exact ⟨ms, e₂, hs, hinOrder, by rw [outcome?, hb, Option.bind_some]; exact hdone⟩
  · obtain ⟨b, -, -, hle⟩ := hreached ms e₁ hs
    have hremaining : first.remaining = 15 * ts.length + 2 := Batch.remaining_scheduled _ ts
    omega
  · obtain ⟨b, hb, hway, -⟩ := hreached ms e₁ hs
    rw [outcome?, hb, Option.bind_some] at hopen
    exact hway.progress hb hopen
  · obtain ⟨r₁, ps₁, hr₁, hleaves₁⟩ := hfinished ms e₁ hs hdone₁
    obtain ⟨r₂, ps₂, hr₂, hleaves₂⟩ := hfinished ms' e₂ hs' hdone₂
    refine ⟨r₁, r₂, hr₁, hr₂, ?_, hleaves₁.alike hleaves₂⟩
    rw [hleaves₁.results, List.length_map, hleaves₁.comes.length_eq]

end Engine

/-- An empty implementation of this name. -/
def hollow (name : String) (procedure : DeclId) : Declaration :=
  ⟨name, .unknown, [⟨"checksum", [.text name]⟩], .implementation ⟨procedure, [], [], []⟩⟩

/-- A program with two implementations. -/
def siblings : Program where
  decls := #[
    ⟨"Left", .unknown, [], .procedure ⟨[], [], [], []⟩⟩,
    ⟨"Right", .unknown, [], .procedure ⟨[], [], [], []⟩⟩,
    hollow "Left" ⟨0⟩,
    hollow "Right" ⟨1⟩]

def siblingTargets : List Target :=
  [⟨⟨2⟩, hollow "Left" ⟨0⟩, ⟨⟨0⟩, [], [], []⟩⟩, ⟨⟨3⟩, hollow "Right" ⟨1⟩, ⟨⟨1⟩, [], [], []⟩⟩]

def sideBySide : Options := { Options.standard 2 with cacheMode := .on }

theorem siblings_as_inOrder : ∃ e₀ ms e r, Engine.create sideBySide = .ok e₀ ∧
    Engine.Schedule (fun _ => .ok (.bare .correct)) 0
      (e₀.submit "both" (.ofProgram siblings) siblingTargets) ms e ∧
    InOrder ms ∧ ms.length ≤ 32 ∧ e.outcome? 0 = some (.ok r) ∧ r.outcome = .completed ∧
    r.results.length = 2 := by
  have hdigests : Checksum.ofText "Left" ≠ .ofText "Right" := by decide +kernel
  have happart : (Setting.ofSubmit (fun _ => .ok (.bare .correct))
      ((⟨.fresh sideBySide, [], 0⟩ : Engine).withCache .fresh) "both" (.ofProgram siblings)).Apart
      siblingTargets := by
    refine ⟨by decide, .cons (fun t ht checksum hc hc' => ?_) (.cons (fun _ ht => nomatch ht) .nil)⟩
    obtain rfl := List.mem_singleton.mp ht
    exact hdigests (Option.some.inj (hc.trans hc'.symm))
  obtain ⟨⟨ms, e, hs, hinOrder, hdone⟩, hall⟩ :=
    @Engine.interleaved_as_inOrder sideBySide .fresh _ _ [] _ _ "both" (.ofProgram siblings) rfl
      rfl (fun _ hb => (List.not_mem_nil hb).elim) rfl happart (fun _ _ h => nomatch h)
  obtain ⟨hlength, -, hsame⟩ := hall ms e hs
  obtain ⟨r, r', hr, -, hresults, halike⟩ := hsame ms e hs hinOrder hdone hdone
  exact ⟨_, ms, e, r, rfl, hs, hinOrder, hlength, hr, halike.outcome.1, hresults⟩

end Verdict
