import Verdict.Proofs.Engine.Rest
import Verdict.Proofs.Engine.Stopping
import Verdict.Proofs.Engine.Told

/-! What the report of a batch says of its attempts.

`Booked` is kept by every turn of a batch and of its attempts: the counts are those of the results
that have been reported, and the endings are those of the attempts that have been awaited. A
batch is concluded once all are, so that its report has one ending for each target, in order, and
counts each result once (`report_consistent`). -/
namespace Verdict

/-! ### Counts -/

namespace Statistics

theorem foldl_record (rs : List Result) (s : Statistics) :
    rs.foldl (fun s r => s.record r.outcome r.errorCount r.wasCached) s =
      s + (rs.map ofRun).sum := by
  induction rs generalizing s with
  | nil => exact (add_zero s).symm
  | cons r rest ih =>
    rw [List.foldl_cons, ih, record_eq_add, List.map_cons, List.sum_cons, add_assoc]

/-- What is served from the cache is part of what is counted. -/
def Within (s : Statistics) : Prop := ∃ rest, s.all = s.cached + rest

theorem Within.add {s t : Statistics} (hs : s.Within) (ht : t.Within) : (s + t).Within := by
  obtain ⟨u, hu⟩ := hs
  obtain ⟨v, hv⟩ := ht
  refine ⟨u + v, ?_⟩
  rw [add_def, hu, hv, add_add_add_comm]

theorem within_ofRun (r : Result) : (ofRun r).Within := by
  unfold ofRun record
  cases r.wasCached with
  | true => exact ⟨0, (add_zero _).symm⟩
  | false => exact ⟨_, (zero_add _).symm⟩

theorem within_sum (rs : List Result) : ((rs.map ofRun).sum).Within := by
  induction rs with
  | nil => exact ⟨0, rfl⟩
  | cons r rest ih =>
    rw [List.map_cons, List.sum_cons]
    exact (within_ofRun r).add ih

theorem Within.counts {s : Statistics} (h : s.Within) :
    List.Forall₂ (· ≤ ·) s.cached.counts s.all.counts := by
  obtain ⟨rest, hrest⟩ := h
  simp [hrest, Tally.counts, Tally.add_def]

end Statistics

/-! ### Outcomes -/

namespace Ending
variable {x : Ending}

theorem fatal?_eq_some {reason : String} : x.fatal? = some reason ↔ x = .fatal reason := by
  cases x <;> simp [fatal?]

theorem fatal?_eq_none : x.fatal? = none ↔ ∀ reason, x ≠ .fatal reason := by
  cases x <;> simp [fatal?]

end Ending

namespace BatchOutcome
variable {es : List Ending}

/-- The first fatal ending decides. -/
theorem ofEndings_eq_fatal {reason : String} : ofEndings es = .fatal reason ↔
    ∃ before after, es = before ++ .fatal reason :: after ∧ ∀ other, .fatal other ∉ before := by
  have hfirst : ofEndings es = .fatal reason ↔ es.findSome? Ending.fatal? = some reason := by
    unfold ofEndings
    split
    · rename_i other hother
      rw [hother, fatal.injEq, Option.some.injEq]
    · rename_i hnone
      rw [hnone]
      split <;> exact ⟨nofun, nofun⟩
  simp only [hfirst, List.findSome?_eq_some_iff, Ending.fatal?_eq_some, Ending.fatal?_eq_none]
  constructor
  · rintro ⟨before, _, after, rfl, rfl, hbefore⟩
    exact ⟨before, after, rfl, fun other hmem => hbefore _ hmem other rfl⟩
  · rintro ⟨before, after, rfl, hbefore⟩
    refine ⟨before, _, after, rfl, rfl, fun x hx other hother => ?_⟩
    exact hbefore other (hother ▸ hx)

theorem findSome?_fatal?_eq_none :
    es.findSome? Ending.fatal? = none ↔ ∀ reason, .fatal reason ∉ es := by
  simp only [List.findSome?_eq_none_iff, Ending.fatal?_eq_none]
  constructor
  · intro h reason hmem
    exact h _ hmem reason rfl
  · rintro h _ hx reason rfl
    exact h reason hx

theorem ofEndings_eq_cancelled : ofEndings es = .cancelled ↔
    .cancelled ∈ es ∧ ∀ reason, .fatal reason ∉ es := by
  rw [← findSome?_fatal?_eq_none, ofEndings]
  split
  · rename_i hfatal
    rw [hfatal]
    exact ⟨nofun, fun h => nomatch h.2⟩
  · rename_i hnone
    by_cases hmem : .cancelled ∈ es
    · rw [if_pos hmem]
      exact ⟨fun _ => ⟨hmem, hnone⟩, fun _ => rfl⟩
    · rw [if_neg hmem]
      exact ⟨nofun, fun h => absurd h.1 hmem⟩

theorem ofEndings_eq_completed : ofEndings es = .completed ↔ ∀ x ∈ es, ∃ r, x = .completed r := by
  have hneither : ofEndings es = .completed ↔ .cancelled ∉ es ∧ ∀ reason, .fatal reason ∉ es := by
    rw [← findSome?_fatal?_eq_none, ofEndings]
    split
    · rename_i hfatal
      rw [hfatal]
      exact ⟨nofun, fun h => nomatch h.2⟩
    · rename_i hnone
      by_cases hmem : .cancelled ∈ es
      · rw [if_pos hmem]
        exact ⟨nofun, fun h => absurd hmem h.1⟩
      · rw [if_neg hmem]
        exact ⟨fun _ => ⟨hmem, hnone⟩, fun _ => rfl⟩
  rw [hneither]
  constructor
  · rintro ⟨hcancelled, hfatal⟩ x hx
    cases x with
    | completed r => exact ⟨r, rfl⟩
    | cancelled => exact absurd hx hcancelled
    | fatal reason => exact absurd hx (hfatal reason)
  · intro h
    refine ⟨fun hmem => ?_, fun reason hmem => ?_⟩
    · obtain ⟨r, hr⟩ := h _ hmem
      cases hr
    · obtain ⟨r, hr⟩ := h _ hmem
      cases hr

end BatchOutcome

/-! ### The endings of a batch -/

/-- How an attempt in this phase ended. One that broke down counts as fatal. -/
def Phase.final? : Phase → Option Ending
  | ended x => some x
  | crashed reason => some (.fatal ("verification task failed: " ++ reason))
  | _ => none

theorem Phase.over_of_final? {p : Phase} {x : Ending} (h : p.final? = some x) :
    p.stepsLeft = 0 := by
  cases p with
  | ended | crashed => rfl
  | _ => cases h

/-- What an attempt completed with is its result. -/
theorem Phase.eq_ended_of_final? {p : Phase} {r : Result} (h : p.final? = some (.completed r)) :
    p = .ended (.completed r) := by
  cases p with
  | ended x => exact congrArg Phase.ended (Option.some.inj h)
  | _ => cases h

theorem Attempt.counted_of_final? {a : Attempt} {x : Ending} (h : a.phase.final? = some x) :
    a.counted = (x.result?.map Statistics.ofRun).getD 0 := by
  rw [counted, if_pos (by rw [Phase.over_of_final? h]; exact Nat.zero_le 5)]
  cases hp : a.phase with
  | ended y =>
    rw [hp] at h
    cases h
    rfl
  | crashed =>
    rw [hp] at h
    cases h
    rfl
  | _ =>
    rw [hp] at h
    cases h

/-- What an attempt was told is how it ended. -/
theorem Attempt.Told.final {ms : List Move} {id : AttemptId} {a : Attempt} {x : Ending}
    (h : Told ms id a) (hfinal : a.phase.final? = some x) :
    (∀ reason, Receives ms id (.solverDied reason) → x = .fatal reason) ∧
      (∀ f, f.isFatal = false → Receives ms id f → ∃ result, x = .completed result) ∧
      ∀ reason, x = .fatal reason → Receives ms id (.solverDied reason) ∨
        ∃ breakdown, .answered id (.crash breakdown) ∈ ms ∧
          reason = "verification task failed: " ++ breakdown := by
  obtain ⟨hdied, hrecovered, hfatal, hcrashed⟩ := h
  cases hp : a.phase with
  | ended y =>
    rw [hp] at hdied hrecovered hfatal hfinal
    cases hfinal
    refine ⟨fun reason hr => Option.some.inj (hdied reason hr), fun f hf hr => ?_,
      fun reason hr => .inl (hfatal reason (congrArg some hr))⟩
    have hresult : x.result?.isSome = true := hrecovered f hf hr
    cases x with
    | completed result => exact ⟨result, rfl⟩
    | _ => cases hresult
  | crashed breakdown =>
    rw [hp] at hdied hrecovered hfinal
    cases hfinal
    refine ⟨fun reason hr => ?_, fun f hf hr => ?_, fun reason hr => ?_⟩
    · cases hdied reason hr
    · cases hrecovered f hf hr
    · exact .inr ⟨breakdown, hcrashed breakdown hp, (Ending.fatal.inj hr).symm⟩
  | _ =>
    rw [hp] at hfinal
    cases hfinal

namespace Batch

/-- What a batch has counted and collected comes from its attempts, and its report is made once all
of them have been awaited. -/
structure Booked (ts : List Target) (b : Batch) : Prop where
  targets : b.attempts.map (·.target) = ts
  statistics : b.tray.statistics = (b.attempts.map Attempt.counted).sum
  endings : ∀ (i : Nat) x, b.endings[i]? = some x →
    ∃ a, b.attempts[i]? = some a ∧ a.phase.final? = some x
  closed : ∀ r, b.stage = .concluded (.ok r) ∨ b.stage = .finished (.ok r) →
    b.attempts.length ≤ b.endings.length ∧ r = b.report

variable {b b' : Batch} {s s' : Shared} {ts : List Target} {slot : Nat} {q : Prompt} {tray' : Tray}
  {a a' : Attempt}

theorem booked_scheduled (k : Ticket) (ts : List Target) : (scheduled k ts).Booked ts := by
  refine ⟨?_, ?_, fun i x hx => ?_, fun r hr => ?_⟩
  · rw [scheduled, List.map_map]
    exact List.map_id ts
  · refine (sum_map_eq_zero fun i a ha => ?_).symm
    obtain ⟨t, -, rfl⟩ := List.mem_map.mp (List.mem_of_getElem? ha)
    rfl
  · cases hx
  · rcases hr with hr | hr <;> cases hr

theorem Booked.attempt (h : b.Booked ts) (ha : b.attempts[slot]? = some a)
    (hturn : Attempt.Turn b.ticket slot s b.tray a q s' tray' a') :
    (b.withAttempt slot tray' a').Booked ts := by
  -- Whoever has been awaited is over, and takes no turn.
  have hawaited : b.endings.length ≤ slot := by
    by_contra hlt
    obtain ⟨a₀, ha₀, hfinal⟩ := h.endings slot _ (List.getElem?_eq_getElem (by omega))
    cases ha.symm.trans ha₀
    have hleft := hturn.stepsLeft
    rw [Phase.over_of_final? hfinal] at hleft
    exact Nat.not_lt_zero _ hleft
  have hlt : slot < b.attempts.length := (List.getElem?_eq_some_iff.mp ha).1
  constructor
  case targets =>
    show (b.attempts.set slot a').map (·.target) = ts
    rw [map_set_of_eq ha hturn.target, h.targets]
  case statistics =>
    have hsum := sum_map_set Attempt.counted ha a'
    have hstatistics := hturn.statistics
    rw [h.statistics] at hstatistics
    exact add_right_cancel (hstatistics.trans hsum.symm)
  case endings =>
    intro i x hx
    obtain ⟨c, hc, hfinal⟩ := h.endings i x hx
    have hi : i < b.endings.length := (List.getElem?_eq_some_iff.mp hx).1
    exact ⟨c, (List.getElem?_set_ne (by omega)).trans hc, hfinal⟩
  case closed =>
    intro r hr
    have := (h.closed r hr).1
    omega

/-- The next ending is that of the attempt that has been awaited. -/
theorem Booked.endWith {x : Ending} {tray : Tray} (h : b.Booked ts) (running : b.stage = .running)
    (ha : b.attempts[b.endings.length]? = some a) (hfinal : a.phase.final? = some x)
    (htray : tray.statistics = b.tray.statistics) :
    (Batch.endWith { b with tray } x).Booked ts := by
  refine ⟨h.targets, htray.trans h.statistics, fun i y hy => ?_, fun r hr => ?_⟩
  · have hy : (b.endings ++ [x])[i]? = some y := hy
    rcases Nat.lt_or_ge i b.endings.length with hlt | hge
    · rw [List.getElem?_append_left hlt] at hy
      exact h.endings i y hy
    · rw [List.getElem?_append_right hge, List.getElem?_singleton] at hy
      split at hy
      · cases hy
        rename_i hi
        exact ⟨a, by rw [show i = b.endings.length by omega]; exact ha, hfinal⟩
      · cases hy
  · rcases hr with hr | hr <;> cases running.symm.trans hr

theorem reported_ok {sink : Sink} {r : BatchReport} (h : (b.reported sink).1 = .ok r) :
    r = b.report := by
  unfold reported at h
  split at h
  · cases h
  · split at h <;> cases h
    rfl

theorem Booked.turn {c : Call} (h : b.Booked ts) (hturn : Turn s b c s' b') : b'.Booked ts := by
  cases hturn with
  | gather running ha hp => exact h.endWith running ha (by rw [hp]; rfl) rfl
  | miss running ha hp => exact h.endWith running ha (by rw [hp]; rfl) rfl
  | close _ hall =>
    refine ⟨h.targets, h.statistics, h.endings, fun r hr => ⟨hall, ?_⟩⟩
    rcases hr with hr | hr
    · have hr : BatchStage.concluded (b.reported s.sink).1 = .concluded (.ok r) := hr
      have hreport : r = b.report := reported_ok (BatchStage.concluded.inj hr)
      exact hreport
    · cases hr
  | part hstage =>
    refine ⟨h.targets, h.statistics, h.endings, fun r hr => ?_⟩
    rcases hr with hr | hr
    · cases hr
    · cases hr
      exact h.closed r (.inl hstage)

/-- Once all attempts have been awaited, each target has its ending. -/
theorem Booked.exists_ending (h : b.Booked ts) (hall : b.attempts.length ≤ b.endings.length)
    {i : Nat} (ha : b.attempts[i]? = some a) :
    ∃ x, a.phase.final? = some x ∧ b.endings[i]? = some x := by
  have hlt : i < b.attempts.length := (List.getElem?_eq_some_iff.mp ha).1
  have hx : b.endings[i]? = some b.endings[i] := List.getElem?_eq_getElem (by omega)
  obtain ⟨a₀, ha₀, hfinal⟩ := h.endings i _ hx
  cases ha.symm.trans ha₀
  exact ⟨_, hfinal, hx⟩

theorem Booked.length_eq (h : b.Booked ts) (hall : b.attempts.length ≤ b.endings.length) :
    b.endings.length = ts.length := by
  rw [← h.targets, List.length_map]
  refine Nat.le_antisymm (Nat.le_of_not_lt fun hlt => ?_) hall
  obtain ⟨a, ha, -⟩ := h.endings b.attempts.length _ (List.getElem?_eq_getElem hlt)
  exact Nat.lt_irrefl _ (List.getElem?_eq_some_iff.mp ha).1

/-- Each result is counted once. -/
theorem Booked.counts (h : b.Booked ts) (hall : b.attempts.length ≤ b.endings.length) :
    b.tray.statistics = (b.report.results.map Statistics.ofRun).sum := by
  have hcounted : b.attempts.map Attempt.counted =
      b.endings.map fun x => (x.result?.map Statistics.ofRun).getD 0 := by
    refine List.ext_getElem? fun i => ?_
    rw [List.getElem?_map, List.getElem?_map]
    cases ha : b.attempts[i]? with
    | some a =>
      obtain ⟨x, hfinal, hx⟩ := h.exists_ending hall ha
      rw [hx, Option.map_some, Option.map_some, Attempt.counted_of_final? hfinal]
    | none =>
      have hlength := h.length_eq hall
      rw [← h.targets, List.length_map] at hlength
      have := List.getElem?_eq_none_iff.mp ha
      rw [List.getElem?_eq_none (by omega)]
      rfl
  have hsum : ∀ es : List Ending, (es.map fun x => (x.result?.map Statistics.ofRun).getD 0).sum =
      ((es.filterMap Ending.result?).map Statistics.ofRun).sum := by
    intro es
    induction es with
    | nil => rfl
    | cons x rest ih =>
      rw [List.map_cons, List.sum_cons, ih, List.filterMap_cons]
      cases x.result? with
      | none => exact zero_add _
      | some r => rfl
  rw [h.statistics, hcounted, hsum]
  rfl

end Batch

namespace Engine
variable {e e₁ : Engine} {ms : List Move} {n : Nat} {ts : List Target} {b : Batch}

theorem booked_of_run (hb : e.batches[n]? = some b) (h : b.Booked ts) (ran : e.run ms = some e₁) :
    ∃ b, e₁.batches[n]? = some b ∧ b.Booked ts := by
  refine run_induction (P := fun _ e => ∃ b, e.batches[n]? = some b ∧ b.Booked ts) ⟨b, hb, h⟩ ?_ ran
  rintro _ m e e' _ ⟨b, hb, h⟩ _ htransition
  rcases htransition.batch_cases hb with ⟨slot, q, a, tray', a', -, ha, hturn, hb'⟩ |
    ⟨c, b', -, hturn, hb'⟩ | ⟨-, hb'⟩
  · exact ⟨_, hb', h.attempt ha hturn⟩
  · exact ⟨b', hb', h.turn hturn⟩
  · exact ⟨b, hb', h⟩

theorem assigned?_submit_new (e : Engine) (requestId : String) (a : Analysis) {t : Target} {i : Nat}
    (ht : ts[i]? = some t) : (e.submit requestId a ts).assigned? ⟨e.batches.length, i⟩ =
      some (e.ticketFor requestId a, .scheduled t) := by
  refine assigned?_eq_some_iff.mpr ⟨_, List.getElem?_concat_length, rfl, ?_⟩
  show (ts.map Attempt.scheduled)[i]? = _
  rw [List.getElem?_map, ht, Option.map_some]

/-- A batch that has come to a report has awaited all its attempts, and the report is its own. -/
theorem booked_report {requestId : String} {analysis : Analysis} {r : BatchReport}
    (ran : (e₁.submit requestId analysis ts).run ms = some e)
    (hb : e.batches[e₁.batches.length]? = some b) (done : b.outcome? = some (.ok r)) :
    b.Booked ts ∧ b.attempts.length ≤ b.endings.length ∧ r = b.report := by
  obtain ⟨b', hb', hbooked⟩ := booked_of_run List.getElem?_concat_length
    (Batch.booked_scheduled (e₁.ticketFor requestId analysis) ts) ran
  obtain rfl : b = b' := Option.some.inj (hb.symm.trans hb')
  have hstage : b.stage = .finished (.ok r) := by
    rw [Batch.outcome?] at done
    split at done
    · rename_i hstage
      cases done
      exact hstage
    · cases done
  exact ⟨hbooked, hbooked.closed r (.inr hstage)⟩

/-- **A report says what has become of its batch.** Let a batch be submitted to an engine in any
state, and let any run bring it to a report. Then the report has one ending for each target, in the
order of the targets, namely that of the attempt made for it. Its statistics count each result
in it once, errors by the counterexamples that are not auxiliary, and what was served from the cache
is part of that. The outcome is that of the first
fatal ending, or else cancelled if an ending is, or else completed. An attempt that was told of the
loss of the solver ended fatally with that message, one that was told of any other fault
completed, and apart from the loss of the solver only a breakdown of the verifier is fatal. -/
theorem report_consistent {requestId : String} {analysis : Analysis} {r : BatchReport}
    (ran : (e₁.submit requestId analysis ts).run ms = some e)
    (hb : e.batches[e₁.batches.length]? = some b) (done : b.outcome? = some (.ok r)) :
    r.endings.length = ts.length ∧
    (∀ (i : Nat) t, ts[i]? = some t → ∃ (a : Attempt) (x : Ending), b.attempts[i]? = some a ∧
      a.target = t ∧ a.phase.final? = some x ∧ r.endings[i]? = some x) ∧
    r.statistics = r.results.foldl (fun s x =>
      s.record x.outcome (x.counterexamples.countP (!·.auxiliary)) x.wasCached) .zero ∧
    List.Forall₂ (· ≤ ·) r.statistics.cached.counts r.statistics.all.counts ∧
    (∀ reason, r.outcome = .fatal reason ↔ ∃ front rest,
      r.endings = front ++ .fatal reason :: rest ∧ ∀ other, .fatal other ∉ front) ∧
    (r.outcome = .cancelled ↔ .cancelled ∈ r.endings ∧ ∀ reason, .fatal reason ∉ r.endings) ∧
    (r.outcome = .completed ↔ ∀ x ∈ r.endings, ∃ result, x = .completed result) ∧
    ∀ (i : Nat), i < ts.length →
      (∀ reason, Receives ms ⟨e₁.batches.length, i⟩ (.solverDied reason) →
        r.endings[i]? = some (.fatal reason) ∧ ∃ first, r.outcome = .fatal first) ∧
      (∀ f, f.isFatal = false → Receives ms ⟨e₁.batches.length, i⟩ f →
        ∃ result, r.endings[i]? = some (.completed result)) ∧
      ∀ reason, r.endings[i]? = some (.fatal reason) →
        Receives ms ⟨e₁.batches.length, i⟩ (.solverDied reason) ∨
          ∃ breakdown, .answered ⟨e₁.batches.length, i⟩ (.crash breakdown) ∈ ms ∧
            reason = "verification task failed: " ++ breakdown := by
  obtain ⟨hbooked, hall, rfl⟩ := booked_report ran hb done
  have hattempt : ∀ (i : Nat) t, ts[i]? = some t → ∃ (a : Attempt) (x : Ending),
      b.attempts[i]? = some a ∧ a.target = t ∧ a.phase.final? = some x ∧ b.endings[i]? = some x ∧
      Attempt.Told ms ⟨e₁.batches.length, i⟩ a := by
    intro i t ht
    obtain ⟨a, ha, htarget, htold⟩ :=
      told_of_run ran (assigned?_submit_new e₁ requestId analysis ht)
    obtain ⟨b', hb', -, hslot⟩ := assigned?_eq_some_iff.mp ha
    obtain rfl : b = b' := Option.some.inj (hb.symm.trans hb')
    obtain ⟨x, hfinal, hx⟩ := hbooked.exists_ending hall hslot
    exact ⟨a, x, hslot, htarget, hfinal, hx, htold⟩
  have hcounts := hbooked.counts hall
  have hfirst : ∀ reason, .fatal reason ∈ b.endings →
      ∃ first, BatchOutcome.ofEndings b.endings = .fatal first := by
    intro reason hmem
    cases hfound : b.endings.findSome? Ending.fatal? with
    | none => exact absurd hmem (BatchOutcome.findSome?_fatal?_eq_none.mp hfound reason)
    | some first => exact ⟨first, by rw [BatchOutcome.ofEndings, hfound]⟩
  refine ⟨hbooked.length_eq hall, fun i t ht => ?_, ?_, ?_,
    fun reason => BatchOutcome.ofEndings_eq_fatal, BatchOutcome.ofEndings_eq_cancelled,
    BatchOutcome.ofEndings_eq_completed, fun i hi => ?_⟩
  · obtain ⟨a, x, ha, htarget, hfinal, hx, -⟩ := hattempt i t ht
    exact ⟨a, x, ha, htarget, hfinal, hx⟩
  · simp only [← Result.errorCount_eq]
    rw [Statistics.foldl_record]
    exact hcounts.trans (zero_add _).symm
  · refine Statistics.Within.counts ?_
    show b.tray.statistics.Within
    rw [hcounts]
    exact Statistics.within_sum _
  · obtain ⟨a, x, -, -, hfinal, hx, htold⟩ := hattempt i _ (List.getElem?_eq_getElem hi)
    obtain ⟨hdied, hrecovered, hfatal⟩ := htold.final hfinal
    refine ⟨fun reason hr => ?_, fun f hf hr => ?_, fun reason hr => ?_⟩
    · obtain rfl := hdied reason hr
      exact ⟨hx, hfirst reason (List.mem_of_getElem? hx)⟩
    · obtain ⟨result, rfl⟩ := hrecovered f hf hr
      exact ⟨result, hx⟩
    · exact hfatal reason (Option.some.inj (hx.symm.trans hr))

/-- No failure goes uncounted, but for errors of which none is named: let a batch be submitted to
an engine in any state, and let any run bring it to a report of its completion. Then the counts
other than that of verified implementations are all zero exactly if every attempt ended with a
success, or with the outcome of errors and without a counterexample that is not auxiliary. -/
theorem unfailed_iff_of_completed {requestId : String} {analysis : Analysis} {r : BatchReport}
    (ran : (e₁.submit requestId analysis ts).run ms = some e)
    (hb : e.batches[e₁.batches.length]? = some b) (done : b.outcome? = some (.ok r))
    (completed : r.outcome = .completed) :
    r.statistics.all.Unfailed ↔ ∀ x ∈ r.endings, ∃ result, x = .completed result ∧
      (result.outcome = .correct ∨ result.outcome = .reachedBound ∨
        (result.outcome = .errors ∧ ∀ c ∈ result.counterexamples, c.auxiliary = true)) := by
  obtain ⟨hbooked, hall, rfl⟩ := booked_report ran hb done
  have hendings := BatchOutcome.ofEndings_eq_completed.mp completed
  rw [show b.report.statistics = _ from hbooked.counts hall, Statistics.unfailed_sum_iff]
  simp only [Statistics.ofRun, Statistics.record, Statistics.zero_def, Tally.unfailed_record_iff,
    Result.errorCount_eq_zero_iff]
  constructor
  · intro h x hx
    obtain ⟨result, rfl⟩ := hendings x hx
    exact ⟨result, rfl, h result (List.mem_filterMap.mpr ⟨_, hx, rfl⟩)⟩
  · intro h result hresult
    obtain ⟨x, hx, hsome⟩ := List.mem_filterMap.mp hresult
    obtain ⟨result', rfl, hcase⟩ := h x hx
    cases hsome
    exact hcase

end Engine

def threeBodies : Program := ⟨bodies.decls.push (idleBody "Late")⟩

/-- An assertion that fails. -/
def failedAssertion (auxiliary : Bool) : Counterexample :=
  ⟨.assertion, .unknown, none, [], [], auxiliary⟩

/-- No session can be opened for the first implementation, the solver is lost over the second, and
the third has an error. -/
def twoFaults : List Move :=
  List.replicate 4 (.advance ⟨0, 0⟩) ++ [.opened ⟨0, 0⟩ (.error (.io "closed"))] ++
    List.replicate 6 (.advance ⟨0, 0⟩) ++
    List.replicate 4 (.advance ⟨0, 2⟩) ++ [.opened ⟨0, 2⟩ (.ok ()), .advance ⟨0, 2⟩,
      .answered ⟨0, 2⟩ (.findings ⟨.errors, [failedAssertion false, failedAssertion true], 0, 0⟩ 0)] ++
    List.replicate 7 (.advance ⟨0, 2⟩) ++ List.replicate 4 (.advance ⟨0, 1⟩) ++
    [.advance ⟨0, 1⟩, .answered ⟨0, 1⟩ (.fault (.solverDied "gone"))] ++
    List.replicate 5 (.advance ⟨0, 1⟩) ++
    [.await 0, .await 0, .await 0, .conclude 0, .finish 0]

theorem twoFaults_report_consistent : ∃ e b r,
    ((⟨.fresh plainOptions, [], 0⟩ : Engine).submit "all" (.ofProgram threeBodies)
      [bodyTarget 1 "Main", bodyTarget 2 "Broken", bodyTarget 3 "Late"]).run twoFaults = some e ∧
    e.batches[0]? = some b ∧ b.outcome? = some (.ok r) ∧ r.outcome = .fatal "gone" ∧
    (∃ result, r.endings[0]? = some (.completed result)) ∧
    r.endings[1]? = some (.fatal "gone") ∧ r.statistics.all.solverExceptions = 1 ∧
    r.statistics.all.errors = 1 ∧ r.statistics = r.results.foldl (fun s x =>
      s.record x.outcome (x.counterexamples.countP (!·.auxiliary)) x.wasCached) .zero := by
  obtain ⟨e, ran, b, hb, r, done, houtcome, hexceptions, herrors⟩ : ∃ e,
      ((⟨.fresh plainOptions, [], 0⟩ : Engine).submit "all" (.ofProgram threeBodies)
        [bodyTarget 1 "Main", bodyTarget 2 "Broken", bodyTarget 3 "Late"]).run twoFaults = some e ∧
      ∃ b, e.batches[0]? = some b ∧ ∃ r, b.outcome? = some (.ok r) ∧ r.outcome = .fatal "gone" ∧
        r.statistics.all.solverExceptions = 1 ∧ r.statistics.all.errors = 1 :=
    ⟨_, rfl, _, rfl, _, rfl, rfl, rfl, rfl⟩
  obtain ⟨-, -, hstatistics, -, -, -, -, htold⟩ := Engine.report_consistent ran hb done
  have hio : Receives twoFaults ⟨0, 0⟩ (.io "closed") := ⟨_, List.mem_of_getElem? (i := 4) rfl, rfl⟩
  have hdied : Receives twoFaults ⟨0, 1⟩ (.solverDied "gone") :=
    ⟨_, List.mem_of_getElem? (i := 30) rfl, rfl⟩
  exact ⟨e, b, r, ran, hb, done, houtcome, (htold 0 (by decide)).2.1 _ rfl hio,
    ((htold 1 (by decide)).1 _ hdied).1, hexceptions, herrors, hstatistics⟩

/-- A verifier answers that there are errors and names none. -/
def unnamedErrors : List Move :=
  List.replicate 4 (.advance ⟨0, 0⟩) ++ [.opened ⟨0, 0⟩ (.ok ()), .advance ⟨0, 0⟩,
    .answered ⟨0, 0⟩ (.findings (.bare .errors) 0)] ++
    List.replicate 7 (.advance ⟨0, 0⟩) ++ [.await 0, .conclude 0, .finish 0]

theorem unnamedErrors_are_allowed : ∃ e b r,
    ((⟨.fresh plainOptions, [], 0⟩ : Engine).submit "lone" (.ofProgram bodies)
      [bodyTarget 1 "Main"]).run unnamedErrors = some e ∧
    e.batches[0]? = some b ∧ b.outcome? = some (.ok r) ∧ r.outcome = .completed ∧
    ∀ x ∈ r.endings, ∃ result, x = .completed result ∧
      (result.outcome = .correct ∨ result.outcome = .reachedBound ∨
        (result.outcome = .errors ∧ ∀ c ∈ result.counterexamples, c.auxiliary = true)) := by
  obtain ⟨e, ran, b, hb, r, done, completed, hunfailed⟩ : ∃ e,
      ((⟨.fresh plainOptions, [], 0⟩ : Engine).submit "lone" (.ofProgram bodies)
        [bodyTarget 1 "Main"]).run unnamedErrors = some e ∧
      ∃ b, e.batches[0]? = some b ∧ ∃ r, b.outcome? = some (.ok r) ∧ r.outcome = .completed ∧
        r.statistics.all.Unfailed :=
    ⟨_, rfl, _, rfl, _, rfl, rfl, rfl, rfl, rfl, rfl, rfl, rfl⟩
  exact ⟨e, b, r, ran, hb, done, completed,
    (Engine.unfailed_iff_of_completed ran hb done completed).mp hunfailed⟩

/-- Nothing in the counts tells of these errors. -/
theorem unnamedErrors_go_uncounted : ∃ e b r,
    ((⟨.fresh plainOptions, [], 0⟩ : Engine).submit "lone" (.ofProgram bodies)
      [bodyTarget 1 "Main"]).run unnamedErrors = some e ∧
    e.batches[0]? = some b ∧ b.outcome? = some (.ok r) ∧ r.outcome = .completed ∧
    r.statistics.all.Unfailed ∧
    ¬ ∀ x ∈ r.endings, ∃ result, x = .completed result ∧
      (result.outcome = .correct ∨ result.outcome = .reachedBound) := by
  refine ⟨_, _, _, rfl, rfl, rfl, rfl, ⟨rfl, rfl, rfl, rfl, rfl, rfl⟩, fun h => ?_⟩
  obtain ⟨result, heq, hsuccess⟩ := h _ (List.mem_of_getElem? (i := 0) rfl)
  cases heq
  rcases hsuccess with hsuccess | hsuccess <;> cases hsuccess

end Verdict
