import Verdict.Proofs.Engine.Reports
import Verdict.Proofs.Engine.Sessions
import Verdict.Proofs.Engine.Writing

/-! A cancelled attempt leaves no trace.

What a step of an attempt does to the cache, the counts or the diagnostics it does with a result,
and a result is never lost again. Whoever ends cancelled has none, and so has done nothing of the
kind at any step before. The session that it may have had was given back, for with any other
end of its work it would not have been cancelled. Its text is empty, and holds up no other. -/
namespace Verdict

namespace Phase

/-- How an attempt in this phase has ended, with the text that it is to hand in. -/
def closing? : Phase → Option Closing
  | settled c _ | idle c | retired c | announced c => some c
  | _ => none

theorem of_ending? {p : Phase} {x : Ending} (h : p.ending? = some x) :
    p.result? = x.result? ∧ p.isFailure = x.isFatal := by
  cases p with
  | settled | idle | retired | announced | delivered | ended =>
    cases h
    exact ⟨rfl, rfl⟩
  | _ => cases h

end Phase

theorem Ticket.heading_ne_empty {o : Options} (a : Attempt) (htrace : o.trace = true) :
    heading o a ≠ "" := by
  rw [heading, if_pos htrace, String.append_assoc]
  intro hempty
  exact absurd (String.append_eq_empty_iff.mp hempty).1 (by decide)

namespace Attempt

/-- Whether this is the text that an attempt leaves with its ending: what it has to say on its
result below its heading, nothing if it was cancelled, and the heading alone if the solver was
lost. -/
def Leaves (o : Options) (a : Attempt) (c : Closing) : Prop :=
  match c.ending with
  | .completed r => ∃ preface, c.text = Ticket.heading o a ++ preface ++ r.render o
  | .cancelled => c.text = ""
  | .fatal _ => c.text = Ticket.heading o a

theorem Leaves.congr {o : Options} {a a' : Attempt} {c : Closing} (h : a.Leaves o c)
    (htarget : a'.target = a.target) : a'.Leaves o c := by
  have hheading : Ticket.heading o a' = Ticket.heading o a := by
    rw [Ticket.heading, Ticket.heading, name, name, htarget]
  unfold Leaves at h ⊢
  rw [hheading]
  exact h

variable {k : Ticket} {slot : Nat} {s s' : Shared} {tray tray' : Tray} {a a' : Attempt} {q : Prompt}

/-- An attempt without a result adds nothing to what is kept, seen, reported or counted. -/
theorem Turn.traceless (h : Turn k slot s tray a q s' tray' a') :
    (∃ r, a'.phase.result? = some r) ∨
      s'.cache.entries = s.cache.entries ∧ s'.cache.seen = s.cache.seen ∧
        s'.reported = s.reported ∧ tray'.statistics = tray.statistics := by
  cases h with
  | hit | keep | report => exact .inl ⟨_, rfl⟩
  | @miss u cache _ _ _ hl =>
    have hentries := Cache.lookup_entries s.cache (k.key a) s.options.cacheMode.serves
    have hseen := Cache.lookup_seen s.cache (k.key a) s.options.cacheMode.serves
    rw [hl] at hentries hseen
    exact .inr ⟨hentries, hseen, rfl, rfl⟩
  | _ => exact .inr ⟨rfl, rfl, rfl, rfl⟩

/-- An attempt parts with its session by giving it back, or has a result or failed. -/
theorem Turn.of_session (h : Turn k slot s tray a q s' tray' a') {x : Nat}
    (hx : a.phase.session? = some x) :
    a'.phase.session? = some x ∨
      (q = .advance ∧ a'.phase.session? = none ∧ s'.pool.idle = x :: s.pool.idle) ∨
      (∃ r, a'.phase.result? = some r) ∨ a'.phase.isFailure = true := by
  cases h with
  | ask hp =>
    rw [hp] at hx
    exact .inl hx
  | stopLate hp =>
    cases hp.symm.trans hx
    exact .inr (.inl ⟨rfl, rfl, SessionPool.idle_giveBack s.pool x⟩)
  | find => exact .inr (.inr (.inl ⟨_, rfl⟩))
  | @fault _ _ f =>
    cases f with
    | solverDied => exact .inr (.inr (.inr rfl))
    | _ => exact .inr (.inr (.inl ⟨_, rfl⟩))
  | crash => exact .inr (.inr (.inr rfl))
  | stopEarly hp => rcases hp with hp | hp <;> rw [hp] at hx <;> cases hx
  | enter hp | hit hp | miss hp | pass hp | gain hp | reuse hp | want hp | keep hp | report hp
  | settle hp | leave hp | announce hp | deliver hp | write hp | equip hp | refuse hp =>
    rw [hp] at hx
    cases hx

/-- The text that is to be handed in belongs to the ending. -/
theorem Turn.closing (h : Turn k slot s tray a q s' tray' a') {c : Closing}
    (hc : a'.phase.closing? = some c) : a.phase.closing? = some c ∨ a.Leaves s.options c := by
  cases h with
  | settle hp | leave hp | announce hp =>
    rw [hp]
    exact .inl hc
  | stopEarly | stopLate =>
    cases hc
    exact .inr rfl
  | @report p =>
    cases hc
    exact .inr ⟨p.preface, rfl⟩
  | @refuse f | @fault _ _ f =>
    cases f <;> cases hc
    exact .inr rfl
  | _ => cases hc

end Attempt

namespace Engine
variable {e e' e₁ : Engine} {ms : List Move} {m : Move} {id : AttemptId} {k : Ticket} {t : Target}
  {a : Attempt} {n : Nat} {ts : List Target} {b : Batch}

theorem leaves_of_run (ran : e.run ms = some e') (ha : e.assigned? id = some (k, .scheduled t)) :
    ∃ a, e'.assigned? id = some (k, a) ∧
      ∀ c, a.phase.closing? = some c → a.Leaves e.shared.options c := by
  refine run_induction (P := fun _ e' => ∃ a, e'.assigned? id = some (k, a) ∧
    ∀ c, a.phase.closing? = some c → a.Leaves e.shared.options c) ⟨_, ha, nofun⟩ ?_ ran
  intro _ m e₁ e₂ hrun ⟨a, ha, hleaves⟩ _ htransition
  rcases htransition.next ha with ⟨q, _, _, a', hm, ha', hturn⟩ | ⟨hm, ha'⟩
  · refine ⟨a', ha', fun c hc => ?_⟩
    rcases hturn.closing hc with hbefore | hnow
    · exact (hleaves c hbefore).congr hturn.target
    · rw [(grows_of_run hrun).options] at hnow
      exact hnow.congr hturn.target
  · exact ⟨a, ha', hleaves⟩

/-- Whoever ends cancelled has never had a result, and has never failed. -/
theorem of_cancelled (ran : e.run ms = some e') (ha : e.assigned? id = some (k, a)) {a' : Attempt}
    (ha' : e'.assigned? id = some (k, a')) (cancelled : a'.phase.ending? = some .cancelled) :
    (∀ r, a.phase.result? ≠ some r) ∧ a.phase.isFailure = false := by
  obtain ⟨hresult, hfailure⟩ := Phase.of_ending? cancelled
  refine ⟨fun r hr => ?_, Bool.eq_false_iff.mpr fun hfailed => ?_⟩
  · obtain ⟨a₁, ha₁, hahead⟩ := (grows_of_run ran).attempts id k a ha
    cases ha₁.symm.trans ha'
    cases (hahead.result r hr).symm.trans hresult
  · obtain ⟨a₁, ha₁, hfailed₁⟩ : ∃ a₁, e'.assigned? id = some (k, a₁) ∧ a₁.phase.isFailure = true :=
      run_induction (P := fun _ e' => ∃ a₁, e'.assigned? id = some (k, a₁) ∧
        a₁.phase.isFailure = true) ⟨a, ha, hfailed⟩
        (fun _ ⟨_, ha₁, hfailed₁⟩ _ htransition => htransition.isFailure ha₁ hfailed₁) ran
    cases ha₁.symm.trans ha'
    cases hfailed₁.symm.trans hfailure

/-- At the steps of an attempt that ends cancelled nothing is kept, reported or counted. -/
theorem traceless_of_cancelled {s : Step} (ran : e.run ms = some e') (hs : s ∈ e.steps ms)
    (hmove : s.move.attempt? = some id) (ha' : e'.assigned? id = some (k, a))
    (cancelled : a.phase.ending? = some .cancelled) :
    s.after.shared.cache.entries = s.before.shared.cache.entries ∧
      s.after.shared.cache.seen = s.before.shared.cache.seen ∧
      s.after.shared.reported = s.before.shared.reported ∧
      s.after.batches[id.batch]?.map (·.tray.statistics) =
        s.before.batches[id.batch]?.map (·.tray.statistics) := by
  obtain ⟨_, rest, -, -, hstep, hrest⟩ := exists_of_mem_steps ran hs
  obtain ⟨⟨own, q⟩, hprompt, rfl⟩ := Option.map_eq_some_iff.mp hmove
  obtain ⟨b, a₁, s', tray', a₂, hb, hslot, hturn, hafter⟩ :=
    (transition_of_step hstep).of_prompt? hprompt
  have hlt := (List.getElem?_eq_some_iff.mp hb).1
  have ha₂ : s.after.assigned? own = some (b.ticket, a₂) := by
    rw [hafter]
    exact assigned?_withAttempt hb hslot
  obtain ⟨_, ha'', -⟩ := (grows_of_run hrest).attempts own b.ticket a₂ ha₂
  obtain ⟨rfl, -⟩ : b.ticket = k ∧ _ = a := by
    cases ha''.symm.trans ha'
    exact ⟨rfl, rfl⟩
  rcases hturn.traceless with ⟨r, hr⟩ | ⟨hentries, hseen, hreported, hstatistics⟩
  -- With a result it would not have ended cancelled.
  · exact absurd hr ((of_cancelled hrest ha₂ ha' cancelled).1 r)
  · rw [hafter]
    refine ⟨hentries, hseen, hreported, ?_⟩
    show ((s.before.batches.set own.batch _)[own.batch]?).map _ = _
    rw [List.getElem?_set_self hlt, hb, Option.map_some, Option.map_some]
    exact congrArg some hstatistics

/-- At one of these steps an attempt gives this session back: it has it no longer, and the session
is idle. -/
def GivesBack (steps : List Step) (id : AttemptId) (x : Nat) : Prop :=
  ∃ s ∈ steps, s.move = .advance id ∧ s.before.session? id = some x ∧
    s.after.session? id = none ∧ s.after.shared.pool.idle = x :: s.before.shared.pool.idle

/-- What has become of a session that an attempt had before these steps: it has it still, or has
given it back, or it has had a result from it, or it has failed. -/
def Parts (steps : List Step) (id : AttemptId) (x : Nat) (a : Attempt) : Prop :=
  a.phase.session? = some x ∨ GivesBack steps id x ∨ (∃ r, a.phase.result? = some r) ∨
    a.phase.isFailure = true

theorem Parts.step {steps : List Step} {x : Nat} (h : Parts steps id x a)
    (ha : e.assigned? id = some (k, a)) (htransition : Transition e m e') :
    ∃ a', e'.assigned? id = some (k, a') ∧ Parts (steps ++ [⟨e, m, e'⟩]) id x a' := by
  rcases h with hsession | ⟨s, hs, hback⟩ | ⟨r, hr⟩ | hfailed
  · rcases htransition.next ha with ⟨q, _, _, a', hm, ha', hturn⟩ | ⟨-, ha'⟩
    · refine ⟨a', ha', (hturn.of_session hsession).imp_right (.imp_left ?_)⟩
      rintro ⟨rfl, hnone, hidle⟩
      exact ⟨⟨e, m, e'⟩, List.mem_append_right _ (List.mem_singleton_self _),
        Move.eq_advance hm, (view_of_assigned? ha).trans hsession,
        (view_of_assigned? ha').trans hnone, hidle⟩
    · exact ⟨a, ha', .inl hsession⟩
  · obtain ⟨a', ha', -⟩ := htransition.grows.attempts id k a ha
    exact ⟨a', ha', .inr (.inl ⟨s, List.mem_append_left _ hs, hback⟩)⟩
  · obtain ⟨a', ha', hahead⟩ := htransition.grows.attempts id k a ha
    exact ⟨a', ha', .inr (.inr (.inl ⟨r, hahead.result r hr⟩))⟩
  · obtain ⟨a', ha', hfailed'⟩ := htransition.isFailure ha hfailed
    exact ⟨a', ha', .inr (.inr (.inr hfailed'))⟩

/-- A session that an attempt has before it ends cancelled goes back to the pool. -/
theorem givesBack_of_cancelled {x : Nat} (ran : e.run ms = some e') (hx : e.session? id = some x)
    (ha' : e'.assigned? id = some (k, a)) (cancelled : a.phase.ending? = some .cancelled) :
    GivesBack (e.steps ms) id x := by
  obtain ⟨k₁, a₁, ha₁, hx₁⟩ : ∃ k₁ a₁, e.assigned? id = some (k₁, a₁) ∧
      a₁.phase.session? = some x := by
    cases hattempt : e.attempt? id with
    | none =>
      rw [session?, view, hattempt] at hx
      cases hx
    | some a₁ =>
      obtain ⟨k₁, ha₁⟩ := exists_assigned? hattempt
      exact ⟨k₁, a₁, ha₁, (view_of_assigned? ha₁).symm.trans hx⟩
  obtain ⟨a₂, ha₂, hparts⟩ : ∃ a₂, e'.assigned? id = some (k₁, a₂) ∧
      Parts (e.steps ms) id x a₂ := by
    refine run_induction (P := fun ms e' => ∃ a₂, e'.assigned? id = some (k₁, a₂) ∧
      Parts (e.steps ms) id x a₂) ⟨a₁, ha₁, .inl hx₁⟩ ?_ ran
    rintro ms m _ _ hrun ⟨a₂, ha₂, hparts⟩ hstep htransition
    rw [steps_concat hrun hstep]
    exact hparts.step ha₂ htransition
  cases ha₂.symm.trans ha'
  obtain ⟨hresult, hfailure⟩ := Phase.of_ending? cancelled
  rcases hparts with hsession | hback | ⟨r, hr⟩ | hfailed
  · rw [Phase.ending?_of_session? hsession] at cancelled
    cases cancelled
  · exact hback
  · cases hr.symm.trans hresult
  · cases hfailed.symm.trans hfailure

/-- A text that is handed in belongs to how the attempt ends. -/
theorem leaves_of_handsIn? {s : Step} {text : String} (ran : e.run ms = some e')
    (start : e.assigned? id = some (k, .scheduled t)) (hs : s ∈ e.steps ms)
    (hhands : s.handsIn? id = some text) (ha' : e'.assigned? id = some (k, a)) :
    ∃ x, a.phase.ending? = some x ∧ a.Leaves e.shared.options ⟨x, text⟩ := by
  obtain ⟨_, _, -, hpast, hstep, hrest⟩ := exists_of_mem_steps ran hs
  obtain ⟨-, k₁, a₁, c, ha₁, hp, rfl⟩ := Step.exists_of_handsIn? hhands
  have htransition := transition_of_step hstep
  obtain ⟨a₂, ha₂, hleaves⟩ := leaves_of_run hpast start
  cases ha₁.symm.trans ha₂
  obtain ⟨a₃, ha₃, hahead⟩ := htransition.grows.attempts id k a₁ ha₁
  obtain ⟨a₄, ha₄, hahead'⟩ := (grows_of_run hrest).attempts id k a₃ ha₃
  cases ha₄.symm.trans ha'
  have hending : a₁.phase.ending? = some c.ending := by
    rw [hp]
    rfl
  have hclosing : a₁.phase.closing? = some c := by
    rw [hp]
    rfl
  -- Its ending was settled when the text was handed in, and stays as it is.
  refine ⟨c.ending, ending?_of_run hrest ha₃ ha' (htransition.ending? ha₁ ha₃ hending), ?_⟩
  exact (hleaves c hclosing).congr (hahead'.target.trans hahead.target)

/-- **A cancelled attempt leaves no trace.** Let a batch be submitted to an engine in any state,
and let there be any run from there. At no step of an attempt that ends cancelled is anything kept
in the cache, reported or counted; the only text that it hands in is empty; and any session that it
had at some point went back to the pool. If the batch has been concluded and the sink worked at
its steps, then these have written the texts that its attempts handed in, one for each target and
in their order, and last the closing line. The text of an attempt is what belongs to how it ended,
and nothing for one that broke down. No step takes back what is in the sink. -/
theorem cancelled_leaves_no_trace {requestId : String} {analysis : Analysis}
    (ran : (e₁.submit requestId analysis ts).run ms = some e)
    (hb : e.batches[e₁.batches.length]? = some b) :
    let n := e₁.batches.length
    let start := e₁.submit requestId analysis ts
    (∀ (i : Nat) (a : Attempt), b.attempts[i]? = some a → a.phase.ending? = some .cancelled →
      (∀ s ∈ start.steps ms, s.move.attempt? = some ⟨n, i⟩ →
        s.after.shared.cache.entries = s.before.shared.cache.entries ∧
        s.after.shared.cache.seen = s.before.shared.cache.seen ∧
        s.after.shared.reported = s.before.shared.reported ∧
        s.after.batches[n]?.map (·.tray.statistics) =
          s.before.batches[n]?.map (·.tray.statistics)) ∧
      (∀ s ∈ start.steps ms, ∀ text, s.handsIn? ⟨n, i⟩ = some text → text = "") ∧
      ∀ past rest now x, ms = past ++ rest → start.run past = some now →
        now.session? ⟨n, i⟩ = some x → GivesBack (now.steps rest) ⟨n, i⟩ x) ∧
    (b.stage ≠ .running →
      (∀ s ∈ start.steps ms, s.move.batch? = some n → s.before.shared.sink.broken = false) →
      ∃ texts : List String, texts.length = ts.length ∧
        writtenBy n (start.steps ms) =
          String.join texts ++ Batch.closingLine (.ofEndings b.endings) ∧
        ∀ (i : Nat) (a : Attempt), b.attempts[i]? = some a → ∃ text, texts[i]? = some text ∧
          ((∃ x, a.phase.ending? = some x ∧ a.Leaves e₁.shared.options ⟨x, text⟩ ∧
              ∃ s ∈ start.steps ms, s.handsIn? ⟨n, i⟩ = some text) ∨
            (∃ reason, a.phase = .crashed reason) ∧ text = "")) ∧
    ∀ s ∈ start.steps ms,
      s.after.shared.sink.contents = s.before.shared.sink.contents ++ s.added := by
  intro n start
  obtain ⟨b', hb', hbooked⟩ := booked_of_run List.getElem?_concat_length
    (Batch.booked_scheduled (e₁.ticketFor requestId analysis) ts) ran
  obtain rfl : b = b' := Option.some.inj (hb.symm.trans hb')
  have hstart : ∀ (i : Nat) (a : Attempt), b.attempts[i]? = some a →
      ∃ t, start.assigned? ⟨n, i⟩ = some (b.ticket, .scheduled t) ∧
        e.assigned? ⟨n, i⟩ = some (b.ticket, a) := by
    intro i a ha
    have hassigned : e.assigned? ⟨n, i⟩ = some (b.ticket, a) :=
      assigned?_eq_some_iff.mpr ⟨b, hb, rfl, ha⟩
    have htarget : ts[i]? = some a.target := by
      rw [← hbooked.targets, List.getElem?_map, ha, Option.map_some]
    have hnew := assigned?_submit_new e₁ requestId analysis htarget
    obtain ⟨a₁, ha₁, -⟩ := (grows_of_run ran).attempts _ _ _ hnew
    have hticket : e₁.ticketFor requestId analysis = b.ticket :=
      congrArg Prod.fst (Option.some.inj (ha₁.symm.trans hassigned))
    exact ⟨a.target, hticket ▸ hnew, hassigned⟩
  refine ⟨fun i a ha cancelled => ?_, fun hstage working => ?_, fun s hs => ?_⟩
  · obtain ⟨t, hnew, hassigned⟩ := hstart i a ha
    refine ⟨fun s hs hmove => traceless_of_cancelled ran hs hmove hassigned cancelled,
      fun s hs text htext => ?_, fun past rest now x hms hnow hx => ?_⟩
    · obtain ⟨x, hx, hleaves⟩ := leaves_of_handsIn? ran hnew hs htext hassigned
      cases hx.symm.trans cancelled
      exact hleaves
    · rw [hms, run_append, hnow, Option.bind_some] at ran
      exact givesBack_of_cancelled ran hx hassigned cancelled
  · obtain ⟨b', hb', hwrites⟩ := writes_of_run List.getElem?_concat_length ran working
    obtain rfl : b = b' := Option.some.inj (hb.symm.trans hb')
    obtain ⟨texts, hlength, hwritten, hgiven⟩ := hwrites.closed hstage
    refine ⟨texts, ?_, hwritten, fun i a ha => ?_⟩
    · rw [hlength, ← hbooked.targets, List.length_map]
    · obtain ⟨text, htext, hin⟩ := hgiven i a ha
      refine ⟨text, htext, hin.source.imp_left ?_⟩
      rintro ⟨s, hs, hhands⟩
      obtain ⟨t, hnew, hassigned⟩ := hstart i a ha
      obtain ⟨x, hx, hleaves⟩ := leaves_of_handsIn? ran hnew hs hhands hassigned
      exact ⟨x, hx, hleaves, s, hs, hhands⟩
  · obtain ⟨_, _, -, -, hstep, -⟩ := exists_of_mem_steps ran hs
    exact (transition_of_step hstep).contents

end Engine

/-- Traces its attempts. -/
def tracingEngine (sink : Sink) : Engine :=
  ⟨{ Shared.fresh { plainOptions with trace := true } with sink }, [], 0⟩

/-- Two implementations, and their traces. -/
def tracedBatch (sink : Sink) : Engine :=
  (tracingEngine sink).submit "both" (.ofProgram bodies) [bodyTarget 1 "Main", bodyTarget 2 "Broken"]

/-- The batch is cancelled when the verifier is done with its second implementation and still at
work on the first. -/
def cancelledAtWork : List Move :=
  List.replicate 4 (.advance ⟨0, 0⟩) ++ [.opened ⟨0, 0⟩ (.ok ()), .advance ⟨0, 0⟩] ++
    List.replicate 4 (.advance ⟨0, 1⟩) ++ [.opened ⟨0, 1⟩ (.ok ()), .advance ⟨0, 1⟩,
      .answered ⟨0, 1⟩ (.findings (.bare .correct) 0), .advance ⟨0, 1⟩, .cancel "both"] ++
    List.replicate 6 (.advance ⟨0, 0⟩) ++ List.replicate 6 (.advance ⟨0, 1⟩) ++
    [.await 0, .await 0, .conclude 0, .finish 0]

theorem cancelledAtWork_leaves_no_trace : ∃ e b,
    (tracedBatch .empty).run cancelledAtWork = some e ∧
    e.batches[0]? = some b ∧ b.endings[0]? = some .cancelled ∧
    (∃ now, (tracedBatch .empty).run (cancelledAtWork.take 6) = some now ∧
      now.session? ⟨0, 0⟩ = some 0 ∧
      Engine.GivesBack (now.steps (cancelledAtWork.drop 6)) ⟨0, 0⟩ 0) ∧
    ∃ texts : List String, texts.length = 2 ∧ texts[0]? = some "" ∧
      Engine.writtenBy 0 ((tracedBatch .empty).steps cancelledAtWork) =
        String.join texts ++ Batch.closingLine (.ofEndings b.endings) := by
  obtain ⟨e, ran, b, hb, a, ha, cancelled, hending, hstage⟩ : ∃ e,
      (tracedBatch .empty).run cancelledAtWork = some e ∧ ∃ b, e.batches[0]? = some b ∧
      ∃ a, b.attempts[0]? = some a ∧ a.phase.ending? = some .cancelled ∧
        b.endings[0]? = some .cancelled ∧ b.stage ≠ .running :=
    ⟨_, rfl, _, rfl, _, rfl, rfl, rfl, nofun⟩
  obtain ⟨now, hnow, hsession⟩ : ∃ now,
      (tracedBatch .empty).run (cancelledAtWork.take 6) = some now ∧
      now.session? ⟨0, 0⟩ = some 0 := ⟨_, rfl, rfl⟩
  have hworking : (((tracedBatch .empty).steps cancelledAtWork).all fun s =>
      !s.before.shared.sink.broken) = true := by decide +kernel
  obtain ⟨hcancelled, hwritten, -⟩ := Engine.cancelled_leaves_no_trace ran hb
  obtain ⟨texts, hlength, htexts, hgiven⟩ := hwritten hstage fun s hs _ => by
    simpa using List.all_eq_true.mp hworking s hs
  obtain ⟨text, htext, hsource⟩ := hgiven 0 a ha
  have hempty : text = "" := by
    rcases hsource with ⟨x, hx, hleaves, -⟩ | ⟨-, hempty⟩
    · cases hx.symm.trans cancelled
      exact hleaves
    · exact hempty
  refine ⟨e, b, ran, hb, hending, ⟨now, hnow, hsession, ?_⟩, texts, hlength, ?_, htexts⟩
  · exact (hcancelled 0 a ha cancelled).2.2 _ _ now 0 (List.take_append_drop 6 _).symm hnow hsession
  · rw [htext, hempty]

/-- The same batch in the end, with a sink that takes nothing. -/
def refusedBatch : Option Batch :=
  ((tracedBatch ⟨"", true⟩).run cancelledAtWork).bind (·.batches[0]?)

theorem refusedBatch_eq_some : ∃ b, refusedBatch = some b ∧ b.stage ≠ .running ∧
    (∃ a, b.attempts[0]? = some a ∧ a.phase.ending? = some .cancelled) ∧
    ∃ a r, b.attempts[1]? = some a ∧ a.phase.ending? = some (.completed r) := by
  have hfinished : (refusedBatch.bind Batch.outcome?).isSome = true := by decide +kernel
  have hcancelled : (refusedBatch.bind (·.attempts[0]?)).bind (·.phase.ending?) =
      some .cancelled := by
    decide +kernel
  have hcompleted : (((refusedBatch.bind (·.attempts[1]?)).bind (·.phase.ending?)).bind
      (·.result?)).isSome = true := by
    decide +kernel
  obtain ⟨outcome, houtcome⟩ := Option.isSome_iff_exists.mp hfinished
  obtain ⟨b, hb, hstage⟩ := Option.bind_eq_some_iff.mp houtcome
  rw [hb] at hcancelled hcompleted
  obtain ⟨r, hr⟩ := Option.isSome_iff_exists.mp hcompleted
  obtain ⟨x, hx, hxr⟩ := Option.bind_eq_some_iff.mp hr
  obtain ⟨a, ha, hax⟩ := Option.bind_eq_some_iff.mp hx
  refine ⟨b, hb, fun hrunning => ?_, Option.bind_eq_some_iff.mp hcancelled, a, r, ha, ?_⟩
  · rw [Batch.outcome?, hrunning] at hstage
    cases hstage
  · cases x with
    | completed r' =>
      cases hxr
      exact hax
    | _ => cases hxr

/-- Where the sink takes nothing, the text of the attempt that was not cancelled is not written. -/
theorem cancelledAtWork_leaves_sink_empty :
    ¬ ∀ (e₁ e : Engine) (requestId : String) (analysis : Analysis) (ts : List Target)
      (ms : List Move) (b : Batch), (e₁.submit requestId analysis ts).run ms = some e →
      e.batches[e₁.batches.length]? = some b → b.stage ≠ .running →
      (∃ a ∈ b.attempts, a.phase.ending? = some .cancelled) →
      ∃ texts : List String, texts.length = ts.length ∧
        Engine.writtenBy e₁.batches.length ((e₁.submit requestId analysis ts).steps ms) =
          String.join texts ++ Batch.closingLine (.ofEndings b.endings) ∧
        ∀ (i : Nat) (a : Attempt), b.attempts[i]? = some a → ∃ text, texts[i]? = some text ∧
          ∀ x, a.phase.ending? = some x → a.Leaves e₁.shared.options ⟨x, text⟩ := by
  intro h
  obtain ⟨b, hbatch, hstage, ⟨a₀, ha₀, cancelled⟩, a, r, ha, completed⟩ := refusedBatch_eq_some
  obtain ⟨e, ran, hb⟩ := Option.bind_eq_some_iff.mp hbatch
  have hnothing : Engine.writtenBy 0 ((tracedBatch ⟨"", true⟩).steps cancelledAtWork) = "" := by
    decide +kernel
  obtain ⟨texts, -, hwritten, hgiven⟩ := h (tracingEngine ⟨"", true⟩) e "both" _ _ _ b ran hb
    hstage ⟨a₀, List.mem_of_getElem? ha₀, cancelled⟩
  obtain ⟨text, htext, hleaves⟩ := hgiven 1 a ha
  obtain ⟨preface, hsaid⟩ : ∃ preface, text = _ ++ preface ++ r.render _ := hleaves _ completed
  have hempty : String.join texts = "" :=
    (String.append_eq_empty_iff.mp (hwritten.symm.trans hnothing)).1
  obtain ⟨front, rest, rfl⟩ := List.append_of_mem (List.mem_of_getElem? htext)
  rw [String.join_append, String.join_cons, String.append_eq_empty_iff,
    String.append_eq_empty_iff, hsaid, String.append_eq_empty_iff, String.append_eq_empty_iff]
    at hempty
  exact Ticket.heading_ne_empty a rfl hempty.2.1.1.1

end Verdict
