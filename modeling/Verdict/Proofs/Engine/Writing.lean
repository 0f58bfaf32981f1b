import Verdict.Proofs.Engine.Course
import Verdict.Proofs.Engine.Rest
import Verdict.Proofs.Output

/-! What a batch writes, among others that write at the same time.

The batches of an engine share one sink, so that the text of a batch is not in one piece there.
What its own steps add, taken together, is: as long as the sink works, the texts of its attempts in
the order of the batch, and the closing line (`writes_of_run`). Of the steps of all other batches
only one thing is used, that they are not counted. -/
namespace Verdict

/-- The text that an attempt in this phase hands in next. -/
def Phase.text? : Phase → Option String
  | announced c => some c.text
  | _ => none

namespace Engine

/-- What a step adds to the text in the sink. -/
def Step.added (t : Step) : String :=
  .ofList (t.after.shared.sink.contents.toList.drop t.before.shared.sink.contents.length)

/-- The text that an attempt hands in at a step. -/
def Step.handsIn? (id : AttemptId) (t : Step) : Option String :=
  match t.move with
  | .advance own => if own = id then t.before.view (·.phase.text?) none id else none
  | _ => none

/-- What the steps of one batch have added to the text in the sink. -/
def writtenBy (n : Nat) (steps : List Step) : String :=
  .join ((steps.filter fun t => t.move.batch? = some n).map Step.added)

variable {n : Nat} {steps : List Step} {t : Step}

theorem Step.added_of_append {text : String}
    (h : t.after.shared.sink.contents = t.before.shared.sink.contents ++ text) :
    t.added = text := by
  rw [added, h, String.toList_append, ← String.length_toList, List.drop_left, String.ofList_toList]

/-- A text is handed in by an attempt that has only this left to do. -/
theorem Step.exists_of_handsIn? {id : AttemptId} {text : String} (h : t.handsIn? id = some text) :
    t.move = .advance id ∧ ∃ k a c, t.before.assigned? id = some (k, a) ∧ a.phase = .announced c ∧
      c.text = text := by
  unfold handsIn? at h
  split at h
  · rename_i own hmove
    split at h
    · rename_i hown
      subst hown
      refine ⟨hmove, ?_⟩
      cases hattempt : t.before.attempt? own with
      | none =>
        rw [view, hattempt] at h
        cases h
      | some a =>
        obtain ⟨k, ha⟩ := exists_assigned? hattempt
        rw [view, hattempt] at h
        have h : a.phase.text? = some text := h
        unfold Phase.text? at h
        split at h
        · rename_i c hp
          exact ⟨k, a, c, ha, hp, Option.some.inj h⟩
        · cases h
    · cases h
  · cases h

theorem writtenBy_concat_of_ne (h : t.move.batch? ≠ some n) :
    writtenBy n (steps ++ [t]) = writtenBy n steps := by
  rw [writtenBy, List.filter_append, List.filter_cons_of_neg (by simpa using h), List.filter_nil,
    List.append_nil, writtenBy]

theorem writtenBy_concat {text : String} (h : t.move.batch? = some n)
    (hadded : t.after.shared.sink.contents = t.before.shared.sink.contents ++ text) :
    writtenBy n (steps ++ [t]) = writtenBy n steps ++ text := by
  rw [writtenBy, List.filter_append, List.filter_cons_of_pos (by simpa using h), List.filter_nil,
    List.map_append, String.join_append, List.map_singleton, Step.added_of_append hadded, writtenBy,
    String.join_cons, String.join_nil, String.append_empty]

theorem writtenBy_concat_of_same
    (h : t.after.shared.sink.contents = t.before.shared.sink.contents) :
    writtenBy n (steps ++ [t]) = writtenBy n steps := by
  by_cases hbatch : t.move.batch? = some n
  · rw [writtenBy_concat hbatch (h.trans (String.append_empty).symm), String.append_empty]
  · exact writtenBy_concat_of_ne hbatch

/-- What is in the slot of an attempt: the text that it handed in at one of these steps, and
nothing before that. One that broke down hands nothing in; the batch does when it awaits it. -/
def Given (steps : List Step) (id : AttemptId) (awaited : Nat) (own : Option String) : Phase → Prop
  | .delivered _ | .ended _ => ∃ text, own = some text ∧ ∃ t ∈ steps, t.handsIn? id = some text
  | .crashed _ => own = if id.slot < awaited then some "" else none
  | _ => own = none

section
variable {id : AttemptId} {awaited : Nat} {own : Option String} {p : Phase}

theorem given_of_early (h : 2 ≤ p.stepsLeft) : Given steps id awaited own p ↔ own = none := by
  cases p with
  | delivered | ended | crashed => simp [Phase.stepsLeft] at h
  | _ => exact Iff.rfl

theorem Given.concat (h : Given steps id awaited own p) (t : Step) :
    Given (steps ++ [t]) id awaited own p := by
  cases p with
  | delivered | ended =>
    obtain ⟨text, hown, t', ht', hhands⟩ := h
    exact ⟨text, hown, t', List.mem_append_left _ ht', hhands⟩
  | _ => exact h

/-- It makes a difference only to an attempt that broke down whether it has been awaited. -/
theorem Given.await (h : Given steps id awaited own p) (hne : ∀ reason, id.slot = awaited →
    p ≠ .crashed reason) : Given steps id (awaited + 1) own p := by
  cases p with
  | crashed reason =>
    have hslot : id.slot ≠ awaited := fun heq => hne reason heq rfl
    have hiff : id.slot < awaited + 1 ↔ id.slot < awaited := by omega
    show own = if id.slot < awaited + 1 then some "" else none
    simp only [hiff]
    exact h
  | _ => exact h

/-- A text in a slot was handed in, or stands in for one that broke down. -/
theorem Given.source {text : String} (h : Given steps id awaited (some text) p) :
    (∃ t ∈ steps, t.handsIn? id = some text) ∨ (∃ reason, p = .crashed reason) ∧ text = "" := by
  cases p with
  | delivered | ended =>
    obtain ⟨_, hown, hhands⟩ := h
    cases hown
    exact .inl hhands
  | crashed reason =>
    have h : some text = if id.slot < awaited then some "" else none := h
    split at h
    · exact .inr ⟨⟨reason, rfl⟩, Option.some.inj h⟩
    · cases h
  | _ => cases h

/-- Whoever is over and has been awaited has a text. -/
theorem Given.text (h : Given steps id awaited own p) (hover : p.stepsLeft = 0)
    (hawaited : id.slot < awaited) : ∃ text, own = some text := by
  cases p with
  | ended =>
    obtain ⟨text, hown, -⟩ := h
    exact ⟨text, hown⟩
  | crashed =>
    have h : own = if id.slot < awaited then some "" else none := h
    rw [if_pos hawaited] at h
    exact ⟨"", h⟩
  | _ => simp [Phase.stepsLeft] at hover

end

/-- The texts of a batch that is not yet concluded are in the sink, as far as they are next in
line, and otherwise in their slots. -/
def Collecting (steps : List Step) (n : Nat) (b : Batch) : Prop :=
  ∃ given, b.tray.collector.Tracks given "" ⟨writtenBy n steps, false⟩ ∧
    given.length = b.attempts.length ∧ ∀ (i : Nat) a, b.attempts[i]? = some a →
      ∃ own, given[i]? = some own ∧ Given steps ⟨n, i⟩ b.endings.length own a.phase

/-- The texts of a batch are in the sink, and the closing line with them. -/
def Complete (steps : List Step) (n : Nat) (b : Batch) : Prop :=
  ∃ texts : List String, texts.length = b.attempts.length ∧
    writtenBy n steps = String.join texts ++ Batch.closingLine b.report.outcome ∧
    ∀ (i : Nat) a, b.attempts[i]? = some a →
      ∃ text, texts[i]? = some text ∧ Given steps ⟨n, i⟩ b.endings.length (some text) a.phase

/-- What a batch has written after these steps, and what of its text is still to come. -/
structure Writes (steps : List Step) (n : Nat) (b : Batch) : Prop where
  awaits : b.Awaits
  running : b.stage = .running → Collecting steps n b
  closed : b.stage ≠ .running → Complete steps n b

end Engine

/-- A turn comes before the text is handed in, hands it in, or writes what is next in line. -/
theorem Attempt.Turn.output_cases {k : Ticket} {slot : Nat} {s s' : Shared} {tray tray' : Tray}
    {a a' : Attempt} {q : Prompt} (h : Turn k slot s tray a q s' tray' a') :
    (2 ≤ a.phase.stepsLeft ∧ (2 ≤ a'.phase.stepsLeft ∨ ∃ reason, a'.phase = .crashed reason) ∧
        tray'.collector = tray.collector ∧ s'.sink = s.sink) ∨
      (∃ c, q = .advance ∧ a.phase = .announced c ∧ a'.phase = .delivered c.ending ∧
        tray'.collector = tray.collector.add slot c.text ∧ s'.sink = s.sink) ∨
      ∃ x, a.phase = .delivered x ∧ a'.phase = .ended x ∧
        tray'.collector = (tray.collector.write s.sink).2.1 ∧
        s'.sink = (tray.collector.write s.sink).2.2 := by
  rcases h.output with ⟨hlate, hcollector, hsink⟩ | ⟨c, hp, hp', hcollector, hsink⟩ | hwrite |
    ⟨reason, hp'⟩
  · have hleft := h.stepsLeft
    exact .inl ⟨by omega, .inl hlate, hcollector, hsink⟩
  · obtain rfl : q = .advance := by
      cases h with
      | deliver => rfl
      | _ => simp_all
    exact .inr (.inl ⟨c, rfl, hp, hp', hcollector, hsink⟩)
  · exact .inr (.inr hwrite)
  · cases h with
    | crash hp => exact .inl ⟨by rw [hp]; exact Nat.le_add_left 2 6, .inr ⟨_, rfl⟩, rfl, rfl⟩
    | @refuse f | @fault _ _ f => cases f <;> cases hp'
    | _ => cases hp'

namespace Engine
variable {n slot : Nat} {steps : List Step} {t : Step} {b b' : Batch} {s s' : Shared} {q : Prompt}
  {tray' : Tray} {a a' : Attempt}

theorem collecting_scheduled (n : Nat) (k : Ticket) (ts : List Target) :
    Collecting [] n (.scheduled k ts) := by
  refine ⟨_, Collector.tracks_withSlots ts.length rfl, ?_, fun i a ha => ⟨none, ?_, ?_⟩⟩
  · simp [Batch.scheduled]
  · have hlt : i < (ts.map Attempt.scheduled).length := (List.getElem?_eq_some_iff.mp ha).1
    rw [List.length_map] at hlt
    simp [hlt]
  · obtain ⟨target, -, rfl⟩ := List.mem_map.mp (List.mem_of_getElem? ha)
    rfl

/-- The slots after the turn of one attempt, if its own is as it should be. -/
theorem given_set {given given' : List (Option String)} {attempts : List Attempt} {awaited : Nat}
    (hgiven : ∀ (i : Nat) a, attempts[i]? = some a →
      ∃ own, given[i]? = some own ∧ Given steps ⟨n, i⟩ awaited own a.phase)
    (hothers : ∀ i, i ≠ slot → given'[i]? = given[i]?)
    (hslot : ∃ own, given'[slot]? = some own ∧
      Given (steps ++ [t]) ⟨n, slot⟩ awaited own a'.phase) :
    ∀ (i : Nat) a, (attempts.set slot a')[i]? = some a →
      ∃ own, given'[i]? = some own ∧ Given (steps ++ [t]) ⟨n, i⟩ awaited own a.phase := by
  intro i c hc
  rcases getElem?_set_cases hc with ⟨rfl, rfl⟩ | ⟨hi, hc⟩
  · exact hslot
  · obtain ⟨own, hown, hin⟩ := hgiven i c hc
    exact ⟨own, (hothers i hi).trans hown, hin.concat t⟩

/-- The turn of an attempt of the batch, while the sink works. -/
theorem Collecting.attempt (h : Collecting steps n b) (ha : b.attempts[slot]? = some a)
    (hturn : Attempt.Turn b.ticket slot s b.tray a q s' tray' a')
    (hawaited : b.endings.length ≤ slot)
    (hbefore : t.before.shared = s) (hafter : t.after.shared = s')
    (hm : t.move.prompt? = some (⟨n, slot⟩, q)) (hattempt : t.before.attempt? ⟨n, slot⟩ = some a)
    (working : s.sink.broken = false) :
    Collecting (steps ++ [t]) n (b.withAttempt slot tray' a') := by
  obtain ⟨given, htracks, hlength, hgiven⟩ := h
  obtain ⟨own, hown, hin⟩ := hgiven slot a ha
  have hlt : slot < given.length := (List.getElem?_eq_some_iff.mp hown).1
  have hbatch : t.move.batch? = some n := Move.batch?_of_prompt? hm
  have hlength' : given.length = (b.withAttempt slot tray' a').attempts.length :=
    hlength.trans (List.length_set ..).symm
  subst hbefore hafter
  rcases hturn.output_cases with ⟨hearly, hlate, hcollector, hsink⟩ |
    ⟨c, rfl, hp, hp', hcollector, hsink⟩ | ⟨x, hp, hp', hcollector, hsink⟩
  · obtain rfl := (given_of_early hearly).mp hin
    refine ⟨given, ?_, hlength', given_set hgiven (fun _ _ => rfl) ⟨none, hown, ?_⟩⟩
    · rw [writtenBy_concat_of_same (congrArg Sink.contents hsink)]
      exact hcollector ▸ htracks
    · rcases hlate with hlate | ⟨reason, hcrashed⟩
      · exact (given_of_early hlate).mpr rfl
      · rw [hcrashed]
        exact (if_neg (Nat.not_lt.mpr hawaited)).symm
  · rw [hp] at hin
    obtain rfl : own = none := hin
    have hhands : t.handsIn? ⟨n, slot⟩ = some c.text := by
      rw [Step.handsIn?, Move.eq_advance hm]
      simp only [if_true]
      rw [view, hattempt, Option.elim, hp]
      rfl
    refine ⟨given.set slot (some c.text), ?_, (List.length_set ..).trans hlength',
      given_set hgiven (fun _ hi => List.getElem?_set_ne (Ne.symm hi))
        ⟨some c.text, List.getElem?_set_self hlt, ?_⟩⟩
    · rw [writtenBy_concat_of_same (congrArg Sink.contents hsink)]
      exact hcollector ▸ htracks.add hown
    · rw [hp']
      exact ⟨c.text, rfl, t, List.mem_append_right _ (List.mem_singleton_self t), hhands⟩
  · obtain ⟨_, after, text, hwrite, htracks', -⟩ := htracks.write_elsewhere working
    rw [hwrite] at hcollector hsink
    refine ⟨given, ?_, hlength', given_set hgiven (fun _ _ => rfl) ⟨own, hown, ?_⟩⟩
    · rw [writtenBy_concat hbatch (congrArg Sink.contents hsink)]
      exact hcollector ▸ htracks'
    · rw [hp] at hin
      rw [hp']
      exact Given.concat hin t

theorem Collecting.concat (h : Collecting steps n b)
    (hsame : writtenBy n (steps ++ [t]) = writtenBy n steps) : Collecting (steps ++ [t]) n b := by
  obtain ⟨given, htracks, hlength, hgiven⟩ := h
  refine ⟨given, hsame ▸ htracks, hlength, fun i a ha => ?_⟩
  obtain ⟨own, hown, hin⟩ := hgiven i a ha
  exact ⟨own, hown, hin.concat t⟩

theorem Complete.concat (h : Complete steps n b)
    (hsame : writtenBy n (steps ++ [t]) = writtenBy n steps) : Complete (steps ++ [t]) n b := by
  obtain ⟨texts, hlength, hwritten, hgiven⟩ := h
  refine ⟨texts, hlength, hsame.trans hwritten, fun i a ha => ?_⟩
  obtain ⟨text, htext, hin⟩ := hgiven i a ha
  exact ⟨text, htext, hin.concat t⟩

theorem Writes.concat (h : Writes steps n b)
    (hsame : writtenBy n (steps ++ [t]) = writtenBy n steps) : Writes (steps ++ [t]) n b :=
  ⟨h.awaits, fun hstage => (h.running hstage).concat hsame,
    fun hstage => (h.closed hstage).concat hsame⟩

theorem Collecting.gather {x : Ending} (h : Collecting steps n b)
    (ha : b.attempts[b.endings.length]? = some a) (hp : a.phase = .ended x) :
    Collecting steps n (b.endWith x) := by
  obtain ⟨given, htracks, hlength, hgiven⟩ := h
  refine ⟨given, htracks, hlength, fun i c hc => ?_⟩
  obtain ⟨own, hown, hin⟩ := hgiven i c hc
  refine ⟨own, hown, ?_⟩
  rw [Batch.endWith, List.length_append, List.length_singleton]
  refine hin.await fun reason hi hcrashed => ?_
  have hi : i = b.endings.length := hi
  subst hi
  cases ha.symm.trans hc
  cases hp.symm.trans hcrashed

theorem Collecting.miss {reason : String} (h : Collecting steps n b)
    (ha : b.attempts[b.endings.length]? = some a) (hp : a.phase = .crashed reason) :
    Collecting steps n (b.lose reason) := by
  obtain ⟨given, htracks, hlength, hgiven⟩ := h
  obtain ⟨own, hown, hin⟩ := hgiven _ a ha
  have hlt : b.endings.length < given.length := (List.getElem?_eq_some_iff.mp hown).1
  rw [hp] at hin
  obtain rfl : own = none := Eq.trans hin (if_neg (Nat.lt_irrefl _))
  refine ⟨given.set b.endings.length (some ""), htracks.add hown, ?_, fun i c hc => ?_⟩
  · rw [List.length_set]
    exact hlength
  · rw [Batch.lose, Batch.endWith, List.length_append, List.length_singleton]
    by_cases hi : i = b.endings.length
    · subst hi
      cases ha.symm.trans hc
      refine ⟨some "", List.getElem?_set_self hlt, ?_⟩
      rw [hp]
      exact (if_pos (Nat.lt_succ_self _)).symm
    · obtain ⟨other, hother, hin'⟩ := hgiven i c hc
      exact ⟨other, (List.getElem?_set_ne (Ne.symm hi)).trans hother,
        hin'.await fun _ heq => absurd heq hi⟩

/-- Once all attempts have been awaited, the rest of the text is written, and the closing line. -/
theorem Collecting.close (h : Collecting steps n b) (awaits : b.Awaits)
    (hall : b.attempts.length ≤ b.endings.length) (hbatch : t.move.batch? = some n)
    (hafter : t.after.shared.sink = (b.reported t.before.shared.sink).2.2)
    (working : t.before.shared.sink.broken = false) :
    Complete (steps ++ [t]) n (b.close t.before.shared.sink) := by
  obtain ⟨given, htracks, hlength, hgiven⟩ := h
  obtain ⟨_, after, text, hwrite, htracks', hend⟩ := htracks.write_elsewhere working
  -- Everyone is over and has been awaited, so that no slot is empty.
  have hfull : after.flushed = given.length := by
    rcases hend with hend | hnone
    · exact hend
    have hlt : after.flushed < b.attempts.length := by
      rw [← hlength]
      exact (List.getElem?_eq_some_iff.mp hnone).1
    have ha := List.getElem?_eq_getElem hlt
    obtain ⟨own, hown, hin⟩ := hgiven _ _ ha
    have hawaited : after.flushed < b.endings.length := Nat.lt_of_lt_of_le hlt hall
    obtain ⟨text, rfl⟩ := hin.text (awaits.spent _ _ hawaited ha) hawaited
    cases hnone.symm.trans hown
  obtain ⟨texts, htexts, hcontents⟩ := htracks'.written
  rw [hfull, List.take_length] at htexts
  subst htexts
  have hsink : t.after.shared.sink =
      (t.before.shared.sink.append text).append (Batch.closingLine b.report.outcome) := by
    have htakes : (t.before.shared.sink.append text).takes (Batch.closingLine b.report.outcome) =
        true := Collector.takes_of_working working _
    rw [hafter, Batch.reported, hwrite]
    simp only [Sink.write, htakes, if_true]
  rw [List.length_map] at hlength
  refine ⟨texts, hlength, ?_, fun i a ha => ?_⟩
  · rw [writtenBy_concat hbatch
      ((congrArg Sink.contents hsink).trans (String.append_assoc ..)), ← String.append_assoc]
    have hcontents : writtenBy n steps ++ text = "" ++ String.join texts := hcontents
    rw [hcontents, String.empty_append]
    rfl
  · obtain ⟨own, hown, hin⟩ := hgiven i a ha
    rw [List.getElem?_map] at hown
    obtain ⟨text', htext', rfl⟩ := Option.map_eq_some_iff.mp hown
    exact ⟨text', htext', hin.concat t⟩

theorem Writes.turn {c : Call} (h : Writes steps n b) (hturn : Batch.Turn s b c s' b')
    (hbefore : t.before.shared = s) (hafter : t.after.shared = s') (hbatch : t.move.batch? = some n)
    (working : s.sink.broken = false) : Writes (steps ++ [t]) n b' := by
  have awaits := hturn.awaits h.awaits
  subst hbefore
  have hsame : t.after.shared.sink = t.before.shared.sink →
      writtenBy n (steps ++ [t]) = writtenBy n steps := fun hsink =>
    writtenBy_concat_of_same (congrArg Sink.contents hsink)
  cases hturn with
  | gather hstage ha hp =>
    refine ⟨awaits, fun _ => ?_, fun hne => absurd hstage hne⟩
    exact ((h.running hstage).gather ha hp).concat (hsame (by rw [hafter]))
  | miss hstage ha hp =>
    refine ⟨awaits, fun _ => ?_, fun hne => absurd hstage hne⟩
    exact ((h.running hstage).miss ha hp).concat (hsame (by rw [hafter]))
  | close hstage hall =>
    refine ⟨awaits, fun hrunning => absurd hrunning BatchStage.noConfusion, fun _ => ?_⟩
    exact (h.running hstage).close h.awaits hall hbatch (congrArg Shared.sink hafter) working
  | part hstage =>
    refine ⟨awaits, fun hrunning => absurd hrunning BatchStage.noConfusion, fun _ => ?_⟩
    have hover : b.stage ≠ .running := by
      rw [hstage]
      exact BatchStage.noConfusion
    exact (h.closed hover).concat (hsame (by rw [hafter]))

theorem Writes.attempt (h : Writes steps n b) (ha : b.attempts[slot]? = some a)
    (hturn : Attempt.Turn b.ticket slot s b.tray a q s' tray' a')
    (hbefore : t.before.shared = s) (hafter : t.after.shared = s')
    (hm : t.move.prompt? = some (⟨n, slot⟩, q)) (hattempt : t.before.attempt? ⟨n, slot⟩ = some a)
    (working : s.sink.broken = false) : Writes (steps ++ [t]) n (b.withAttempt slot tray' a') := by
  have hleft : 0 < a.phase.stepsLeft := Nat.lt_of_le_of_lt (Nat.zero_le _) hturn.stepsLeft
  have hawaited : b.endings.length ≤ slot := by
    refine Nat.le_of_not_lt fun hlt => ?_
    rw [h.awaits.spent slot a hlt ha] at hleft
    exact Nat.lt_irrefl 0 hleft
  refine ⟨h.awaits.withAttempt ha hleft, fun hstage => ?_, fun hstage => ?_⟩
  · exact (h.running hstage).attempt ha hturn hawaited hbefore hafter hm hattempt working
  · have hall := h.awaits.all hstage
    have hlt := (List.getElem?_eq_some_iff.mp ha).1
    omega

variable {e₀ e e' : Engine} {ms : List Move} {m : Move} {k : Ticket} {ts : List Target}

theorem Writes.step (h : Writes steps n b) (hb : e.batches[n]? = some b)
    (htransition : Transition e m e') (working : m.batch? = some n → e.shared.sink.broken = false) :
    ∃ b', e'.batches[n]? = some b' ∧ Writes (steps ++ [⟨e, m, e'⟩]) n b' := by
  rcases htransition.batch_cases hb with ⟨slot, q, a, tray', a', hm, ha, hturn, hb'⟩ |
    ⟨c, b', hm, hturn, hb'⟩ | ⟨hm, hb'⟩
  · have hattempt : e.attempt? ⟨n, slot⟩ = some a := by
      rw [attempt?, hb, Option.bind_some, ha]
    refine ⟨_, hb', h.attempt ha hturn rfl rfl hm hattempt ?_⟩
    exact working (Move.batch?_of_prompt? hm)
  · have hbatch := Move.batch?_of_call? hm
    exact ⟨b', hb', h.turn hturn rfl rfl hbatch (working hbatch)⟩
  · exact ⟨b, hb', h.concat (writtenBy_concat_of_ne hm)⟩

/-- Whatever else is written to the sink meanwhile, as long as it works at the steps of a batch
these write the texts of its attempts, in order. -/
theorem writes_of_run (start : e₀.batches[n]? = some (.scheduled k ts)) (ran : e₀.run ms = some e)
    (working : ∀ t ∈ e₀.steps ms, t.move.batch? = some n → t.before.shared.sink.broken = false) :
    ∃ b, e.batches[n]? = some b ∧ Writes (e₀.steps ms) n b := by
  refine run_induction (P := fun ms e => (∀ t ∈ e₀.steps ms, t.move.batch? = some n →
    t.before.shared.sink.broken = false) →
    ∃ b, e.batches[n]? = some b ∧ Writes (e₀.steps ms) n b) ?_ ?_ ran working
  · intro _
    refine ⟨_, start, ⟨?_, fun _ => collecting_scheduled n k ts, fun hne => absurd rfl hne⟩⟩
    exact ⟨fun i _ hi => absurd hi (Nat.not_lt_zero i), fun hne => absurd rfl hne⟩
  · intro ms m e e' hrun ih hstep htransition working
    rw [steps_concat hrun hstep] at working ⊢
    obtain ⟨b, hb, h⟩ := ih fun t ht => working t (List.mem_append_left _ ht)
    exact h.step hb htransition
      (working ⟨e, m, e'⟩ (List.mem_append_right _ (List.mem_singleton_self _)))

/-! ### What has been written stays written -/

theorem reported_contents (b : Batch) (sink : Sink) :
    ∃ more, (b.reported sink).2.2.contents = sink.contents ++ more := by
  obtain ⟨more, hmore⟩ := b.tray.collector.write_contents sink
  unfold Batch.reported
  split
  · rename_i hwrite
    rw [hwrite] at hmore
    exact ⟨more, hmore⟩
  · rename_i _ _ after hwrite
    rw [hwrite] at hmore
    obtain ⟨closing, hclosing⟩ := after.write_contents (Batch.closingLine b.report.outcome)
    split <;> rename_i hline <;> rw [hline] at hclosing <;>
      exact ⟨more ++ closing, by rw [hclosing, hmore, String.append_assoc]⟩

/-- A step adds to the text in the sink and takes nothing back. -/
theorem Transition.contents (h : Transition e m e') :
    e'.shared.sink.contents = e.shared.sink.contents ++ Step.added ⟨e, m, e'⟩ := by
  suffices hmore : ∃ more, e'.shared.sink.contents = e.shared.sink.contents ++ more by
    obtain ⟨more, hmore⟩ := hmore
    have hadded : Step.added ⟨e, m, e'⟩ = more := Step.added_of_append hmore
    rw [hadded, hmore]
  have same : e'.shared.sink.contents = e.shared.sink.contents →
      ∃ more, e'.shared.sink.contents = e.shared.sink.contents ++ more := fun hsame =>
    ⟨"", hsame.trans (String.append_empty).symm⟩
  cases h with
  | submit | cancel | clearCache | breakSink => exact same rfl
  | @attempt m id q b a a' s' tray' hm hb ha hturn =>
    rcases hturn.output_cases with ⟨-, -, -, hsink⟩ | ⟨c, -, -, -, -, hsink⟩ | ⟨x, -, -, -, hsink⟩
    · exact same (congrArg Sink.contents hsink)
    · exact same (congrArg Sink.contents hsink)
    · obtain ⟨more, hmore⟩ := b.tray.collector.write_contents e.shared.sink
      exact ⟨more, (congrArg Sink.contents hsink).trans hmore⟩
  | @batch m i c b b' s' hm hb hturn =>
    cases hturn with
    | gather | miss | part => exact same rfl
    | close => exact reported_contents b e.shared.sink

end Engine

end Verdict
