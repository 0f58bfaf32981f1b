import Verdict.Proofs.Engine.Transition

/-! What a run keeps of the attempts in it.

An attempt comes closer to its end with every step and keeps its result once it has one
(`Ahead`). Nothing that happens to an engine takes an attempt out of its place, changes what it
is to verify, or changes the ticket of its batch (`Grows`). Read backwards, an attempt that is
not as it was has either just been scheduled or just taken a turn (`Transition.origin`). -/
namespace Verdict

/-- The result of an attempt in this phase, once it is known. -/
def Phase.result? : Phase → Option Result
  | answered r => some r
  | reporting p _ => some p.result
  | settled c _ | idle c | retired c | announced c => c.ending.result?
  | delivered e | ended e => e.result?
  | _ => none

/-- A session is out only for the work on a result that is still to come. -/
theorem Phase.of_session? {p : Phase} {session : Nat} (h : p.session? = some session) :
    8 ≤ p.stepsLeft ∧ p.result? = none := by
  cases p with
  | equipped => exact ⟨Nat.le_succ 8, rfl⟩
  | verifying => exact ⟨Nat.le_refl 8, rfl⟩
  | _ => cases h

/-- What is known of an attempt beforehand depends on its target alone. -/
theorem Ticket.key_congr {k : Ticket} {a a' : Attempt} (h : a'.target = a.target) :
    k.key a' = k.key a := by
  obtain ⟨t, g, p⟩ := a
  obtain ⟨t', g', p'⟩ := a'
  cases h
  rfl

theorem Ticket.result_congr {k : Ticket} {o : Options} {a a' : Attempt}
    (h : a'.target = a.target) (f : Findings) (elapsed : Nat) :
    k.result o a' f elapsed = k.result o a f elapsed := by
  obtain ⟨t, g, p⟩ := a
  obtain ⟨t', g', p'⟩ := a'
  cases h
  rfl

theorem Ticket.afterFault_stepsLeft (k : Ticket) (o : Options) (a : Attempt) (f : Fault) :
    (k.afterFault o a f).stepsLeft ≤ 6 := by
  cases f <;> simp [Ticket.afterFault, Phase.stepsLeft]

namespace Attempt

/-- An attempt as it was, and as it may be later. -/
structure Ahead (a a' : Attempt) : Prop where
  target : a'.target = a.target
  stepsLeft : a'.phase.stepsLeft ≤ a.phase.stepsLeft
  result : ∀ r, a.phase.result? = some r → a'.phase.result? = some r

theorem Ahead.refl (a : Attempt) : Ahead a a := ⟨rfl, Nat.le_refl _, fun _ h => h⟩

theorem Ahead.trans {a b c : Attempt} (h : Ahead a b) (h' : Ahead b c) : Ahead a c :=
  ⟨h'.target.trans h.target, Nat.le_trans h'.stepsLeft h.stepsLeft,
    fun r hr => h'.result r (h.result r hr)⟩

variable {k : Ticket} {slot : Nat} {s s' : Shared} {tray tray' : Tray} {a a' : Attempt} {q : Prompt}

theorem Turn.stepsLeft (h : Turn k slot s tray a q s' tray' a') :
    a'.phase.stepsLeft < a.phase.stepsLeft := by
  have hfault := fun f => Ticket.afterFault_stepsLeft k s.options a f
  cases h with
  | stopEarly hp =>
    show 5 < a.phase.stepsLeft
    rcases hp with hp | hp <;> rw [hp] <;> decide
  | stopLate hp =>
    show 5 < a.phase.stepsLeft
    have := (Phase.of_session? hp).1
    omega
  | @refuse f hp =>
    rw [hp]
    exact Nat.lt_of_le_of_lt (hfault f) (by decide)
  | @fault session job f hp =>
    rw [hp]
    exact Nat.lt_of_le_of_lt (hfault f) (by simp [Phase.stepsLeft])
  | _ => simp_all [moved, Phase.stepsLeft]

theorem Turn.result (h : Turn k slot s tray a q s' tray' a') {r : Result}
    (hr : a.phase.result? = some r) : a'.phase.result? = some r := by
  cases h with
  | stopEarly hp =>
    rcases hp with hp | hp <;> rw [hp] at hr <;> cases hr
  | stopLate hp =>
    rw [(Phase.of_session? hp).2] at hr
    cases hr
  | keep hp | report hp | settle hp | leave hp | announce hp | deliver hp | write hp =>
    rw [hp] at hr
    exact hr
  | enter hp | hit hp | miss hp | pass hp | gain hp | reuse hp | want hp | ask hp | equip hp
  | refuse hp | find hp | fault hp | crash hp =>
    rw [hp] at hr
    cases hr

theorem Turn.ahead (h : Turn k slot s tray a q s' tray' a') : Ahead a a' :=
  ⟨h.target, Nat.le_of_lt h.stepsLeft, fun _ hr => h.result hr⟩

end Attempt

namespace Engine

/-- An engine as it was, and as it may be later. -/
structure Grows (e e' : Engine) : Prop where
  options : e'.shared.options = e.shared.options
  attempts : ∀ id k a, e.assigned? id = some (k, a) →
    ∃ a', e'.assigned? id = some (k, a') ∧ Attempt.Ahead a a'

theorem Grows.refl (e : Engine) : Grows e e := ⟨rfl, fun _ _ a h => ⟨a, h, .refl a⟩⟩

theorem Grows.trans {e₁ e₂ e₃ : Engine} (h : Grows e₁ e₂) (h' : Grows e₂ e₃) : Grows e₁ e₃ := by
  refine ⟨h'.options.trans h.options, fun id k a ha => ?_⟩
  obtain ⟨a', ha', hahead⟩ := h.attempts id k a ha
  obtain ⟨a'', ha'', hahead'⟩ := h'.attempts id k a' ha'
  exact ⟨a'', ha'', hahead.trans hahead'⟩

variable {e e' : Engine} {m : Move} {id : AttemptId} {k : Ticket} {a a' : Attempt}

/-- Where another batch is changed, or this one but not its ticket and its attempts, an
attempt stays as it is. -/
theorem assigned?_withBatch {i : Nat} {s : Shared} {b b' : Batch} (hb : e.batches[i]? = some b)
    (hk : b'.ticket = b.ticket) (ha : id.batch = i → b'.attempts[id.slot]? = b.attempts[id.slot]?) :
    (e.withBatch i s b').assigned? id = e.assigned? id := by
  unfold assigned? withBatch
  by_cases hi : id.batch = i
  · subst hi
    have hlt : id.batch < e.batches.length := (List.getElem?_eq_some_iff.mp hb).1
    rw [List.getElem?_set_self hlt, hb, Option.bind_some, Option.bind_some, ha rfl, hk]
  · rw [List.getElem?_set_ne (Ne.symm hi)]

theorem assigned?_withAttempt {s : Shared} {b : Batch} {tray : Tray}
    (hb : e.batches[id.batch]? = some b) (ha : b.attempts[id.slot]? = some a) :
    (e.withBatch id.batch s (b.withAttempt id.slot tray a')).assigned? id = some (b.ticket, a') := by
  have hlt : id.batch < e.batches.length := (List.getElem?_eq_some_iff.mp hb).1
  have hslot : id.slot < b.attempts.length := (List.getElem?_eq_some_iff.mp ha).1
  unfold assigned? withBatch Batch.withAttempt
  rw [List.getElem?_set_self hlt, Option.bind_some, List.getElem?_set_self hslot]
  rfl

/-- The turn of one attempt leaves all others alone. -/
theorem assigned?_withAttempt_of_ne {id' : AttemptId} (hne : id' ≠ id) {s : Shared} {b : Batch}
    {tray : Tray} (hb : e.batches[id.batch]? = some b) :
    (e.withBatch id.batch s (b.withAttempt id.slot tray a')).assigned? id' = e.assigned? id' := by
  refine assigned?_withBatch hb rfl fun hi => ?_
  have hslot : id.slot ≠ id'.slot := by
    intro h
    exact hne (by cases id'; cases id; simp_all)
  exact List.getElem?_set_ne hslot

theorem assigned?_submit (requestId : String) (analysis : Analysis) (targets : List Target)
    (h : e.assigned? id = some (k, a)) :
    (e.submit requestId analysis targets).assigned? id = some (k, a) := by
  obtain ⟨b, hb, hk, ha⟩ := assigned?_eq_some_iff.mp h
  have hlt : id.batch < e.batches.length := (List.getElem?_eq_some_iff.mp hb).1
  refine assigned?_eq_some_iff.mpr ⟨b, ?_, hk, ha⟩
  exact (List.getElem?_append_left hlt).trans hb

theorem assigned?_of_submit {requestId : String} {analysis : Analysis} {targets : List Target}
    (h : (e.submit requestId analysis targets).assigned? id = some (k, a)) :
    e.assigned? id = some (k, a) ∨ ∃ t, a = .scheduled t := by
  obtain ⟨b, hb, hk, ha⟩ := assigned?_eq_some_iff.mp h
  rw [batches_submit] at hb
  rcases List.getElem?_eq_some_iff.mp hb with ⟨hlt, hget⟩
  by_cases hold : id.batch < e.batches.length
  · rw [List.getElem?_append_left hold] at hb
    exact .inl (assigned?_eq_some_iff.mpr ⟨b, hb, hk, ha⟩)
  · rw [List.getElem?_append_right (by omega)] at hb
    obtain rfl := List.mem_singleton.mp (List.mem_of_getElem? hb)
    obtain ⟨t, -, rfl⟩ := List.mem_map.mp (List.mem_of_getElem? ha)
    exact .inr ⟨t, rfl⟩

/-- An attempt after a transition: as it was, new, or one turn further. -/
theorem Transition.origin (h : Transition e m e') (h' : e'.assigned? id = some (k, a')) :
    e.assigned? id = some (k, a') ∨ (∃ t, a' = .scheduled t) ∨
      ∃ q tray tray' a, m.prompt? = some (id, q) ∧ e.assigned? id = some (k, a) ∧
        Attempt.Turn k id.slot e.shared tray a q e'.shared tray' a' := by
  cases h with
  | submit => exact (assigned?_of_submit h').imp_right .inl
  | @attempt m id' q b a₀ a₁ s' tray' hm hb ha hturn =>
    by_cases hid : id = id'
    · subst hid
      rw [assigned?_withAttempt hb ha] at h'
      cases h'
      exact .inr (.inr ⟨q, _, _, a₀, hm, assigned?_eq_some_iff.mpr ⟨b, hb, rfl, ha⟩, hturn⟩)
    · rw [assigned?_withAttempt_of_ne hid hb] at h'
      exact .inl h'
  | batch hm hb hturn =>
    rw [assigned?_withBatch hb hturn.ticket fun _ => by rw [hturn.attempts]] at h'
    exact .inl h'
  | cancel => exact .inl h'
  | clearCache => exact .inl h'
  | breakSink => exact .inl h'

theorem Transition.grows (h : Transition e m e') : Grows e e' := by
  have same : ∀ e'' : Engine, e''.shared.options = e.shared.options →
      (∀ id, e''.assigned? id = e.assigned? id) → Grows e e'' := fun e'' ho hsame =>
    ⟨ho, fun id k a ha => ⟨a, (hsame id).trans ha, .refl a⟩⟩
  cases h with
  | submit requestId analysis targets =>
    exact ⟨rfl, fun id k a ha => ⟨a, assigned?_submit requestId analysis targets ha, .refl a⟩⟩
  | @attempt m id q b a₀ a₁ s' tray' hm hb ha hturn =>
    refine ⟨hturn.options, fun id' k a ha' => ?_⟩
    by_cases hid : id' = id
    · subst hid
      cases (assigned?_eq_some_iff.mpr ⟨b, hb, rfl, ha⟩).symm.trans ha'
      exact ⟨a₁, assigned?_withAttempt hb ha, hturn.ahead⟩
    · exact ⟨a, (assigned?_withAttempt_of_ne hid hb).trans ha', .refl a⟩
  | batch hm hb hturn =>
    exact same _ hturn.options fun id =>
      assigned?_withBatch hb hturn.ticket fun _ => by rw [hturn.attempts]
  | cancel => exact same _ rfl fun _ => rfl
  | clearCache => exact same _ rfl fun _ => rfl
  | breakSink => exact same _ rfl fun _ => rfl

theorem grows_of_run {ms : List Move} (h : e.run ms = some e') : Grows e e' :=
  run_induction (P := fun _ e' => Grows e e') (.refl e)
    (fun _ hgrows _ htransition => hgrows.trans htransition.grows) h

end Engine

end Verdict
