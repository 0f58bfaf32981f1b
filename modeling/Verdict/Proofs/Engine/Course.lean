import Mathlib.Logic.Function.Basic
import Verdict.Proofs.Engine.Happening

/-! The course of a run, step by step.

A run is read as the list of its steps, each with the engine before it and after it. What has
been done in a run, by whom and how often, is then counted over this list, and what all moves of
one attempt have in common is said of its members. How an attempt ends is settled once: at no
later step does it end in another way (`ending?_of_run`). -/
namespace Verdict

/-- The attempt that a move is about. -/
def Move.attempt? (m : Move) : Option AttemptId := m.prompt?.map Prod.fst

/-- The batch that a move is about, as a whole or through one of its attempts. -/
def Move.batch? (m : Move) : Option Nat :=
  m.call?.map Prod.fst <|> m.attempt?.map AttemptId.batch

theorem Move.attempt?_of_prompt? {m : Move} {id : AttemptId} {q : Prompt}
    (h : m.prompt? = some (id, q)) : m.attempt? = some id := by
  rw [attempt?, h]
  rfl

theorem Move.eq_advance {m : Move} {id : AttemptId} (h : m.prompt? = some (id, .advance)) :
    m = .advance id := by
  cases m <;> cases h
  rfl

theorem Move.prompt?_of_call? {m : Move} {i : Nat} {c : Call} (h : m.call? = some (i, c)) :
    m.prompt? = none := by
  cases m <;> first | rfl | cases h

theorem Move.batch?_of_prompt? {m : Move} {id : AttemptId} {q : Prompt}
    (h : m.prompt? = some (id, q)) : m.batch? = some id.batch := by
  cases m <;> cases h <;> rfl

theorem Move.batch?_of_call? {m : Move} {i : Nat} {c : Call} (h : m.call? = some (i, c)) :
    m.batch? = some i := by
  rw [batch?, h]
  rfl

namespace Attempt
variable {k : Ticket} {slot : Nat} {s s' : Shared} {tray tray' : Tray} {a a' : Attempt} {q : Prompt}

/-- Once it is settled how an attempt ends, that is how it ends. -/
theorem Turn.ending? (h : Turn k slot s tray a q s' tray' a') {e : Ending}
    (he : a.phase.ending? = some e) : a'.phase.ending? = some e := by
  cases h with
  | settle hp | leave hp | announce hp | deliver hp | write hp =>
    rw [hp] at he
    exact he
  | stopEarly hp => rcases hp with hp | hp <;> rw [hp] at he <;> cases he
  | stopLate hp =>
    rw [Phase.ending?_of_session? hp] at he
    cases he
  | enter hp | hit hp | miss hp | pass hp | gain hp | reuse hp | want hp | ask hp | keep hp
  | report hp | equip hp | refuse hp | find hp | fault hp | crash hp =>
    rw [hp] at he
    cases he

end Attempt

namespace Engine
variable {e₀ e e' : Engine} {ms : List Move} {m : Move} {id : AttemptId} {k : Ticket}
  {a a' : Attempt} {b : Batch} {n : Nat}

theorem Transition.ending? (h : Transition e m e') (ha : e.assigned? id = some (k, a))
    (ha' : e'.assigned? id = some (k, a')) {x : Ending} (hx : a.phase.ending? = some x) :
    a'.phase.ending? = some x := by
  rcases h.origin ha' with hsame | ⟨t, rfl⟩ | ⟨q, tray, tray', a₀, -, ha₀, hturn⟩
  · cases ha.symm.trans hsame
    exact hx
  · obtain ⟨a₁, ha₁, hahead⟩ := h.grows.attempts id k a ha
    cases ha'.symm.trans ha₁
    have hleft : 14 ≤ a.phase.stepsLeft := hahead.stepsLeft
    -- Only a new attempt has so far to go, and that has not ended.
    cases hp : a.phase <;> rw [hp] at hx hleft <;> simp [Phase.stepsLeft, Phase.ending?] at hx hleft
  · cases ha.symm.trans ha₀
    exact hturn.ending? hx

theorem ending?_of_run (ran : e.run ms = some e') (ha : e.assigned? id = some (k, a))
    (ha' : e'.assigned? id = some (k, a')) {x : Ending} (hx : a.phase.ending? = some x) :
    a'.phase.ending? = some x := by
  refine run_induction (P := fun _ e' => ∀ a', e'.assigned? id = some (k, a') →
    a'.phase.ending? = some x) ?_ ?_ ran a' ha'
  · intro a' ha'
    cases ha.symm.trans ha'
    exact hx
  · intro ms m e₁ _ hrun ih _ htransition a' ha'
    obtain ⟨a₁, ha₁, -⟩ := (grows_of_run hrun).attempts id k a ha
    exact htransition.ending? ha₁ ha' (ih a₁ ha₁)

/-- What a move of an attempt does. -/
theorem Transition.of_prompt? {q : Prompt} (h : Transition e m e') (hm : m.prompt? = some (id, q)) :
    ∃ b a s' tray' a', e.batches[id.batch]? = some b ∧ b.attempts[id.slot]? = some a ∧
      Attempt.Turn b.ticket id.slot e.shared b.tray a q s' tray' a' ∧
      e' = e.withBatch id.batch s' (b.withAttempt id.slot tray' a') := by
  cases h with
  | @attempt m own q' b a a' s' tray' hm' hb ha hturn =>
    cases hm'.symm.trans hm
    exact ⟨b, a, s', tray', a', hb, ha, hturn, rfl⟩
  | batch hm' =>
    rw [Move.prompt?_of_call? hm'] at hm
    cases hm
  | submit | cancel | clearCache | breakSink => cases hm

/-- An attempt before a transition: it takes its turn, or it stays as it is. -/
theorem Transition.next (h : Transition e m e') (ha : e.assigned? id = some (k, a)) :
    (∃ q tray tray' a', m.prompt? = some (id, q) ∧ e'.assigned? id = some (k, a') ∧
        Attempt.Turn k id.slot e.shared tray a q e'.shared tray' a') ∨
      (∀ q, m.prompt? ≠ some (id, q)) ∧ e'.assigned? id = some (k, a) := by
  cases h with
  | submit requestId analysis ts =>
    exact .inr ⟨fun _ => nofun, assigned?_submit requestId analysis ts ha⟩
  | @attempt m own q b a₀ a₁ s' tray' hm hb hslot hturn =>
    by_cases hown : id = own
    · subst hown
      cases (assigned?_eq_some_iff.mpr ⟨b, hb, rfl, hslot⟩).symm.trans ha
      exact .inl ⟨q, b.tray, tray', a₁, hm, assigned?_withAttempt hb hslot, hturn⟩
    · refine .inr ⟨fun q' hq' => ?_, (assigned?_withAttempt_of_ne hown hb).trans ha⟩
      cases hm.symm.trans hq'
      exact hown rfl
  | batch hm hb hturn =>
    refine .inr ⟨fun q hq => ?_, ?_⟩
    · rw [Move.prompt?_of_call? hm] at hq
      cases hq
    · exact (assigned?_withBatch hb hturn.ticket fun _ => by rw [hturn.attempts]).trans ha
  | cancel => exact .inr ⟨fun _ => nofun, ha⟩
  | clearCache => exact .inr ⟨fun _ => nofun, ha⟩
  | breakSink => exact .inr ⟨fun _ => nofun, ha⟩

/-- A batch before a transition: one of its attempts takes its turn, or it does itself, or it stays
as it is. -/
theorem Transition.batch_cases (h : Transition e m e') (hb : e.batches[n]? = some b) :
    (∃ slot q a tray' a', m.prompt? = some (⟨n, slot⟩, q) ∧ b.attempts[slot]? = some a ∧
        Attempt.Turn b.ticket slot e.shared b.tray a q e'.shared tray' a' ∧
        e'.batches[n]? = some (b.withAttempt slot tray' a')) ∨
      (∃ c b', m.call? = some (n, c) ∧ Batch.Turn e.shared b c e'.shared b' ∧
        e'.batches[n]? = some b') ∨
      m.batch? ≠ some n ∧ e'.batches[n]? = some b := by
  have hlt : n < e.batches.length := (List.getElem?_eq_some_iff.mp hb).1
  cases h with
  | submit =>
    refine .inr (.inr ⟨(Option.some_ne_none n).symm, ?_⟩)
    exact (List.getElem?_append_left hlt).trans hb
  | @attempt m id q b₁ a a' s' tray' hm hb₁ ha hturn =>
    by_cases hn : id.batch = n
    · subst hn
      cases hb.symm.trans hb₁
      exact .inl ⟨id.slot, q, a, tray', a', hm, ha, hturn, List.getElem?_set_self hlt⟩
    · refine .inr (.inr ⟨?_, (List.getElem?_set_ne hn).trans hb⟩)
      rw [Move.batch?_of_prompt? hm]
      exact fun heq => hn (Option.some.inj heq)
  | @batch m i c b₁ b₂ s' hm hb₁ hturn =>
    by_cases hn : i = n
    · subst hn
      cases hb.symm.trans hb₁
      exact .inr (.inl ⟨c, b₂, hm, hturn, List.getElem?_set_self hlt⟩)
    · refine .inr (.inr ⟨?_, (List.getElem?_set_ne hn).trans hb⟩)
      rw [Move.batch?_of_call? hm]
      exact fun heq => hn (Option.some.inj heq)
  | cancel | clearCache | breakSink => exact .inr (.inr ⟨(Option.some_ne_none n).symm, hb⟩)

/-! ### Attempts at a glance -/

/-- What is to be seen of an attempt, and `blank` where there is none. -/
def view {α : Type} (f : Attempt → α) (blank : α) (e : Engine) (id : AttemptId) : α :=
  (e.attempt? id).elim blank f

theorem attempt?_of_assigned? (h : e.assigned? id = some (k, a)) : e.attempt? id = some a := by
  obtain ⟨b, hb, -, ha⟩ := assigned?_eq_some_iff.mp h
  rw [attempt?, hb, Option.bind_some, ha]

theorem exists_assigned? (h : e.attempt? id = some a) : ∃ k, e.assigned? id = some (k, a) := by
  obtain ⟨b, hb, ha⟩ := Option.bind_eq_some_iff.mp h
  exact ⟨b.ticket, assigned?_eq_some_iff.mpr ⟨b, hb, rfl, ha⟩⟩

theorem attempt?_congr (h : e'.assigned? id = e.assigned? id) : e'.attempt? id = e.attempt? id := by
  cases he : e.attempt? id with
  | some a =>
    obtain ⟨k, ha⟩ := exists_assigned? he
    exact attempt?_of_assigned? (h.trans ha)
  | none =>
    cases he' : e'.attempt? id with
    | none => rfl
    | some a =>
      obtain ⟨k, ha⟩ := exists_assigned? he'
      rw [attempt?_of_assigned? (h.symm.trans ha)] at he
      cases he

section
variable {α : Type} {f : Attempt → α} {blank : α}

theorem view_of_assigned? (h : e.assigned? id = some (k, a)) : e.view f blank id = f a := by
  rw [view, attempt?_of_assigned? h, Option.elim]

/-- A move is the turn of one attempt, and nothing else is to be seen of the others than before,
or nothing else is to be seen of any of them. -/
theorem Transition.view_cases (h : Transition e m e') (f : Attempt → α) (blank : α)
    (hnew : ∀ t, f (.scheduled t) = blank) :
    (m.prompt? = none ∧ e'.view f blank = e.view f blank) ∨
      ∃ id q k a a' tray tray', m.prompt? = some (id, q) ∧ e.assigned? id = some (k, a) ∧
        Attempt.Turn k id.slot e.shared tray a q e'.shared tray' a' ∧
        e'.view f blank = Function.update (e.view f blank) id (f a') := by
  cases h with
  | submit requestId analysis ts =>
    refine .inl ⟨rfl, funext fun id => ?_⟩
    cases he : e.attempt? id with
    | some a =>
      obtain ⟨k, ha⟩ := exists_assigned? he
      rw [view_of_assigned? ha, view_of_assigned? (assigned?_submit requestId analysis ts ha)]
    | none =>
      cases he' : (e.submit requestId analysis ts).attempt? id with
      | none => rw [view, view, he, he']
      | some a =>
        obtain ⟨k, ha⟩ := exists_assigned? he'
        rcases assigned?_of_submit ha with hold | ⟨t, rfl⟩
        · rw [attempt?_of_assigned? hold] at he
          cases he
        · rw [view, view, he, he', Option.elim, Option.elim, hnew]
  | @attempt m id q b a a' s' tray' hm hb ha hturn =>
    have hassigned := assigned?_eq_some_iff.mpr ⟨b, hb, rfl, ha⟩
    refine .inr ⟨id, q, b.ticket, a, a', b.tray, tray', hm, hassigned, hturn, ?_⟩
    funext other
    by_cases hother : other = id
    · subst hother
      rw [Function.update_self, view_of_assigned? (assigned?_withAttempt hb ha)]
    · rw [Function.update_of_ne hother, view, view,
        attempt?_congr (assigned?_withAttempt_of_ne hother hb)]
  | batch hm hb hturn =>
    refine .inl ⟨Move.prompt?_of_call? hm, funext fun id => ?_⟩
    rw [view, view,
      attempt?_congr (assigned?_withBatch hb hturn.ticket fun _ => by rw [hturn.attempts])]
  | cancel => exact .inl ⟨rfl, rfl⟩
  | clearCache => exact .inl ⟨rfl, rfl⟩
  | breakSink => exact .inl ⟨rfl, rfl⟩

end

/-! ### The steps of a run -/

/-- A step of a run. -/
structure Step where
  before : Engine
  move : Move
  after : Engine

/-- The steps of a run, up to the first move that is not possible. -/
def steps (e : Engine) : List Move → List Step
  | [] => []
  | m :: rest =>
    match e.step m with
    | some e' => ⟨e, m, e'⟩ :: e'.steps rest
    | none => []

theorem steps_concat (ran : e₀.run ms = some e) (hstep : e.step m = some e') :
    e₀.steps (ms ++ [m]) = e₀.steps ms ++ [⟨e, m, e'⟩] := by
  induction ms generalizing e₀ with
  | nil =>
    cases ran
    simp only [List.nil_append, steps, hstep]
  | cons m' rest ih =>
    obtain ⟨e₁, hfirst, hrest⟩ := Option.bind_eq_some_iff.mp ran
    simp only [List.cons_append, steps, hfirst]
    rw [ih hrest]

/-- A step of a run is made between two parts of it. -/
theorem exists_of_mem_steps {t : Step} (ran : e₀.run ms = some e) (ht : t ∈ e₀.steps ms) :
    ∃ past rest, ms = past ++ t.move :: rest ∧ e₀.run past = some t.before ∧
      t.before.step t.move = some t.after ∧ t.after.run rest = some e := by
  induction ms generalizing e₀ with
  | nil => cases ht
  | cons m rest ih =>
    obtain ⟨e₁, hstep, hrest⟩ := Option.bind_eq_some_iff.mp ran
    simp only [steps, hstep] at ht
    rcases List.mem_cons.mp ht with rfl | ht
    · exact ⟨[], rest, rfl, rfl, hstep, hrest⟩
    · obtain ⟨past, rest', rfl, hpast, htstep, hafter⟩ := ih hrest ht
      refine ⟨m :: past, rest', rfl, ?_, htstep, hafter⟩
      rw [run, hstep, Option.bind_some, hpast]

end Engine

end Verdict
