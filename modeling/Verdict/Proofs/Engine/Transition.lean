import Mathlib.Data.List.Induction
import Verdict.Proofs.Engine.Turn

/-! What a move of an engine can do.

`Transition` lists it move by move: a turn of one attempt, a turn of one batch, or a change of
what is shared. A run goes on from where a shorter one ended (`run_concat`), so that what
every transition keeps holds after every run. What only ever grows is in `Grows`: attempts
stay where they are, for the same target and the same ticket, come closer to their end, and
keep a result once they have it. -/
namespace Verdict

/-- An element of a list after one of them has changed. -/
theorem getElem?_set_cases {α : Type} {l : List α} {i j : Nat} {b c : α}
    (h : (l.set i b)[j]? = some c) : (j = i ∧ c = b) ∨ (j ≠ i ∧ l[j]? = some c) := by
  rw [List.getElem?_set] at h
  split at h
  · rename_i hij
    split at h
    · cases h
      exact .inl ⟨hij.symm, rfl⟩
    · cases h
  · rename_i hij
    exact .inr ⟨Ne.symm hij, h⟩

/-- What is the same of an element that has changed is the same of the list. -/
theorem map_set_of_eq {α β : Type} {f : α → β} {l : List α} {i : Nat} {a b : α}
    (ha : l[i]? = some a) (h : f b = f a) : (l.set i b).map f = l.map f := by
  obtain ⟨hi, rfl⟩ := List.getElem?_eq_some_iff.mp ha
  rw [List.map_set, h, ← List.map_set, List.set_getElem_self]

/-- What a batch may be asked for. -/
inductive Call
  | await
  | conclude
  | finish

/-- The batch that a move is about, and what it is asked for. -/
def Move.call? : Move → Option (Nat × Call)
  | .await i => some (i, .await)
  | .conclude i => some (i, .conclude)
  | .finish i => some (i, .finish)
  | _ => none

namespace Batch

def answer : Call → Shared → Batch → BatchStep
  | .await => await
  | .conclude => conclude
  | .finish => finish

/-- Notes that the next attempt that is awaited broke down. -/
def lose (b : Batch) (reason : String) : Batch :=
  { b with tray := { b.tray with collector := b.tray.collector.add b.endings.length "" } }.endWith
    (.fatal ("verification task failed: " ++ reason))

/-- Closes a batch whose text goes to this sink. -/
def close (b : Batch) (sink : Sink) : Batch :=
  { b with
    tray := { b.tray with collector := (b.reported sink).2.1 }
    stage := .concluded (b.reported sink).1 }

/-- The steps of a batch. -/
inductive Turn (s : Shared) (b : Batch) : Call → Shared → Batch → Prop
  | gather {a : Attempt} {e : Ending} : b.stage = .running →
      b.attempts[b.endings.length]? = some a → a.phase = .ended e →
      Turn s b .await s (b.endWith e)
  | miss {a : Attempt} {reason : String} : b.stage = .running →
      b.attempts[b.endings.length]? = some a → a.phase = .crashed reason →
      Turn s b .await { s with requests := s.requests.revoke b.ticket.token } (b.lose reason)
  | close : b.stage = .running → b.attempts.length ≤ b.endings.length →
      Turn s b .conclude { s with sink := (b.reported s.sink).2.2 } (b.close s.sink)
  | part {r : Except EngineError BatchReport} : b.stage = .concluded r →
      Turn s b .finish
        { s with
          requests := s.requests.finish b.ticket.requestId b.ticket.token
          pool :=
            if (s.requests.finish b.ticket.requestId b.ticket.token).running = 0 then s.pool.clear.2
            else s.pool }
        { b with stage := .finished r }

theorem releaseSessions_eq (s : Shared) : releaseSessions s =
    { s with pool := if s.requests.running = 0 then s.pool.clear.2 else s.pool } := by
  unfold releaseSessions
  split <;> rfl

variable {s s' : Shared} {b b' : Batch} {c : Call}

/-- Every step of a batch is a turn. -/
theorem turn_of_answer (h : answer c s b = some (s', b')) : Turn s b c s' b' := by
  cases c with
  | await =>
    simp only [answer, await] at h
    split at h
    · rename_i a hstage hslot
      cases hp : a.phase with
      | ended e =>
        simp only [hp, Option.some.injEq, Prod.mk.injEq] at h
        obtain ⟨rfl, rfl⟩ := h
        exact .gather hstage hslot hp
      | crashed reason =>
        simp only [hp, Option.some.injEq, Prod.mk.injEq] at h
        obtain ⟨rfl, rfl⟩ := h
        exact .miss hstage hslot hp
      | _ => simp [hp] at h
    · cases h
  | conclude =>
    simp only [answer, conclude] at h
    split at h
    · rename_i hstage
      by_cases hlt : b.endings.length < b.attempts.length
      · simp [hlt] at h
      · simp only [hlt, if_false, Option.some.injEq, Prod.mk.injEq] at h
        obtain ⟨rfl, rfl⟩ := h
        exact .close hstage (by omega)
    · cases h
  | finish =>
    simp only [answer, finish] at h
    split at h
    · rename_i r hstage
      simp only [releaseSessions_eq, Option.some.injEq, Prod.mk.injEq] at h
      obtain ⟨rfl, rfl⟩ := h
      exact .part hstage
    · cases h

theorem Turn.ticket (h : Turn s b c s' b') : b'.ticket = b.ticket := by
  cases h <;> rfl

theorem Turn.attempts (h : Turn s b c s' b') : b'.attempts = b.attempts := by
  cases h <;> rfl

theorem Turn.options (h : Turn s b c s' b') : s'.options = s.options := by
  cases h <;> rfl

theorem Turn.cache (h : Turn s b c s' b') : s'.cache = s.cache := by
  cases h <;> rfl

def withAttempt (b : Batch) (slot : Nat) (tray : Tray) (a : Attempt) : Batch :=
  { b with tray, attempts := b.attempts.set slot a }

end Batch

namespace Engine

/-- An attempt with the ticket of its batch. -/
def assigned? (e : Engine) (id : AttemptId) : Option (Ticket × Attempt) :=
  e.batches[id.batch]?.bind fun b => b.attempts[id.slot]?.map fun a => (b.ticket, a)

theorem assigned?_eq_some_iff {e : Engine} {id : AttemptId} {k : Ticket} {a : Attempt} :
    e.assigned? id = some (k, a) ↔
      ∃ b, e.batches[id.batch]? = some b ∧ b.ticket = k ∧ b.attempts[id.slot]? = some a := by
  unfold assigned?
  constructor
  · intro h
    obtain ⟨b, hb, h⟩ := Option.bind_eq_some_iff.mp h
    obtain ⟨a', ha, h⟩ := Option.map_eq_some_iff.mp h
    cases h
    exact ⟨b, hb, rfl, ha⟩
  · intro h
    obtain ⟨b, hb, rfl, ha⟩ := h
    rw [hb, Option.bind_some, ha]
    rfl

/-- The ticket of a batch that is submitted now. -/
def ticketFor (e : Engine) (requestId : String) (a : Analysis) : Ticket :=
  ⟨requestId, (e.shared.requests.join requestId).1, prepare e.shared.options a⟩

theorem batches_submit (e : Engine) (requestId : String) (a : Analysis) (ts : List Target) :
    (e.submit requestId a ts).batches = e.batches ++ [.scheduled (e.ticketFor requestId a) ts] :=
  rfl

def withBatch (e : Engine) (i : Nat) (s : Shared) (b : Batch) : Engine :=
  { e with shared := s, batches := e.batches.set i b }

/-- The moves of an engine, each with all that it changes. -/
inductive Transition (e : Engine) : Move → Engine → Prop
  | submit (requestId : String) (a : Analysis) (targets : List Target) :
      Transition e (.submit requestId a targets) (e.submit requestId a targets)
  | attempt {m : Move} {id : AttemptId} {q : Prompt} {b : Batch} {a a' : Attempt} {s' : Shared}
      {tray' : Tray} : m.prompt? = some (id, q) → e.batches[id.batch]? = some b →
      b.attempts[id.slot]? = some a →
      Attempt.Turn b.ticket id.slot e.shared b.tray a q s' tray' a' →
      Transition e m (e.withBatch id.batch s' (b.withAttempt id.slot tray' a'))
  | batch {m : Move} {i : Nat} {c : Call} {b b' : Batch} {s' : Shared} :
      m.call? = some (i, c) → e.batches[i]? = some b → Batch.Turn e.shared b c s' b' →
      Transition e m (e.withBatch i s' b')
  | cancel (requestId : String) : Transition e (.cancel requestId) (e.cancel requestId).2
  | clearCache :
      Transition e .clearCache
        { e with shared := { e.shared with cache := e.shared.cache.clear } }
  | breakSink (broken : Bool) :
      Transition e (.breakSink broken)
        { e with shared := { e.shared with sink := { e.shared.sink with broken } } }

theorem onAttempt_eq_some_iff {e e' : Engine} {id : AttemptId}
    {step : Ticket → Shared → Tray → Attempt → AttemptStep} :
    e.onAttempt id step = some e' ↔
      ∃ b a s' tray' a', e.batches[id.batch]? = some b ∧ b.attempts[id.slot]? = some a ∧
        step b.ticket e.shared b.tray a = some (s', tray', a') ∧
        e' = e.withBatch id.batch s' (b.withAttempt id.slot tray' a') := by
  unfold onAttempt onBatch
  simp only [Option.bind_eq_bind, Option.pure_def, Option.bind_eq_some_iff, Option.some.injEq,
    Prod.exists]
  constructor
  · intro h
    obtain ⟨b, hb, s', b', ⟨a, ha, s'', tray', a', hstep, h⟩, rfl⟩ := h
    cases h
    exact ⟨b, a, _, tray', a', hb, ha, hstep, rfl⟩
  · intro h
    obtain ⟨b, a, s', tray', a', hb, ha, hstep, rfl⟩ := h
    exact ⟨b, hb, _, _, ⟨a, ha, s', tray', a', hstep, rfl⟩, rfl⟩

theorem onBatch_eq_some_iff {e e' : Engine} {i : Nat} {step : Shared → Batch → BatchStep} :
    e.onBatch i step = some e' ↔
      ∃ b s' b', e.batches[i]? = some b ∧ step e.shared b = some (s', b') ∧
        e' = e.withBatch i s' b' := by
  unfold onBatch
  simp only [Option.bind_eq_bind, Option.pure_def, Option.bind_eq_some_iff, Option.some.injEq,
    Prod.exists]
  constructor
  · intro h
    obtain ⟨b, hb, s', b', hstep, rfl⟩ := h
    exact ⟨b, s', b', hb, hstep, rfl⟩
  · intro h
    obtain ⟨b, s', b', hb, hstep, rfl⟩ := h
    exact ⟨b, hb, s', b', hstep, rfl⟩

theorem step_eq_onAttempt {e : Engine} {m : Move} {id : AttemptId} {q : Prompt}
    (h : m.prompt? = some (id, q)) :
    e.step m = e.onAttempt id fun k => Attempt.respond q k id.slot := by
  cases m <;> cases h <;> rfl

theorem step_eq_onBatch {e : Engine} {m : Move} {i : Nat} {c : Call}
    (h : m.call? = some (i, c)) : e.step m = e.onBatch i (Batch.answer c) := by
  cases m <;> cases h <;> rfl

/-- Every step of an engine is a transition. -/
theorem transition_of_step {e e' : Engine} {m : Move} (h : e.step m = some e') :
    Transition e m e' := by
  have ofPrompt : ∀ id q, m.prompt? = some (id, q) → Transition e m e' := by
    intro id q hq
    rw [step_eq_onAttempt hq] at h
    obtain ⟨b, a, s', tray', a', hb, ha, hstep, rfl⟩ := onAttempt_eq_some_iff.mp h
    exact .attempt hq hb ha (Attempt.turn_of_respond hstep)
  have ofCall : ∀ i c, m.call? = some (i, c) → Transition e m e' := by
    intro i c hc
    rw [step_eq_onBatch hc] at h
    obtain ⟨b, s', b', hb, hstep, rfl⟩ := onBatch_eq_some_iff.mp h
    exact .batch hc hb (Batch.turn_of_answer hstep)
  cases m with
  | submit requestId a targets =>
    cases h
    exact .submit ..
  | cancel requestId =>
    cases h
    exact .cancel _
  | clearCache =>
    cases h
    exact .clearCache
  | breakSink broken =>
    cases h
    exact .breakSink _
  | advance id => exact ofPrompt _ _ rfl
  | opened id outcome => exact ofPrompt _ _ rfl
  | answered id answer => exact ofPrompt _ _ rfl
  | await i => exact ofCall _ _ rfl
  | conclude i => exact ofCall _ _ rfl
  | finish i => exact ofCall _ _ rfl

/-! ### Runs -/

theorem run_append (e : Engine) (ms ns : List Move) :
    e.run (ms ++ ns) = (e.run ms).bind fun e' => e'.run ns := by
  induction ms generalizing e with
  | nil => rfl
  | cons m rest ih =>
    simp only [List.cons_append, run]
    cases e.step m with
    | none => rfl
    | some e' => exact ih e'

theorem run_concat {e e' : Engine} {ms : List Move} {m : Move} :
    e.run (ms ++ [m]) = some e' ↔ ∃ e₁, e.run ms = some e₁ ∧ e₁.step m = some e' := by
  rw [run_append, Option.bind_eq_some_iff]
  constructor
  · intro h
    obtain ⟨e₁, h₁, h⟩ := h
    obtain ⟨e₂, h₂, h⟩ := Option.bind_eq_some_iff.mp h
    cases h
    exact ⟨e₁, h₁, h₂⟩
  · intro h
    obtain ⟨e₁, h₁, h⟩ := h
    refine ⟨e₁, h₁, ?_⟩
    simp only [run, h, Option.bind_some]

/-- What holds at first and is kept by every transition holds after every run. -/
theorem run_induction {P : List Move → Engine → Prop} {e₀ : Engine} (initial : P [] e₀)
    (kept : ∀ {ms m e e'}, e₀.run ms = some e → P ms e → e.step m = some e' →
      Transition e m e' → P (ms ++ [m]) e')
    {ms : List Move} {e : Engine} (h : e₀.run ms = some e) : P ms e := by
  induction ms using List.reverseRecOn generalizing e with
  | nil =>
    cases h
    exact initial
  | append_singleton ms m ih =>
    obtain ⟨e₁, h₁, hstep⟩ := run_concat.mp h
    exact kept h₁ (ih h₁) hstep (transition_of_step hstep)

end Engine

end Verdict
