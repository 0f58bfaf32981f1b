import Verdict.Proofs.Engine.Growth
import Verdict.Proofs.Statistics

/-! What an attempt accounts for.

A permit is either free or held by one attempt, and a result is counted when it is reported:
whatever a turn takes from the one side it adds to the other (`Turn.permits`,
`Turn.statistics`). A turn changes the roster only where an attempt begins or leaves, and the
requests only where it announces a fatal ending. -/
namespace Verdict

/-- How many permits an attempt in this phase holds. -/
def Phase.permits (p : Phase) : Nat := p.holdsPermit.toNat

/-- How many permits the attempts of a batch hold. -/
def Batch.permits (b : Batch) : Nat := (b.attempts.map (·.phase.permits)).sum

theorem Phase.permits_of_over {p : Phase} (h : p.stepsLeft = 0) : p.permits = 0 := by
  cases p with
  | ended e => rfl
  | crashed reason => rfl
  | _ => cases h

theorem Ticket.permits_afterFault (k : Ticket) (o : Options) (a : Attempt) (f : Fault) :
    (k.afterFault o a f).permits = 1 := by
  cases f <;> rfl

theorem Ticket.stepsLeft_afterFault (k : Ticket) {o : Options} {a : Attempt} {f : Fault} :
    5 ≤ (k.afterFault o a f).stepsLeft := by
  cases f <;> simp [Ticket.afterFault, Phase.stepsLeft]

namespace Attempt

/-- What an attempt has been counted for. -/
def counted (a : Attempt) : Statistics :=
  if a.phase.stepsLeft ≤ 5 then (a.phase.result?.map Statistics.ofRun).getD 0 else 0

theorem counted_of_early {a : Attempt} (h : 6 ≤ a.phase.stepsLeft) : a.counted = 0 :=
  if_neg (by omega)

theorem counted_of_late {a : Attempt} {r : Result} (h : a.phase.stepsLeft ≤ 5)
    (hr : a.phase.result? = some r) : a.counted = .ofRun r := by
  rw [counted, if_pos h, hr]
  rfl

theorem counted_afterFault (k : Ticket) (o : Options) (a : Attempt) (f : Fault) :
    (a.moved (k.afterFault o a f)).counted = 0 := by
  cases f <;> rfl

variable {k : Ticket} {slot : Nat} {s s' : Shared} {tray tray' : Tray} {a a' : Attempt} {q : Prompt}

theorem Turn.permits (h : Turn k slot s tray a q s' tray' a') :
    s'.permits + a'.phase.permits = s.permits + a.phase.permits := by
  cases h with
  | enter hp | hit hp | miss hp | pass hp | reuse hp | want hp | ask hp | keep hp | report hp
  | settle hp | leave hp | announce hp | deliver hp | write hp | equip hp | find hp | crash hp =>
    rw [hp]
    rfl
  | stopEarly hp => rcases hp with hp | hp <;> rw [hp] <;> rfl
  | @gain n hp _ hn =>
    rw [hp, hn]
    rfl
  | stopLate hp =>
    cases hphase : a.phase with
    | equipped | verifying => rfl
    | _ =>
      rw [hphase] at hp
      cases hp
  | refuse hp | fault hp =>
    rw [hp]
    exact congrArg (s.permits + ·) (k.permits_afterFault ..)

/-- No permit is made or lost. -/
theorem Turn.permits_withAttempt {b : Batch} (h : Turn k slot s b.tray a q s' tray' a')
    (ha : b.attempts[slot]? = some a) :
    s'.permits + (b.withAttempt slot tray' a').permits = s.permits + b.permits := by
  have hown := h.permits
  have hsum : (b.withAttempt slot tray' a').permits + a.phase.permits =
      b.permits + a'.phase.permits := sum_map_set (·.phase.permits) ha a'
  omega

theorem Turn.statistics (h : Turn k slot s tray a q s' tray' a') :
    tray'.statistics + a.counted = tray.statistics + a'.counted := by
  cases h with
  | enter hp | hit hp | miss hp | pass hp | gain hp | reuse hp | want hp | equip hp =>
    rw [counted_of_early (by rw [hp]; decide)]
    rfl
  | stopEarly hp =>
    rw [counted_of_early (by rcases hp with hp | hp <;> rw [hp] <;> decide)]
    rfl
  | stopLate hp =>
    have hleft := (Phase.of_session? hp).1
    rw [counted_of_early (by omega)]
    rfl
  | @ask session hp =>
    rw [counted_of_early (by rw [hp]; exact Nat.le_add_left 6 3)]
    rfl
  | @keep r hp =>
    rw [counted_of_early (by rw [hp]; exact Nat.le_succ 6)]
    rfl
  | @report p permit hp =>
    rw [counted_of_early (by rw [hp]; exact Nat.le_refl 6), add_zero]
    exact Statistics.record_eq_add tray.statistics p.result
  | settle hp | leave hp | announce hp | deliver hp | write hp =>
    rw [counted, counted, hp]
    rfl
  | @refuse f hp => rw [counted_of_early (by rw [hp]; decide), counted_afterFault]
  | @find session job f elapsed hp =>
    rw [counted_of_early (by rw [hp]; exact Nat.le_add_left 6 2)]
    rfl
  | @fault session job f hp =>
    rw [counted_of_early (by rw [hp]; exact Nat.le_add_left 6 2), counted_afterFault]
  | @crash session job reason hp =>
    rw [counted_of_early (by rw [hp]; exact Nat.le_add_left 6 2)]
    rfl

/-- An attempt begins, or it stays the run it is and perhaps leaves. -/
theorem Turn.roster (h : Turn k slot s tray a q s' tray' a') :
    (a.phase = .scheduled ∧ a'.generation = some (s.roster.generation + 1) ∧
        s'.roster = (s.roster.enter a.name).2) ∨
      a'.generation = a.generation ∧
        (s'.roster = s.roster ∨ ∃ g, s'.roster = s.roster.leave a.name g) := by
  cases h with
  | enter hp => exact .inl ⟨hp, rfl, rfl⟩
  | leave =>
    refine .inr ⟨rfl, ?_⟩
    cases a.generation with
    | none => exact .inl rfl
    | some g => exact .inr ⟨g, rfl⟩
  | _ => exact .inr ⟨rfl, .inl rfl⟩

theorem Turn.revokes (h : Turn k slot s tray a q s' tray' a') :
    s'.requests = s.requests ∨ s'.requests = s.requests.revoke k.token := by
  cases h with
  | @announce c =>
    cases hfatal : c.ending.isFatal with
    | true => exact .inr rfl
    | false => exact .inl rfl
  | _ => exact .inl rfl

theorem Turn.requests (h : Turn k slot s tray a q s' tray' a')
    (hfatal : ∀ c, a.phase = .retired c → c.ending.isFatal = false) :
    s'.requests = s.requests := by
  cases h with
  | @announce c hp =>
    show (if c.ending.isFatal then s.requests.revoke k.token else s.requests) = s.requests
    rw [hfatal c hp]
    rfl
  | _ => rfl

/-- A turn hands a text in, writes what is next in line, or leaves the output alone. -/
theorem Turn.output (h : Turn k slot s tray a q s' tray' a') :
    (2 ≤ a'.phase.stepsLeft ∧ tray'.collector = tray.collector ∧ s'.sink = s.sink) ∨
      (∃ c, a.phase = .announced c ∧ a'.phase = .delivered c.ending ∧
        tray'.collector = tray.collector.add slot c.text ∧ s'.sink = s.sink) ∨
      (∃ e, a.phase = .delivered e ∧ a'.phase = .ended e ∧
        tray'.collector = (tray.collector.write s.sink).2.1 ∧
        s'.sink = (tray.collector.write s.sink).2.2) ∨
      ∃ reason, a'.phase = .crashed reason := by
  cases h with
  | @deliver c hp => exact .inr (.inl ⟨c, hp, rfl, rfl, rfl⟩)
  | @write e hp => exact .inr (.inr (.inl ⟨e, hp, rfl, rfl, rfl⟩))
  | @crash _ _ reason => exact .inr (.inr (.inr ⟨reason, rfl⟩))
  | refuse | fault => exact .inl ⟨Nat.le_trans (by decide) k.stepsLeft_afterFault, rfl, rfl⟩
  | _ => exact .inl ⟨by simp [moved, Phase.stepsLeft], rfl, rfl⟩

end Attempt

end Verdict
