import Verdict.Engine

/-! What a step of an attempt can be.

`Turn` lists the steps of an attempt, each with all that it changes, and `turn_of_respond`
says that there are no others. Whatever is kept by every step is read off this list, so that
no other proof opens the steps themselves. -/
namespace Verdict

/-- What makes an attempt take a step. -/
inductive Prompt
  | advance
  | opened (outcome : Except Fault Unit)
  | answered (answer : Answer)

/-- The attempt that a move is about, and what it is told. -/
def Move.prompt? : Move → Option (AttemptId × Prompt)
  | .advance id => some (id, .advance)
  | .opened id outcome => some (id, .opened outcome)
  | .answered id answer => some (id, .answered answer)
  | _ => none

namespace Attempt

def respond (q : Prompt) (k : Ticket) (slot : Nat) (s : Shared) (tray : Tray) (a : Attempt) :
    AttemptStep :=
  match q with
  | .advance => advance k slot s tray a
  | .opened outcome => opened k outcome s tray a
  | .answered answer => answered k answer s tray a

/-- The steps of an attempt: from what is shared, the tray and the attempt to what they are
afterwards. -/
inductive Turn (k : Ticket) (slot : Nat) (s : Shared) (tray : Tray) (a : Attempt) :
    Prompt → Shared → Tray → Attempt → Prop
  | enter : a.phase = .scheduled →
      Turn k slot s tray a .advance { s with roster := (s.roster.enter a.name).2 } tray
        { a with generation := some (s.roster.enter a.name).1, phase := .entered }
  | stopEarly : a.phase = .entered ∨ a.phase = .queued → k.isCancelled s a = true →
      Turn k slot s tray a .advance s tray (a.moved (.settled .cancelled false))
  | hit {r : Result} {u : Urgency} {cache : Cache} : a.phase = .entered →
      k.isCancelled s a = false → s.usesCache = true →
      s.cache.lookup (k.key a) s.options.cacheMode.serves = (some r, u, cache) →
      Turn k slot s tray a .advance { s with cache } tray
        (a.moved (.reporting (k.served s.options a r) false))
  | miss {u : Urgency} {cache : Cache} : a.phase = .entered →
      k.isCancelled s a = false → s.usesCache = true →
      s.cache.lookup (k.key a) s.options.cacheMode.serves = (none, u, cache) →
      Turn k slot s tray a .advance { s with cache } tray (a.moved .queued)
  | pass : a.phase = .entered → k.isCancelled s a = false → s.usesCache = false →
      Turn k slot s tray a .advance s tray (a.moved .queued)
  | gain {n : Nat} : a.phase = .queued → k.isCancelled s a = false → s.permits = n + 1 →
      Turn k slot s tray a .advance { s with permits := n } tray (a.moved .admitted)
  | reuse {session : Nat} {pool : SessionPool Nat} : a.phase = .admitted →
      s.pool.take? = some (session, pool) →
      Turn k slot s tray a .advance { s with pool } tray (a.moved (.equipped session))
  | want : a.phase = .admitted → s.pool.take? = none →
      Turn k slot s tray a .advance s tray (a.moved .opening)
  | stopLate {session : Nat} : a.phase.session? = some session → k.isCancelled s a = true →
      Turn k slot s tray a .advance { s with pool := s.pool.giveBack session } tray
        (a.moved (.settled .cancelled true))
  | ask {session : Nat} : a.phase = .equipped session → k.isCancelled s a = false →
      Turn k slot s tray a .advance s tray (a.moved (.verifying session (k.job s.options a)))
  | keep {r : Result} : a.phase = .answered r →
      Turn k slot s tray a .advance
        { s with cache := if s.usesCache then s.cache.insert (k.key a) r else s.cache } tray
        (a.moved (.reporting ⟨r, "", []⟩ true))
  | report {p : Pending} {permit : Bool} : a.phase = .reporting p permit →
      Turn k slot s tray a .advance
        { s with reported := s.reported ++ p.diagnostics ++ p.result.diagnostics }
        { tray with
          statistics :=
            tray.statistics.record p.result.outcome p.result.errorCount p.result.wasCached }
        (a.moved (.settled ⟨.completed p.result,
          Ticket.heading s.options a ++ p.preface ++ p.result.render s.options⟩ permit))
  | settle {c : Closing} {permit : Bool} : a.phase = .settled c permit →
      Turn k slot s tray a .advance { s with permits := s.permits + permit.toNat } tray
        (a.moved (.idle c))
  | leave {c : Closing} : a.phase = .idle c →
      Turn k slot s tray a .advance
        { s with roster := a.generation.elim s.roster (s.roster.leave a.name) } tray
        (a.moved (.retired c))
  | announce {c : Closing} : a.phase = .retired c →
      Turn k slot s tray a .advance
        { s with
          requests := if c.ending.isFatal then s.requests.revoke k.token else s.requests } tray
        (a.moved (.announced c))
  | deliver {c : Closing} : a.phase = .announced c →
      Turn k slot s tray a .advance s { tray with collector := tray.collector.add slot c.text }
        (a.moved (.delivered c.ending))
  | write {e : Ending} : a.phase = .delivered e →
      Turn k slot s tray a .advance { s with sink := (tray.collector.write s.sink).2.2 }
        { tray with collector := (tray.collector.write s.sink).2.1 } (a.moved (.ended e))
  | equip : a.phase = .opening →
      Turn k slot s tray a (.opened (.ok ())) { s with pool := s.pool.countOpened } tray
        (a.moved (.equipped s.pool.opened))
  | refuse {f : Fault} : a.phase = .opening →
      Turn k slot s tray a (.opened (.error f)) s tray (a.moved (k.afterFault s.options a f))
  | find {session : Nat} {job : Job} {f : Findings} {elapsed : Nat} :
      a.phase = .verifying session job → k.isCancelled s a = false →
      Turn k slot s tray a (.answered (.findings f elapsed))
        { s with pool := s.pool.giveBack session } tray
        (a.moved (.answered (k.result s.options a f elapsed)))
  | fault {session : Nat} {job : Job} {f : Fault} :
      a.phase = .verifying session job → k.isCancelled s a = false →
      Turn k slot s tray a (.answered (.fault f)) { s with pool := s.pool.discard session } tray
        (a.moved (k.afterFault s.options a f))
  | crash {session : Nat} {job : Job} {reason : String} :
      a.phase = .verifying session job → k.isCancelled s a = false →
      Turn k slot s tray a (.answered (.crash reason))
        { s with pool := s.pool.discard session, permits := s.permits + 1 } tray
        (a.moved (.crashed reason))

variable {k : Ticket} {slot : Nat} {s s' : Shared} {tray tray' : Tray} {a a' : Attempt}

theorem keep_eq (k : Ticket) (s : Shared) (a : Attempt) (r : Result) : keep k s a r =
    { s with cache := if s.usesCache then s.cache.insert (k.key a) r else s.cache } := by
  unfold keep
  split <;> rfl

theorem returnPermit_eq (s : Shared) (held : Bool) :
    returnPermit s held = { s with permits := s.permits + held.toNat } := by
  cases held <;> rfl

theorem leave_eq (s : Shared) (a : Attempt) :
    leave s a = { s with roster := a.generation.elim s.roster (s.roster.leave a.name) } := by
  unfold leave
  cases a.generation <;> rfl

theorem announce_eq (k : Ticket) (s : Shared) (e : Ending) : announce k s e =
    { s with requests := if e.isFatal then s.requests.revoke k.token else s.requests } := by
  unfold announce
  split <;> rfl

theorem turn_of_advance (h : advance k slot s tray a = some (s', tray', a')) :
    Turn k slot s tray a .advance s' tray' a' := by
  unfold advance at h
  cases hp : a.phase with
  | scheduled =>
    simp only [hp, Option.some.injEq, Prod.mk.injEq] at h
    obtain ⟨rfl, rfl, rfl⟩ := h
    exact .enter hp
  | entered =>
    simp only [hp] at h
    cases hc : k.isCancelled s a with
    | true =>
      simp only [hc, if_true, Option.some.injEq, Prod.mk.injEq] at h
      obtain ⟨rfl, rfl, rfl⟩ := h
      exact .stopEarly (.inl hp) hc
    | false =>
      simp only [hc, Bool.false_eq_true, if_false, consult] at h
      cases hu : s.usesCache with
      | false =>
        simp only [hu, Bool.false_eq_true, if_false, Option.some.injEq, Prod.mk.injEq] at h
        obtain ⟨rfl, rfl, rfl⟩ := h
        exact .pass hp hc hu
      | true =>
        obtain ⟨found, u, cache, hl⟩ : ∃ found u cache,
            s.cache.lookup (k.key a) s.options.cacheMode.serves = (found, u, cache) := ⟨_, _, _, rfl⟩
        simp only [hu, if_true, hl] at h
        cases found with
        | some r =>
          simp only [Option.some.injEq, Prod.mk.injEq] at h
          obtain ⟨rfl, rfl, rfl⟩ := h
          exact .hit hp hc hu hl
        | none =>
          simp only [Option.some.injEq, Prod.mk.injEq] at h
          obtain ⟨rfl, rfl, rfl⟩ := h
          exact .miss hp hc hu hl
  | queued =>
    simp only [hp] at h
    cases hc : k.isCancelled s a with
    | true =>
      simp only [hc, if_true, Option.some.injEq, Prod.mk.injEq] at h
      obtain ⟨rfl, rfl, rfl⟩ := h
      exact .stopEarly (.inr hp) hc
    | false =>
      simp only [hc, Bool.false_eq_true, if_false, takePermit] at h
      cases hn : s.permits with
      | zero => simp [hn] at h
      | succ n =>
        simp only [hn, Option.map_some, Option.some.injEq, Prod.mk.injEq] at h
        obtain ⟨rfl, rfl, rfl⟩ := h
        exact .gain hp hc hn
  | admitted =>
    simp only [hp, takeSession] at h
    cases ht : s.pool.take? with
    | none =>
      simp only [ht, Option.some.injEq, Prod.mk.injEq] at h
      obtain ⟨rfl, rfl, rfl⟩ := h
      exact .want hp ht
    | some taken =>
      simp only [ht, Option.some.injEq, Prod.mk.injEq] at h
      obtain ⟨rfl, rfl, rfl⟩ := h
      exact .reuse hp ht
  | opening => simp [hp] at h
  | equipped session =>
    simp only [hp] at h
    cases hc : k.isCancelled s a with
    | true =>
      simp only [hc, if_true, Option.some.injEq, Prod.mk.injEq] at h
      obtain ⟨rfl, rfl, rfl⟩ := h
      exact .stopLate (by rw [hp]; rfl) hc
    | false =>
      simp only [hc, Bool.false_eq_true, if_false, Option.some.injEq, Prod.mk.injEq] at h
      obtain ⟨rfl, rfl, rfl⟩ := h
      exact .ask hp hc
  | verifying session job =>
    simp only [hp] at h
    cases hc : k.isCancelled s a with
    | true =>
      simp only [hc, if_true, Option.some.injEq, Prod.mk.injEq] at h
      obtain ⟨rfl, rfl, rfl⟩ := h
      exact .stopLate (by rw [hp]; rfl) hc
    | false => simp [hc] at h
  | answered r =>
    simp only [hp, keep_eq, Option.some.injEq, Prod.mk.injEq] at h
    obtain ⟨rfl, rfl, rfl⟩ := h
    exact .keep hp
  | reporting p permit =>
    simp only [hp, Option.some.injEq, Prod.mk.injEq] at h
    obtain ⟨rfl, rfl, rfl⟩ := h
    exact .report hp
  | settled c permit =>
    simp only [hp, returnPermit_eq, Option.some.injEq, Prod.mk.injEq] at h
    obtain ⟨rfl, rfl, rfl⟩ := h
    exact .settle hp
  | idle c =>
    simp only [hp, leave_eq, Option.some.injEq, Prod.mk.injEq] at h
    obtain ⟨rfl, rfl, rfl⟩ := h
    exact .leave hp
  | retired c =>
    simp only [hp, announce_eq, Option.some.injEq, Prod.mk.injEq] at h
    obtain ⟨rfl, rfl, rfl⟩ := h
    exact .announce hp
  | announced c =>
    simp only [hp, Option.some.injEq, Prod.mk.injEq] at h
    obtain ⟨rfl, rfl, rfl⟩ := h
    exact .deliver hp
  | delivered e =>
    simp only [hp, Option.some.injEq, Prod.mk.injEq] at h
    obtain ⟨rfl, rfl, rfl⟩ := h
    exact .write hp
  | ended e => simp [hp] at h
  | crashed reason => simp [hp] at h

theorem turn_of_opened {outcome : Except Fault Unit}
    (h : opened k outcome s tray a = some (s', tray', a')) :
    Turn k slot s tray a (.opened outcome) s' tray' a' := by
  unfold opened at h
  cases hp : a.phase with
  | opening =>
    cases outcome with
    | ok =>
      simp only [hp, Option.some.injEq, Prod.mk.injEq] at h
      obtain ⟨rfl, rfl, rfl⟩ := h
      exact .equip hp
    | error f =>
      simp only [hp, Option.some.injEq, Prod.mk.injEq] at h
      obtain ⟨rfl, rfl, rfl⟩ := h
      exact .refuse hp
  | _ => simp [hp] at h

theorem turn_of_answered {answer : Answer}
    (h : answered k answer s tray a = some (s', tray', a')) :
    Turn k slot s tray a (.answered answer) s' tray' a' := by
  unfold answered at h
  cases hp : a.phase with
  | verifying session job =>
    simp only [hp] at h
    cases hc : k.isCancelled s a with
    | true => simp [hc] at h
    | false =>
      cases answer with
      | findings f elapsed =>
        simp only [hc, Bool.false_eq_true, if_false, Option.some.injEq, Prod.mk.injEq] at h
        obtain ⟨rfl, rfl, rfl⟩ := h
        exact .find hp hc
      | fault f =>
        simp only [hc, Bool.false_eq_true, if_false, Option.some.injEq, Prod.mk.injEq] at h
        obtain ⟨rfl, rfl, rfl⟩ := h
        exact .fault hp hc
      | crash reason =>
        simp only [hc, Bool.false_eq_true, if_false, Option.some.injEq, Prod.mk.injEq] at h
        obtain ⟨rfl, rfl, rfl⟩ := h
        exact .crash hp hc
  | _ => simp [hp] at h

/-- Every step of an attempt is a turn. -/
theorem turn_of_respond {q : Prompt} (h : respond q k slot s tray a = some (s', tray', a')) :
    Turn k slot s tray a q s' tray' a' := by
  cases q with
  | advance => exact turn_of_advance h
  | opened outcome => exact turn_of_opened h
  | answered answer => exact turn_of_answered h

/-! ### What every step leaves as it is -/

theorem Turn.target {q : Prompt} (h : Turn k slot s tray a q s' tray' a') :
    a'.target = a.target := by
  cases h <;> rfl

theorem Turn.options {q : Prompt} (h : Turn k slot s tray a q s' tray' a') :
    s'.options = s.options := by
  cases h <;> rfl

end Attempt

end Verdict
