import Verdict.Proofs.Engine.Growth

/-! What may have happened in a run of an engine.

An attempt that failed is a reason for its request to stop, and remains one (`hasFailed`). What
happened at a point of the run, and with the engine as it was there, is asked for by
`happens`: that a request was cancelled, that a run of some name began. -/
namespace Verdict

namespace Phase

/-- How an attempt in this phase ends, as soon as that is settled. -/
def ending? : Phase → Option Ending
  | settled c _ | idle c | retired c | announced c => some c.ending
  | delivered e | ended e => some e
  | _ => none

/-- Whether an attempt in this phase is a reason for its request to stop. -/
def isFailure : Phase → Bool
  | crashed _ => true
  | p => p.ending?.any Ending.isFatal

def isScheduled : Phase → Bool
  | scheduled => true
  | _ => false

theorem stepsLeft_of_isFailure {p : Phase} (h : p.isFailure = true) : p.stepsLeft ≤ 5 := by
  cases p with
  | settled | idle | retired | announced | delivered | ended | crashed => simp [stepsLeft]
  | _ => cases h

theorem ending?_of_session? {p : Phase} {session : Nat} (h : p.session? = some session) :
    p.ending? = none := by
  cases p with
  | equipped | verifying => rfl
  | _ => cases h

end Phase

theorem Ticket.afterFault_ending? (k : Ticket) (o : Options) (a : Attempt) (f : Fault) :
    ¬(k.afterFault o a f).ending? = some .cancelled := by
  cases f <;> exact nofun

namespace Attempt
variable {k : Ticket} {slot : Nat} {s s' : Shared} {tray tray' : Tray} {a a' : Attempt} {q : Prompt}

theorem Turn.isFailure (h : Turn k slot s tray a q s' tray' a') (hfailure : a.phase.isFailure = true) :
    a'.phase.isFailure = true := by
  cases h with
  | settle hp | leave hp | announce hp | deliver hp | write hp =>
    rw [hp] at hfailure
    exact hfailure
  | stopEarly hp => rcases hp with hp | hp <;> rw [hp] at hfailure <;> cases hfailure
  | stopLate hp =>
    have := (Phase.of_session? hp).1
    have := Phase.stepsLeft_of_isFailure hfailure
    omega
  | enter hp | hit hp | miss hp | pass hp | gain hp | reuse hp | want hp | ask hp | keep hp
  | report hp | equip hp | refuse hp | find hp | fault hp | crash hp =>
    rw [hp] at hfailure
    cases hfailure

/-- An attempt ends cancelled only if it was to stop when it looked. -/
theorem Turn.of_cancelled (h : Turn k slot s tray a q s' tray' a')
    (hcancelled : a'.phase.ending? = some .cancelled) :
    a.phase.ending? = some .cancelled ∨
      q = .advance ∧ a.phase.ending? = none ∧ k.isCancelled s a = true := by
  cases h with
  | settle hp | leave hp | announce hp | deliver hp | write hp =>
    rw [hp]
    exact .inl hcancelled
  | stopEarly hp hc =>
    refine .inr ⟨rfl, ?_, hc⟩
    rcases hp with hp | hp <;> rw [hp] <;> rfl
  | stopLate hp hc => exact .inr ⟨rfl, Phase.ending?_of_session? hp, hc⟩
  | refuse | fault => exact absurd hcancelled (k.afterFault_ending? _ _ _)
  | _ => cases hcancelled

end Attempt

namespace Engine

/-! ### What may have happened in a run -/

/-- Whether a move is made in a run of which `p` holds at the engine that makes it. -/
def happens (p : Engine → Move → Bool) (e : Engine) : List Move → Bool
  | [] => false
  | m :: rest => p e m || (e.step m).any fun e => e.happens p rest

/-- Whether a move cancels the request with this id and token. -/
def withdraws (requestId : String) (token : Nat) (e : Engine) : Move → Bool
  | .cancel id => id = requestId && (e.shared.requests.find? id).any (·.token = token)
  | _ => false

/-- Whether an attempt of this request has failed. -/
def hasFailed (e : Engine) (requestId : String) (token : Nat) : Bool :=
  e.batches.any fun b =>
    b.ticket.requestId = requestId && b.ticket.token = token && b.attempts.any (·.phase.isFailure)

/-- The ticket of the run of this name that a move begins, if that is newer than `g`. -/
def newcomer? (name : String) (g : Nat) (e : Engine) : Move → Option Ticket
  | .advance id => do
    let (k, a) ← e.assigned? id
    if a.phase.isScheduled && a.name = name && g ≤ e.shared.roster.generation then some k else none
  | _ => none

/-- Whether a newer run of this name begins. -/
def outruns (name : String) (g : Nat) (e : Engine) (m : Move) : Bool := (e.newcomer? name g m).isSome

/-- Whether a newer run of this name begins, of a request that has not been told to stop. -/
def outrunsAlive (name : String) (g : Nat) (e : Engine) (m : Move) : Bool :=
  (e.newcomer? name g m).any fun k => !e.shared.requests.isRevoked k.token

variable {e₀ e e' : Engine} {ms : List Move} {m : Move} {id : AttemptId} {k : Ticket}
  {a a' : Attempt} {requestId name : String} {token g : Nat}

theorem happens_concat {p : Engine → Move → Bool} (ran : e₀.run ms = some e) (m : Move) :
    e₀.happens p (ms ++ [m]) = (e₀.happens p ms || p e m) := by
  induction ms generalizing e₀ with
  | nil =>
    cases ran
    have hover : ((e.step m).any fun e => e.happens p []) = false := by
      cases e.step m <;> rfl
    show (p e m || (e.step m).any fun e => e.happens p []) = (false || p e m)
    rw [hover, Bool.or_false, Bool.false_or]
  | cons m' rest ih =>
    obtain ⟨e₁, hstep, hrest⟩ := Option.bind_eq_some_iff.mp ran
    simp only [List.cons_append, happens, hstep, Option.any_some]
    rw [ih hrest, Bool.or_assoc]

theorem hasFailed_iff : e.hasFailed requestId token = true ↔ ∃ id k a,
    e.assigned? id = some (k, a) ∧ k.requestId = requestId ∧ k.token = token ∧
      a.phase.isFailure = true := by
  simp only [hasFailed, List.any_eq_true, Bool.and_eq_true, decide_eq_true_iff]
  constructor
  · intro ⟨b, hb, ⟨hid, htoken⟩, a, ha, hfailure⟩
    obtain ⟨i, hi⟩ := List.mem_iff_getElem?.mp hb
    obtain ⟨j, hj⟩ := List.mem_iff_getElem?.mp ha
    exact ⟨⟨i, j⟩, b.ticket, a, assigned?_eq_some_iff.mpr ⟨b, hi, rfl, hj⟩, hid, htoken, hfailure⟩
  · intro ⟨id, k, a, hassigned, hid, htoken, hfailure⟩
    obtain ⟨b, hb, rfl, ha⟩ := assigned?_eq_some_iff.mp hassigned
    exact ⟨b, List.mem_of_getElem? hb, ⟨hid, htoken⟩, a, List.mem_of_getElem? ha, hfailure⟩

/-- An attempt that has failed remains one that has. -/
theorem Transition.isFailure (h : Transition e m e') (ha : e.assigned? id = some (k, a))
    (hfailure : a.phase.isFailure = true) :
    ∃ a', e'.assigned? id = some (k, a') ∧ a'.phase.isFailure = true := by
  obtain ⟨a', ha', hahead⟩ := h.grows.attempts id k a ha
  refine ⟨a', ha', ?_⟩
  rcases h.origin ha' with hsame | ⟨t, rfl⟩ | ⟨q, tray, tray', a₀, -, ha₀, hturn⟩
  · cases ha.symm.trans hsame
    exact hfailure
  · have hleft := hahead.stepsLeft
    have := Phase.stepsLeft_of_isFailure hfailure
    have hstart : (Attempt.scheduled t).phase.stepsLeft = 14 := rfl
    omega
  · cases ha.symm.trans ha₀
    exact hturn.isFailure hfailure

theorem Transition.hasFailed (h : Transition e m e')
    (hfailed : e.hasFailed requestId token = true) : e'.hasFailed requestId token = true := by
  obtain ⟨id, k, a, ha, hid, htoken, hfailure⟩ := hasFailed_iff.mp hfailed
  obtain ⟨a', ha', hfailure'⟩ := h.isFailure ha hfailure
  exact hasFailed_iff.mpr ⟨id, k, a', ha', hid, htoken, hfailure'⟩

end Engine

end Verdict
