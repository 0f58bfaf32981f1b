import Mathlib.Algebra.Order.BigOperators.Group.List
import Mathlib.Algebra.Order.Group.Nat
import Verdict.Proofs.Engine.Course
import Verdict.Proofs.Engine.Stopping

/-! Where sessions and permits are.

What the attempts of an engine hold is summed over all of them (`total`). A turn does one thing
with sessions at most (`Handling`): it takes an idle one, has one opened, gives its own back or
drops it. Every session that was ever opened is therefore in one place, and idle sessions, those
at work and those being opened are never more than there are permits. -/
namespace Verdict

namespace Phase

/-- How often an attempt in this phase has this session. -/
def holds (session : Nat) (p : Phase) : Nat := if p.session? = some session then 1 else 0

def sessions (p : Phase) : Nat := p.session?.isSome.toNat

def openings (p : Phase) : Nat := p.isOpening.toNat

/-- Whoever has a session, or waits for one to be opened, has a permit. -/
theorem sessions_add_openings_le (p : Phase) : p.sessions + p.openings ≤ p.permits := by
  cases p with
  | equipped | verifying | opening => exact Nat.le_refl 1
  | _ => exact Nat.zero_le _

theorem openings_of_session? {p : Phase} {session : Nat} (h : p.session? = some session) :
    p.openings = 0 := by
  cases p with
  | equipped | verifying => rfl
  | _ => cases h

end Phase

/-- Whether the session of whoever gets this answer is of no more use. -/
def Answer.isFailure : Answer → Bool
  | findings .. => false
  | fault _ | crash _ => true

def Prompt.isFailure : Prompt → Bool
  | answered answer => answer.isFailure
  | _ => false

/-- What a turn may do with sessions. -/
inductive Handling (pool : SessionPool Nat) (p : Phase) (failure : Bool)
    (pool' : SessionPool Nat) (p' : Phase) : Prop
  | none : failure = false → pool' = pool → p'.session? = p.session? → p'.openings ≤ p.openings →
      Handling pool p failure pool' p'
  | want : failure = false → pool' = pool → pool.idle = [] → p'.session? = p.session? →
      Handling pool p failure pool' p'
  | take {x : Nat} : failure = false → pool.take? = some (x, pool') → p.session? = .none →
      p'.session? = some x → Handling pool p failure pool' p'
  | open : failure = false → pool' = pool.countOpened → p.session? = .none → p.openings = 1 →
      p'.session? = some pool.opened → Handling pool p failure pool' p'
  | giveBack {x : Nat} : failure = false → pool' = pool.giveBack x → p.session? = some x →
      p'.session? = .none → p'.openings = 0 → Handling pool p failure pool' p'
  | drop {x : Nat} : failure = true → pool' = pool → p.session? = some x →
      p'.session? = .none → p'.openings = 0 → Handling pool p failure pool' p'

namespace Handling
variable {pool pool' : SessionPool Nat} {p p' : Phase} {failure : Bool}

theorem eq_of_take? {x : Nat} (h : pool.take? = some (x, pool')) :
    pool.idle = x :: pool'.idle ∧ pool'.opened = pool.opened := by
  unfold SessionPool.take? at h
  split at h
  · rename_i hidle
    cases h
    exact ⟨hidle, rfl⟩
  · cases h

/-- What is idle or held, now and after it has been dropped, is what has been opened. -/
theorem whereabouts (h : Handling pool p failure pool' p') (x : Nat) :
    pool'.idle.count x + p'.holds x + (if failure = true ∧ p.session? = some x then 1 else 0) +
        (if x < pool.opened then 1 else 0) =
      pool.idle.count x + p.holds x + (if x < pool'.opened then 1 else 0) := by
  cases h with
  | none hf hpool hp | want hf hpool _ hp => simp [Phase.holds, hf, hpool, hp]
  | @take y hf htake hp hp' =>
    obtain ⟨hidle, hopened⟩ := eq_of_take? htake
    simp only [Phase.holds, hf, hidle, hopened, hp, hp', List.count_cons, beq_iff_eq,
      Option.some.injEq]
    simp
  | «open» hf hpool hp _ hp' =>
    simp only [Phase.holds, hf, hpool, hp, hp', Option.some.injEq, SessionPool.countOpened]
    simp
    split <;> split <;> split <;> omega
  | @giveBack y hf hpool hp hp' =>
    simp only [Phase.holds, hf, hpool, hp, hp', List.count_cons, beq_iff_eq,
      Option.some.injEq, SessionPool.giveBack]
    simp
  | @drop y hf hpool hp hp' =>
    simp only [Phase.holds, hf, hpool, hp, hp', Option.some.injEq]
    simp

/-- More is idle, held or being opened afterwards only if nothing is idle. -/
theorem claims (h : Handling pool p failure pool' p') :
    pool'.idle.length + p'.sessions + p'.openings ≤ pool.idle.length + p.sessions + p.openings ∨
      pool'.idle = [] := by
  cases h with
  | none hf hpool hp hopen =>
    left
    simp only [Phase.sessions, hpool, hp]
    omega
  | want hf hpool hidle => exact .inr (hpool ▸ hidle)
  | @take y hf htake hp hp' =>
    left
    simp [Phase.sessions, Phase.openings_of_session? hp', hp, hp', (eq_of_take? htake).1]
  | «open» hf hpool hp hopen hp' =>
    left
    simp [Phase.sessions, Phase.openings_of_session? hp', hp, hp', hpool, hopen,
      SessionPool.countOpened]
  | giveBack hf hpool hp hp' hopen =>
    left
    simp [Phase.sessions, hp, hp', hpool, hopen, SessionPool.giveBack]
  | drop hf hpool hp hp' hopen =>
    left
    simp only [Phase.sessions, hp, hp', hpool, hopen, Option.isSome, Bool.toNat_false]
    omega

end Handling

namespace Attempt
variable {k : Ticket} {slot : Nat} {s s' : Shared} {tray tray' : Tray} {a a' : Attempt} {q : Prompt}

theorem Turn.handling (h : Turn k slot s tray a q s' tray' a') :
    Handling s.pool a.phase q.isFailure s'.pool a'.phase := by
  have hafter : ∀ f, (k.afterFault s.options a f).session? = none ∧
      (k.afterFault s.options a f).openings = 0 := by
    intro f
    cases f <;> exact ⟨rfl, rfl⟩
  cases h with
  | enter hp | hit hp | miss hp | pass hp | gain hp | ask hp | keep hp | report hp
  | settle hp | leave hp | announce hp | deliver hp | write hp =>
    exact .none rfl rfl (by rw [hp]; rfl) (Nat.zero_le _)
  | stopEarly hp =>
    exact .none rfl rfl (by rcases hp with hp | hp <;> rw [hp] <;> rfl) (Nat.zero_le _)
  | reuse hp htake => exact .take rfl htake (by rw [hp]; rfl) rfl
  | want hp htake =>
    refine .want rfl rfl ?_ (by rw [hp]; rfl)
    unfold SessionPool.take? at htake
    split at htake
    · cases htake
    · assumption
  | stopLate hp => exact .giveBack rfl rfl hp rfl rfl
  | equip hp => exact .open rfl rfl (by rw [hp]; rfl) (by rw [hp]; rfl) rfl
  | @refuse f hp =>
    refine .none rfl rfl (by rw [hp]; exact (hafter f).1) ?_
    exact Nat.le_trans (Nat.le_of_eq (hafter f).2) (Nat.zero_le _)
  | find hp => exact .giveBack rfl rfl (by rw [hp]; rfl) rfl rfl
  | @fault session job f hp => exact .drop rfl rfl (by rw [hp]; rfl) (hafter f).1 (hafter f).2
  | crash hp => exact .drop rfl rfl (by rw [hp]; rfl) rfl rfl

end Attempt

namespace Engine
variable {e₀ e e' : Engine} {ms : List Move} {m : Move} {id : AttemptId} {k : Ticket} {a : Attempt}

/-- The sum over all attempts of what each comes to in its phase. -/
def total (f : Phase → Nat) (e : Engine) : Nat :=
  (e.batches.map fun b => (b.attempts.map fun a => f a.phase).sum).sum

/-- How many sessions are at work. -/
def inUse (e : Engine) : Nat := e.total Phase.sessions

/-- How many sessions are being opened. -/
def beingOpened (e : Engine) : Nat := e.total Phase.openings

/-- The session that an attempt has. -/
def session? (e : Engine) (id : AttemptId) : Option Nat := e.view (·.phase.session?) none id

theorem total_add (f g : Phase → Nat) (e : Engine) :
    e.total (fun p => f p + g p) = e.total f + e.total g := by
  simp only [total, List.sum_map_add]

theorem total_le_total {f g : Phase → Nat} (h : ∀ p, f p ≤ g p) (e : Engine) :
    e.total f ≤ e.total g :=
  List.sum_le_sum fun _ _ => List.sum_le_sum fun _ _ => h _

theorem le_total (f : Phase → Nat) (h : e.assigned? id = some (k, a)) : f a.phase ≤ e.total f := by
  obtain ⟨b, hb, -, ha⟩ := assigned?_eq_some_iff.mp h
  have hattempt : f a.phase ≤ (b.attempts.map fun a => f a.phase).sum :=
    List.le_sum_of_mem (List.mem_map.mpr ⟨a, List.mem_of_getElem? ha, rfl⟩)
  exact Nat.le_trans hattempt
    (List.le_sum_of_mem (List.mem_map.mpr ⟨b, List.mem_of_getElem? hb, rfl⟩))

/-- A move is the turn of one attempt, or it leaves all attempts in their phases. -/
theorem Transition.total_cases (h : Transition e m e') :
    (m.prompt? = none ∧ ∀ f, f .scheduled = 0 → e'.total f = e.total f) ∨
      ∃ id q k a a' tray tray', m.prompt? = some (id, q) ∧ e.assigned? id = some (k, a) ∧
        Attempt.Turn k id.slot e.shared tray a q e'.shared tray' a' ∧
        ∀ f, e'.total f + f a.phase = e.total f + f a'.phase := by
  cases h with
  | submit requestId a ts =>
    refine .inl ⟨rfl, fun f hf => ?_⟩
    have hnew : (ts.map fun t => f (Attempt.scheduled t).phase).sum = 0 := by
      simp [Attempt.scheduled, hf]
    simp only [total, batches_submit, List.map_append, List.sum_append, Batch.scheduled,
      List.map_singleton, List.map_map, List.sum_singleton]
    exact Nat.add_eq_left.mpr hnew
  | @attempt m id q b a a' s' tray' hm hb ha hturn =>
    refine .inr ⟨id, q, b.ticket, a, a', b.tray, tray', hm,
      assigned?_eq_some_iff.mpr ⟨b, hb, rfl, ha⟩, hturn, fun f => ?_⟩
    have hbatch := sum_map_set (fun b : Batch => (b.attempts.map fun a => f a.phase).sum) hb
      (b.withAttempt id.slot tray' a')
    have hattempt : ((b.withAttempt id.slot tray' a').attempts.map fun a => f a.phase).sum +
        f a.phase = (b.attempts.map fun a => f a.phase).sum + f a'.phase :=
      sum_map_set (fun a : Attempt => f a.phase) ha a'
    show ((e.batches.set id.batch _).map _).sum + f a.phase = (e.batches.map _).sum + f a'.phase
    omega
  | @batch m i c b b' s' hm hb hturn =>
    refine .inl ⟨Move.prompt?_of_call? hm, fun f _ => ?_⟩
    have hbatch := sum_map_set (fun b : Batch => (b.attempts.map fun a => f a.phase).sum) hb b'
    rw [hturn.attempts] at hbatch
    exact Nat.add_right_cancel hbatch
  | cancel => exact .inl ⟨rfl, fun _ _ => rfl⟩
  | clearCache => exact .inl ⟨rfl, fun _ _ => rfl⟩
  | breakSink => exact .inl ⟨rfl, fun _ _ => rfl⟩

/-- Whether this session is dropped at a step: with a failure of whoever has it, or while it is
idle, by the last batch to leave. -/
def Step.drops (x : Nat) (t : Step) : Bool :=
  match t.move with
  | .answered id answer => answer.isFailure && t.before.session? id = some x
  | .finish _ => t.after.shared.requests.running = 0 && t.before.shared.pool.idle.contains x
  | _ => false

theorem Step.drops_of_prompt? {q : Prompt} (h : m.prompt? = some (id, q)) (x : Nat) :
    Step.drops x ⟨e, m, e'⟩ = (q.isFailure && e.session? id = some x) := by
  cases m <;> cases h <;> rfl

/-- Nobody but an attempt and the last batch to leave does anything with sessions. -/
theorem Transition.pool_cases (h : Transition e m e') (hm : m.prompt? = none) (x : Nat) :
    e'.shared.pool = e.shared.pool ∧ Step.drops x ⟨e, m, e'⟩ = false ∨
      e'.shared.pool = e.shared.pool.clear.2 ∧
        Step.drops x ⟨e, m, e'⟩ = e.shared.pool.idle.contains x := by
  cases h with
  | submit | cancel | clearCache | breakSink => exact .inl ⟨rfl, rfl⟩
  | attempt hm' =>
    rw [hm] at hm'
    cases hm'
  | @batch m i c b b' s' hm' hb hturn =>
    cases hturn with
    | gather | miss | close =>
      cases m <;> cases hm'
      exact .inl ⟨rfl, rfl⟩
    | part hstage =>
      cases m <;> cases hm'
      by_cases hrunning : (e.shared.requests.finish b.ticket.requestId b.ticket.token).running = 0
      · refine .inr ⟨if_pos hrunning, ?_⟩
        exact (congrArg (· && _) (decide_eq_true hrunning)).trans (Bool.true_and _)
      · refine .inl ⟨if_neg hrunning, ?_⟩
        exact (congrArg (· && _) (decide_eq_false hrunning)).trans (Bool.false_and _)

/-- A session that has been opened is idle, held, or dropped so often. -/
def Placed (e : Engine) (x dropped : Nat) : Prop :=
  e.shared.pool.idle.count x + e.total (Phase.holds x) + dropped =
    if x < e.shared.pool.opened then 1 else 0

theorem Placed.step {x dropped : Nat} (h : e.Placed x dropped) (htransition : Transition e m e') :
    e'.Placed x (dropped + if Step.drops x ⟨e, m, e'⟩ then 1 else 0) := by
  unfold Placed at h ⊢
  rcases htransition.total_cases with ⟨hm, htotal⟩ |
    ⟨id, q, k, a, a', tray, tray', hm, ha, hturn, htotal⟩
  · rw [htotal (Phase.holds x) rfl]
    rcases htransition.pool_cases hm x with ⟨hpool, hdrops⟩ | ⟨hpool, hdrops⟩
    · rw [hpool, hdrops]
      exact h
    -- The pool is emptied, and each session that was in it is dropped, once.
    · have hone : e.shared.pool.idle.count x ≤ 1 := by
        split at h <;> omega
      have hcount : (if e.shared.pool.idle.contains x then 1 else 0) =
          e.shared.pool.idle.count x := by
        by_cases hmem : x ∈ e.shared.pool.idle
        · rw [if_pos (List.contains_iff_mem.mpr hmem)]
          have := List.count_pos_iff.mpr hmem
          omega
        · rw [if_neg (mt List.contains_iff_mem.mp hmem), List.count_eq_zero.mpr hmem]
      rw [hpool, hdrops, hcount, SessionPool.clear, ← h, List.count_nil]
      omega
  · have hmoved := hturn.handling.whereabouts x
    have htotal := htotal (Phase.holds x)
    have hdrops : (if Step.drops x ⟨e, m, e'⟩ then 1 else 0) =
        if q.isFailure = true ∧ a.phase.session? = some x then 1 else 0 := by
      rw [Step.drops_of_prompt? hm, session?, view_of_assigned? ha]
      simp only [Bool.and_eq_true, decide_eq_true_iff]
    rw [← hdrops] at hmoved
    omega

theorem placed_of_run (new : e₀.batches = []) (hpool : e₀.shared.pool = .empty)
    (ran : e₀.run ms = some e) (x : Nat) : e.Placed x ((e₀.steps ms).countP (Step.drops x)) := by
  refine run_induction (P := fun ms e => e.Placed x ((e₀.steps ms).countP (Step.drops x))) ?_ ?_ ran
  · rw [Placed, hpool, total, new]
    rfl
  · intro ms m e e' hrun ih hstep htransition
    rw [steps_concat hrun hstep, List.countP_append, List.countP_singleton]
    exact ih.step htransition

/-- What has been dropped is out of reach. -/
theorem Placed.gone {x dropped : Nat} (h : e.Placed x dropped) (hdropped : 0 < dropped) :
    x ∉ e.shared.pool.idle ∧ ∀ id, e.session? id ≠ some x := by
  have hnone : e.shared.pool.idle.count x = 0 ∧ e.total (Phase.holds x) = 0 := by
    unfold Placed at h
    split at h <;> omega
  refine ⟨List.count_eq_zero.mp hnone.1, fun id hid => ?_⟩
  cases ha : e.attempt? id with
  | none =>
    rw [session?, view, ha] at hid
    cases hid
  | some a =>
    obtain ⟨k, ha⟩ := exists_assigned? ha
    rw [session?, view_of_assigned? ha] at hid
    have hle := le_total (Phase.holds x) ha
    rw [hnone.2, Phase.holds, if_pos hid] at hle
    omega

/-! ### Sessions and permits -/

/-- How many sessions are idle, at work, or being opened. -/
def claims (e : Engine) : Nat := e.shared.pool.idle.length + e.inUse + e.beingOpened

theorem claims_le (h : e.Orderly) (hidle : e.shared.pool.idle = []) :
    e.claims ≤ e.shared.options.unitLimit := by
  have hpermits : e.shared.permits + e.total Phase.permits = _ := h.permits
  have hheld : e.inUse + e.beingOpened ≤ e.total Phase.permits := by
    rw [inUse, beingOpened, ← total_add]
    exact total_le_total Phase.sessions_add_openings_le e
  rw [claims, hidle, List.length_nil]
  omega

theorem Transition.claims (h : Transition e m e') :
    e'.claims ≤ e.claims ∨ e'.shared.pool.idle = [] := by
  unfold Engine.claims
  rcases h.total_cases with ⟨hm, htotal⟩ | ⟨id, q, k, a, a', tray, tray', hm, ha, hturn, htotal⟩
  · rw [inUse, beingOpened, htotal _ rfl, htotal _ rfl]
    rcases h.pool_cases hm 0 with ⟨hpool, -⟩ | ⟨hpool, -⟩
    · rw [hpool]
      exact .inl (Nat.le_refl _)
    · exact .inr (congrArg SessionPool.idle hpool)
  · have hsessions : e'.inUse + a.phase.sessions = e.inUse + a'.phase.sessions := htotal _
    have hopenings : e'.beingOpened + a.phase.openings = e.beingOpened + a'.phase.openings :=
      htotal _
    rcases hturn.handling.claims with hle | hidle
    · left
      omega
    · exact .inr hidle

theorem claims_le_of_run (horderly : e₀.Orderly) (hbound : e₀.claims ≤ e₀.shared.options.unitLimit)
    (ran : e₀.run ms = some e) : e.claims ≤ e.shared.options.unitLimit := by
  refine run_induction (P := fun _ e => e.Orderly ∧ e.claims ≤ e.shared.options.unitLimit)
    ⟨horderly, hbound⟩ ?_ ran |>.2
  intro _ m e e' _ ⟨horderly, hbound⟩ _ htransition
  have horderly' := htransition.orderly horderly
  refine ⟨horderly', ?_⟩
  rcases htransition.claims with hle | hidle
  · rw [htransition.grows.options]
    exact Nat.le_trans hle hbound
  · exact claims_le horderly' hidle

/-- How many permits an attempt has. -/
def allowance (e : Engine) (id : AttemptId) : Nat := e.view (·.phase.permits) 0 id

/-- How many permits an attempt takes at a step. -/
def Step.takes (id : AttemptId) (t : Step) : Nat :=
  if t.move.attempt? = some id then t.before.shared.permits - t.after.shared.permits else 0

/-- How many permits an attempt returns at a step. -/
def Step.returns (id : AttemptId) (t : Step) : Nat :=
  if t.move.attempt? = some id then t.after.shared.permits - t.before.shared.permits else 0

theorem Transition.allowance (h : Transition e m e') (id : AttemptId) :
    e'.allowance id + Step.returns id ⟨e, m, e'⟩ = e.allowance id + Step.takes id ⟨e, m, e'⟩ := by
  unfold Engine.allowance Step.takes Step.returns
  rcases h.view_cases (·.phase.permits) 0 fun _ => rfl with ⟨hm, hview⟩ |
    ⟨own, q, k, a, a', tray, tray', hm, ha, hturn, hview⟩
  · have hother : (none : Option AttemptId) ≠ some id := (Option.some_ne_none id).symm
    rw [hview, Move.attempt?, hm, Option.map_none, if_neg hother, if_neg hother]
  · rw [hview, Move.attempt?_of_prompt? hm]
    by_cases hown : id = own
    · subst hown
      have hpermits := hturn.permits
      rw [Function.update_self, view_of_assigned? ha, if_pos rfl, if_pos rfl]
      simp only
      omega
    · have hother : some own ≠ some id := fun h => hown (Option.some.inj h).symm
      rw [Function.update_of_ne hown, if_neg hother, if_neg hother]

/-- What an attempt has taken it has returned, or has still. -/
theorem takes_of_run (new : e₀.batches = []) (ran : e₀.run ms = some e) (id : AttemptId) :
    ((e₀.steps ms).map (Step.takes id)).sum =
      e.allowance id + ((e₀.steps ms).map (Step.returns id)).sum := by
  refine run_induction (P := fun ms e => ((e₀.steps ms).map (Step.takes id)).sum =
    e.allowance id + ((e₀.steps ms).map (Step.returns id)).sum) ?_ ?_ ran
  · rw [allowance, view, attempt?, new]
    rfl
  · intro ms m e e' hrun ih hstep htransition
    have hallowance := htransition.allowance id
    simp only [steps_concat hrun hstep, List.map_append, List.sum_append, ih, List.map_singleton,
      List.sum_singleton]
    omega

/-- **Sessions are owned and bounded.** After any run of any engine, each session that was ever
opened is idle, held by one attempt, or was dropped at one step. Those that are idle, held or
being opened are no more than may work at a time. A session whose verifier returned a fault is
neither idle nor held from then on. A permit is free or held, and an attempt that is over holds
neither a session nor a permit, having returned each that it took. -/
theorem session_has_one_place {o : Options} {c : Cache} (created : create o = .ok e₀)
    (ran : (e₀.withCache c).run ms = some e) :
    (∀ x, e.shared.pool.idle.count x + e.total (Phase.holds x) +
        ((e₀.withCache c).steps ms).countP (Step.drops x) =
      if x < e.shared.pool.opened then 1 else 0) ∧
    e.shared.pool.idle.length + e.inUse + e.beingOpened ≤ o.unitLimit ∧
    (∀ t ∈ (e₀.withCache c).steps ms, ∀ id f x, t.move = .answered id (.fault f) →
      t.before.session? id = some x →
      x ∉ e.shared.pool.idle ∧ ∀ other, e.session? other ≠ some x) ∧
    e.shared.permits + e.total Phase.permits = o.unitLimit ∧
    ∀ id k a, e.assigned? id = some (k, a) → a.phase.stepsLeft = 0 →
      a.phase.session? = none ∧ a.phase.holdsPermit = false ∧
        (((e₀.withCache c).steps ms).map (Step.takes id)).sum =
          (((e₀.withCache c).steps ms).map (Step.returns id)).sum := by
  obtain ⟨new, hpool, hoptions⟩ : (e₀.withCache c).batches = [] ∧
      (e₀.withCache c).shared.pool = .empty ∧ (e₀.withCache c).shared.options = o := by
    rw [eq_of_create created]
    exact ⟨rfl, rfl, rfl⟩
  have horderly := orderly_of_create created c
  have hlimit : e.shared.options.unitLimit = o.unitLimit := by
    rw [(grows_of_run ran).options, hoptions]
  refine ⟨placed_of_run new hpool ran, ?_, ?_, ?_, ?_⟩
  · rw [← hlimit]
    refine claims_le_of_run horderly ?_ ran
    exact claims_le horderly (congrArg SessionPool.idle hpool)
  · intro t ht id f x hmove hsession
    refine (placed_of_run new hpool ran x).gone (List.countP_pos_iff.mpr ⟨t, ht, ?_⟩)
    simp only [Step.drops, hmove, hsession, Answer.isFailure, decide_true, Bool.and_self]
  · rw [← hlimit]
    exact (orderly_of_run horderly ran).permits
  · intro id k a ha hover
    refine ⟨?_, ?_, ?_⟩
    · cases hp : a.phase.session? with
      | none => rfl
      | some x =>
        have := (Phase.of_session? hp).1
        omega
    · have hpermits := Phase.permits_of_over hover
      cases hp : a.phase.holdsPermit with
      | false => rfl
      | true =>
        rw [Phase.permits, hp] at hpermits
        cases hpermits
    · rw [takes_of_run new ran id, allowance, view_of_assigned? ha, Phase.permits_of_over hover,
        Nat.zero_add]

end Engine

/-- The verifier's connection is lost over one implementation, and the next one is verified with
a session of its own. -/
def lostConnection : List Move :=
  .submit "both" (.ofProgram bodies) [bodyTarget 1 "Main", bodyTarget 2 "Broken"] ::
    List.replicate 4 (.advance ⟨0, 0⟩) ++
    [.opened ⟨0, 0⟩ (.ok ()), .advance ⟨0, 0⟩, .answered ⟨0, 0⟩ (.fault (.io "closed"))] ++
    List.replicate 6 (.advance ⟨0, 0⟩) ++ List.replicate 4 (.advance ⟨0, 1⟩) ++
    [.opened ⟨0, 1⟩ (.ok ()), .advance ⟨0, 1⟩,
      .answered ⟨0, 1⟩ (.findings (.bare .correct) 0)]

theorem lostConnection_placed : ∃ e₀ e k a, Engine.create plainOptions = .ok e₀ ∧
    (e₀.withCache .fresh).run lostConnection = some e ∧
    e.assigned? ⟨0, 0⟩ = some (k, a) ∧ a.phase.stepsLeft = 0 ∧
    e.shared.pool.idle = [1] ∧ (∀ other, e.session? other ≠ some 0) ∧
    e.shared.permits + e.total Phase.permits = 2 ∧ a.phase.holdsPermit = false := by
  have created : Engine.create plainOptions = .ok ⟨.fresh plainOptions, [], 0⟩ := rfl
  obtain ⟨e, ran, k, a, assigned, ended, idle, t, ht, hmove, hsession⟩ : ∃ e,
      ((⟨.fresh plainOptions, [], 0⟩ : Engine).withCache .fresh).run lostConnection = some e ∧
      ∃ k a, e.assigned? ⟨0, 0⟩ = some (k, a) ∧ a.phase.stepsLeft = 0 ∧ e.shared.pool.idle = [1] ∧
      ∃ t ∈ ((⟨.fresh plainOptions, [], 0⟩ : Engine).withCache .fresh).steps lostConnection,
        t.move = .answered ⟨0, 0⟩ (.fault (.io "closed")) ∧
        t.before.session? ⟨0, 0⟩ = some 0 :=
    ⟨_, rfl, _, _, rfl, rfl, rfl, _, List.mem_of_getElem? (i := 7) rfl, rfl, rfl⟩
  obtain ⟨-, -, hgone, hpermits, hover⟩ := Engine.session_has_one_place created ran
  exact ⟨_, e, k, a, created, ran, assigned, ended, idle,
    (hgone t ht _ _ 0 hmove hsession).2, hpermits, (hover _ k a assigned ended).2.1⟩

end Verdict
