import Verdict.Proofs.Engine.Undisturbed

/-! The schedules of a batch on its own.

A schedule is any order of moves of one batch and its attempts, where sessions can be opened and
the verifier answers what it is asked. Every move brings the batch closer to its end
(`OnWay.step`), and until then some move is possible (`OnWay.progress`): whoever waits for a
permit waits for an attempt that can go on. One of the schedules takes the attempts one after
the other (`exists_inOrder`). -/
namespace Verdict

/-- The slot of the attempt that a move is about. -/
def Move.slot? (m : Move) : Option Nat := m.prompt?.map (·.1.slot)

/-- Each attempt makes all of its moves before the next one begins. -/
def InOrder (ms : List Move) : Prop := (ms.filterMap Move.slot?).Pairwise (· ≤ ·)

/-- How many steps are left to a batch at most. -/
def Batch.remaining (b : Batch) : Nat :=
  (b.attempts.map (·.phase.stepsLeft)).sum + (b.attempts.length - b.endings.length) +
    match b.stage with
    | .running => 2
    | .concluded _ => 1
    | .finished _ => 0

theorem Batch.remaining_scheduled (k : Ticket) (ts : List Target) :
    (scheduled k ts).remaining = 15 * ts.length + 2 := by
  have hsum : ((ts.map Attempt.scheduled).map (·.phase.stepsLeft)).sum = 14 * ts.length := by
    induction ts with
    | nil => rfl
    | cons t rest ih =>
      rw [List.map_cons, List.map_cons, List.sum_cons, ih, List.length_cons]
      show 14 + 14 * rest.length = 14 * (rest.length + 1)
      omega
  show ((ts.map Attempt.scheduled).map (·.phase.stepsLeft)).sum +
    ((ts.map Attempt.scheduled).length - 0) + 2 = 15 * ts.length + 2
  rw [hsum, List.length_map]
  omega

namespace Engine

/-- The moves that are open to the batch with this number when it is alone. -/
inductive Conforms (v : Verifier) (n : Nat) (e : Engine) : Move → Prop
  | advance (slot : Nat) : Conforms v n e (.advance ⟨n, slot⟩)
  | opened (slot : Nat) : Conforms v n e (.opened ⟨n, slot⟩ (.ok ()))
  | answered {slot session : Nat} {a : Attempt} {job : Job} {answer : Answer} :
      e.attempt? ⟨n, slot⟩ = some a → a.phase = .verifying session job → v.Gives job answer →
      Conforms v n e (.answered ⟨n, slot⟩ answer)
  | await : Conforms v n e (.await n)
  | conclude : Conforms v n e (.conclude n)
  | finish : Conforms v n e (.finish n)

/-- The runs of the batch with this number when it is alone. -/
inductive Schedule (v : Verifier) (n : Nat) (e₀ : Engine) : List Move → Engine → Prop
  | nil : Schedule v n e₀ [] e₀
  | concat {ms : List Move} {m : Move} {e e' : Engine} : Schedule v n e₀ ms e →
      Conforms v n e m → e.step m = some e' → Schedule v n e₀ (ms ++ [m]) e'

theorem Schedule.run {v : Verifier} {n : Nat} {e₀ e : Engine} {ms : List Move}
    (h : Schedule v n e₀ ms e) : e₀.run ms = some e := by
  induction h with
  | nil => rfl
  | concat _ _ hstep ih => exact run_concat.mpr ⟨_, ih, hstep⟩

end Engine

theorem inOrder_concat {ms : List Move} {m : Move} (h : InOrder ms)
    (hm : ∀ i ∈ ms.filterMap Move.slot?, ∀ j, m.slot? = some j → i ≤ j) : InOrder (ms ++ [m]) := by
  unfold InOrder
  rw [List.filterMap_append, List.pairwise_append]
  refine ⟨h, ?_, fun i hi j hj => hm i hi j ?_⟩
  · cases hslot : m.slot? with
    | none => simp [hslot]
    | some j => simp [hslot]
  · simpa using hj

namespace Setting
open Engine

variable {x : Setting} {ts : List Target} {base : String} {g₀ n slot : Nat} {s : Shared}
  {k : Ticket} {tray : Tray} {a : Attempt} {b : Batch} {e e₀ : Engine} {q : Prompt} {m : Move}

/-! ### A move that is made -/

theorem allows_of_conforms {id : AttemptId} (h : Conforms x.verifier n e m)
    (hm : m.prompt? = some (id, q)) (ha : e.attempt? id = some a) :
    id.batch = n ∧ x.Allows a q := by
  cases h with
  | advance =>
    cases hm
    exact ⟨rfl, .advance⟩
  | opened =>
    cases hm
    exact ⟨rfl, .opened⟩
  | answered ha' hp hgives =>
    cases hm
    cases ha.symm.trans ha'
    exact ⟨rfl, .answered hp hgives⟩
  | await => cases hm
  | conclude => cases hm
  | finish => cases hm

theorem batch_of_conforms {i : Nat} {c : Call} (h : Conforms x.verifier n e m)
    (hm : m.call? = some (i, c)) : i = n := by
  cases h <;> cases hm <;> rfl

theorem attempt?_eq {id : AttemptId} (hb : e.batches[id.batch]? = some b) :
    e.attempt? id = b.attempts[id.slot]? := by
  rw [Engine.attempt?, hb, Option.bind_some]

/-- **Every move of a schedule keeps the batch on its way, and brings it closer to its end.** -/
theorem OnWay.step {e' : Engine} (h : x.OnWay ts base g₀ e.shared b) (apart : x.Apart ts)
    (lasting : x.verifier.Lasting) (hb : e.batches[n]? = some b) (hm : Conforms x.verifier n e m)
    (hstep : e.step m = some e') :
    ∃ b', e'.batches[n]? = some b' ∧ x.OnWay ts base g₀ e'.shared b' ∧
      b'.remaining < b.remaining := by
  have hlt : n < e.batches.length := (List.getElem?_eq_some_iff.mp hb).1
  cases transition_of_step hstep with
  | @attempt m id q b₁ a a' s' tray' hprompt hb₁ ha hturn =>
    obtain ⟨rfl, hallows⟩ := allows_of_conforms hm hprompt ((attempt?_eq hb₁).trans ha)
    cases hb.symm.trans hb₁
    refine ⟨_, List.getElem?_set_self hlt, h.turn apart lasting ha hallows hturn, ?_⟩
    have hsum := sum_map_set (·.phase.stepsLeft) ha a'
    have hleft := hturn.stepsLeft
    simp only [Batch.remaining, Batch.withAttempt, List.length_set]
    omega
  | @batch m i c b₁ b' s' hcall hb₁ hturn =>
    cases batch_of_conforms hm hcall
    cases hb.symm.trans hb₁
    refine ⟨_, List.getElem?_set_self hlt, h.batchTurn hturn, ?_⟩
    cases hturn with
    | @gather a e hstage ha =>
      have := (List.getElem?_eq_some_iff.mp ha).1
      simp only [Batch.remaining, Batch.endWith, List.length_append, List.length_singleton]
      omega
    | @miss a reason hstage ha =>
      have := (List.getElem?_eq_some_iff.mp ha).1
      simp only [Batch.remaining, Batch.lose, Batch.endWith, List.length_append,
        List.length_singleton]
      omega
    | close hstage => simp [Batch.remaining, Batch.close, hstage]
    | part hstage => simp [Batch.remaining, hstage]
  | submit => cases hm
  | cancel => cases hm
  | clearCache => cases hm
  | breakSink => cases hm

/-- A schedule is no longer than its batch has steps left. -/
theorem OnWay.schedule {ms : List Move} (h : x.OnWay ts base g₀ e₀.shared b)
    (apart : x.Apart ts) (lasting : x.verifier.Lasting) (hb : e₀.batches[n]? = some b)
    (hs : Schedule x.verifier n e₀ ms e) :
    ∃ b', e.batches[n]? = some b' ∧ x.OnWay ts base g₀ e.shared b' ∧
      ms.length + b'.remaining ≤ b.remaining := by
  induction hs with
  | nil => exact ⟨b, hb, h, by simp⟩
  | concat _ hm hstep ih =>
    obtain ⟨b₁, hb₁, h₁, hle⟩ := ih
    obtain ⟨b₂, hb₂, h₂, hlt⟩ := h₁.step apart lasting hb₁ hm hstep
    refine ⟨b₂, hb₂, h₂, ?_⟩
    rw [List.length_append, List.length_singleton]
    omega

/-! ### A move that is possible -/

/-- An attempt that has not ended can go on, unless it waits for a permit. -/
theorem exists_respond (x : Setting) (slot : Nat) (tray : Tray)
    (live : k.isCancelled s a = false) (hleft : 0 < a.phase.stepsLeft)
    (hfree : a.phase = .queued → 0 < s.permits) :
    ∃ q, x.Allows a q ∧ (Attempt.respond q k slot s tray a).isSome = true := by
  cases hp : a.phase with
  | entered => exact ⟨.advance, .advance, by simp [Attempt.respond, Attempt.advance, hp, live]⟩
  | queued =>
    obtain ⟨n, hn⟩ := Nat.exists_eq_add_of_lt (hfree hp)
    exact ⟨.advance, .advance,
      by simp [Attempt.respond, Attempt.advance, Attempt.takePermit, hp, live, hn]⟩
  | opening => exact ⟨.opened (.ok ()), .opened, by simp [Attempt.respond, Attempt.opened, hp]⟩
  | equipped session =>
    exact ⟨.advance, .advance, by simp [Attempt.respond, Attempt.advance, hp, live]⟩
  | verifying session job =>
    cases hv : x.verifier job with
    | ok f =>
      exact ⟨.answered (.findings f 0), .answered hp (.findings 0 hv),
        by simp [Attempt.respond, Attempt.answered, hp, live]⟩
    | error f =>
      exact ⟨.answered (.fault f), .answered hp (.fault hv),
        by simp [Attempt.respond, Attempt.answered, hp, live]⟩
  | ended e =>
    rw [hp] at hleft
    exact absurd hleft (Nat.lt_irrefl 0)
  | crashed reason =>
    rw [hp] at hleft
    exact absurd hleft (Nat.lt_irrefl 0)
  | _ => exact ⟨.advance, .advance, by simp [Attempt.respond, Attempt.advance, hp]⟩

theorem conforms_of_allows (hallows : x.Allows a q) (ha : e.attempt? ⟨n, slot⟩ = some a) :
    ∃ m, Conforms x.verifier n e m ∧ m.prompt? = some (⟨n, slot⟩, q) := by
  cases hallows with
  | advance => exact ⟨_, .advance slot, rfl⟩
  | opened => exact ⟨_, .opened slot, rfl⟩
  | answered hp hgives => exact ⟨_, .answered ha hp hgives, rfl⟩

theorem OnWay.attempt_step (h : x.OnWay ts base g₀ e.shared b) (hb : e.batches[n]? = some b)
    (ha : b.attempts[slot]? = some a) (hleft : 0 < a.phase.stepsLeft)
    (hfree : a.phase = .queued → 0 < e.shared.permits) :
    ∃ m e' tray' a', Conforms x.verifier n e m ∧ m.slot? = some slot ∧ e.step m = some e' ∧
      e'.batches[n]? = some (b.withAttempt slot tray' a') ∧
      a'.phase.stepsLeft < a.phase.stepsLeft := by
  have hlt : n < e.batches.length := (List.getElem?_eq_some_iff.mp hb).1
  have live : b.ticket.isCancelled e.shared a = false := by
    rw [h.ticket]
    exact h.quiet.not_cancelled ha
  obtain ⟨q, hallows, hsome⟩ := exists_respond x slot b.tray live hleft hfree
  obtain ⟨⟨s', tray', a'⟩, hrespond⟩ := Option.isSome_iff_exists.mp hsome
  have ha' : e.attempt? ⟨n, slot⟩ = some a := (attempt?_eq hb).trans ha
  obtain ⟨m, hm, hprompt⟩ := conforms_of_allows hallows ha'
  have hstep : e.step m = some (e.withBatch n s' (b.withAttempt slot tray' a')) := by
    rw [step_eq_onAttempt hprompt]
    exact onAttempt_eq_some_iff.mpr ⟨b, a, s', tray', a', hb, ha, hrespond, rfl⟩
  refine ⟨m, _, tray', a', hm, ?_, hstep, List.getElem?_set_self hlt,
    (Attempt.turn_of_respond hrespond).stepsLeft⟩
  rw [Move.slot?, hprompt]
  rfl

/-- Once all attempts have ended the batch itself can go on. -/
theorem OnWay.batch_step (h : x.OnWay ts base g₀ e.shared b) (hb : e.batches[n]? = some b)
    (hover : ∀ (i : Nat) a, b.attempts[i]? = some a → a.phase.stepsLeft = 0)
    (hopen : b.outcome? = none) :
    ∃ m e' b', Conforms x.verifier n e m ∧ m.slot? = none ∧ e.step m = some e' ∧
      e'.batches[n]? = some b' ∧ b'.attempts = b.attempts := by
  have hlt : n < e.batches.length := (List.getElem?_eq_some_iff.mp hb).1
  have make : ∀ m c, Conforms x.verifier n e m → m.slot? = none → m.call? = some (n, c) →
      (Batch.answer c e.shared b).isSome = true →
      ∃ m e' b', Conforms x.verifier n e m ∧ m.slot? = none ∧ e.step m = some e' ∧
        e'.batches[n]? = some b' ∧ b'.attempts = b.attempts := by
    intro m c hm hslot hcall hsome
    obtain ⟨⟨s', b'⟩, hanswer⟩ := Option.isSome_iff_exists.mp hsome
    refine ⟨m, e.withBatch n s' b', b', hm, hslot, ?_, List.getElem?_set_self hlt,
      (Batch.turn_of_answer hanswer).attempts⟩
    rw [step_eq_onBatch hcall]
    exact onBatch_eq_some_iff.mpr ⟨b, s', b', hb, hanswer, rfl⟩
  cases hstage : b.stage with
  | running =>
    by_cases hall : b.endings.length < b.attempts.length
    · have ha := List.getElem?_eq_getElem hall
      have hended : ∃ e, b.attempts[b.endings.length].phase = .ended e := by
        have hexpected := h.expected _ _ ha
        have hleft := hover _ _ ha
        unfold Expected at hexpected
        cases hp : b.attempts[b.endings.length].phase with
        | ended e => exact ⟨e, rfl⟩
        | crashed reason =>
          rw [hp] at hexpected
          exact hexpected.elim
        | _ =>
          rw [hp] at hleft
          cases hleft
      obtain ⟨e, hp⟩ := hended
      apply make _ .await .await rfl rfl
      simp only [Batch.answer, Batch.await, hstage, ha, hp, Option.isSome_some]
    · apply make _ .conclude .conclude rfl rfl
      simp only [Batch.answer, Batch.conclude, hstage, hall, if_false, Option.isSome_some]
  | concluded r =>
    apply make _ .finish .finish rfl rfl
    simp only [Batch.answer, Batch.finish, hstage, Option.isSome_some]
  | finished r =>
    rw [Batch.outcome?, hstage] at hopen
    cases hopen

/-- Where no attempt holds a permit there is one to take. -/
theorem OnWay.permit_of_unheld (h : x.OnWay ts base g₀ s b)
    (hunheld : ∀ (i : Nat) a, b.attempts[i]? = some a → a.phase.permits = 0) : 0 < s.permits := by
  have hnone : b.permits = 0 := sum_map_eq_zero hunheld
  have hpermits := h.permits
  have hlimit : 1 ≤ x.options.unitLimit := Nat.le_max_left ..
  omega

/-- **A batch that has not finished can go on.** -/
theorem OnWay.progress (h : x.OnWay ts base g₀ e.shared b) (hb : e.batches[n]? = some b)
    (hopen : b.outcome? = none) : ∃ m e', Conforms x.verifier n e m ∧ e.step m = some e' := by
  by_cases hover : ∀ (i : Nat) a, b.attempts[i]? = some a → a.phase.stepsLeft = 0
  · obtain ⟨m, e', -, hm, -, hstep, -⟩ := h.batch_step hb hover hopen
    exact ⟨m, e', hm, hstep⟩
  -- Some attempt goes on: one that holds a permit, where those that are left wait for one.
  have hgo : ∃ (i : Nat) (a : Attempt), b.attempts[i]? = some a ∧ 0 < a.phase.stepsLeft ∧
      (a.phase = .queued → 0 < e.shared.permits) := by
    by_cases hheld : ∃ (i : Nat) (a : Attempt), b.attempts[i]? = some a ∧ a.phase.permits ≠ 0
    · obtain ⟨i, a, ha, hpermits⟩ := hheld
      refine ⟨i, a, ha, Nat.pos_of_ne_zero fun hzero => ?_, fun hp => ?_⟩
      · exact hpermits (Phase.permits_of_over hzero)
      · rw [hp] at hpermits
        exact absurd rfl hpermits
    · simp only [not_forall] at hover
      obtain ⟨i, a, ha, hleft⟩ := hover
      refine ⟨i, a, ha, Nat.pos_of_ne_zero hleft, fun _ => ?_⟩
      apply h.permit_of_unheld
      intro j c hj
      by_contra hne
      exact hheld ⟨j, c, hj, hne⟩
  obtain ⟨i, a, ha, hleft, hfree⟩ := hgo
  obtain ⟨m, e', -, -, hm, -, hstep, -⟩ := h.attempt_step hb ha hleft hfree
  exact ⟨m, e', hm, hstep⟩

/-! ### One attempt after the other -/

/-- The first `j` attempts have ended, one after the other, and those from `l` on have not
begun. -/
structure Sequenced (x : Setting) (ts : List Target) (base : String) (g₀ n : Nat) (e₀ : Engine)
    (j l : Nat) (ms : List Move) (e : Engine) (b : Batch) : Prop where
  schedule : Schedule x.verifier n e₀ ms e
  inOrder : InOrder ms
  slots : ∀ i ∈ ms.filterMap Move.slot?, i < l
  batch : e.batches[n]? = some b
  onWay : x.OnWay ts base g₀ e.shared b
  spent : ∀ (i : Nat) a, i < j → b.attempts[i]? = some a → a.phase.stepsLeft = 0
  ahead : ∀ (i : Nat) a, l ≤ i → b.attempts[i]? = some a → a.phase = .scheduled

variable {j l : Nat} {ms : List Move}

/-- While one attempt is at work alone, there is a permit for it. -/
theorem Sequenced.permit (h : x.Sequenced ts base g₀ n e₀ j (j + 1) ms e b)
    (ha : b.attempts[j]? = some a) (hp : a.phase = .queued) : 0 < e.shared.permits := by
  apply h.onWay.permit_of_unheld
  intro i c hi
  rcases Nat.lt_trichotomy i j with hlt | rfl | hlt
  · exact Phase.permits_of_over (h.spent i c hlt hi)
  · cases ha.symm.trans hi
    rw [hp]
    rfl
  · rw [h.ahead i c hlt hi]
    rfl

/-- An attempt is taken to its end. -/
theorem Sequenced.finishAttempt (apart : x.Apart ts) (lasting : x.verifier.Lasting)
    (h : x.Sequenced ts base g₀ n e₀ j (j + 1) ms e b) (ha : b.attempts[j]? = some a) :
    ∃ ms' e' b', x.Sequenced ts base g₀ n e₀ (j + 1) (j + 1) ms' e' b' := by
  induction hd : a.phase.stepsLeft using Nat.strongRecOn generalizing a ms e b with
  | ind d ih =>
    subst hd
    rcases Nat.eq_zero_or_pos a.phase.stepsLeft with hzero | hleft
    · refine ⟨ms, e, b, h.schedule, h.inOrder, h.slots, h.batch, h.onWay, fun i c hi hc => ?_,
        h.ahead⟩
      rcases Nat.lt_succ_iff_lt_or_eq.mp hi with hlt | rfl
      · exact h.spent i c hlt hc
      · cases ha.symm.trans hc
        exact hzero
    · obtain ⟨m, e', tray', a', hm, hslot, hstep, hb', hless⟩ :=
        h.onWay.attempt_step h.batch ha hleft (h.permit ha)
      obtain ⟨b', hb'', hway, -⟩ := h.onWay.step apart lasting h.batch hm hstep
      cases hb'.symm.trans hb''
      have hlt : j < b.attempts.length := (List.getElem?_eq_some_iff.mp ha).1
      refine ih _ hless ⟨.concat h.schedule hm hstep, inOrder_concat h.inOrder ?_, ?_, hb', hway,
        fun i c hi hc => ?_, fun i c hi hc => ?_⟩ (List.getElem?_set_self hlt) rfl
      · intro i hi j' hj'
        cases hslot.symm.trans hj'
        exact Nat.le_of_lt_succ (h.slots i hi)
      · intro i hi
        rw [List.filterMap_append, List.mem_append] at hi
        rcases hi with hi | hi
        · exact h.slots i hi
        · simp only [List.filterMap_cons, hslot, List.filterMap_nil, List.mem_singleton] at hi
          omega
      · rcases getElem?_set_cases hc with ⟨rfl, -⟩ | ⟨-, hc⟩
        · exact absurd hi (Nat.lt_irrefl _)
        · exact h.spent i c hi hc
      · rcases getElem?_set_cases hc with ⟨rfl, -⟩ | ⟨-, hc⟩
        · exact absurd hi (Nat.not_succ_le_self _)
        · exact h.ahead i c hi hc

/-- All attempts are taken to their ends. -/
theorem Sequenced.finishAttempts (apart : x.Apart ts) (lasting : x.verifier.Lasting)
    (h : x.Sequenced ts base g₀ n e₀ 0 0 ms e b) (hle : j ≤ ts.length) :
    ∃ ms' e' b', x.Sequenced ts base g₀ n e₀ j j ms' e' b' := by
  induction j with
  | zero => exact ⟨ms, e, b, h⟩
  | succ j ih =>
    obtain ⟨ms', e', b', h'⟩ := ih (by omega)
    have hlength : j < b'.attempts.length := by
      rw [← h'.onWay.targets, List.length_map] at hle
      exact hle
    have hnext : x.Sequenced ts base g₀ n e₀ j (j + 1) ms' e' b' :=
      ⟨h'.schedule, h'.inOrder, fun i hi => Nat.lt_succ_of_lt (h'.slots i hi), h'.batch,
        h'.onWay, h'.spent, fun i c hi hc => h'.ahead i c (Nat.le_of_succ_le hi) hc⟩
    exact hnext.finishAttempt apart lasting (List.getElem?_eq_getElem hlength)

/-- The batch is taken to its end once its attempts have ended. -/
theorem Sequenced.finishBatch (apart : x.Apart ts) (lasting : x.verifier.Lasting)
    (h : x.Sequenced ts base g₀ n e₀ ts.length ts.length ms e b) :
    ∃ ms' e' b', x.Sequenced ts base g₀ n e₀ ts.length ts.length ms' e' b' ∧
      b'.outcome?.isSome = true := by
  induction hd : b.remaining using Nat.strongRecOn generalizing ms e b with
  | ind d ih =>
    subst hd
    cases hopen : b.outcome? with
    | some r => exact ⟨ms, e, b, h, by rw [hopen]; rfl⟩
    | none =>
      have hover : ∀ (i : Nat) a, b.attempts[i]? = some a → a.phase.stepsLeft = 0 := by
        intro i a ha
        refine h.spent i a ?_ ha
        rw [← h.onWay.targets, List.length_map]
        exact (List.getElem?_eq_some_iff.mp ha).1
      obtain ⟨m, e', b', hm, hslot, hstep, hb', hattempts⟩ := h.onWay.batch_step h.batch hover hopen
      obtain ⟨b'', hb'', hway, hless⟩ := h.onWay.step apart lasting h.batch hm hstep
      cases hb'.symm.trans hb''
      have hslots : (ms ++ [m]).filterMap Move.slot? = ms.filterMap Move.slot? := by
        rw [List.filterMap_append, List.filterMap_cons, hslot, List.filterMap_nil, List.append_nil]
      refine ih _ hless ⟨.concat h.schedule hm hstep, ?_, by rw [hslots]; exact h.slots, hb', hway,
        by rw [hattempts]; exact h.spent, by rw [hattempts]; exact h.ahead⟩ rfl
      unfold InOrder
      rw [hslots]
      exact h.inOrder

/-- **A batch can be run to its end with one attempt after the other.** -/
theorem OnWay.exists_inOrder (h : x.OnWay ts base g₀ e₀.shared b) (apart : x.Apart ts)
    (lasting : x.verifier.Lasting) (hb : e₀.batches[n]? = some b)
    (hfirst : ∀ (i : Nat) a, b.attempts[i]? = some a → a.phase = .scheduled) :
    ∃ ms e b', Schedule x.verifier n e₀ ms e ∧ InOrder ms ∧ e.batches[n]? = some b' ∧
      b'.outcome?.isSome = true := by
  have hstart : x.Sequenced ts base g₀ n e₀ 0 0 [] e₀ b :=
    ⟨.nil, .nil, fun _ hi => (List.not_mem_nil hi).elim, hb, h,
      fun i _ hi => absurd hi (Nat.not_lt_zero i), fun i a _ ha => hfirst i a ha⟩
  obtain ⟨ms, e, b₁, hattempts⟩ := hstart.finishAttempts apart lasting (Nat.le_refl _)
  obtain ⟨ms', e', b₂, hdone, hsome⟩ := hattempts.finishBatch apart lasting
  exact ⟨ms', e', b₂, hdone.schedule, hdone.inOrder, hdone.batch, hsome⟩

end Setting

end Verdict
