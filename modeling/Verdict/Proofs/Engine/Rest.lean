import Verdict.Proofs.Engine.Accounts
import Verdict.Proofs.Engine.Requests
import Verdict.Proofs.Engine.Roster
import Verdict.Proofs.Engine.Transition

/-! What an engine has come to when no batch is under way.

Every run keeps the books in order (`Orderly`): a permit is free or held by an attempt, a request
is remembered as long as one of its batches is under way, whoever counts has begun, and what a
batch has awaited is over. Once all batches have finished, all permits are therefore
free again and no request is left. -/
namespace Verdict

/-- The runs that count, and those that no longer do, have begun. -/
structure Roster.Bounded (r : Roster) : Prop where
  superseded : ∀ g ∈ r.superseded, g ≤ r.generation
  current : ∀ name g, r.current? name = some g → g ≤ r.generation

namespace Roster
variable {r : Roster} {name : String}

theorem bounded_empty : empty.Bounded := by
  refine ⟨fun _ h => ?_, fun _ _ h => ?_⟩ <;> cases h

theorem Bounded.enter (h : r.Bounded) : (r.enter name).2.Bounded := by
  refine ⟨fun g hg => ?_, fun other g hg => ?_⟩
  · rcases List.mem_append.mp hg with hg | hg
    · exact Nat.le_succ_of_le (h.current name g (Option.mem_toList.mp hg))
    · exact Nat.le_succ_of_le (h.superseded g hg)
  · rw [current?_enter] at hg
    split at hg
    · cases hg
      exact Nat.le_refl _
    · exact Nat.le_succ_of_le (h.current other g hg)

theorem Bounded.leave {g : Nat} (h : r.Bounded) : (r.leave name g).Bounded := by
  refine ⟨fun g' hg' => ?_, fun other g' hg' => ?_⟩
  · rw [superseded_leave] at hg'
    rw [generation_leave]
    exact h.superseded g' hg'
  · rw [generation_leave]
    exact h.current other g' (current?_of_leave hg')

end Roster

/-- What a batch has awaited is over, and it is concluded when all is. -/
structure Batch.Awaits (b : Batch) : Prop where
  spent : ∀ (i : Nat) a, i < b.endings.length → b.attempts[i]? = some a → a.phase.stepsLeft = 0
  all : b.stage ≠ .running → b.attempts.length ≤ b.endings.length

namespace Batch
variable {b b' : Batch} {s s' : Shared}

theorem permits_scheduled (k : Ticket) (ts : List Target) : (scheduled k ts).permits = 0 := by
  apply sum_map_eq_zero
  intro i a ha
  obtain ⟨t, -, rfl⟩ := List.mem_map.mp (List.mem_of_getElem? ha)
  rfl

theorem Awaits.withAttempt (h : b.Awaits) {slot : Nat} {tray : Tray} {a a' : Attempt}
    (ha : b.attempts[slot]? = some a) (hleft : 0 < a.phase.stepsLeft) :
    (b.withAttempt slot tray a').Awaits := by
  refine ⟨fun i c hi hc => ?_, fun hstage => ?_⟩
  · rcases getElem?_set_cases hc with ⟨rfl, -⟩ | ⟨-, hc⟩
    · have := h.spent i a hi ha
      omega
    · exact h.spent i c hi hc
  · show (b.attempts.set slot a').length ≤ b.endings.length
    rw [List.length_set]
    exact h.all hstage

theorem Turn.awaits {c : Call} (hturn : Turn s b c s' b') (h : b.Awaits) : b'.Awaits := by
  have next : ∀ a, b.attempts[b.endings.length]? = some a → a.phase.stepsLeft = 0 →
      ∀ (i : Nat) a, i < b.endings.length + 1 → b.attempts[i]? = some a →
        a.phase.stepsLeft = 0 := by
    intro a ha hover i a' hi ha'
    rcases Nat.lt_succ_iff_lt_or_eq.mp hi with hlt | rfl
    · exact h.spent i a' hlt ha'
    · cases ha.symm.trans ha'
      exact hover
  cases hturn with
  | @gather a e hstage ha hp =>
    refine ⟨fun i a' hi => next a ha (by rw [hp]; rfl) i a' ?_, fun hne => absurd hstage hne⟩
    simpa only [endWith, List.length_append, List.length_singleton] using hi
  | @miss a reason hstage ha hp =>
    refine ⟨fun i a' hi => next a ha (by rw [hp]; rfl) i a' ?_, fun hne => absurd hstage hne⟩
    simpa only [lose, endWith, List.length_append, List.length_singleton] using hi
  | close _ hall => exact ⟨h.spent, fun _ => hall⟩
  | part hstage => exact ⟨h.spent, fun _ => h.all (by rw [hstage]; exact fun hne => nomatch hne)⟩

/-- A batch that has finished holds no permit. -/
theorem Awaits.permits (h : b.Awaits) (hdone : b.outcome?.isSome = true) : b.permits = 0 := by
  have hall : b.attempts.length ≤ b.endings.length := by
    apply h.all
    intro hstage
    rw [outcome?, hstage] at hdone
    cases hdone
  apply sum_map_eq_zero
  intro i a hi
  have hlt : i < b.attempts.length := (List.getElem?_eq_some_iff.mp hi).1
  exact Phase.permits_of_over (h.spent i a (by omega) hi)

theorem Turn.permits {c : Call} (h : Turn s b c s' b') :
    s'.permits = s.permits ∧ b'.permits = b.permits := by
  cases h <;> exact ⟨rfl, rfl⟩

theorem Turn.roster {c : Call} (h : Turn s b c s' b') : s'.roster = s.roster := by
  cases h <;> rfl

end Batch

namespace Engine

/-- The books of an engine are in order. -/
structure Orderly (e : Engine) : Prop where
  permits : e.shared.permits + (e.batches.map Batch.permits).sum = e.shared.options.unitLimit
  requests : e.shared.requests.Fits e.batches
  roster : e.shared.roster.Bounded
  awaits : ∀ b ∈ e.batches, b.Awaits

variable {e e' : Engine} {m : Move}

theorem awaits_set {bs : List Batch} {i : Nat} {b : Batch} (h : ∀ c ∈ bs, c.Awaits)
    (hb : b.Awaits) : ∀ c ∈ bs.set i b, c.Awaits := by
  intro c hc
  rcases List.mem_or_eq_of_mem_set hc with hc | rfl
  · exact h c hc
  · exact hb

theorem Orderly.submit (h : e.Orderly) (requestId : String) (a : Analysis) (ts : List Target) :
    (e.submit requestId a ts).Orderly := by
  refine ⟨?_, h.requests.join rfl rfl rfl, h.roster, fun b hb => ?_⟩
  · rw [batches_submit, List.map_append, List.sum_append, List.map_singleton, List.sum_singleton,
      Batch.permits_scheduled, Nat.add_zero]
    exact h.permits
  · rcases List.mem_append.mp hb with hb | hb
    · exact h.awaits b hb
    · rw [List.mem_singleton.mp hb]
      exact ⟨fun i _ hi => absurd hi (Nat.not_lt_zero i), fun hne => absurd rfl hne⟩

theorem Orderly.attempt {id : AttemptId} {q : Prompt} {b : Batch} {a a' : Attempt} {s' : Shared}
    {tray' : Tray} (h : e.Orderly) (hb : e.batches[id.batch]? = some b)
    (ha : b.attempts[id.slot]? = some a)
    (hturn : Attempt.Turn b.ticket id.slot e.shared b.tray a q s' tray' a') :
    (e.withBatch id.batch s' (b.withAttempt id.slot tray' a')).Orderly := by
  have hmem : b ∈ e.batches := List.mem_of_getElem? hb
  have hleft : 0 < a.phase.stepsLeft := Nat.lt_of_le_of_lt (Nat.zero_le _) hturn.stepsLeft
  have hfits : e.shared.requests.Fits (e.batches.set id.batch (b.withAttempt id.slot tray' a')) :=
    h.requests.set hb rfl rfl
  refine ⟨?_, ?_, ?_, awaits_set h.awaits ((h.awaits b hmem).withAttempt ha hleft)⟩
  · have hbefore := h.permits
    have hpermits := hturn.permits_withAttempt ha
    have hset := sum_map_set Batch.permits hb (b.withAttempt id.slot tray' a')
    show s'.permits + ((e.batches.set id.batch _).map Batch.permits).sum = s'.options.unitLimit
    rw [hturn.options]
    omega
  · show s'.requests.Fits _
    rcases hturn.revokes with hr | hr
    · rw [hr]
      exact hfits
    · rw [hr]
      exact hfits.revoke (h.requests.issued b hmem)
  · show s'.roster.Bounded
    rcases hturn.roster with ⟨-, -, hr⟩ | ⟨-, hr | ⟨g, hr⟩⟩
    · rw [hr]
      exact h.roster.enter
    · rw [hr]
      exact h.roster
    · rw [hr]
      exact h.roster.leave

theorem Orderly.batch {i : Nat} {c : Call} {b b' : Batch} {s' : Shared} (h : e.Orderly)
    (hb : e.batches[i]? = some b) (hturn : Batch.Turn e.shared b c s' b') :
    (e.withBatch i s' b').Orderly := by
  have hmem : b ∈ e.batches := List.mem_of_getElem? hb
  refine ⟨?_, ?_, ?_, awaits_set h.awaits (hturn.awaits (h.awaits b hmem))⟩
  · have hbefore := h.permits
    have hset := sum_map_set Batch.permits hb b'
    obtain ⟨hshared, hown⟩ := hturn.permits
    show s'.permits + ((e.batches.set i b').map Batch.permits).sum = s'.options.unitLimit
    rw [hturn.options]
    omega
  · show s'.requests.Fits (e.batches.set i b')
    cases hturn with
    | gather => exact h.requests.set hb rfl rfl
    | @miss a reason =>
      have hfits : e.shared.requests.Fits (e.batches.set i (b.lose reason)) :=
        h.requests.set hb rfl rfl
      exact hfits.revoke (h.requests.issued b hmem)
    | close hstage =>
      exact h.requests.set hb rfl (by rw [Batch.outcome?, Batch.outcome?, hstage]; rfl)
    | part hstage => exact h.requests.finish hb (by rw [Batch.outcome?, hstage]) rfl rfl
  · show s'.roster.Bounded
    rw [hturn.roster]
    exact h.roster

/-- Whatever an engine does keeps its books in order. -/
theorem Transition.orderly (htransition : Transition e m e') (h : e.Orderly) : e'.Orderly := by
  cases htransition with
  | submit requestId a ts => exact h.submit requestId a ts
  | attempt _ hb ha hturn => exact h.attempt hb ha hturn
  | batch _ hb hturn => exact h.batch hb hturn
  | cancel requestId => exact ⟨h.permits, h.requests.cancel, h.roster, h.awaits⟩
  | clearCache => exact ⟨h.permits, h.requests, h.roster, h.awaits⟩
  | breakSink => exact ⟨h.permits, h.requests, h.roster, h.awaits⟩

/-- An engine that begins with this cache. -/
def withCache (e : Engine) (c : Cache) : Engine := { e with shared := { e.shared with cache := c } }

theorem eq_of_create {o : Options} (h : create o = .ok e) : e = ⟨.fresh o, [], 0⟩ := by
  unfold create at h
  split at h <;> cases h
  rfl

theorem orderly_of_create {o : Options} (h : create o = .ok e) (c : Cache) :
    (e.withCache c).Orderly := by
  obtain rfl := eq_of_create h
  refine ⟨Nat.add_zero _, RequestTable.fits_empty, Roster.bounded_empty, fun _ hb => ?_⟩
  cases hb

theorem orderly_of_run {ms : List Move} (h : e.Orderly) (ran : e.run ms = some e') : e'.Orderly :=
  run_induction (P := fun _ e' => e'.Orderly) h (fun _ h' _ htransition => htransition.orderly h')
    ran

/-- When all batches have finished, all permits are free. -/
theorem Orderly.permits_of_rest (h : e.Orderly) (rest : ∀ b ∈ e.batches, b.outcome?.isSome = true) :
    e.shared.permits = e.shared.options.unitLimit := by
  have hnone : (e.batches.map Batch.permits).sum = 0 := by
    apply sum_map_eq_zero
    intro i b hb
    have hmem := List.mem_of_getElem? hb
    exact (h.awaits b hmem).permits (rest b hmem)
  rw [← h.permits, hnone, Nat.add_zero]

end Engine

end Verdict
