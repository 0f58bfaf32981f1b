import Verdict.Proofs.Engine.Happening
import Verdict.Proofs.Engine.Rest

/-! Why a request is told to stop.

Who cancels a request takes its entry away and revokes the token that the entry held; an attempt
that failed revokes the token of its own batch. All batches with this token are of one
request, and so either is a reason for each of them (`Answerable`). -/
namespace Verdict

/-- Every request that has an entry has a batch. -/
theorem RequestTable.Fits.exists_batch {t : RequestTable} {bs : List Batch} {id : String}
    {entry : RequestEntry} (h : t.Fits bs) (hfind : t.find? id = some entry) :
    ∃ b ∈ bs, b.ticket.requestId = id ∧ b.ticket.token = entry.token := by
  obtain ⟨hone, hle⟩ := h.counted id entry hfind
  by_contra hnone
  have hzero : underway bs id entry.token = 0 := by
    apply sum_map_eq_zero
    intro i b hb
    apply Batch.countsFor_eq_zero
    intro hown
    exact hnone ⟨b, List.mem_of_getElem? hb, hown.2⟩
  omega

namespace Attempt
variable {k : Ticket} {slot : Nat} {s s' : Shared} {tray tray' : Tray} {a a' : Attempt} {q : Prompt}

/-- A turn that tells the request to stop is one of an attempt that failed. -/
theorem Turn.revokes_cases (h : Turn k slot s tray a q s' tray' a') :
    s'.requests = s.requests ∨
      s'.requests = s.requests.revoke k.token ∧ a'.phase.isFailure = true := by
  cases h with
  | @announce c =>
    cases hfatal : c.ending.isFatal with
    | true => exact .inr ⟨rfl, hfatal⟩
    | false => exact .inl rfl
  | _ => exact .inl rfl

end Attempt

namespace Batch
variable {s s' : Shared} {b b' : Batch} {c : Call}

/-- A batch tells its request to stop only where one of its attempts broke down. -/
theorem Turn.revoked_cases (h : Turn s b c s' b') :
    s'.requests.revoked = s.requests.revoked ∨
      s'.requests = s.requests.revoke b.ticket.token ∧
        ∃ (slot : Nat) (a : Attempt), b.attempts[slot]? = some a ∧ a.phase.isFailure = true := by
  cases h with
  | @miss a reason _ ha hp => exact .inr ⟨rfl, _, a, ha, by rw [hp]; rfl⟩
  | _ => exact .inl rfl

end Batch

namespace Engine
variable {e₀ e e' : Engine} {ms : List Move} {m : Move} {id : AttemptId} {k : Ticket}
  {a a' : Attempt} {requestId name : String} {token g : Nat}

/-- A batch holds the ticket of one there was before, or has just been submitted. -/
theorem Transition.ticket_cases (h : Transition e m e') {b' : Batch} (hb' : b' ∈ e'.batches) :
    (∃ b ∈ e.batches, b.ticket = b'.ticket) ∨
      ∃ id a ts, m = .submit id a ts ∧ e' = e.submit id a ts ∧ b'.ticket = e.ticketFor id a := by
  cases h with
  | submit id a ts =>
    rw [batches_submit] at hb'
    rcases List.mem_append.mp hb' with hb' | hb'
    · exact .inl ⟨b', hb', rfl⟩
    · rw [List.mem_singleton.mp hb']
      exact .inr ⟨id, a, ts, rfl, rfl, rfl⟩
  | attempt _ hb =>
    rcases List.mem_or_eq_of_mem_set hb' with hb' | rfl
    · exact .inl ⟨b', hb', rfl⟩
    · exact .inl ⟨_, List.mem_of_getElem? hb, rfl⟩
  | batch _ hb hturn =>
    rcases List.mem_or_eq_of_mem_set hb' with hb' | rfl
    · exact .inl ⟨b', hb', rfl⟩
    · exact .inl ⟨_, List.mem_of_getElem? hb, hturn.ticket.symm⟩
  | cancel | clearCache | breakSink => exact .inl ⟨b', hb', rfl⟩

/-- Who tells a request to stop. -/
theorem Transition.revoked_cases (h : Transition e m e')
    (hrevoked : e'.shared.requests.isRevoked token = true) :
    e.shared.requests.isRevoked token = true ∨
      (∃ id entry, m = .cancel id ∧ e.shared.requests.find? id = some entry ∧
        entry.token = token) ∨
      ∃ id k a, e'.assigned? id = some (k, a) ∧ k.token = token ∧ a.phase.isFailure = true := by
  have of_revoke : ∀ own, (e.shared.requests.revoke own).isRevoked token = true →
      e.shared.requests.isRevoked token = true ∨ own = token := by
    intro own h
    rcases List.mem_cons.mp (List.contains_iff_mem.mp h) with rfl | hold
    · exact .inr rfl
    · exact .inl (List.contains_iff_mem.mpr hold)
  cases h with
  | submit | clearCache | breakSink => exact .inl hrevoked
  | @attempt m id q b a a' s' tray' hm hb ha hturn =>
    have hrevoked : s'.requests.isRevoked token = true := hrevoked
    rcases hturn.revokes_cases with hr | ⟨hr, hfailure⟩
    · rw [hr] at hrevoked
      exact .inl hrevoked
    · rw [hr] at hrevoked
      refine (of_revoke _ hrevoked).imp_right fun htoken => .inr ?_
      exact ⟨id, b.ticket, a', assigned?_withAttempt hb ha, htoken, hfailure⟩
  | @batch m i c b b' s' hm hb hturn =>
    have hrevoked : s'.requests.isRevoked token = true := hrevoked
    rcases hturn.revoked_cases with hr | ⟨hr, slot, a, ha, hfailure⟩
    · have hsame : s'.requests.isRevoked token = e.shared.requests.isRevoked token :=
        congrArg (List.contains · token) hr
      rw [hsame] at hrevoked
      exact .inl hrevoked
    · rw [hr] at hrevoked
      refine (of_revoke _ hrevoked).imp_right fun htoken => .inr ?_
      refine ⟨⟨i, slot⟩, b.ticket, a, ?_, htoken, hfailure⟩
      have hassigned : e.assigned? ⟨i, slot⟩ = some (b.ticket, a) :=
        assigned?_eq_some_iff.mpr ⟨b, hb, rfl, ha⟩
      rw [assigned?_withBatch hb hturn.ticket fun _ => by rw [hturn.attempts]]
      exact hassigned
  | cancel id =>
    have hrevoked : (e.shared.requests.cancel id).2.isRevoked token = true := hrevoked
    unfold RequestTable.cancel at hrevoked
    cases hfind : e.shared.requests.find? id with
    | none =>
      rw [hfind] at hrevoked
      exact .inl hrevoked
    | some entry =>
      rw [hfind] at hrevoked
      exact (of_revoke entry.token hrevoked).imp_right fun htoken =>
        .inl ⟨id, entry, rfl, hfind, htoken⟩

/-- Batches with one token are of one request, and it has been told to stop for a reason. -/
structure Answerable (e₀ : Engine) (ms : List Move) (e : Engine) : Prop where
  request : ∀ b ∈ e.batches, ∀ b' ∈ e.batches, b.ticket.token = b'.ticket.token →
    b.ticket.requestId = b'.ticket.requestId
  revoked : ∀ b ∈ e.batches, e.shared.requests.isRevoked b.ticket.token = true →
    e₀.happens (withdraws b.ticket.requestId b.ticket.token) ms = true ∨
      e.hasFailed b.ticket.requestId b.ticket.token = true

/-- A batch that is submitted begins a request, or gets the token of one it shares. -/
theorem Orderly.ticketFor_cases (h : e.Orderly) (id : String) (a : Analysis) :
    (∃ b ∈ e.batches, b.ticket.requestId = id ∧ b.ticket.token = (e.ticketFor id a).token) ∨
      (e.ticketFor id a).token = e.shared.requests.joined + 1 := by
  have htoken : (e.ticketFor id a).token =
      ((e.shared.requests.find? id).getD ⟨e.shared.requests.joined + 1, 0⟩).token := rfl
  cases hfind : e.shared.requests.find? id with
  | none =>
    rw [htoken, hfind]
    exact .inr rfl
  | some entry =>
    obtain ⟨b, hb, hid, hsame⟩ := h.requests.exists_batch hfind
    rw [htoken, hfind]
    exact .inl ⟨b, hb, hid, hsame⟩

theorem Answerable.requestId_submit (h : Answerable e₀ ms e) (horderly : e.Orderly) {b : Batch}
    (hb : b ∈ e.batches) {id : String} {a : Analysis}
    (htoken : b.ticket.token = (e.ticketFor id a).token) : b.ticket.requestId = id := by
  rcases horderly.ticketFor_cases id a with ⟨b₀, hb₀, hid, hsame⟩ | hnew
  · rw [← hid]
    exact h.request b hb b₀ hb₀ (htoken.trans hsame.symm)
  · have := horderly.requests.issued b hb
    omega

theorem Answerable.request_step (h : Answerable e₀ ms e) (horderly : e.Orderly)
    (htransition : Transition e m e') : ∀ b ∈ e'.batches, ∀ b' ∈ e'.batches,
    b.ticket.token = b'.ticket.token → b.ticket.requestId = b'.ticket.requestId := by
  intro b hb b' hb' htoken
  rcases htransition.ticket_cases hb with ⟨c, hc, hold⟩ | ⟨id, a, ts, rfl, -, hnew⟩
  · rcases htransition.ticket_cases hb' with ⟨c', hc', hold'⟩ | ⟨id, a, ts, -, -, hnew'⟩
    · rw [← hold, ← hold'] at htoken ⊢
      exact h.request c hc c' hc' htoken
    · rw [← hold, hnew'] at htoken ⊢
      exact h.requestId_submit horderly hc htoken
  · rcases htransition.ticket_cases hb' with ⟨c', hc', hold'⟩ | ⟨id', a', ts', hm, -, hnew'⟩
    · rw [hnew, ← hold'] at htoken ⊢
      exact (h.requestId_submit horderly hc' htoken.symm).symm
    · cases hm
      rw [hnew, hnew']

theorem Answerable.step (h : Answerable e₀ ms e) (ran : e₀.run ms = some e) (horderly : e.Orderly)
    (htransition : Transition e m e') : Answerable e₀ (ms ++ [m]) e' := by
  have hrequest := h.request_step horderly htransition
  -- What was a reason before still is one.
  have stays : ∀ {id token}, (e₀.happens (withdraws id token) ms = true ∨
      e.hasFailed id token = true) → e₀.happens (withdraws id token) (ms ++ [m]) = true ∨
      e'.hasFailed id token = true := by
    intro id token hreason
    rw [happens_concat ran, Bool.or_eq_true]
    exact hreason.imp .inl htransition.hasFailed
  refine ⟨hrequest, fun b' hb' hrevoked => ?_⟩
  rcases htransition.ticket_cases hb' with ⟨b, hb, hticket⟩ | ⟨id, a, ts, rfl, rfl, hticket⟩
  · rw [← hticket] at hrevoked ⊢
    rcases htransition.revoked_cases hrevoked with
      hbefore | ⟨id, entry, rfl, hfind, htoken⟩ | ⟨id, k, a, ha, htoken, hfailure⟩
    · exact stays (h.revoked b hb hbefore)
    · obtain ⟨b₀, hb₀, hid, hsame⟩ := horderly.requests.exists_batch hfind
      have hown : b.ticket.requestId = id :=
        (h.request b hb b₀ hb₀ (htoken.symm.trans hsame.symm)).trans hid
      left
      rw [happens_concat ran, Bool.or_eq_true]
      right
      simp [withdraws, hown, hfind, htoken]
    · obtain ⟨b₀, hb₀, rfl, ha₀⟩ := assigned?_eq_some_iff.mp ha
      have hown : b₀.ticket.requestId = b.ticket.requestId := by
        rw [hticket]
        apply hrequest b₀ (List.mem_of_getElem? hb₀) b' hb'
        rw [htoken, hticket]
      exact .inr (hasFailed_iff.mpr ⟨id, b₀.ticket, a, ha, hown, htoken, hfailure⟩)
  · rw [hticket] at hrevoked ⊢
    have hrevoked : e.shared.requests.isRevoked (e.ticketFor id a).token = true := hrevoked
    rcases horderly.ticketFor_cases id a with ⟨b, hb, hid, hsame⟩ | hnew
    · have hid : (e.ticketFor id a).requestId = b.ticket.requestId := hid.symm
      rw [← hsame] at hrevoked ⊢
      rw [hid]
      exact stays (h.revoked b hb hrevoked)
    · have := horderly.requests.revoked _ (List.contains_iff_mem.mp hrevoked)
      omega

end Engine

end Verdict
