import Verdict.Engine.Batch
import Verdict.Proofs.Cache
import Verdict.Proofs.Statistics

/-! The requests of an engine and the batches that belong to them.

A table of requests fits a list of batches (`Fits`) if every entry counts at least one batch and
no more than are under way, and if every token there is has been drawn. A request is
therefore forgotten when its last batch has finished, and a token that is drawn has not been
revoked. -/
namespace Verdict

/-- Whether a batch under way belongs to this request, as a number. -/
def Batch.countsFor (id : String) (token : Nat) (b : Batch) : Nat :=
  if b.outcome?.isNone ∧ b.ticket.requestId = id ∧ b.ticket.token = token then 1 else 0

theorem Batch.countsFor_eq_zero {b : Batch} {id : String} {token : Nat}
    (h : ¬(b.outcome?.isNone ∧ b.ticket.requestId = id ∧ b.ticket.token = token)) :
    b.countsFor id token = 0 :=
  if_neg h

/-- How many batches under way belong to this request. -/
def underway (bs : List Batch) (id : String) (token : Nat) : Nat :=
  (bs.map (Batch.countsFor id token)).sum

namespace RequestTable
variable {t : RequestTable} {id other : String} {token : Nat} {entry : RequestEntry}

theorem lookup_others : (t.others id).lookup other = if other = id then none else t.find? other := by
  rw [others, lookup_filter_ne]
  rfl

theorem lookup_cons_others : ((id, entry) :: t.others id).lookup other =
    if other = id then some entry else t.find? other := by
  rw [List.lookup_cons]
  by_cases h : other = id
  · rw [beq_iff_eq.mpr h, if_pos h]
  · rw [beq_eq_false_iff_ne.mpr h, if_neg h, lookup_others, if_neg h]

/-- The table fits these batches. -/
structure Fits (t : RequestTable) (bs : List Batch) : Prop where
  counted : ∀ id entry, t.find? id = some entry →
    1 ≤ entry.batches ∧ entry.batches ≤ underway bs id entry.token
  drawn : ∀ id entry, t.find? id = some entry → entry.token ≤ t.joined
  issued : ∀ b ∈ bs, b.ticket.token ≤ t.joined
  revoked : ∀ token ∈ t.revoked, token ≤ t.joined

variable {bs : List Batch} {i : Nat} {b b' : Batch}

theorem fits_empty : empty.Fits [] := by
  refine ⟨fun _ _ h => ?_, fun _ _ h => ?_, fun _ h => ?_, fun _ h => ?_⟩ <;> cases h

theorem Fits.revoke (h : t.Fits bs) (htoken : token ≤ t.joined) : (t.revoke token).Fits bs := by
  refine ⟨h.counted, h.drawn, h.issued, fun other hmem => ?_⟩
  rcases List.mem_cons.mp hmem with rfl | hmem
  · exact htoken
  · exact h.revoked other hmem

theorem Fits.cancel (h : t.Fits bs) : (t.cancel id).2.Fits bs := by
  unfold RequestTable.cancel
  cases hfind : t.find? id with
  | none => exact h
  | some entry =>
    have hrevoked := h.revoke (h.drawn id entry hfind)
    have hkept : ∀ other e, (t.others id).lookup other = some e → t.find? other = some e := by
      intro other e he
      rw [lookup_others] at he
      split at he
      · cases he
      · exact he
    exact ⟨fun other e he => h.counted other e (hkept other e he),
      fun other e he => h.drawn other e (hkept other e he), h.issued, hrevoked.revoked⟩

theorem issued_set (h : ∀ b ∈ bs, b.ticket.token ≤ t.joined) (hb : bs[i]? = some b)
    (hticket : b'.ticket = b.ticket) : ∀ c ∈ bs.set i b', c.ticket.token ≤ t.joined := by
  intro c hc
  rcases List.mem_or_eq_of_mem_set hc with hc | rfl
  · exact h c hc
  · rw [hticket]
    exact h b (List.mem_of_getElem? hb)

/-- A batch may change as long as it stays with its request. -/
theorem Fits.set (h : t.Fits bs) (hb : bs[i]? = some b) (hticket : b'.ticket = b.ticket)
    (hopen : b'.outcome?.isNone = b.outcome?.isNone) : t.Fits (bs.set i b') := by
  refine ⟨fun id entry hfind => ?_, h.drawn, issued_set h.issued hb hticket, h.revoked⟩
  have hsame : underway (bs.set i b') id entry.token = underway bs id entry.token := by
    have hsum := sum_map_set (Batch.countsFor id entry.token) hb b'
    have hcount : b'.countsFor id entry.token = b.countsFor id entry.token := by
      rw [Batch.countsFor, Batch.countsFor, hticket, hopen]
    rw [hcount] at hsum
    exact Nat.add_right_cancel hsum
  rw [hsame]
  exact h.counted id entry hfind

theorem Fits.join (h : t.Fits bs) (hticket : b.ticket.requestId = id)
    (htoken : b.ticket.token = (t.join id).1) (hopen : b.outcome?.isNone = true) :
    (t.join id).2.Fits (bs ++ [b]) := by
  have hadd : ∀ other token, underway (bs ++ [b]) other token =
      underway bs other token + b.countsFor other token := by
    intro other token
    rw [underway, List.map_append, List.sum_append]
    rfl
  have hdrawn : (t.join id).1 ≤ t.joined + 1 := by
    show ((t.find? id).getD ⟨t.joined + 1, 0⟩).token ≤ t.joined + 1
    cases hfind : t.find? id with
    | none => exact Nat.le_refl _
    | some entry => exact Nat.le_succ_of_le (h.drawn id entry hfind)
  have hfind : ∀ other, (t.join id).2.find? other = if other = id then
      some ⟨(t.join id).1, ((t.find? id).getD ⟨t.joined + 1, 0⟩).batches + 1⟩
      else t.find? other := fun _ => lookup_cons_others
  refine ⟨fun other entry he => ?_, fun other entry he => ?_, fun c hc => ?_,
    fun token hmem => Nat.le_succ_of_le (h.revoked token hmem)⟩
  · rw [hfind] at he
    rw [hadd]
    split at he
    · rename_i hother
      cases he
      refine ⟨Nat.succ_le_succ (Nat.zero_le _), ?_⟩
      rw [Batch.countsFor, if_pos ⟨hopen, hticket.trans hother.symm, htoken⟩, hother]
      show ((t.find? id).getD ⟨t.joined + 1, 0⟩).batches + 1 ≤
        underway bs id ((t.find? id).getD ⟨t.joined + 1, 0⟩).token + 1
      cases hold : t.find? id with
      | none => exact Nat.succ_le_succ (Nat.zero_le _)
      | some entry => exact Nat.succ_le_succ (h.counted id entry hold).2
    · have := h.counted other entry he
      omega
  · rw [hfind] at he
    split at he
    · cases he
      exact hdrawn
    · exact Nat.le_succ_of_le (h.drawn other entry he)
  · rcases List.mem_append.mp hc with hc | hc
    · exact Nat.le_succ_of_le (h.issued c hc)
    · rw [List.mem_singleton.mp hc, htoken]
      exact hdrawn

/-- What is remembered of a request after a batch has finished: all of it, if the batch belonged
to another, or one batch less. -/
theorem of_find?_finish (h : (t.finish id token).find? other = some entry) :
    t.find? other = some entry ∧ ¬(id = other ∧ token = entry.token) ∨
      id = other ∧ ∃ old, t.find? other = some old ∧ token = old.token ∧ 1 < old.batches ∧
        entry = { old with batches := old.batches - 1 } := by
  have h : (t.entriesAfter id token).lookup other = some entry := h
  unfold entriesAfter at h
  cases hfind : t.find? id with
  | none =>
    simp only [hfind] at h
    refine .inl ⟨h, fun hsame => ?_⟩
    rw [hsame.1] at hfind
    cases hfind.symm.trans h
  | some old =>
    simp only [hfind] at h
    split at h
    · rename_i htoken
      split at h
      · rw [lookup_others] at h
        split at h
        · cases h
        · rename_i hne
          exact .inl ⟨h, fun hsame => hne hsame.1.symm⟩
      · rename_i hmany
        rw [lookup_cons_others] at h
        split at h
        · rename_i hid
          cases h
          subst hid
          exact .inr ⟨rfl, old, hfind, htoken.symm, by omega, rfl⟩
        · rename_i hne
          exact .inl ⟨h, fun hsame => hne hsame.1.symm⟩
    · rename_i htoken
      refine .inl ⟨h, fun hsame => htoken ?_⟩
      rw [hsame.1] at hfind
      cases hfind.symm.trans h
      exact hsame.2.symm

/-- A batch that has finished is counted no more. -/
theorem Fits.finish (h : t.Fits bs) (hb : bs[i]? = some b) (hopen : b.outcome? = none)
    (hticket : b'.ticket = b.ticket) (hclosed : b'.outcome?.isSome = true) :
    (t.finish b.ticket.requestId b.ticket.token).Fits (bs.set i b') := by
  have hafter : ∀ id token, b'.countsFor id token = 0 := by
    intro id token
    apply Batch.countsFor_eq_zero
    intro h
    rw [Option.isNone_iff_eq_none.mp h.1] at hclosed
    cases hclosed
  have hsum : ∀ id token, underway (bs.set i b') id token + b.countsFor id token =
      underway bs id token := by
    intro id token
    have hset := sum_map_set (Batch.countsFor id token) hb b'
    rwa [hafter, Nat.add_zero] at hset
  refine ⟨fun id entry he => ?_, fun id entry he => ?_, issued_set h.issued hb hticket, h.revoked⟩
  · rcases of_find?_finish he with ⟨hold, hne⟩ | ⟨hid, old, hold, htoken, hmany, rfl⟩
    · have hcount := hsum id entry.token
      rw [Batch.countsFor_eq_zero fun hsame => hne hsame.2, Nat.add_zero] at hcount
      rw [hcount]
      exact h.counted id entry hold
    · have hcount := hsum id old.token
      rw [Batch.countsFor, if_pos ⟨by rw [hopen]; rfl, hid, htoken⟩] at hcount
      have hle := (h.counted id old hold).2
      show 1 ≤ old.batches - 1 ∧ old.batches - 1 ≤ underway (bs.set i b') id old.token
      omega
  · rcases of_find?_finish he with ⟨hold, -⟩ | ⟨-, old, hold, -, -, rfl⟩
    · exact h.drawn id entry hold
    · exact h.drawn id old hold

/-- Without a batch under way no request is remembered. -/
theorem Fits.find?_eq_none (h : t.Fits bs) (hover : ∀ b ∈ bs, b.outcome?.isSome = true)
    (id : String) : t.find? id = none := by
  cases hfind : t.find? id with
  | none => rfl
  | some entry =>
    obtain ⟨hone, hle⟩ := h.counted id entry hfind
    have hzero : underway bs id entry.token = 0 := by
      apply sum_map_eq_zero
      intro i b hb
      apply Batch.countsFor_eq_zero
      intro hsame
      have hsome := hover b (List.mem_of_getElem? hb)
      rw [Option.isNone_iff_eq_none.mp hsame.1] at hsome
      cases hsome
    omega

/-- The token of a new request has not been revoked. -/
theorem Fits.isRevoked_join (h : t.Fits bs) (hfind : t.find? id = none) :
    (t.join id).2.isRevoked (t.join id).1 = false := by
  have htoken : (t.join id).1 = t.joined + 1 := by
    show ((t.find? id).getD ⟨t.joined + 1, 0⟩).token = t.joined + 1
    rw [hfind]
    rfl
  rw [htoken]
  apply Bool.eq_false_iff.mpr
  intro hmem
  have := h.revoked _ (List.contains_iff_mem.mp hmem)
  omega

end RequestTable

end Verdict
