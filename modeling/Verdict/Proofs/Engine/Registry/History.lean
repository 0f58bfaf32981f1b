import Verdict.Proofs.Engine.Registry

/-! What a registry has come to after any events.

Finishing and cancelling keep a registry sound, as joining does, and so does every run. What the
table says, and what finishing and cancelling would do next, is then told by the members
alone (`Accurate`, `Departs`). -/
namespace Verdict

namespace Registry

variable {r r' : Registry} {id other : String} {entry : RequestEntry} {m : Member} {n : Nat}

/-! ### Finishing -/

/-- What finishing is, of a batch that is under way. -/
theorem finish_eq_some_iff : r.finish n = some r' ↔ ∃ m, r.members[n]? = some m ∧
    m.finished = false ∧
    r' = ⟨r.table.finish m.requestId m.token, r.members.set n m.close⟩ := by
  unfold finish
  cases r.members[n]? with
  | none => simp
  | some m => cases hm : m.finished <;> simp [hm, eq_comm (a := r')]

theorem underWay_set (hm : r.members[n]? = some m) (hopen : m.finished = false) :
    (r.members.set n m.close).countP (fun m => !m.finished) = r.underWay - 1 := by
  obtain ⟨hn, hget⟩ := List.getElem?_eq_some_iff.mp hm
  rw [List.countP_set hn, hget, hopen]
  rfl

/-- The batch that finishes belongs to no request any more. -/
theorem belonging_set (hm : r.members[n]? = some m) :
    (r.members.set n m.close).countP (Member.belongsTo id) =
      r.belonging id - if m.belongsTo id then 1 else 0 := by
  obtain ⟨hn, hget⟩ := List.getElem?_eq_some_iff.mp hm
  have hclosed : m.close.belongsTo id = false := by simp [Member.belongsTo, Member.close]
  rw [List.countP_set hn, hget, hclosed]
  rfl

/-- Finishing changes nothing about a member but that it is under way. -/
theorem of_mem_set_close (hm : r.members[n]? = some m) {c : Member}
    (hc : c ∈ r.members.set n m.close) : ∃ d ∈ r.members, c.token = d.token ∧
      c.requestId = d.requestId ∧ c.dropped = d.dropped ∧ (c.finished = false → c = d) := by
  rcases List.mem_or_eq_of_mem_set hc with hc | rfl
  · exact ⟨c, hc, rfl, rfl, rfl, fun _ => rfl⟩
  · refine ⟨m, List.mem_of_getElem? hm, rfl, rfl, rfl, fun hclosed => ?_⟩
    cases hclosed

/-- A batch that finishes counts down the entry of the request it belongs to, and no other: not
even that of its own id, if its request was cancelled before. -/
theorem Sound.find?_finish (h : r.Sound) (hm : m ∈ r.members) (hopen : m.finished = false)
    (other : String) : (r.table.finish m.requestId m.token).find? other =
      if m.belongsTo other then
        (r.table.find? other).bind fun entry =>
          if entry.batches ≤ 1 then none else some { entry with batches := entry.batches - 1 }
      else r.table.find? other := by
  show (r.table.entriesAfter m.requestId m.token).lookup other = _
  unfold RequestTable.entriesAfter
  by_cases hbelongs : m.belongsTo m.requestId = true
  · obtain ⟨entry, hfind, htoken⟩ := h.held m hm m.requestId hbelongs
    simp only [hfind, if_pos htoken]
    have hother : m.belongsTo other = true ↔ other = m.requestId := by
      constructor
      · exact fun h => (Member.belongsTo_iff.mp h).1.symm
      · rintro rfl
        exact hbelongs
    by_cases hid : other = m.requestId
    · rw [if_pos (hother.mpr hid), hid, hfind, Option.bind_some]
      split
      · rw [RequestTable.lookup_others, if_pos rfl]
      · rw [RequestTable.lookup_cons_others, if_pos rfl]
    · rw [if_neg (hid ∘ hother.mp)]
      split
      · rw [RequestTable.lookup_others, if_neg hid]
      · rw [RequestTable.lookup_cons_others, if_neg hid]
  · have hout : ¬m.belongsTo other = true := by
      intro hbelongs'
      obtain ⟨hid, hrest⟩ := Member.belongsTo_iff.mp hbelongs'
      exact hbelongs (Member.belongsTo_iff.mpr ⟨rfl, hrest⟩)
    rw [if_neg hout]
    cases hfind : r.table.find? m.requestId with
    | none => rfl
    | some entry =>
      have hne : entry.token ≠ m.token := by
        intro htoken
        have hkept := (h.own _ entry hfind m hm htoken.symm).2
        exact hbelongs (Member.belongsTo_iff.mpr ⟨rfl, hopen, hkept⟩)
      simp only [if_neg hne]
      rfl

/-- The entries there are afterwards are old ones with as many batches less as have left. -/
theorem Sound.of_find?_finish (h : r.Sound) (hm : m ∈ r.members) (hopen : m.finished = false)
    (hfind : (r.table.finish m.requestId m.token).find? id = some entry) :
    ∃ old, r.table.find? id = some old ∧ entry.token = old.token ∧ 1 ≤ entry.batches ∧
      entry.batches = old.batches - if m.belongsTo id then 1 else 0 := by
  rw [h.find?_finish hm hopen] at hfind
  by_cases hbelongs : m.belongsTo id = true
  · rw [if_pos hbelongs, Option.bind_eq_some_iff] at hfind
    obtain ⟨old, hold, hless⟩ := hfind
    rw [if_pos hbelongs]
    split at hless
    · cases hless
    · cases hless
      exact ⟨old, hold, rfl, by show 1 ≤ old.batches - 1; omega, rfl⟩
  · rw [if_neg hbelongs] at hfind ⊢
    exact ⟨entry, hfind, rfl, (h.counted id entry hfind).1, rfl⟩

theorem Sound.finish (h : r.Sound) (hfinish : r.finish n = some r') : r'.Sound := by
  obtain ⟨m, hm, hopen, rfl⟩ := finish_eq_some_iff.mp hfinish
  have hmem := List.mem_of_getElem? hm
  constructor
  case running =>
    show r.table.running - 1 = _
    rw [h.running]
    exact (underWay_set hm hopen).symm
  case counted =>
    intro id entry hfind
    obtain ⟨old, hold, -, hone, hless⟩ := h.of_find?_finish hmem hopen hfind
    refine ⟨hone, hless.trans ?_⟩
    rw [(h.counted id old hold).2]
    exact (belonging_set hm).symm
  case held =>
    intro c hc id hbelongs
    obtain ⟨d, hd, -, -, -, hsame⟩ := of_mem_set_close hm hc
    cases hsame (Member.belongsTo_iff.mp hbelongs).2.1
    obtain ⟨old, hold, htoken⟩ := h.held c hd id hbelongs
    -- Since this batch still belongs to the request, the entry does not go.
    have hleft : 0 < (r.members.set n m.close).countP (Member.belongsTo id) :=
      List.countP_pos_iff.mpr ⟨c, hc, hbelongs⟩
    rw [belonging_set hm, ← (h.counted id old hold).2] at hleft
    rw [h.find?_finish hmem hopen, hold]
    split
    · rename_i hleaves
      rw [if_pos hleaves] at hleft
      rw [Option.bind_some, if_neg (by omega)]
      exact ⟨_, rfl, htoken⟩
    · exact ⟨old, rfl, htoken⟩
  case own =>
    intro id entry hfind c hc htoken
    obtain ⟨old, hold, hentry, -⟩ := h.of_find?_finish hmem hopen hfind
    obtain ⟨d, hd, hsame, hid, hdropped, -⟩ := of_mem_set_close hm hc
    rw [hid, hdropped]
    exact h.own id old hold d hd (hsame.symm.trans (htoken.trans hentry))
  case drawn =>
    intro c hc
    obtain ⟨d, hd, htoken, -⟩ := of_mem_set_close hm hc
    rw [htoken]
    exact h.drawn d hd
  case revoked => exact h.revoked
  case stopped =>
    intro c hc hunder
    obtain ⟨d, hd, -, -, -, hsame⟩ := of_mem_set_close hm hc
    cases hsame hunder
    exact h.stopped c hd hunder

/-! ### Cancelling -/

theorem cancel_of_find?_eq_none (hfind : r.table.find? id = none) :
    r.table.cancel id = (false, r.table) ∧ r.cancel id = r := by
  have hcancel : r.table.cancel id = (false, r.table) := by
    unfold RequestTable.cancel
    rw [hfind]
  refine ⟨hcancel, ?_⟩
  rw [cancel, hcancel]
  rfl

theorem cancel_of_find?_eq_some (hfind : r.table.find? id = some entry) :
    (r.table.cancel id).1 = true ∧ r.cancel id =
      ⟨{ r.table.revoke entry.token with entries := r.table.others id },
        r.members.map (Member.drop id)⟩ := by
  have hcancel : r.table.cancel id =
      (true, { r.table.revoke entry.token with entries := r.table.others id }) := by
    unfold RequestTable.cancel
    rw [hfind]
  refine ⟨by rw [hcancel], ?_⟩
  rw [cancel, hcancel]
  rfl

theorem find?_cancel : (r.cancel id).table.find? other =
    if other = id then none else r.table.find? other := by
  cases hfind : r.table.find? id with
  | none =>
    rw [(cancel_of_find?_eq_none hfind).2]
    split
    · rename_i hid
      rw [hid, hfind]
    · rfl
  | some entry =>
    rw [(cancel_of_find?_eq_some hfind).2]
    exact RequestTable.lookup_others

theorem of_find?_cancel (h : (r.cancel id).table.find? other = some entry) :
    other ≠ id ∧ r.table.find? other = some entry := by
  rw [find?_cancel] at h
  split at h
  · cases h
  · rename_i hne
    exact ⟨hne, h⟩

theorem belonging_map_drop (hne : other ≠ id) :
    (r.members.map (Member.drop id)).countP (Member.belongsTo other) = r.belonging other := by
  rw [List.countP_map, belonging]
  apply List.countP_congr
  intro m _
  rw [Function.comp_apply, Member.belongsTo_drop_of_ne hne]

/-- Cancelling succeeds if a batch belongs to the request. -/
theorem Sound.cancel_fst_iff (h : r.Sound) (id : String) :
    (r.table.cancel id).1 = true ↔ ∃ m ∈ r.members, m.belongsTo id = true := by
  rw [← h.exists_entry_iff id]
  cases hfind : r.table.find? id with
  | none => simp [(cancel_of_find?_eq_none hfind).1]
  | some entry => simp [(cancel_of_find?_eq_some hfind).1]

/-- Just the batches of the request hold the token that is revoked. -/
theorem Sound.token_eq_iff (h : r.Sound) (hfind : r.table.find? id = some entry)
    (hm : m ∈ r.members) (hopen : m.finished = false) :
    m.token = entry.token ↔ m.belongsTo id = true := by
  constructor
  · intro htoken
    obtain ⟨hid, hkept⟩ := h.own id entry hfind m hm htoken
    exact Member.belongsTo_iff.mpr ⟨hid, hopen, hkept⟩
  · intro hbelongs
    obtain ⟨held, hheld, htoken⟩ := h.held m hm id hbelongs
    cases hheld.symm.trans hfind
    exact htoken.symm

/-- Cancelling tells just the batches of the request to stop. -/
theorem Sound.isRevoked_cancel (h : r.Sound) (id : String) (hm : m ∈ r.members)
    (hopen : m.finished = false) : (r.table.cancel id).2.isRevoked m.token = true ↔
      r.table.isRevoked m.token = true ∨ m.belongsTo id = true := by
  cases hfind : r.table.find? id with
  | none =>
    have hout : ¬m.belongsTo id = true := by
      intro hbelongs
      obtain ⟨entry, hentry⟩ := (h.exists_entry_iff id).mpr ⟨m, hm, hbelongs⟩
      cases hfind.symm.trans hentry
    rw [(cancel_of_find?_eq_none hfind).1, or_iff_left hout]
  | some entry =>
    have hcancel : (r.table.cancel id).2 = (r.cancel id).table := rfl
    rw [hcancel, (cancel_of_find?_eq_some hfind).2, ← h.token_eq_iff hfind hm hopen]
    show (entry.token :: r.table.revoked).contains m.token = true ↔ _
    rw [List.contains_cons, Bool.or_eq_true, beq_iff_eq, or_comm]
    rfl

theorem Sound.cancel (h : r.Sound) (id : String) : (r.cancel id).Sound := by
  cases hfind : r.table.find? id with
  | none =>
    rw [(cancel_of_find?_eq_none hfind).2]
    exact h
  | some entry =>
    have hafter := (cancel_of_find?_eq_some hfind).2
    have hmembers : (r.cancel id).members = r.members.map (Member.drop id) := by rw [hafter]
    have hback : ∀ c ∈ (r.cancel id).members, ∃ m ∈ r.members, m.drop id = c := by
      intro c hc
      rw [hmembers] at hc
      exact List.mem_map.mp hc
    have hjoined : (r.cancel id).table.joined = r.table.joined := by rw [hafter]; rfl
    constructor
    case running =>
      rw [underWay, hmembers, List.countP_map, hafter]
      exact h.running
    case counted =>
      intro other e he
      obtain ⟨hne, hold⟩ := of_find?_cancel he
      rw [belonging, hmembers, belonging_map_drop hne]
      exact h.counted other e hold
    case held =>
      intro c hc other hbelongs
      obtain ⟨m, hm, rfl⟩ := hback c hc
      have hne : other ≠ id := by
        rintro rfl
        rw [Member.belongsTo_drop_self] at hbelongs
        cases hbelongs
      rw [Member.belongsTo_drop_of_ne hne] at hbelongs
      obtain ⟨e, he, htoken⟩ := h.held m hm other hbelongs
      refine ⟨e, ?_, htoken⟩
      rw [find?_cancel, if_neg hne]
      exact he
    case own =>
      intro other e he c hc htoken
      obtain ⟨hne, hold⟩ := of_find?_cancel he
      obtain ⟨m, hm, rfl⟩ := hback c hc
      obtain ⟨hid, hkept⟩ := h.own other e hold m hm htoken
      have hother : m.requestId ≠ id := by
        rw [hid]
        exact hne
      exact ⟨hid, by simp [Member.drop, hkept, hother]⟩
    case drawn =>
      intro c hc
      obtain ⟨m, hm, rfl⟩ := hback c hc
      rw [hjoined]
      exact h.drawn m hm
    case revoked =>
      intro token hrevoked
      rw [hjoined]
      rw [hafter] at hrevoked
      rcases List.mem_cons.mp (List.contains_iff_mem.mp hrevoked) with rfl | hold
      · exact h.token_le hfind
      · exact h.revoked token (List.contains_iff_mem.mpr hold)
    case stopped =>
      intro c hc hopen
      obtain ⟨m, hm, rfl⟩ := hback c hc
      have hopen : m.finished = false := hopen
      have hrevoked := h.isRevoked_cancel id hm hopen
      show (r.table.cancel id).2.isRevoked m.token = true ↔ (m.dropped || m.requestId = id) = true
      rw [hrevoked, h.stopped m hm hopen, Member.belongsTo_iff, Bool.or_eq_true, decide_eq_true_iff]
      cases m.dropped <;> simp [hopen]

/-! ### All that may happen -/

theorem Sound.step (h : r.Sound) {e : Event} (hstep : r.step e = some r') : r'.Sound := by
  cases e with
  | join id =>
    cases hstep
    exact h.join id
  | finish n => exact h.finish hstep
  | cancel id =>
    cases hstep
    exact h.cancel id

theorem Sound.run (h : r.Sound) {es : List Event} (hrun : r.run es = some r') : r'.Sound := by
  induction es generalizing r with
  | nil =>
    cases hrun
    exact h
  | cons e es ih =>
    obtain ⟨next, hstep, hrest⟩ := Option.bind_eq_some_iff.mp hrun
    exact ih (h.step hstep) hrest

/-- What the table says and what cancelling does, told by the batches that have joined. -/
structure Accurate (r : Registry) : Prop where
  running : r.table.running = r.underWay
  remembered : ∀ id,
    (∃ entry, r.table.find? id = some entry) ↔ ∃ m ∈ r.members, m.belongsTo id = true
  counted : ∀ id entry, r.table.find? id = some entry →
    1 ≤ entry.batches ∧ entry.batches = r.belonging id
  cancels : ∀ id, (r.table.cancel id).1 = true ↔ ∃ m ∈ r.members, m.belongsTo id = true
  revokes : ∀ id, ∀ m ∈ r.members, m.finished = false →
    ((r.table.cancel id).2.isRevoked m.token = true ↔
      r.table.isRevoked m.token = true ∨ m.belongsTo id = true)
  stopped : ∀ m ∈ r.members, m.finished = false →
    (r.table.isRevoked m.token = true ↔ m.dropped = true)

/-- What the finishing of a batch does to the table and to the sessions of an engine. -/
structure Departs (r : Registry) (m : Member) (r' : Registry) : Prop where
  running_pos : 1 ≤ r.table.running
  batches_pos : ∀ entry, r.table.find? m.requestId = some entry → entry.token = m.token →
    1 ≤ entry.batches
  others : ∀ id, m.belongsTo id = false → r'.table.find? id = r.table.find? id
  sessions : ∀ (s : Shared) (b : Batch) (result : Except EngineError BatchReport),
    b.stage = .concluded result → b.ticket.requestId = m.requestId → b.ticket.token = m.token →
    s.requests = r.table → ∃ s' b', b.finish s = some (s', b') ∧ s'.requests = r'.table ∧
      s'.pool.opened = s.pool.opened ∧
      ((∀ c ∈ r'.members, c.finished = true) → s'.pool.idle = []) ∧
      ((∃ c ∈ r'.members, c.finished = false) → s'.pool = s.pool)

theorem Sound.accurate (h : r.Sound) : r.Accurate where
  running := h.running
  remembered := h.exists_entry_iff
  counted := h.counted
  cancels := h.cancel_fst_iff
  revokes id _ hm hopen := h.isRevoked_cancel id hm hopen
  stopped := h.stopped

theorem Sound.running_eq_zero_iff (h : r.Sound) :
    r.table.running = 0 ↔ ∀ m ∈ r.members, m.finished = true := by
  rw [h.running, underWay, List.countP_eq_zero]
  simp only [Bool.not_eq_true', Bool.not_eq_false]

/-- The idle sessions go with the last batch, and no other. -/
theorem Sound.pool_releaseSessions (h : r.Sound) {s : Shared} (hrequests : s.requests = r.table) :
    (Batch.releaseSessions s).requests = r.table ∧
      (Batch.releaseSessions s).pool.opened = s.pool.opened ∧
      ((∀ c ∈ r.members, c.finished = true) → (Batch.releaseSessions s).pool.idle = []) ∧
      ((∃ c ∈ r.members, c.finished = false) → (Batch.releaseSessions s).pool = s.pool) := by
  have hlast := h.running_eq_zero_iff
  unfold Batch.releaseSessions
  rw [hrequests]
  split
  · rename_i hnone
    refine ⟨rfl, SessionPool.opened_clear _, fun _ => SessionPool.idle_clear _, ?_⟩
    rintro ⟨c, hc, hopen⟩
    cases hopen.symm.trans (hlast.mp hnone c hc)
  · rename_i hsome
    exact ⟨hrequests, rfl, fun hall => absurd (hlast.mpr hall) hsome, fun _ => rfl⟩

theorem Sound.departs (h : r.Sound) (hfinish : r.finish n = some r') :
    ∃ m, r.members[n]? = some m ∧ m.finished = false ∧ r.Departs m r' := by
  have hafter := h.finish hfinish
  obtain ⟨m, hm, hopen, rfl⟩ := finish_eq_some_iff.mp hfinish
  have hmem := List.mem_of_getElem? hm
  refine ⟨m, hm, hopen, ?_, ?_, ?_, ?_⟩
  · rw [h.running]
    exact List.countP_pos_iff.mpr ⟨m, hmem, by rw [hopen]; rfl⟩
  · exact fun entry hfind _ => (h.counted _ entry hfind).1
  · intro id hout
    show (r.table.finish m.requestId m.token).find? id = _
    rw [h.find?_finish hmem hopen, hout]
    rfl
  · intro s b result hstage hid htoken hrequests
    have hfinish : b.finish s = some (Batch.releaseSessions
        { s with requests := s.requests.finish b.ticket.requestId b.ticket.token },
        { b with stage := .finished result }) := by
      rw [Batch.finish, hstage]
    rw [hid, htoken, hrequests] at hfinish
    exact ⟨_, _, hfinish, hafter.pool_releaseSessions rfl⟩

/-- Whatever has joined, finished and been cancelled, and under whatever ids: the table counts the
batches that are under way; it remembers a request as long as a batch belongs to it, and counts
these; cancelling concerns just these; and a batch that finishes is one that was counted,
changes no entry of a request it does not belong to, and lets the idle sessions go if it is the
last. -/
theorem run_keeps_accounts {es : List Event} (hrun : empty.run es = some r) :
    r.Accurate ∧ ∀ n r', r.finish n = some r' →
      ∃ m, r.members[n]? = some m ∧ m.finished = false ∧ r.Departs m r' :=
  have hsound := sound_empty.run hrun
  ⟨hsound.accurate, fun _ _ hfinish => hsound.departs hfinish⟩

/-- A batch that a member stands for, once it has been concluded. -/
def leaving (m : Member) : Batch :=
  { Batch.scheduled ⟨m.requestId, m.token, .ofProgram ⟨#[]⟩⟩ [] with
    stage := .concluded (.error (.sink .closed)) }

/-- A batch of a cancelled request finishes while two others share a new one under its id. The last
batch that finishes leaves no idle session behind, of two that there are. -/
theorem reused_id_keeps_accounts :
    (∃ r, empty.run [.join "a", .cancel "a", .join "a", .join "b", .join "a", .finish 0] = some r ∧
      r.table.find? "a" = some ⟨2, 2⟩ ∧ r.table.running = 3 ∧ r.Accurate ∧
      ∀ n r', r.finish n = some r' →
        ∃ m, r.members[n]? = some m ∧ m.finished = false ∧ r.Departs m r') ∧
    ∃ r m, ∃ s s' : Shared, ∃ b', empty.run [.join "a", .cancel "a", .join "b", .finish 0] = some r ∧
      r.members[1]? = some m ∧ s.requests = r.table ∧ s.pool.idle = [1, 0] ∧
      (leaving m).finish s = some (s', b') ∧ s'.pool.idle = [] ∧ s'.pool.opened = 2 := by
  have hrun : empty.run [.join "a", .cancel "a", .join "a", .join "b", .join "a", .finish 0] =
      some _ := rfl
  refine ⟨⟨_, hrun, rfl, rfl, run_keeps_accounts hrun⟩, ?_⟩
  have hrun' : empty.run [.join "a", .cancel "a", .join "b", .finish 0] = some _ := rfl
  obtain ⟨-, hdeparts⟩ := run_keeps_accounts hrun'
  obtain ⟨m, hm, -, hdeparts⟩ := hdeparts 1 _ rfl
  obtain ⟨s', b', hfinish, -, hopened, hidle, -⟩ := hdeparts.sessions
    { Shared.fresh (.standard 1) with requests := _, pool := ⟨[1, 0], 2⟩ } (leaving m) _
    rfl rfl rfl rfl
  exact ⟨_, m, _, s', b', hrun', hm, rfl, rfl, hfinish, hidle (by decide), hopened⟩

end Registry

end Verdict
