import Verdict.Proofs.Engine.Requests

/-! Which batches a table of requests knows, and what it remembers of them.

A registry is a table of requests together with all batches that have ever joined it. Batches
join under an id, finish once, with the id and the token that joining gave them, and requests are
cancelled, in any order and under any ids. A batch belongs to an id as long as it is under way
and the id has not been cancelled, with success, since it joined: the next batch under this id
then begins a request of its own, although batches of the old one may still be stopping.

The invariant (`Sound`) ties entries to members by the token. A member that belongs to an id holds
the token of its entry, and a token of an entry is held by members of this id alone, none of
which has been dropped. So a batch of a forgotten request finds no entry to count down, and
an entry counts just those that belong to it. -/
namespace Verdict

/-- A batch that has joined a request. -/
structure Member where
  requestId : String
  token : Nat
  finished : Bool
  /-- Its id has been cancelled, with success, since it joined. -/
  dropped : Bool
  deriving DecidableEq, Repr

namespace Member

/-- Under way in the request that this id stands for now. -/
def belongsTo (id : String) (m : Member) : Bool := m.requestId = id && !m.finished && !m.dropped

def close (m : Member) : Member := { m with finished := true }

/-- What a successful cancellation of `id` makes of a batch. -/
def drop (id : String) (m : Member) : Member := { m with dropped := m.dropped || m.requestId = id }

variable {id other : String} {m : Member}

theorem belongsTo_iff :
    m.belongsTo id = true ↔ m.requestId = id ∧ m.finished = false ∧ m.dropped = false := by
  simp [belongsTo, and_assoc]

theorem belongsTo_drop_self (id : String) (m : Member) : (m.drop id).belongsTo id = false := by
  by_cases hid : m.requestId = id <;> simp [belongsTo, drop, hid]

theorem belongsTo_drop_of_ne (h : other ≠ id) : (m.drop id).belongsTo other = m.belongsTo other := by
  by_cases hid : m.requestId = id
  · have hother : m.requestId ≠ other := fun hr => h (hr.symm.trans hid)
    simp [belongsTo, drop, hother]
  · simp [belongsTo, drop, hid]

end Member

/-- A table of requests, and all batches that have joined it, in order. -/
structure Registry where
  table : RequestTable
  members : List Member
  deriving Repr

namespace Registry

inductive Event
  | join (id : String)
  | /-- The batch finishes that was preceded by so many. -/ finish (batch : Nat)
  | cancel (id : String)
  deriving Repr

def empty : Registry := ⟨.empty, []⟩

def join (r : Registry) (id : String) : Registry :=
  ⟨(r.table.join id).2, r.members ++ [⟨id, (r.table.join id).1, false, false⟩]⟩

/-- A batch finishes with what joining gave it, and not twice. -/
def finish (r : Registry) (batch : Nat) : Option Registry :=
  match r.members[batch]? with
  | some m =>
    if m.finished then none
    else some ⟨r.table.finish m.requestId m.token, r.members.set batch m.close⟩
  | none => none

def cancel (r : Registry) (id : String) : Registry :=
  ⟨(r.table.cancel id).2,
    if (r.table.cancel id).1 then r.members.map (Member.drop id) else r.members⟩

def step (r : Registry) : Event → Option Registry
  | .join id => some (r.join id)
  | .finish batch => r.finish batch
  | .cancel id => some (r.cancel id)

/-- Lets events happen one after the other, if all are possible. -/
def run (r : Registry) : List Event → Option Registry
  | [] => some r
  | e :: rest => (r.step e).bind fun r => r.run rest

/-- How many batches are under way. -/
def underWay (r : Registry) : Nat := r.members.countP fun m => !m.finished

/-- How many batches belong to the request that an id stands for. -/
def belonging (r : Registry) (id : String) : Nat := r.members.countP (Member.belongsTo id)

/-- The table knows of its members just what it should. -/
structure Sound (r : Registry) : Prop where
  running : r.table.running = r.underWay
  counted : ∀ id entry, r.table.find? id = some entry →
    1 ≤ entry.batches ∧ entry.batches = r.belonging id
  held : ∀ m ∈ r.members, ∀ id, m.belongsTo id = true →
    ∃ entry, r.table.find? id = some entry ∧ entry.token = m.token
  own : ∀ id entry, r.table.find? id = some entry → ∀ m ∈ r.members, m.token = entry.token →
    m.requestId = id ∧ m.dropped = false
  drawn : ∀ m ∈ r.members, m.token ≤ r.table.joined
  revoked : ∀ token, r.table.isRevoked token = true → token ≤ r.table.joined
  stopped : ∀ m ∈ r.members, m.finished = false →
    (r.table.isRevoked m.token = true ↔ m.dropped = true)

variable {r r' : Registry} {id other : String} {entry : RequestEntry} {m : Member} {n : Nat}

theorem sound_empty : empty.Sound := by
  refine ⟨rfl, fun _ _ h => ?_, fun _ h => ?_, fun _ _ h => ?_, fun _ h => ?_, fun _ h => ?_,
    fun _ h => ?_⟩ <;> cases h

theorem belonging_pos_iff : 0 < r.belonging id ↔ ∃ m ∈ r.members, m.belongsTo id = true :=
  List.countP_pos_iff

/-- Every entry has a member that holds its token. -/
theorem Sound.exists_member (h : r.Sound) (hfind : r.table.find? id = some entry) :
    ∃ m ∈ r.members, m.belongsTo id = true ∧ m.token = entry.token := by
  obtain ⟨hone, hcount⟩ := h.counted id entry hfind
  obtain ⟨m, hm, hbelongs⟩ := belonging_pos_iff.mp (by omega : 0 < r.belonging id)
  obtain ⟨held, hheld, htoken⟩ := h.held m hm id hbelongs
  cases hheld.symm.trans hfind
  exact ⟨m, hm, hbelongs, htoken.symm⟩

theorem Sound.exists_entry_iff (h : r.Sound) (id : String) :
    (∃ entry, r.table.find? id = some entry) ↔ ∃ m ∈ r.members, m.belongsTo id = true := by
  constructor
  · intro ⟨entry, hfind⟩
    obtain ⟨m, hm, hbelongs, -⟩ := h.exists_member hfind
    exact ⟨m, hm, hbelongs⟩
  · intro ⟨m, hm, hbelongs⟩
    obtain ⟨entry, hfind, -⟩ := h.held m hm id hbelongs
    exact ⟨entry, hfind⟩

/-- Tokens tell the requests apart that have an entry. -/
theorem Sound.token_ne (h : r.Sound) {entry' : RequestEntry} (hfind : r.table.find? id = some entry)
    (hother : r.table.find? other = some entry') (hne : other ≠ id) : entry.token ≠ entry'.token := by
  intro hsame
  obtain ⟨m, hm, hbelongs, htoken⟩ := h.exists_member hfind
  have howner := (h.own other entry' hother m hm (htoken.trans hsame)).1
  exact hne (howner.symm.trans (Member.belongsTo_iff.mp hbelongs).1)

theorem Sound.token_le (h : r.Sound) (hfind : r.table.find? id = some entry) :
    entry.token ≤ r.table.joined := by
  obtain ⟨m, hm, -, htoken⟩ := h.exists_member hfind
  rw [← htoken]
  exact h.drawn m hm

/-- A request that still has an entry has not been told to stop. -/
theorem Sound.isRevoked_entry (h : r.Sound) (hfind : r.table.find? id = some entry) :
    r.table.isRevoked entry.token = false := by
  obtain ⟨m, hm, hbelongs, htoken⟩ := h.exists_member hfind
  obtain ⟨-, hopen, hkept⟩ := Member.belongsTo_iff.mp hbelongs
  apply Bool.eq_false_iff.mpr
  rw [← htoken, Ne, h.stopped m hm hopen, hkept]
  exact Bool.false_ne_true

/-! ### Joining -/

theorem find?_join : (r.join id).table.find? other = if other = id then
    some ⟨(r.table.join id).1, ((r.table.find? id).getD ⟨r.table.joined + 1, 0⟩).batches + 1⟩
    else r.table.find? other :=
  RequestTable.lookup_cons_others

theorem mem_join : m ∈ (r.join id).members ↔
    m ∈ r.members ∨ m = ⟨id, (r.table.join id).1, false, false⟩ := by
  simp [join]

theorem belonging_join : (r.join id).belonging other =
    r.belonging other + if other = id then 1 else 0 := by
  rw [belonging, join, List.countP_append, List.countP_singleton, belonging]
  by_cases h : other = id
  · subst h
    simp [Member.belongsTo]
  · simp [Member.belongsTo, h, Ne.symm h]

/-- A batch joins with the token of the entry, or with one that no batch has had. -/
theorem token_join_cases (r : Registry) (id : String) :
    (∃ entry, r.table.find? id = some entry ∧ (r.table.join id).1 = entry.token) ∨
      r.table.find? id = none ∧ (r.table.join id).1 = r.table.joined + 1 := by
  have htoken : (r.table.join id).1 = ((r.table.find? id).getD ⟨r.table.joined + 1, 0⟩).token := rfl
  rw [htoken]
  cases r.table.find? id with
  | none => exact .inr ⟨rfl, rfl⟩
  | some entry => exact .inl ⟨entry, rfl, rfl⟩

theorem Sound.token_join_le (h : r.Sound) (id : String) :
    (r.table.join id).1 ≤ r.table.joined + 1 := by
  rcases r.token_join_cases id with ⟨entry, hfind, htoken⟩ | ⟨-, htoken⟩
  · have := h.token_le hfind
    omega
  · omega

theorem Sound.batches_join (h : r.Sound) (id : String) :
    ((r.table.find? id).getD ⟨r.table.joined + 1, 0⟩).batches = r.belonging id := by
  cases hfind : r.table.find? id with
  | some entry => exact (h.counted id entry hfind).2
  | none =>
    have hnone : ¬0 < r.belonging id := by
      rw [belonging_pos_iff, ← h.exists_entry_iff]
      rintro ⟨entry, hentry⟩
      cases hfind.symm.trans hentry
    exact (Nat.eq_zero_of_not_pos hnone).symm

/-- Who holds the token a batch joins with is of the same request. -/
theorem Sound.own_join (h : r.Sound) (hm : m ∈ r.members) (htoken : m.token = (r.table.join id).1) :
    m.requestId = id ∧ m.dropped = false := by
  rcases r.token_join_cases id with ⟨entry, hfind, hentry⟩ | ⟨-, hnew⟩
  · exact h.own id entry hfind m hm (htoken.trans hentry)
  · have := h.drawn m hm
    omega

theorem Sound.isRevoked_join (h : r.Sound) (id : String) :
    r.table.isRevoked (r.table.join id).1 = false := by
  rcases r.token_join_cases id with ⟨entry, hfind, hentry⟩ | ⟨-, hnew⟩
  · rw [hentry]
    exact h.isRevoked_entry hfind
  · apply Bool.eq_false_iff.mpr
    intro hrevoked
    have := h.revoked _ hrevoked
    omega

theorem Sound.join (h : r.Sound) (id : String) : (r.join id).Sound where
  running := by
    show r.table.running + 1 = List.countP _ (r.members ++ _)
    rw [List.countP_append, h.running]
    rfl
  counted other entry hfind := by
    rw [find?_join] at hfind
    rw [belonging_join]
    split at hfind
    · rename_i hother
      cases hfind
      rw [if_pos hother, hother, ← h.batches_join id]
      exact ⟨Nat.succ_pos _, rfl⟩
    · rename_i hother
      rw [if_neg hother]
      exact h.counted other entry hfind
  held m hm other hbelongs := by
    rw [find?_join]
    rcases mem_join.mp hm with hm | rfl
    · obtain ⟨entry, hfind, htoken⟩ := h.held m hm other hbelongs
      split
      · rename_i hother
        subst hother
        refine ⟨_, rfl, ?_⟩
        rcases r.token_join_cases other with ⟨_, hfind', htoken'⟩ | ⟨hnone, -⟩
        · cases hfind.symm.trans hfind'
          exact htoken'.trans htoken
        · cases hfind.symm.trans hnone
      · exact ⟨entry, hfind, htoken⟩
    · rw [if_pos (Member.belongsTo_iff.mp hbelongs).1.symm]
      exact ⟨_, rfl, rfl⟩
  own other entry hfind m hm htoken := by
    rw [find?_join] at hfind
    split at hfind
    · rename_i hother
      cases hfind
      rw [hother]
      rcases mem_join.mp hm with hm | rfl
      · exact h.own_join hm htoken
      · exact ⟨rfl, rfl⟩
    · rename_i hother
      rcases mem_join.mp hm with hm | rfl
      · exact h.own other entry hfind m hm htoken
      -- The batch that joins does not hold the token of another request.
      · exfalso
        rcases r.token_join_cases id with ⟨mine, hmine, hold⟩ | ⟨-, hnew⟩
        · exact h.token_ne hmine hfind hother (hold.symm.trans htoken)
        · have := h.token_le hfind
          have hsame : (r.table.join id).1 = entry.token := htoken
          omega
  drawn m hm := by
    rcases mem_join.mp hm with hm | rfl
    · exact Nat.le_succ_of_le (h.drawn m hm)
    · exact h.token_join_le id
  revoked token hrevoked := Nat.le_succ_of_le (h.revoked token hrevoked)
  stopped m hm hopen := by
    rcases mem_join.mp hm with hm | rfl
    · exact h.stopped m hm hopen
    · show r.table.isRevoked (r.table.join id).1 = true ↔ false = true
      rw [h.isRevoked_join id]

end Registry

end Verdict
