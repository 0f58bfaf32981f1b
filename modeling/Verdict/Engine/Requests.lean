/-! The requests under way at an engine.

Several batches may share one request. They share its token too, and once the token is
revoked all of them are to stop. A request that is cancelled is forgotten at once: a batch
that comes later under the same id begins a new request with a token of its own, even while
batches of the old one are still stopping. -/
namespace Verdict

/-- A request that can be joined and cancelled. -/
structure RequestEntry where
  /-- Tells the request from all others, those under the same id included. -/
  token : Nat
  /-- How many batches under way belong to it. -/
  batches : Nat
  deriving DecidableEq, Repr

structure RequestTable where
  /-- One entry at most for each id. -/
  entries : List (String × RequestEntry)
  /-- How many batches are under way, those of cancelled requests included. -/
  running : Nat
  /-- How many batches have ever joined; tokens are drawn from this count. -/
  joined : Nat
  /-- The tokens that have been revoked. -/
  revoked : List Nat
  deriving Repr

namespace RequestTable

def empty : RequestTable := ⟨[], 0, 0, []⟩

instance : Inhabited RequestTable := ⟨empty⟩

def find? (t : RequestTable) (id : String) : Option RequestEntry := t.entries.lookup id

/-- The entries of all other ids. -/
def others (t : RequestTable) (id : String) : List (String × RequestEntry) :=
  t.entries.filter (·.1 ≠ id)

/-- Lets a batch join the request with this id, which begins if there is none, and gives the
token of the request. -/
def join (t : RequestTable) (id : String) : Nat × RequestTable :=
  let number := t.joined + 1
  let entry := (t.find? id).getD ⟨number, 0⟩
  (entry.token,
    { t with
      entries := (id, { entry with batches := entry.batches + 1 }) :: t.others id
      running := t.running + 1
      joined := number })

/-- The entries once a batch with this token has finished. The last batch of a request takes
its entry away; a batch of a forgotten request changes no entry. -/
def entriesAfter (t : RequestTable) (id : String) (token : Nat) : List (String × RequestEntry) :=
  match t.find? id with
  | some entry =>
    if entry.token = token then
      if entry.batches ≤ 1 then t.others id
      else (id, { entry with batches := entry.batches - 1 }) :: t.others id
    else t.entries
  | none => t.entries

/-- Lets a batch finish that joined under `id` and was given `token`. -/
def finish (t : RequestTable) (id : String) (token : Nat) : RequestTable :=
  { t with entries := t.entriesAfter id token, running := t.running - 1 }

/-- Tells all batches with this token to stop. -/
def revoke (t : RequestTable) (token : Nat) : RequestTable :=
  { t with revoked := token :: t.revoked }

def isRevoked (t : RequestTable) (token : Nat) : Bool := t.revoked.contains token

/-- Cancels the request with this id and says whether there was one. -/
def cancel (t : RequestTable) (id : String) : Bool × RequestTable :=
  match t.find? id with
  | some entry => (true, { t.revoke entry.token with entries := t.others id })
  | none => (false, t)

end RequestTable

end Verdict
