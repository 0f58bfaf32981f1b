/-! Idle solver sessions, to be used again.

The session that was given back last is handed out first. A session that has been handed out
belongs to whoever asked for it until it is given back or discarded. -/
namespace Verdict

structure SessionPool (σ : Type) where
  /-- The idle sessions, the one given back last at the head. -/
  idle : List σ
  /-- How many sessions have been opened through the pool. -/
  opened : Nat
  deriving Repr

namespace SessionPool
variable {σ ε : Type}

def empty : SessionPool σ := ⟨[], 0⟩

instance : Inhabited (SessionPool σ) := ⟨empty⟩

/-- Hands out the idle session that was given back last. -/
def take? (p : SessionPool σ) : Option (σ × SessionPool σ) :=
  match p.idle with
  | s :: rest => some (s, { p with idle := rest })
  | [] => none

/-- Counts a session that has been opened for a pool without an idle one. -/
def countOpened (p : SessionPool σ) : SessionPool σ := { p with opened := p.opened + 1 }

/-- Hands out an idle session; where there is none, what opening a new one comes to. Only a
session that could be opened is counted. -/
def checkout (p : SessionPool σ) (opening : Except ε σ) : Except ε σ × SessionPool σ :=
  match p.take? with
  | some (s, rest) => (.ok s, rest)
  | none =>
    match opening with
    | .ok s => (.ok s, p.countOpened)
    | .error e => (.error e, p)

def giveBack (p : SessionPool σ) (s : σ) : SessionPool σ := { p with idle := s :: p.idle }

@[simp] theorem idle_giveBack (p : SessionPool σ) (s : σ) : (p.giveBack s).idle = s :: p.idle := rfl

/-- Drops a session that must not be used again. -/
def discard (p : SessionPool σ) (_ : σ) : SessionPool σ := p

/-- Drops the idle sessions and says how many there were. -/
def clear (p : SessionPool σ) : Nat × SessionPool σ := (p.idle.length, { p with idle := [] })

@[simp] theorem idle_clear (p : SessionPool σ) : p.clear.2.idle = [] := rfl

@[simp] theorem opened_clear (p : SessionPool σ) : p.clear.2.opened = p.opened := rfl

end SessionPool

end Verdict
