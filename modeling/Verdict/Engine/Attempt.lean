import Verdict.Engine.Ticket

/-! The steps of an attempt.

Between two steps of an attempt any other may take some of its own. What comes from outside,
the opening of a session and the verifier's answer, is given to the step that waits for it. A
cancelled attempt hands in no text, and stops where it would begin its work, wait for a
permit, or call the verifier and wait for its answer.

Of all that is called only the verifier may break down instead of returning. To open a session is
taken to end with the session or a fault, and to report a diagnostic is taken to succeed; an attempt
under which one of these breaks down is left out. -/
namespace Verdict

/-- A batch while its attempts are at work: their counts and their texts. -/
structure Tray where
  statistics : Statistics
  collector : Collector
  deriving Repr

/-- A step of an attempt: what the engine's attempts share, what those of the batch share, and
the attempt itself. There is none where the attempt has to wait. -/
abbrev AttemptStep := Option (Shared × Tray × Attempt)

namespace Attempt

/-- Looks for a result that the cache may serve. -/
def consult (k : Ticket) (s : Shared) (a : Attempt) : Shared × Phase :=
  if s.usesCache then
    match s.cache.lookup (k.key a) s.options.cacheMode.serves with
    | (some r, _, cache) => ({ s with cache }, .reporting (k.served s.options a r) false)
    | (none, _, cache) => ({ s with cache }, .queued)
  else (s, .queued)

/-- Takes a permit if there is one. -/
def takePermit (s : Shared) : Option Shared :=
  match s.permits with
  | n + 1 => some { s with permits := n }
  | 0 => none

/-- Takes an idle session; without one, a session has to be opened. -/
def takeSession (s : Shared) : Shared × Phase :=
  match s.pool.take? with
  | some (session, pool) => ({ s with pool }, .equipped session)
  | none => (s, .opening)

def giveBack (s : Shared) (session : Nat) : Shared := { s with pool := s.pool.giveBack session }

/-- Keeps a result where results are kept. -/
def keep (k : Ticket) (s : Shared) (a : Attempt) (r : Result) : Shared :=
  if s.usesCache then { s with cache := s.cache.insert (k.key a) r } else s

/-- Counts and reports a result. -/
def report (s : Shared) (tray : Tray) (a : Attempt) (p : Pending) : Shared × Tray × Closing :=
  let r := p.result
  ({ s with reported := s.reported ++ p.diagnostics ++ r.diagnostics },
    { tray with statistics := tray.statistics.record r.outcome r.errorCount r.wasCached },
    ⟨.completed r, Ticket.heading s.options a ++ p.preface ++ r.render s.options⟩)

def returnPermit (s : Shared) (held : Bool) : Shared :=
  if held then { s with permits := s.permits + 1 } else s

/-- Leaves the roster. -/
def leave (s : Shared) (a : Attempt) : Shared :=
  match a.generation with
  | some generation => { s with roster := s.roster.leave a.name generation }
  | none => s

/-- A fatal ending stops all batches of the request. -/
def announce (k : Ticket) (s : Shared) (e : Ending) : Shared :=
  if e.isFatal then { s with requests := s.requests.revoke k.token } else s

/-- The next step of the attempt in this slot, as far as it depends on nothing outside. -/
def advance (k : Ticket) (slot : Nat) (s : Shared) (tray : Tray) (a : Attempt) : AttemptStep :=
  match a.phase with
  | .scheduled =>
    let (generation, roster) := s.roster.enter a.name
    some ({ s with roster }, tray, { a with generation := some generation, phase := .entered })
  | .entered =>
    if k.isCancelled s a then some (s, tray, a.moved (.settled .cancelled false))
    else
      let (s, phase) := consult k s a
      some (s, tray, a.moved phase)
  | .queued =>
    if k.isCancelled s a then some (s, tray, a.moved (.settled .cancelled false))
    else (takePermit s).map fun s => (s, tray, a.moved .admitted)
  | .admitted =>
    let (s, phase) := takeSession s
    some (s, tray, a.moved phase)
  | .opening => none
  | .equipped session =>
    if k.isCancelled s a then some (giveBack s session, tray, a.moved (.settled .cancelled true))
    else some (s, tray, a.moved (.verifying session (k.job s.options a)))
  | .verifying session _ =>
    if k.isCancelled s a then some (giveBack s session, tray, a.moved (.settled .cancelled true))
    else none
  | .answered r => some (keep k s a r, tray, a.moved (.reporting ⟨r, "", []⟩ true))
  | .reporting p permit =>
    let (s, tray, c) := report s tray a p
    some (s, tray, a.moved (.settled c permit))
  | .settled c permit => some (returnPermit s permit, tray, a.moved (.idle c))
  | .idle c => some (leave s a, tray, a.moved (.retired c))
  | .retired c => some (announce k s c.ending, tray, a.moved (.announced c))
  | .announced c =>
    some (s, { tray with collector := tray.collector.add slot c.text }, a.moved (.delivered c.ending))
  | .delivered e =>
    let (_, collector, sink) := tray.collector.write s.sink
    some ({ s with sink }, { tray with collector }, a.moved (.ended e))
  | .ended _ | .crashed _ => none

/-- Takes the session that has been opened, or the fault that came of it. -/
def opened (k : Ticket) (outcome : Except Fault Unit) (s : Shared) (tray : Tray) (a : Attempt) :
    AttemptStep :=
  match a.phase with
  | .opening =>
    match outcome with
    | .ok () =>
      some ({ s with pool := s.pool.countOpened }, tray, a.moved (.equipped s.pool.opened))
    | .error f => some (s, tray, a.moved (k.afterFault s.options a f))
  | _ => none

/-- Takes the verifier's answer, unless the attempt is to stop. The session is given back
with findings and dropped otherwise. -/
def answered (k : Ticket) (answer : Answer) (s : Shared) (tray : Tray) (a : Attempt) :
    AttemptStep :=
  match a.phase with
  | .verifying session _ =>
    if k.isCancelled s a then none
    else
      match answer with
      | .findings f elapsed =>
        some (giveBack s session, tray, a.moved (.answered (k.result s.options a f elapsed)))
      | .fault f =>
        some ({ s with pool := s.pool.discard session }, tray, a.moved (k.afterFault s.options a f))
      | .crash reason =>
        some (returnPermit { s with pool := s.pool.discard session } true, tray,
          a.moved (.crashed reason))
  | _ => none

end Attempt

end Verdict
