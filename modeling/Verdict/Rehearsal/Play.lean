import Verdict.Rehearsal.Stage

/-! What engines are asked to do in a rehearsal, and what they answer.

A scene is a request to one engine, or a scene with others played beside it: these begin,
one after the other, as soon as so many calls of the verifier have started. A scene that only
asks or tells is over at once; one that submits a batch goes on until the batch has
finished. -/
namespace Verdict.Rehearsal

/-- What an engine can be asked, about one of the programs where it needs one. -/
inductive Request
  | freshId
  | idNumber (requestId : String)
  | key (id : DeclId)
  | select
  | /-- Verify the whole program. -/ verify
  | run (ids : List DeclId) (requestId : String)
  | cancel (requestId : String)
  | idleSessions
  | openings
  | cacheCounts
  | clearCache
  | breakSink (broken : Bool)
  | isTracing
  deriving Repr

inductive Scene
  | single (engine program : Nat) (r : Request)
  | beside (first : Scene) (started : Nat) (others : List Scene)

/-- What is answered. -/
inductive Reply
  | nothing
  | text (s : String)
  | number (n : Option Nat)
  | flag (b : Bool)
  | ids (ids : List DeclId)
  | key (k : Option CacheKey)
  | cache (c : Cache)
  | report (r : BatchReport)
  | refused (e : EngineError)
  | beside (first : Reply) (others : List Reply)
  | /-- The scene cannot go on. -/ stuck

/-- A scene that has begun. -/
inductive Action
  | over (r : Reply)
  | /-- A batch is under way; after it, the closing line may be due. -/
    underWay (engine batch : Nat) (signsOff : Bool)
  | /-- The scenes beside the first have not begun. -/
    early (first : Action) (started : Nat) (others : List Scene)
  | /-- Scenes beside the first: the replies so far, the one that is played, and the rest. -/
    beside (first : Action) (replies : List Reply) (current : Action) (rest : List Scene)

namespace Reply

def ofReport : Except EngineError BatchReport → Reply
  | .ok r => report r
  | .error e => refused e

end Reply

namespace Stage

/-- Follows a batch that an engine has been asked for, if the engine has submitted it. -/
def follow (s : Stage) (k batch : Nat) (signsOff : Bool) :
    Except EngineError Unit × Engine → Action × Stage
  | (.error reason, e) => (.over (.refused reason), s.put k e)
  | (.ok (), e) => (.underWay k batch signsOff, s.put k e)

/-- Makes a request to an engine. -/
def ask (s : Stage) (k : Nat) (e : Engine) (a : Analysis) : Request → Action × Stage
  | .freshId => let (id, e) := e.freshRequestId; (.over (.text id), s.put k e)
  | .idNumber id => (.over (.number (RequestId.number? id)), s)
  | .key id => (.over (.key ((a.program.get? id).map fun d => a.key id d.name)), s)
  | .select => (.over (.ids (e.shared.select a)), s)
  | .verify => s.follow k e.batches.length true (e.verify a)
  | .run ids requestId => s.follow k e.batches.length false (e.schedule requestId a ids)
  | .cancel requestId => let (found, e) := e.cancel requestId; (.over (.flag found), s.put k e)
  | .idleSessions => (.over (.number (some e.shared.pool.idle.length)), s)
  | .openings => (.over (.number (some s.verifier.openings)), s)
  | .cacheCounts => (.over (.cache e.shared.cache), s)
  | .clearCache => (.over .nothing, ((e.step .clearCache).map (s.put k)).getD s)
  | .breakSink broken => (.over .nothing, ((e.step (.breakSink broken)).map (s.put k)).getD s)
  | .isTracing => (.over (.flag e.shared.options.trace), s)

/-- Begins a scene. -/
def begin (s : Stage) : Scene → Action × Stage
  | .single k p r =>
    match s.engine? k with
    | some (.ok e) => s.ask k e (s.programs[p]?.getD (.ofProgram ∅)) r
    | some (.error reason) => (.over (.refused reason), s)
    | none => (.over .stuck, s)
  | .beside first started others =>
    let (first, s) := s.begin first
    (.early first started others, s)

/-- Begins scenes one after the other for as long as each is over at once. -/
def beginAll (s : Stage) (first : Action) (replies : List Reply) (current : Action) :
    List Scene → Action × Stage
  | [] =>
    match first, current with
    | .over r, .over c => (.over (.beside r (replies ++ [c])), s)
    | _, _ => (.beside first replies current [], s)
  | next :: rest =>
    match current with
    | .over c =>
      let (current, s) := s.begin next
      beginAll s first (replies ++ [c]) current rest
    | _ => (.beside first replies current (next :: rest), s)

/-- Ends the scene of a batch that has finished. -/
def close (s : Stage) (k i : Nat) (signsOff : Bool) : Action × Stage :=
  match s.engine? k with
  | some (.ok e) =>
    match e.batches[i]?.bind Batch.outcome? with
    | none => (.underWay k i signsOff, s)
    | some (.error reason) => (.over (.refused reason), s)
    | some (.ok r) =>
      if signsOff then
        let (r, e) := e.signOff r
        (.over (.ofReport r), s.put k e)
      else (.over (.report r), s)
  | _ => (.over .stuck, s)

/-- Takes a scene on as far as it goes without a move of an attempt. -/
def goOn (s : Stage) : Action → Action × Stage
  | .over r => (.over r, s)
  | .underWay k i signsOff => s.close k i signsOff
  | .early first started others =>
    let (first, s) := s.goOn first
    match others with
    | [] =>
      match first with
      | .over r => (.over (.beside r []), s)
      | _ => (.early first started [], s)
    | next :: rest =>
      if s.verifier.started < started then (.early first started others, s)
      else
        let (current, s) := s.begin next
        s.beginAll first [] current rest
  | .beside first replies current rest =>
    let (first, s) := s.goOn first
    let (current, s) := s.goOn current
    s.beginAll first replies current rest

/-- Plays an action for at most so many rounds. -/
def playFor (s : Stage) (a : Action) : Nat → Reply × Stage
  | 0 => (.stuck, s)
  | rounds + 1 =>
    match s.goOn a with
    | (.over r, s) => (r, s)
    | (a, s) => s.round.playFor a rounds

end Stage

/-- A bound on the rounds that a scene takes: in each round one of its attempts comes to its
end, or one of its scenes does, or none will. -/
def Scene.rounds (programs : List Analysis) : Scene → Nat
  | .single _ p r =>
    match r with
    | .run ids _ => 4 * ids.length + 4
    | .verify => 4 * ((programs[p]?.map (·.program.size)).getD 0) + 4
    | _ => 2
  | .beside first _ others => first.rounds programs + roundsOf programs others + 4
where
  roundsOf (programs : List Analysis) : List Scene → Nat
    | [] => 0
    | s :: rest => s.rounds programs + roundsOf programs rest

/-- The reply to a scene, with what was written, reported and asked of the verifier
meanwhile. Diagnostics are ordered by implementation, calls by implementation and number. -/
structure Account where
  reply : Reply
  written : String
  reported : List Diagnostic
  calls : List Call

/-- Calls by implementation, and those for one implementation by number. -/
def Call.le (a b : Call) : Bool :=
  a.job.name < b.job.name || (a.job.name = b.job.name && a.number ≤ b.number)

/-- Plays a scene. -/
def Stage.play (s : Stage) (scene : Scene) : Account × Stage :=
  let known := s.verifier.calls.length
  let quiet := { s with sink := { s.sink with contents := "" }, reported := [] }
  let (action, begun) := quiet.begin scene
  let (reply, s) := begun.playFor action (scene.rounds s.programs)
  ({ reply
     written := s.sink.contents
     reported := s.reported.mergeSort fun a b => a.implementation ≤ b.implementation
     calls := (s.verifier.calls.drop known).mergeSort Call.le }, s)

/-- Plays scenes one after the other. -/
def Stage.playAll (s : Stage) : List Scene → List Account
  | [] => []
  | scene :: rest =>
    let (account, s) := s.play scene
    account :: s.playAll rest

end Verdict.Rehearsal
