/-! Output of units that end in any order, written in the order of their slots.

Each unit has a slot. A text may be put into a slot at any time; it is written once all
slots before it have been written. What it is written to decides for itself which texts it
takes (`Writable`). -/
namespace Verdict

/-- Writing did not succeed. -/
inductive SinkError
  | closed
  deriving DecidableEq, Repr

def SinkError.message : SinkError → String
  | closed => "sink closed"

/-- What text can be written to. Each text is taken or refused, and so is a flush. -/
class Writable (σ : Type) where
  write : σ → String → Except SinkError Unit × σ
  flush : σ → Except SinkError Unit × σ

/-- Where text goes. A broken sink takes no text; writing nothing succeeds all the same. -/
structure Sink where
  contents : String
  broken : Bool
  deriving DecidableEq, Repr

namespace Sink

def empty : Sink := ⟨"", false⟩

/-- Whether the sink takes this text. -/
def takes (s : Sink) (text : String) : Bool := !s.broken || text.isEmpty

/-- Adds a text that the sink takes. -/
def append (s : Sink) (text : String) : Sink := { s with contents := s.contents ++ text }

/-- Writes a text, all of it or nothing. -/
def write (s : Sink) (text : String) : Except SinkError Unit × Sink :=
  if s.takes text then (.ok (), s.append text) else (.error .closed, s)

/-- A broken sink cannot be flushed. -/
def flush (s : Sink) : Except SinkError Unit × Sink :=
  (if s.broken then .error .closed else .ok (), s)

instance : Writable Sink := ⟨write, flush⟩

end Sink

/-- The slots of a batch. -/
structure Collector where
  /-- How many slots have been written. The first one that has not is next in line. -/
  flushed : Nat
  /-- The texts in the slots. When a text is written it is taken out, so that its slot then looks
  like one that has not got a text yet. -/
  outputs : List (Option String)
  deriving DecidableEq, Repr

namespace Collector
variable {σ : Type} [Writable σ]

def withSlots (n : Nat) : Collector := ⟨0, List.replicate n none⟩

def size (c : Collector) : Nat := c.outputs.length

/-- Puts a text into a slot, in the place of the one it may hold. A slot that does not exist takes
nothing. -/
def add (c : Collector) (slot : Nat) (text : String) : Collector :=
  { c with outputs := c.outputs.set slot (some text) }

/-- Writes the slot next in line as long as it holds a text, and counts the slots. What is refused
is taken out of its slot nevertheless; its slot then waits for another text. From the slot next in
line on there are `left`. -/
def drain (c : Collector) (sink : σ) (written : Nat) : (left : Nat) →
    Except SinkError Nat × Collector × σ
  | 0 => (.ok written, c, sink)
  | left + 1 =>
    match c.outputs[c.flushed]? with
    | some (some text) =>
      let taken := { c with outputs := c.outputs.set c.flushed none }
      match Writable.write sink text with
      | (.ok (), sink) => drain { taken with flushed := c.flushed + 1 } sink (written + 1) left
      | (.error e, sink) => (.error e, taken, sink)
    | _ => (.ok written, c, sink)

/-- Writes what is next in line and says how many slots that were. Where any were, there is a
flush in the end. -/
def write (c : Collector) (sink : σ) : Except SinkError Nat × Collector × σ :=
  match c.drain sink 0 (c.size - c.flushed) with
  | (.error e, after, sink) => (.error e, after, sink)
  | (.ok written, after, sink) =>
    if written = 0 then (.ok 0, after, sink)
    else
      match Writable.flush sink with
      | (.ok (), sink) => (.ok written, after, sink)
      | (.error e, sink) => (.error e, after, sink)

end Collector

end Verdict
