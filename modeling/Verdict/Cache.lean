import Verdict.Outcome

/-! Results of earlier runs, to be served again while nothing has changed.

A result is kept under the checksum of the implementation that it is of, together with the
implementation's name and the checksum of what it depends on. It is current for an
implementation of the same name, with the same checksum, and with the same dependencies as
far as these are known. How far an implementation is from that is its `Urgency`. -/
namespace Verdict

/-- What the cache has to say about an implementation. -/
inductive Urgency
  | /-- It has never been seen. -/ unverified
  | /-- It has been seen with other contents. -/ modified
  | /-- Its contents are known, but something it depends on has changed. -/ dependenciesChanged
  | /-- Its result is current. -/ skip
  deriving DecidableEq, Repr

namespace Urgency

/-- The weight of an urgency in the order of a batch; the last is the greatest there is among
integers of 64 bits. -/
def weight : Urgency → Int
  | unverified => 1
  | modified => 2
  | dependenciesChanged => 3
  | skip => 9223372036854775807

def needsVerification (u : Urgency) : Bool := u ≠ skip

end Urgency

/-- How the cache knows an implementation. -/
structure CacheKey where
  name : String
  checksum : Option Checksum
  dependencyChecksum : Option Checksum
  deriving DecidableEq, Repr

/-- A kept result and the name of the implementation that it is of. -/
structure CacheEntry where
  name : String
  result : Result
  deriving DecidableEq, Repr

structure Cache where
  /-- One entry at most for each checksum. -/
  entries : List (Checksum × CacheEntry)
  /-- The implementations with a result since the cache was last cleared. -/
  seen : List String
  hits : Nat
  misses : Nat
  deriving Repr

namespace Cache

def fresh : Cache := ⟨[], [], 0, 0⟩

instance : Inhabited Cache := ⟨fresh⟩

def size (c : Cache) : Nat := c.entries.length

/-- The result kept under a checksum, if it is of the implementation of this name. -/
def find? (c : Cache) (name : String) (checksum : Checksum) : Option CacheEntry :=
  (c.entries.lookup checksum).filter (·.name = name)

/-- Two dependency checksums agree only where both are defined. -/
def agree (a b : Option Checksum) : Bool := a.isSome && a = b

/-- How urgent an implementation is whose contents are not known: whether there has been a
result under its name decides. -/
def unmatched (c : Cache) (name : String) : Urgency :=
  if name ∈ c.seen then .modified else .unverified

/-- What is known of an implementation: how urgent it is, and its result if that is
current. An implementation without a checksum is never known. -/
def classify (c : Cache) (key : CacheKey) : Urgency × Option Result :=
  match key.checksum with
  | none => (.unverified, none)
  | some checksum =>
    match c.find? key.name checksum with
    | none => (c.unmatched key.name, none)
    | some e =>
      if agree e.result.dependencyChecksum key.dependencyChecksum then (.skip, some e.result)
      else (.dependenciesChanged, none)

/-- The urgency alone; this counts neither as a hit nor as a miss. -/
def urgency (c : Cache) (key : CacheKey) : Urgency :=
  match key.checksum with
  | none => .unverified
  | some checksum =>
    match c.find? key.name checksum with
    | none => c.unmatched key.name
    | some e =>
      match e.result.dependencyChecksum, key.dependencyChecksum with
      | some stored, some current => if stored = current then .skip else .dependenciesChanged
      | _, _ => .dependenciesChanged

/-- Serves the current result if it is acceptable, and counts a hit or a miss. Where there is
no checksum to look for, nothing is counted. -/
def lookup (c : Cache) (key : CacheKey) (accept : Result → Bool) :
    Option Result × Urgency × Cache :=
  let (urgency, current) := c.classify key
  match current.filter accept with
  | some r => (some { r with wasCached := true }, urgency, { c with hits := c.hits + 1 })
  | none => (none, urgency, if key.checksum.isSome then { c with misses := c.misses + 1 } else c)

/-- Keeps a result in the place of the one under the same checksum. Without a checksum
nothing is kept. -/
def insert (c : Cache) (key : CacheKey) (r : Result) : Cache :=
  match key.checksum with
  | none => c
  | some checksum =>
    let r := { r with
      checksum := some checksum, dependencyChecksum := key.dependencyChecksum, wasCached := false }
    { c with
      entries := (checksum, ⟨key.name, r⟩) :: c.entries.filter (·.1 ≠ checksum)
      seen := if key.name ∈ c.seen then c.seen else key.name :: c.seen }

/-- Forgets all results; the counts stay. -/
def clear (c : Cache) : Cache := { c with entries := [], seen := [] }

end Cache

end Verdict
