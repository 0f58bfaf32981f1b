import Verdict.Options
import Verdict.Toml.Reader
import Verdict.Toml.Writer

/-! Options as a TOML document.

Every option has a key of its own. What a document does not say is as in the options that it
is read over, and keys that name no option are passed over. The entries that are written are those
that are read again; that their text is read as these entries is left to the reader and the writer
of documents. -/
namespace Verdict

/-- Why there are no options. -/
inductive ConfigError
  | unreadable
  | malformed
  | invalid (reason : Options.Invalid)
  | unwritable
  deriving DecidableEq, Repr

def ConfigError.message : ConfigError → String
  | unreadable => "Failed to read"
  | malformed => "Invalid TOML"
  | invalid reason => reason.message
  | unwritable => "Failed to serialize options"

namespace CacheMode

def word : CacheMode → String
  | off => "off"
  | on => "on"
  | correctOnly => "correct_only"

def ofWord? (s : String) : Option CacheMode := [off, on, correctOnly].find? (·.word = s)

end CacheMode

namespace Options

open Toml (Value Entries)

def readBool : Value → Option Bool
  | .boolean b => some b
  | _ => none

def readNat : Value → Option Nat
  | .integer n => n.toNat?
  | _ => none

def readText : Value → Option String
  | .text s => some s
  | _ => none

def readTexts : Value → Option (List String)
  | .array items => items.mapM readText
  | _ => none

/-- A cache mode is a word, or that word as the one key of a table with nothing below it. -/
def readMode : Value → Option CacheMode
  | .text s => CacheMode.ofWord? s
  | .table _ [(s, .array [])] => CacheMode.ofWord? s
  | .table _ [(s, .table _ [])] => CacheMode.ofWord? s
  | _ => none

/-- The option under a key, or else its standard value; a value of the wrong kind is
refused. -/
def entry {α : Type} (es : Entries) (key : String) (read : Value → Option α) (standard : α) :
    Option α :=
  match es.lookup key with
  | none => some standard
  | some v => read v

/-- The options that the entries of a document give. -/
def ofEntries (standard : Options) (es : Entries) : Option Options := do
  some {
    prune := ← entry es "prune" readBool standard.prune
    cacheMode := ← entry es "cache_mode" readMode standard.cacheMode
    maxThreads := ← entry es "max_threads" readNat standard.maxThreads
    maxConcurrentUnits :=
      ← entry es "max_concurrent_units" (fun v => (readNat v).map some) standard.maxConcurrentUnits
    stackSize := ← entry es "stack_size" readNat standard.stackSize
    timeLimit := ← entry es "time_limit" readNat standard.timeLimit
    trace := ← entry es "trace" readBool standard.trace
    traceProofObligations :=
      ← entry es "trace_proof_obligations" readBool standard.traceProofObligations
    checkOnly := ← entry es "check_only" readTexts standard.checkOnly
    logFilter := ← entry es "log_filter" readText standard.logFilter }

/-- Reads options over the standard ones, and checks them. -/
def ofToml (standard : Options) (s : String) : Except ConfigError Options :=
  match (Toml.read s).bind (ofEntries standard) with
  | none => .error .malformed
  | some o =>
    match o.invalid? with
    | some reason => .error (.invalid reason)
    | none => .ok o

/-- Reads options from the bytes of a file. -/
def ofBytes (standard : Options) (bytes : ByteArray) : Except ConfigError Options :=
  match String.fromUTF8? bytes with
  | some s => ofToml standard s
  | none => .error .unreadable

/-- The entries of a document that gives these options. -/
def entries (o : Options) : List (String × Toml.Written) :=
  [("prune", .boolean o.prune), ("cache_mode", .text o.cacheMode.word),
    ("max_threads", .natural o.maxThreads)] ++
    (o.maxConcurrentUnits.map fun n => ("max_concurrent_units", .natural n)).toList ++
    [("stack_size", .natural o.stackSize), ("time_limit", .natural o.timeLimit),
      ("trace", .boolean o.trace), ("trace_proof_obligations", .boolean o.traceProofObligations),
      ("check_only", .texts o.checkOnly), ("log_filter", .text o.logFilter)]

def toToml (o : Options) : Except ConfigError String :=
  match Toml.write o.entries with
  | some s => .ok s
  | none => .error .unwritable

end Options

end Verdict
