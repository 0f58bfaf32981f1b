import Verdict.Outcome

/-! Diagnostics: what a user is told about a result.

A diagnostic stands at a location and has further locations attached to it, its notes. In
text, a note of the execution trace is indented, the first of them under a heading. -/
namespace Verdict

/-- What a diagnostic is about. -/
inductive Concern
  | assertion
  | precondition
  | postcondition
  | invariantEntry
  | invariantMaintenance
  | timeOut
  | outOfResource
  | outOfMemory
  | solverException
  | inconclusive
  | verifier
  deriving DecidableEq, Repr

/-- A further location, with what is to be said of it. -/
structure Note where
  location : Location
  message : String
  category : Option String
  deriving DecidableEq, Repr

structure Diagnostic where
  concern : Concern
  location : Location
  message : String
  category : Option String
  notes : List Note
  requestId : String
  implementation : String
  deriving DecidableEq, Repr

namespace Diagnostic

/-- A message without the words that repeat that it is an error. -/
def clean (message : String) : String :=
  if message.startsWith "error: " then (message.drop 7).toString else message

/-- A diagnostic of one implementation for one request. -/
def make (requestId implementation : String) (concern : Concern) (location : Location)
    (message : String) : Diagnostic :=
  ⟨concern, location, clean message, none, [], requestId, implementation⟩

def withCategory (d : Diagnostic) (category : String) : Diagnostic :=
  { d with category := some category }

/-- Attaches a note behind the others. -/
def attach (d : Diagnostic) (location : Location) (message : String) (category : Option String) :
    Diagnostic :=
  { d with notes := d.notes ++ [⟨location, clean message, category⟩] }

/-- The category of a note that belongs to the error as such. -/
def relatedLocation : String := "Related location"

/-- The category of a note that is a step towards the error. -/
def executionTrace : String := "Execution trace"

/-- A line of text: where, what kind, and what. -/
def line (location : Location) (category : Option String) (message : String) : String :=
  location.render ++ ": " ++ category.elim "" (· ++ ": ") ++ message ++ "\n"

/-- The notes in text; `headed` says whether the heading of the trace has been written. -/
def renderNotes (headed : Bool) : List Note → String
  | [] => ""
  | n :: rest =>
    if n.category = some executionTrace then
      (if headed then "" else executionTrace ++ ":\n") ++ "    " ++ line n.location none n.message ++
        renderNotes true rest
    else line n.location n.category n.message ++ renderNotes headed rest

def render (d : Diagnostic) : String :=
  line d.location (some (d.category.getD "Error")) d.message ++ renderNotes false d.notes

end Diagnostic

end Verdict
