import Verdict.Options.Document

/-! Options that are written are read again.

Each option is written under the key under which it is read, and as a value of the kind that is
read there. So the entries of a document that gives options give just these (`ofEntries_written`),
over whatever other options they are read; only a number of units that is not set is passed over,
and then it is that of the others. -/
namespace Verdict

/-- The value that a reader finds where this has been written. -/
def Toml.Written.value : Toml.Written → Toml.Value
  | boolean b => .boolean b
  | natural n => .integer n
  | text s => .text s
  | texts items => .array (items.map .text)

theorem CacheMode.ofWord?_word (m : CacheMode) : ofWord? m.word = some m := by
  cases m <;> decide

namespace Options

theorem readTexts_texts (items : List String) :
    readTexts (Toml.Written.texts items).value = some items := by
  show (items.map Toml.Value.text).mapM readText = some items
  induction items with
  | nil => rfl
  | cons s rest ih =>
    rw [List.map_cons, List.mapM_cons, ih]
    rfl

/-- What a reader finds in a document with these options. -/
def written (o : Options) : Toml.Entries := o.entries.map fun e => (e.1, e.2.value)

theorem ofEntries_written {standard o : Options}
    (h : o.maxConcurrentUnits = none → standard.maxConcurrentUnits = none) :
    ofEntries standard o.written = some o := by
  obtain ⟨prune, mode, threads, units, stack, limit, trace, obligations, only, filter⟩ := o
  have hmode : readMode (Toml.Written.text mode.word).value = some mode := mode.ofWord?_word
  have hnat (n : Nat) : readNat (Toml.Written.natural n).value = some n := rfl
  have hbool (b : Bool) : readBool (Toml.Written.boolean b).value = some b := rfl
  have htext (s : String) : readText (Toml.Written.text s).value = some s := rfl
  cases units with
  | none =>
    have hunits : standard.maxConcurrentUnits = none := h rfl
    simp [ofEntries, written, entries, entry, List.lookup_cons, hmode, hnat, hbool, htext, hunits,
      readTexts_texts]
  | some n =>
    simp [ofEntries, written, entries, entry, List.lookup_cons, hmode, hnat, hbool, htext,
      readTexts_texts]

end Options

end Verdict
