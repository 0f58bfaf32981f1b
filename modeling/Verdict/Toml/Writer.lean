/-! Writing the entries of a TOML document.

A text is written in the first of several forms that shows it without an escape; a tab is no
reason to give a form up. An array of several items has a line for each. As with the reader, no
theorem is about the text itself. -/
namespace Verdict.Toml

/-- What can be written. -/
inductive Written
  | boolean (value : Bool)
  | natural (value : Nat)
  | text (value : String)
  | texts (items : List String)

/-- The greatest number that can be written. -/
def greatest : Nat := 9223372036854775807

namespace Written

/-- The length of the longest run of `q`, where `run` of them have just been seen. -/
def longestRun (q : Char) (run : Nat) : List Char → Nat
  | [] => run
  | c :: rest => if c = q then longestRun q (run + 1) rest else max run (longestRun q 0 rest)

/-- Whether a character can be written by an escape only. -/
def needsEscape (c : Char) : Bool :=
  (c < ' ' && c ≠ '\t' && c ≠ '\n') || c = '\x7f'

/-- Four hexadecimal digits. -/
def fourDigits (n : Nat) : String :=
  let ds := (Nat.toDigits 16 n).map Char.toUpper
  String.ofList (List.replicate (4 - ds.length) '0' ++ ds)

/-- A character between double quotes, other than a quote; over several lines the end of a
line stands for itself. -/
def inQuotes (lines : Bool) (c : Char) : String :=
  if c = '\x08' then "\\b"
  else if c = '\t' then "\\t"
  else if c = '\n' then if lines then "\n" else "\\n"
  else if c = '\x0c' then "\\f"
  else if c = '\r' then "\\r"
  else if c = '\\' then "\\\\"
  else if needsEscape c then "\\u" ++ fourDigits c.toNat
  else c.toString

/-- The characters of a text between double quotes. As many quotes in a row as `allowed`
stand as they are, and the one after them is escaped; `run` of them have just been
written. -/
def quotedBody (lines : Bool) (allowed run : Nat) : List Char → String
  | [] => ""
  | c :: rest =>
    if c = '"' then
      if run < allowed then "\"" ++ quotedBody lines allowed (run + 1) rest
      else "\\\"" ++ quotedBody lines allowed 0 rest
    else inQuotes lines c ++ quotedBody lines allowed 0 rest

/-- A text in double quotes on one line. -/
def quoted (cs : List Char) : String := "\"" ++ quotedBody false 0 0 cs ++ "\""

/-- What opens a text over several lines: its first line starts on a line of its own, if
there is more than one. -/
def opening (quotes : String) (cs : List Char) : String :=
  quotes ++ if '\n' ∈ cs then "\n" else ""

/-- A text in double quotes over several lines. -/
def quotedLines (cs : List Char) : String :=
  opening "\"\"\"" cs ++ quotedBody true 2 0 cs ++ "\"\"\""

/-- A text in single quotes, which cannot escape anything. -/
def literal (cs : List Char) : String := "'" ++ String.ofList cs ++ "'"

def literalLines (cs : List Char) : String := opening "'''" cs ++ String.ofList cs ++ "'''"

def renderText (s : String) : String :=
  let cs := s.toList
  let escapes := cs.any needsEscape
  let backslash := '\\' ∈ cs
  let several := '\n' ∈ cs
  let singles := longestRun '\'' 0 cs
  let doubles := longestRun '"' 0 cs
  if !escapes && !backslash && doubles = 0 && !several then quoted cs
  else if !escapes && singles = 0 && !several then literal cs
  else if !escapes && !backslash && doubles ≤ 2 then quotedLines cs
  else if !escapes && singles ≤ 2 then literalLines cs
  else if several then quotedLines cs
  else quoted cs

/-- An array of texts. -/
def renderTexts : List String → String
  | [] => "[]"
  | [s] => "[" ++ renderText s ++ "]"
  | items => "[\n" ++ String.join (items.map fun s => "    " ++ renderText s ++ ",\n") ++ "]"

/-- A value, unless it is a number that is too large. -/
def render? : Written → Option String
  | boolean b => some (toString b)
  | natural n => if n ≤ greatest then some (toString n) else none
  | text s => some (renderText s)
  | texts items => some (renderTexts items)

end Written

/-- Entries, one after the other. -/
def write (entries : List (String × Written)) : Option String := do
  let lines ← entries.mapM fun (key, v) => do
    let rendered ← v.render?
    some (key ++ " = " ++ rendered ++ "\n")
  some (String.join lines)

end Verdict.Toml
