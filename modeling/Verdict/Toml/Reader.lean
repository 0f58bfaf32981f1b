import Verdict.Toml.Scalar

/-! Reading a TOML document.

A reader takes characters from the head of a text and gives a value and the rest, or refuses
the text. What is refused is refused for good: no reading of a document depends on the
reason. Values nest to a bounded depth, which the readers of values count down, and
everything else that repeats does so only as long as it takes characters.

The documents are here so that the options can be given as one. What reads and writes their text
follows the published format, only serves to run with such options, and is the subject of no
theorem: what is proved of options begins where a text has become entries. -/
namespace Verdict.Toml

/-- Takes characters from the head of a text, or refuses the text. -/
abbrev Reader := StateT (List Char) Option

namespace Reader

/-- The next character, which stays where it is. -/
def peek : Reader (Option Char) := fun s => some (s.head?, s)

/-- Takes a character. -/
def char (c : Char) : Reader Unit
  | d :: rest => if d = c then some ((), rest) else none
  | [] => none

/-- Takes the characters at the head that satisfy `p`. -/
def takeWhile (p : Char → Bool) : Reader (List Char) := fun s =>
  some (s.takeWhile p, s.dropWhile p)

/-- Takes one character at least. -/
def takeWhile1 (p : Char → Bool) : Reader (List Char) := do
  let cs ← takeWhile p
  if cs.isEmpty then failure else pure cs

/-- Reads as long as `item` reads something and takes characters for it. -/
def many {α : Type} (item : Reader α) (s : List Char) : List α × List Char :=
  match item s with
  | none => ([], s)
  | some (a, rest) =>
    if rest.length < s.length then
      let (as, rest) := many item rest
      (a :: as, rest)
    else ([], s)
termination_by s.length

/-- The items that `many` reads. -/
def list {α : Type} (item : Reader α) : Reader (List α) := fun s => some (many item s)

/-- One item at least, with `separator` between two. -/
def separated {α : Type} (item : Reader α) (separator : Char) : Reader (List α) := do
  let first ← item
  let rest ← list (char separator *> item)
  pure (first :: rest)

def isBlank (c : Char) : Bool := c = ' ' || c = '\t'

def blanks : Reader Unit := do
  let _ ← takeWhile isBlank

/-- The end of a line, or that of the text. -/
def lineEnd : Reader Unit
  | [] => some ((), [])
  | '\n' :: rest => some ((), rest)
  | '\r' :: '\n' :: rest => some ((), rest)
  | _ => none

/-- A character that may stand in a comment or in a literal text. -/
def isPlain (c : Char) : Bool := c = '\t' || (' ' ≤ c && c ≠ '\x7f')

/-- A comment, if there is one. -/
def comment : Reader Unit := do
  if (← peek) = some '#' then
    let _ ← takeWhile isPlain

/-- What may stand behind a statement on its line. -/
def restOfLine : Reader Unit := do
  blanks
  comment
  lineEnd

/-- Blanks, comments and ends of lines. -/
def gap : Reader Unit := do
  let _ ← list do
    blanks
    comment
    match ← peek with
    | some '\n' | some '\r' => lineEnd
    | _ => pure ()

end Reader

/-! ### Texts -/

namespace Reader

/-- The character with a code point in hexadecimal digits. -/
def codePoint? (digits : List Char) : Option Char :=
  if digits.all Scalar.isHexDigit then
    let n := Scalar.ofDigits 16 digits
    if h : n.isValidChar then some ⟨n.toUInt32, by
      have hb : n < UInt32.size := by
        rcases h with h | ⟨_, h⟩ <;> simp only [UInt32.size] <;> omega
      simpa [UInt32.isValidChar, Nat.toUInt32, UInt32.toNat_ofNat_of_lt' hb] using h⟩
    else none
  else none

/-- The character whose code point the next `n` digits give, and the rest. -/
def coded? (n : Nat) (s : List Char) : Option (Char × List Char) :=
  if (s.take n).length = n then (codePoint? (s.take n)).map fun c => (c, s.drop n) else none

theorem length_coded?_le {n : Nat} {s : List Char} {c : Char} {rest : List Char}
    (h : coded? n s = some (c, rest)) : rest.length ≤ s.length := by
  unfold coded? at h
  split at h
  · obtain ⟨_, _, h⟩ := Option.map_eq_some_iff.mp h
    cases h
    exact List.length_drop ▸ Nat.sub_le _ _
  · cases h

/-- The character that an escape stands for, its backslash left out, and the rest. -/
def escape? : List Char → Option (Char × List Char)
  | 'b' :: rest => some ('\x08', rest)
  | 't' :: rest => some ('\t', rest)
  | 'n' :: rest => some ('\n', rest)
  | 'f' :: rest => some ('\x0c', rest)
  | 'r' :: rest => some ('\r', rest)
  | '"' :: rest => some ('"', rest)
  | '\\' :: rest => some ('\\', rest)
  | 'u' :: rest => coded? 4 rest
  | 'U' :: rest => coded? 8 rest
  | _ => none

theorem length_escape?_lt {s : List Char} {c : Char} {rest : List Char}
    (h : escape? s = some (c, rest)) : rest.length < s.length := by
  unfold escape? at h
  split at h
  case h_8 | h_9 => exact Nat.lt_succ_of_le (length_coded?_le h)
  case h_10 => cases h
  all_goals
    cases h
    exact Nat.lt_succ_self _

/-- The end of a line in a text over several lines. -/
def lineBreak? : List Char → Option (List Char)
  | '\n' :: rest => some rest
  | '\r' :: '\n' :: rest => some rest
  | _ => none

theorem length_lineBreak?_lt {s rest : List Char} (h : lineBreak? s = some rest) :
    rest.length < s.length := by
  unfold lineBreak? at h
  split at h
  · cases h
    exact Nat.lt_succ_self _
  · cases h
    exact Nat.lt_succ_of_lt (Nat.lt_succ_self _)
  · cases h

/-- A text in double quotes up to its end, the first quote left out. -/
def quoted (s : List Char) : Option (List Char × List Char) :=
  match s with
  | '"' :: rest => some ([], rest)
  | '\\' :: rest =>
    match _h : escape? rest with
    | some (c, rest) => (quoted rest).map fun (cs, rest) => (c :: cs, rest)
    | none => none
  | c :: rest => if isPlain c then (quoted rest).map fun (cs, rest) => (c :: cs, rest) else none
  | [] => none
termination_by s.length
decreasing_by
  · have := length_escape?_lt _h
    simp
    omega
  · simp

/-- A text in single quotes up to its end, the first quote left out. -/
def literal : List Char → Option (List Char × List Char)
  | '\'' :: rest => some ([], rest)
  | c :: rest => if isPlain c then (literal rest).map fun (cs, rest) => (c :: cs, rest) else none
  | [] => none

/-- The quotes that belong to a text over several lines where it ends: up to two stand before
the three that end it. -/
def closing? (q : Char) (s : List Char) : Option (List Char × List Char) :=
  let run := (s.takeWhile (· = q)).length
  if run < 3 then none else some (List.replicate (min run 5 - 3) q, s.drop (min run 5))

/-- A text over several lines in double quotes up to its end. After a backslash at the end of
a line everything is left out up to the next character that is seen; `skipping` says that
this is so here. -/
def quotedLines (skipping : Bool) (s : List Char) : Option (List Char × List Char) :=
  match s with
  | [] => none
  | c :: rest =>
    match _h : lineBreak? (c :: rest) with
    | some after =>
      if skipping then quotedLines true after
      else (quotedLines false after).map fun (cs, r) => ('\n' :: cs, r)
    | none =>
      if skipping && isBlank c then quotedLines true rest
      else if c = '"' then
        match closing? '"' s with
        | some found => some found
        | none => (quotedLines false rest).map fun (cs, r) => (c :: cs, r)
      else if c = '\\' then
        match _he : escape? rest with
        | some (d, after) => (quotedLines false after).map fun (cs, r) => (d :: cs, r)
        | none =>
          match _hb : lineBreak? (rest.dropWhile isBlank) with
          | some after => quotedLines true after
          | none => none
      else if isPlain c then (quotedLines false rest).map fun (cs, r) => (c :: cs, r)
      else none
termination_by s.length
decreasing_by
  · exact length_lineBreak?_lt _h
  · exact length_lineBreak?_lt _h
  · simp
  · simp
  · have := length_escape?_lt _he
    simp
    omega
  · have := length_lineBreak?_lt _hb
    have := (List.dropWhile_sublist (l := rest) isBlank).length_le
    simp
    omega
  · simp

/-- A text over several lines in single quotes up to its end. -/
def literalLines (s : List Char) : Option (List Char × List Char) :=
  match s with
  | [] => none
  | c :: rest =>
    match _h : lineBreak? (c :: rest) with
    | some after => (literalLines after).map fun (cs, r) => ('\n' :: cs, r)
    | none =>
      if c = '\'' then
        match closing? '\'' s with
        | some found => some found
        | none => (literalLines rest).map fun (cs, r) => (c :: cs, r)
      else if isPlain c then (literalLines rest).map fun (cs, r) => (c :: cs, r)
      else none
termination_by s.length
decreasing_by
  · exact length_lineBreak?_lt _h
  · simp
  · simp

/-- A text over several lines starts behind the end of the line that its quotes stand on. -/
def afterOpening (s : List Char) : List Char := (lineBreak? s).getD s

/-- A text on one line, as it may also stand for a key. -/
def textOnLine : Reader String := fun s =>
  match s with
  | '"' :: rest => (quoted rest).map fun (cs, r) => (String.ofList cs, r)
  | '\'' :: rest => (literal rest).map fun (cs, r) => (String.ofList cs, r)
  | _ => none

def text : Reader String := fun s =>
  match s with
  | '"' :: '"' :: '"' :: rest =>
    (quotedLines false (afterOpening rest)).map fun (cs, r) => (String.ofList cs, r)
  | '\'' :: '\'' :: '\'' :: rest =>
    (literalLines (afterOpening rest)).map fun (cs, r) => (String.ofList cs, r)
  | _ => textOnLine s

end Reader

/-! ### Keys and values -/

namespace Reader

def isBareKey (c : Char) : Bool := c.isAlphanum || c = '_' || c = '-'

/-- One part of a key. -/
def keyPart : Reader String := do
  blanks
  let part ← match ← peek with
    | some '"' | some '\'' => textOnLine
    | _ => String.ofList <$> takeWhile1 isBareKey
  blanks
  pure part

/-- How deep values may nest, and how many parts a key may have, all but one. -/
def depthLimit : Nat := 80

/-- A key: the path of tables that its dots name, and the last part. -/
def key : Reader (List String × String) := do
  let parts ← separated keyPart '.'
  match parts.getLast? with
  | some last => if parts.length < depthLimit then pure (parts.dropLast, last) else failure
  | none => failure

/-- Whether a character ends a word. -/
def endsWord (c : Char) : Bool := c ∈ [' ', '\t', '\n', '\r', '#', ',', ']', '\x7d']

def word : Reader (List Char) := takeWhile1 fun c => !endsWord c

/-- A value that is one word, or a date and a time with a blank between them. -/
def scalar : Reader Value := do
  let w ← word
  match Scalar.ofWord? w with
  | none => failure
  | some v => fun s =>
    match s with
    | ' ' :: c :: rest =>
      if Scalar.isPlainDate w && c.isDigit then
        (word (c :: rest)).bind fun (time, rest) =>
          if Scalar.isTimeWithOffset time then some (.date, rest) else none
      else some (v, s)
    | _ => some (v, s)

/-- The entries of an inline table. -/
def inlineEntries (pairs : List ((List String × String) × Value)) : Option Entries :=
  pairs.foldlM (fun es ((path, last), v) => es.add path last v) []

/-- A key, an equals sign and what follows it. -/
def pair (value : Reader Value) : Reader ((List String × String) × Value) := do
  let k ← key
  char '='
  blanks
  let v ← value
  pure (k, v)

/-- The items of an array, from behind its bracket. -/
def arrayItems (value : Reader Value) : Reader (List Value) := do
  gap
  if (← peek) = some ']' then
    char ']'
    pure []
  else
    let items ← separated (gap *> value <* gap) ','
    if (← peek) = some ',' then
      char ','
      gap
    char ']'
    pure items

/-- The pairs of an inline table, from behind its brace. -/
def inlinePairs (value : Reader Value) : Reader (List ((List String × String) × Value)) := do
  blanks
  if (← peek) = some '\x7d' then
    char '\x7d'
    pure []
  else
    let pairs ← separated (pair value <* blanks) ','
    char '\x7d'
    pure pairs

/-- A value in which at most `depth` brackets and braces are open at a time. -/
def value : Nat → Reader Value
  | 0 => scalarOrText
  | depth + 1 => do
    match ← peek with
    | some '[' =>
      char '['
      .array <$> arrayItems (value depth)
    | some '\x7b' =>
      char '\x7b'
      match inlineEntries (← inlinePairs (value depth)) with
      | some es => pure (.table .inline es)
      | none => failure
    | _ => scalarOrText
where
  /-- A value that opens neither bracket nor brace. -/
  scalarOrText : Reader Value := do
    match ← peek with
    | some '"' | some '\'' => .text <$> text
    | some '[' | some '\x7b' => failure
    | _ => scalar

end Reader

/-! ### Documents -/

/-- A statement of a document. -/
inductive Statement
  | add (path : List String) (key : String) (value : Value)
  | openTable (path : List String)
  | openElement (path : List String)

namespace Reader

/-- A header, from behind its first bracket. -/
def header : Reader Statement := do
  if (← peek) = some '[' then
    char '['
    let (path, last) ← key
    char ']'
    char ']'
    pure (.openElement (path ++ [last]))
  else
    let (path, last) ← key
    char ']'
    pure (.openTable (path ++ [last]))

/-- A statement with the rest of its line, or nothing but an end of line. -/
def statement : Reader (Option Statement) := do
  blanks
  match ← peek with
  | none => failure
  | some '\n' | some '\r' | some '#' =>
    restOfLine
    pure none
  | some '[' =>
    char '['
    let h ← header
    restOfLine
    pure (some h)
  | some _ =>
    let ((path, last), v) ← pair (value (depthLimit - 1))
    restOfLine
    pure (some (.add path last v))

/-- All statements of a text, which holds nothing else; a byte order mark may stand before
them. -/
def statements (s : String) : Option (List Statement) :=
  let cs := match s.toList with
    | '\ufeff' :: rest => rest
    | cs => cs
  let (found, rest) := many statement cs
  if (rest.dropWhile isBlank).isEmpty then some (found.filterMap fun st => st) else none

end Reader

/-- A document in the making: the root table, and the path of the table that was opened
last. -/
structure Document where
  root : Entries
  current : List String

namespace Document

def step (d : Document) : Statement → Option Document
  | .add path key v => (d.root.addUnder d.current path key v).map fun root => { d with root }
  | .openTable path => (d.root.openAt false path).map fun root => ⟨root, path⟩
  | .openElement path => (d.root.openAt true path).map fun root => ⟨root, path⟩

end Document

/-- The root table of a document. -/
def read (s : String) : Option Entries := do
  let statements ← Reader.statements s
  let d ← statements.foldlM Document.step ⟨[], []⟩
  some d.root

end Verdict.Toml
